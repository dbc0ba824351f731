import RiscvTables.Toml.Printer
import RiscvTables.Toml.Table
import RiscvTables.Toml.Value

/-!
# Reading TOML

A TOML text is a sequence of lines.  A line opens a table, opens one more table of a repeated
header, or gives a key of the current table a value; a value may run over several lines.
`Toml.parse?` carries out the lines one after the other and returns the document, a record, that
they have built.
-/

set_option autoImplicit false

namespace RiscvTables
namespace Toml

/-- What a line says. -/
inductive Line where
  | blank
  | table (path : List String)
  | element (path : List String)
  | assignment (path : List String) (document : Document)

/-- A header, with nothing but a comment behind it on its line. -/
def header (opening closing : List Char) (make : List String → Line) : Parser Line :=
  fun text => do
    let (_, rest) ← Parser.literal opening text
    let (path, rest) ← key rest
    let (_, rest) ← Parser.literal closing rest
    let (_, rest) ← lineEnd rest
    return (make path, rest)

/-- A line, which must not be at the end of the text already. -/
def line : Parser Line := fun text =>
  let text := skipBlanks text
  match text with
  | '#' :: _ | '\n' :: _ | '\r' :: _ => (lineEnd text).map fun (_, rest) => (.blank, rest)
  | '[' :: '[' :: _ => header ['[', '['] [']', ']'] .element text
  | '[' :: _ => header ['['] [']'] .table text
  | _ => do
    let ((path, document), rest) ← assignment (value collectInline maxDepth) text
    let (_, rest) ← lineEnd rest
    return (.assignment path document, rest)

/-- The tables built so far, and the path of the current one. -/
structure State where
  entries : Entries
  current : List String

/-- Carries out a line. -/
def State.step (state : State) : Line → Option State
  | .blank => some state
  | .table path => do
    return { entries := ← Entries.openTable path state.entries, current := path }
  | .element path => do
    return { entries := ← Entries.openElement path state.entries, current := path }
  | .assignment path document => do
    let assign := Entries.assign document path .header
    return { state with entries := ← Entries.atCurrent assign state.current state.entries }

/-- A text without the mark that may stand at its very beginning. -/
def dropByteOrderMark : List Char → List Char
  | '\ufeff' :: rest => rest
  | text => text

/-- The document that a TOML text holds. -/
def parse? (input : String) : Option Document := do
  let (lines, rest) ← Parser.many line (dropByteOrderMark input.toList)
  if skipBlanks rest ≠ [] then none
  else
    let state ← lines.foldlM State.step { entries := [], current := [] }
    return .record (entriesToFields state.entries)

/-- TOML as a text format. -/
def format : Document.Format where
  write? := write?
  read? := parse?

end Toml
end RiscvTables
