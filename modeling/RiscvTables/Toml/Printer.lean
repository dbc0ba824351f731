import RiscvTables.Document

/-!
# Writing TOML

A document is written as lines of its own keys, followed by sections, each under a header with an
empty line in front.  `Toml.render?` writes such a `Layout`; it fails on a number that has no form
in TOML.  `Toml.write?` writes a document that has a layout: a record of single values, of records,
and of lists of records.

A string is written in the plainest of the four forms that can hold it: between quotation marks,
between apostrophes, and the same over several lines; escapes are the last resort.
-/

set_option autoImplicit false

namespace RiscvTables
namespace Toml

/-- A value on a line. -/
inductive Scalar where
  | text (value : String)
  | natural (value : Nat)
  | boolean (value : Bool)
deriving DecidableEq

/-- Keys under a header, which may be one of several alike. -/
structure Section where
  name : String
  isRepeated : Bool
  entries : List (String × Scalar)

/-- Keys, and sections behind them. -/
structure Layout where
  entries : List (String × Scalar)
  sections : List Section

/-! ## Strings -/

/-- A character that only an escape can put into a string. -/
def isControl (c : Char) : Bool :=
  (c < ' ' && c ≠ '\t' && c ≠ '\n') || c = '\x7f'

/-- The length of the longest run of a character. -/
def longestRun (c : Char) (text : List Char) : Nat :=
  (text.foldl (fun (longest, current) d =>
    if d = c then (max longest (current + 1), current + 1) else (longest, 0)) (0, 0)).1

/-- Whether a text has a character of a class. -/
def hasAny (isMember : Char → Bool) (text : List Char) : Bool :=
  text.any isMember

/-- The form of a character behind a backslash, where a line feed has to be escaped or not.
`run` is how many quotation marks stand directly in front, and `allowed` how many may stand
together. -/
def escapeChar (multiline : Bool) (allowed run : Nat) (c : Char) : List Char :=
  if c = '\x08' then ['\\', 'b']
  else if c = '\t' then ['\\', 't']
  else if c = '\x0c' then ['\\', 'f']
  else if c = '\r' then ['\\', 'r']
  else if c = '\\' then ['\\', '\\']
  else if c = '\n' then (if multiline then ['\n'] else ['\\', 'n'])
  else if c = '"' then (if allowed ≤ run then ['\\', '"'] else ['"'])
  else if c < ' ' ∨ c = '\x7f' then
    '\\' :: 'u' :: (Numeral.hexDigitsPadded 4 c.toNat).map Char.toUpper
  else [c]

/-- A text with its escapes, behind `run` quotation marks. -/
def escapeText (multiline : Bool) (allowed : Nat) : Nat → List Char → List Char
  | _, [] => []
  | run, c :: rest =>
    let written := escapeChar multiline allowed run c
    let next := if written = ['"'] then run + 1 else 0
    written ++ escapeText multiline allowed next rest

/-- A string between single delimiters. -/
def inline (delimiter : Char) (body : List Char) : List Char :=
  [delimiter] ++ body ++ [delimiter]

/-- A string between triple delimiters.  A text of several lines starts on a line of its own. -/
def block (delimiter : Char) (text body : List Char) : List Char :=
  let fence := List.replicate 3 delimiter
  fence ++ (if '\n' ∈ text then ['\n'] else []) ++ body ++ fence

/-- A string in the plainest form that can hold it. -/
def quote (text : List Char) : List Char :=
  let isControlled := hasAny isControl text
  let hasLines := '\n' ∈ text
  if !isControlled ∧ '\\' ∉ text ∧ '"' ∉ text ∧ !hasLines then
    inline '"' (escapeText false 0 0 text)
  else if !isControlled ∧ '\'' ∉ text ∧ !hasLines then inline '\'' text
  else if !isControlled ∧ '\\' ∉ text ∧ longestRun '"' text < 3 then
    block '"' text (escapeText true 2 0 text)
  else if !isControlled ∧ longestRun '\'' text < 3 then block '\'' text text
  else if hasLines then block '"' text (escapeText true 2 0 text)
  else inline '"' (escapeText false 0 0 text)

/-! ## Lines -/

/-- The least natural number that does not fit 64 bits with a sign. -/
def integerBound : Nat := 0x8000000000000000

/-- A value as text.  A number has no form if it does not fit 64 bits with a sign. -/
def Scalar.render? : Scalar → Option (List Char)
  | .text value => some (quote value.toList)
  | .natural value => if value < integerBound then some (toString value).toList else none
  | .boolean value => some (if value then "true".toList else "false".toList)

/-- A line that gives a key its value. -/
def renderEntry? (entry : String × Scalar) : Option (List Char) := do
  return entry.1.toList ++ " = ".toList ++ (← entry.2.render?) ++ ['\n']

/-- Lines that give keys their values. -/
def renderEntries? (entries : List (String × Scalar)) : Option (List Char) := do
  return (← entries.mapM renderEntry?).flatten

/-- A section: an empty line, a header, and the lines of its keys. -/
def Section.render? (self : Section) : Option (List Char) := do
  let header :=
    if self.isRepeated then "[[".toList ++ self.name.toList ++ "]]".toList
    else "[".toList ++ self.name.toList ++ "]".toList
  return ['\n'] ++ header ++ ['\n'] ++ (← renderEntries? self.entries)

/-- A layout as TOML text. -/
def render? (layout : Layout) : Option String := do
  let entries ← renderEntries? layout.entries
  let sections ← layout.sections.mapM Section.render?
  return String.ofList (entries ++ sections.flatten)

/-! ## Documents -/

/-- The value on a line that a document is. -/
def Scalar.ofDocument? : Document → Option Scalar
  | .text value => some (.text value)
  | .integer (.ofNat value) => some (.natural value)
  | .boolean value => some (.boolean value)
  | _ => none

/-- The keys and values of a record. -/
def entriesOfDocument? : Document → Option (List (String × Scalar))
  | .record fields => fields.mapM fun field => do return (field.1, ← Scalar.ofDocument? field.2)
  | _ => none

/-- The sections that a field is: one for a record, and one for each item of a list. -/
def sectionsOfField? (field : String × Document) : Option (List Section) :=
  match field.2 with
  | .list [] => none
  | .list items => items.mapM fun item => do return ⟨field.1, true, ← entriesOfDocument? item⟩
  | document => do return [⟨field.1, false, ← entriesOfDocument? document⟩]

/-- The keys and sections of a record.  Its single values come first, wherever they stand in it. -/
def Layout.ofDocument? : Document → Option Layout
  | .record fields => do
    let isSingle : String × Document → Bool := fun field => (Scalar.ofDocument? field.2).isSome
    let entries ← entriesOfDocument? (.record (fields.filter isSingle))
    let sections ← (fields.filter (!isSingle ·)).mapM sectionsOfField?
    return { entries, sections := sections.flatten }
  | _ => none

/-- A document as TOML text. -/
def write? (document : Document) : Option String := do
  render? (← Layout.ofDocument? document)

end Toml
end RiscvTables
