import RiscvTables.Document

/-!
# Writing JSON

Documents as JSON text: `Json.render` puts every item on a line of its own, two blanks for each
level, and `Json.renderLine` everything on one line without blanks.  What JSON has no form for, a
moment, is written as a text.
-/

set_option autoImplicit false

namespace RiscvTables
namespace Json

/-- The form of a character inside quotes. -/
def escapeChar (c : Char) : List Char :=
  if c = '"' then ['\\', '"']
  else if c = '\\' then ['\\', '\\']
  else if c = '\x08' then ['\\', 'b']
  else if c = '\x0c' then ['\\', 'f']
  else if c = '\n' then ['\\', 'n']
  else if c = '\r' then ['\\', 'r']
  else if c = '\t' then ['\\', 't']
  else if c < ' ' then '\\' :: 'u' :: Numeral.hexDigitsPadded 4 c.toNat
  else [c]

/-- A text in quotes. -/
def quote (s : String) : String :=
  "\"" ++ String.ofList (s.toList.flatMap escapeChar) ++ "\""

/-- The start of a line at a level. -/
def newline (level : Nat) : String :=
  "\n" ++ String.ofList (List.replicate (2 * level) ' ')

/-- Written items in brackets, each on its own line one level further in. -/
def block (opening closing : String) (level : Nat) (items : List String) : String :=
  if items = [] then opening ++ closing
  else opening ++ String.intercalate "," (items.map (newline (level + 1) ++ ·)) ++
    newline level ++ closing

mutual

/-- A document whose first line stands at a level. -/
def print (level : Nat) : Document → String
  | .null => "null"
  | .boolean value => if value then "true" else "false"
  | .integer value => toString value
  | .fraction literal => String.ofList literal
  | .text value => quote value
  | .moment literal => quote (String.ofList literal)
  | .list items => block "[" "]" level (printItems (level + 1) items)
  | .record fields => block "\x7b" "\x7d" level (printFields (level + 1) fields)

/-- The items of a list, each of them written. -/
def printItems (level : Nat) : List Document → List String
  | [] => []
  | item :: rest => print level item :: printItems level rest

/-- The fields of a record, each of them written. -/
def printFields (level : Nat) : List (String × Document) → List String
  | [] => []
  | (name, value) :: rest =>
    (quote name ++ ": " ++ print level value) :: printFields level rest

end

/-- A document as JSON text. -/
def render (document : Document) : String :=
  print 0 document

/-! ## On one line -/

mutual

/-- A document as JSON text on one line. -/
def renderLine : Document → String
  | .null => "null"
  | .boolean value => if value then "true" else "false"
  | .integer value => toString value
  | .fraction literal => String.ofList literal
  | .text value => quote value
  | .moment literal => quote (String.ofList literal)
  | .list items => "[" ++ String.intercalate "," (itemsOnLine items) ++ "]"
  | .record fields => "\x7b" ++ String.intercalate "," (fieldsOnLine fields) ++ "\x7d"

/-- The items of a list, each of them written. -/
def itemsOnLine : List Document → List String
  | [] => []
  | item :: rest => renderLine item :: itemsOnLine rest

/-- The fields of a record, each of them written. -/
def fieldsOnLine : List (String × Document) → List String
  | [] => []
  | (name, value) :: rest => (quote name ++ ":" ++ renderLine value) :: fieldsOnLine rest

end

end Json
end RiscvTables
