import RiscvTables.Document
import RiscvTables.Text.Decimal

/-!
# Reading JSON

`Json.parse?` reads a JSON text as a document.  A record keeps all its fields in order, also those
of one name.  An integer is a number without point, exponent and the sign of a negative zero;
every other number is a fraction.  Neither may be too large for a double when its digits and its
power of ten are multiplied.

Lists and records nest at most 127 deep.  That bound is also what the reader recurses on.
-/

set_option autoImplicit false

namespace RiscvTables
namespace Json

/-- How deep lists and records may nest. -/
def maxDepth : Nat := 127

/-- A character that may stand between tokens. -/
def isBlank (c : Char) : Bool :=
  c = ' ' || c = '\t' || c = '\n' || c = '\r'

/-- A text without the blanks in front of it. -/
def skipBlanks (text : List Char) : List Char :=
  text.dropWhile isBlank

/-- A character, with blanks on both sides. -/
def mark (c : Char) : Parser Unit := fun text =>
  match skipBlanks text with
  | d :: rest => if c = d then some ((), skipBlanks rest) else none
  | [] => none

/-! ## Texts -/

/-- The character that a letter behind a backslash stands for. -/
def escaped? : Char → Option Char
  | '"' => some '"'
  | '\\' => some '\\'
  | '/' => some '/'
  | 'b' => some '\x08'
  | 'f' => some '\x0c'
  | 'n' => some '\n'
  | 'r' => some '\r'
  | 't' => some '\t'
  | _ => none

/-- The 16-bit unit that four hexadecimal digits spell. -/
def unit : Parser Nat := fun text => do
  let (digits, rest) ← Parser.exactly isHexDigit 4 text
  return (numberOfDigits 16 digits, rest)

/-- The character that one unit spells, or two of which the first is a high surrogate. -/
def unicodeEscape : Parser Char := fun text => do
  let (first, rest) ← unit text
  if 0xD800 ≤ first ∧ first < 0xDC00 then
    let (_, rest) ← Parser.literal ['\\', 'u'] rest
    let (second, rest) ← unit rest
    if 0xDC00 ≤ second ∧ second < 0xE000 then
      return (Char.ofNat (0x10000 + (first - 0xD800) * 0x400 + (second - 0xDC00)), rest)
    else none
  else
    return (← charOfCode? first, rest)

/-- One character of a text, written as itself or behind a backslash. -/
def textChar : Parser Char
  | [] => none
  | '"' :: _ => none
  | '\\' :: 'u' :: rest => unicodeEscape rest
  | '\\' :: c :: rest => (escaped? c).map (·, rest)
  | c :: rest => if c = '\\' ∨ c < ' ' then none else some (c, rest)

/-- A text in quotes. -/
def text : Parser String := fun input => do
  let (_, rest) ← Parser.literal ['"'] input
  let (chars, rest) ← Parser.many textChar rest
  let (_, rest) ← Parser.literal ['"'] rest
  return (String.ofList chars, rest)

/-! ## Numbers -/

/-- The digits before the point: one zero, or digits of which the first is not zero. -/
def integerDigits : Parser (List Char) := fun text => do
  match text with
  | '0' :: rest => return (['0'], rest)
  | _ => Parser.run1 Char.isDigit text

/-- A point and the digits behind it. -/
def fractionDigits : Parser (List Char) := fun text => do
  let (_, rest) ← Parser.literal ['.'] text
  Parser.run1 Char.isDigit rest

/-- The power of ten behind an `e`. -/
def exponent : Parser Int := fun text => do
  let (_, rest) ← Parser.orElse (Parser.literal ['e']) (Parser.literal ['E']) text
  match rest with
  | '-' :: rest =>
    let (digits, rest) ← Parser.run1 Char.isDigit rest
    return (-(numberOfDigits 10 digits : Int), rest)
  | '+' :: rest =>
    let (digits, rest) ← Parser.run1 Char.isDigit rest
    return (numberOfDigits 10 digits, rest)
  | _ =>
    let (digits, rest) ← Parser.run1 Char.isDigit rest
    return (numberOfDigits 10 digits, rest)

/-- A number. -/
def number : Parser Document := fun input => do
  let (sign, rest) ← Parser.optional (Parser.literal ['-']) input
  let (whole, rest) ← integerDigits rest
  let (places, rest) ← Parser.optional fractionDigits rest
  let (power, rest) ← Parser.optional exponent rest
  let value : Decimal := { whole, places := places.getD [], power := power.getD 0 }
  if value.productExceedsDouble then none
  else
    let magnitude := numberOfDigits 10 whole
    let isInteger := places.isNone && power.isNone && (sign.isNone || magnitude ≠ 0)
    let document : Document :=
      if isInteger then .integer (if sign.isSome then -(magnitude : Int) else magnitude)
      else .fraction (input.take (input.length - rest.length))
    return (document, rest)

/-! ## Values -/

/-- A word that stands for a value. -/
def word (name : String) (document : Document) : Parser Document := fun text =>
  (Parser.literal name.toList text).map fun (_, rest) => (document, rest)

/-- A field of a record. -/
def member (value : Parser Document) : Parser (String × Document) := fun input => do
  let (name, rest) ← text input
  let (_, rest) ← mark ':' rest
  let (document, rest) ← value rest
  return ((name, document), rest)

/-- Values of one sort in brackets, with commas between them. -/
def bracketed {α : Type} (opening closing : Char) (item : Parser α) : Parser (List α) :=
  fun input => do
    let (_, rest) ← Parser.literal [opening] input
    let (items, rest) ← Parser.separated (mark ',') item (skipBlanks rest)
    let (_, rest) ← Parser.literal [closing] (skipBlanks rest)
    return (items, rest)

/-- A value in which lists and records nest at most `depth` deep. -/
def value : Nat → Parser Document
  | 0, input => scalar input
  | depth + 1, input =>
    match input with
    | '[' :: _ =>
      (bracketed '[' ']' (value depth) input).map fun (items, rest) => (.list items, rest)
    | '{' :: _ =>
      (bracketed '{' '}' (member (value depth)) input).map fun (fields, rest) =>
        (.record fields, rest)
    | _ => scalar input
where
  /-- A value without parts. -/
  scalar : Parser Document := fun input =>
    match input with
    | '"' :: _ => (text input).map fun (s, rest) => (.text s, rest)
    | 't' :: _ => word "true" (.boolean true) input
    | 'f' :: _ => word "false" (.boolean false) input
    | 'n' :: _ => word "null" .null input
    | _ => number input

/-- The document that a JSON text holds, if it holds one and nothing else. -/
def parse? (input : String) : Option Document := do
  let (document, rest) ← value maxDepth (skipBlanks input.toList)
  if skipBlanks rest = [] then some document else none

end Json
end RiscvTables
