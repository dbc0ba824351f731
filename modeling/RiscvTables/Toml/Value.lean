import RiscvTables.Document
import RiscvTables.Text.Decimal

/-!
# TOML values

Keys, strings, numbers, dates, arrays and inline tables: everything that can stand on either side
of an equals sign.  Arrays and inline tables nest at most 79 deep, and a key has at most 79 parts.

An inline table is read as the list of its key paths and values; `Toml.Table` says which of those
lists make sense.  It is taken as an argument here.
-/

set_option autoImplicit false

namespace RiscvTables
namespace Toml

/-- How deep arrays and inline tables may nest, and how many parts a key may have. -/
def maxDepth : Nat := 79

/-! ## Blanks, comments and line ends -/

/-- A blank within a line. -/
def isBlank (c : Char) : Bool :=
  c = ' ' || c = '\t'

/-- A text without the blanks in front of it. -/
def skipBlanks (text : List Char) : List Char :=
  text.dropWhile isBlank

/-- A character that may stand in a comment. -/
def isCommentChar (c : Char) : Bool :=
  c = '\t' || (' ' ≤ c && c ≠ '\x7f')

/-- A line end. -/
def newline : Parser Unit
  | '\n' :: rest => some ((), rest)
  | '\r' :: '\n' :: rest => some ((), rest)
  | _ => none

/-- A text without the comment in front of it, if there is one. -/
def skipComment : List Char → List Char
  | '#' :: rest => rest.dropWhile isCommentChar
  | text => text

/-- A line end, or the end of the text, with blanks and a comment in front of it. -/
def lineEnd : Parser Unit := fun text =>
  match skipComment (skipBlanks text) with
  | [] => some ((), [])
  | rest => newline rest

/-- A line end with blanks and a comment in front of it. -/
def blankLine : Parser Unit := fun text =>
  newline (skipComment (skipBlanks text))

/-- A text without the blanks, comments and line ends in front of it. -/
def skipLines (text : List Char) : List Char :=
  match Parser.many blankLine text with
  | some (_, rest) => skipBlanks rest
  | none => skipBlanks text

/-! ## Strings -/

/-- A character that may stand for itself between quotation marks. -/
def isBasicChar (c : Char) : Bool :=
  c = '\t' || (' ' ≤ c && c ≠ '"' && c ≠ '\\' && c ≠ '\x7f')

/-- A character that may stand between apostrophes. -/
def isLiteralChar (c : Char) : Bool :=
  c = '\t' || (' ' ≤ c && c ≠ '\'' && c ≠ '\x7f')

/-- The character that a letter behind a backslash stands for. -/
def escaped? : Char → Option Char
  | 'b' => some '\x08'
  | 't' => some '\t'
  | 'n' => some '\n'
  | 'f' => some '\x0c'
  | 'r' => some '\r'
  | '"' => some '"'
  | '\\' => some '\\'
  | _ => none

/-- The character whose code is written in the given number of hexadecimal digits. -/
def unicodeEscape (width : Nat) : Parser Char := fun text => do
  let (digits, rest) ← Parser.exactly isHexDigit width text
  return (← charOfCode? (numberOfDigits 16 digits), rest)

/-- A character behind a backslash. -/
def escape : Parser Char
  | '\\' :: 'u' :: rest => unicodeEscape 4 rest
  | '\\' :: 'U' :: rest => unicodeEscape 8 rest
  | '\\' :: c :: rest => (escaped? c).map (·, rest)
  | _ => none

/-- One character of a class. -/
def charOf (isMember : Char → Bool) : Parser Char
  | [] => none
  | c :: rest => if isMember c then some (c, rest) else none

/-- What one step of a multi-line string adds to it. -/
abbrev Piece : Type := List Char

/-- A string between quotation marks, on one line. -/
def basicString : Parser (List Char) := fun text => do
  let (_, rest) ← Parser.literal ['"'] text
  let (chars, rest) ← Parser.many (Parser.orElse (charOf isBasicChar) escape) rest
  let (_, rest) ← Parser.literal ['"'] rest
  return (chars, rest)

/-- A string between apostrophes, on one line. -/
def literalString : Parser (List Char) := fun text => do
  let (_, rest) ← Parser.literal ['\''] text
  let (chars, rest) ← Parser.run isLiteralChar rest
  let (_, rest) ← Parser.literal ['\''] rest
  return (chars, rest)

/-- A backslash at the end of a line, and all blanks and line ends up to the next character. -/
def lineContinuation : Parser Piece
  | '\\' :: rest => do
    let (_, rest) ← newline (skipBlanks rest)
    let wordOrLine : Parser Unit :=
      Parser.orElse newline fun text => (charOf isBlank text).map fun (_, rest) => ((), rest)
    let (_, rest) ← Parser.many wordOrLine rest
    return ([], rest)
  | _ => none

/-- A line end inside a string, which counts as a line feed. -/
def innerNewline : Parser Piece := fun text =>
  (newline text).map fun (_, rest) => (['\n'], rest)

/-- One or two delimiters that do not belong to a run of three. -/
def innerQuotes (quote : Char) : Parser Piece := fun text =>
  match text.span (· = quote) with
  | ([], _) => none
  | ([q], rest) => some ([q], rest)
  | ([q, r], rest) => some ([q, r], rest)
  | _ => none

/-- The end of a multi-line string: three delimiters, with one or two more in front of them that
belong to the string. -/
def closingQuotes (quote : Char) : Parser Piece := fun text =>
  let count := min 5 (text.takeWhile (· = quote)).length
  if count < 3 then none
  else some (List.replicate (count - 3) quote, text.drop count)

/-- A piece as one character. -/
def single (parser : Parser Char) : Parser Piece := fun text =>
  (parser text).map fun (c, rest) => ([c], rest)

/-- A string between three delimiters on each side.  A line end right behind the first three does
not count. -/
def multilineString (quote : Char) (piece : Parser Piece) : Parser (List Char) := fun text => do
  let (_, rest) ← Parser.literal [quote, quote, quote] text
  let (_, rest) ← Parser.optional newline rest
  let (pieces, rest) ← Parser.many (Parser.orElse piece (innerQuotes quote)) rest
  let (last, rest) ← closingQuotes quote rest
  return (pieces.flatten ++ last, rest)

/-- A multi-line string between quotation marks. -/
def multilineBasicString : Parser (List Char) :=
  multilineString '"' <|
    Parser.orElse (single (charOf isBasicChar)) <|
      Parser.orElse lineContinuation <| Parser.orElse (single escape) innerNewline

/-- A multi-line string between apostrophes. -/
def multilineLiteralString : Parser (List Char) :=
  multilineString '\'' (Parser.orElse (single (charOf isLiteralChar)) innerNewline)

/-- A string of any of the four sorts. -/
def string : Parser (List Char) := fun text =>
  match text with
  | '"' :: '"' :: '"' :: _ => multilineBasicString text
  | '"' :: _ => basicString text
  | '\'' :: '\'' :: '\'' :: _ => multilineLiteralString text
  | _ => literalString text

/-! ## Keys -/

/-- A character that a key may hold without quotes. -/
def isBareKeyChar (c : Char) : Bool :=
  c.isAlphanum || c = '-' || c = '_'

/-- One part of a key, with blanks on both sides. -/
def keyPart : Parser String := fun text =>
  let text := skipBlanks text
  let part : Parser (List Char) :=
    match text with
    | '"' :: _ => basicString
    | '\'' :: _ => literalString
    | _ => Parser.run1 isBareKeyChar
  (part text).map fun (chars, rest) => (String.ofList chars, skipBlanks rest)

/-- A key: parts with points between them. -/
def key : Parser (List String) := fun text => do
  let (parts, rest) ← Parser.separated1 (Parser.literal ['.']) keyPart text
  if parts.length ≤ maxDepth then some (parts, rest) else none

/-! ## Numbers -/

/-- Digits of a class, with single underscores allowed between them. -/
def digits (isMember : Char → Bool) : Parser (List Char) := fun text => do
  let (first, rest) ← charOf isMember text
  let next : Parser Char :=
    Parser.orElse (charOf isMember) fun text => do
      let (_, rest) ← Parser.literal ['_'] text
      charOf isMember rest
  let (others, rest) ← Parser.many next rest
  return (first :: others, rest)

/-- A sign; whether it is a minus. -/
def sign : Parser Bool := fun text =>
  match text with
  | '-' :: rest => some (true, rest)
  | '+' :: rest => some (false, rest)
  | _ => none

/-- A decimal integer: whether it has a minus, and its digits.  A zero in front of other digits is
an integer of its own. -/
def decimalInteger : Parser (Bool × List Char) := fun text => do
  let (negative, rest) ← Parser.optional sign text
  let (digits, rest) ←
    match rest with
    | '0' :: rest => some (['0'], rest)
    | _ => digits Char.isDigit rest
  return ((negative.getD false, digits), rest)

/-- An integer that fits 64 bits with a sign. -/
def boundedInteger (negative : Bool) (magnitude : Nat) : Option Document :=
  if negative then
    if magnitude ≤ 0x8000000000000000 then some (.integer (-(magnitude : Int))) else none
  else
    if magnitude < 0x8000000000000000 then some (.integer magnitude) else none

/-- An integer in another base, behind its mark. -/
def basedInteger (base : Nat) (isMember : Char → Bool) : Parser Document := fun text => do
  let (digits, rest) ← digits isMember text
  return (← boundedInteger false (numberOfDigits base digits), rest)

/-- An integer. -/
def integer : Parser Document := fun text =>
  match text with
  | '0' :: 'x' :: rest => basedInteger 16 isHexDigit rest
  | '0' :: 'o' :: rest => basedInteger 8 (fun c => '0' ≤ c && c ≤ '7') rest
  | '0' :: 'b' :: rest => basedInteger 2 (fun c => c = '0' || c = '1') rest
  | _ => do
    let ((negative, digits), rest) ← decimalInteger text
    return (← boundedInteger negative (numberOfDigits 10 digits), rest)

/-- What a parser takes, as it is written. -/
def written {α : Type} (parser : Parser α) : Parser (List Char) := fun text =>
  (parser text).map fun (_, rest) => (text.take (text.length - rest.length), rest)

/-- The digits behind a point. -/
def places : Parser (List Char) := fun text => do
  let (_, rest) ← Parser.literal ['.'] text
  digits Char.isDigit rest

/-- The power of ten behind an `e`. -/
def exponent : Parser Int := fun text => do
  let (_, rest) ← Parser.orElse (Parser.literal ['e']) (Parser.literal ['E']) text
  let (negative, rest) ← Parser.optional sign rest
  let (digits, rest) ← digits Char.isDigit rest
  let magnitude : Int := numberOfDigits 10 digits
  return (if negative.getD false then -magnitude else magnitude, rest)

/-- A decimal number with a point or an exponent.  It must not round to infinity, unless it is
negative. -/
def decimalFraction : Parser Unit := fun text => do
  let ((negative, whole), rest) ← decimalInteger text
  let (decimals, rest) ← Parser.optional places rest
  let (power, rest) ← Parser.optional exponent rest
  let value : Decimal := { whole, places := decimals.getD [], power := power.getD 0 }
  if decimals.isNone && power.isNone then none
  else if value.exceedsDouble && !negative then none
  else some ((), rest)

/-- Infinity, or what is not a number. -/
def specialFraction : Parser Unit := fun text => do
  let (_, rest) ← Parser.optional sign text
  Parser.orElse (Parser.literal ['i', 'n', 'f']) (Parser.literal ['n', 'a', 'n']) rest

/-- A number that is not an integer. -/
def fraction : Parser Document := fun text =>
  (written (Parser.orElse decimalFraction specialFraction) text).map fun (literal, rest) =>
    (.fraction literal, rest)

/-! ## Dates and times -/

/-- A number of exactly `width` digits, from `low` to `high`. -/
def numeral (width low high : Nat) : Parser Nat := fun text => do
  let (digits, rest) ← Parser.exactly Char.isDigit width text
  let n := numberOfDigits 10 digits
  if low ≤ n ∧ n ≤ high then some (n, rest) else none

/-- How many days a month has. -/
def daysInMonth (year month : Nat) : Nat :=
  if month = 2 then
    if year % 4 = 0 ∧ (year % 100 ≠ 0 ∨ year % 400 = 0) then 29 else 28
  else if month = 4 ∨ month = 6 ∨ month = 9 ∨ month = 11 then 30
  else 31

/-- A date. -/
def date : Parser Unit := fun text => do
  let (year, rest) ← numeral 4 0 9999 text
  let (_, rest) ← Parser.literal ['-'] rest
  let (month, rest) ← numeral 2 1 12 rest
  let (_, rest) ← Parser.literal ['-'] rest
  let (_, rest) ← numeral 2 1 (daysInMonth year month) rest
  return ((), rest)

/-- A time of day.  A minute may have a 61st second. -/
def time : Parser Unit := fun text => do
  let (_, rest) ← numeral 2 0 23 text
  let (_, rest) ← Parser.literal [':'] rest
  let (_, rest) ← numeral 2 0 59 rest
  let (_, rest) ← Parser.literal [':'] rest
  let (_, rest) ← numeral 2 0 60 rest
  let second : Parser (List Char) := fun text => do
    let (_, rest) ← Parser.literal ['.'] text
    Parser.run1 Char.isDigit rest
  let (_, rest) ← Parser.optional second rest
  return ((), rest)

/-- How far a time is from the prime meridian's. -/
def timeOffset : Parser Unit := fun text =>
  match text with
  | 'Z' :: rest | 'z' :: rest => some ((), rest)
  | _ => do
    let (_, rest) ← sign text
    let (_, rest) ← numeral 2 0 23 rest
    let (_, rest) ← Parser.literal [':'] rest
    let (_, rest) ← numeral 2 0 59 rest
    return ((), rest)

/-- A date with a time behind it. -/
def timeOfDate : Parser Unit := fun text => do
  let (_, rest) ← charOf (fun c => c = 'T' || c = 't' || c = ' ') text
  let (_, rest) ← time rest
  let (_, rest) ← Parser.optional timeOffset rest
  return ((), rest)

/-- A date, a time, or both. -/
def moment : Parser Document := fun text =>
  let dateTime : Parser Unit := fun text => do
    let (_, rest) ← date text
    let (_, rest) ← Parser.optional timeOfDate rest
    return ((), rest)
  (written (Parser.orElse dateTime time) text).map fun (literal, rest) => (.moment literal, rest)

/-! ## Values -/

/-- A word that stands for a value. -/
def word (name : String) (document : Document) : Parser Document := fun text =>
  (Parser.literal name.toList text).map fun (_, rest) => (document, rest)

/-- A value without parts. -/
def scalar : Parser Document := fun text =>
  match text with
  | [] => none
  | c :: _ =>
    if c = '"' ∨ c = '\'' then
      (string text).map fun (chars, rest) => (.text (String.ofList chars), rest)
    else if c = 't' then word "true" (.boolean true) text
    else if c = 'f' then word "false" (.boolean false) text
    else Parser.orElse moment (Parser.orElse fraction integer) text

/-- The items of an array, each of which may stand on lines of its own; a comma may follow the
last. -/
def array (value : Parser Document) : Parser Document := fun text => do
  let (_, rest) ← Parser.literal ['['] text
  let item : Parser Document := fun text =>
    (value (skipLines text)).map fun (document, rest) => (document, skipLines rest)
  let (items, rest) ← Parser.separated (Parser.literal [',']) item rest
  let rest ←
    match items, rest with
    | _ :: _, ',' :: rest => some rest
    | _, _ => some rest
  let (_, rest) ← Parser.literal [']'] (skipLines rest)
  return (.list items, rest)

/-- A key and its value. -/
def assignment (value : Parser Document) : Parser (List String × Document) := fun text => do
  let (path, rest) ← key text
  let (_, rest) ← Parser.literal ['='] rest
  let (document, rest) ← value (skipBlanks rest)
  return ((path, document), rest)

/-- A table on one line.  `collect` makes a document of its assignments. -/
def inlineTable (collect : List (List String × Document) → Option Document)
    (value : Parser Document) : Parser Document := fun text => do
  let (_, rest) ← Parser.literal ['\x7b'] text
  let item : Parser (List String × Document) := fun text =>
    (assignment value text).map fun (field, rest) => (field, skipBlanks rest)
  let (fields, rest) ← Parser.separated (Parser.literal [',']) item rest
  let (_, rest) ← Parser.literal ['\x7d'] (skipBlanks rest)
  return (← collect fields, rest)

/-- A value in which arrays and inline tables nest at most `depth` deep. -/
def value (collect : List (List String × Document) → Option Document) : Nat → Parser Document
  | 0, text => scalar text
  | depth + 1, text =>
    match text with
    | '[' :: _ => array (value collect depth) text
    | '\x7b' :: _ => inlineTable collect (value collect depth) text
    | _ => scalar text

end Toml
end RiscvTables
