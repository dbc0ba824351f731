/-!
# Reading text

A parser takes what it can from the front of a text and returns the rest.  It fails by returning
nothing, and then has taken nothing.

The loops are bounded by the length of the text in front of them, which no loop can outlast: each
round takes at least one character.
-/

set_option autoImplicit false

namespace RiscvTables

/-- Takes a value from the front of a text. -/
abbrev Parser (α : Type) : Type := List Char → Option (α × List Char)

namespace Parser

variable {α β : Type}

/-- The given text. -/
def literal : List Char → Parser Unit
  | [], text => some ((), text)
  | _ :: _, [] => none
  | c :: cs, d :: text => if c = d then literal cs text else none

/-- The longest run of characters of a class, which may be empty. -/
def run (isMember : Char → Bool) : Parser (List Char) := fun text =>
  some (text.span isMember)

/-- The longest run of characters of a class, of which there must be one. -/
def run1 (isMember : Char → Bool) : Parser (List Char) := fun text =>
  match text.span isMember with
  | ([], _) => none
  | (head, rest) => some (head, rest)

/-- Exactly `count` characters of a class. -/
def exactly (isMember : Char → Bool) : Nat → Parser (List Char)
  | 0, text => some ([], text)
  | _ + 1, [] => none
  | count + 1, c :: text =>
    if isMember c then (exactly isMember count text).map fun (head, rest) => (c :: head, rest)
    else none

/-- The first of two parsers that takes something. -/
def orElse (first second : Parser α) : Parser α := fun text =>
  (first text).or (second text)

/-- What a parser takes, if it takes something. -/
def optional (parser : Parser α) : Parser (Option α) := fun text =>
  match parser text with
  | some (a, rest) => some (some a, rest)
  | none => some (none, text)

/-- At most `rounds` values, as many as there are. -/
def repeatUpTo (parser : Parser α) : Nat → Parser (List α)
  | 0, text => some ([], text)
  | rounds + 1, text =>
    match parser text with
    | none => some ([], text)
    | some (a, rest) => (repeatUpTo parser rounds rest).map fun (as, rest) => (a :: as, rest)

/-- As many values as there are. -/
def many (parser : Parser α) : Parser (List α) := fun text =>
  repeatUpTo parser text.length text

/-- A value, and as many more as there are with a separator in front. -/
def separated1 (separator : Parser β) (parser : Parser α) : Parser (List α) := fun text => do
  let (first, rest) ← parser text
  let next : Parser α := fun text => do
    let (_, rest) ← separator text
    parser rest
  let (others, rest) ← many next rest
  return (first :: others, rest)

/-- Any number of values with separators between them. -/
def separated (separator : Parser β) (parser : Parser α) : Parser (List α) :=
  orElse (separated1 separator parser) fun text => some ([], text)

end Parser

/-! ## Numbers -/

/-- The value of a digit in any base up to 36. -/
def digitValue (c : Char) : Nat :=
  if c ≤ '9' then c.toNat - '0'.toNat
  else if c ≤ 'Z' then c.toNat - 'A'.toNat + 10
  else c.toNat - 'a'.toNat + 10

/-- The number that digits spell. -/
def numberOfDigits (base : Nat) (digits : List Char) : Nat :=
  digits.foldl (fun n c => n * base + digitValue c) 0

/-- A hexadecimal digit. -/
def isHexDigit (c : Char) : Bool :=
  c.isDigit || ('a' ≤ c && c ≤ 'f') || ('A' ≤ c && c ≤ 'F')

/-- The character with a code, if there is one. -/
def charOfCode? (code : Nat) : Option Char :=
  if code.isValidChar then some (Char.ofNat code) else none

end RiscvTables
