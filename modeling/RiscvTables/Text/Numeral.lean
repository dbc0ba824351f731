/-!
# Numerals

How numbers are written in messages and listings: decimal without padding, hexadecimal with a
`0x` in front and lowercase digits, and both filled up to a column width where a listing asks for
it.  A numeral that is wider than its column is written in full.
-/

set_option autoImplicit false

namespace RiscvTables
namespace Numeral

/-- The hexadecimal digits of `n`, lowercase and without leading zeros. -/
def hexDigits (n : Nat) : List Char :=
  Nat.toDigits 16 n

/-- The hexadecimal digits of `n`, with zeros in front up to `width` digits. -/
def hexDigitsPadded (width n : Nat) : List Char :=
  List.replicate (width - (hexDigits n).length) '0' ++ hexDigits n

/-- `n` as `0x…`. -/
def hex (n : Nat) : String :=
  "0x" ++ String.ofList (hexDigits n)

/-- `n` as `0x…` with at least `width` digits after the `0x`. -/
def hexPadded (width n : Nat) : String :=
  "0x" ++ String.ofList (hexDigitsPadded width n)

/-- A text followed by blanks up to `width` characters. -/
def padRight (width : Nat) (text : String) : String :=
  text ++ String.ofList (List.replicate (width - text.length) ' ')

end Numeral
end RiscvTables
