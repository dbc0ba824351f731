import RiscvTables.Text.Parser

/-!
# Decimal numbers and doubles

A format that takes its numbers for doubles refuses a number that is too large for one.  How large
that is depends on how the double comes about.

* `Decimal.exceedsDouble`: the number is rounded once, as a whole.
* `Decimal.productExceedsDouble`: the number is formed as a product.  Its leading digits, as many
  as fit 64 bits, are rounded, the power of ten beside them is rounded, and their product is
  rounded again.

Near the largest double neither of the two rules implies the other.
-/

set_option autoImplicit false

namespace RiscvTables

/-! ## Rounding -/

/-- A quotient rounded to the nearest number, a half to the even one. -/
def roundQuotient (n d : Nat) : Nat :=
  if 2 * (n % d) < d ∨ (2 * (n % d) = d ∧ n / d % 2 = 0) then n / d else n / d + 1

theorem roundQuotient_near (n : Nat) {d : Nat} (h : 0 < d) :
    2 * (d * roundQuotient n d) ≤ 2 * n + d ∧ 2 * n ≤ 2 * (d * roundQuotient n d) + d := by
  have hdiv := Nat.div_add_mod n d
  have hmod := Nat.mod_lt n h
  rw [roundQuotient]
  split
  · omega
  · rw [Nat.mul_add, Nat.mul_one]
    omega

/-- A number rounded to its leading 53 bits, as a double would hold it. -/
def roundToDouble (n : Nat) : Nat :=
  let step := 1 <<< (n.log2 - 52)
  roundQuotient n step * step

/-- The least number that rounding makes too large for a double. -/
def doubleBound : Nat := 1 <<< 1024

/-! ## Decimal numbers -/

/-- A number without its sign: the digits before and behind the point, and the power of ten that
it is multiplied by. -/
structure Decimal where
  whole : List Char
  places : List Char := []
  power : Int := 0

namespace Decimal

variable (decimal : Decimal)

/-- Whether the number, rounded as a whole, is too large for a double. -/
def exceedsDouble : Bool :=
  let digits := decimal.whole ++ decimal.places
  let exponent := decimal.power - decimal.places.length
  let magnitude := (digits.dropWhile (· = '0')).length + exponent
  let significand := numberOfDigits 10 digits
  let limit := ((1 <<< 54) - 1) <<< 970
  if significand = 0 ∨ magnitude < 308 then false
  else if 310 < magnitude then true
  else if 0 ≤ exponent then limit ≤ significand * Nat.pow 10 exponent.toNat
  else limit * Nat.pow 10 (-exponent).toNat ≤ significand

/-- Adds digits behind a number as long as it fits 64 bits.  The number, and how many digits were
not added. -/
def appendDigits : Nat → List Char → Nat × Nat
  | n, [] => (n, 0)
  | n, c :: rest =>
    let next := n * 10 + digitValue c
    if next < UInt64.size then appendDigits next rest else (n, rest.length + 1)

/-- The leading digits as a number, and the power of ten that it is multiplied by. -/
def leadingProduct : Nat × Int :=
  let (leading, skipped) := appendDigits 0 decimal.whole
  let (significand, ignored) := appendDigits leading decimal.places
  (significand, decimal.power + skipped - (decimal.places.length - ignored : Nat))

/-- Whether the number, formed as a product, is too large for a double. -/
def productExceedsDouble : Bool :=
  let (significand, exponent) := decimal.leadingProduct
  if significand = 0 ∨ exponent < 0 then false
  else if 308 < exponent then true
  else
    doubleBound ≤ roundToDouble (roundToDouble significand *
      roundToDouble (Nat.pow 10 exponent.toNat))

end Decimal
end RiscvTables
