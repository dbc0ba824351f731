/-!
# Byte strings

Blobs, property values and tables are lists of bytes.  This file holds what all of them need:
cutting a list at a length that may not be there, padding to an alignment, and the sum of the
bytes modulo 256.

The cut is the only way the decoders look at their input, so a read past the end is a `none`
that the caller turns into the error of its own format.
-/

set_option autoImplicit false

namespace RiscvTables

/-- A byte string. -/
abbrev Bytes := List UInt8

namespace Bytes

/-! ## Cutting -/

/-- The first `n` bytes and what follows them; nothing when fewer than `n` bytes are there. -/
def split? (n : Nat) (bytes : Bytes) : Option (Bytes × Bytes) :=
  let head := bytes.take n
  if head.length = n then some (head, bytes.drop n) else none

theorem split?_eq_some_iff {n : Nat} {bytes head rest : Bytes} :
    split? n bytes = some (head, rest) ↔ bytes = head ++ rest ∧ head.length = n := by
  constructor
  · intro h
    simp only [split?] at h
    split at h
    · next hlen =>
      obtain ⟨rfl, rfl⟩ := by simpa using h
      exact ⟨(List.take_append_drop n bytes).symm, hlen⟩
    · cases h
  · rintro ⟨rfl, rfl⟩
    simp [split?]

theorem split?_eq_none_iff {n : Nat} {bytes : Bytes} :
    split? n bytes = none ↔ bytes.length < n := by
  simp only [split?, List.length_take]
  split
  · next h => simp only [reduceCtorEq, false_iff]; omega
  · next h => simp only [true_iff]; omega

theorem split?_drop {n start : Nat} {bytes : Bytes} (h : start ≤ bytes.length) :
    split? n (bytes.drop start) =
      if start + n ≤ bytes.length then some ((bytes.drop start).take n, bytes.drop (start + n))
      else none := by
  split
  · rw [split?_eq_some_iff, ← List.drop_drop, List.take_append_drop]
    exact ⟨rfl, List.length_take_of_le (by rw [List.length_drop]; omega)⟩
  · rw [split?_eq_none_iff, List.length_drop]
    omega

/-- The `length` bytes from position `start` on, if all of them are there. -/
def slice? (start length : Nat) (bytes : Bytes) : Option Bytes :=
  (split? start bytes).bind fun (_, tail) => (split? length tail).map Prod.fst

theorem slice?_eq_some_iff {start length : Nat} {bytes body : Bytes} :
    slice? start length bytes = some body ↔
      ∃ before after, bytes = before ++ body ++ after ∧
        before.length = start ∧ body.length = length := by
  constructor
  · intro h
    simp only [slice?, Option.bind_eq_some_iff, Option.map_eq_some_iff, Prod.exists] at h
    obtain ⟨before, tail, h1, body', after, h2, rfl⟩ := h
    obtain ⟨rfl, hb⟩ := split?_eq_some_iff.1 h1
    obtain ⟨rfl, hl⟩ := split?_eq_some_iff.1 h2
    exact ⟨before, after, by simp, hb, hl⟩
  · rintro ⟨before, after, rfl, rfl, rfl⟩
    simp [slice?, split?]

theorem slice?_eq (start length : Nat) (bytes : Bytes) :
    slice? start length bytes =
      if start + length ≤ bytes.length then some ((bytes.drop start).take length) else none := by
  by_cases h : start + length ≤ bytes.length
  · rw [if_pos h, slice?_eq_some_iff]
    refine ⟨bytes.take start, (bytes.drop start).drop length, ?_, ?_, ?_⟩
    · rw [List.append_assoc, List.take_append_drop, List.take_append_drop]
    · exact List.length_take_of_le (by omega)
    · exact List.length_take_of_le (by rw [List.length_drop]; omega)
  · rw [if_neg h, Option.eq_none_iff_forall_ne_some]
    intro body hbody
    obtain ⟨before, after, rfl, rfl, rfl⟩ := slice?_eq_some_iff.1 hbody
    simp only [List.length_append] at h
    omega

/-! ## Alignment -/

/-- The least multiple of `step` that is not below `n`. -/
def roundUp (step n : Nat) : Nat :=
  (n + (step - 1)) / step * step

/-- How many bytes separate `n` from the next multiple of `step`. -/
def gap (step n : Nat) : Nat :=
  roundUp step n - n

/-- The bytes followed by zeros up to the next multiple of `step`. -/
def padTo (step : Nat) (bytes : Bytes) : Bytes :=
  bytes ++ List.replicate (gap step bytes.length) 0

theorem le_roundUp {step : Nat} (n : Nat) (h : 0 < step) : n ≤ roundUp step n := by
  have := Nat.div_add_mod (n + (step - 1)) step
  have := Nat.mod_lt (n + (step - 1)) h
  rw [roundUp, Nat.mul_comm]
  omega

theorem roundUp_mod (step n : Nat) : roundUp step n % step = 0 := by
  simp [roundUp]

theorem length_padTo {step : Nat} (bytes : Bytes) (h : 0 < step) :
    (padTo step bytes).length = roundUp step bytes.length := by
  have := le_roundUp bytes.length h
  simp only [padTo, gap, List.length_append, List.length_replicate]
  omega

/-- Behind a number of whole steps only what comes last is filled up. -/
theorem padTo_append {step : Nat} {front : Bytes} (bytes : Bytes) (h : 0 < step)
    (hfront : front.length % step = 0) :
    padTo step (front ++ bytes) = front ++ padTo step bytes := by
  obtain ⟨steps, hsteps⟩ := Nat.dvd_of_mod_eq_zero hfront
  have hroundUp : roundUp step (front.length + bytes.length) =
      front.length + roundUp step bytes.length := by
    rw [roundUp, roundUp, hsteps, Nat.add_assoc, Nat.mul_add_div h, Nat.add_mul,
      Nat.mul_comm steps]
  rw [padTo, padTo, List.length_append, gap, hroundUp, gap, Nat.add_sub_add_left,
    List.append_assoc]

/-! ## The sum of the bytes -/

/-- The sum of all bytes modulo 256. -/
def byteSum (bytes : Bytes) : UInt8 :=
  bytes.foldl (· + ·) 0

theorem foldl_add_eq (bytes : Bytes) (start : UInt8) :
    bytes.foldl (· + ·) start = start + byteSum bytes := by
  induction bytes generalizing start with
  | nil => simp [byteSum]
  | cons b rest ih =>
    rw [byteSum, List.foldl_cons, List.foldl_cons, ih, ih (0 + b)]
    simp [UInt8.add_assoc]

@[simp] theorem byteSum_nil : byteSum [] = 0 := rfl

@[simp] theorem byteSum_cons (b : UInt8) (rest : Bytes) :
    byteSum (b :: rest) = b + byteSum rest := by
  rw [byteSum, List.foldl_cons, foldl_add_eq]; simp

@[simp] theorem byteSum_append (a b : Bytes) : byteSum (a ++ b) = byteSum a + byteSum b := by
  induction a with
  | nil => simp
  | cons x xs ih => simp [ih, UInt8.add_assoc]

/-- A byte adds to the sum of the others. -/
theorem byteSum_set {bytes : Bytes} {i : Nat} (h : i < bytes.length) (b : UInt8) :
    byteSum (bytes.set i b) = byteSum (bytes.set i 0) + b := by
  have hset : ∀ value : UInt8, byteSum (bytes.set i value) =
      byteSum (bytes.take i) + (value + byteSum (bytes.drop (i + 1))) := by
    intro value
    rw [List.set_eq_take_append_cons_drop, if_pos h, byteSum_append, byteSum_cons]
  rw [hset, hset, UInt8.zero_add, UInt8.add_assoc, UInt8.add_comm b]

end Bytes
end RiscvTables
