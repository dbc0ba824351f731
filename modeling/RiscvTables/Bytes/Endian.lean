import RiscvTables.Bytes

/-!
# Numbers as bytes

Fixed-width encodings of natural numbers: device trees store them most significant byte first,
tables least significant byte first.  A number that is too large for its width loses its high
bits, so the round trip is stated below a power of 256.

The big-endian codec is the little-endian one read backwards, and every law of it is the law of
the other through `List.reverse`.
-/

set_option autoImplicit false

namespace RiscvTables

/-- How many numbers there are of `width` bytes. -/
def Bytes.capacity : Nat → Nat
  | 0 => 1
  | width + 1 => 256 * capacity width

open Bytes (capacity)

/-! ## Least significant byte first -/

namespace LittleEndian

/-- The low `width` bytes of `n`. -/
def encode : Nat → Nat → Bytes
  | 0, _ => []
  | width + 1, n => UInt8.ofNat n :: encode width (n / 256)

/-- The number that the bytes spell. -/
def decode : Bytes → Nat
  | [] => 0
  | b :: rest => b.toNat + 256 * decode rest

@[simp] theorem length_encode (width n : Nat) : (encode width n).length = width := by
  induction width generalizing n with
  | zero => rfl
  | succ width ih => simp [encode, ih]

theorem decode_encode_mod (width n : Nat) : decode (encode width n) = n % capacity width := by
  induction width generalizing n with
  | zero => simp [encode, decode, capacity, Nat.mod_one]
  | succ width ih =>
    rw [encode, decode, ih, capacity, Nat.mod_mul]
    simp

theorem decode_encode {width n : Nat} (h : n < capacity width) : decode (encode width n) = n := by
  rw [decode_encode_mod, Nat.mod_eq_of_lt h]

theorem decode_lt (bytes : Bytes) : decode bytes < capacity bytes.length := by
  induction bytes with
  | nil => simp [decode, capacity]
  | cons b rest ih =>
    have := b.toNat_lt
    rw [decode, List.length_cons, capacity]
    omega

theorem decode_append (low high : Bytes) :
    decode (low ++ high) = decode low + capacity low.length * decode high := by
  induction low with
  | nil => simp [decode, capacity]
  | cons b rest ih =>
    rw [List.cons_append, decode, decode, ih, List.length_cons, capacity, Nat.mul_add,
      Nat.add_assoc, Nat.mul_assoc]

theorem encode_decode (bytes : Bytes) : encode bytes.length (decode bytes) = bytes := by
  induction bytes with
  | nil => rfl
  | cons b rest ih =>
    have hb := b.toNat_lt
    have hdiv : (b.toNat + 256 * decode rest) / 256 = decode rest := by omega
    have hmod : UInt8.ofNat (b.toNat + 256 * decode rest) = b := by
      apply UInt8.toNat_inj.1
      simp only [UInt8.toNat_ofNat']
      omega
    rw [List.length_cons, decode, encode, hdiv, hmod, ih]

end LittleEndian

/-! ## Most significant byte first -/

namespace BigEndian

/-- The low `width` bytes of `n`, most significant first. -/
def encode (width n : Nat) : Bytes :=
  (LittleEndian.encode width n).reverse

/-- The number that the bytes spell. -/
def decode (bytes : Bytes) : Nat :=
  LittleEndian.decode bytes.reverse

@[simp] theorem length_encode (width n : Nat) : (encode width n).length = width := by
  simp [encode]

theorem decode_encode {width n : Nat} (h : n < capacity width) : decode (encode width n) = n := by
  rw [decode, encode, List.reverse_reverse, LittleEndian.decode_encode h]

theorem decode_lt (bytes : Bytes) : decode bytes < capacity bytes.length := by
  simpa [decode] using LittleEndian.decode_lt bytes.reverse

theorem decode_append (high low : Bytes) :
    decode (high ++ low) = decode high * capacity low.length + decode low := by
  rw [decode, List.reverse_append, LittleEndian.decode_append, List.length_reverse, decode, decode,
    Nat.add_comm, Nat.mul_comm]

theorem encode_decode (bytes : Bytes) : encode bytes.length (decode bytes) = bytes := by
  have := LittleEndian.encode_decode bytes.reverse
  rw [List.length_reverse] at this
  rw [encode, decode, this, List.reverse_reverse]

end BigEndian
end RiscvTables
