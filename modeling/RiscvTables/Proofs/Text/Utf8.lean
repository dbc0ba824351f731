import Mathlib.Tactic.IntervalCases
import RiscvTables.Text.Utf8

/-!
# The lossy reader on well-formed text

The lossy reader puts U+FFFD where bytes spell no character.  On the bytes of a text it never does:
it reads the text back (`decodeLossy_encode`).  The proof goes character by character; the bytes of
a character are its bits in base 64, and the reader shifts the same bits in.

`zero_mem_encode_iff` says which text has a zero byte, the byte that ends names in blobs and ISA
strings in tables.
-/

set_option autoImplicit false

namespace RiscvTables

/-- What ends at its first zero byte is found again. -/
theorem Bytes.takeWhile_ne_zero {text : Bytes} (h : 0 ∉ text) (rest : Bytes) :
    (text ++ 0 :: rest).takeWhile (· ≠ 0) = text := by
  have hall : ∀ b ∈ text, decide (b ≠ 0) = true := fun b hb =>
    decide_eq_true fun hzero => h (hzero ▸ hb)
  rw [List.takeWhile_append_of_pos hall]
  simp

namespace Utf8

/-! ## Text as the bytes of its characters -/

theorem encode_eq_flatMap (text : String) :
    encode text = text.toList.flatMap String.utf8EncodeChar := by
  rw [encode, ← String.utf8Encode_toList, List.utf8Encode]
  simp

theorem feedAll_cons (pending : Pending) (b : UInt8) (rest : Bytes) :
    feedAll pending (b :: rest) = (feed pending b).1 ++ feedAll (feed pending b).2 rest := by
  cases pending <;> rfl

/-! ## First bytes -/

theorem lead_one {n : Nat} (h : n ≤ 0x7f) :
    lead (UInt8.ofNat n) = ([Char.ofNat n], .between) := by
  have hn : (UInt8.ofNat n).toNat = n := by simp; omega
  have hlt : UInt8.ofNat n < 0x80 := by rw [UInt8.lt_iff_toNat_lt, hn]; simp; omega
  rw [lead, if_pos hlt, hn]

theorem lead_two {n : Nat} (h : 2 ≤ n) (h' : n < 0x20) :
    lead (UInt8.ofNat (n + 0xc0)) = ([], .inside 1 0x80 0xBF n) := by
  have hn : (UInt8.ofNat (n + 0xc0)).toNat = n + 0xc0 := by simp; omega
  have hge : ¬ UInt8.ofNat (n + 0xc0) < 0x80 := by rw [UInt8.lt_iff_toNat_lt, hn]; simp
  have hmem : 0xC2 ≤ UInt8.ofNat (n + 0xc0) ∧ UInt8.ofNat (n + 0xc0) ≤ 0xDF := by
    rw [UInt8.le_iff_toNat_le, UInt8.le_iff_toNat_le, hn]; simp; omega
  rw [lead, if_neg hge, if_pos hmem, hn]
  simp

/-- The two bounds keep out what fits two bytes and what is a surrogate. -/
theorem lead_three {n : Nat} (h : n < 0x10) :
    lead (UInt8.ofNat (n + 0xe0)) =
      ([], .inside 2 (if n = 0 then 0xA0 else 0x80) (if n = 0xD then 0x9F else 0xBF) n) := by
  interval_cases n <;> rfl

/-- The two bounds keep out what fits three bytes and what is above U+10FFFF. -/
theorem lead_four {n : Nat} (h : n < 5) :
    lead (UInt8.ofNat (n + 0xf0)) =
      ([], .inside 3 (if n = 0 then 0x90 else 0x80) (if n = 4 then 0x8F else 0xBF) n) := by
  interval_cases n <;> rfl

/-! ## Continuation bytes -/

/-- A continuation byte that the reader accepts, and that is not the last of its character. -/
theorem feed_tail {owed n bits : Nat} {low high : UInt8} (hn : n < 0x40)
    (hlow : low.toNat ≤ n + 0x80) (hhigh : n + 0x80 ≤ high.toNat) (howed : 1 < owed) :
    feed (.inside owed low high bits) (UInt8.ofNat (n + 0x80)) =
      ([], .inside (owed - 1) 0x80 0xBF (bits * 64 + n)) := by
  have htoNat : (UInt8.ofNat (n + 0x80)).toNat = n + 0x80 := by simp; omega
  have hmem : low ≤ UInt8.ofNat (n + 0x80) ∧ UInt8.ofNat (n + 0x80) ≤ high := by
    rw [UInt8.le_iff_toNat_le, UInt8.le_iff_toNat_le, htoNat]; exact ⟨hlow, hhigh⟩
  rw [feed, if_pos hmem, htoNat, if_neg (by omega)]
  simp

/-- The last continuation byte writes the character. -/
theorem feed_last {n bits : Nat} {low high : UInt8} (hn : n < 0x40)
    (hlow : low.toNat ≤ n + 0x80) (hhigh : n + 0x80 ≤ high.toNat) :
    feed (.inside 1 low high bits) (UInt8.ofNat (n + 0x80)) =
      ([Char.ofNat (bits * 64 + n)], .between) := by
  have htoNat : (UInt8.ofNat (n + 0x80)).toNat = n + 0x80 := by simp; omega
  have hmem : low ≤ UInt8.ofNat (n + 0x80) ∧ UInt8.ofNat (n + 0x80) ≤ high := by
    rw [UInt8.le_iff_toNat_le, UInt8.le_iff_toNat_le, htoNat]; exact ⟨hlow, hhigh⟩
  rw [feed, if_pos hmem, htoNat, if_pos (Nat.le_refl 1)]
  simp

/-! ## Whole characters -/

/-- **The reader reads a character back.** -/
theorem feedAll_utf8EncodeChar (c : Char) (rest : Bytes) :
    feedAll .between (String.utf8EncodeChar c ++ rest) = c :: feedAll .between rest := by
  have hvalid : c.val.toNat < 0xd800 ∨ (0xdfff < c.val.toNat ∧ c.val.toNat < 0x110000) := c.valid
  have hchar : Char.ofNat c.val.toNat = c := Char.ofNat_toNat c
  rw [String.utf8EncodeChar]
  generalize c.val.toNat = v at hvalid hchar
  subst hchar
  split
  next h1 =>
    rw [List.singleton_append, feedAll_cons, feed, lead_one h1]
    rfl
  split
  next h1 h2 =>
    rw [List.cons_append, List.singleton_append, feedAll_cons, feed,
      lead_two (n := v / 64 % 0x20) (by omega) (by omega), feedAll_cons,
      feed_last (by omega) (by simp) (by simp; omega)]
    rw [show v / 64 % 0x20 * 64 + v % 0x40 = v by omega]
    rfl
  split
  next h1 h2 h3 =>
    rw [List.cons_append, List.cons_append, List.singleton_append, feedAll_cons, feed,
      lead_three (n := v / 4096 % 0x10) (by omega), feedAll_cons,
      feed_tail (by omega) (by split <;> simp; omega) (by split <;> simp <;> omega) (by omega),
      feedAll_cons, feed_last (by omega) (by simp) (by simp; omega)]
    rw [show (v / 4096 % 0x10 * 64 + v / 64 % 0x40) * 64 + v % 0x40 = v by omega]
    rfl
  next h1 h2 h3 =>
    rw [List.cons_append, List.cons_append, List.cons_append, List.singleton_append, feedAll_cons,
      feed, lead_four (n := v / 262144 % 0x08) (by omega), feedAll_cons,
      feed_tail (by omega) (by split <;> simp; omega) (by split <;> simp <;> omega) (by omega),
      feedAll_cons, feed_tail (by omega) (by simp) (by simp; omega) (by omega), feedAll_cons,
      feed_last (by omega) (by simp) (by simp; omega)]
    rw [show ((v / 262144 % 0x08 * 64 + v / 4096 % 0x40) * 64 + v / 64 % 0x40) * 64 + v % 0x40
      = v by omega]
    rfl

/-- **The lossy reader loses nothing of a text.** -/
theorem decodeLossy_encode (text : String) : decodeLossy (encode text) = text := by
  have hchars : ∀ chars : List Char,
      feedAll .between (chars.flatMap String.utf8EncodeChar) = chars := by
    intro chars
    induction chars with
    | nil => rfl
    | cons c rest ih => rw [List.flatMap_cons, feedAll_utf8EncodeChar, ih]
  rw [decodeLossy, encode_eq_flatMap, hchars, String.ofList_toList]

/-! ## Zero bytes -/

theorem zero_mem_utf8EncodeChar_iff (c : Char) :
    0 ∈ String.utf8EncodeChar c ↔ c = '\x00' := by
  have hzero : ∀ n, 0 < n → n < 256 → (0 : UInt8) ≠ UInt8.ofNat n := by
    intro n hpos hlt h
    have := congrArg UInt8.toNat h
    simp only [UInt8.toNat_ofNat'] at this
    simp at this
    omega
  constructor
  · intro h
    rw [String.utf8EncodeChar] at h
    split at h
    next h1 =>
      rcases Nat.eq_zero_or_pos c.val.toNat with hv | hv
      · exact Char.ext (UInt32.toNat_inj.1 hv)
      · exact absurd (List.mem_singleton.1 h) (hzero _ hv (by omega))
    -- every byte of a longer character has its top bit set
    · exfalso
      split at h
      · simp only [List.mem_cons, List.not_mem_nil, or_false] at h
        rcases h with h | h <;> exact hzero _ (by omega) (by omega) h
      split at h
      · simp only [List.mem_cons, List.not_mem_nil, or_false] at h
        rcases h with h | h | h <;> exact hzero _ (by omega) (by omega) h
      · simp only [List.mem_cons, List.not_mem_nil, or_false] at h
        rcases h with h | h | h | h <;> exact hzero _ (by omega) (by omega) h
  · rintro rfl
    decide

/-- A text has a zero byte exactly when it has the character U+0000. -/
theorem zero_mem_encode_iff (text : String) : 0 ∈ encode text ↔ '\x00' ∈ text.toList := by
  rw [encode_eq_flatMap, List.mem_flatMap]
  constructor
  · rintro ⟨c, hc, hzero⟩
    exact (zero_mem_utf8EncodeChar_iff c).1 hzero ▸ hc
  · intro h
    exact ⟨_, h, (zero_mem_utf8EncodeChar_iff _).2 rfl⟩

end Utf8
end RiscvTables
