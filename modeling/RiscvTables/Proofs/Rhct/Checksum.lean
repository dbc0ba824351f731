import Mathlib.Algebra.Ring.Nat
import RiscvTables.Rhct.View

/-!
# The checksum of a table

The checksum is computed from the table it is put into.  It is zeroed first, so all that it depends
on is the sum of the other bytes, and since a byte adds to the sum of the others
(`Bytes.byteSum_set`), exactly one value of it makes a table sum to zero
(`byteSum_set_checksum_iff`).

Hence the finished table is the only one that sums to zero and has the same bytes but for the
checksum (`finalizeChecksum_eq_iff`).  That the old checksum does not matter
(`finalizeChecksum_congr`) and that a finished table stays as it is (`finalizeChecksum_idem`) are
read off from this.
-/

set_option autoImplicit false

namespace RiscvTables

/-- The sum of the bytes is the sum of the numbers they stand for, modulo 256. -/
theorem Bytes.toNat_byteSum (bytes : Bytes) :
    (byteSum bytes).toNat = (bytes.map UInt8.toNat).sum % 256 := by
  induction bytes with
  | nil => rfl
  | cons b rest ih =>
    rw [byteSum_cons, UInt8.toNat_add, ih, List.map_cons, List.sum_cons]
    exact Nat.add_mod_mod _ _ _

namespace Rhct

variable {table other finished : Bytes}

theorem checksumOffset_lt (h : sdtHeaderSize ≤ table.length) : checksumOffset < table.length :=
  Nat.lt_of_lt_of_le (by decide) h

/-! ## Tables that differ in the checksum alone -/

/-- The same bytes but for the checksum. -/
structure SameButChecksum (table other : Bytes) : Prop where
  length_eq : other.length = table.length
  getElem?_eq : ∀ i, i ≠ checksumOffset → other[i]? = table[i]?

namespace SameButChecksum

theorem refl (table : Bytes) : SameButChecksum table table := ⟨rfl, fun _ _ => rfl⟩

theorem trans (h : SameButChecksum table other) (h' : SameButChecksum other finished) :
    SameButChecksum table finished :=
  ⟨h'.length_eq.trans h.length_eq,
    fun i hi => (h'.getElem?_eq i hi).trans (h.getElem?_eq i hi)⟩

theorem set (table : Bytes) (value : UInt8) :
    SameButChecksum table (table.set checksumOffset value) :=
  ⟨List.length_set, fun _ hi => List.getElem?_set_ne hi.symm⟩

theorem exists_eq_set (h : SameButChecksum table other) :
    ∃ value, other = table.set checksumOffset value := by
  refine ⟨other[checksumOffset]?.getD 0, List.ext_getElem? fun i => ?_⟩
  by_cases hi : i = checksumOffset
  · subst hi
    rw [List.getElem?_set_self']
    by_cases hlt : checksumOffset < table.length
    · rw [List.getElem?_eq_getElem hlt, List.getElem?_eq_getElem (h.length_eq ▸ hlt)]
      rfl
    · have hle := Nat.not_lt.1 hlt
      rw [List.getElem?_eq_none hle, List.getElem?_eq_none (h.length_eq ▸ hle)]
      rfl
  · rw [List.getElem?_set_ne (Ne.symm hi), h.getElem?_eq i hi]

/-- Behind the checksum there is no difference. -/
theorem drop_eq (h : SameButChecksum table other) {start : Nat} (hstart : checksumOffset < start) :
    other.drop start = table.drop start := by
  obtain ⟨value, rfl⟩ := h.exists_eq_set
  exact List.drop_set_of_lt hstart

end SameButChecksum

/-! ## The finished table -/

theorem finalizeChecksum_of_header (h : sdtHeaderSize ≤ table.length) :
    finalizeChecksum table = table.set checksumOffset (checksum (table.set checksumOffset 0)) :=
  if_neg (Nat.not_lt.2 h)

theorem finalizeChecksum_of_short (h : table.length < sdtHeaderSize) :
    finalizeChecksum table = table :=
  if_pos h

/-- Setting the checksum replaces one byte, whatever that byte was. -/
theorem finalizeChecksum_append {before : Bytes} (after : Bytes) (old : UInt8)
    (hbefore : before.length = checksumOffset)
    (hheader : sdtHeaderSize ≤ (before ++ old :: after).length) :
    finalizeChecksum (before ++ old :: after) =
      before ++ checksum (before ++ 0 :: after) :: after := by
  have hset : ∀ b : UInt8,
      (before ++ old :: after).set checksumOffset b = before ++ b :: after := by
    intro b
    rw [List.set_append_right _ _ (Nat.le_of_eq hbefore), hbefore, Nat.sub_self, List.set_cons_zero]
  rw [finalizeChecksum_of_header hheader, hset, hset]

theorem sameButChecksum_finalizeChecksum (table : Bytes) :
    SameButChecksum table (finalizeChecksum table) := by
  rw [finalizeChecksum]
  split
  · exact .refl table
  · exact .set table _

@[simp] theorem length_finalizeChecksum (table : Bytes) :
    (finalizeChecksum table).length = table.length :=
  (sameButChecksum_finalizeChecksum table).length_eq

/-- One value of the checksum, and no other, makes a table sum to zero. -/
theorem byteSum_set_checksum_iff (h : sdtHeaderSize ≤ table.length) {value : UInt8} :
    Bytes.byteSum (table.set checksumOffset value) = 0 ↔
      value = checksum (table.set checksumOffset 0) := by
  rw [Bytes.byteSum_set (checksumOffset_lt h), checksum]
  grind

/-- **The finished table is the one that sums to zero** among those with the same bytes but for the
checksum. -/
theorem finalizeChecksum_eq_iff (h : sdtHeaderSize ≤ table.length) :
    finalizeChecksum table = finished ↔
      SameButChecksum table finished ∧ finished.byteSum = 0 := by
  rw [finalizeChecksum_of_header h]
  constructor
  · rintro rfl
    exact ⟨.set table _, (byteSum_set_checksum_iff h).2 rfl⟩
  · rintro ⟨hsame, hsum⟩
    obtain ⟨value, rfl⟩ := hsame.exists_eq_set
    rw [(byteSum_set_checksum_iff h).1 hsum]

/-- **A finished table sums to zero.** -/
theorem byteSum_finalizeChecksum (h : sdtHeaderSize ≤ table.length) :
    (finalizeChecksum table).byteSum = 0 :=
  ((finalizeChecksum_eq_iff h).1 rfl).2

/-- Tables that differ in the checksum alone are finished alike. -/
theorem finalizeChecksum_congr (h : sdtHeaderSize ≤ table.length)
    (hsame : SameButChecksum table other) : finalizeChecksum other = finalizeChecksum table := by
  have hother : sdtHeaderSize ≤ other.length := hsame.length_eq ▸ h
  have hfinished : SameButChecksum table (finalizeChecksum other) :=
    hsame.trans (sameButChecksum_finalizeChecksum other)
  exact ((finalizeChecksum_eq_iff h).2 ⟨hfinished, byteSum_finalizeChecksum hother⟩).symm

theorem finalizeChecksum_idem (table : Bytes) :
    finalizeChecksum (finalizeChecksum table) = finalizeChecksum table := by
  by_cases h : sdtHeaderSize ≤ table.length
  · exact finalizeChecksum_congr h (sameButChecksum_finalizeChecksum table)
  · exact congrArg finalizeChecksum (finalizeChecksum_of_short (Nat.not_le.1 h))

/-- **A checksum can be set in one way only.**  In a table with a header no other byte is changed,
all bytes then sum to zero, what the checksum was before does not matter, and no other value would
do.  A finished table stays as it is, and so does what is too short to have a header. -/
theorem finalizeChecksum_exact :
    (∀ table, sdtHeaderSize ≤ table.length →
      SameButChecksum table (finalizeChecksum table) ∧
      (finalizeChecksum table).byteSum = 0 ∧
      ((finalizeChecksum table).map UInt8.toNat).sum % 256 = 0 ∧
      (∀ old, finalizeChecksum (table.set checksumOffset old) = finalizeChecksum table) ∧
      ∀ value, Bytes.byteSum (table.set checksumOffset value) = 0 ↔
        (finalizeChecksum table)[checksumOffset]? = some value) ∧
    (∀ table, finalizeChecksum (finalizeChecksum table) = finalizeChecksum table) ∧
    ∀ table, table.length < sdtHeaderSize → finalizeChecksum table = table := by
  refine ⟨fun table h => ?_, finalizeChecksum_idem, fun table => finalizeChecksum_of_short⟩
  have hsum := byteSum_finalizeChecksum h
  refine ⟨sameButChecksum_finalizeChecksum table, hsum, ?_, fun old => ?_, fun value => ?_⟩
  · rw [← Bytes.toNat_byteSum, hsum]
    rfl
  · exact finalizeChecksum_congr h (.set table old)
  · rw [byteSum_set_checksum_iff h, finalizeChecksum_of_header h,
      List.getElem?_set_self (checksumOffset_lt h), Option.some_inj, eq_comm]

/-- A header whose checksum is not its own. -/
def staleTable : Bytes :=
  (headerBytes signature 36
    { revision := 1
      oemId := #v[0x4f, 0x45, 0x4d, 0x49, 0x44, 0x20]
      oemTableId := #v[0x54, 0x41, 0x42, 0x4c, 0x45, 0x49, 0x44, 0x20]
      oemRevision := 0x01020304
      creatorId := #v[0x43, 0x52, 0x54, 0x52]
      creatorRevision := 7 }).set checksumOffset 0xaa

/-- The stale checksum is replaced, by the one value that would do.  Without its last byte the same
header is left as it is. -/
theorem finalizeChecksum_staleTable :
    sdtHeaderSize ≤ staleTable.length ∧ staleTable.byteSum ≠ 0 ∧
      (finalizeChecksum staleTable).byteSum = 0 ∧
      (∀ value, Bytes.byteSum (staleTable.set checksumOffset value) = 0 ↔ value = 0xbb) ∧
      finalizeChecksum (staleTable.take 35) = staleTable.take 35 := by
  obtain ⟨hheader, -, hshort⟩ := finalizeChecksum_exact
  have hlength : sdtHeaderSize ≤ staleTable.length := by decide
  obtain ⟨-, hsum, -, -, hvalue⟩ := hheader staleTable hlength
  have hset : (finalizeChecksum staleTable)[checksumOffset]? = some 0xbb := by decide
  refine ⟨hlength, by decide, hsum, fun value => ?_, hshort _ (by decide)⟩
  rw [hvalue, hset, Option.some_inj, eq_comm]

end Rhct
end RiscvTables
