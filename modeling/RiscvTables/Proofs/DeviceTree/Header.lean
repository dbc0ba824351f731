import RiscvTables.Proofs.DeviceTree.Cells
import RiscvTables.Proofs.DeviceTree.Reachable

/-!
# The header of a blob

`Blob.ValidHeader` says what the header must be, in its own numbers, and `Blob.structureBytes` and
`Blob.stringsBytes` which bytes it is about.  A blob is read only if its header is valid
(`DeviceTree.validHeader_of_ofBlob`), and then by a builder that is run on the structure block
(`DeviceTree.ofBlob_eq_run`).
-/

set_option autoImplicit false

namespace RiscvTables
namespace Blob

/-! ## The header -/

/-- A word of the header. -/
def headerWord (data : Bytes) (i : Nat) : Nat :=
  BigEndian.decode ((data.drop (4 * i)).take 4)

/-- Where the structure block ends: version 16 does not say, so there it is the end of the blob. -/
def structureStop (data : Bytes) : Nat :=
  if 17 ≤ headerWord data 5 then headerWord data 2 + headerWord data 9 else headerWord data 1

/-- The structure block. -/
def structureBytes (data : Bytes) : Bytes :=
  (data.take (structureStop data)).drop (headerWord data 2)

/-- The strings block. -/
def stringsBytes (data : Bytes) : Bytes :=
  (data.take (headerWord data 3 + headerWord data 8)).drop (headerWord data 3)

/-- The boot cpu. -/
def headerCpu (data : Bytes) : UInt32 :=
  UInt32.ofNat (headerWord data 7)

/-- The header is whole, of a readable version, and about bytes that are there. -/
structure ValidHeader (data : Bytes) : Prop where
  length_ge : 40 ≤ data.length
  magic : headerWord data 0 = 0xd00dfeed
  version_ge : 16 ≤ headerWord data 5
  lastCompatible_le : headerWord data 6 ≤ 17
  totalSize_le : headerWord data 1 ≤ data.length
  structureStart_le : headerWord data 2 ≤ structureStop data
  structureStop_le : structureStop data ≤ headerWord data 1
  stringsStop_le : headerWord data 3 + headerWord data 8 ≤ headerWord data 1

variable {data : Bytes}

theorem cellAt?_of_le {i : Nat} (h : 4 * i + 4 ≤ data.length) :
    PropertyValue.cellAt? data i = some (UInt32.ofNat (headerWord data i)) := by
  rw [PropertyValue.cellAt?_eq, if_pos h, headerWord]

theorem headerWord_lt {i : Nat} (h : 4 * i + 4 ≤ data.length) :
    headerWord data i < UInt32.size := by
  have hlt := BigEndian.decode_lt ((data.drop (4 * i)).take 4)
  rwa [List.length_take_of_le (by rw [List.length_drop]; omega)] at hlt

theorem Header.read_eq_ok_iff {header : Header} :
    Header.read data = .ok header ↔
      40 ≤ data.length ∧ headerWord data 0 = 0xd00dfeed ∧ 16 ≤ headerWord data 5 ∧
        headerWord data 6 ≤ 17 ∧ headerWord data 1 ≤ data.length ∧
        header =
          { totalSize := headerWord data 1
            structureStart := headerWord data 2
            stringsStart := headerWord data 3
            version := headerWord data 5
            bootCpu := headerCpu data
            stringsSize := headerWord data 8
            structureSize := headerWord data 9 } := by
  by_cases hlength : data.length < 40
  · rw [Header.read, headerSize, if_pos hlength]
    exact ⟨nofun, fun h => absurd hlength (Nat.not_lt.2 h.1)⟩
  -- all ten words are there, so the reader never falls back on its zero
  have hfield : ∀ i < 10, (PropertyValue.cellAt? data i).getD 0 =
      UInt32.ofNat (headerWord data i) := by
    intro i hi
    rw [cellAt?_of_le (by omega), Option.getD_some]
  have htoNat : ∀ i < 10, (UInt32.ofNat (headerWord data i)).toNat = headerWord data i := by
    intro i hi
    exact UInt32.toNat_ofNat_of_lt' (headerWord_lt (by omega))
  have hversion : UInt32.ofNat (headerWord data 5) < 16 ↔ headerWord data 5 < 16 := by
    rw [UInt32.lt_iff_toNat_lt, htoNat 5 (by decide)]
    rfl
  have hcompatible : UInt32.ofNat (headerWord data 6) > 17 ↔ headerWord data 6 > 17 := by
    rw [gt_iff_lt, UInt32.lt_iff_toNat_lt, htoNat 6 (by decide)]
    rfl
  rw [Header.read, headerSize, if_neg hlength]
  simp only [hfield 0 (by decide), hfield 1 (by decide), hfield 2 (by decide),
    hfield 3 (by decide), hfield 5 (by decide), hfield 6 (by decide), hfield 7 (by decide),
    hfield 8 (by decide), hfield 9 (by decide), htoNat 0 (by decide), htoNat 1 (by decide),
    htoNat 2 (by decide), htoNat 3 (by decide), htoNat 5 (by decide), htoNat 8 (by decide),
    htoNat 9 (by decide), hversion, hcompatible, magic, ne_eq, ite_not]
  split_ifs with hmagic hversions htotal
  · exact ⟨nofun, fun ⟨_, _, hversion, hcompatible, _⟩ => by omega⟩
  · exact ⟨nofun, fun ⟨_, _, _, _, htotal', _⟩ => absurd htotal (Nat.not_lt.2 htotal')⟩
  · rw [not_or, Nat.not_lt, Nat.not_lt] at hversions
    rw [Except.ok.injEq, eq_comm]
    exact ⟨fun h => ⟨Nat.not_lt.1 hlength, hmagic, hversions.1, hversions.2,
      Nat.not_lt.1 htotal, h⟩, fun ⟨_, _, _, _, _, h⟩ => h⟩
  · exact ⟨nofun, fun h => absurd h.2.1 hmagic⟩

/-! ## The blocks -/

theorem range_eq_ok_iff {blob bytes : Bytes} {first stop : Nat} :
    range blob first stop = .ok bytes ↔
      first ≤ stop ∧ stop ≤ blob.length ∧ bytes = (blob.take stop).drop first := by
  rw [range, List.drop_take]
  by_cases hle : first ≤ stop
  · rw [if_pos hle, Bytes.slice?_eq, Nat.add_sub_cancel' hle]
    by_cases hstop : stop ≤ blob.length <;> simp [hle, hstop, eq_comm]
  · simp [hle]

end Blob

namespace DeviceTree

open Blob

variable {data : Bytes}

/-- **A blob is read if its header is valid**, and then it is its blocks that count. -/
theorem ofBlob_eq_run (h : ValidHeader data) :
    ofBlob data =
      Builder.run ⟨headerWord data 2, headerWord data 3, stringsBytes data⟩
        ((structureBytes data).length / 4) ⟨0, structureBytes data⟩
        (Builder.start (headerCpu data)) := by
  have hread := Header.read_eq_ok_iff.2
    ⟨h.length_ge, h.magic, h.version_ge, h.lastCompatible_le, h.totalSize_le, rfl⟩
  have hlength : (data.take (headerWord data 1)).length = headerWord data 1 :=
    List.length_take_of_le h.totalSize_le
  -- what is cut off behind the size that the header gives is behind both blocks
  have hrange : ∀ first stop, first ≤ stop → stop ≤ headerWord data 1 →
      range (data.take (headerWord data 1)) first stop = .ok ((data.take stop).drop first) := by
    intro first stop hle hstop
    refine range_eq_ok_iff.2 ⟨hle, hlength.symm ▸ hstop, ?_⟩
    rw [List.take_take, Nat.min_eq_left hstop]
  rw [ofBlob, hread]
  simp only [bind, Except.bind]
  rw [hrange _ _ (Nat.le_add_right _ _) h.stringsStop_le]
  have hstructure := hrange _ _ h.structureStart_le h.structureStop_le
  rw [structureStop] at hstructure
  rw [Header.structureEnd]
  simp only [ge_iff_le, hstructure]
  rfl

theorem validHeader_of_ofBlob {tree : DeviceTree} (h : ofBlob data = .ok tree) :
    ValidHeader data := by
  obtain ⟨header, hread, h⟩ := Except.bind_eq_ok_iff.1 h
  obtain ⟨hlength, hmagic, hversion, hcompatible, htotal, rfl⟩ := Header.read_eq_ok_iff.1 hread
  obtain ⟨structureBytes, hstructure, h⟩ := Except.bind_eq_ok_iff.1 h
  obtain ⟨strings, hstrings, h⟩ := Except.bind_eq_ok_iff.1 h
  obtain ⟨hstart, hstop, -⟩ := range_eq_ok_iff.1 hstructure
  obtain ⟨-, hstop', -⟩ := range_eq_ok_iff.1 hstrings
  rw [List.length_take_of_le htotal] at hstop hstop'
  exact ⟨hlength, hmagic, hversion, hcompatible, htotal, hstart, hstop, hstop'⟩

end DeviceTree
end RiscvTables
