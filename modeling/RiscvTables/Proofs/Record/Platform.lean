import RiscvTables.Record.Platform

/-!
# The records of a platform

What a batch of platform records holds, type by type, and what the logarithms in the cache-block
records are logarithms of.
-/

set_option autoImplicit false

namespace RiscvTables

/-! ## Block sizes -/

/-- The base-2 logarithm of a block size, and 0 for size 0. -/
def IsBlockSizeLog (bytes : Nat) (log : UInt8) : Prop :=
  if bytes = 0 then log = 0 else 1 <<< log.toNat = bytes

theorem blockSizeLog2?_eq_some_iff {bytes : UInt64} {log : UInt8} :
    blockSizeLog2? bytes = some log ↔ IsBlockSizeLog bytes.toNat log := by
  have hzero : bytes = 0 ↔ bytes.toNat = 0 := UInt64.toNat_inj.symm
  have hlt := bytes.toNat_lt
  simp only [blockSizeLog2?, IsBlockSizeLog, hzero]
  generalize bytes.toNat = n at hlt ⊢
  by_cases hn : n = 0
  · rw [if_pos hn, if_pos hn, Option.some.injEq, eq_comm]
  · have hlog : (UInt8.ofNat n.log2).toNat = n.log2 := by
      have : n.log2 < 64 := (Nat.log2_lt hn).2 hlt
      exact UInt8.toNat_ofNat_of_lt' (by simp only [UInt8.size]; omega)
    rw [if_neg hn, if_neg hn]
    constructor
    · intro h
      split at h
      next hpow => rw [← Option.some.inj h, hlog, hpow]
      next => cases h
    · intro h
      have hlog2 : n.log2 = log.toNat := by rw [← h, Nat.one_shiftLeft, Nat.log2_two_pow]
      rw [if_pos (hlog2 ▸ h), hlog2, UInt8.ofNat_toNat]

/-- A record holds the logarithms of three block sizes. -/
def CacheBlockRecord.IsOf (record : CacheBlockRecord) (cbom cbop cboz : Nat) : Prop :=
  IsBlockSizeLog cbom record.cbom ∧ IsBlockSizeLog cbop record.cbop ∧
    IsBlockSizeLog cboz record.cboz

theorem CacheBlockRecord.ofByteSizes?_eq_some_iff {cbom cbop cboz : UInt64}
    {record : CacheBlockRecord} :
    CacheBlockRecord.ofByteSizes? cbom cbop cboz = some record ↔
      record.IsOf cbom.toNat cbop.toNat cboz.toNat := by
  simp only [ofByteSizes?, IsOf, Option.bind_eq_bind, Option.bind_eq_some_iff,
    blockSizeLog2?_eq_some_iff]
  constructor
  · rintro ⟨a, ha, b, hb, c, hc, h⟩
    obtain rfl := Option.some.inj h
    exact ⟨ha, hb, hc⟩
  · rintro ⟨ha, hb, hc⟩
    exact ⟨_, ha, _, hb, _, hc, rfl⟩

/-! ## Batches -/

namespace PlatformRecords

variable (records : PlatformRecords)

theorem harts_toRecords :
    records.toRecords.filterMap (RecordType.ofRecord? (α := HartRecord)) = [] := by
  simp [toRecords, RecordType.ofRecord?]

theorem timers_toRecords :
    records.toRecords.filterMap (RecordType.ofRecord? (α := TimerRecord)) =
      records.timer.toList := by
  cases htimer : records.timer <;> simp [toRecords, RecordType.ofRecord?, htimer]

theorem isas_toRecords :
    records.toRecords.filterMap (RecordType.ofRecord? (α := IsaRecord)) = records.isa.toList := by
  cases htimer : records.timer <;> cases hisa : records.isa <;>
    simp [toRecords, RecordType.ofRecord?, List.filterMap_map, htimer, hisa]

theorem cacheBlocks_toRecords :
    records.toRecords.filterMap (RecordType.ofRecord? (α := CacheBlockRecord)) =
      records.cacheBlocks := by
  have hsome : RecordType.ofRecord? (α := CacheBlockRecord) ∘ Record.cacheBlock = some := rfl
  have hall : (records.cacheBlocks.map Record.cacheBlock).filterMap RecordType.ofRecord? =
      records.cacheBlocks := by
    rw [List.filterMap_map, hsome, List.filterMap_some]
  rw [toRecords, List.filterMap_append, List.filterMap_append, hall]
  cases records.timer <;> cases records.isa <;> rfl

end PlatformRecords
end RiscvTables
