import RiscvTables.Platform.Config
import RiscvTables.Proofs.Outcome
import RiscvTables.Proofs.Record.Platform
import RiscvTables.Proofs.Text.Utf8

/-!
# Platform configurations that can be used

The records of a configuration are its own values, with the logarithms of its cache-block sizes.
A configuration that passes its check has such records, and an ISA string that can end with a zero
byte.
-/

set_option autoImplicit false

namespace RiscvTables
namespace PlatformConfig

variable {config : PlatformConfig}

/-- The record holds the logarithms of the given sizes. -/
def IsRecordOf (sizes : CacheBlockConfig) (record : CacheBlockRecord) : Prop :=
  record.IsOf sizes.cbom.toNat sizes.cbop.toNat sizes.cboz.toNat

theorem cacheBlockRecord_eq_ok_iff {sizes : CacheBlockConfig} {record : CacheBlockRecord} :
    cacheBlockRecord sizes = .ok record ↔ IsRecordOf sizes record := by
  rw [cacheBlockRecord, IsRecordOf, ← CacheBlockRecord.ofByteSizes?_eq_some_iff]
  cases CacheBlockRecord.ofByteSizes? sizes.cbom sizes.cbop sizes.cboz <;> simp

theorem records_eq_ok_iff {records : PlatformRecords} :
    config.records = .ok records ↔
      records.timer = config.timer.map (fun timer => ⟨timer.frequency, timer.cannotWakeCpu⟩) ∧
        records.isa = config.isa.map (fun isa => ⟨isa⟩) ∧
        List.Forall₂ IsRecordOf config.cacheBlocks records.cacheBlocks := by
  simp only [PlatformConfig.records, Except.bind_eq_ok_iff, Except.mapM_eq_ok_iff,
    cacheBlockRecord_eq_ok_iff, Except.pure_eq_ok_iff]
  constructor
  · rintro ⟨cacheBlocks, hcacheBlocks, rfl⟩
    exact ⟨rfl, rfl, hcacheBlocks⟩
  · rintro ⟨htimer, hisa, hcacheBlocks⟩
    refine ⟨records.cacheBlocks, hcacheBlocks, ?_⟩
    rw [← htimer, ← hisa]

theorem validate_eq_ok_iff : config.validate = .ok () ↔ config.errors = [] := by
  rw [validate]
  split <;> simp [*]

theorem sizeIssues_eq_nil_iff {position : Nat} {field : String} {size : UInt64} :
    sizeIssues position field size = [] ↔ ∃ log, IsBlockSizeLog size.toNat log := by
  simp only [← blockSizeLog2?_eq_some_iff, ← Option.isSome_iff_exists, sizeIssues]
  cases blockSizeLog2? size <;> simp

/-- There is nothing wrong with the sizes that have a record. -/
theorem cacheBlockIssues_eq_nil_iff {sizes : CacheBlockConfig} (position : Nat) :
    cacheBlockIssues sizes position = [] ↔ ∃ record, IsRecordOf sizes record := by
  simp only [cacheBlockIssues, List.append_eq_nil_iff, sizeIssues_eq_nil_iff]
  constructor
  · rintro ⟨⟨⟨cbom, hcbom⟩, ⟨cbop, hcbop⟩⟩, ⟨cboz, hcboz⟩⟩
    exact ⟨⟨cbom, cbop, cboz⟩, hcbom, hcbop, hcboz⟩
  · rintro ⟨record, hcbom, hcbop, hcboz⟩
    exact ⟨⟨⟨_, hcbom⟩, ⟨_, hcbop⟩⟩, ⟨_, hcboz⟩⟩

/-- A configuration has records if each of its cache blocks has one. -/
theorem exists_records_iff : (∃ records, config.records = .ok records) ↔
    ∀ sizes ∈ config.cacheBlocks, ∃ record, IsRecordOf sizes record := by
  simp only [← cacheBlockRecord_eq_ok_iff, ← Except.exists_mapM_eq_ok_iff, PlatformConfig.records,
    Except.bind_eq_ok_iff]
  constructor
  · rintro ⟨_, cacheBlocks, hcacheBlocks, -⟩
    exact ⟨cacheBlocks, hcacheBlocks⟩
  · rintro ⟨cacheBlocks, hcacheBlocks⟩
    exact ⟨_, cacheBlocks, hcacheBlocks, rfl⟩

/-- A usable configuration has records. -/
theorem exists_records (h : config.validate = .ok ()) :
    ∃ records, config.records = .ok records := by
  have herrors := validate_eq_ok_iff.1 h
  simp only [errors, List.append_eq_nil_iff, List.flatMap_eq_nil_iff] at herrors
  obtain ⟨-, hsizes⟩ := herrors
  refine exists_records_iff.2 fun sizes hmem => ?_
  obtain ⟨position, hposition⟩ := List.mem_iff_getElem?.1 hmem
  exact (cacheBlockIssues_eq_nil_iff _).1 (hsizes _ (List.mk_mem_zipIdx_iff_getElem?.2 hposition))

/-- A usable ISA string has no zero byte. -/
theorem zero_notMem_isa (h : config.validate = .ok ()) {isa : String}
    (hisa : config.isa = some isa) : 0 ∉ Utf8.encode isa := by
  have herrors := validate_eq_ok_iff.1 h
  simp only [errors, hisa, Option.elim_some, List.append_eq_nil_iff] at herrors
  obtain ⟨⟨⟨-, hissues⟩, -⟩, -⟩ := herrors
  rw [Utf8.zero_mem_encode_iff]
  intro hzero
  rw [isaIssues] at hissues
  split at hissues
  next => cases hissues
  next =>
    rw [if_pos (by simp [hzero])] at hissues
    cases hissues

end PlatformConfig
end RiscvTables
