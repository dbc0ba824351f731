import RiscvTables.Proofs.DeviceTree.Cells
import RiscvTables.Proofs.DeviceTree.Reachable
import RiscvTables.Proofs.Platform.Config
import RiscvTables.Proofs.Topology.Capabilities

/-!
# Cache blocks in a tree and in a platform file

A tree has the block sizes of a cpu in three properties, and a platform file has them in three
fields.  They are read by different code: the properties one after the other, where the first that
makes no sense ends the reading and gives its name to the error, and the fields all at once.

Both describe cache blocks alike.  `listedSizes` are the fields that say what the properties say,
with 0 for one that is not there; as `readCacheBlocks_eq` shows, reading the properties comes to
the same as making a record of these sizes.  There is one difference: a tree without any of the
properties has no cache blocks, and a platform file has those it lists, even if all sizes are 0.
-/

set_option autoImplicit false

namespace RiscvTables

/-- A size that a cache block may have, 0 if it has none. -/
def IsBlockSize (size : UInt64) : Prop :=
  size = 0 ∨ ∃ k, size.toNat = 2 ^ k

theorem isSome_blockSizeLog2?_iff {size : UInt64} :
    (blockSizeLog2? size).isSome ↔ IsBlockSize size := by
  simp only [Option.isSome_iff_exists, blockSizeLog2?_eq_some_iff, IsBlockSizeLog, IsBlockSize,
    ← UInt64.toNat_inj, UInt64.toNat_zero]
  by_cases hzero : size.toNat = 0
  · simp [hzero]
  · simp only [if_neg hzero, or_iff_right hzero, Nat.one_shiftLeft]
    constructor
    · rintro ⟨log, hlog⟩
      exact ⟨log.toNat, hlog.symm⟩
    · rintro ⟨k, hk⟩
      have hlt : k < 64 := (Nat.pow_lt_pow_iff_right Nat.one_lt_two).1 (hk ▸ size.toNat_lt)
      refine ⟨UInt8.ofNat k, ?_⟩
      rw [UInt8.toNat_ofNat_of_lt' (Nat.lt_trans hlt (by decide)), hk]

namespace DeviceTree

/-- The properties of the block sizes, in the order in which they are read. -/
def blockSizeProperties : List String :=
  ["riscv,cbom-block-size", "riscv,cbop-block-size", "riscv,cboz-block-size"]

variable (tree : DeviceTree) (cpu : NodeId)

/-- A property that is there has a cell. -/
def HasCell (property : String) : Prop :=
  ∀ value, tree.property? cpu property = some value → 4 ≤ value.length

instance (property : String) : Decidable (tree.HasCell cpu property) :=
  decidable_of_iff ((tree.property? cpu property).all fun value => 4 ≤ value.length) <| by
    simp [HasCell, Option.all_eq_true]

/-- The first cell of a property, and 0 if there is no such property. -/
def listedSize (property : String) : UInt64 :=
  match tree.property? cpu property with
  | none => 0
  | some value => UInt64.ofNat (BigEndian.decode (value.take 4))

/-- The three block sizes of a cpu. -/
def listedSizes : CacheBlockConfig where
  cbom := tree.listedSize cpu "riscv,cbom-block-size"
  cbop := tree.listedSize cpu "riscv,cbop-block-size"
  cboz := tree.listedSize cpu "riscv,cboz-block-size"

/-- The first of the properties with a size that no cache block has. -/
def IsFirstOdd (property : String) : Prop :=
  ∃ before after, blockSizeProperties = before ++ property :: after ∧
    (∀ earlier ∈ before, IsBlockSize (tree.listedSize cpu earlier)) ∧
    ¬ IsBlockSize (tree.listedSize cpu property)

variable {tree cpu} {property : String}

/-! ## Reading the properties -/

theorem optionalCell_eq (h : tree.HasCell cpu property) :
    tree.optionalCell cpu property = .ok ((tree.property? cpu property).map fun value =>
      UInt32.ofNat (BigEndian.decode (value.take 4))) := by
  rw [optionalCell]
  split
  next hnone => rw [hnone, Option.map_none]
  next value hvalue =>
    have hlength := h value hvalue
    rw [hvalue, PropertyValue.cellAt?_eq, if_pos (by omega), Nat.mul_zero, List.drop_zero,
      Option.map_some]

/-- A property is read as the logarithm of its size, if it is there. -/
theorem readBlockSize_eq (h : tree.HasCell cpu property) :
    tree.readBlockSize cpu property =
      match blockSizeLog2? (tree.listedSize cpu property) with
      | none => .error (tree.malformed cpu property)
      | some log => .ok (if tree.property? cpu property = none then none else some log) := by
  rw [readBlockSize, optionalCell_eq h, listedSize]
  cases hvalue : tree.property? cpu property with
  | none => rfl
  | some value =>
    have hlt := BigEndian.decode_lt (value.take 4)
    rw [List.length_take_of_le (h value hvalue)] at hlt
    have htoNat : (UInt32.ofNat (BigEndian.decode (value.take 4))).toNat =
        BigEndian.decode (value.take 4) := UInt32.toNat_ofNat_of_lt' hlt
    simp only [Option.map_some, bind, Except.bind, htoNat, reduceCtorEq, if_false]
    cases blockSizeLog2? (UInt64.ofNat (BigEndian.decode (value.take 4))) <;> rfl

/-- The logarithm of the size of a property that may not be there. -/
theorem getD_eq_log {log : UInt8}
    (h : blockSizeLog2? (tree.listedSize cpu property) = some log) :
    (if tree.property? cpu property = none then none else some log).getD 0 = log := by
  split
  next hnone =>
    rw [listedSize, hnone] at h
    exact Option.some.inj h
  next => rfl

theorem exists_readBlockSize_eq_ok (h : tree.HasCell cpu property)
    (hsize : IsBlockSize (tree.listedSize cpu property)) :
    ∃ read, tree.readBlockSize cpu property = .ok read := by
  obtain ⟨log, hlog⟩ := Option.isSome_iff_exists.1 (isSome_blockSizeLog2?_iff.2 hsize)
  exact ⟨_, by rw [readBlockSize_eq h, hlog]⟩

theorem readBlockSize_eq_error (h : tree.HasCell cpu property)
    (hsize : ¬ IsBlockSize (tree.listedSize cpu property)) :
    tree.readBlockSize cpu property = .error (tree.malformed cpu property) := by
  rw [← isSome_blockSizeLog2?_iff, Option.not_isSome_iff_eq_none] at hsize
  rw [readBlockSize_eq h, hsize]

/-! ## Reading all of them -/

/-- Either the sizes have a record, or one of the properties is the first with an odd one. -/
theorem exists_record_or_isFirstOdd (tree : DeviceTree) (cpu : NodeId) :
    (∃ record, PlatformConfig.IsRecordOf (tree.listedSizes cpu) record) ∨
      ∃ property, tree.IsFirstOdd cpu property := by
  have hlog : ∀ {property}, IsBlockSize (tree.listedSize cpu property) →
      ∃ log, IsBlockSizeLog (tree.listedSize cpu property).toNat log := by
    intro property hsize
    simpa only [Option.isSome_iff_exists, blockSizeLog2?_eq_some_iff] using
      isSome_blockSizeLog2?_iff.2 hsize
  by_cases hcbom : IsBlockSize (tree.listedSize cpu "riscv,cbom-block-size")
  · by_cases hcbop : IsBlockSize (tree.listedSize cpu "riscv,cbop-block-size")
    · by_cases hcboz : IsBlockSize (tree.listedSize cpu "riscv,cboz-block-size")
      · obtain ⟨cbom, hcbom⟩ := hlog hcbom
        obtain ⟨cbop, hcbop⟩ := hlog hcbop
        obtain ⟨cboz, hcboz⟩ := hlog hcboz
        exact .inl ⟨⟨cbom, cbop, cboz⟩, hcbom, hcbop, hcboz⟩
      · exact .inr ⟨_, ["riscv,cbom-block-size", "riscv,cbop-block-size"], [], rfl,
          List.forall_mem_cons.2 ⟨hcbom, List.forall_mem_singleton.2 hcbop⟩, hcboz⟩
    · exact .inr ⟨_, ["riscv,cbom-block-size"], _, rfl, List.forall_mem_singleton.2 hcbom, hcbop⟩
  · exact .inr ⟨_, [], _, rfl, nofun, hcbom⟩

section Cells

variable (hcells : ∀ property ∈ blockSizeProperties, tree.HasCell cpu property)
include hcells

/-- Sizes that have a record are read as it, if one of the properties is there. -/
theorem readCacheBlocks_of_isRecordOf {record : CacheBlockRecord}
    (h : PlatformConfig.IsRecordOf (tree.listedSizes cpu) record) :
    tree.readCacheBlocks cpu =
      .ok (if ∀ property ∈ blockSizeProperties, tree.property? cpu property = none then none
        else some record) := by
  simp only [blockSizeProperties, List.forall_mem_cons] at hcells
  obtain ⟨hcbom, hcbop, hcboz, -⟩ := hcells
  obtain ⟨hcbomLog, hcbopLog, hcbozLog⟩ := h
  simp only [← blockSizeLog2?_eq_some_iff, listedSizes] at hcbomLog hcbopLog hcbozLog
  rw [readCacheBlocks, readBlockSize_eq hcbom, readBlockSize_eq hcbop, readBlockSize_eq hcboz,
    hcbomLog, hcbopLog, hcbozLog]
  simp only [bind, Except.bind, getD_eq_log hcbomLog, getD_eq_log hcbopLog, getD_eq_log hcbozLog]
  -- each of the three is read as nothing just if it is not there
  simp only [Bool.and_eq_true, Option.isNone_iff_eq_none, ite_eq_left_iff, reduceCtorEq, imp_false,
    not_not, and_assoc, blockSizeProperties, List.forall_mem_cons, List.not_mem_nil, false_imp_iff,
    implies_true, and_true]
  split <;> rfl

theorem readCacheBlocks_of_isFirstOdd (h : tree.IsFirstOdd cpu property) :
    tree.readCacheBlocks cpu = .error (tree.malformed cpu property) := by
  obtain ⟨before, after, hsplit, hbefore, hodd⟩ := h
  have hcell : ∀ other ∈ before ++ property :: after, tree.HasCell cpu other :=
    fun other hother => hcells other (hsplit ▸ hother)
  have herror := readBlockSize_eq_error (hcell property (by simp)) hodd
  have hok : ∀ earlier ∈ before, ∃ read, tree.readBlockSize cpu earlier = .ok read :=
    fun earlier hearlier => exists_readBlockSize_eq_ok
      (hcell earlier (List.mem_append_left _ hearlier)) (hbefore earlier hearlier)
  rw [readCacheBlocks]
  rcases before with _ | ⟨first, _ | ⟨second, _ | ⟨third, rest⟩⟩⟩ <;>
    simp only [blockSizeProperties, List.cons_append, List.nil_append, List.cons.injEq] at hsplit
  · obtain ⟨rfl, -⟩ := hsplit
    exact Except.bind_eq_error_iff.2 (.inl herror)
  · obtain ⟨rfl, rfl, -⟩ := hsplit
    obtain ⟨cbom, hcbom⟩ := hok _ List.mem_cons_self
    exact Except.bind_eq_error_iff.2 (.inr ⟨cbom, hcbom, Except.bind_eq_error_iff.2 (.inl herror)⟩)
  · obtain ⟨rfl, rfl, rfl, -⟩ := hsplit
    obtain ⟨cbom, hcbom⟩ := hok _ List.mem_cons_self
    obtain ⟨cbop, hcbop⟩ := hok _ (List.mem_cons_of_mem _ List.mem_cons_self)
    exact Except.bind_eq_error_iff.2 (.inr ⟨cbom, hcbom, Except.bind_eq_error_iff.2
      (.inr ⟨cbop, hcbop, Except.bind_eq_error_iff.2 (.inl herror)⟩)⟩)
  · simp at hsplit

theorem readCacheBlocks_eq_error_iff {error : TopologyError} :
    tree.readCacheBlocks cpu = .error error ↔
      ∃ property, tree.IsFirstOdd cpu property ∧ tree.malformed cpu property = error := by
  constructor
  · intro h
    rcases exists_record_or_isFirstOdd tree cpu with ⟨record, hrecord⟩ | ⟨property, hodd⟩
    · cases (readCacheBlocks_of_isRecordOf hcells hrecord).symm.trans h
    · rw [readCacheBlocks_of_isFirstOdd hcells hodd, Except.error.injEq] at h
      exact ⟨property, hodd, h⟩
  · rintro ⟨property, hodd, rfl⟩
    exact readCacheBlocks_of_isFirstOdd hcells hodd

/-- If one of the properties is there, what is read is the record of the sizes. -/
theorem readCacheBlocks_eq_ok_iff
    (hpresent : ¬ ∀ property ∈ blockSizeProperties, tree.property? cpu property = none)
    {result : Option CacheBlockRecord} :
    tree.readCacheBlocks cpu = .ok result ↔
      ∃ record, PlatformConfig.IsRecordOf (tree.listedSizes cpu) record ∧ some record = result := by
  constructor
  · intro h
    rcases exists_record_or_isFirstOdd tree cpu with ⟨record, hrecord⟩ | ⟨property, hodd⟩
    · rw [readCacheBlocks_of_isRecordOf hcells hrecord, if_neg hpresent, Except.ok.injEq] at h
      exact ⟨record, hrecord, h⟩
    · cases (readCacheBlocks_of_isFirstOdd hcells hodd).symm.trans h
  · rintro ⟨record, hrecord, rfl⟩
    rw [readCacheBlocks_of_isRecordOf hcells hrecord, if_neg hpresent]

end Cells

/-! ## In a tree and in a platform file -/

/-- The cache blocks are the last of the capabilities to be read. -/
theorem capabilities_eq_map {cpus : NodeId} {rest : List NodeId} {timer : Option TimerRecord}
    {isa : Option IsaRecord} (hcpus : tree.cpuNodes cpus = cpu :: rest)
    (htimer : tree.readTimer cpus = .ok timer) (hisa : tree.readIsa cpu = .ok isa) :
    tree.capabilities cpus = (tree.readCacheBlocks cpu).map fun record =>
      { timer, isa, cacheBlocks := record.toList } := by
  simp only [capabilities, hcpus, htimer, hisa, bind, Except.bind]
  cases tree.readCacheBlocks cpu <;> rfl

theorem records_of_singleton {config : PlatformConfig} {sizes : CacheBlockConfig}
    (h : config.cacheBlocks = [sizes]) (record : CacheBlockRecord) :
    (∃ records, config.records = .ok records ∧ records.cacheBlocks = [record]) ↔
      PlatformConfig.IsRecordOf sizes record := by
  simp only [PlatformConfig.records_eq_ok_iff, h]
  constructor
  · rintro ⟨records, ⟨-, -, hrecords⟩, hsingle⟩
    rw [hsingle, List.forall₂_cons] at hrecords
    exact hrecords.1
  · intro hrecord
    exact ⟨⟨_, _, [record]⟩, ⟨rfl, rfl, .cons hrecord .nil⟩, rfl⟩

/-- **A tree and a platform file describe cache blocks alike.**  A cpu without block sizes has no
cache blocks.  One with some has the record of its sizes, where a missing size is 0, or else the
first property with an odd size is malformed; and a platform file that lists these sizes has the
same record, or is refused as well. -/
theorem cacheBlocks_alike
    (hcells : ∀ property ∈ blockSizeProperties, tree.HasCell cpu property) :
    ((∀ property ∈ blockSizeProperties, tree.property? cpu property = none) →
      tree.readCacheBlocks cpu = .ok none) ∧
    ((∃ property ∈ blockSizeProperties, tree.property? cpu property ≠ none) →
      tree.readCacheBlocks cpu ≠ .ok none ∧
      (∀ record, tree.readCacheBlocks cpu = .ok (some record) ↔
        CacheBlockRecord.ofByteSizes? (tree.listedSizes cpu).cbom (tree.listedSizes cpu).cbop
          (tree.listedSizes cpu).cboz = some record) ∧
      (∀ error, tree.readCacheBlocks cpu = .error error ↔ ∃ property,
        tree.IsFirstOdd cpu property ∧ .malformedProperty (tree.path cpu) property = error) ∧
      ∀ config : PlatformConfig, config.cacheBlocks = [tree.listedSizes cpu] →
        (∀ record, tree.readCacheBlocks cpu = .ok (some record) ↔
          ∃ records, config.records = .ok records ∧ records.cacheBlocks = [record]) ∧
        ((∃ error, tree.readCacheBlocks cpu = .error error) ↔
          ∃ error, config.records = .error error)) ∧
    ∀ cpus rest timer isa, tree.cpuNodes cpus = cpu :: rest →
      tree.readTimer cpus = .ok timer → tree.readIsa cpu = .ok isa →
      tree.capabilities cpus = (tree.readCacheBlocks cpu).map fun record =>
        { timer, isa, cacheBlocks := record.toList } := by
  refine ⟨fun habsent => ?_, fun hpresent => ?_, fun _ _ _ _ => capabilities_eq_map⟩
  · have hzero : ∀ property ∈ blockSizeProperties, tree.listedSize cpu property = 0 :=
      fun property hproperty => by rw [listedSize, habsent property hproperty]
    have hrecord : PlatformConfig.IsRecordOf (tree.listedSizes cpu) ⟨0, 0, 0⟩ := by
      simp only [listedSizes, hzero _ List.mem_cons_self,
        hzero _ (List.mem_cons_of_mem _ List.mem_cons_self),
        hzero _ (List.mem_cons_of_mem _ (List.mem_cons_of_mem _ List.mem_cons_self))]
      exact ⟨rfl, rfl, rfl⟩
    rw [readCacheBlocks_of_isRecordOf hcells hrecord, if_pos habsent]
  · have hpresent' : ¬ ∀ property ∈ blockSizeProperties, tree.property? cpu property = none := by
      simpa only [not_forall, exists_prop] using hpresent
    have hok : ∀ record, tree.readCacheBlocks cpu = .ok (some record) ↔
        PlatformConfig.IsRecordOf (tree.listedSizes cpu) record := by
      intro record
      simp only [readCacheBlocks_eq_ok_iff hcells hpresent', Option.some.injEq, exists_eq_right]
    refine ⟨?_, fun record => ?_, fun error => readCacheBlocks_eq_error_iff hcells,
      fun config hconfig => ⟨fun record => ?_, ?_⟩⟩
    · rw [Ne, readCacheBlocks_eq_ok_iff hcells hpresent']
      rintro ⟨record, -, ⟨⟩⟩
    · rw [hok, CacheBlockRecord.ofByteSizes?_eq_some_iff, PlatformConfig.IsRecordOf]
    · rw [hok, records_of_singleton hconfig]
    · rw [Except.exists_eq_error_iff, Except.exists_eq_error_iff,
        PlatformConfig.exists_records_iff, hconfig, List.forall_mem_singleton]
      simp only [readCacheBlocks_eq_ok_iff hcells hpresent', exists_comm (α := Option _),
        exists_and_left, exists_eq', and_true]

/-- The edits of a board with one cpu, which has two of the three block sizes; one of them is a
cell that another follows. -/
def cachedCpuEdits : List Edit :=
  [.addNode NodeId.root "cpus", .addNode 1 "cpu@0",
    .setProperty 2 "riscv,cbom-block-size" (PropertyValue.ofCells [64]),
    .setProperty 2 "riscv,cboz-block-size" (PropertyValue.ofCells [4096, 3])]

/-- The board has the cache blocks that a platform file with its sizes has.  If its cpu has another
size for prefetching, that property is malformed, whatever the third one is. -/
theorem cacheBlocks_alike_cachedCpuEdits :
    (∃ tree, ofEdits? cachedCpuEdits = some tree ∧ tree.cpuNodes 1 = [2] ∧
      tree.listedSizes 2 = ⟨64, 0, 4096⟩ ∧ tree.readCacheBlocks 2 = .ok (some ⟨6, 0, 12⟩) ∧
      (∃ records, { PlatformConfig.named "twin" with cacheBlocks := [⟨64, 0, 4096⟩] }.records =
        .ok records ∧ records.cacheBlocks = [⟨6, 0, 12⟩]) ∧
      tree.capabilities 1 = .ok { cacheBlocks := [⟨6, 0, 12⟩] }) ∧
    ∃ tree, ofEdits? (cachedCpuEdits ++
        [.setProperty 2 "riscv,cbop-block-size" (PropertyValue.ofCells [48]),
          .setProperty 2 "riscv,cboz-block-size" (PropertyValue.ofCells [96])]) = some tree ∧
      tree.readCacheBlocks 2 =
        .error (.malformedProperty "/cpus/cpu@0" "riscv,cbop-block-size") ∧
      tree.IsFirstOdd 2 "riscv,cbop-block-size" := by
  constructor
  · have hruns : (ofEdits? cachedCpuEdits).any fun tree =>
        decide (tree.cpuNodes 1 = [2]) && decide (tree.listedSizes 2 = ⟨64, 0, 4096⟩) &&
        decide (tree.readTimer 1 = .ok none) && decide (tree.readIsa 2 = .ok none) &&
        decide (tree.property? 2 "riscv,cbom-block-size" ≠ none) &&
        decide (∀ property ∈ blockSizeProperties, tree.HasCell 2 property) := by
      decide +kernel
    obtain ⟨tree, htree, hruns⟩ := (Option.any_eq_true _ _).1 hruns
    simp only [Bool.and_eq_true, decide_eq_true_eq] at hruns
    obtain ⟨⟨⟨⟨⟨hcpus, hsizes⟩, htimer⟩, hisa⟩, hpresent⟩, hcells⟩ := hruns
    obtain ⟨-, halike, hcapabilities⟩ := cacheBlocks_alike hcells
    obtain ⟨-, hrecord, -, hfile⟩ := halike ⟨_, List.mem_cons_self, hpresent⟩
    have hread : tree.readCacheBlocks 2 = .ok (some ⟨6, 0, 12⟩) :=
      (hrecord _).2 (by rw [hsizes]; decide)
    refine ⟨tree, htree, hcpus, hsizes, hread, ((hfile _ (by rw [hsizes])).1 _).1 hread, ?_⟩
    rw [hcapabilities 1 [] none none hcpus htimer hisa, hread]
    rfl
  · have hruns : (ofEdits? (cachedCpuEdits ++
        [.setProperty 2 "riscv,cbop-block-size" (PropertyValue.ofCells [48]),
          .setProperty 2 "riscv,cboz-block-size" (PropertyValue.ofCells [96])])).any fun tree =>
        decide (tree.readCacheBlocks 2 =
          .error (.malformedProperty "/cpus/cpu@0" "riscv,cbop-block-size")) &&
        decide (tree.property? 2 "riscv,cbom-block-size" ≠ none) &&
        decide (∀ property ∈ blockSizeProperties, tree.HasCell 2 property) := by
      decide +kernel
    obtain ⟨tree, htree, hruns⟩ := (Option.any_eq_true _ _).1 hruns
    simp only [Bool.and_eq_true, decide_eq_true_eq] at hruns
    obtain ⟨⟨hread, hpresent⟩, hcells⟩ := hruns
    obtain ⟨-, -, herror, -⟩ := (cacheBlocks_alike hcells).2.1 ⟨_, List.mem_cons_self, hpresent⟩
    obtain ⟨property, hodd, hsame⟩ := (herror _).1 hread
    obtain ⟨-, rfl⟩ := TopologyError.malformedProperty.inj hsame
    exact ⟨tree, htree, hread, hodd⟩

end DeviceTree
end RiscvTables
