import RiscvTables.Build
import RiscvTables.Proofs.DeviceTree.Reachable
import RiscvTables.Proofs.Platform.Config
import RiscvTables.Proofs.Record.Store
import RiscvTables.Proofs.Rhct.RoundTrip
import RiscvTables.Proofs.Topology
import RiscvTables.Proofs.Topology.Capabilities

/-!
# What the table of a tree says

`TableFacts.Hold` says which facts a table must tell: each is the platform's where the platform has
one, and the tree's otherwise.  `Rhct.View.Tells` says how a table that has been read tells them.
The table that is built for a tree tells exactly the facts that hold (`tells_of_buildTable`).

The two are compared at the store.  What goes into it is the topology and the merged platform
records (`gatherRecords_eq_ok`), and what comes out for each type follows from how a store keeps
its records.
-/

set_option autoImplicit false

namespace RiscvTables

/-! ## The facts -/

section Facts

variable (platform : PlatformConfig) (tree : DeviceTree)

/-- The timer is the platform's, or else the tree's. -/
def PlatformConfig.HasTimer (cpus : NodeId) (timer : TimerRecord) : Prop :=
  match platform.timer with
  | some config => timer = ⟨config.frequency, config.cannotWakeCpu⟩
  | none => tree.TellsTimer cpus timer

/-- The ISA string is the platform's, or else that of the first cpu, or else there is none. -/
def PlatformConfig.HasIsa (cpu : NodeId) (isa : Option String) : Prop :=
  match platform.isa with
  | some config => isa = some config
  | none => tree.TellsIsa cpu isa

/-- The cache blocks are all of the platform's, or, if it has none, those of the first cpu. -/
def PlatformConfig.HasCacheBlocks (cpu : NodeId) (records : List CacheBlockRecord) : Prop :=
  match platform.cacheBlocks with
  | [] => tree.TellsCacheBlocks cpu records
  | sizes => List.Forall₂ PlatformConfig.IsRecordOf sizes records

/-- What a table tells. -/
structure TableFacts where
  harts : Nat
  timer : TimerRecord
  isa : Option String
  cacheBlocks : List CacheBlockRecord

/-- What a table must tell of a tree on a platform. -/
def TableFacts.Hold (facts : TableFacts) : Prop :=
  ∃ cpus cpu, tree.find? "/cpus" = some cpus ∧ (tree.cpuNodes cpus).head? = some cpu ∧
    facts.harts = (tree.cpuNodes cpus).length ∧ platform.HasTimer tree cpus facts.timer ∧
    platform.HasIsa tree cpu facts.isa ∧ platform.HasCacheBlocks tree cpu facts.cacheBlocks

/-- A table tells facts: in its fields, and in nodes that stand in the order of ISA string, cache
blocks, harts.  The harts are numbered from 0 on, and each refers to the ISA string, if there is
one, and then to the first cache blocks, if there are any. -/
structure Rhct.View.Tells (view : Rhct.View) (facts : TableFacts) : Prop where
  harts_lt : facts.harts < UInt32.size
  frequency : view.timebaseFrequency = facts.timer.frequency
  flags : view.flags = if facts.timer.cannotWakeCpu then 1 else 0
  bodies : view.nodes.map (·.body) =
    facts.isa.toList.map .isaString ++
      facts.cacheBlocks.map (fun record => .cacheBlocks record.cbom record.cbop record.cboz) ++
      (List.range facts.harts).map fun uid => .hartInfo (UInt32.ofNat uid)
        ((Rhct.View.firstOffset? Rhct.NodeBody.isIsaString view.nodes).toList ++
          (Rhct.View.firstOffset? Rhct.NodeBody.isCacheBlocks view.nodes).toList)

end Facts

variable {tree : DeviceTree} {platform : PlatformConfig} {store : Store} {table : Bytes}

/-! ## Gathering -/

theorem gatherRecords_eq_ok (h : gatherRecords tree platform = .ok store) :
    ∃ cpus warnings discovered topology found overrides,
      tree.find? DeviceTree.cpusPath = some cpus ∧
      tree.resolveHarts cpus = ⟨warnings, .ok discovered⟩ ∧
      tree.resolveWiring discovered = .ok topology ∧
      tree.capabilities cpus = .ok found ∧ platform.records = .ok overrides ∧
      store = (Store.empty.publish topology.toRecords).publish
        (overrides.mergeOver found).toRecords := by
  rw [gatherRecords] at h
  obtain ⟨⟨topology, published⟩, htopology, h⟩ := Except.bind_eq_ok_iff.1 h
  obtain ⟨found, hfound, h⟩ := Except.bind_eq_ok_iff.1 h
  obtain ⟨overrides, hoverrides, h⟩ := Except.bind_eq_ok_iff.1 h
  obtain rfl := Except.pure_eq_ok_iff.1 h
  rw [Except.mapError_eq_ok_iff] at htopology hfound hoverrides
  obtain ⟨warnings, htopology⟩ := Journal.outcome_eq_ok_iff.1 htopology
  rw [Store.publishTopology] at htopology
  obtain ⟨resolved, before, after, hresolved, hpublished, -⟩ := Journal.bind_eq_ok_iff.1 htopology
  obtain ⟨-, hpair⟩ := Journal.pure_eq_ok_iff.1 hpublished
  obtain ⟨rfl, rfl⟩ := Prod.mk.inj hpair
  obtain ⟨cpus, discovered, hcpus, hharts, hwiring⟩ :=
    DeviceTree.resolveTopology_eq_ok hresolved
  rw [hcpus] at hfound
  exact ⟨cpus, before, discovered, resolved, found, overrides, hcpus, hharts, hwiring, hfound,
    hoverrides, rfl⟩

/-- The records of a type in the store are the topology's and the platform's. -/
theorem fetchAll_publish_publish {α : Type} [RecordType α] [RecordType.OneKind α]
    (first second : List Record) :
    ((Store.empty.publish first).publish second).fetchAll α =
      first.filterMap RecordType.ofRecord? ++ second.filterMap RecordType.ofRecord? := by
  have hempty : Store.empty.fetchAll α = [] := by
    simp [Store.fetchAll, Store.fetch, Store.empty]
  rw [Store.fetchAll_publish (Store.sorted_publish Store.sorted_empty first),
    Store.fetchAll_publish Store.sorted_empty, hempty, List.nil_append]

/-- What the table is made from is the topology's harts and the platform's records.  There must be a
timer, and a hart. -/
theorem fetch_publish_publish_eq_ok_iff {topology : Topology} {records : PlatformRecords}
    {inputs : Rhct.Inputs} :
    Rhct.Inputs.fetch ((Store.empty.publish topology.toRecords).publish records.toRecords) =
        .ok inputs ↔
      records.timer = some inputs.timer ∧ records.isa = inputs.isa ∧
        records.cacheBlocks = inputs.cacheBlocks ∧ topology.harts = inputs.harts ∧
        inputs.harts ≠ [] := by
  rw [Rhct.Inputs.fetch_eq_ok_iff, fetchAll_publish_publish, fetchAll_publish_publish,
    fetchAll_publish_publish, fetchAll_publish_publish, topology.timers_toRecords,
    records.timers_toRecords, topology.isas_toRecords, records.isas_toRecords,
    topology.cacheBlocks_toRecords, records.cacheBlocks_toRecords, topology.harts_toRecords,
    records.harts_toRecords, List.nil_append, List.nil_append, List.nil_append, List.append_nil,
    Option.toList_eq_singleton_iff]
  have htoList : records.isa.toList = inputs.isa.toList ↔ records.isa = inputs.isa := by
    cases records.isa <;> cases inputs.isa <;> simp
  rw [htoList]

theorem inputs_of_fetch {topology : Topology} {records : PlatformRecords} {inputs : Rhct.Inputs}
    (h : Rhct.Inputs.fetch ((Store.empty.publish topology.toRecords).publish records.toRecords) =
      .ok inputs) :
    records.timer = some inputs.timer ∧ records.isa = inputs.isa ∧
      records.cacheBlocks = inputs.cacheBlocks ∧ topology.harts = inputs.harts := by
  obtain ⟨htimer, hisa, hcacheBlocks, hharts, -⟩ := fetch_publish_publish_eq_ok_iff.1 h
  exact ⟨htimer, hisa, hcacheBlocks, hharts⟩

/-! ## Merging -/

section Merge

variable {cpus cpu : NodeId} {overrides found : PlatformRecords}

theorem hasTimer_mergeOver (hwf : tree.WellFormed) (hoverrides : platform.records = .ok overrides)
    (hfound : tree.readTimer cpus = .ok found.timer) {timer : TimerRecord}
    (h : (overrides.mergeOver found).timer = some timer) : platform.HasTimer tree cpus timer := by
  obtain ⟨htimer, -⟩ := PlatformConfig.records_eq_ok_iff.1 hoverrides
  rw [PlatformRecords.mergeOver, htimer] at h
  rw [PlatformConfig.HasTimer]
  cases hconfig : platform.timer with
  | some config =>
    rw [hconfig] at h
    exact (Option.some.inj h).symm
  | none =>
    rw [hconfig] at h
    exact DeviceTree.tellsTimer_of_readTimer hwf (hfound.trans (congrArg Except.ok h))

theorem hasIsa_mergeOver (hoverrides : platform.records = .ok overrides)
    (hfound : tree.readIsa cpu = .ok found.isa) :
    platform.HasIsa tree cpu ((overrides.mergeOver found).isa.map (·.isa)) := by
  obtain ⟨-, hisa, -⟩ := PlatformConfig.records_eq_ok_iff.1 hoverrides
  rw [PlatformRecords.mergeOver, hisa, PlatformConfig.HasIsa]
  cases platform.isa with
  | some config => rfl
  | none => exact DeviceTree.tellsIsa_of_readIsa hfound

theorem hasCacheBlocks_mergeOver (hoverrides : platform.records = .ok overrides)
    (hfound : tree.TellsCacheBlocks cpu found.cacheBlocks) :
    platform.HasCacheBlocks tree cpu (overrides.mergeOver found).cacheBlocks := by
  obtain ⟨-, -, hrecords⟩ := PlatformConfig.records_eq_ok_iff.1 hoverrides
  rw [PlatformRecords.mergeOver, PlatformConfig.HasCacheBlocks]
  cases hsizes : platform.cacheBlocks with
  | nil =>
    rw [hsizes, List.forall₂_nil_left_iff] at hrecords
    rwa [hrecords, if_pos rfl]
  | cons size rest =>
    rw [hsizes] at hrecords
    have hne : overrides.cacheBlocks ≠ [] := by
      intro hnil
      rw [hnil] at hrecords
      cases hrecords
    rwa [if_neg hne]

/-- An ISA string that comes from a usable platform or from a tree has no zero byte. -/
theorem PlatformConfig.HasIsa.zero_notMem (hvalid : platform.validate = .ok ()) {isa : String}
    (h : platform.HasIsa tree cpu (some isa)) : 0 ∉ Utf8.encode isa := by
  rw [PlatformConfig.HasIsa] at h
  split at h
  next config hconfig =>
    obtain rfl := Option.some.inj h
    exact PlatformConfig.zero_notMem_isa hvalid hconfig
  next => exact fun hzero => h.2.1 ((Utf8.zero_mem_encode_iff isa).1 hzero)

end Merge

/-! ## The table -/

/-- A table that is made from numbered harts tells how many they are. -/
theorem Rhct.Inputs.tells_view {inputs : Rhct.Inputs} {harts : Nat}
    (hfits : inputs.bodies.length < UInt32.size)
    (hharts : inputs.harts.map (·.processorUid) = (List.range harts).map UInt32.ofNat)
    (info : Rhct.TableInfo) :
    (inputs.view info).Tells
      ⟨harts, inputs.timer, inputs.isa.map (·.isa), inputs.cacheBlocks⟩ where
  harts_lt := by
    have hlength : inputs.harts.length = harts := by
      simpa using congrArg List.length hharts
    rw [Rhct.Inputs.bodies_eq, List.length_append, List.length_map, hlength] at hfits
    exact Nat.lt_of_le_of_lt (Nat.le_add_left _ _) hfits
  frequency := rfl
  flags := rfl
  bodies := by
    have hbodies := (inputs.describes_view info).bodies
    have hisa : inputs.isa.toList.map (fun record => Rhct.NodeBody.isaString record.isa) =
        (inputs.isa.map (·.isa)).toList.map Rhct.NodeBody.isaString := by
      cases inputs.isa <;> rfl
    generalize (inputs.view info).nodes = nodes at hbodies ⊢
    rw [hbodies, hisa, List.append_cancel_left_eq]
    -- a hart node depends on the number of its hart only
    generalize (Rhct.View.firstOffset? Rhct.NodeBody.isIsaString nodes).toList ++
      (Rhct.View.firstOffset? Rhct.NodeBody.isCacheBlocks nodes).toList = references
    have hnumbers := congrArg (List.map fun uid => Rhct.NodeBody.hartInfo uid references) hharts
    rwa [List.map_map, List.map_map] at hnumbers

/-- **The table of a tree tells what holds of the tree on the platform, and nothing else.** -/
theorem tells_of_buildTable (hreachable : tree.Reachable) (hvalid : platform.validate = .ok ())
    (hbuild : buildTable tree platform = .ok table) :
    ∃ view facts, Rhct.View.parse table = .ok view ∧
      TableFacts.Hold platform tree facts ∧ view.Tells facts := by
  rw [buildTable] at hbuild
  obtain ⟨store, hstore, hbuild⟩ := Except.bind_eq_ok_iff.1 hbuild
  obtain ⟨⟨built, index⟩, hbuilt, hbuild⟩ := Except.bind_eq_ok_iff.1 hbuild
  obtain rfl := Except.pure_eq_ok_iff.1 hbuild
  rw [Except.mapError_eq_ok_iff] at hbuilt
  obtain ⟨cpus, warnings, discovered, topology, found, overrides, hcpus, hharts, hwiring, hfound,
    hoverrides, rfl⟩ := gatherRecords_eq_ok hstore
  obtain ⟨cpu, rest, hcpu⟩ :=
    List.exists_cons_of_ne_nil (DeviceTree.cpuNodes_ne_nil_of_resolveHarts hharts)
  obtain ⟨htimer, hisa, hcacheBlocks⟩ := DeviceTree.capabilities_eq_ok hcpu hfound
  have hhasIsa := hasIsa_mergeOver hoverrides hisa
  have hhasCacheBlocks := hasCacheBlocks_mergeOver hoverrides hcacheBlocks
  -- the ISA string in the store can end with a zero byte, so the table can be read
  obtain ⟨inputs, hfetch, hparse, -, hfits⟩ := Rhct.parse_of_build hbuilt (by
    intro record hrecord
    rw [fetchAll_publish_publish, topology.isas_toRecords, PlatformRecords.isas_toRecords,
      List.nil_append, Option.mem_toList] at hrecord
    rw [hrecord] at hhasIsa
    exact hhasIsa.zero_notMem hvalid)
  obtain ⟨htimerInput, hisaInput, hcacheBlocksInput, hhartsInput⟩ := inputs_of_fetch hfetch
  rw [hisaInput] at hhasIsa
  rw [hcacheBlocksInput] at hhasCacheBlocks
  have huids : inputs.harts.map (·.processorUid) =
      (List.range (tree.cpuNodes cpus).length).map UInt32.ofNat := by
    rw [← hhartsInput, DeviceTree.processorUid_of_resolveWiring hwiring,
      DeviceTree.processorUid_of_resolveHarts hharts]
  refine ⟨inputs.view platform.table.toInfo, _, hparse, ⟨cpus, cpu, hcpus, ?_, rfl, ?_, hhasIsa,
    hhasCacheBlocks⟩, Rhct.Inputs.tells_view hfits huids _⟩
  · rw [hcpu, List.head?_cons]
  · exact hasTimer_mergeOver hreachable.wellFormed hoverrides htimer htimerInput

/-- The edits of a board with two cpus and something that is not a cpu. -/
def sampleBoardEdits : List DeviceTree.Edit :=
  [.addNode NodeId.root "cpus", .setProperty 1 "#address-cells" [0, 0, 0, 1],
    .addNode 1 "cpu-map", .addNode 1 "cpu@0", .addNode 1 "cpu@1",
    .setProperty 3 "compatible" (PropertyValue.ofStrings ["riscv"]),
    .setProperty 3 "reg" [0, 0, 0, 0],
    .setProperty 3 "riscv,isa" (PropertyValue.ofStrings ["rv64gc"]),
    .setProperty 3 "riscv,cbom-block-size" [0, 0, 0, 64],
    .setProperty 4 "compatible" (PropertyValue.ofStrings ["riscv"]),
    .setProperty 4 "reg" [0, 0, 0, 1]]

/-- A platform with a timer and cache blocks of its own, but no ISA string. -/
def samplePlatform : PlatformConfig where
  name := "sample"
  timer := some { frequency := 10000000, cannotWakeCpu := true }
  cacheBlocks := [{ cbom := 64, cboz := 32 }]

theorem tells_sampleBoard :
    ∃ tree table, DeviceTree.ofEdits? sampleBoardEdits = some tree ∧
      samplePlatform.validate = .ok () ∧ buildTable tree samplePlatform = .ok table ∧
      ∃ view facts, Rhct.View.parse table = .ok view ∧
        TableFacts.Hold samplePlatform tree facts ∧ view.Tells facts := by
  have hbuilds : (DeviceTree.ofEdits? sampleBoardEdits).any fun tree =>
      (buildTable tree samplePlatform).isOk := by
    decide +kernel
  have hvalid : samplePlatform.validate = .ok () := by decide +kernel
  obtain ⟨tree, htree, hok⟩ := (Option.any_eq_true _ _).1 hbuilds
  cases hbuild : buildTable tree samplePlatform with
  | error error => rw [hbuild] at hok; cases hok
  | ok table =>
    exact ⟨tree, table, htree, hvalid, hbuild,
      tells_of_buildTable (DeviceTree.reachable_of_ofEdits? htree) hvalid hbuild⟩

end RiscvTables
