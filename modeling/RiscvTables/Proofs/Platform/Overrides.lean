import RiscvTables.Proofs.Build
import RiscvTables.Proofs.Rhct.Size

/-!
# Which platforms a tree can be built for

A tree that a table can be built for without a platform's help has all that a table needs.  What a
platform overrides can then go wrong in three ways only: the platform wants a revision of the table
that nobody can build, its ISA string is too long for a node, or its cache blocks are too many for a
table.  The check of a platform does not look for any of these: it knows nothing of tables.

`PlatformConfig.BuildEnds` tells the three failures apart and says how large the table is if there
is none, and it holds of every usable platform and every such tree (`buildEnds_of_default`).
-/

set_option autoImplicit false

namespace RiscvTables

/-! ## Overriding -/

variable {tree : DeviceTree} {platform : PlatformConfig} {base : Bytes}

/-- What is gathered for a tree whose topology and capabilities are known. -/
theorem gatherRecords_of_capabilities {cpus : NodeId} {discovered : HartTable}
    {warnings : List Warning} {topology : Topology} {found overrides : PlatformRecords}
    (hcpus : tree.find? DeviceTree.cpusPath = some cpus)
    (hharts : tree.resolveHarts cpus = ⟨warnings, .ok discovered⟩)
    (hwiring : tree.resolveWiring discovered = .ok topology)
    (hfound : tree.capabilities cpus = .ok found) (hoverrides : platform.records = .ok overrides) :
    gatherRecords tree platform = .ok ((Store.empty.publish topology.toRecords).publish
      (overrides.mergeOver found).toRecords) := by
  have htopology : (Store.empty.publishTopology tree).outcome =
      .ok (topology, Store.empty.publish topology.toRecords) := by
    rw [Store.publishTopology, Journal.outcome_bind, DeviceTree.outcome_resolveTopology hcpus,
      hharts]
    show (tree.resolveWiring discovered >>= fun topology => _) = _
    rw [hwiring]
    rfl
  rw [gatherRecords, hcpus]
  refine Except.bind_eq_ok_iff.2 ⟨_, Except.mapError_eq_ok_iff.2 htopology, ?_⟩
  refine Except.bind_eq_ok_iff.2 ⟨found, Except.mapError_eq_ok_iff.2 hfound, ?_⟩
  exact Except.bind_eq_ok_iff.2 ⟨overrides, Except.mapError_eq_ok_iff.2 hoverrides, rfl⟩

/-- A table that is built without overrides has its timer and its harts from the tree. -/
theorem exists_capabilities_of_default (h : buildTable tree (.named "default") = .ok base) :
    ∃ cpus warnings discovered topology found timer,
      tree.find? DeviceTree.cpusPath = some cpus ∧
      tree.resolveHarts cpus = ⟨warnings, .ok discovered⟩ ∧
      tree.resolveWiring discovered = .ok topology ∧ tree.capabilities cpus = .ok found ∧
      found.timer = some timer ∧ topology.harts ≠ [] ∧
      ∀ record, found.isa = some record → Rhct.isaStringSize record.isa ≤ 0xffff := by
  rw [buildTable] at h
  obtain ⟨store, hstore, h⟩ := Except.bind_eq_ok_iff.1 h
  obtain ⟨⟨table, index⟩, hbuilt, -⟩ := Except.bind_eq_ok_iff.1 h
  rw [Except.mapError_eq_ok_iff, Rhct.build_eq_ok_iff] at hbuilt
  obtain ⟨-, inputs, hfetch, ⟨layout, hlayout⟩, -⟩ := hbuilt
  obtain ⟨cpus, warnings, discovered, topology, found, overrides, hcpus, hharts, hwiring, hfound,
    hoverrides, rfl⟩ := gatherRecords_eq_ok hstore
  -- without overrides, the merged records are those of the tree
  obtain rfl : {} = overrides := Except.ok.inj hoverrides
  obtain ⟨htimer, hisa, -, htopology, hne⟩ := fetch_publish_publish_eq_ok_iff.1 hfetch
  refine ⟨cpus, warnings, discovered, topology, found, inputs.timer, hcpus, hharts, hwiring, hfound,
    htimer, by rwa [htopology], fun record hrecord => ?_⟩
  exact (Rhct.Inputs.layOut_eq_ok_iff.1 hlayout).1 record (hisa.symm.trans hrecord)

section Merge

variable {overrides : PlatformRecords} (found : PlatformRecords)

theorem isa_mergeOver (h : platform.records = .ok overrides) :
    (overrides.mergeOver found).isa.map (·.isa) = platform.isa.or (found.isa.map (·.isa)) := by
  obtain ⟨-, hisa, -⟩ := PlatformConfig.records_eq_ok_iff.1 h
  rw [PlatformRecords.mergeOver, hisa]
  cases platform.isa <;> rfl

theorem length_cacheBlocks_mergeOver (h : platform.records = .ok overrides) :
    (overrides.mergeOver found).cacheBlocks.length =
      if platform.cacheBlocks = [] then found.cacheBlocks.length
      else platform.cacheBlocks.length := by
  obtain ⟨-, -, hrecords⟩ := PlatformConfig.records_eq_ok_iff.1 h
  have hlength := hrecords.length_eq
  have hnil : overrides.cacheBlocks = [] ↔ platform.cacheBlocks = [] := by
    rw [← List.length_eq_zero_iff, ← hlength, List.length_eq_zero_iff]
  simp only [PlatformRecords.mergeOver, hnil, apply_ite List.length, hlength]

end Merge

/-- The size of the table of a tree on a platform: the ISA string and the cache blocks are the
platform's, or else the ones that were found. -/
def PlatformConfig.tableSize (platform : PlatformConfig) (found : PlatformRecords) (harts : Nat) :
    Nat :=
  Rhct.sizeWith (platform.isa.or (found.isa.map (·.isa)))
    (if platform.cacheBlocks = [] then found.cacheBlocks.length else platform.cacheBlocks.length)
    harts

/-- A usable platform has a table made from what the tree has, with its own records in place of
the tree's. -/
theorem exists_inputs_of_default (hdefault : buildTable tree (.named "default") = .ok base)
    (hvalid : platform.validate = .ok ()) :
    ∃ cpus found store inputs, tree.find? DeviceTree.cpusPath = some cpus ∧
      tree.capabilities cpus = .ok found ∧ gatherRecords tree platform = .ok store ∧
      Rhct.Inputs.fetch store = .ok inputs ∧
      inputs.tableSize = platform.tableSize found (tree.cpuNodes cpus).length ∧
      inputs.isa.map (·.isa) = platform.isa.or (found.isa.map (·.isa)) ∧
      ∀ record, found.isa = some record → Rhct.isaStringSize record.isa ≤ 0xffff := by
  obtain ⟨cpus, warnings, discovered, topology, found, timer, hcpus, hharts, hwiring, hfound,
    htimer, hne, hshort⟩ := exists_capabilities_of_default hdefault
  obtain ⟨overrides, hoverrides⟩ := PlatformConfig.exists_records hvalid
  obtain ⟨merged, hmerged⟩ : ∃ merged, (overrides.mergeOver found).timer = some merged := by
    rw [PlatformRecords.mergeOver, htimer]
    cases overrides.timer <;> exact ⟨_, rfl⟩
  let inputs : Rhct.Inputs :=
    { timer := merged, isa := (overrides.mergeOver found).isa,
      cacheBlocks := (overrides.mergeOver found).cacheBlocks, harts := topology.harts }
  have hcount : topology.harts.length = (tree.cpuNodes cpus).length := by
    have huids := (DeviceTree.processorUid_of_resolveWiring hwiring).trans
      (DeviceTree.processorUid_of_resolveHarts hharts)
    simpa using congrArg List.length huids
  refine ⟨cpus, found, _, inputs, hcpus, hfound,
    gatherRecords_of_capabilities hcpus hharts hwiring hfound hoverrides,
    fetch_publish_publish_eq_ok_iff.2 ⟨hmerged, rfl, rfl, rfl, hne⟩, ?_,
    isa_mergeOver found hoverrides, hshort⟩
  rw [Rhct.Inputs.tableSize_eq, PlatformConfig.tableSize, ← isa_mergeOver found hoverrides,
    ← length_cacheBlocks_mergeOver found hoverrides, ← hcount]

/-! ## How a build ends -/

theorem buildTable_of_gatherRecords {store : Store}
    (hstore : gatherRecords tree platform = .ok store) :
    buildTable tree platform =
      ((Rhct.build Rhct.stampIdentity platform.table.toInfo store).mapError BuildError.table).map
        Prod.fst := by
  rw [buildTable, hstore]
  rfl

theorem buildTable_of_fetch {store : Store} {inputs : Rhct.Inputs}
    (hstore : gatherRecords tree platform = .ok store) (hrevision : platform.table.revision = 1)
    (hfetch : Rhct.Inputs.fetch store = .ok inputs) :
    buildTable tree platform = (inputs.layOut.mapError BuildError.table).map fun _ =>
      Rhct.finalizeChecksum (inputs.draft platform.table.toInfo) := by
  have hsame : platform.table.toInfo.revision = Rhct.tableRevision := hrevision
  rw [buildTable_of_gatherRecords hstore, Rhct.build_of_fetch hsame hfetch]
  cases inputs.layOut <;> rfl

/-- How building the table of a tree on a platform ends, if the table would have the given size.
There are three ways for it to fail, and otherwise it succeeds. -/
structure PlatformConfig.BuildEnds (platform : PlatformConfig) (tree : DeviceTree) (size : Nat) :
    Prop where
  unsupportedRevision (hrevision : platform.table.revision ≠ 1) :
    buildTable tree platform =
      .error (.table (.unsupportedRevision platform.table.revision 1 1))
  isaTooLong (hrevision : platform.table.revision = 1) (isa : String)
    (hisa : platform.isa = some isa) (hlong : Rhct.maxIsaLength < (Utf8.encode isa).length) :
    buildTable tree platform =
      .error (.table (.nodeTooLarge "ISA string" (Rhct.isaStringSize isa)))
  tableTooLarge (hrevision : platform.table.revision = 1)
    (hisa : ∀ isa, platform.isa = some isa → (Utf8.encode isa).length ≤ Rhct.maxIsaLength)
    (hsize : 2 ^ 32 ≤ size) :
    ∃ offset, 2 ^ 32 ≤ offset ∧
      buildTable tree platform = .error (.table (.tableTooLarge offset))
  built (hrevision : platform.table.revision = 1)
    (hisa : ∀ isa, platform.isa = some isa → (Utf8.encode isa).length ≤ Rhct.maxIsaLength)
    (hsize : size < 2 ^ 32) :
    ∃ table, buildTable tree platform = .ok table ∧ table.length = size

/-- **If a tree has a table by itself, then it has one on every usable platform** that asks for the
one revision there is, with an ISA string that fits its node and cache blocks that fit the table. -/
theorem buildEnds_of_default (hdefault : buildTable tree (.named "default") = .ok base)
    (hvalid : platform.validate = .ok ()) :
    ∃ cpus found, tree.find? "/cpus" = some cpus ∧ tree.capabilities cpus = .ok found ∧
      platform.BuildEnds tree (platform.tableSize found (tree.cpuNodes cpus).length) := by
  obtain ⟨cpus, found, store, inputs, hcpus, hfound, hstore, hfetch, hsize, hisa, hshort⟩ :=
    exists_inputs_of_default hdefault hvalid
  -- the tree's own ISA string has fit its node already
  have hfits (h : ∀ isa, platform.isa = some isa →
      (Utf8.encode isa).length ≤ Rhct.maxIsaLength) (record : IsaRecord)
      (hrecord : inputs.isa = some record) : Rhct.isaStringSize record.isa ≤ 0xffff := by
    rw [hrecord, Option.map_some] at hisa
    cases hplatform : platform.isa with
    | none =>
      rw [hplatform, Option.none_or, eq_comm, Option.map_eq_some_iff] at hisa
      obtain ⟨other, hother, hsame⟩ := hisa
      exact hsame ▸ hshort other hother
    | some isa =>
      rw [hplatform, Option.some_or] at hisa
      rw [Option.some.inj hisa, Rhct.isaStringSize_le_iff]
      exact h isa hplatform
  refine ⟨cpus, found, hcpus, hfound, fun hrevision => ?_, fun hrevision isa hplatform hlong => ?_,
    fun hrevision h hlarge => ?_, fun hrevision h hsmall => ?_⟩
  · rw [buildTable_of_gatherRecords hstore, Rhct.build_of_revision_ne hrevision]
    rfl
  · rw [hplatform, Option.some_or, Option.map_eq_some_iff] at hisa
    obtain ⟨record, hrecord, rfl⟩ := hisa
    have hlarge : 0xffff < Rhct.isaStringSize record.isa := by
      rw [← Nat.not_le, Rhct.isaStringSize_le_iff, Nat.not_le]
      exact hlong
    rw [buildTable_of_fetch hstore hrevision hfetch,
      Rhct.Inputs.layOut_of_isa_too_long hrecord hlarge]
    rfl
  · obtain ⟨offset, hoffset, hlayout⟩ :=
      Rhct.Inputs.layOut_of_table_too_large (hfits h) (hsize ▸ hlarge)
    refine ⟨offset, hoffset, ?_⟩
    rw [buildTable_of_fetch hstore hrevision hfetch, hlayout]
    rfl
  · have hlayout := Rhct.Inputs.layOut_eq_ok_iff.2 ⟨hfits h, hsize ▸ hsmall, rfl⟩
    refine ⟨_, by rw [buildTable_of_fetch hstore hrevision hfetch, hlayout]; rfl, ?_⟩
    rw [Rhct.length_finalizeChecksum, Rhct.Inputs.length_draft, hsize]

/-- The edits of a board with two cpus and a timer. -/
def timedBoardEdits : List DeviceTree.Edit :=
  sampleBoardEdits ++ [.setProperty 1 "timebase-frequency" [0x00, 0x98, 0x96, 0x80]]

theorem buildEnds_timedBoard :
    ∃ tree base, DeviceTree.ofEdits? timedBoardEdits = some tree ∧
      buildTable tree (.named "default") = .ok base ∧ samplePlatform.validate = .ok () ∧
      samplePlatform.BuildEnds tree 122 ∧
      ∃ table, buildTable tree samplePlatform = .ok table ∧ table.length = 122 := by
  have hboard : (DeviceTree.ofEdits? timedBoardEdits).any fun tree =>
      (buildTable tree (.named "default")).isOk && decide (tree.find? "/cpus" = some 1) &&
        decide ((tree.capabilities 1).toOption.map (samplePlatform.tableSize ·
          (tree.cpuNodes 1).length) = some 122) := by
    decide +kernel
  have hvalid : samplePlatform.validate = .ok () := by decide +kernel
  obtain ⟨tree, htree, hboard⟩ := (Option.any_eq_true _ _).1 hboard
  simp only [Bool.and_eq_true, decide_eq_true_eq] at hboard
  obtain ⟨⟨hok, hcpus⟩, hsize⟩ := hboard
  cases hbase : buildTable tree (.named "default") with
  | error error => rw [hbase] at hok; cases hok
  | ok base =>
    obtain ⟨cpus, found, hcpus', hfound, hends⟩ := buildEnds_of_default hbase hvalid
    obtain rfl := Option.some.inj (hcpus.symm.trans hcpus')
    rw [hfound] at hsize
    have hsize : samplePlatform.tableSize found (tree.cpuNodes 1).length = 122 :=
      Option.some.inj hsize
    rw [hsize] at hends
    exact ⟨tree, base, htree, hbase, hvalid, hends, hends.built rfl nofun (by decide)⟩

/-- A platform that asks for the second revision of the table. -/
def secondRevision : PlatformConfig where
  name := "second"
  table := { revision := 2 }

/-- The check of a platform does not know which revisions can be built. -/
theorem not_built_secondRevision :
    ∃ tree base, DeviceTree.ofEdits? timedBoardEdits = some tree ∧
      buildTable tree (.named "default") = .ok base ∧ secondRevision.validate = .ok () ∧
      secondRevision.cacheBlocks = [] ∧
      buildTable tree secondRevision = .error (.table (.unsupportedRevision 2 1 1)) := by
  have hboard : (DeviceTree.ofEdits? timedBoardEdits).any fun tree =>
      (buildTable tree (.named "default")).isOk && decide
        (buildTable tree secondRevision = .error (.table (.unsupportedRevision 2 1 1))) := by
    decide +kernel
  obtain ⟨tree, htree, hboard⟩ := (Option.any_eq_true _ _).1 hboard
  simp only [Bool.and_eq_true, decide_eq_true_eq] at hboard
  obtain ⟨hok, herror⟩ := hboard
  cases hbase : buildTable tree (.named "default") with
  | error error => rw [hbase] at hok; cases hok
  | ok base => exact ⟨tree, base, htree, hbase, by decide +kernel, rfl, herror⟩

end RiscvTables
