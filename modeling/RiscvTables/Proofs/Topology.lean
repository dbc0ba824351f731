import RiscvTables.Proofs.Topology.Harts
import RiscvTables.Topology

/-!
# The resolved topology

The harts of a topology are the discovered ones, and the receiver and the banks write to them.
Each writes to its own fields only: whatever does not depend on those is the same in every entry
before and after (`map_of_resolveReceiver`, `map_of_resolveBanks`).
-/

set_option autoImplicit false

namespace RiscvTables
namespace DeviceTree

variable {tree : DeviceTree} {table : HartTable}

/-! ## What the wiring leaves alone -/

/-- The receiver changes nothing but the interrupt files, however it ends. -/
theorem map_of_resolveReceiver (tree : DeviceTree) (table : HartTable) {β : Type}
    {g : HartEntry → β}
    (hg : ∀ entry base size,
      g { entry with record := { entry.record with imsicBase := base, imsicSize := size } } =
        g entry) :
    (tree.resolveReceiver table).1.entries.map g = table.entries.map g := by
  refine Journal.carryOut_preserves
    (P := fun t : HartTable => t.entries.map g = table.entries.map g)
    (fun t write t' hstep ht => ?_) tree.planReceiver rfl
  obtain ⟨-, rfl⟩ := HartTable.setInterruptFile_eq_ok_iff.1 hstep
  exact (HartTable.map_adjust fun entry => hg entry _ _).trans ht

/-- The banks change nothing but the external ids and who has wired a hart, however they end. -/
theorem map_of_resolveBanks (tree : DeviceTree) (table : HartTable) {β : Type}
    {g : HartEntry → β}
    (hg : ∀ entry externalId wiredBy,
      g { record := { entry.record with externalId }, wiredBy } = g entry) :
    (tree.resolveBanks table).1.entries.map g = table.entries.map g := by
  refine Journal.carryOut_preserves
    (P := fun t : HartTable => t.entries.map g = table.entries.map g)
    (fun t write t' hstep ht => ?_) tree.planBanks rfl
  obtain ⟨-, rfl⟩ := HartTable.setExternalId_eq_ok_iff.1 hstep
  exact (HartTable.map_adjust fun entry => hg entry _ _).trans ht

/-! ## The topology -/

theorem resolveWiring_eq_ok_iff {topology : Topology} :
    tree.resolveWiring table = .ok topology ↔
      ∃ paged receiver wired banks, tree.resolveReceiver table = (paged, .ok receiver) ∧
        tree.resolveBanks paged = (wired, .ok banks) ∧
        topology = { harts := wired.records, receiver := receiver.map (·.record),
                     banks := banks.banks, gsi := banks.gsi } := by
  rw [resolveWiring]
  constructor
  · intro h
    split at h
    next => cases h
    next paged receiver hreceiver =>
      split at h
      next => cases h
      next wired banks hbanks =>
        exact ⟨paged, receiver, wired, banks, hreceiver, hbanks, (Except.ok.inj h).symm⟩
  · rintro ⟨paged, receiver, wired, banks, hreceiver, hbanks, rfl⟩
    simp only [hreceiver, hbanks]

theorem outcome_resolveTopology {cpus : NodeId} (hcpus : tree.find? cpusPath = some cpus) :
    tree.resolveTopology.outcome = (tree.resolveHarts cpus).outcome >>= tree.resolveWiring := by
  rw [resolveTopology, hcpus]
  exact Journal.outcome_bind _ _

theorem resolveTopology_eq_ok {topology : Topology} {warnings : List Warning}
    (h : tree.resolveTopology = ⟨warnings, .ok topology⟩) :
    ∃ cpus discovered, tree.find? cpusPath = some cpus ∧
      tree.resolveHarts cpus = ⟨warnings, .ok discovered⟩ ∧
      tree.resolveWiring discovered = .ok topology := by
  rw [resolveTopology] at h
  split at h
  next cpus hcpus =>
    obtain ⟨discovered, before, after, hharts, hwiring, rfl⟩ := Journal.bind_eq_ok_iff.1 h
    obtain ⟨rfl, hresolved⟩ := Journal.liftM_eq_ok_iff.1 hwiring
    exact ⟨cpus, discovered, hcpus, by rw [hharts, List.append_nil], hresolved⟩
  next => cases (Journal.ofExcept_eq_ok_iff.1 h).2

/-- The wiring does not renumber the harts. -/
theorem processorUid_of_resolveWiring {topology : Topology}
    (h : tree.resolveWiring table = .ok topology) :
    topology.harts.map (·.processorUid) = table.records.map (·.processorUid) := by
  obtain ⟨paged, receiver, wired, banks, hreceiver, hbanks, rfl⟩ := resolveWiring_eq_ok_iff.1 h
  have hwired := map_of_resolveBanks tree paged
    (g := fun entry => entry.record.processorUid) fun _ _ _ => rfl
  have hpaged := map_of_resolveReceiver tree table
    (g := fun entry => entry.record.processorUid) fun _ _ _ => rfl
  rw [hbanks] at hwired
  rw [hreceiver] at hpaged
  rw [HartTable.records, HartTable.records, List.map_map, List.map_map]
  exact hwired.trans hpaged

end DeviceTree

/-! ## Its records -/

namespace Topology

variable (topology : Topology)

theorem harts_toRecords :
    topology.toRecords.filterMap (RecordType.ofRecord? (α := HartRecord)) = topology.harts := by
  cases hreceiver : topology.receiver <;>
    simp [toRecords, RecordType.ofRecord?, List.filterMap_map, hreceiver]

theorem timers_toRecords :
    topology.toRecords.filterMap (RecordType.ofRecord? (α := TimerRecord)) = [] := by
  simp [toRecords, RecordType.ofRecord?]

theorem isas_toRecords :
    topology.toRecords.filterMap (RecordType.ofRecord? (α := IsaRecord)) = [] := by
  simp [toRecords, RecordType.ofRecord?]

theorem cacheBlocks_toRecords :
    topology.toRecords.filterMap (RecordType.ofRecord? (α := CacheBlockRecord)) = [] := by
  simp [toRecords, RecordType.ofRecord?]

end Topology
end RiscvTables
