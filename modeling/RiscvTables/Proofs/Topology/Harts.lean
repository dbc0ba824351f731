import RiscvTables.Proofs.Topology.HartTable
import RiscvTables.Proofs.Topology.Journal
import RiscvTables.Topology.Harts

/-!
# The harts that are discovered

Discovery makes one fresh record for each cpu, in order: with the hart id that the cpu's `reg`
gives, which no other cpu may have, and with the next processor uid.  It succeeds exactly when
there is a cpu, every cpu is a RISC-V hart, and the hart ids are there and distinct
(`outcome_resolveHarts_eq_ok_iff`).
-/

set_option autoImplicit false

namespace RiscvTables

/-- Harts that are not wired, with processor uids from `uid` on. -/
def HartTable.freshEntries (uid : Nat) (ids : List UInt64) : List HartEntry :=
  (ids.zipIdx uid).map fun p => ⟨HartRecord.fresh p.1 (UInt32.ofNat p.2), none⟩

namespace HartTable

theorem freshEntries_cons (uid : Nat) (id : UInt64) (ids : List UInt64) :
    freshEntries uid (id :: ids) =
      ⟨HartRecord.fresh id (UInt32.ofNat uid), none⟩ :: freshEntries (uid + 1) ids := rfl

theorem getElem?_freshEntries (uid : Nat) (ids : List UInt64) (i : Nat) :
    (freshEntries uid ids)[i]? =
      ids[i]?.map fun id => ⟨HartRecord.fresh id (UInt32.ofNat (uid + i)), none⟩ := by
  rw [freshEntries, List.getElem?_map, List.getElem?_zipIdx, Option.map_map]
  rfl

theorem map_hartId_freshEntries (uid : Nat) (ids : List UInt64) :
    (freshEntries uid ids).map (·.record.hartId) = ids := by
  induction ids generalizing uid with
  | nil => rfl
  | cons id rest ih => rw [freshEntries_cons, List.map_cons, ih, HartRecord.fresh]

theorem map_processorUid_freshEntries (uid : Nat) (ids : List UInt64) :
    (freshEntries uid ids).map (·.record.processorUid) =
      (List.range' uid ids.length).map UInt32.ofNat := by
  induction ids generalizing uid with
  | nil => rfl
  | cons id rest ih =>
    rw [freshEntries_cons, List.map_cons, ih, List.length_cons, List.range'_succ, List.map_cons,
      HartRecord.fresh]

end HartTable

namespace DeviceTree

variable {tree : DeviceTree} {table table' : HartTable} {entries : List Warning}

theorem outcome_collectHarts_cons (uid : Nat) (table : HartTable) (cpu : NodeId)
    (rest : List NodeId) :
    (tree.collectHarts uid table (cpu :: rest)).outcome =
      if tree.isCompatible cpu "riscv" then do
        let id ← tree.hartId cpu
        let next ← table.push (HartRecord.fresh id (UInt32.ofNat uid))
        (tree.collectHarts (uid + 1) next rest).outcome
      else .error (.unsupportedCpu (tree.path cpu)) := by
  rw [collectHarts]
  cases hcompatible : tree.isCompatible cpu "riscv" with
  | false => rfl
  | true =>
    simp only [Bool.not_true, Bool.false_eq_true, if_false, if_true, Journal.outcome_bind]
    refine bind_congr fun id => ?_
    -- the warning is an entry of the journal, and no part of its outcome
    cases tree.hasInterruptController cpu with
    | false => exact (Journal.outcome_bind _ _).trans (Journal.outcome_bind _ _)
    | true => exact Journal.outcome_bind _ _

/-- **When the harts of some cpus can be added to a table, and what is added.** -/
theorem outcome_collectHarts_eq_ok_iff {uid : Nat} {cpus : List NodeId} :
    (tree.collectHarts uid table cpus).outcome = .ok table' ↔
      (∀ cpu ∈ cpus, tree.isCompatible cpu "riscv") ∧
        ∃ ids, List.Forall₂ (fun cpu id => tree.hartId cpu = .ok id) cpus ids ∧
          ids.Nodup ∧ (table.records.map (·.hartId)).Disjoint ids ∧
          table' = ⟨table.entries ++ HartTable.freshEntries uid ids⟩ := by
  induction cpus generalizing uid table with
  | nil =>
    simp only [List.not_mem_nil, false_implies, implies_true, true_and,
      List.forall₂_nil_left_iff, exists_eq_left]
    rw [collectHarts, Journal.pure_eq, Except.ok.injEq]
    simp [HartTable.freshEntries, eq_comm]
  | cons cpu rest ih =>
    have hids : ∀ id, (HartTable.records ⟨table.entries ++
        [⟨HartRecord.fresh id (UInt32.ofNat uid), none⟩]⟩).map (·.hartId) =
          table.records.map (·.hartId) ++ [id] := by
      intro id
      simp [HartTable.records, HartRecord.fresh]
    rw [outcome_collectHarts_cons, List.forall_mem_cons]
    by_cases hcompatible : tree.isCompatible cpu "riscv"
    · rw [if_pos hcompatible]
      constructor
      · intro h
        obtain ⟨id, hid, h⟩ := Except.bind_eq_ok_iff.1 h
        obtain ⟨next, hpush, h⟩ := Except.bind_eq_ok_iff.1 h
        obtain ⟨hnew, rfl⟩ := HartTable.push_eq_ok_iff.1 hpush
        obtain ⟨hothers, ids, hrest, hnodup, hdisjoint, rfl⟩ := ih.1 h
        rw [hids, List.disjoint_append_left, List.singleton_disjoint] at hdisjoint
        refine ⟨⟨hcompatible, hothers⟩, id :: ids, .cons hid hrest, ?_, ?_, ?_⟩
        · exact List.nodup_cons.2 ⟨hdisjoint.2, hnodup⟩
        · exact List.disjoint_cons_right.2 ⟨hnew, hdisjoint.1⟩
        · rw [HartTable.freshEntries_cons, List.append_assoc, List.singleton_append]
      · rintro ⟨⟨-, hothers⟩, _, hforall, hnodup, hdisjoint, rfl⟩
        obtain ⟨id, ids, hid, hrest, rfl⟩ := List.forall₂_cons_left_iff.1 hforall
        obtain ⟨hnotMem, hnodup⟩ := List.nodup_cons.1 hnodup
        obtain ⟨hnew, hdisjoint⟩ := List.disjoint_cons_right.1 hdisjoint
        refine Except.bind_eq_ok_iff.2 ⟨id, hid, Except.bind_eq_ok_iff.2 ⟨_,
          HartTable.push_eq_ok_iff.2 ⟨hnew, rfl⟩, ih.2 ⟨hothers, ids, hrest, hnodup, ?_, ?_⟩⟩⟩
        · rw [hids]
          exact List.disjoint_append_left.2 ⟨hdisjoint, List.singleton_disjoint.2 hnotMem⟩
        · rw [HartTable.freshEntries_cons, List.append_assoc, List.singleton_append]
    · rw [if_neg hcompatible]
      constructor
      · intro h
        cases h
      · intro h
        exact absurd h.1.1 hcompatible

/-- **When discovery succeeds, and what it makes**: one fresh hart for each cpu. -/
theorem outcome_resolveHarts_eq_ok_iff {cpus : NodeId} :
    (tree.resolveHarts cpus).outcome = .ok table ↔
      tree.cpuNodes cpus ≠ [] ∧ (∀ cpu ∈ tree.cpuNodes cpus, tree.isCompatible cpu "riscv") ∧
        ∃ ids, List.Forall₂ (fun cpu id => tree.hartId cpu = .ok id) (tree.cpuNodes cpus) ids ∧
          ids.Nodup ∧ table.entries = HartTable.freshEntries 0 ids := by
  have htable : ∀ entries, table = ⟨entries⟩ ↔ table.entries = entries :=
    fun entries => HartTable.mk.injEq table.entries entries ▸ Iff.rfl
  rw [resolveHarts]
  cases hcpus : tree.cpuNodes cpus with
  | nil => exact ⟨nofun, fun h => absurd rfl h.1⟩
  | cons cpu rest =>
    rw [outcome_collectHarts_eq_ok_iff]
    simp [HartTable.empty, HartTable.records, htable]

/-- There are no harts without a cpu. -/
theorem cpuNodes_ne_nil_of_resolveHarts {cpus : NodeId}
    (h : tree.resolveHarts cpus = ⟨entries, .ok table⟩) : tree.cpuNodes cpus ≠ [] :=
  (outcome_resolveHarts_eq_ok_iff.1 (Journal.outcome_eq_ok_iff.2 ⟨entries, h⟩)).1

/-- **Discovery makes one fresh hart for each cpu.** -/
theorem resolveHarts_spec {cpus : NodeId}
    (h : tree.resolveHarts cpus = ⟨entries, .ok table⟩) :
    ∃ ids, List.Forall₂ (fun cpu id => tree.hartId cpu = .ok id) (tree.cpuNodes cpus) ids ∧
      ids.Nodup ∧ table.entries = HartTable.freshEntries 0 ids :=
  (outcome_resolveHarts_eq_ok_iff.1 (Journal.outcome_eq_ok_iff.2 ⟨entries, h⟩)).2.2

theorem processorUid_of_resolveHarts {cpus : NodeId}
    (h : tree.resolveHarts cpus = ⟨entries, .ok table⟩) :
    table.records.map (·.processorUid) =
      (List.range (tree.cpuNodes cpus).length).map UInt32.ofNat := by
  obtain ⟨ids, hids, -, hentries⟩ := resolveHarts_spec h
  rw [HartTable.records, hentries, List.map_map, hids.length_eq, List.range_eq_range']
  exact HartTable.map_processorUid_freshEntries 0 ids

end DeviceTree
end RiscvTables
