import RiscvTables.Proofs.Outcome
import RiscvTables.Proofs.Topology.HartTable
import RiscvTables.Topology.Banks

/-!
# Giving contexts to harts

The banks of a tree write external ids to the hart table one after the other.  A table takes the
whole run if it takes each of the writes by itself and the writes to one hart agree on the family;
then each hart has what the last of the writes to it says (`foldlM_apply_eq_ok_iff`).  So the
order of writes to different harts makes no difference, and what has been overwritten leaves no
trace.
-/

set_option autoImplicit false

namespace RiscvTables
namespace ContextWrite

variable {table table' : HartTable} {write other : ContextWrite} {rest : List ContextWrite}

/-- The entry of the hart after the write. -/
def wire (write : ContextWrite) (entry : HartEntry) : HartEntry :=
  { record := { entry.record with externalId := write.externalId },
    wiredBy := some write.family }

/-- A table takes a write if it holds the hart and no other family has wired it. -/
def TakenBy (table : HartTable) (write : ContextWrite) : Prop :=
  ∃ entry, table.entry? write.hartId = some entry ∧
    ∀ existing, entry.wiredBy = some existing → existing = write.family

/-- Two writes agree if they are not for one hart from two families. -/
def Agree (write other : ContextWrite) : Prop :=
  write.hartId = other.hartId → write.family = other.family

/-- The entry of a hart after some writes: the last write to the hart counts. -/
def settle (writes : List ContextWrite) (entry : HartEntry) : HartEntry :=
  (writes.filter fun write => write.hartId = entry.record.hartId).getLast?.elim entry
    (·.wire entry)

theorem TakenBy.hartId_mem (h : write.TakenBy table) :
    write.hartId ∈ table.records.map (·.hartId) := by
  obtain ⟨entry, hentry, -⟩ := h
  by_contra hnot
  rw [HartTable.entry?_eq_none_iff.2 hnot] at hentry
  cases hentry

theorem agree_of_pairwise {writes : List ContextWrite} (h : writes.Pairwise Agree)
    (hwrite : write ∈ writes) (hother : other ∈ writes) : write.Agree other := by
  have hflip : writes.Pairwise (flip Agree) :=
    h.imp fun hagree hsame => (hagree hsame.symm).symm
  exact h.forall_of_forall_of_flip (fun _ _ _ => rfl) hflip hwrite hother

/-! ## One write -/

theorem apply_eq_ok_iff :
    write.apply table = .ok table' ↔
      write.TakenBy table ∧ table' = table.adjust write.hartId write.wire :=
  HartTable.setExternalId_eq_ok_iff

/-- After a write a table takes the same writes as before, but for the other family. -/
theorem takenBy_adjust_iff (h : write.TakenBy table) :
    other.TakenBy (table.adjust write.hartId write.wire) ↔
      other.TakenBy table ∧ write.Agree other := by
  obtain ⟨entry, hentry, hfamily⟩ := h
  have hfind : ∀ found, HartTable.entry? (table.adjust write.hartId write.wire) other.hartId =
      some found ↔ ∃ entry, table.entry? other.hartId = some entry ∧
        (if other.hartId = write.hartId then write.wire entry else entry) = found :=
    fun _ => HartTable.entry?_adjust_eq_some_iff (f := write.wire) fun _ => rfl
  simp only [TakenBy, hfind]
  by_cases hhart : other.hartId = write.hartId
  · simp only [hhart, hentry, Option.some.injEq, if_true, Agree, forall_const]
    constructor
    · rintro ⟨_, ⟨_, rfl, rfl⟩, hother⟩
      have hsame : write.family = other.family := hother write.family rfl
      exact ⟨⟨entry, rfl, fun existing hexisting => hsame ▸ hfamily existing hexisting⟩, hsame⟩
    · rintro ⟨-, hsame⟩
      exact ⟨_, ⟨entry, rfl, rfl⟩, fun existing hexisting =>
        (Option.some.inj hexisting).symm.trans hsame⟩
  · simp only [if_neg hhart, exists_eq_right, Agree, Ne.symm hhart, false_implies, and_true]

/-! ## A run of writes -/

/-- **Which runs a table takes, and what they leave.** -/
theorem foldlM_apply_eq_ok_iff {writes : List ContextWrite} :
    writes.foldlM apply table = .ok table' ↔
      (∀ write ∈ writes, write.TakenBy table) ∧ writes.Pairwise Agree ∧
        table' = ⟨table.entries.map (settle writes)⟩ := by
  induction writes generalizing table with
  | nil =>
    have hentries : table.entries.map (settle []) = table.entries := List.map_id _
    rw [List.foldlM_nil, Except.pure_eq_ok_iff, hentries]
    simp [eq_comm]
  | cons write rest ih =>
    have hsettle : (table.adjust write.hartId write.wire).entries.map (settle rest) =
        table.entries.map (settle (write :: rest)) :=
      HartTable.map_afterWrites_adjust (fun _ => rfl) fun _ _ => rfl
    rw [List.foldlM_cons, Except.bind_eq_ok_iff, List.forall_mem_cons, List.pairwise_cons]
    constructor
    · rintro ⟨next, hnext, hrest⟩
      obtain ⟨htaken, rfl⟩ := apply_eq_ok_iff.1 hnext
      obtain ⟨hall, hagree, rfl⟩ := ih.1 hrest
      -- what the table takes after the first write, it takes before it and agrees with the write
      refine ⟨⟨htaken, fun other hother => ?_⟩, ⟨fun other hother => ?_, hagree⟩, ?_⟩
      · exact ((takenBy_adjust_iff htaken).1 (hall other hother)).1
      · exact ((takenBy_adjust_iff htaken).1 (hall other hother)).2
      · rw [hsettle]
    · rintro ⟨⟨htaken, hall⟩, ⟨hfirst, hagree⟩, rfl⟩
      refine ⟨_, apply_eq_ok_iff.2 ⟨htaken, rfl⟩, ih.2 ⟨fun other hother => ?_, hagree, ?_⟩⟩
      · exact (takenBy_adjust_iff htaken).2 ⟨hall other hother, hfirst other hother⟩
      · rw [hsettle]

end ContextWrite
end RiscvTables
