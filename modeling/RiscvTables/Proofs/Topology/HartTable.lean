import Mathlib.Data.List.Nodup
import RiscvTables.Proofs.Outcome
import RiscvTables.Topology.HartTable

/-!
# What the setters of the hart table do

A setter finds the hart and adjusts its entries, or refuses and there is no new table.  What an
adjustment does not touch is the same for every entry (`map_adjust`), and that is how a run of
setters is shown to leave a field alone.

Writes that overwrite each other leave what the last one to each hart says (`afterWrites`),
whichever fields they write.
-/

set_option autoImplicit false

namespace RiscvTables
namespace HartTable

variable {table table' : HartTable} {hartId : UInt64} {f : HartEntry → HartEntry}

theorem map_hartId_records (table : HartTable) :
    table.records.map (·.hartId) = table.entries.map (·.record.hartId) := by
  rw [records, List.map_map]
  rfl

/-! ## Adjusting -/

/-- A field that the function does not change is the same in every entry. -/
theorem map_adjust {β : Type} {g : HartEntry → β} (h : ∀ entry, g (f entry) = g entry) :
    (table.adjust hartId f).entries.map g = table.entries.map g := by
  rw [adjust, List.map_map]
  refine List.map_congr_left fun entry _ => ?_
  rw [Function.comp_apply]
  split
  · exact h entry
  · rfl

/-- An adjustment that keeps the hart ids is found at its hart and nowhere else. -/
theorem entry?_adjust_eq_some_iff
    (hf : ∀ entry, (f entry).record.hartId = entry.record.hartId) {other : UInt64}
    {found : HartEntry} :
    HartTable.entry? (table.adjust hartId f) other = some found ↔
      ∃ entry, table.entry? other = some entry ∧
        (if other = hartId then f entry else entry) = found := by
  have hsame : (fun entry : HartEntry => decide (entry.record.hartId = other)) ∘
      (fun entry => if entry.record.hartId = hartId then f entry else entry) =
        fun entry => decide (entry.record.hartId = other) := by
    funext entry
    rw [Function.comp_apply]
    split
    · rw [hf]
    · rfl
  unfold entry?
  rw [adjust, List.find?_map, hsame, Option.map_eq_some_iff]
  refine exists_congr fun entry => and_congr_right fun hentry => ?_
  have hid : entry.record.hartId = other := by simpa using List.find?_some hentry
  rw [hid]

/-! ## Adding -/

theorem entry?_eq_none_iff :
    table.entry? hartId = none ↔ hartId ∉ table.records.map (·.hartId) := by
  unfold entry?
  rw [List.find?_eq_none, records, List.map_map, List.mem_map]
  constructor
  · rintro h ⟨entry, hentry, hid⟩
    exact h entry hentry (decide_eq_true hid)
  · intro h entry hentry hid
    exact h ⟨entry, hentry, of_decide_eq_true hid⟩

theorem push_eq_ok_iff {record : HartRecord} :
    table.push record = .ok table' ↔ record.hartId ∉ table.records.map (·.hartId) ∧
      table' = ⟨table.entries ++ [⟨record, none⟩]⟩ := by
  rw [← entry?_eq_none_iff, push]
  cases table.entry? record.hartId with
  | none => simp [eq_comm]
  | some entry => simp

/-! ## Setting -/

theorem setInterruptFile_eq_ok_iff {base : UInt64} {size : UInt32} :
    table.setInterruptFile hartId base size = .ok table' ↔
      (∃ entry, table.entry? hartId = some entry) ∧
        table' = table.adjust hartId fun entry =>
          { entry with record := { entry.record with imsicBase := base, imsicSize := size } } := by
  rw [setInterruptFile]
  cases table.entry? hartId with
  | none => simp
  | some entry => simp [eq_comm]

/-- A hart is wired if it is there and no other family has wired it. -/
theorem setExternalId_eq_ok_iff {family : BankFamily} {externalId : UInt32} :
    table.setExternalId hartId family externalId = .ok table' ↔
      (∃ entry, table.entry? hartId = some entry ∧
        ∀ existing, entry.wiredBy = some existing → existing = family) ∧
        table' = table.adjust hartId fun entry =>
          { record := { entry.record with externalId }, wiredBy := some family } := by
  rw [setExternalId]
  cases table.entry? hartId with
  | none => simp
  | some entry =>
    cases hwired : entry.wiredBy with
    | none => simp [hwired, setExternalId.wired, eq_comm]
    | some existing =>
      by_cases hsame : existing = family
      · simp [hwired, hsame, setExternalId.wired, eq_comm]
      · simp [hwired, hsame]

/-! ## Runs of writes -/

section Runs

variable {Write : Type} {hart : Write → UInt64} {effect : Write → HartEntry → HartEntry}

/-- The entry of a hart after some writes: the last write to the hart counts. -/
def afterWrites (hart : Write → UInt64) (effect : Write → HartEntry → HartEntry)
    (writes : List Write) (entry : HartEntry) : HartEntry :=
  (writes.filter fun write => hart write = entry.record.hartId).getLast?.elim entry
    (effect · entry)

/-- The write that counts is the one behind which there is no other to the hart. -/
theorem afterWrites_eq (hart : Write → UInt64) (effect : Write → HartEntry → HartEntry)
    (writes : List Write) (entry : HartEntry) :
    (∃ (k : Nat) (write : Write), writes[k]? = some write ∧ hart write = entry.record.hartId ∧
      (∀ (k' : Nat) later, writes[k']? = some later → hart later = entry.record.hartId → k' ≤ k) ∧
        afterWrites hart effect writes entry = effect write entry) ∨
    (∀ write ∈ writes, hart write ≠ entry.record.hartId) ∧
      afterWrites hart effect writes entry = entry := by
  rw [afterWrites]
  cases hlast : (writes.filter fun write => hart write = entry.record.hartId).getLast? with
  | none =>
    rw [List.getLast?_eq_none_iff, List.filter_eq_nil_iff] at hlast
    exact .inr ⟨fun write hwrite => by simpa using hlast write hwrite, rfl⟩
  | some write =>
    obtain ⟨counted, hcounted⟩ := List.getLast?_eq_some_iff.1 hlast
    obtain ⟨first, rest, rfl, -, hrest⟩ := List.filter_eq_append_iff.1 hcounted
    obtain ⟨skipped, after, rfl, -, hhart, hafter⟩ := List.filter_eq_cons_iff.1 hrest
    rw [List.filter_eq_nil_iff] at hafter
    refine .inl ⟨(first ++ skipped).length, write, ?_, by simpa using hhart, ?_, rfl⟩
    · rw [← List.append_assoc, List.getElem?_append_right (Nat.le_refl _), Nat.sub_self]
      rfl
    · intro k' later hlater hsame
      by_contra hbehind
      obtain ⟨n, rfl⟩ := Nat.exists_eq_add_of_lt (Nat.lt_of_not_le hbehind)
      rw [← List.append_assoc, List.getElem?_append_right (by omega), Nat.add_assoc,
        Nat.add_sub_cancel_left, List.getElem?_cons_succ] at hlater
      exact hafter later (List.mem_of_getElem? hlater) (by simpa using hsame)

/-- The first write is undone by later ones to the same hart. -/
theorem afterWrites_cons {write : Write} {rest : List Write}
    (hkeeps : ∀ entry, (effect write entry).record.hartId = entry.record.hartId)
    (hundone : ∀ later entry, effect later (effect write entry) = effect later entry)
    (entry : HartEntry) :
    afterWrites hart effect (write :: rest) entry =
      afterWrites hart effect rest
        (if entry.record.hartId = hart write then effect write entry else entry) := by
  by_cases hhart : entry.record.hartId = hart write
  · rw [if_pos hhart, afterWrites, afterWrites, List.filter_cons_of_pos (by simp [hhart]),
      List.getLast?_cons, hkeeps]
    cases (rest.filter fun w => hart w = entry.record.hartId).getLast? with
    | none => rfl
    | some last => exact (hundone last entry).symm
  · rw [if_neg hhart, afterWrites, afterWrites, List.filter_cons_of_neg (by simp [Ne.symm hhart])]

theorem map_afterWrites_adjust {write : Write} {rest : List Write}
    (hkeeps : ∀ entry, (effect write entry).record.hartId = entry.record.hartId)
    (hundone : ∀ later entry, effect later (effect write entry) = effect later entry) :
    (table.adjust (hart write) (effect write)).entries.map (afterWrites hart effect rest) =
      table.entries.map (afterWrites hart effect (write :: rest)) := by
  rw [adjust, List.map_map]
  exact List.map_congr_left fun entry _ => (afterWrites_cons hkeeps hundone entry).symm

/-- **After a run of writes each hart has what the last write to it says.** -/
theorem eq_afterWrites_of_foldlM (hart : Write → UInt64) (effect : Write → HartEntry → HartEntry)
    {step : HartTable → Write → Except TopologyError HartTable}
    (hstep : ∀ table write table', step table write = .ok table' →
      table' = table.adjust (hart write) (effect write))
    (hkeeps : ∀ write entry, (effect write entry).record.hartId = entry.record.hartId)
    (hundone : ∀ write later entry, effect later (effect write entry) = effect later entry)
    {writes : List Write} (h : writes.foldlM step table = .ok table') :
    table' = ⟨table.entries.map (afterWrites hart effect writes)⟩ := by
  induction writes generalizing table with
  | nil =>
    obtain rfl := Except.pure_eq_ok_iff.1 h
    exact congrArg HartTable.mk (List.map_id _).symm
  | cons write rest ih =>
    rw [List.foldlM_cons, Except.bind_eq_ok_iff] at h
    obtain ⟨next, hnext, hrest⟩ := h
    obtain rfl := hstep table write next hnext
    rw [ih hrest, map_afterWrites_adjust (hkeeps write) (hundone write)]

end Runs

end HartTable
end RiscvTables
