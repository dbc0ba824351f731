import Mathlib.Data.List.Forall2
import RiscvTables.Proofs.Topology
import RiscvTables.Proofs.Topology.Contexts

/-!
# The receiver and the banks do not get in each other's way

The receiver writes interrupt files, and refuses a hart that the table does not hold.  The banks
write external ids, and refuse a hart that is not there or that the other family has wired.  What
one of them writes is nothing the other one looks at, so a page is accepted or refused just the
same before and after a context (`pages_independent_contexts`).

That carries over from one write to whole journals, also to those that break off
(`Journal.carryOut_comm`): each resolver ends the same whether the other one has run or not, and
the order makes no difference to the table.
-/

set_option autoImplicit false

namespace RiscvTables

/-! ## Independent steps -/

namespace Journal

variable {σ ω ω' α β : Type}

/-- Two kinds of steps are independent if each is accepted or refused alike before and after one
of the other kind, and two that are accepted lead to the same state in either order. -/
structure Independent (f : σ → ω → Except TopologyError σ)
    (g : σ → ω' → Except TopologyError σ) : Prop where
  meet {s s₁ s₂ : σ} {a : ω} {b : ω'} : f s a = .ok s₁ → g s b = .ok s₂ →
    ∃ s₃, g s₁ b = .ok s₃ ∧ f s₂ a = .ok s₃
  refuseRight {s s₁ : σ} {a : ω} {b : ω'} {error : TopologyError} :
    f s a = .ok s₁ → g s b = .error error → g s₁ b = .error error
  refuseLeft {s s₂ : σ} {a : ω} {b : ω'} {error : TopologyError} :
    g s b = .ok s₂ → f s a = .error error → f s₂ a = .error error

variable {f : σ → ω → Except TopologyError σ} {g : σ → ω' → Except TopologyError σ}

/-- Steps that have a reason to refuse, or else an effect, are independent if the effects commute
and neither of them bears on the reasons of the other kind. -/
theorem Independent.of_effects {refuse : ω → σ → Option TopologyError}
    {refuse' : ω' → σ → Option TopologyError} {effect : ω → σ → σ} {effect' : ω' → σ → σ}
    (hf : ∀ s a, f s a = (refuse a s).elim (.ok (effect a s)) .error)
    (hg : ∀ s b, g s b = (refuse' b s).elim (.ok (effect' b s)) .error)
    (hrefuse : ∀ a b s, refuse a (effect' b s) = refuse a s)
    (hrefuse' : ∀ a b s, refuse' b (effect a s) = refuse' b s)
    (hcomm : ∀ a b s, effect' b (effect a s) = effect a (effect' b s)) : Independent f g where
  meet {s s₁ s₂ a b} hfirst hsecond := by
    rw [hf] at hfirst
    rw [hg] at hsecond
    cases ha : refuse a s with
    | some error => simp [ha] at hfirst
    | none =>
      cases hb : refuse' b s with
      | some error => simp [hb] at hsecond
      | none =>
        rw [ha, Option.elim_none, Except.ok.injEq] at hfirst
        rw [hb, Option.elim_none, Except.ok.injEq] at hsecond
        subst hfirst hsecond
        refine ⟨effect' b (effect a s), ?_, ?_⟩
        · rw [hg, hrefuse', hb, Option.elim_none]
        · rw [hf, hrefuse, ha, Option.elim_none, hcomm]
  refuseRight {s s₁ a b error} hfirst hsecond := by
    rw [hf] at hfirst
    rw [hg] at hsecond
    cases ha : refuse a s with
    | some error => simp [ha] at hfirst
    | none =>
      rw [ha, Option.elim_none, Except.ok.injEq] at hfirst
      rw [← hfirst, hg, hrefuse']
      cases hb : refuse' b s with
      | none => simp [hb] at hsecond
      | some error => simpa [hb] using hsecond
  refuseLeft {s s₂ a b error} hsecond hfirst := by
    rw [hg] at hsecond
    rw [hf] at hfirst
    cases hb : refuse' b s with
    | some error => simp [hb] at hsecond
    | none =>
      rw [hb, Option.elim_none, Except.ok.injEq] at hsecond
      rw [← hsecond, hf, hrefuse]
      cases ha : refuse a s with
      | none => simp [ha] at hfirst
      | some error => simpa [ha] using hfirst

/-- The entries that are left are carried out like a journal of their own. -/
theorem go_eq_carryOut {outcome : Except TopologyError α} {all entries : List ω} {s : σ} :
    carryOut.go f ⟨all, outcome⟩ entries s = carryOut f ⟨entries, outcome⟩ s := by
  have hall : ∀ {all all' : List ω}, carryOut.go f ⟨all, outcome⟩ entries s =
      carryOut.go f ⟨all', outcome⟩ entries s := by
    induction entries generalizing s with
    | nil => exact rfl
    | cons entry rest ih =>
      intro all all'
      rw [carryOut.go, carryOut.go]
      cases f s entry with
      | error error => rfl
      | ok next => exact ih
  exact hall

theorem carryOut_cons_of_error {outcome : Except TopologyError α} {entry : ω} {rest : List ω}
    {s : σ} {error : TopologyError} (h : f s entry = .error error) :
    carryOut f ⟨entry :: rest, outcome⟩ s = (s, .error error) := by
  rw [carryOut, carryOut.go, h]

theorem carryOut_cons_of_ok {outcome : Except TopologyError α} {entry : ω} {rest : List ω}
    {s next : σ} (h : f s entry = .ok next) :
    carryOut f ⟨entry :: rest, outcome⟩ s = carryOut f ⟨rest, outcome⟩ next := by
  rw [carryOut, carryOut.go, h]
  exact go_eq_carryOut

/-- A step that is accepted before a journal is accepted after it, and makes no other
difference. -/
theorem Independent.carryOut_of_ok (h : Independent f g) {a : ω} {s s₁ : σ}
    (hstep : f s a = .ok s₁) (journal : Journal ω' β) :
    ∃ t, f (journal.carryOut g s).1 a = .ok t ∧
      journal.carryOut g s₁ = (t, (journal.carryOut g s).2) := by
  obtain ⟨entries, outcome⟩ := journal
  induction entries generalizing s s₁ with
  | nil => exact ⟨s₁, hstep, rfl⟩
  | cons b rest ih =>
    cases hother : g s b with
    | error error =>
      rw [carryOut_cons_of_error hother, carryOut_cons_of_error (h.refuseRight hstep hother)]
      exact ⟨s₁, hstep, rfl⟩
    | ok s₂ =>
      obtain ⟨s₃, hother', hstep'⟩ := h.meet hstep hother
      rw [carryOut_cons_of_ok hother, carryOut_cons_of_ok hother']
      exact ih hstep'

/-- A step that is refused before a journal is refused after it. -/
theorem Independent.carryOut_of_error (h : Independent f g) {a : ω} {s : σ}
    {error : TopologyError} (hstep : f s a = .error error) (journal : Journal ω' β) :
    f (journal.carryOut g s).1 a = .error error := by
  obtain ⟨entries, outcome⟩ := journal
  induction entries generalizing s with
  | nil => exact hstep
  | cons b rest ih =>
    cases hother : g s b with
    | error error' =>
      rw [carryOut_cons_of_error hother]
      exact hstep
    | ok s₂ =>
      rw [carryOut_cons_of_ok hother]
      exact ih (h.refuseLeft hother hstep)

/-- **Journals of independent steps commute.**  Each ends as if the other one were not there, and
the state is the same in either order, whether they break off or not. -/
theorem carryOut_comm (h : Independent f g) (first : Journal ω α) (second : Journal ω' β) (s : σ) :
    (first.carryOut f (second.carryOut g s).1).1 =
        (second.carryOut g (first.carryOut f s).1).1 ∧
      (first.carryOut f (second.carryOut g s).1).2 = (first.carryOut f s).2 ∧
      (second.carryOut g (first.carryOut f s).1).2 = (second.carryOut g s).2 := by
  obtain ⟨entries, outcome⟩ := first
  induction entries generalizing s with
  | nil => exact ⟨rfl, rfl, rfl⟩
  | cons a rest ih =>
    cases hstep : f s a with
    | error error =>
      rw [carryOut_cons_of_error hstep, carryOut_cons_of_error (h.carryOut_of_error hstep second)]
      exact ⟨rfl, rfl, rfl⟩
    | ok s₁ =>
      obtain ⟨t, hstep', hsecond⟩ := h.carryOut_of_ok hstep second
      obtain ⟨hstate, hfirst, hlast⟩ := ih s₁
      rw [hsecond] at hstate hfirst hlast
      rw [carryOut_cons_of_ok hstep, carryOut_cons_of_ok hstep']
      exact ⟨hstate, hfirst, hlast⟩

end Journal

/-! ## Pages and contexts -/

namespace HartTable

variable {table : HartTable} {hartId other : UInt64} {f g : HartEntry → HartEntry}

theorem entry?_adjust (hf : ∀ entry, (f entry).record.hartId = entry.record.hartId) :
    HartTable.entry? (table.adjust hartId f) other =
      (table.entry? other).map fun entry => if other = hartId then f entry else entry := by
  ext found
  rw [entry?_adjust_eq_some_iff hf, Option.map_eq_some_iff]

/-- A field that an adjustment does not change is found as it was. -/
theorem map_entry?_adjust {β : Type} {view : HartEntry → β}
    (hf : ∀ entry, (f entry).record.hartId = entry.record.hartId)
    (hview : ∀ entry, view (f entry) = view entry) :
    (HartTable.entry? (table.adjust hartId f) other).map view = (table.entry? other).map view := by
  rw [entry?_adjust hf, Option.map_map]
  refine congrArg (Option.map · _) (funext fun entry => ?_)
  rw [Function.comp_apply]
  split
  · exact hview entry
  · rfl

/-- An entry keeps its hart id, whether it is adjusted or not. -/
theorem hartId_ite (hf : ∀ entry, (f entry).record.hartId = entry.record.hartId) {p : Prop}
    [Decidable p] (entry : HartEntry) :
    (if p then f entry else entry).record.hartId = entry.record.hartId := by
  split
  · exact hf entry
  · rfl

/-- Adjustments of different fields may come in either order. -/
theorem adjust_comm (hf : ∀ entry, (f entry).record.hartId = entry.record.hartId)
    (hg : ∀ entry, (g entry).record.hartId = entry.record.hartId)
    (hcomm : ∀ entry, g (f entry) = f (g entry)) :
    HartTable.adjust (table.adjust hartId f) other g =
      HartTable.adjust (table.adjust other g) hartId f := by
  rw [adjust, adjust, adjust, adjust, List.map_map, List.map_map]
  refine congrArg _ (List.map_congr_left fun entry _ => ?_)
  rw [Function.comp_apply, Function.comp_apply, hartId_ite hf, hartId_ite hg]
  by_cases hhart : entry.record.hartId = hartId
  · rw [if_pos hhart, if_pos hhart]
    split
    · exact hcomm entry
    · rfl
  · rw [if_neg hhart, if_neg hhart]

end HartTable

namespace HartEntry

/-- An entry with another interrupt file. -/
def withInterruptFile (base : UInt64) (size : UInt32) (entry : HartEntry) : HartEntry :=
  { entry with record := { entry.record with imsicBase := base, imsicSize := size } }

/-- An entry with another external id from another family. -/
def withExternalId (externalId : UInt32) (wiredBy : Option BankFamily) (entry : HartEntry) :
    HartEntry :=
  { record := { entry.record with externalId }, wiredBy }

/-- Nothing but the interrupt file may differ. -/
def SameButInterruptFile (entry entry' : HartEntry) : Prop :=
  ∃ base size, entry' = entry.withInterruptFile base size

/-- Nothing but the external id and the family that has written it may differ. -/
def SameButExternalId (entry entry' : HartEntry) : Prop :=
  ∃ externalId wiredBy, entry' = entry.withExternalId externalId wiredBy

end HartEntry

/-- The entry of the hart after the write. -/
def PageWrite.assign (write : PageWrite) : HartEntry → HartEntry :=
  HartEntry.withInterruptFile write.base (UInt32.ofNat interruptFileSize)

/-- Why a table refuses a page.  All that counts is whether the table holds the hart. -/
def PageWrite.refusal? (write : PageWrite) (table : HartTable) : Option TopologyError :=
  match (table.entry? write.hartId).map fun _ => () with
  | none => some (.unknownHart write.hartId)
  | some () => none

theorem PageWrite.apply_eq (table : HartTable) (write : PageWrite) :
    write.apply table =
      (write.refusal? table).elim (.ok (table.adjust write.hartId write.assign)) .error := by
  rw [PageWrite.apply, HartTable.setInterruptFile, PageWrite.refusal?]
  cases table.entry? write.hartId <;> rfl

/-- Why a table refuses a context.  All that counts is who has wired the hart. -/
def ContextWrite.refusal? (write : ContextWrite) (table : HartTable) : Option TopologyError :=
  match (table.entry? write.hartId).map (·.wiredBy) with
  | none => some (.unknownHart write.hartId)
  | some none => none
  | some (some existing) =>
    if existing = write.family then none
    else some (.familyConflict write.hartId existing write.family)

theorem ContextWrite.apply_eq (table : HartTable) (write : ContextWrite) :
    write.apply table =
      (write.refusal? table).elim (.ok (table.adjust write.hartId write.wire)) .error := by
  rw [ContextWrite.apply, HartTable.setExternalId, ContextWrite.refusal?]
  cases table.entry? write.hartId with
  | none => rfl
  | some entry =>
    cases hwired : entry.wiredBy with
    | none =>
      simp only [Option.map_some, hwired]
      rfl
    | some existing =>
      by_cases hsame : existing = write.family
      · simp only [Option.map_some, hwired, if_pos hsame]
        rfl
      · simp only [Option.map_some, hwired, if_neg hsame]
        rfl

/-- **A page and a context do not see each other.** -/
theorem pages_independent_contexts : Journal.Independent PageWrite.apply ContextWrite.apply := by
  refine Journal.Independent.of_effects PageWrite.apply_eq ContextWrite.apply_eq ?_ ?_ ?_
  · intro page context table
    have hkept : (HartTable.entry? (table.adjust context.hartId context.wire) page.hartId).map
        (fun _ => ()) = (table.entry? page.hartId).map fun _ => () :=
      HartTable.map_entry?_adjust (fun _ => rfl) fun _ => rfl
    rw [PageWrite.refusal?, hkept, PageWrite.refusal?]
  · intro page context table
    have hkept : (HartTable.entry? (table.adjust page.hartId page.assign) context.hartId).map
        (·.wiredBy) = (table.entry? context.hartId).map (·.wiredBy) :=
      HartTable.map_entry?_adjust (fun _ => rfl) fun _ => rfl
    rw [ContextWrite.refusal?, hkept, ContextWrite.refusal?]
  · intro page context table
    exact HartTable.adjust_comm (fun _ => rfl) (fun _ => rfl) fun _ => rfl

/-! ## The two resolvers -/

/-- Lists that look the same through a view are related element by element, if elements with the
same view are. -/
theorem forall₂_of_map_eq {α β : Type} (view : α → β) {R : α → α → Prop} {xs ys : List α}
    (hR : ∀ x y, view y = view x → R x y) (h : ys.map view = xs.map view) :
    List.Forall₂ R xs ys := by
  rw [← List.forall₂_eq_eq_eq, List.forall₂_map_left_iff, List.forall₂_map_right_iff] at h
  exact h.flip.imp hR

namespace DeviceTree

theorem sameButInterruptFile_of_resolveReceiver (tree : DeviceTree) (table : HartTable) :
    List.Forall₂ HartEntry.SameButInterruptFile table.entries
      (tree.resolveReceiver table).1.entries := by
  refine forall₂_of_map_eq (HartEntry.withInterruptFile 0 0) (fun entry entry' hsame => ?_)
    (map_of_resolveReceiver tree table fun _ _ _ => rfl)
  have hentry' := congrArg
    (HartEntry.withInterruptFile entry'.record.imsicBase entry'.record.imsicSize) hsame
  exact ⟨_, _, hentry'⟩

theorem sameButExternalId_of_resolveBanks (tree : DeviceTree) (table : HartTable) :
    List.Forall₂ HartEntry.SameButExternalId table.entries
      (tree.resolveBanks table).1.entries := by
  refine forall₂_of_map_eq (HartEntry.withExternalId 0 none) (fun entry entry' hsame => ?_)
    (map_of_resolveBanks tree table fun _ _ _ => rfl)
  have hentry' := congrArg
    (HartEntry.withExternalId entry'.record.externalId entry'.wiredBy) hsame
  exact ⟨_, _, hentry'⟩

/-- **The receiver and the banks are independent of each other.**  Each ends the same whether or
not the other one has run before, also where that one has failed.  Both orders leave the same
table, in which the receiver has changed interrupt files only, and the banks external ids only. -/
theorem resolvers_independent (tree : DeviceTree) (table : HartTable) :
    (tree.resolveReceiver (tree.resolveBanks table).1).2 = (tree.resolveReceiver table).2 ∧
      (tree.resolveBanks (tree.resolveReceiver table).1).2 = (tree.resolveBanks table).2 ∧
      (tree.resolveReceiver (tree.resolveBanks table).1).1 =
        (tree.resolveBanks (tree.resolveReceiver table).1).1 ∧
      List.Forall₂ HartEntry.SameButInterruptFile table.entries
        (tree.resolveReceiver table).1.entries ∧
      List.Forall₂ HartEntry.SameButExternalId table.entries
        (tree.resolveBanks table).1.entries := by
  obtain ⟨hstate, hreceiver, hbanks⟩ :=
    Journal.carryOut_comm pages_independent_contexts tree.planReceiver tree.planBanks table
  exact ⟨hreceiver, hbanks, hstate, sameButInterruptFile_of_resolveReceiver tree table,
    sameButExternalId_of_resolveBanks tree table⟩

end DeviceTree
end RiscvTables
