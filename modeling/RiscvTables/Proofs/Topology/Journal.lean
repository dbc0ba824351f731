import RiscvTables.Proofs.Outcome
import RiscvTables.Topology.Journal

/-!
# Journals that succeed

A journal that ends well is taken apart like a chain of steps, and each step gets its own stretch
of the entries (`bind_eq_ok_iff`).  Carrying it out is then a fold over the entries
(`carryOut_eq_ok_iff`), so a fact about one entry becomes one about the run by induction on a
list, whoever emitted it.
-/

set_option autoImplicit false

namespace RiscvTables
namespace Journal

variable {ω α β : Type} {entries : List ω}

/-! ## Taking a journal apart -/

theorem pure_eq_ok_iff {a b : α} :
    (pure a : Journal ω α) = ⟨entries, .ok b⟩ ↔ entries = [] ∧ a = b := by
  rw [pure_eq, Journal.mk.injEq, Except.ok.injEq, eq_comm (a := [])]

theorem ofExcept_eq_ok_iff {outcome : Except TopologyError α} {a : α} :
    ofExcept outcome = ⟨entries, .ok a⟩ ↔ entries = [] ∧ outcome = .ok a := by
  rw [ofExcept, Journal.mk.injEq, eq_comm (a := [])]

/-- A step without entries of its own. -/
theorem liftM_eq_ok_iff {outcome : Except TopologyError α} {a : α} :
    (liftM outcome : Journal ω α) = ⟨entries, .ok a⟩ ↔ entries = [] ∧ outcome = .ok a :=
  ofExcept_eq_ok_iff

theorem emit_eq_ok_iff {entry : ω} {a : Unit} :
    emit entry = ⟨entries, .ok a⟩ ↔ entries = [entry] := by
  rw [emit, Journal.mk.injEq, eq_comm (a := [entry])]
  exact and_iff_left rfl

theorem bind_eq_ok_iff {first : Journal ω α} {next : α → Journal ω β} {b : β} :
    (first >>= next) = ⟨entries, .ok b⟩ ↔
      ∃ a before after, first = ⟨before, .ok a⟩ ∧ next a = ⟨after, .ok b⟩ ∧
        before ++ after = entries := by
  obtain ⟨before, outcome⟩ := first
  rw [bind_eq]
  cases outcome with
  | error error =>
    rw [andThen_error, Journal.mk.injEq]
    constructor
    · rintro ⟨-, h⟩
      cases h
    · rintro ⟨a, _, _, h, -⟩
      cases (Journal.mk.inj h).2
  | ok a =>
    rw [andThen_ok, Journal.mk.injEq]
    constructor
    · rintro ⟨hentries, houtcome⟩
      refine ⟨a, before, (next a).entries, rfl, ?_, hentries⟩
      rw [← houtcome]
    · rintro ⟨a', before', after, hfirst, hnext, rfl⟩
      obtain ⟨rfl, houtcome⟩ := Journal.mk.inj hfirst
      obtain rfl := Except.ok.inj houtcome
      rw [hnext]
      exact ⟨rfl, rfl⟩

theorem liftM_bind_eq_ok_iff {outcome : Except TopologyError α} {next : α → Journal ω β} {b : β} :
    (liftM outcome >>= next) = ⟨entries, .ok b⟩ ↔
      ∃ a, outcome = .ok a ∧ next a = ⟨entries, .ok b⟩ := by
  rw [bind_eq_ok_iff]
  constructor
  · rintro ⟨a, before, after, hfirst, hnext, rfl⟩
    obtain ⟨rfl, hok⟩ := liftM_eq_ok_iff.1 hfirst
    exact ⟨a, hok, hnext⟩
  · rintro ⟨a, hok, hnext⟩
    exact ⟨a, [], entries, liftM_eq_ok_iff.2 ⟨rfl, hok⟩, hnext, rfl⟩

/-- A run whose result is only rewritten. -/
theorem bind_pure_eq_ok_iff {first : Journal ω α} {f : α → β} {b : β} :
    (first >>= fun a => pure (f a)) = ⟨entries, .ok b⟩ ↔
      ∃ a, first = ⟨entries, .ok a⟩ ∧ f a = b := by
  simp only [bind_eq_ok_iff, pure_eq_ok_iff]
  constructor
  · rintro ⟨a, before, _, hfirst, ⟨rfl, rfl⟩, rfl⟩
    exact ⟨a, by rw [hfirst, List.append_nil], rfl⟩
  · rintro ⟨a, hfirst, rfl⟩
    exact ⟨a, entries, [], hfirst, ⟨rfl, rfl⟩, List.append_nil _⟩

/-- A check that lets the run go on. -/
theorem guard_eq_ok_iff {p : Prop} [Decidable p] {error : TopologyError} {dead : α → Journal ω β}
    {next : Journal ω β} {b : β} :
    (if p then ofExcept (.error error) >>= dead else next) = ⟨entries, .ok b⟩ ↔
      ¬ p ∧ next = ⟨entries, .ok b⟩ := by
  by_cases h : p
  · rw [if_pos h, bind_eq_ok_iff]
    constructor
    · rintro ⟨a, _, _, herror, -⟩
      cases (ofExcept_eq_ok_iff.1 herror).2
    · rintro ⟨hnot, -⟩
      exact absurd h hnot
  · rw [if_neg h]
    exact (and_iff_right h).symm

theorem outcome_eq_ok_iff {journal : Journal ω α} {a : α} :
    journal.outcome = .ok a ↔ ∃ entries, journal = ⟨entries, .ok a⟩ := by
  constructor
  · intro h
    exact ⟨journal.entries, h ▸ rfl⟩
  · rintro ⟨entries, rfl⟩
    rfl

theorem outcome_bind (first : Journal ω α) (next : α → Journal ω β) :
    (first >>= next).outcome = first.outcome >>= fun a => (next a).outcome := by
  obtain ⟨before, outcome⟩ := first
  cases outcome <;> rfl

/-! ## Carrying it out -/

variable {σ : Type} {step : σ → ω → Except TopologyError σ}

theorem go_eq_ok_iff {outcome : Except TopologyError α} {all : List ω} {s s' : σ} {a : α} :
    carryOut.go step ⟨all, outcome⟩ entries s = (s', .ok a) ↔
      outcome = .ok a ∧ entries.foldlM step s = .ok s' := by
  induction entries generalizing s with
  | nil =>
    rw [carryOut.go, Prod.mk.injEq, List.foldlM_nil, Except.pure_eq_ok_iff]
    exact And.comm
  | cons entry rest ih =>
    rw [carryOut.go, List.foldlM_cons]
    cases step s entry with
    | error error => simp [bind, Except.bind]
    | ok next => exact ih

/-- A journal is carried out if all of its entries are. -/
theorem carryOut_eq_ok_iff {journal : Journal ω α} {s s' : σ} {a : α} :
    journal.carryOut step s = (s', .ok a) ↔
      journal.outcome = .ok a ∧ journal.entries.foldlM step s = .ok s' :=
  go_eq_ok_iff

/-- What each entry keeps is kept however the run ends. -/
theorem carryOut_preserves {P : σ → Prop} (hstep : ∀ s w s', step s w = .ok s' → P s → P s')
    (journal : Journal ω α) {s : σ} (hs : P s) : P (journal.carryOut step s).1 := by
  obtain ⟨entries, outcome⟩ := journal
  show P (carryOut.go step ⟨entries, outcome⟩ entries s).1
  generalize (⟨entries, outcome⟩ : Journal ω α) = journal
  induction entries generalizing s with
  | nil => exact hs
  | cons entry rest ih =>
    rw [carryOut.go]
    cases hentry : step s entry with
    | error error => exact hs
    | ok next => exact ih (hstep s entry next hentry hs)

end Journal
end RiscvTables
