import Mathlib.Data.List.Forall2

/-!
# When a chain of steps succeeds

Every reader and builder of this library is a chain of steps in `Except`.  These lemmas take a
successful chain apart into its successful steps, so that a proof about one names what each step
returned and never unfolds the chain.

Steps that write to a state may fail after they have written.  `ExceptT.runOn` tells how they end
and what they leave.
-/

set_option autoImplicit false

namespace Except

variable {ε ε' α β : Type}

theorem bind_eq_ok_iff {first : Except ε α} {next : α → Except ε β} {b : β} :
    (first >>= next) = .ok b ↔ ∃ a, first = .ok a ∧ next a = .ok b := by
  cases first <;> simp [bind, Except.bind]

theorem bind_eq_error_iff {first : Except ε α} {next : α → Except ε β} {error : ε} :
    (first >>= next) = .error error ↔
      first = .error error ∨ ∃ a, first = .ok a ∧ next a = .error error := by
  cases first <;> simp [bind, Except.bind]

theorem map_eq_ok_iff {first : Except ε α} {f : α → β} {b : β} :
    (first.map f) = .ok b ↔ ∃ a, first = .ok a ∧ f a = b := by
  cases first <;> simp [Except.map]

theorem map_eq_error_iff {first : Except ε α} {f : α → β} {error : ε} :
    first.map f = .error error ↔ first = .error error := by
  cases first with
  | error refusal =>
    exact ⟨fun h => congrArg Except.error (Except.error.inj h),
      fun h => congrArg Except.error (Except.error.inj h)⟩
  | ok a => exact ⟨nofun, nofun⟩

theorem mapError_eq_ok_iff {first : Except ε α} {f : ε → ε'} {a : α} :
    first.mapError f = .ok a ↔ first = .ok a := by
  cases first with
  | error error => exact ⟨nofun, nofun⟩
  | ok b => exact ⟨fun h => congrArg ok (ok.inj h), fun h => congrArg ok (ok.inj h)⟩

theorem pure_eq_ok_iff {a b : α} : (pure a : Except ε α) = .ok b ↔ a = b := by
  simp [pure, Except.pure]

theorem throw_ne_ok {error : ε} {a : α} : (throw error : Except ε α) ≠ .ok a := by
  simp [throw, throwThe, MonadExceptOf.throw]

theorem toOption_eq_some_iff {outcome : Except ε α} {a : α} :
    outcome.toOption = some a ↔ outcome = .ok a := by
  cases outcome <;> simp [Except.toOption]

theorem exists_eq_error_iff {outcome : Except ε α} :
    (∃ error, outcome = .error error) ↔ ¬ ∃ a, outcome = .ok a := by
  cases outcome <;> simp

/-- A check on a result holds of a result that is there. -/
theorem exists_ok_of_any {outcome : Except ε α} {p : α → Bool} (h : outcome.toOption.any p) :
    ∃ a, outcome = .ok a ∧ p a := by
  obtain ⟨a, ha, hp⟩ := (Option.any_eq_true _ _).1 h
  exact ⟨a, toOption_eq_some_iff.1 ha, hp⟩

/-- A guard that lets the chain go on. -/
theorem guard_eq_ok_iff {p : Prop} [Decidable p] {error : ε} {dead : α → Except ε β}
    {next : Except ε β} {b : β} :
    (if p then throw error >>= dead else next) = .ok b ↔ ¬ p ∧ next = .ok b := by
  by_cases h : p
  · simp [h, bind, Except.bind, throw, throwThe, MonadExceptOf.throw]
  · simp [h]

/-! ## Steps over a list -/

/-- What each step over a member of the list keeps is kept by the run. -/
theorem foldlM_preserves_of_forall_mem {σ ω : Type} {step : σ → ω → Except ε σ} {P : σ → Prop}
    {entries : List ω} (hstep : ∀ w ∈ entries, ∀ s s', step s w = .ok s' → P s → P s') {s s' : σ}
    (h : entries.foldlM step s = .ok s') (hs : P s) : P s' := by
  induction entries generalizing s with
  | nil =>
    obtain rfl := pure_eq_ok_iff.1 h
    exact hs
  | cons w rest ih =>
    rw [List.foldlM_cons, bind_eq_ok_iff] at h
    obtain ⟨next, hnext, hrest⟩ := h
    exact ih (fun w hw => hstep w (List.mem_cons_of_mem _ hw)) hrest
      (hstep w List.mem_cons_self s next hnext hs)

/-- What each step of a run keeps is kept by the run. -/
theorem foldlM_preserves {σ ω : Type} {step : σ → ω → Except ε σ} {P : σ → Prop}
    (hstep : ∀ s w s', step s w = .ok s' → P s → P s') {entries : List ω} {s s' : σ}
    (h : entries.foldlM step s = .ok s') (hs : P s) : P s' :=
  foldlM_preserves_of_forall_mem (fun w _ s s' => hstep s w s') h hs

theorem mapM_eq_ok_iff {f : α → Except ε β} {xs : List α} {ys : List β} :
    xs.mapM f = .ok ys ↔ List.Forall₂ (fun x y => f x = .ok y) xs ys := by
  induction xs generalizing ys with
  | nil =>
    rw [List.mapM_nil, pure_eq_ok_iff, List.forall₂_nil_left_iff, eq_comm]
  | cons x rest ih =>
    rw [List.mapM_cons, bind_eq_ok_iff, List.forall₂_cons_left_iff]
    constructor
    · rintro ⟨y, hy, h⟩
      obtain ⟨others, hothers, h⟩ := bind_eq_ok_iff.1 h
      exact ⟨y, others, hy, ih.1 hothers, (pure_eq_ok_iff.1 h).symm⟩
    · rintro ⟨y, others, hy, hothers, rfl⟩
      exact ⟨y, hy, bind_eq_ok_iff.2 ⟨others, ih.2 hothers, pure_eq_ok_iff.2 rfl⟩⟩

theorem exists_mapM_eq_ok {f : α → Except ε β} {xs : List α} (h : ∀ x ∈ xs, ∃ y, f x = .ok y) :
    ∃ ys, xs.mapM f = .ok ys := by
  induction xs with
  | nil => exact ⟨[], List.mapM_nil⟩
  | cons x rest ih =>
    obtain ⟨⟨y, hy⟩, hrest⟩ := List.forall_mem_cons.1 h
    obtain ⟨ys, hys⟩ := ih hrest
    exact ⟨y :: ys, mapM_eq_ok_iff.2 (.cons hy (mapM_eq_ok_iff.1 hys))⟩

theorem exists_mapM_eq_ok_iff {f : α → Except ε β} {xs : List α} :
    (∃ ys, xs.mapM f = .ok ys) ↔ ∀ x ∈ xs, ∃ y, f x = .ok y := by
  refine ⟨?_, exists_mapM_eq_ok⟩
  rintro ⟨ys, hys⟩
  replace hys := mapM_eq_ok_iff.1 hys
  induction hys with
  | nil => exact nofun
  | cons hfirst _ ih => exact List.forall_mem_cons.2 ⟨⟨_, hfirst⟩, ih⟩

end Except

namespace Option

theorem exists_mapM_eq_some_iff {α β : Type} {f : α → Option β} {xs : List α} :
    (∃ ys, xs.mapM f = some ys) ↔ ∀ x ∈ xs, ∃ y, f x = some y := by
  induction xs with
  | nil => simp
  | cons x xs ih =>
    rw [List.forall_mem_cons, ← ih, List.mapM_cons]
    cases hx : f x <;> cases hxs : xs.mapM f <;> simp

theorem mapM_map_eq_some {α β γ : Type} {f : α → β} {g : β → Option γ} {k : α → γ}
    (h : ∀ a, g (f a) = some (k a)) (xs : List α) : (xs.map f).mapM g = some (xs.map k) := by
  have hgf : g ∘ f = fun a => some (k a) := funext h
  rw [List.mapM_map, hgf]
  exact List.mapM_pure

end Option

/-! ## Steps that write -/

namespace ExceptT

variable {ε σ α β : Type}

/-- Carries out some steps on a state: how they end, and the state that they leave. -/
def runOn (steps : ExceptT ε (StateM σ) α) (state : σ) : Except ε α × σ :=
  StateT.run (ExceptT.run steps) state

theorem runOn_bind (steps : ExceptT ε (StateM σ) α) (next : α → ExceptT ε (StateM σ) β)
    (state : σ) :
    runOn (steps >>= next) state =
      match steps.runOn state with
      | (.error error, after) => (.error error, after)
      | (.ok a, after) => (next a).runOn after := by
  show (ExceptT.bindCont next (steps.runOn state).1).run (steps.runOn state).2 = _
  rcases steps.runOn state with ⟨error | a, after⟩ <;> rfl

theorem runOn_bind_of_ok {steps : ExceptT ε (StateM σ) α} {next : α → ExceptT ε (StateM σ) β}
    {state after : σ} {a : α} (h : steps.runOn state = (.ok a, after)) :
    runOn (steps >>= next) state = (next a).runOn after := by
  rw [runOn_bind, h]

theorem runOn_bind_of_error {steps : ExceptT ε (StateM σ) α} {next : α → ExceptT ε (StateM σ) β}
    {state after : σ} {error : ε} (h : steps.runOn state = (.error error, after)) :
    runOn (steps >>= next) state = (.error error, after) := by
  rw [runOn_bind, h]

theorem runOn_get_bind (next : σ → ExceptT ε (StateM σ) α) (state : σ) :
    runOn (get >>= next) state = (next state).runOn state := rfl

theorem runOn_modify (f : σ → σ) (state : σ) :
    runOn (modify f : ExceptT ε (StateM σ) Unit) state = (.ok (), f state) := rfl

/-- A step that only may fail leaves the state alone. -/
theorem runOn_ofExcept (outcome : Except ε α) (state : σ) :
    runOn (MonadExcept.ofExcept outcome : ExceptT ε (StateM σ) α) state = (outcome, state) := by
  cases outcome <;> rfl

theorem runOn_ofExcept_bind (outcome : Except ε α) (next : α → ExceptT ε (StateM σ) β)
    (state : σ) :
    runOn (MonadExcept.ofExcept outcome >>= next) state =
      match outcome with
      | .error error => (.error error, state)
      | .ok a => (next a).runOn state := by
  rw [runOn_bind, runOn_ofExcept]
  cases outcome <;> rfl

end ExceptT
