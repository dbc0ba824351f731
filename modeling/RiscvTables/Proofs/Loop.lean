/-!
# Loops that end by themselves

A loop turns its state step by step: a step ends the loop, or gives a result and the state that
the loop goes on with.  `Yields step state results` says that the loop ends and what it has given
by then, with no bound on the number of steps anywhere.

A definition that has to be total bounds the steps instead.  `unroll` is that loop with a bound,
and the two lemmas between them carry over to every walk of a tree that is written with one:
a bounded loop gives the first results of the loop without a bound (`Yields.unroll_eq_take`), and
one that has not come to its bound has ended by itself (`yields_of_unroll_eq`).

`Finds` is the loop that is left at the first result of some sort.  Along a loop that ends every
such search ends (`Yields.finds`).
-/

set_option autoImplicit false

namespace RiscvTables

universe u v
variable {State : Type u} {Result : Type v}

/-- The loop ends, and these are the results of its steps. -/
inductive Yields (step : State → Option (Result × State)) : State → List Result → Prop
  | done {state : State} : step state = none → Yields step state []
  | more {state next : State} {result : Result} {results : List Result} :
    step state = some (result, next) → Yields step next results →
      Yields step state (result :: results)

/-- The loop is left at the first result that passes a test, or ends by itself: the results that it
goes past, and the one that it is left at. -/
inductive Finds (step : State → Option (Result × State)) (test : Result → Bool) :
    State → List Result → Option Result → Prop
  | exhausted {state : State} : step state = none → Finds step test state [] none
  | found {state next : State} {result : Result} :
    step state = some (result, next) → test result = true →
      Finds step test state [] (some result)
  | passed {state next : State} {result : Result} {results : List Result} {found : Option Result} :
    step state = some (result, next) → test result = false → Finds step test next results found →
      Finds step test state (result :: results) found

/-- At most the given number of steps of a loop. -/
def unroll (step : State → Option (Result × State)) : Nat → State → List Result
  | 0, _ => []
  | steps + 1, state =>
    match step state with
    | none => []
    | some (result, next) => result :: unroll step steps next

variable {step : State → Option (Result × State)} {state : State} {results results' : List Result}

/-- A loop ends in one way. -/
theorem Yields.eq (h : Yields step state results) (h' : Yields step state results') :
    results = results' := by
  induction h generalizing results' with
  | done hend =>
    cases h' with
    | done => rfl
    | more hmore => cases hend.symm.trans hmore
  | more hmore _ ih =>
    cases h' with
    | done hend => cases hend.symm.trans hmore
    | more hmore' hrest =>
      obtain ⟨rfl, rfl⟩ := Prod.mk.inj (Option.some.inj (hmore.symm.trans hmore'))
      exact congrArg _ (ih hrest)

/-- All that counts of a state is the next step. -/
theorem Yields.of_step_eq {other : State} (h : Yields step state results)
    (hsame : step other = step state) : Yields step other results := by
  cases h with
  | done hend => exact .done (hsame.trans hend)
  | more hmore hrest => exact .more (hsame.trans hmore) hrest

/-- **Along a loop that ends a search ends**, at the first of the results that passes the test. -/
theorem Yields.finds (h : Yields step state results) (test : Result → Bool) :
    ∃ passed, Finds step test state passed (results.find? test) := by
  induction h with
  | done hend => exact ⟨[], .exhausted hend⟩
  | @more state next result results hmore _ ih =>
    cases htest : test result with
    | true =>
      rw [List.find?_cons_of_pos htest]
      exact ⟨[], .found hmore htest⟩
    | false =>
      obtain ⟨passed, hfinds⟩ := ih
      rw [List.find?_cons_of_neg (by simp [htest])]
      exact ⟨result :: passed, .passed hmore htest hfinds⟩

/-- **A bound cuts the results of a loop short, and changes nothing else.** -/
theorem Yields.unroll_eq_take (h : Yields step state results) (steps : Nat) :
    unroll step steps state = results.take steps := by
  induction h generalizing steps with
  | done hend => cases steps <;> simp [unroll, hend]
  | more hmore _ ih => cases steps <;> simp [unroll, hmore, ih]

/-- **A loop that stops before its bound has ended.** -/
theorem yields_of_unroll_eq {steps : Nat} (h : unroll step steps state = results)
    (hlength : results.length < steps) : Yields step state results := by
  induction steps generalizing state results with
  | zero => exact absurd hlength (Nat.not_lt_zero _)
  | succ steps ih =>
    rw [unroll] at h
    cases hstep : step state with
    | none =>
      rw [hstep] at h
      exact h ▸ Yields.done hstep
    | some turn =>
      obtain ⟨result, next⟩ := turn
      rw [hstep] at h
      subst h
      exact Yields.more hstep (ih rfl (Nat.lt_of_succ_lt_succ hlength))

end RiscvTables
