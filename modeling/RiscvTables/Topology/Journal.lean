import RiscvTables.Topology.Error

/-!
# Journals

A resolver reads a device tree and, on its way, emits things: warnings, or writes to the hart
table.  What it has emitted stays emitted when it fails later.  A `Journal` keeps the two apart:
the entries made, in order, and how the run ended.

So what a resolver intends is a function of the tree alone, and can be compared, reordered and
counted before any table has seen it.
-/

set_option autoImplicit false

namespace RiscvTables

/-- The entries a run made, and how it ended. -/
structure Journal (ω α : Type) where
  entries : List ω
  outcome : Except TopologyError α

namespace Journal

variable {ω α β : Type}

/-- A run that emits nothing. -/
def ofExcept (outcome : Except TopologyError α) : Journal ω α :=
  ⟨[], outcome⟩

/-- A run that emits one entry. -/
def emit (entry : ω) : Journal ω Unit :=
  ⟨[entry], .ok ()⟩

/-- One run after another.  After a failure there is no other. -/
def andThen (first : Journal ω α) (next : α → Journal ω β) : Journal ω β :=
  match first.outcome with
  | .error error => ⟨first.entries, .error error⟩
  | .ok a => ⟨first.entries ++ (next a).entries, (next a).outcome⟩

instance : Monad (Journal ω) where
  pure a := ⟨[], .ok a⟩
  bind := andThen

instance : MonadLift (Except TopologyError) (Journal ω) where
  monadLift := ofExcept

@[simp] theorem pure_eq (a : α) : (pure a : Journal ω α) = ⟨[], .ok a⟩ := rfl

theorem bind_eq (first : Journal ω α) (next : α → Journal ω β) :
    (first >>= next) = andThen first next := rfl

@[simp] theorem andThen_ok (entries : List ω) (a : α) (next : α → Journal ω β) :
    andThen ⟨entries, .ok a⟩ next = ⟨entries ++ (next a).entries, (next a).outcome⟩ := rfl

@[simp] theorem andThen_error (entries : List ω) (error : TopologyError)
    (next : α → Journal ω β) :
    andThen ⟨entries, .error error⟩ next = ⟨entries, .error error⟩ := rfl

/-- Carries out the entries one after the other, up to the first that is refused.  The run ends
as the journal says if none is. -/
def carryOut {σ : Type} (step : σ → ω → Except TopologyError σ) (journal : Journal ω α)
    (state : σ) : σ × Except TopologyError α :=
  go journal.entries state
where
  /-- Carries out the entries that are left. -/
  go : List ω → σ → σ × Except TopologyError α
    | [], state => (state, journal.outcome)
    | entry :: rest, state =>
      match step state entry with
      | .error error => (state, .error error)
      | .ok next => go rest next

end Journal
end RiscvTables
