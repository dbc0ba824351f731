/-!
# Lookups by key

Properties, phandles and the buckets of a store are lists of pairs that are looked up by their
first parts.  A lookup finds the first pair of a key; where the keys are distinct that is the
pair itself.
-/

set_option autoImplicit false

namespace RiscvTables

variable {α β : Type} [BEq α] [LawfulBEq α]

theorem lookup_cons_eq_ite [DecidableEq α] (key first : α) (value : β) (rest : List (α × β)) :
    ((first, value) :: rest).lookup key = if key = first then some value else rest.lookup key := by
  rw [List.lookup_cons]
  split
  next hsame => rw [if_pos (eq_of_beq hsame)]
  next hother => rw [if_neg (ne_of_beq_false hother)]

/-- A key that is there once is found with its value. -/
theorem lookup_eq_some_iff_mem {pairs : List (α × β)} {key : α} {value : β}
    (h : (pairs.map Prod.fst).Nodup) :
    pairs.lookup key = some value ↔ (key, value) ∈ pairs := by
  induction pairs with
  | nil => simp
  | cons p rest ih =>
    obtain ⟨first, old⟩ := p
    rw [List.map_cons, List.nodup_cons] at h
    rw [List.lookup_cons, List.mem_cons, Prod.mk.injEq]
    split
    next hsame =>
      obtain rfl := eq_of_beq hsame
      have hrest : (key, value) ∉ rest := fun hmem => h.1 (List.mem_map.2 ⟨_, hmem, rfl⟩)
      simp [hrest, eq_comm]
    next hother =>
      have hne : key ≠ first := ne_of_beq_false hother
      simp [hne, ih h.2]

end RiscvTables
