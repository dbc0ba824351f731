import RiscvTables.Proofs.DeviceTree.Walks

/-!
# The nodes of a model, one after the other

A search for the next node of a model is a loop over the walk from node to node, which is itself a
loop over the links upwards; and to visit all nodes of a model is a loop over such searches
(`matchStep`).  None of them keeps a list, so that the last one does not miss a node at the end of
a subtree, and does not come by one twice, has to be said of all three.

The walk has been taken apart already: from every start it ends (`WellFormed.exists_yields`).  So a
search is a search of the list that is left to visit (`nextCompatible?_eq_find?`), and searching
on from what was found is filtering that list (`yields_filter`).
`Reachable.compatible_in_preorder` says it for the pre-order of a tree.
-/

set_option autoImplicit false

namespace RiscvTables
namespace DeviceTree

variable {tree : DeviceTree} {prev : Option NodeId} {ids : List NodeId}

/-! ## The walk from any node -/

theorem WellFormed.length_after_lt (h : tree.WellFormed) {id : NodeId}
    {before after : List NodeId} (hpreorder : tree.preorder = before ++ id :: after) :
    after.length < tree.size := by
  rw [← h.length_preorder, hpreorder, List.length_append, List.length_cons]
  omega

/-- Behind a node the walk visits what follows in pre-order. -/
theorem WellFormed.yields_after (h : tree.WellFormed) {id : NodeId} {before after : List NodeId}
    (hpreorder : tree.preorder = before ++ id :: after) :
    Yields tree.nextStep (some id) after := by
  have hlength := h.length_after_lt hpreorder
  have hwalk := h.walk_eq_take hpreorder tree.size
  rw [List.take_of_length_le (Nat.le_of_lt hlength), walk_eq_unroll] at hwalk
  exact yields_of_unroll_eq hwalk hlength

/-- A number that no node has is followed by nothing. -/
theorem yields_nil_of_size_le {id : Nat} (h : tree.size ≤ id) :
    Yields tree.nextStep (some id) [] := by
  have hnext : tree.nextNode? (some id) = none := by
    rw [nextNode?, children_eq_nil h, List.head?_nil, Option.none_or]
    cases tree.size with
    | zero => rfl
    | succ levels => rw [climb?, parent?_eq_none h, Option.bind_none]
  exact .done (by rw [nextStep, hnext, Option.map_none])

/-- **The walk ends, from wherever it starts.** -/
theorem WellFormed.exists_yields (h : tree.WellFormed) (prev : Option NodeId) :
    ∃ ids, Yields tree.nextStep prev ids ∧ ids.length ≤ tree.size := by
  cases prev with
  | none =>
    refine ⟨tree.nodeList, h.yields_nodeList, ?_⟩
    rw [h.nodeList_eq_preorder, h.length_preorder]
  | some id =>
    by_cases hid : id < tree.size
    · obtain ⟨before, after, hpreorder⟩ := List.append_of_mem (h.mem_preorder_iff.2 hid)
      exact ⟨after, h.yields_after hpreorder, Nat.le_of_lt (h.length_after_lt hpreorder)⟩
    · exact ⟨[], yields_nil_of_size_le (Nat.not_lt.1 hid), Nat.zero_le _⟩

/-! ## One search -/

theorem searchCompatible?_eq_find? (model : String) (steps : Nat) (prev : Option NodeId) :
    tree.searchCompatible? model steps prev =
      (tree.walk steps prev).find? (tree.isCompatible · model) := by
  induction steps generalizing prev with
  | zero => rfl
  | succ steps ih =>
    rw [searchCompatible?, walk]
    cases tree.nextNode? prev with
    | none => rfl
    | some id =>
      rw [Option.bind_some, List.find?_cons, ih]
      cases tree.isCompatible id model <;> rfl

/-- The next node of a model is the first among the nodes that are left to visit. -/
theorem nextCompatible?_eq_find? (h : Yields tree.nextStep prev ids)
    (hlength : ids.length ≤ tree.size) (model : String) :
    tree.nextCompatible? prev model = ids.find? (tree.isCompatible · model) := by
  rw [nextCompatible?, searchCompatible?_eq_find?, walk_eq_unroll, h.unroll_eq_take,
    List.take_of_length_le hlength]

theorem WellFormed.nextCompatible?_none (h : tree.WellFormed) (model : String) :
    tree.nextCompatible? none model = tree.preorder.find? (tree.isCompatible · model) := by
  rw [← h.nodeList_eq_preorder]
  refine nextCompatible?_eq_find? h.yields_nodeList ?_ model
  rw [h.nodeList_eq_preorder, h.length_preorder]

/-! ## One search after the other -/

/-- A step of the search for the nodes of a model: from one to the next. -/
def matchStep (tree : DeviceTree) (model : String) (prev : Option NodeId) :
    Option (NodeId × Option NodeId) :=
  (tree.nextCompatible? prev model).map fun id => (id, some id)

theorem yields_filter (h : Yields tree.nextStep prev ids) (hlength : ids.length ≤ tree.size)
    (model : String) :
    Yields (tree.matchStep model) prev (ids.filter (tree.isCompatible · model)) := by
  induction h with
  | done hend =>
    exact .done (by rw [matchStep, nextCompatible?_eq_find? (.done hend) hlength]; rfl)
  | more hmore hrest ih =>
    have hmatch := nextCompatible?_eq_find? (.more hmore hrest) hlength model
    obtain ⟨id, -, hnext⟩ := Option.map_eq_some_iff.1 hmore
    obtain ⟨rfl, rfl⟩ := Prod.mk.inj hnext
    have hshorter := Nat.le_of_succ_le hlength
    cases hid : tree.isCompatible id model with
    | true =>
      rw [List.find?_cons_of_pos (by exact hid)] at hmatch
      rw [List.filter_cons_of_pos (by exact hid)]
      exact .more (by rw [matchStep, hmatch, Option.map_some]) (ih hshorter)
    | false =>
      -- the search goes past the node, to what it finds from there
      rw [List.find?_cons_of_neg (by simp [hid]),
        ← nextCompatible?_eq_find? hrest hshorter] at hmatch
      rw [List.filter_cons_of_neg (by simp [hid])]
      exact (ih hshorter).of_step_eq (by rw [matchStep, matchStep, hmatch])

/-- **Going from one node of a model to the next visits just the nodes of the model, each once and
in pre-order.**  From any node on, a search leads to the first of them that stands behind the node
in pre-order, and so do all others that follow; there is none if none stands there.  Each search is
a loop that ends, also from a number that no node has. -/
theorem Reachable.compatible_in_preorder {tree : DeviceTree} (h : tree.Reachable)
    (model : String) :
    IsPreorder tree tree.preorder ∧
      Yields (tree.matchStep model) none (tree.preorder.filter (tree.isCompatible · model)) ∧
      (∀ id, (tree.preorder.filter (tree.isCompatible · model)).count id =
        if id < tree.size ∧ tree.isCompatible id model = true then 1 else 0) ∧
      (∀ id, id < tree.size → ∃ before after, tree.preorder = before ++ id :: after ∧
        tree.nextCompatible? (some id) model = after.find? (tree.isCompatible · model) ∧
        Yields (tree.matchStep model) (some id) (after.filter (tree.isCompatible · model))) ∧
      ∀ prev, ∃ passed, Finds tree.nextStep (tree.isCompatible · model) prev passed
        (tree.nextCompatible? prev model) := by
  have hwf := h.wellFormed
  refine ⟨hwf.isPreorder_preorder, ?_, fun id => ?_, fun id hid => ?_, fun prev => ?_⟩
  · rw [← hwf.nodeList_eq_preorder]
    refine yields_filter hwf.yields_nodeList ?_ model
    rw [hwf.nodeList_eq_preorder, hwf.length_preorder]
  · rw [(hwf.nodup_preorder.filter _).count]
    simp only [List.mem_filter, hwf.mem_preorder_iff]
  · obtain ⟨before, after, hpreorder⟩ := List.append_of_mem (hwf.mem_preorder_iff.2 hid)
    have hlength := Nat.le_of_lt (hwf.length_after_lt hpreorder)
    have hyields := hwf.yields_after hpreorder
    exact ⟨before, after, hpreorder, nextCompatible?_eq_find? hyields hlength model,
      yields_filter hyields hlength model⟩
  · obtain ⟨ids, hyields, hlength⟩ := hwf.exists_yields prev
    rw [nextCompatible?_eq_find? hyields hlength]
    exact hyields.finds _

/-- Two branches, with a node of the model at the end of the first and one inside the second. -/
def pairedModelEdits : List Edit :=
  twoBranchEdits ++
    [.setProperty 4 "compatible" (PropertyValue.ofStrings ["vendor,imsics", "riscv,imsics"]),
      .setProperty 5 "compatible" (PropertyValue.ofStrings ["riscv,imsics"]),
      .setProperty 6 "compatible" (PropertyValue.ofStrings ["riscv,aplic"])]

/-- From the one node the search goes two levels up and into the other branch, to a node with a
smaller number, and from there to no other. -/
theorem compatible_in_preorder_pairedModelEdits :
    ∃ tree, ofEdits? pairedModelEdits = some tree ∧ tree.Reachable ∧
      tree.preorder = [0, 1, 3, 5, 2, 4, 6] ∧
      Yields (tree.matchStep "riscv,imsics") none [5, 4] ∧
      tree.nextCompatible? (some 5) "riscv,imsics" = some 4 ∧
      ∃ passed, Finds tree.nextStep (tree.isCompatible · "riscv,imsics") (some 4) passed none := by
  have hmade : (ofEdits? pairedModelEdits).any fun tree =>
      decide (tree.preorder = [0, 1, 3, 5, 2, 4, 6]) &&
        decide (tree.preorder.filter (tree.isCompatible · "riscv,imsics") = [5, 4]) &&
          decide (tree.nextCompatible? (some 5) "riscv,imsics" = some 4) &&
            decide (tree.nextCompatible? (some 4) "riscv,imsics" = none) := by decide +kernel
  obtain ⟨tree, htree, hmade⟩ := (Option.any_eq_true _ _).1 hmade
  simp only [Bool.and_eq_true, decide_eq_true_eq] at hmade
  obtain ⟨⟨⟨hpreorder, hmatching⟩, hnext⟩, hlast⟩ := hmade
  have hreachable := reachable_of_ofEdits? htree
  obtain ⟨-, hvisits, -, -, hfinds⟩ := hreachable.compatible_in_preorder "riscv,imsics"
  rw [hmatching] at hvisits
  obtain ⟨passed, hpassed⟩ := hfinds (some 4)
  rw [hlast] at hpassed
  exact ⟨tree, htree, hreachable, hpreorder, hvisits, hnext, passed, hpassed⟩

end DeviceTree
end RiscvTables
