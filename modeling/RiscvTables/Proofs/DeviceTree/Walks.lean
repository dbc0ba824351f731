import RiscvTables.Proofs.DeviceTree.Preorder
import RiscvTables.Proofs.Loop

/-!
# Both walks end, and agree

The walks of a tree stop at a bound, the number of nodes.  Here they are the loops without it: a
stack that is popped until it is empty (`popStep`), the node after the last one until there is
none (`nextStep`), and the links from a node upwards until there is no parent (`climbStep`), which
is what the search for the next node goes through once a node has no children.

The payoff is `Reachable.isPreorder_nodeList`: all three loops end in every reachable tree, the
two walks give the same nodes, and that list is the pre-order of the tree (`IsPreorder`), which
says where the subtrees stand and mentions no loop.
-/

set_option autoImplicit false

namespace RiscvTables
namespace DeviceTree

/-! ## The loops -/

/-- A step of the walk with a stack: the topmost node makes room for its children. -/
def popStep (tree : DeviceTree) : List NodeId → Option (NodeId × List NodeId)
  | [] => none
  | id :: stack => some (id, tree.children id ++ stack)

/-- A step of the walk from node to node. -/
def nextStep (tree : DeviceTree) (prev : Option NodeId) : Option (NodeId × Option NodeId) :=
  (tree.nextNode? prev).map fun id => (id, some id)

/-- A step up, along the link from a node to its parent. -/
def climbStep (tree : DeviceTree) (id : NodeId) : Option ((NodeId × NodeId) × NodeId) :=
  (tree.parent? id).map fun parent => ((id, parent), parent)

/-- The links from a node up to the root, each a child and its parent. -/
def links (tree : DeviceTree) (id : NodeId) : List (NodeId × NodeId) :=
  unroll tree.climbStep tree.size id

variable {tree : DeviceTree}

theorem visit_eq_unroll (tree : DeviceTree) (steps : Nat) (stack : List NodeId) :
    tree.visit steps stack = unroll tree.popStep steps stack := by
  induction steps generalizing stack with
  | zero => rfl
  | succ steps ih =>
    cases stack with
    | nil => rfl
    | cons id stack => simp only [visit, unroll, popStep, ih]

theorem walk_eq_unroll (tree : DeviceTree) (steps : Nat) (prev : Option NodeId) :
    tree.walk steps prev = unroll tree.nextStep steps prev := by
  induction steps generalizing prev with
  | zero => rfl
  | succ steps ih =>
    rw [walk, unroll, nextStep]
    cases tree.nextNode? prev with
    | none => rfl
    | some id => simp only [Option.map_some, ih]

/-- The following sibling is looked for at one link after the other. -/
theorem climb?_eq_findSome? (tree : DeviceTree) (levels : Nat) (id : NodeId) :
    tree.climb? levels id = (unroll tree.climbStep levels id).findSome? fun link =>
      successor? link.1 (tree.children link.2) := by
  induction levels generalizing id with
  | zero => rfl
  | succ levels ih =>
    rw [climb?, unroll, climbStep]
    cases tree.parent? id with
    | none => rfl
    | some parent =>
      rw [Option.bind_some, Option.map_some, List.findSome?_cons, ih]
      cases successor? id (tree.children parent) <;> rfl

/-! ## Where the nodes stand -/

/-- The order in which each node stands right before the subtrees of its children. -/
structure IsPreorder (tree : DeviceTree) (ids : List NodeId) : Prop where
  head : ids.head? = some NodeId.root
  /-- Every node is there once, and nothing else. -/
  count : ∀ id, ids.count id = if id < tree.size then 1 else 0
  /-- A node is followed by the subtrees of its children, in the order of the children. -/
  subtree : ∀ id, id < tree.size → ∃ before after, ids =
    before ++ id :: (tree.children id).flatMap (tree.subtree tree.size) ++ after

namespace WellFormed

/-! ## All three end -/

theorem yields_preorder (h : tree.WellFormed) :
    Yields tree.popStep [NodeId.root] tree.preorder := by
  have hroot : ∀ id ∈ [NodeId.root], id < tree.size ∧ tree.size ≤ id + tree.size := by
    intro id hid
    rw [List.mem_singleton.1 hid]
    exact ⟨h.root_lt_size, Nat.le_add_left _ _⟩
  -- one step more than there are nodes
  have hvisit := h.visit_append hroot 1 []
  rw [List.flatMap_singleton, ← h.preorder_eq_subtree, List.append_nil, visit_nil, List.append_nil,
    visit_eq_unroll] at hvisit
  exact yields_of_unroll_eq hvisit (Nat.lt_succ_self _)

theorem yields_nodeList (h : tree.WellFormed) : Yields tree.nextStep none tree.nodeList := by
  have hwalk := h.walk_none_eq_take (tree.size + 1)
  rw [List.take_of_length_le (h.length_preorder ▸ Nat.le_succ _), walk_eq_unroll,
    ← h.nodeList_eq_preorder] at hwalk
  refine yields_of_unroll_eq hwalk ?_
  rw [h.nodeList_eq_preorder, h.length_preorder]
  exact Nat.lt_succ_self _

/-- Every link leads to a smaller number. -/
theorem length_unroll_climbStep_le (h : tree.WellFormed) (levels : Nat) (id : Nat) :
    (unroll tree.climbStep levels id).length ≤ id := by
  induction levels generalizing id with
  | zero => exact Nat.zero_le id
  | succ levels ih =>
    rw [unroll, climbStep]
    cases hparent : tree.parent? id with
    | none => exact Nat.zero_le id
    | some parent => exact Nat.lt_of_le_of_lt (ih parent) (h.parent_lt id parent hparent)

theorem length_links_lt (h : tree.WellFormed) (id : NodeId) :
    (tree.links id).length < tree.size := by
  by_cases hid : id < tree.size
  · exact Nat.lt_of_le_of_lt (h.length_unroll_climbStep_le tree.size id) hid
  · obtain ⟨levels, hlevels⟩ := Nat.exists_eq_add_one_of_ne_zero (Nat.ne_zero_of_lt h.root_lt_size)
    rw [links, hlevels, unroll, climbStep, parent?_eq_none (Nat.le_of_not_lt hid)]
    exact Nat.succ_pos levels

/-- **The way up ends, from every number of a node, also one that no node has.** -/
theorem yields_links (h : tree.WellFormed) (id : NodeId) :
    Yields tree.climbStep id (tree.links id) :=
  yields_of_unroll_eq rfl (h.length_links_lt id)

/-! ## And give the pre-order -/

theorem isPreorder_preorder (h : tree.WellFormed) : IsPreorder tree tree.preorder where
  head := by
    rw [h.preorder_eq_subtree, h.subtree_eq_cons h.root_lt_size (Nat.le_add_left _ _),
      List.head?_cons]
  count := by
    intro id
    rw [h.nodup_preorder.count]
    simp only [h.mem_preorder_iff]
  subtree := by
    intro id hid
    obtain ⟨before, after, hpreorder, -⟩ := h.exists_climb?_eq hid
    rw [h.subtree_eq_cons hid (Nat.le_add_left _ _)] at hpreorder
    exact ⟨before, after, hpreorder⟩

end WellFormed

/-- The next node is the first child, or else a sibling found on the way up. -/
theorem nextNode?_some (tree : DeviceTree) (id : NodeId) :
    tree.nextNode? (some id) = (tree.children id).head?.or
      ((tree.links id).findSome? fun link => successor? link.1 (tree.children link.2)) := by
  rw [nextNode?, climb?_eq_findSome?, links]

/-- **Both walks of a reachable tree end, agree and are complete.**  The walk from node to node and
the walk with a stack come to their ends, and so does every way up on which the next node is looked
for.  The two give one list, the pre-order, in which a subtree is its node and then the subtrees of
the children: all that is below the node. -/
theorem Reachable.isPreorder_nodeList {tree : DeviceTree} (h : tree.Reachable) :
    Yields tree.nextStep none tree.nodeList ∧
      Yields tree.popStep [NodeId.root] tree.preorder ∧
      (∀ id, Yields tree.climbStep id (tree.links id) ∧
        tree.nextNode? (some id) = (tree.children id).head?.or
          ((tree.links id).findSome? fun link => successor? link.1 (tree.children link.2))) ∧
      tree.nodeList = tree.preorder ∧ IsPreorder tree tree.nodeList ∧
      ∀ id, id < tree.size →
        tree.subtree tree.size id =
          id :: (tree.children id).flatMap (tree.subtree tree.size) ∧
        ∀ x, x ∈ tree.subtree tree.size id ↔ tree.Below x id := by
  have hwf := h.wellFormed
  refine ⟨hwf.yields_nodeList, hwf.yields_preorder, fun id => ?_, hwf.nodeList_eq_preorder, ?_,
    fun id hid => ?_⟩
  · exact ⟨hwf.yields_links id, tree.nextNode?_some id⟩
  · rw [hwf.nodeList_eq_preorder]
    exact hwf.isPreorder_preorder
  · have hlevels : tree.size ≤ id + tree.size := Nat.le_add_left _ _
    exact ⟨hwf.subtree_eq_cons hid hlevels, fun x => hwf.mem_subtree_iff hid hlevels⟩

/-- Two branches that grow by turns, so that no branch is in one piece in the arena. -/
def twoBranchEdits : List Edit :=
  [.addNode NodeId.root "cpus", .addNode NodeId.root "soc", .addNode 1 "cpu@0",
    .addNode 2 "plic@c000000", .addNode 1 "cpu@1", .addNode 2 "serial"]

/-- The last `cpu` is followed by the second branch, two levels up, and nothing follows the last
node of that branch. -/
theorem nodeList_twoBranchEdits :
    ∃ tree, ofEdits? twoBranchEdits = some tree ∧ tree.Reachable ∧
      tree.preorder = [0, 1, 3, 5, 2, 4, 6] ∧ tree.nextNode? (some 5) = some 2 ∧
      tree.nextNode? (some 6) = none ∧ Yields tree.climbStep 5 [(5, 1), (1, 0)] ∧
      Yields tree.nextStep none [0, 1, 3, 5, 2, 4, 6] ∧
      IsPreorder tree [0, 1, 3, 5, 2, 4, 6] := by
  have hmade : (ofEdits? twoBranchEdits).any fun tree =>
      decide (tree.preorder = [0, 1, 3, 5, 2, 4, 6]) &&
        decide (tree.nextNode? (some 5) = some 2) && decide (tree.nextNode? (some 6) = none) &&
          decide (tree.links 5 = [(5, 1), (1, 0)]) := by decide +kernel
  obtain ⟨tree, htree, hmade⟩ := (Option.any_eq_true _ _).1 hmade
  simp only [Bool.and_eq_true, decide_eq_true_eq] at hmade
  obtain ⟨⟨⟨hpreorder, hnext⟩, hlast⟩, hlinks⟩ := hmade
  have hreachable := reachable_of_ofEdits? htree
  obtain ⟨hends, -, hclimb, hagree, hisPreorder, -⟩ := hreachable.isPreorder_nodeList
  rw [hagree, hpreorder] at hends hisPreorder
  exact ⟨tree, htree, hreachable, hpreorder, hnext, hlast, hlinks ▸ (hclimb 5).1, hends,
    hisPreorder⟩

end DeviceTree
end RiscvTables
