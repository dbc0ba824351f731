import Mathlib.Data.List.Nodup
import Mathlib.Data.List.Perm.Subperm
import Mathlib.Logic.Relation
import RiscvTables.DeviceTree.Walk
import RiscvTables.Proofs.DeviceTree.WellFormed

/-!
# Pre-order

The walks of a tree are loops with a stack or without any memory.  `subtree` is the same order by
recursion over the generations, and it is what everything is proved about: the two walks visit
exactly `subtree` of the root (`preorder_eq_subtree`, `nodeList_eq_preorder`).

A recursion over generations needs a bound.  Children have larger numbers than their parent, so
`size - id` generations hold all of the subtree of `id`, and more make no difference
(`subtree_eq_of_le`).
-/

set_option autoImplicit false

namespace RiscvTables
namespace DeviceTree

/-- A node and `levels - 1` generations below it, each node before its children's subtrees. -/
def subtree (tree : DeviceTree) : Nat → NodeId → List NodeId
  | 0, _ => []
  | levels + 1, id => id :: (tree.children id).flatMap (subtree tree levels)

/-- A node is below its parent, and below whatever its parent is below. -/
def Below (tree : DeviceTree) : NodeId → NodeId → Prop :=
  Relation.ReflTransGen fun child parent => tree.parent? child = some parent

namespace WellFormed

variable {tree : DeviceTree}

/-! ## Below a node -/

theorem le_of_below (h : tree.WellFormed) {x id : Nat} (hbelow : tree.Below x id) : id ≤ x := by
  induction hbelow with
  | refl => exact Nat.le_refl x
  | tail _ hparent ih => exact Nat.le_trans (Nat.le_of_lt (h.parent_lt _ _ hparent)) ih

theorem below_root (h : tree.WellFormed) {id : Nat} (hid : id < tree.size) :
    tree.Below id NodeId.root := by
  induction id using Nat.strongRecOn with
  | _ id ih =>
    by_cases hroot : id = NodeId.root
    · exact hroot ▸ Relation.ReflTransGen.refl
    · obtain ⟨parent, hparent⟩ := h.exists_parent id hid hroot
      exact Relation.ReflTransGen.head hparent
        (ih parent (h.parent_lt id parent hparent) (h.parent_lt_size hparent))

/-- What is below two children of one node would make one of them the parent of the other. -/
theorem child_eq_of_below (h : tree.WellFormed) {x id first second : NodeId}
    (hfirst : first ∈ tree.children id) (hsecond : second ∈ tree.children id)
    (hbelow : tree.Below x first) (hbelow' : tree.Below x second) : first = second := by
  have hunique : Relator.RightUnique fun child parent => tree.parent? child = some parent :=
    fun child first second hfirst hsecond => Option.some.inj (hfirst.symm.trans hsecond)
  have hnot : ∀ first second : NodeId, first ∈ tree.children id → second ∈ tree.children id →
      tree.Below first second → first = second := by
    intro first second hfirst hsecond hbelow
    rcases Relation.ReflTransGen.cases_head hbelow with heq | ⟨parent, hparent, hrest⟩
    · exact heq
    · rw [(h.mem_children_iff id first).1 hfirst] at hparent
      obtain rfl := Option.some.inj hparent
      exact absurd (h.le_of_below hrest) (Nat.not_le.2 (h.lt_of_mem_children hsecond))
  rcases Relation.ReflTransGen.total_of_right_unique hunique hbelow hbelow' with hone | htwo
  · exact hnot first second hfirst hsecond hone
  · exact (hnot second first hsecond hfirst htwo).symm

/-! ## Subtrees -/

theorem below_of_mem_subtree (h : tree.WellFormed) {levels : Nat} {x id : NodeId}
    (hx : x ∈ tree.subtree levels id) : tree.Below x id := by
  induction levels generalizing id with
  | zero => cases hx
  | succ levels ih =>
    rw [subtree, List.mem_cons, List.mem_flatMap] at hx
    rcases hx with rfl | ⟨child, hchild, hx⟩
    · exact Relation.ReflTransGen.refl
    · exact Relation.ReflTransGen.tail (ih hx) ((h.mem_children_iff id child).1 hchild)

/-- No node stands twice in a subtree. -/
theorem nodup_subtree (h : tree.WellFormed) (levels : Nat) (id : NodeId) :
    (tree.subtree levels id).Nodup := by
  induction levels generalizing id with
  | zero => exact List.nodup_nil
  | succ levels ih =>
    rw [subtree, List.nodup_cons, List.nodup_flatMap]
    refine ⟨?_, fun child _ => ih child, ?_⟩
    · intro hmem
      obtain ⟨child, hchild, hmem⟩ := List.mem_flatMap.1 hmem
      exact absurd (h.le_of_below (h.below_of_mem_subtree hmem))
        (Nat.not_le.2 (h.lt_of_mem_children hchild))
    · refine (h.nodup_children id).pairwise_of_forall_ne ?_
      intro first hfirst second hsecond hne x hx hx'
      exact hne (h.child_eq_of_below hfirst hsecond (h.below_of_mem_subtree hx)
        (h.below_of_mem_subtree hx'))

/-- The generations that are left below a child. -/
theorem size_le_add_of_mem_children (h : tree.WellFormed) {levels id child : Nat}
    (hlevels : tree.size ≤ id + (levels + 1)) (hchild : child ∈ tree.children id) :
    tree.size ≤ child + levels := by
  have := h.lt_of_mem_children hchild
  omega

/-- **A subtree holds what is below its node**, once it has enough generations. -/
theorem mem_subtree_iff (h : tree.WellFormed) {levels x id : Nat} (hid : id < tree.size)
    (hlevels : tree.size ≤ id + levels) : x ∈ tree.subtree levels id ↔ tree.Below x id := by
  refine ⟨h.below_of_mem_subtree, fun hbelow => ?_⟩
  induction levels generalizing id with
  | zero => exact absurd hid (Nat.not_lt.2 hlevels)
  | succ levels ih =>
    rw [subtree, List.mem_cons, List.mem_flatMap]
    rcases Relation.ReflTransGen.cases_tail hbelow with heq | ⟨child, hbelow, hparent⟩
    · exact Or.inl heq.symm
    · have hchild := (h.mem_children_iff id child).2 hparent
      exact Or.inr ⟨child, hchild, ih (h.lt_size_of_mem_children hchild)
        (h.size_le_add_of_mem_children hlevels hchild) hbelow⟩

/-- More generations than there are make no difference. -/
theorem subtree_eq_of_le (h : tree.WellFormed) {levels more id : Nat} (hid : id < tree.size)
    (hlevels : tree.size ≤ id + levels) (hmore : tree.size ≤ id + more) :
    tree.subtree levels id = tree.subtree more id := by
  induction levels generalizing id more with
  | zero => exact absurd hid (Nat.not_lt.2 hlevels)
  | succ levels ih =>
    cases more with
    | zero => exact absurd hid (Nat.not_lt.2 hmore)
    | succ more =>
      have hchildren : ∀ child ∈ tree.children id,
          tree.subtree levels child = tree.subtree more child := fun child hchild =>
        ih (h.lt_size_of_mem_children hchild) (h.size_le_add_of_mem_children hlevels hchild)
          (h.size_le_add_of_mem_children hmore hchild)
      rw [subtree, subtree, List.flatMap_congr hchildren]

/-- With enough generations a subtree is its node and the subtrees of the children, with as many
generations. -/
theorem subtree_eq_cons (h : tree.WellFormed) {levels id : Nat} (hid : id < tree.size)
    (hlevels : tree.size ≤ id + levels) :
    tree.subtree levels id = id :: (tree.children id).flatMap (tree.subtree levels) := by
  have hmore : tree.size ≤ id + (levels + 1) := Nat.le_succ_of_le hlevels
  rw [h.subtree_eq_of_le hid hlevels hmore, subtree]

/-! ## The walk with a stack -/

/-- The stack is used up subtree by subtree. -/
theorem visit_append (h : tree.WellFormed) {levels : Nat} {ids : List NodeId}
    (hids : ∀ id ∈ ids, id < tree.size ∧ tree.size ≤ id + levels) (steps : Nat)
    (stack : List NodeId) :
    tree.visit ((ids.flatMap (tree.subtree levels)).length + steps) (ids ++ stack) =
      ids.flatMap (tree.subtree levels) ++ tree.visit steps stack := by
  induction levels generalizing ids steps stack with
  | zero =>
    cases ids with
    | nil => simp
    | cons id rest =>
      obtain ⟨hid, hlevels⟩ := hids id List.mem_cons_self
      exact absurd hid (Nat.not_lt.2 hlevels)
  | succ levels ih =>
    induction ids generalizing steps with
    | nil => simp
    | cons id rest ihrest =>
      obtain ⟨hid, hlevels⟩ := hids id List.mem_cons_self
      have hchildren := ih (fun child hchild => ⟨h.lt_size_of_mem_children hchild,
        h.size_le_add_of_mem_children hlevels hchild⟩)
        ((rest.flatMap (tree.subtree (levels + 1))).length + steps) (rest ++ stack)
      have hrest := ihrest (fun other hother => hids other (List.mem_cons_of_mem id hother)) steps
      rw [List.flatMap_cons, subtree, List.length_append, List.length_cons, List.cons_append,
        Nat.add_right_comm _ 1, Nat.add_right_comm _ 1, visit, Nat.add_assoc, hchildren, hrest]
      simp only [List.cons_append, List.append_assoc]

/-- A subtree has no more nodes than the tree. -/
theorem length_subtree_le (h : tree.WellFormed) (levels : Nat) {id : NodeId}
    (hid : id < tree.size) : (tree.subtree levels id).length ≤ tree.size := by
  have hsubset : tree.subtree levels id ⊆ List.range tree.size := by
    intro x hx
    rw [List.mem_range]
    rcases Relation.ReflTransGen.cases_head (h.below_of_mem_subtree hx) with rfl | ⟨_, hparent, _⟩
    · exact hid
    · exact lt_size_of_parent? hparent
  simpa using (List.subperm_of_subset (h.nodup_subtree levels id) hsubset).length_le

theorem visit_nil (steps : Nat) : tree.visit steps [] = [] := by
  cases steps <;> rfl

/-- **The walk with a stack visits the subtree of the root.** -/
theorem preorder_eq_subtree (h : tree.WellFormed) :
    tree.preorder = tree.subtree tree.size NodeId.root := by
  have hroot : ∀ id ∈ [NodeId.root], id < tree.size ∧ tree.size ≤ id + tree.size := by
    intro id hid
    rw [List.mem_singleton.1 hid]
    exact ⟨h.root_lt_size, Nat.le_add_left _ _⟩
  obtain ⟨steps, hsteps⟩ :=
    Nat.exists_eq_add_of_le (h.length_subtree_le tree.size h.root_lt_size)
  have hvisit := h.visit_append hroot steps []
  rwa [List.flatMap_singleton, List.append_nil, ← hsteps, visit_nil, List.append_nil] at hvisit

theorem mem_preorder_iff (h : tree.WellFormed) {id : Nat} :
    id ∈ tree.preorder ↔ id < tree.size := by
  rw [h.preorder_eq_subtree, h.mem_subtree_iff h.root_lt_size (Nat.le_add_left _ _)]
  refine ⟨fun hbelow => ?_, h.below_root⟩
  rcases Relation.ReflTransGen.cases_head hbelow with rfl | ⟨_, hparent, _⟩
  · exact h.root_lt_size
  · exact lt_size_of_parent? hparent

theorem nodup_preorder (h : tree.WellFormed) : tree.preorder.Nodup :=
  h.preorder_eq_subtree ▸ h.nodup_subtree _ _

/-- The walk visits every node once. -/
theorem perm_preorder (h : tree.WellFormed) : tree.preorder.Perm (List.range tree.size) := by
  rw [List.perm_ext_iff_of_nodup h.nodup_preorder List.nodup_range]
  intro id
  rw [h.mem_preorder_iff, List.mem_range]

theorem length_preorder (h : tree.WellFormed) : tree.preorder.length = tree.size := by
  rw [h.perm_preorder.length_eq, List.length_range]

/-- A node stands once in pre-order: not before itself and not after. -/
theorem notMem_of_preorder_eq (h : tree.WellFormed) {id : NodeId} {before after : List NodeId}
    (hpreorder : tree.preorder = before ++ id :: after) : id ∉ before ∧ id ∉ after := by
  have hnodup := h.nodup_preorder
  rw [hpreorder, List.nodup_middle, List.nodup_cons, List.mem_append, not_or] at hnodup
  exact hnodup.1

/-- There is one way to cut the pre-order at a node. -/
theorem preorder_inj (h : tree.WellFormed) {id : NodeId} {before before' after after' : List NodeId}
    (hpreorder : tree.preorder = before ++ id :: after)
    (hpreorder' : tree.preorder = before' ++ id :: after') : before = before' ∧ after = after' := by
  obtain ⟨hbefore, hafter⟩ := h.notMem_of_preorder_eq hpreorder
  have hinj := (List.append_cons_inj_of_notMem hbefore hafter).1
    (hpreorder.symm.trans hpreorder')
  exact ⟨hinj.1, hinj.2.2⟩

/-! ## The walk from node to node -/

theorem successor?_append {id : NodeId} {before : List NodeId} (after : List NodeId)
    (h : id ∉ before) : successor? id (before ++ id :: after) = after.head? := by
  induction before with
  | nil => rw [List.nil_append, successor?, if_pos rfl]
  | cons first rest ih =>
    rw [List.mem_cons, not_or] at h
    rw [List.cons_append, successor?, if_neg (Ne.symm h.1), ih h.2]

/-- A subtree starts with its node. -/
theorem head?_flatMap_subtree (levels : Nat) (ids : List NodeId) (rest : List NodeId) :
    (ids.flatMap (tree.subtree (levels + 1)) ++ rest).head? = ids.head?.or rest.head? := by
  cases ids <;> rfl

/-- **Climbing out of a node leads to what follows its subtree.** -/
theorem exists_climb?_eq (h : tree.WellFormed) {id : Nat} (hid : id < tree.size) :
    ∃ before after, tree.preorder = before ++ tree.subtree tree.size id ++ after ∧
      ∀ levels : Nat, id < levels → tree.climb? levels id = after.head? := by
  induction id using Nat.strongRecOn with
  | _ id ih =>
    by_cases hroot : id = NodeId.root
    · refine ⟨[], [], ?_, fun levels hlevels => ?_⟩
      · rw [hroot, h.preorder_eq_subtree, List.nil_append, List.append_nil]
      · obtain ⟨levels, rfl⟩ := Nat.exists_eq_add_one_of_ne_zero (Nat.ne_zero_of_lt hlevels)
        rw [hroot, climb?, h.root_parent]
        rfl
    · obtain ⟨parent, hparent⟩ := h.exists_parent id hid hroot
      have hlt : (parent : Nat) < id := h.parent_lt id parent hparent
      obtain ⟨before, after, hpreorder, hclimb⟩ := ih parent hlt (h.parent_lt_size hparent)
      have hchild := (h.mem_children_iff parent id).2 hparent
      obtain ⟨older, younger, hchildren⟩ := List.append_of_mem hchild
      have hnot : id ∉ older := by
        have := h.nodup_children parent
        rw [hchildren, List.nodup_append] at this
        exact fun hmem => this.2.2 id hmem id List.mem_cons_self rfl
      have hsubtree : tree.subtree tree.size parent =
          parent :: older.flatMap (tree.subtree tree.size) ++ tree.subtree tree.size id ++
            younger.flatMap (tree.subtree tree.size) := by
        rw [h.subtree_eq_cons (h.parent_lt_size hparent) (Nat.le_add_left _ _), hchildren]
        simp
      refine ⟨before ++ parent :: older.flatMap (tree.subtree tree.size),
        younger.flatMap (tree.subtree tree.size) ++ after, ?_, fun levels hlevels => ?_⟩
      · rw [hpreorder, hsubtree]
        simp only [List.append_assoc, List.cons_append]
      · obtain ⟨levels, rfl⟩ := Nat.exists_eq_add_one_of_ne_zero (Nat.ne_zero_of_lt hlevels)
        obtain ⟨generations, hgenerations⟩ :=
          Nat.exists_eq_add_one_of_ne_zero (Nat.ne_zero_of_lt h.root_lt_size)
        rw [climb?, hparent, Option.bind_some, hchildren, successor?_append younger hnot,
          hclimb levels (Nat.lt_of_lt_of_le hlt (Nat.le_of_lt_succ hlevels)), hgenerations,
          head?_flatMap_subtree]

/-- The node after a node is the one that follows it in pre-order. -/
theorem nextNode?_eq (h : tree.WellFormed) {id : Nat} {before after : List NodeId}
    (hpreorder : tree.preorder = before ++ id :: after) :
    tree.nextNode? (some id) = after.head? := by
  have hid : id < tree.size := by
    rw [← h.mem_preorder_iff, hpreorder]
    exact List.mem_append_right _ List.mem_cons_self
  obtain ⟨front, back, hsplit, hclimb⟩ := h.exists_climb?_eq hid
  rw [h.subtree_eq_cons hid (Nat.le_add_left _ _), List.append_assoc, List.cons_append] at hsplit
  obtain ⟨-, rfl⟩ := h.preorder_inj hpreorder hsplit
  obtain ⟨generations, hgenerations⟩ :=
    Nat.exists_eq_add_one_of_ne_zero (Nat.ne_zero_of_lt h.root_lt_size)
  rw [nextNode?, hclimb tree.size hid, hgenerations, head?_flatMap_subtree]

theorem walk_eq_take (h : tree.WellFormed) {before after : List NodeId} {id : NodeId}
    (hpreorder : tree.preorder = before ++ id :: after) (steps : Nat) :
    tree.walk steps (some id) = after.take steps := by
  induction steps generalizing before after id with
  | zero => rfl
  | succ steps ih =>
    rw [walk, h.nextNode?_eq hpreorder]
    cases after with
    | nil => rfl
    | cons next rest =>
      have hnext : tree.preorder = (before ++ [id]) ++ next :: rest := by
        rw [hpreorder, List.append_assoc, List.singleton_append]
      simp only [List.head?_cons, ih hnext, List.take_succ_cons]

theorem walk_none_eq_take (h : tree.WellFormed) (steps : Nat) :
    tree.walk steps none = tree.preorder.take steps := by
  have hcons : tree.preorder =
      [] ++ NodeId.root :: (tree.children NodeId.root).flatMap (tree.subtree tree.size) :=
    h.preorder_eq_subtree.trans (h.subtree_eq_cons h.root_lt_size (Nat.le_add_left _ _))
  cases steps with
  | zero => rfl
  | succ steps =>
    rw [walk, nextNode?, hcons, List.nil_append, List.take_succ_cons]
    exact congrArg (List.cons NodeId.root) (h.walk_eq_take hcons steps)

/-- **Both walks visit the same nodes in the same order.** -/
theorem nodeList_eq_preorder (h : tree.WellFormed) : tree.nodeList = tree.preorder := by
  rw [nodeList, h.walk_none_eq_take, List.take_of_length_le (Nat.le_of_eq h.length_preorder)]

/-! ## What stands where -/

/-- A node and its younger siblings stand behind their parent, subtree by subtree. -/
theorem exists_append_siblings (h : tree.WellFormed) {parent id : NodeId}
    {older younger : List NodeId} (hchildren : tree.children parent = older ++ id :: younger) :
    ∃ before between after, tree.preorder = before ++ parent :: between ++ id :: after ∧
      younger ⊆ after := by
  have hchild : ∀ child ∈ id :: younger, child ∈ tree.children parent := fun child hmem =>
    hchildren ▸ List.mem_append_right older hmem
  have hid := h.lt_size_of_mem_children (hchild id List.mem_cons_self)
  have hparent : parent < tree.size :=
    Nat.lt_trans (h.lt_of_mem_children (hchild id List.mem_cons_self)) hid
  obtain ⟨before, after, hpreorder, -⟩ := h.exists_climb?_eq hparent
  rw [h.subtree_eq_cons hparent (Nat.le_add_left _ _), hchildren, List.flatMap_append,
    List.flatMap_cons, h.subtree_eq_cons hid (Nat.le_add_left _ _)] at hpreorder
  refine ⟨before, older.flatMap (tree.subtree tree.size),
    (tree.children id).flatMap (tree.subtree tree.size) ++
      (younger.flatMap (tree.subtree tree.size) ++ after), ?_, ?_⟩
  · rw [hpreorder]
    simp only [List.append_assoc, List.cons_append]
  · intro child hmem
    have hself : child ∈ tree.subtree tree.size child :=
      (h.mem_subtree_iff (h.lt_size_of_mem_children (hchild child (List.mem_cons_of_mem id hmem)))
        (Nat.le_add_left _ _)).2 Relation.ReflTransGen.refl
    exact List.mem_append_right _
      (List.mem_append_left _ (List.mem_flatMap.2 ⟨child, hmem, hself⟩))

/-- A parent stands before its children. -/
theorem mem_before_of_parent? (h : tree.WellFormed) {parent id : NodeId}
    {before after : List NodeId}
    (hpreorder : tree.preorder = before ++ id :: after) (hparent : tree.parent? id = some parent) :
    parent ∈ before := by
  obtain ⟨older, younger, hchildren⟩ :=
    List.append_of_mem ((h.mem_children_iff parent id).2 hparent)
  obtain ⟨front, between, back, hsplit, -⟩ := h.exists_append_siblings hchildren
  obtain ⟨rfl, -⟩ := h.preorder_inj hpreorder hsplit
  exact List.mem_append_right _ List.mem_cons_self

/-- A node stands before its younger siblings. -/
theorem notMem_before_of_younger (h : tree.WellFormed) {parent id : NodeId}
    {before after older younger : List NodeId} (hpreorder : tree.preorder = before ++ id :: after)
    (hchildren : tree.children parent = older ++ id :: younger) :
    ∀ child ∈ younger, child ∉ before := by
  obtain ⟨front, between, back, hsplit, hyounger⟩ := h.exists_append_siblings hchildren
  obtain ⟨rfl, rfl⟩ := h.preorder_inj hpreorder hsplit
  intro child hchild hmem
  have hnodup := h.nodup_preorder
  rw [hpreorder, List.nodup_append] at hnodup
  exact hnodup.2.2 child hmem child (List.mem_cons_of_mem id (hyounger hchild)) rfl

/-- A node stands before its children. -/
theorem notMem_before_of_mem_children (h : tree.WellFormed) {id child : NodeId}
    {before after : List NodeId} (hpreorder : tree.preorder = before ++ id :: after)
    (hchild : child ∈ tree.children id) : child ∉ before := by
  intro hmem
  obtain ⟨front, back, rfl⟩ := List.append_of_mem hmem
  have hsplit : tree.preorder = front ++ child :: (back ++ id :: after) := by
    rw [hpreorder, List.append_assoc, List.cons_append]
  have hfront := h.mem_before_of_parent? hsplit ((h.mem_children_iff id child).1 hchild)
  exact (h.notMem_of_preorder_eq hpreorder).1 (List.mem_append_left _ hfront)

end WellFormed
end DeviceTree
end RiscvTables
