import RiscvTables.Proofs.DeviceTree.Preorder

/-!
# Trees from blobs are in pre-order

A blob lists nodes in pre-order, and a new node goes to the end of the tree, so in a tree that was
read from a blob the number of a node is its place in pre-order (`preorder_of_ofBlob`).

What carries this is where a builder adds nodes.  Each open node is the last child of the one
around it, so a child of the innermost one is the last node of the whole walk
(`WellFormed.preorder_appendChild`).
-/

set_option autoImplicit false

namespace RiscvTables
namespace DeviceTree

variable {tree : DeviceTree}

/-! ## Last children -/

/-- A node is the last child of another. -/
def LastChild (tree : DeviceTree) (child parent : NodeId) : Prop :=
  (tree.children parent).getLast? = some child

/-- Open nodes, from the innermost outwards: each is the last child of the next, and the outermost
is the root. -/
def Spine (tree : DeviceTree) : List NodeId → Prop
  | [] => True
  | [id] => id = NodeId.root
  | inner :: outer :: rest => tree.LastChild inner outer ∧ Spine tree (outer :: rest)

theorem Spine.tail {inner : NodeId} {outer : List NodeId} (h : tree.Spine (inner :: outer)) :
    tree.Spine outer := by
  cases outer with
  | nil => trivial
  | cons next rest => exact h.2

theorem Spine.of_children_eq {tree' : DeviceTree} {ids : List NodeId} (h : tree.Spine ids)
    (hchildren : ∀ id ∈ ids.tail, tree'.children id = tree.children id) : tree'.Spine ids := by
  induction ids with
  | nil => trivial
  | cons inner outer ih =>
    cases outer with
    | nil => exact h
    | cons next rest =>
      refine ⟨?_, ih h.2 fun id hid => hchildren id (List.mem_cons_of_mem next hid)⟩
      rw [LastChild, hchildren next List.mem_cons_self]
      exact h.1

theorem Spine.reflTransGen {id : NodeId} {outer : List NodeId} (h : tree.Spine (id :: outer)) :
    Relation.ReflTransGen tree.LastChild id NodeId.root := by
  induction outer generalizing id with
  | nil => exact h ▸ Relation.ReflTransGen.refl
  | cons next rest ih => exact Relation.ReflTransGen.head h.1 (ih h.2)

/-- The subtrees depend on the children only. -/
theorem subtree_congr {tree' : DeviceTree} (h : ∀ id, tree'.children id = tree.children id)
    (levels : Nat) (id : NodeId) : tree'.subtree levels id = tree.subtree levels id := by
  induction levels generalizing id with
  | zero => rfl
  | succ levels ih => rw [subtree, subtree, h, List.flatMap_congr fun child _ => ih child]

namespace WellFormed

theorem lt_of_lastChild (h : tree.WellFormed) {child parent : Nat}
    (hlast : tree.LastChild child parent) : parent < child :=
  h.lt_of_mem_children (List.mem_of_getLast? hlast)

/-- The outer open nodes come before the innermost. -/
theorem lt_of_mem_spine (h : tree.WellFormed) {inner id : Nat} {outer : List NodeId}
    (hspine : tree.Spine (inner :: outer)) (hid : id ∈ outer) : id < inner := by
  induction outer generalizing inner with
  | nil => cases hid
  | cons next rest ih =>
    have hlt := h.lt_of_lastChild hspine.1
    rcases List.mem_cons.1 hid with rfl | hid
    · exact hlt
    · exact Nat.lt_trans (ih hspine.2 hid) hlt

/-! ## A new child at the end -/

/-- A subtree without the parent does not see the new child. -/
theorem subtree_appendChild_of_notMem {parent : Nat} {name : String}
    (hparent : parent < tree.size) {levels : Nat} {id : NodeId}
    (hnot : parent ∉ tree.subtree levels id) :
    (tree.appendChild parent name).subtree levels id = tree.subtree levels id := by
  induction levels generalizing id with
  | zero => rfl
  | succ levels ih =>
    rw [subtree, List.mem_cons, not_or, List.mem_flatMap] at hnot
    have hchildren : ∀ child ∈ tree.children id,
        (tree.appendChild parent name).subtree levels child = tree.subtree levels child :=
      fun child hchild => ih fun hmem => hnot.2 ⟨child, hchild, hmem⟩
    rw [subtree, subtree, children_appendChild hparent, if_neg (Ne.symm hnot.1),
      List.flatMap_congr hchildren]

/-- **Seen from any open node, the new child comes last.** -/
theorem subtree_appendChild_of_lastChild (h : tree.WellFormed) {parent id : Nat} {name : String}
    (hparent : parent < tree.size) (hspine : Relation.ReflTransGen tree.LastChild parent id) :
    tree.Below parent id ∧ ∀ levels, tree.size < id + levels →
      (tree.appendChild parent name).subtree levels id =
        tree.subtree levels id ++ [tree.size] := by
  induction hspine with
  | refl =>
    refine ⟨Relation.ReflTransGen.refl, fun levels hlevels => ?_⟩
    obtain ⟨levels, rfl⟩ := Nat.exists_eq_add_one_of_ne_zero (show levels ≠ 0 by omega)
    have hold : ∀ child ∈ tree.children parent,
        (tree.appendChild parent name).subtree levels child = tree.subtree levels child := by
      intro child hchild
      refine subtree_appendChild_of_notMem hparent fun hmem => ?_
      exact absurd (h.le_of_below (h.below_of_mem_subtree hmem))
        (Nat.not_le.2 (h.lt_of_mem_children hchild))
    have hnew : (tree.appendChild parent name).subtree levels tree.size = [tree.size] := by
      obtain ⟨levels, rfl⟩ := Nat.exists_eq_add_one_of_ne_zero (show levels ≠ 0 by omega)
      rw [subtree, children_appendChild hparent, if_neg (Nat.ne_of_gt hparent),
        children_eq_nil (Nat.le_refl _), List.flatMap_nil]
    rw [subtree, subtree, children_appendChild hparent, if_pos rfl, List.flatMap_append,
      List.flatMap_congr hold, List.flatMap_singleton, hnew, List.cons_append]
  | tail _ hlast ih =>
    rename_i child id _
    obtain ⟨hbelow, hsubtree⟩ := ih
    obtain ⟨older, hchildren⟩ := List.getLast?_eq_some_iff.1 hlast
    have hchild : child ∈ tree.children id := hchildren ▸ List.mem_append_right _ List.mem_cons_self
    refine ⟨Relation.ReflTransGen.tail hbelow ((h.mem_children_iff id child).1 hchild),
      fun levels hlevels => ?_⟩
    have hlt : (id : Nat) < child := h.lt_of_mem_children hchild
    have hpositive : levels ≠ 0 := by
      rintro rfl
      have hle : id < tree.size := Nat.lt_trans hlt (h.lt_size_of_mem_children hchild)
      exact Nat.lt_asymm hle hlevels
    obtain ⟨levels, rfl⟩ := Nat.exists_eq_add_one_of_ne_zero hpositive
    have hne : id ≠ parent := Nat.ne_of_lt (Nat.lt_of_lt_of_le hlt (h.le_of_below hbelow))
    have hchildlevels : tree.size < child + levels := by
      rw [← Nat.add_assoc, Nat.add_right_comm] at hlevels
      exact Nat.lt_of_lt_of_le hlevels (Nat.add_le_add_right hlt levels)
    have hnotolder : child ∉ older := by
      have hnodup := h.nodup_children id
      rw [hchildren, List.nodup_append] at hnodup
      exact fun hmem => hnodup.2.2 child hmem child List.mem_cons_self rfl
    have hold : ∀ other ∈ older,
        (tree.appendChild parent name).subtree levels other = tree.subtree levels other := by
      intro other hother
      refine subtree_appendChild_of_notMem hparent fun hmem => hnotolder ?_
      have hmem' : other ∈ tree.children id := hchildren ▸ List.mem_append_left _ hother
      exact h.child_eq_of_below hmem' hchild (h.below_of_mem_subtree hmem) hbelow ▸ hother
    rw [subtree, subtree, children_appendChild hparent, if_neg hne, hchildren,
      List.flatMap_append, List.flatMap_append, List.flatMap_congr hold, List.flatMap_singleton,
      List.flatMap_singleton, hsubtree levels hchildlevels, List.cons_append, List.append_assoc]

/-- A child of the innermost open node is the last node of the walk. -/
theorem preorder_appendChild (h : tree.WellFormed) {parent : Nat} {name : String}
    (hwf : (tree.appendChild parent name).WellFormed) (hparent : parent < tree.size)
    (hspine : Relation.ReflTransGen tree.LastChild parent NodeId.root) :
    (tree.appendChild parent name).preorder = tree.preorder ++ [tree.size] := by
  have hmore : tree.size < NodeId.root + (tree.size + 1) := by
    show tree.size < 0 + (tree.size + 1)
    omega
  rw [hwf.preorder_eq_subtree, size_appendChild,
    (h.subtree_appendChild_of_lastChild hparent hspine).2 _ hmore, h.preorder_eq_subtree,
    h.subtree_eq_of_le h.root_lt_size (Nat.le_of_lt hmore) (Nat.le_add_left _ _)]

end WellFormed

/-! ## Builders -/

/-- A builder whose tree is in pre-order, and whose open nodes are where nodes can be added. -/
structure InOrder (builder : Blob.Builder) : Prop where
  wellFormed : builder.tree.WellFormed
  preorder : builder.tree.preorder = List.range builder.tree.size
  spine : builder.tree.Spine builder.openNodes

namespace InOrder

variable {builder builder' : Blob.Builder}

theorem start (cpu : UInt32) : InOrder (Blob.Builder.start cpu) where
  wellFormed := WellFormed.keptByEdits.setBootCpu cpu WellFormed.empty
  preorder := rfl
  spine := trivial

/-- **Every token keeps a tree in pre-order.** -/
theorem accept (h : InOrder builder) {token : Token}
    (haccept : builder.accept token = .ok builder') : InOrder builder' := by
  have hwf := WellFormed.keptByEdits.of_accept h.wellFormed haccept
  rcases Blob.Builder.accept_cases haccept with ⟨_, _, _, _, rfl⟩ |
    ⟨name, parent, outer, tree, id, _, hopen, hedit, rfl⟩ | ⟨inner, outer, _, hopen, rfl⟩ |
    ⟨name, value, id, outer, tree, _, hopen, hedit, rfl⟩ | ⟨_, rfl⟩
  · exact ⟨hwf, h.preorder, rfl⟩
  · obtain ⟨-, hparent, -, rfl, rfl⟩ := addNode_eq_ok_iff.1 hedit
    have hspine := hopen ▸ h.spine
    refine ⟨hwf, ?_, ?_, ?_⟩
    · show (builder.tree.appendChild parent name).preorder = _
      rw [h.wellFormed.preorder_appendChild hwf hparent hspine.reflTransGen, h.preorder,
        size_appendChild, List.range_succ]
    · show (DeviceTree.children _ parent).getLast? = _
      rw [children_appendChild hparent, if_pos rfl, List.getLast?_concat]
    · refine hspine.of_children_eq fun other hother => ?_
      have hlt := h.wellFormed.lt_of_mem_spine hspine hother
      rw [children_appendChild hparent, if_neg (Nat.ne_of_lt hlt)]
  · exact ⟨hwf, h.preorder, (hopen ▸ h.spine).tail⟩
  · obtain ⟨hsize, hchildren⟩ := links_of_setProperty hedit
    refine ⟨hwf, ?_, h.spine.of_children_eq fun other _ => hchildren other⟩
    show tree.preorder = List.range tree.size
    rw [hwf.preorder_eq_subtree, subtree_congr hchildren, hsize, ← h.wellFormed.preorder_eq_subtree,
      h.preorder]
  · exact h

end InOrder

/-- **In a tree that was read from a blob, nodes are numbered in pre-order.** -/
theorem preorder_of_ofBlob {data : Bytes} (h : ofBlob data = .ok tree) :
    tree.preorder = List.range tree.size := by
  obtain ⟨blocks, steps, cursor, cpu, hrun⟩ := exists_run_of_ofBlob h
  obtain ⟨last, hlast, -, -, rfl⟩ :=
    Blob.Builder.exists_of_run (fun _ _ _ h haccept => h.accept haccept) (InOrder.start cpu) hrun
  exact hlast.preorder

end DeviceTree
end RiscvTables
