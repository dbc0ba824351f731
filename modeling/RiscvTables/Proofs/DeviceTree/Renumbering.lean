import RiscvTables.DeviceTree.Property
import RiscvTables.Proofs.DeviceTree.RoundTrip

/-!
# Numbers of nodes do not matter

A node's number says when the node was added, and a blob does not keep it: reading a blob numbers
the nodes in pre-order.  `Renumbers` says that one tree is another with each node renumbered, by
what the lookups return; `renumbers_ofBlob` that a tree read back from its blob is one.

All the questions about nodes rest on the lookups, so each has one lemma here: asked of the
renumbered node, it has the same answer, and where the answer is a node, that node renumbered.
Paths have the same answer too, and with them every message that names a node.

The relation holds for all numbers, also for those of no node.  That is why `rank`, which sends
these to the size of the tree, needs no bound anywhere below.
-/

set_option autoImplicit false

namespace RiscvTables
namespace DeviceTree

/-- One tree is another with each node renumbered: the lookups on them agree. -/
structure Renumbers (renumber : NodeId → NodeId) (tree tree' : DeviceTree) : Prop where
  size : tree'.size = tree.size
  name? : ∀ id, tree'.name? (renumber id) = tree.name? id
  properties : ∀ id, tree'.properties (renumber id) = tree.properties id
  parent? : ∀ id, tree'.parent? (renumber id) = (tree.parent? id).map renumber
  children : ∀ id, tree'.children (renumber id) = (tree.children id).map renumber
  phandleOwner? : ∀ phandle,
    tree'.phandleOwner? phandle = (tree.phandleOwner? phandle).map renumber
  root_iff : ∀ id, renumber id = NodeId.root ↔ id = NodeId.root
  nodeList : tree'.nodeList = tree.nodeList.map renumber
  /-- No two nodes have the same new number. -/
  nodup : tree'.nodeList.Nodup

/-! ## Trees that are read back -/

namespace WellFormed

variable {tree : DeviceTree}

/-- What is not a node has the number behind the last node. -/
theorem rank_of_le (h : tree.WellFormed) {id : Nat} (hid : tree.size ≤ id) :
    tree.rank id = tree.size := by
  have hnotMem : id ∉ tree.preorder := fun hmem =>
    absurd (h.mem_preorder_iff.1 hmem) (Nat.not_lt.2 hid)
  rw [rank, List.idxOf_eq_length hnotMem, h.length_preorder]

theorem rank_eq_root_iff (h : tree.WellFormed) (id : NodeId) :
    tree.rank id = NodeId.root ↔ id = NodeId.root := by
  rw [← h.rank_root, eq_comm, h.rank_inj h.root_lt_size, h.rank_root, eq_comm]

theorem map_rank_preorder (h : tree.WellFormed) :
    tree.preorder.map tree.rank = List.range tree.size := by
  refine List.ext_getElem? fun i => ?_
  rw [List.getElem?_map]
  cases hi : tree.preorder[i]? with
  | none =>
    rw [List.getElem?_eq_none_iff, h.length_preorder] at hi
    rw [Option.map_none, List.getElem?_eq_none (by rwa [List.length_range])]
  | some id =>
    have hlt := (List.getElem?_eq_some_iff.1 hi).1
    rw [h.length_preorder] at hlt
    rw [Option.map_some, h.rank_eq_of_getElem? hi, List.getElem?_range hlt]

end WellFormed

/-- A tree that is the same up to ranks, and is itself in pre-order, is the tree renumbered. -/
theorem SameUpTo.renumbers {tree tree' : DeviceTree} (hsame : SameUpTo tree.rank tree tree')
    (h : tree.WellFormed) (h' : tree'.WellFormed)
    (hpreorder : tree'.preorder = List.range tree'.size) : Renumbers tree.rank tree tree' where
  size := hsame.size
  name? := by
    intro id
    rcases Nat.lt_or_ge id tree.size with hid | hid
    · exact hsame.name? id hid
    · rw [name?_eq_none hid, name?_eq_none (by rw [h.rank_of_le hid, hsame.size])]
  properties := by
    intro id
    rcases Nat.lt_or_ge id tree.size with hid | hid
    · exact hsame.properties id hid
    · rw [DeviceTree.properties, DeviceTree.properties, node?_eq_none hid,
        node?_eq_none (by rw [h.rank_of_le hid, hsame.size])]
  parent? := by
    intro id
    rcases Nat.lt_or_ge id tree.size with hid | hid
    · exact hsame.parent? id hid
    · rw [parent?_eq_none hid, parent?_eq_none (by rw [h.rank_of_le hid, hsame.size]),
        Option.map_none]
  children := by
    intro id
    rcases Nat.lt_or_ge id tree.size with hid | hid
    · exact hsame.children id hid
    · rw [children_eq_nil hid, children_eq_nil (by rw [h.rank_of_le hid, hsame.size]),
        List.map_nil]
  phandleOwner? := hsame.phandleOwner?
  root_iff := h.rank_eq_root_iff
  nodeList := by
    rw [h'.nodeList_eq_preorder, hpreorder, hsame.size, h.nodeList_eq_preorder,
      h.map_rank_preorder]
  nodup := h'.nodeList_eq_preorder ▸ h'.nodup_preorder

/-- **Through a blob a tree is only renumbered.** -/
theorem renumbers_ofBlob {tree : DeviceTree} (hreachable : tree.Reachable)
    (hencodable : tree.Encodable) (hone : tree.OnePhandle) :
    ∃ tree', ofBlob tree.toBlob = .ok tree' ∧ Renumbers tree.rank tree tree' := by
  have hwf := hreachable.wellFormed
  have hread := hwf.ofBlob_toBlob_renumbered hreachable.indexed hone hencodable
  have hreachable' := Reachable.ofBlob hread
  have hsame := hwf.sameUpTo_renumbered hreachable.indexed hone hreachable'.indexed
  exact ⟨tree.renumbered, hread,
    hsame.renumbers hwf hreachable'.wellFormed (preorder_of_ofBlob hread)⟩

/-! ## Questions about nodes -/

namespace Renumbers

variable {renumber : NodeId → NodeId} {tree tree' : DeviceTree} (h : Renumbers renumber tree tree')
include h

theorem root : renumber NodeId.root = NodeId.root :=
  (h.root_iff NodeId.root).2 rfl

theorem property? (id : NodeId) (name : String) :
    tree'.property? (renumber id) name = tree.property? id name := by
  rw [property?_eq_lookup, property?_eq_lookup, h.properties]

theorem any_node? (id : NodeId) (p : String → Bool) :
    ((tree'.node? (renumber id)).any fun node => p node.name) =
      (tree.node? id).any fun node => p node.name := by
  have hname := h.name? id
  rw [DeviceTree.name?, DeviceTree.name?] at hname
  have hmap : ∀ node? : Option Node, (node?.any fun node => p node.name) =
      (node?.map (·.name)).any p := by
    intro node?
    cases node? <;> rfl
  rw [hmap, hmap, hname]

/-! ### Paths -/

theorem partsUp (levels : Nat) (id : NodeId) :
    tree'.partsUp levels (renumber id) = tree.partsUp levels id := by
  induction levels generalizing id with
  | zero => rfl
  | succ levels ih =>
    rw [DeviceTree.partsUp, DeviceTree.partsUp, h.parent?, h.name?]
    cases tree.parent? id with
    | none => rfl
    | some parent => exact congrArg (_ :: ·) (ih parent)

theorem path (id : NodeId) : tree'.path (renumber id) = tree.path id := by
  rw [DeviceTree.path, DeviceTree.path, h.size, h.partsUp]

theorem childNamed? (parent : NodeId) (name : String) :
    tree'.childNamed? (renumber parent) name = (tree.childNamed? parent name).map renumber := by
  rw [DeviceTree.childNamed?, DeviceTree.childNamed?, h.children, List.find?_map]
  simp only [Function.comp_def, h.name?]

theorem find? (path : String) : tree'.find? path = (tree.find? path).map renumber := by
  have hsteps : ∀ (names : List String) (id : NodeId),
      names.foldlM tree'.childNamed? (renumber id) =
        (names.foldlM tree.childNamed? id).map renumber := by
    intro names
    induction names with
    | nil => exact fun id => rfl
    | cons name rest ih =>
      intro id
      rw [List.foldlM_cons, List.foldlM_cons, h.childNamed?]
      cases tree.childNamed? id name with
      | none => rfl
      | some child => exact ih child
  rw [DeviceTree.find?, DeviceTree.find?, ← hsteps, h.root]

/-! ### What the properties say -/

theorem addressCells (id : NodeId) : tree'.addressCells (renumber id) = tree.addressCells id := by
  rw [DeviceTree.addressCells, DeviceTree.addressCells, h.property?]

theorem sizeCells (id : NodeId) : tree'.sizeCells (renumber id) = tree.sizeCells id := by
  rw [DeviceTree.sizeCells, DeviceTree.sizeCells, h.property?]

theorem regions? (id : NodeId) : tree'.regions? (renumber id) = tree.regions? id := by
  rw [DeviceTree.regions?, DeviceTree.regions?, h.parent?, h.property?]
  cases tree.parent? id with
  | none => rfl
  | some parent =>
    simp only [Option.map_some, bind, Option.bind_some, h.addressCells, h.sizeCells]

theorem isCompatible (id : NodeId) (model : String) :
    tree'.isCompatible (renumber id) model = tree.isCompatible id model := by
  rw [DeviceTree.isCompatible, DeviceTree.isCompatible, h.property?]

theorem filter_map_renumber (ids : List NodeId) (model : String) :
    (ids.map renumber).filter (tree'.isCompatible · model) =
      (ids.filter (tree.isCompatible · model)).map renumber := by
  rw [List.filter_map]
  simp only [Function.comp_def, h.isCompatible]

end Renumbers
end DeviceTree
end RiscvTables
