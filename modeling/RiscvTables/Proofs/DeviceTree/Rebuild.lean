import RiscvTables.Proofs.DeviceTree.Blob

/-!
# Rebuilding a tree from its tokens

The tokens of a tree build it up again, one node after the other in pre-order.  So at each moment
the builder holds a part of the tree, with each node numbered by its place in pre-order, its
`rank`, and not by its number in the tree.

`rebuilt` is that part, written down for any initial segment of the pre-order: the nodes that were
begun, each with the properties it was given so far.  A node that is begun and a property that is
set lead from one such part to the next (`addNode_rebuilt`, `setProperty_rebuilt`).
-/

set_option autoImplicit false

namespace RiscvTables
namespace DeviceTree

/-! ## Places in pre-order -/

/-- The place of a node in pre-order. -/
def rank (tree : DeviceTree) (id : NodeId) : NodeId :=
  tree.preorder.idxOf id

namespace WellFormed

variable {tree : DeviceTree}

theorem rank_eq_length (h : tree.WellFormed) {id : NodeId} {before after : List NodeId}
    (hpreorder : tree.preorder = before ++ id :: after) : tree.rank id = before.length := by
  have hbefore := (h.notMem_of_preorder_eq hpreorder).1
  rw [rank, hpreorder, List.idxOf_append_of_notMem hbefore, List.idxOf_cons_self, Nat.add_zero]

theorem rank_eq_of_getElem? (h : tree.WellFormed) {id i : Nat} (hi : tree.preorder[i]? = some id) :
    tree.rank id = i := by
  obtain ⟨hlt, rfl⟩ := List.getElem?_eq_some_iff.1 hi
  have hsplit : tree.preorder =
      tree.preorder.take i ++ tree.preorder[i] :: tree.preorder.drop (i + 1) := by
    rw [← List.drop_eq_getElem_cons hlt, List.take_append_drop]
  rw [h.rank_eq_length hsplit, List.length_take_of_le (Nat.le_of_lt hlt)]

theorem getElem?_rank (h : tree.WellFormed) {id : Nat} (hid : id < tree.size) :
    tree.preorder[tree.rank id]? = some id :=
  List.getElem?_idxOf (h.mem_preorder_iff.2 hid)

theorem rank_inj (h : tree.WellFormed) {first second : Nat} (hfirst : first < tree.size) :
    tree.rank first = tree.rank second ↔ first = second :=
  List.idxOf_inj (h.mem_preorder_iff.2 hfirst)

theorem rank_root (h : tree.WellFormed) : tree.rank NodeId.root = NodeId.root := by
  refine h.rank_eq_of_getElem? ?_
  obtain ⟨steps, hsteps⟩ :=
    Nat.exists_eq_add_one_of_ne_zero (Nat.ne_zero_of_lt h.root_lt_size)
  rw [h.preorder_eq_subtree, hsteps]
  rfl

end WellFormed

/-! ## Parts of a tree -/

/-- A node that carries both properties that name a phandle carries one phandle. -/
def OnePhandle (tree : DeviceTree) : Prop :=
  ∀ node ∈ tree.nodes, ∀ value ∈ node.property? "phandle",
    ∀ other ∈ node.property? "linux,phandle", value = other

/-- The phandle that properties give a node, read off the first of them that names one. -/
def phandleIn? (properties : List (String × Bytes)) : Option UInt32 :=
  properties.findSome? fun p => if p.1 ∈ phandleNames then phandleOfValue? p.2 else none

/-- The children of a node that have been begun, by their ranks. -/
def begun (tree : DeviceTree) (ids : List NodeId) (id : NodeId) : List NodeId :=
  ((tree.children id).filter fun child => child ∈ ids).map tree.rank

/-- The part of a tree that has been rebuilt when the given nodes have been begun, in this order,
and each has been given these properties. -/
def rebuilt (tree : DeviceTree) (parts : List (NodeId × List (String × Bytes))) : DeviceTree where
  nodes := (parts.map fun part =>
    { name := (tree.name? part.1).getD ""
      parent := (tree.parent? part.1).map tree.rank
      children := tree.begun (parts.map Prod.fst) part.1
      properties := part.2 : Node }).toArray
  phandles := parts.reverse.filterMap fun part => (phandleIn? part.2).map (·, tree.rank part.1)
  bootCpu := tree.bootCpu

/-- Nodes with all of their properties. -/
def whole (tree : DeviceTree) (ids : List NodeId) : List (NodeId × List (String × Bytes)) :=
  ids.map fun id => (id, tree.properties id)

section
variable {tree : DeviceTree} {parts : List (NodeId × List (String × Bytes))}

theorem map_fst_whole (ids : List NodeId) : (tree.whole ids).map Prod.fst = ids := by
  rw [whole, List.map_map]
  exact List.map_id ids

theorem size_rebuilt : (tree.rebuilt parts).size = parts.length := by
  simp [rebuilt, size]

theorem node?_rebuilt (i : Nat) :
    (tree.rebuilt parts).node? i = parts[i]?.map fun part =>
      { name := (tree.name? part.1).getD ""
        parent := (tree.parent? part.1).map tree.rank
        children := tree.begun (parts.map Prod.fst) part.1
        properties := part.2 } := by
  rw [node?, rebuilt, List.getElem?_toArray, List.getElem?_map]

theorem phandles_rebuilt_append (id : NodeId) (properties : List (String × Bytes)) :
    (tree.rebuilt (parts ++ [(id, properties)])).phandles =
      ((phandleIn? properties).map (·, tree.rank id)).toList ++ (tree.rebuilt parts).phandles := by
  rw [rebuilt, rebuilt, List.reverse_append, List.reverse_singleton, List.singleton_append,
    List.filterMap_cons]
  cases phandleIn? properties <;> rfl

/-- Trees with the same nodes, phandles and boot cpu are the same. -/
theorem ext_node? {first second : DeviceTree} (hnodes : ∀ i, first.node? i = second.node? i)
    (hphandles : first.phandles = second.phandles) (hboot : first.bootCpu = second.bootCpu) :
    first = second := by
  obtain ⟨nodes, phandles, bootCpu⟩ := first
  obtain ⟨nodes', phandles', bootCpu'⟩ := second
  obtain rfl : nodes = nodes' := Array.ext_getElem? hnodes
  obtain rfl : phandles = phandles' := hphandles
  obtain rfl : bootCpu = bootCpu' := hboot
  rfl

end

namespace WellFormed

variable {tree : DeviceTree} {parts : List (NodeId × List (String × Bytes))}

/-- The node at a place is the node of that rank. -/
theorem rank_of_part (h : tree.WellFormed) {rest : List NodeId} {i : Nat}
    {part : NodeId × List (String × Bytes)} (hpreorder : tree.preorder = parts.map Prod.fst ++ rest)
    (hpart : parts[i]? = some part) : tree.rank part.1 = i := by
  obtain ⟨hlt, rfl⟩ := List.getElem?_eq_some_iff.1 hpart
  refine h.rank_eq_of_getElem? ?_
  rw [hpreorder, List.getElem?_append_left (by simpa using hlt), List.getElem?_map, hpart]
  rfl

/-- A node that has been begun stands at its rank. -/
theorem exists_part (h : tree.WellFormed) {rest : List NodeId} {id : NodeId}
    (hpreorder : tree.preorder = parts.map Prod.fst ++ rest) (hid : id ∈ parts.map Prod.fst) :
    ∃ part, parts[tree.rank id]? = some part ∧ part.1 = id := by
  obtain ⟨part, hpart, rfl⟩ := List.mem_map.1 hid
  obtain ⟨i, hi⟩ := List.mem_iff_getElem?.1 hpart
  exact ⟨part, by rw [h.rank_of_part hpreorder hi, hi], rfl⟩

/-! ## A new node

A node is begun when all before it in pre-order have been, its parent among them.  What has to be
shown is that its siblings so far have other names, and that it comes behind them. -/

/-- Beginning a node adds it to the children of its parent. -/
theorem begun_append_of_parent? (h : tree.WellFormed) {ids rest : List NodeId} {id parent : NodeId}
    (hpreorder : tree.preorder = ids ++ id :: rest) (hparent : tree.parent? id = some parent) :
    tree.begun (ids ++ [id]) parent = tree.begun ids parent ++ [tree.rank id] := by
  obtain ⟨older, younger, hchildren⟩ :=
    List.append_of_mem ((h.mem_children_iff parent id).2 hparent)
  have hyounger := h.notMem_before_of_younger hpreorder hchildren
  have hnodup := h.nodup_children parent
  rw [hchildren, List.nodup_middle, List.nodup_cons, List.mem_append, not_or] at hnodup
  have hid : id ∉ ids := (h.notMem_of_preorder_eq hpreorder).1
  have hsame : (older.filter fun child => child ∈ ids ++ [id]) =
      older.filter fun child => child ∈ ids := by
    refine List.filter_congr fun child hchild => ?_
    have hne : child ≠ id := fun heq => hnodup.1.1 (heq ▸ hchild)
    simp [hne]
  have hnone : (younger.filter fun child => child ∈ ids ++ [id]) = [] := by
    rw [List.filter_eq_nil_iff]
    intro child hchild
    have hne : child ≠ id := fun heq => hnodup.1.2 (heq ▸ hchild)
    simp [hne, hyounger child hchild]
  have hnone' : (younger.filter fun child => child ∈ ids) = [] := by
    rw [List.filter_eq_nil_iff]
    intro child hchild
    simp [hyounger child hchild]
  rw [begun, begun, hchildren, List.filter_append, List.filter_append, List.filter_cons,
    List.filter_cons, hsame, hnone, hnone']
  simp [hid]

/-- Beginning a node leaves the children of other nodes alone. -/
theorem begun_append_of_ne (h : tree.WellFormed) {ids : List NodeId} {id other : NodeId}
    (hother : tree.parent? id ≠ some other) :
    tree.begun (ids ++ [id]) other = tree.begun ids other := by
  rw [begun, begun]
  refine congrArg (List.map tree.rank) (List.filter_congr fun child hchild => ?_)
  have hne : child ≠ id := by
    rintro rfl
    exact hother ((h.mem_children_iff other child).1 hchild)
  simp [hne]

/-- A node that has just been begun has no children yet. -/
theorem begun_append_self (h : tree.WellFormed) {ids rest : List NodeId} {id : NodeId}
    (hpreorder : tree.preorder = ids ++ id :: rest) : tree.begun (ids ++ [id]) id = [] := by
  rw [begun, List.map_eq_nil_iff, List.filter_eq_nil_iff]
  intro child hchild
  have hne : child ≠ id := Nat.ne_of_gt (h.lt_of_mem_children hchild)
  simp [hne, h.notMem_before_of_mem_children hpreorder hchild]

/-- No sibling that has been begun has the name of a node that has not. -/
theorem name?_ne_of_mem_children_rebuilt (h : tree.WellFormed) {rest : List NodeId}
    {parent id child : NodeId} {name : String}
    (hpreorder : tree.preorder = parts.map Prod.fst ++ id :: rest)
    (hname : tree.name? id = some name) (hparent : tree.parent? id = some parent)
    (hchild : child ∈ (tree.rebuilt parts).children (tree.rank parent)) :
    (tree.rebuilt parts).name? child ≠ some name := by
  intro hsame
  obtain ⟨part, hpart, hpartid⟩ :=
    h.exists_part hpreorder (h.mem_before_of_parent? hpreorder hparent)
  rw [children, node?_rebuilt, hpart] at hchild
  obtain ⟨other, hother, rfl⟩ := List.mem_map.1 hchild
  rw [List.mem_filter, decide_eq_true_eq, hpartid, h.mem_children_iff] at hother
  obtain ⟨hsibling, hbegun⟩ := hother
  obtain ⟨part', hpart', hpartid'⟩ := h.exists_part hpreorder hbegun
  obtain ⟨name', hname'⟩ := exists_name?_of_lt (lt_size_of_parent? hsibling)
  rw [name?, node?_rebuilt, hpart', Option.map_some, Option.map_some, hpartid', hname'] at hsame
  have heq := h.sibling_eq other id parent hsibling hparent
    (hname'.trans (hsame.trans hname.symm))
  exact (h.notMem_of_preorder_eq hpreorder).1 (heq ▸ hbegun)

/-- With one node more, the part is the part before with a new child. -/
theorem rebuilt_append_eq_appendChild (h : tree.WellFormed) {rest : List NodeId}
    {parent id : NodeId} {name : String}
    (hpreorder : tree.preorder = parts.map Prod.fst ++ id :: rest)
    (hname : tree.name? id = some name) (hparent : tree.parent? id = some parent) :
    tree.rebuilt (parts ++ [(id, [])]) =
      (tree.rebuilt parts).appendChild (tree.rank parent) name := by
  obtain ⟨part, hpart, hpartid⟩ :=
    h.exists_part hpreorder (h.mem_before_of_parent? hpreorder hparent)
  have hlt : tree.rank parent < parts.length := (List.getElem?_eq_some_iff.1 hpart).1
  have hrank : tree.rank id = parts.length := by
    rw [h.rank_eq_length hpreorder, List.length_map]
  refine ext_node? (fun i => ?_) ?_ rfl
  · rw [node?_appendChild, node?_rebuilt, node?_rebuilt, node?_rebuilt, size_rebuilt, hpart,
      List.map_append, List.map_singleton]
    by_cases hlast : i = parts.length
    · rw [if_pos hlast, hlast, List.getElem?_concat_length, Option.map_some, hname, hparent,
        h.begun_append_self hpreorder]
      rfl
    rw [if_neg hlast]
    by_cases hold : i < parts.length
    · obtain ⟨other, hi⟩ : ∃ other, parts[i]? = some other := ⟨_, List.getElem?_eq_getElem hold⟩
      rw [List.getElem?_append_left hold]
      by_cases hother : other.1 = parent
      · have hiparent : i = tree.rank parent := by rw [← hother, h.rank_of_part hpreorder hi]
        obtain rfl : other = part := Option.some.inj (hi.symm.trans (hiparent ▸ hpart))
        rw [if_pos hiparent, hi, Option.map_some, Option.map_some, hpartid,
          h.begun_append_of_parent? hpreorder hparent, hrank]
        rfl
      · have hne : i ≠ tree.rank parent := by
          intro heq
          rw [heq, hpart] at hi
          exact hother (Option.some.inj hi ▸ hpartid)
        have hnot : tree.parent? id ≠ some other.1 := by
          rw [hparent]
          exact fun heq => hother (Option.some.inj heq).symm
        rw [if_neg hne, hi, Option.map_some, Option.map_some, h.begun_append_of_ne hnot]
    · have hlt' : parts.length < i := Nat.lt_of_le_of_ne (Nat.not_lt.1 hold) (Ne.symm hlast)
      rw [if_neg (Nat.ne_of_gt (Nat.lt_trans hlt hlt')), List.getElem?_eq_none (Nat.le_of_lt hlt'),
        List.getElem?_eq_none (by simpa using Nat.succ_le_of_lt hlt')]
      rfl
  · rw [phandles_rebuilt_append]
    rfl

/-- **A node is begun** once everything before it in pre-order has been. -/
theorem addNode_rebuilt (h : tree.WellFormed) {rest : List NodeId} {parent id : NodeId}
    {name : String} (hpreorder : tree.preorder = parts.map Prod.fst ++ id :: rest)
    (hname : tree.name? id = some name) (hparent : tree.parent? id = some parent) :
    (tree.rebuilt parts).addNode (tree.rank parent) name =
      .ok (tree.rebuilt (parts ++ [(id, [])]), tree.rank id) := by
  have hroot : id ≠ NodeId.root := by
    intro hroot
    rw [hroot, h.root_parent] at hparent
    cases hparent
  obtain ⟨part, hpart, -⟩ :=
    h.exists_part hpreorder (h.mem_before_of_parent? hpreorder hparent)
  refine addNode_eq_ok_iff.2 ⟨h.validName id name hroot hname, ?_, ?_,
    h.rebuilt_append_eq_appendChild hpreorder hname hparent, ?_⟩
  · rw [size_rebuilt]
    exact (List.getElem?_eq_some_iff.1 hpart).1
  · exact fun child => h.name?_ne_of_mem_children_rebuilt hpreorder hname hparent
  · rw [size_rebuilt, h.rank_eq_length hpreorder, List.length_map]

/-! ## A new property

The properties of a node are set right after it was begun, so it is always the last node that is
given one.  The index is what takes some care: a node with both properties sets its phandle twice,
and must find nobody else to own it. -/

/-- What names a phandle of a node names the phandle that the node owns. -/
theorem mem_phandles_of_mem_properties (h : tree.WellFormed) (hindexed : tree.Indexed)
    (hone : tree.OnePhandle) {id : NodeId} {name : String} {value : Bytes}
    (hp : (name, value) ∈ tree.properties id) (hname : name ∈ phandleNames) :
    ∃ phandle, phandleOfValue? value = some phandle ∧ (phandle, id) ∈ tree.phandles := by
  have hsame : ∀ name value name' value', (name, value) ∈ tree.properties id →
      name ∈ phandleNames → (name', value') ∈ tree.properties id → name' ∈ phandleNames →
        value = value' := by
    intro name value name' value' hp hname hp' hname'
    rw [← lookup_eq_some_iff_mem (h.nodup_properties id), ← property?_eq_lookup] at hp hp'
    simp only [phandleNames, List.mem_cons, List.not_mem_nil, or_false] at hname hname'
    obtain ⟨node, hnode, hp⟩ := Option.bind_eq_some_iff.1 hp
    rw [property?, hnode, Option.bind_some] at hp'
    have hmem := Array.mem_of_getElem? hnode
    rcases hname with rfl | rfl <;> rcases hname' with rfl | rfl
    · exact Option.some.inj (hp.symm.trans hp')
    · exact hone node hmem value hp value' hp'
    · exact (hone node hmem value' hp' value hp).symm
    · exact Option.some.inj (hp.symm.trans hp')
  obtain ⟨-, phandle, howned⟩ := hindexed.exists_phandle id name value hp hname
  obtain ⟨name', hname', value', hp', hvalue'⟩ := hindexed.exists_property phandle id howned
  refine ⟨phandle, ?_, howned⟩
  rw [hsame name value name' value' hp hname hp' hname']
  exact hvalue'

/-- The phandle in some of a node's properties is the one that the node owns. -/
theorem mem_phandles_of_phandleIn? (h : tree.WellFormed) (hindexed : tree.Indexed)
    (hone : tree.OnePhandle) {id : NodeId} {properties : List (String × Bytes)} {phandle : UInt32}
    (hproperties : properties ⊆ tree.properties id)
    (hphandle : phandleIn? properties = some phandle) : (phandle, id) ∈ tree.phandles := by
  obtain ⟨⟨name, value⟩, hp, hvalue⟩ := List.exists_of_findSome?_eq_some hphandle
  split at hvalue
  next hname =>
    obtain ⟨owned, howned, hmem⟩ :=
      h.mem_phandles_of_mem_properties hindexed hone (hproperties hp) hname
    exact Option.some.inj (howned.symm.trans hvalue) ▸ hmem
  next => cases hvalue

theorem phandleIn?_append (first second : List (String × Bytes)) :
    phandleIn? (first ++ second) = (phandleIn? first).or (phandleIn? second) :=
  List.findSome?_append

/-- What has been rebuilt names only phandles of the tree. -/
theorem exists_of_mem_phandles_rebuilt (h : tree.WellFormed) (hindexed : tree.Indexed)
    (hone : tree.OnePhandle) {phandle : UInt32} {owner : NodeId}
    (hparts : ∀ part ∈ parts, part.2 ⊆ tree.properties part.1)
    (hmem : (phandle, owner) ∈ (tree.rebuilt parts).phandles) :
    ∃ id ∈ parts.map Prod.fst, owner = tree.rank id ∧ (phandle, id) ∈ tree.phandles := by
  obtain ⟨part, hpart, hentry⟩ := List.mem_filterMap.1 hmem
  obtain ⟨found, hfound, hentry⟩ := Option.map_eq_some_iff.1 hentry
  obtain ⟨rfl, rfl⟩ := Prod.mk.inj hentry
  rw [List.mem_reverse] at hpart
  exact ⟨part.1, List.mem_map_of_mem hpart, rfl,
    h.mem_phandles_of_phandleIn? hindexed hone (hparts part hpart) hfound⟩

/-- Giving a node one property more changes no other node. -/
theorem node?_rebuilt_append (h : tree.WellFormed) {rest : List NodeId} {id : NodeId}
    {name : String} {value : Bytes} {properties : List (String × Bytes)}
    (hpreorder : tree.preorder = parts.map Prod.fst ++ id :: rest)
    (hnew : name ∉ properties.map Prod.fst) (i : Nat) :
    (tree.rebuilt (parts ++ [(id, properties ++ [(name, value)])])).node? i =
      ((tree.rebuilt (parts ++ [(id, properties)])).putValue (tree.rank id) name value).node?
        i := by
  have hrank : tree.rank id = parts.length := by
    rw [h.rank_eq_length hpreorder, List.length_map]
  rw [node?_putValue, node?_rebuilt, node?_rebuilt, node?_rebuilt, List.map_append,
    List.map_append, List.map_singleton, List.map_singleton, hrank]
  split
  next hi =>
    rw [hi, List.getElem?_concat_length, List.getElem?_concat_length]
    simp [putProperty_of_notMem hnew]
  next hi =>
    by_cases hlt : i < parts.length
    · rw [List.getElem?_append_left hlt, List.getElem?_append_left hlt]
    · have hle : parts.length + 1 ≤ i := Nat.lt_of_le_of_ne (Nat.not_lt.1 hlt) (Ne.symm hi)
      rw [List.getElem?_eq_none (by simpa using hle), List.getElem?_eq_none (by simpa using hle)]

/-- Only the node that was begun last has been given the phandle, if any has. -/
theorem filter_phandles_rebuilt (h : tree.WellFormed) (hindexed : tree.Indexed)
    (hone : tree.OnePhandle) {rest : List NodeId} {id : NodeId} {properties : List (String × Bytes)}
    (hpreorder : tree.preorder = parts.map Prod.fst ++ id :: rest)
    (hparts : ∀ part ∈ parts, part.2 ⊆ tree.properties part.1) :
    ((tree.rebuilt (parts ++ [(id, properties)])).phandles.filter fun entry =>
      entry.2 ≠ tree.rank id) = (tree.rebuilt parts).phandles := by
  have hnotid : ∀ other ∈ parts.map Prod.fst, other < tree.size ∧ other ≠ id := by
    intro other hother
    have hid := (h.notMem_of_preorder_eq hpreorder).1
    refine ⟨?_, fun heq => hid (heq ▸ hother)⟩
    rw [← h.mem_preorder_iff, hpreorder]
    exact List.mem_append_left _ hother
  rw [phandles_rebuilt_append, List.filter_append]
  have hlast : (((phandleIn? properties).map (·, tree.rank id)).toList.filter fun entry =>
      entry.2 ≠ tree.rank id) = [] := by
    cases phandleIn? properties <;> simp
  rw [hlast, List.nil_append, List.filter_eq_self]
  rintro ⟨phandle, owner⟩ hmem
  obtain ⟨other, hother, rfl, -⟩ := h.exists_of_mem_phandles_rebuilt hindexed hone hparts hmem
  obtain ⟨hlt, hne⟩ := hnotid other hother
  exact decide_eq_true fun heq => hne ((h.rank_inj hlt).1 heq)

/-- **A property is set** on the node that was begun last. -/
theorem setProperty_rebuilt (h : tree.WellFormed) (hindexed : tree.Indexed) (hone : tree.OnePhandle)
    {rest : List NodeId} {id : NodeId} {name : String} {value : Bytes}
    {properties : List (String × Bytes)}
    (hpreorder : tree.preorder = parts.map Prod.fst ++ id :: rest)
    (hparts : ∀ part ∈ parts, part.2 ⊆ tree.properties part.1)
    (hproperties : properties ++ [(name, value)] ⊆ tree.properties id)
    (hnew : name ∉ properties.map Prod.fst) :
    (tree.rebuilt (parts ++ [(id, properties)])).setProperty (tree.rank id) name value =
      .ok (tree.rebuilt (parts ++ [(id, properties ++ [(name, value)])])) := by
  have hvalue : (name, value) ∈ tree.properties id :=
    hproperties (List.mem_append_right _ List.mem_cons_self)
  have hold : properties ⊆ tree.properties id := fun p hp =>
    hproperties (List.mem_append_left _ hp)
  refine setProperty_eq_ok_iff.2 ⟨?_, ?_⟩
  · rw [size_rebuilt, h.rank_eq_length hpreorder, List.length_map, List.length_append]
    exact Nat.lt_succ_self _
  by_cases hname : name ∈ phandleNames
  · obtain ⟨phandle, hphandle, howned⟩ :=
      h.mem_phandles_of_mem_properties hindexed hone hvalue hname
    refine Or.inr ⟨hname, phandle, hphandle, ?_, ?_⟩
    · -- the phandle belongs to this node in the tree, so no other part has it
      intro owner howner
      obtain ⟨front, back, hentries, -⟩ := List.lookup_eq_some_iff.1 howner
      have hmem : (phandle, owner) ∈ (tree.rebuilt (parts ++ [(id, properties)])).phandles := by
        rw [hentries]
        exact List.mem_append_right _ List.mem_cons_self
      obtain ⟨other, -, rfl, hother⟩ := h.exists_of_mem_phandles_rebuilt hindexed hone
        (List.forall_mem_append.2 ⟨hparts, List.forall_mem_singleton.2 hold⟩) hmem
      rw [← hindexed.phandleOwner?_eq_some_iff] at hother howned
      rw [Option.some.inj (hother.symm.trans howned)]
    · refine ext_node? (h.node?_rebuilt_append hpreorder hnew) ?_ rfl
      have hlast : phandleIn? (properties ++ [(name, value)]) = some phandle := by
        rw [phandleIn?_append]
        cases hfound : phandleIn? properties with
        | none => simp [phandleIn?, hname, hphandle]
        | some found =>
          have hmem := h.mem_phandles_of_phandleIn? hindexed hone hold hfound
          have heq := List.inj_on_of_nodup_map hindexed.nodup_owners hmem howned rfl
          exact congrArg some (Prod.mk.inj heq).1
      rw [phandles_rebuilt_append, hlast]
      exact congrArg (List.cons (phandle, tree.rank id))
        (h.filter_phandles_rebuilt hindexed hone hpreorder hparts).symm
  · refine Or.inl ⟨hname, ext_node? (h.node?_rebuilt_append hpreorder hnew) ?_ rfl⟩
    have hnone : phandleIn? [(name, value)] = none := by simp [phandleIn?, hname]
    rw [phandles_rebuilt_append, phandleIn?_append, hnone, Option.or_none,
      ← phandles_rebuilt_append]
    rfl

end WellFormed
end DeviceTree
end RiscvTables
