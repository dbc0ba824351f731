import RiscvTables.Proofs.DeviceTree.Reachable

/-!
# What every reachable tree is like

Nothing in the type of a tree keeps its array of nodes from being nonsense: links can go in circles,
a child can be listed by two parents, the index of phandles can contradict the properties.  Trees
that the edits have made are not like that, and this file says in which respects.  Two invariants
carry everything that is proved about trees.

* `WellFormed` is about links and names.  Every node but the root has a parent, and the parent comes
  before it in the array.  A node is listed as a child where its parent link points and nowhere
  else, and children are listed in the order in which they were added.  Siblings have different
  names, names are valid, and no property name stands twice in a node.
* `Indexed` is about phandles.  The index is a one-to-one correspondence between some numbers and
  some nodes; each of its entries is the value of a property of its node, and each node with such a
  property has an entry.

That parents come before their children is what all recursion over trees rests on: going up ends
because ids decrease, and going down because they increase (`parent_lt`, `lt_of_mem_children`).  The
fields are in the form in which later proofs use them; what follows from them is stated as lemmas
right behind.

`Indexed` says less than one might expect.  A node may have both a `phandle` and a
`linux,phandle`, with different values, and its entry is that of the one that was set last.  So a
node with such a property has an entry, but not always for the value of that property.

Both are invariants in the sense of `KeptByEdits`: each edit keeps them.  For a field of an
invariant this is a statement about one lookup of a tree after an edit, so each proof starts with
the equation for that lookup (`RiscvTables.Proofs.DeviceTree.Edit`), and only the fields that relate
the new node to the old ones take an argument of their own.  `Reachable.wellFormed` and
`Reachable.indexed` are the results, for every tree that can be made at all, by edits or from a
blob.
-/

set_option autoImplicit false

namespace RiscvTables
namespace DeviceTree

/-! ## Links and names -/

/-- The links of a tree are those of a tree, and its names those of siblings. -/
structure WellFormed (tree : DeviceTree) : Prop where
  root_name : tree.name? NodeId.root = some ""
  root_parent : tree.parent? NodeId.root = none
  exists_parent : ∀ id, id < tree.size → id ≠ NodeId.root →
    ∃ parent, tree.parent? id = some parent
  parent_lt : ∀ id parent : Nat, tree.parent? id = some parent → parent < id
  mem_children_iff : ∀ parent child, child ∈ tree.children parent ↔ tree.parent? child = some parent
  sorted_children : ∀ id, (tree.children id).Pairwise (· < ·)
  validName : ∀ id name, id ≠ NodeId.root → tree.name? id = some name → validName name
  /-- Siblings of one name are one node. -/
  sibling_eq : ∀ first second parent, tree.parent? first = some parent →
    tree.parent? second = some parent → tree.name? first = tree.name? second → first = second
  nodup_properties : ∀ id, ((tree.properties id).map Prod.fst).Nodup

namespace WellFormed

variable {tree tree' : DeviceTree} {id parent child : NodeId} {name : String} {value : Bytes}

theorem root_lt_size (h : tree.WellFormed) : NodeId.root < tree.size :=
  lt_size_of_name? h.root_name

theorem lt_size_of_mem_children (h : tree.WellFormed) (hchild : child ∈ tree.children parent) :
    child < tree.size :=
  lt_size_of_parent? ((h.mem_children_iff parent child).1 hchild)

theorem lt_of_mem_children (h : tree.WellFormed) {parent child : Nat}
    (hchild : child ∈ tree.children parent) : parent < child :=
  h.parent_lt child parent ((h.mem_children_iff parent child).1 hchild)

theorem parent_lt_size (h : tree.WellFormed) {id parent : Nat}
    (hparent : tree.parent? id = some parent) : parent < tree.size :=
  Nat.lt_trans (h.parent_lt id parent hparent) (lt_size_of_parent? hparent)

theorem nodup_children (h : tree.WellFormed) (id : NodeId) : (tree.children id).Nodup :=
  (h.sorted_children id).imp Nat.ne_of_lt

theorem property?_eq_some_iff (h : tree.WellFormed) :
    tree.property? id name = some value ↔ (name, value) ∈ tree.properties id := by
  rw [property?_eq_lookup, lookup_eq_some_iff_mem (h.nodup_properties id)]

/-! ### The edits

The empty tree has one node, so most of what holds of it holds for want of a second one.  When a
child is appended, the fields about one node ask whether it is the new one; those about two,
`mem_children_iff` and `sibling_eq`, come first as lemmas.  A property changes none of the links. -/

/-- Only the nodes matter. -/
theorem of_nodes_eq (h : tree.WellFormed) (hnodes : tree'.nodes = tree.nodes) :
    tree'.WellFormed := by
  obtain ⟨nodes, phandles, bootCpu⟩ := tree
  obtain ⟨nodes', phandles', bootCpu'⟩ := tree'
  obtain rfl : nodes' = nodes := hnodes
  exact ⟨h.root_name, h.root_parent, h.exists_parent, h.parent_lt, h.mem_children_iff,
    h.sorted_children, h.validName, h.sibling_eq, h.nodup_properties⟩

theorem empty : DeviceTree.empty.WellFormed where
  root_name := rfl
  root_parent := rfl
  exists_parent := by
    intro id hid hroot
    exact absurd (Nat.lt_one_iff.1 hid) hroot
  parent_lt := by
    intro id parent hparent
    obtain rfl : id = 0 := Nat.lt_one_iff.1 (lt_size_of_parent? hparent)
    cases hparent
  mem_children_iff := by
    intro parent child
    have hchildren : DeviceTree.empty.children parent = [] := by
      cases parent with
      | zero => rfl
      | succ parent => exact children_eq_nil (Nat.succ_le_succ (Nat.zero_le parent))
    have hparent : DeviceTree.empty.parent? child = none := by
      cases child with
      | zero => rfl
      | succ child => exact parent?_eq_none (Nat.succ_le_succ (Nat.zero_le child))
    simp [hchildren, hparent]
  sorted_children := by
    intro id
    cases id with
    | zero => exact List.Pairwise.nil
    | succ id =>
      rw [children_eq_nil (Nat.succ_le_succ (Nat.zero_le id))]
      exact List.Pairwise.nil
  validName := by
    intro id name hroot hname
    exact absurd (Nat.lt_one_iff.1 (lt_size_of_name? hname)) hroot
  sibling_eq := by
    intro first second parent hfirst hsecond _
    have hzero : first = 0 := Nat.lt_one_iff.1 (lt_size_of_parent? hfirst)
    exact hzero.trans (Nat.lt_one_iff.1 (lt_size_of_parent? hsecond)).symm
  nodup_properties := by
    intro id
    cases id with
    | zero => exact List.Pairwise.nil
    | succ id =>
      rw [properties, node?_eq_none (Nat.succ_le_succ (Nat.zero_le id))]
      exact List.Pairwise.nil

/-- A new last child is listed where its parent link points, and so are the others. -/
theorem mem_children_appendChild_iff (h : tree.WellFormed) (hparent : parent < tree.size)
    (other child : NodeId) :
    child ∈ (tree.appendChild parent name).children other ↔
      (tree.appendChild parent name).parent? child = some other := by
  rw [children_appendChild hparent, parent?_appendChild]
  by_cases hchild : child = tree.size
  · have hnot : ∀ other, child ∉ tree.children other := fun other hmem =>
      Nat.lt_irrefl _ (hchild ▸ h.lt_size_of_mem_children hmem)
    rw [if_pos hchild]
    split
    next hother => simp [hother, hchild]
    next hother =>
      exact ⟨fun hmem => absurd hmem (hnot other),
        fun hparent => absurd (Option.some.inj hparent).symm hother⟩
  · rw [if_neg hchild]
    split
    next hother => simp [hother, hchild, h.mem_children_iff]
    next => exact h.mem_children_iff other child

/-- A name that no sibling has is not the name of two. -/
theorem sibling_eq_appendChild (h : tree.WellFormed)
    (hnew : ∀ child ∈ tree.children parent, tree.name? child ≠ some name)
    (first second other : NodeId)
    (hfirst : (tree.appendChild parent name).parent? first = some other)
    (hsecond : (tree.appendChild parent name).parent? second = some other)
    (hname : (tree.appendChild parent name).name? first =
      (tree.appendChild parent name).name? second) : first = second := by
  rw [parent?_appendChild] at hfirst hsecond
  rw [name?_appendChild, name?_appendChild] at hname
  by_cases h1 : first = tree.size <;> by_cases h2 : second = tree.size
  · rw [h1, h2]
  · rw [if_pos h1] at hfirst hname
    rw [if_neg h2] at hsecond hname
    obtain rfl := Option.some.inj hfirst
    exact absurd hname.symm (hnew second ((h.mem_children_iff _ _).2 hsecond))
  · rw [if_neg h1] at hfirst hname
    rw [if_pos h2] at hsecond hname
    obtain rfl := Option.some.inj hsecond
    exact absurd hname (hnew first ((h.mem_children_iff _ _).2 hfirst))
  · rw [if_neg h1] at hfirst hname
    rw [if_neg h2] at hsecond hname
    exact h.sibling_eq first second other hfirst hsecond hname

/-- A new last child of a valid name that no sibling has. -/
theorem appendChild (h : tree.WellFormed) {parent : Nat} (hparent : parent < tree.size)
    (hvalid : DeviceTree.validName name)
    (hnew : ∀ child ∈ tree.children parent, tree.name? child ≠ some name) :
    (tree.appendChild parent name).WellFormed where
  root_name := by
    rw [name?_appendChild, if_neg (Nat.ne_of_lt h.root_lt_size), h.root_name]
  root_parent := by
    rw [parent?_appendChild, if_neg (Nat.ne_of_lt h.root_lt_size), h.root_parent]
  exists_parent := by
    intro id hid hne
    rw [parent?_appendChild]
    split
    next => exact ⟨parent, rfl⟩
    next hold =>
      rw [size_appendChild] at hid
      exact h.exists_parent id (Nat.lt_of_le_of_ne (Nat.le_of_lt_succ hid) hold) hne
  parent_lt := by
    intro id other hother
    rw [parent?_appendChild] at hother
    split at hother
    next hid => exact hid ▸ Option.some.inj hother ▸ hparent
    next => exact h.parent_lt id other hother
  mem_children_iff := h.mem_children_appendChild_iff hparent
  sorted_children := by
    intro id
    rw [children_appendChild hparent]
    split
    next =>
      refine List.pairwise_append.2 ⟨h.sorted_children parent, List.pairwise_singleton _ _, ?_⟩
      intro child hchild last hlast
      rw [List.mem_singleton.1 hlast]
      exact h.lt_size_of_mem_children hchild
    next => exact h.sorted_children id
  validName := by
    intro id other hne hother
    rw [name?_appendChild] at hother
    split at hother
    next => exact Option.some.inj hother ▸ hvalid
    next => exact h.validName id other hne hother
  sibling_eq := h.sibling_eq_appendChild hnew
  nodup_properties := by
    intro id
    rw [properties_appendChild]
    exact h.nodup_properties id

theorem putValue (h : tree.WellFormed) (hid : id < tree.size) :
    (tree.putValue id name value).WellFormed where
  root_name := name?_putValue.trans h.root_name
  root_parent := parent?_putValue.trans h.root_parent
  exists_parent := by
    intro other hother
    rw [size_putValue] at hother
    rw [parent?_putValue]
    exact h.exists_parent other hother
  parent_lt := by
    intro other parent
    rw [parent?_putValue]
    exact h.parent_lt other parent
  mem_children_iff := by
    intro parent child
    rw [children_putValue, parent?_putValue]
    exact h.mem_children_iff parent child
  sorted_children := by
    intro other
    rw [children_putValue]
    exact h.sorted_children other
  validName := by
    intro other name
    rw [name?_putValue]
    exact h.validName other name
  sibling_eq := by
    intro first second parent
    rw [parent?_putValue, parent?_putValue, name?_putValue, name?_putValue]
    exact h.sibling_eq first second parent
  nodup_properties := by
    intro other
    rw [properties_putValue hid]
    split
    next => exact nodup_putProperty (h.nodup_properties id)
    next => exact h.nodup_properties other

/-- **The edits keep the links and the names in order.** -/
theorem keptByEdits : KeptByEdits WellFormed where
  addNode := by
    intro tree tree' parent id name h hedit
    obtain ⟨hvalid, hparent, hnew, rfl, -⟩ := addNode_eq_ok_iff.1 hedit
    exact h.appendChild hparent hvalid hnew
  setProperty := by
    intro tree tree' id name value h hedit
    obtain ⟨hid, ⟨-, rfl⟩ | ⟨-, phandle, -, -, rfl⟩⟩ := setProperty_eq_ok_iff.1 hedit
    · exact h.putValue hid
    · have hindex : (claimPhandle.reindex tree id phandle).WellFormed := h.of_nodes_eq rfl
      exact hindex.putValue hid
  setBootCpu := by
    intro tree cpu h
    exact h.of_nodes_eq rfl

end WellFormed

theorem Reachable.wellFormed {tree : DeviceTree} (h : tree.Reachable) : tree.WellFormed :=
  h.of_keptByEdits WellFormed.keptByEdits WellFormed.empty

/-! ## Phandles

An entry of the index is made when a property is set and goes away when another is made for the same
node, so no edit but `setProperty` touches the index.  When the property does not name a phandle the
index stays, and so do the properties that it was made from.  When it does, the entry of the node is
replaced; that the number has no other owner is the condition under which the edit is accepted. -/

/-- The index of phandles is what the properties say. -/
structure Indexed (tree : DeviceTree) : Prop where
  nodup_phandles : (tree.phandles.map Prod.fst).Nodup
  nodup_owners : (tree.phandles.map Prod.snd).Nodup
  /-- A phandle is the value of a property of its owner. -/
  exists_property : ∀ phandle owner, (phandle, owner) ∈ tree.phandles →
    ∃ name ∈ phandleNames, ∃ value, (name, value) ∈ tree.properties owner ∧
      phandleOfValue? value = some phandle
  /-- A node with a property that names its phandle has a phandle, though not always that one. -/
  exists_phandle : ∀ id name value, (name, value) ∈ tree.properties id → name ∈ phandleNames →
    (∃ phandle, phandleOfValue? value = some phandle) ∧ ∃ phandle, (phandle, id) ∈ tree.phandles

namespace Indexed

variable {tree : DeviceTree} {id owner : NodeId} {name : String} {value : Bytes} {phandle : UInt32}

theorem phandleOwner?_eq_some_iff (h : tree.Indexed) :
    tree.phandleOwner? phandle = some owner ↔ (phandle, owner) ∈ tree.phandles :=
  lookup_eq_some_iff_mem h.nodup_phandles

theorem empty : DeviceTree.empty.Indexed where
  nodup_phandles := List.Pairwise.nil
  nodup_owners := List.Pairwise.nil
  exists_property := by
    intro phandle owner hmem
    cases hmem
  exists_phandle := by
    intro id name value hmem
    have hnone : DeviceTree.empty.properties id = [] := by
      cases id with
      | zero => rfl
      | succ id => rw [properties, node?_eq_none (Nat.succ_le_succ (Nat.zero_le id))]; rfl
    rw [hnone] at hmem
    cases hmem

theorem appendChild (h : tree.Indexed) (parent : NodeId) :
    (tree.appendChild parent name).Indexed where
  nodup_phandles := h.nodup_phandles
  nodup_owners := h.nodup_owners
  exists_property := by
    intro phandle owner
    rw [properties_appendChild]
    exact h.exists_property phandle owner
  exists_phandle := by
    intro id name value
    rw [properties_appendChild]
    exact h.exists_phandle id name value

/-- A property that does not name a phandle. -/
theorem putValue (h : tree.Indexed) (hwf : tree.WellFormed) (hid : id < tree.size)
    (hname : name ∉ phandleNames) : (tree.putValue id name value).Indexed where
  nodup_phandles := h.nodup_phandles
  nodup_owners := h.nodup_owners
  exists_property := by
    intro phandle owner hmem
    obtain ⟨key, hkey, old, hold, hphandle⟩ := h.exists_property phandle owner hmem
    refine ⟨key, hkey, old, ?_, hphandle⟩
    rw [properties_putValue hid]
    split
    next howner =>
      have hne : key ≠ name := fun heq => hname (heq ▸ hkey)
      rw [mem_putProperty_iff (hwf.nodup_properties id), if_neg hne, ← howner]
      exact hold
    next => exact hold
  exists_phandle := by
    intro other key old hold hkey
    rw [properties_putValue hid] at hold
    split at hold
    next hother =>
      have hne : key ≠ name := fun heq => hname (heq ▸ hkey)
      rw [mem_putProperty_iff (hwf.nodup_properties id), if_neg hne] at hold
      exact h.exists_phandle other key old (hother ▸ hold) hkey
    next => exact h.exists_phandle other key old hold hkey

/-- A property that names a phandle which no other node owns. -/
theorem reindex_putValue (h : tree.Indexed) (hwf : tree.WellFormed) (hid : id < tree.size)
    (hname : name ∈ phandleNames) (hvalue : phandleOfValue? value = some phandle)
    (howner : ∀ owner, tree.phandleOwner? phandle = some owner → owner = id) :
    ((claimPhandle.reindex tree id phandle).putValue id name value).Indexed := by
  have hindex : ∀ entry, entry ∈ (claimPhandle.reindex tree id phandle).phandles ↔
      entry = (phandle, id) ∨ entry ∈ tree.phandles ∧ entry.2 ≠ id := by
    intro entry
    simp [claimPhandle.reindex]
  have hid' : id < (claimPhandle.reindex tree id phandle).size := hid
  have hold : ∀ other, other ≠ id →
      ((claimPhandle.reindex tree id phandle).putValue id name value).properties other =
        tree.properties other := by
    intro other hother
    rw [properties_putValue hid', if_neg hother]
    rfl
  have hnew : ((claimPhandle.reindex tree id phandle).putValue id name value).properties id =
      putProperty name value (tree.properties id) := by
    rw [properties_putValue hid', if_pos rfl]
    rfl
  refine ⟨?_, ?_, ?_, ?_⟩
  · have hfree : phandle ∉ (tree.phandles.filter fun entry => entry.2 ≠ id).map Prod.fst := by
      intro hmem
      obtain ⟨⟨first, second⟩, hentry, rfl⟩ := List.mem_map.1 hmem
      rw [List.mem_filter] at hentry
      have hsecond : second ≠ id := by simpa using hentry.2
      exact hsecond (howner second (h.phandleOwner?_eq_some_iff.2 hentry.1))
    exact List.nodup_cons.2 ⟨hfree, h.nodup_phandles.sublist (List.filter_sublist.map _)⟩
  · have hfree : id ∉ (tree.phandles.filter fun entry => entry.2 ≠ id).map Prod.snd := by
      simp
    exact List.nodup_cons.2 ⟨hfree, h.nodup_owners.sublist (List.filter_sublist.map _)⟩
  · intro other owner hmem
    rcases (hindex _).1 hmem with hmem | ⟨hmem, hne⟩
    · obtain ⟨rfl, rfl⟩ := Prod.mk.inj hmem
      refine ⟨name, hname, value, ?_, hvalue⟩
      rw [hnew, mem_putProperty_iff (hwf.nodup_properties _), if_pos rfl]
    · rw [hold owner hne]
      exact h.exists_property other owner hmem
  · intro other key old hmem hkey
    by_cases hother : other = id
    · subst hother
      refine ⟨?_, phandle, (hindex _).2 (Or.inl rfl)⟩
      rw [hnew, mem_putProperty_iff (hwf.nodup_properties _)] at hmem
      split at hmem
      next => exact ⟨phandle, hmem ▸ hvalue⟩
      next => exact (h.exists_phandle other key old hmem hkey).1
    · rw [hold other hother] at hmem
      obtain ⟨hvalid, owned, howned⟩ := h.exists_phandle other key old hmem hkey
      exact ⟨hvalid, owned, (hindex _).2 (Or.inr ⟨howned, hother⟩)⟩

/-- **The edits keep the index in step with the properties.** -/
theorem keptByEdits : KeptByEdits fun tree => tree.WellFormed ∧ tree.Indexed where
  addNode := by
    rintro tree tree' parent id name ⟨hwf, h⟩ hedit
    refine ⟨WellFormed.keptByEdits.addNode hwf hedit, ?_⟩
    obtain ⟨-, -, -, rfl, -⟩ := addNode_eq_ok_iff.1 hedit
    exact h.appendChild parent
  setProperty := by
    rintro tree tree' id name value ⟨hwf, h⟩ hedit
    refine ⟨WellFormed.keptByEdits.setProperty hwf hedit, ?_⟩
    obtain ⟨hid, ⟨hname, rfl⟩ | ⟨hname, phandle, hvalue, howner, rfl⟩⟩ :=
      setProperty_eq_ok_iff.1 hedit
    · exact h.putValue hwf hid hname
    · exact h.reindex_putValue hwf hid hname hvalue howner
  setBootCpu := by
    rintro tree cpu ⟨hwf, h⟩
    refine ⟨WellFormed.keptByEdits.setBootCpu cpu hwf, ?_⟩
    exact ⟨h.nodup_phandles, h.nodup_owners, h.exists_property, h.exists_phandle⟩

end Indexed

theorem Reachable.indexed {tree : DeviceTree} (h : tree.Reachable) : tree.Indexed :=
  (h.of_keptByEdits Indexed.keptByEdits ⟨WellFormed.empty, Indexed.empty⟩).2

end DeviceTree
end RiscvTables
