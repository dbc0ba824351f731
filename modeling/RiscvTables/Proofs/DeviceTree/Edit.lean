import RiscvTables.DeviceTree.Basic
import RiscvTables.Proofs.Lookup
import RiscvTables.Proofs.Outcome

/-!
# What an edit does

A tree is an array of nodes with an index of phandles beside it, and it is read through five
lookups: how many nodes there are, and the name, the parent, the children and the properties of
each.  This file is the interface between the two.  It says when an edit is accepted and what it
does to these lookups, and no later proof looks at the array.

## What is here

* `node?_eq_some_of_name?`: a node is no more than its four lookups.  Two trees that agree in the
  lookups agree in their nodes, which is how trees are compared later on.
* `addNode_eq_ok_iff`, `setProperty_eq_ok_iff`: the two edits that can be refused, each as a
  condition on the tree and an equation for the new one.  The condition is the whole contract, as
  the edit fails in all other cases.  The new tree is `appendChild` or `putValue` of the old one,
  the two writes to the array.
* For each of these writes and each lookup, an equation: `name?_appendChild`, `children_putValue`
  and so on.  An id stands in them for every node, the new one and those that are not there
  included, so no equation needs a case for an id out of range.
* `error_of_addNode`, `error_of_setProperty`, `setProperty_eq_duplicatePhandle_iff`: for what an
  edit is refused.

Only `setProperty` has more than one way to succeed.  A property that names the phandle of its node
also goes into the index, in place of whatever the index had for the node, and is refused if another
node owns the number.  `links_of_setProperty`, `name?_of_setProperty` and
`properties_of_setProperty` are for the proofs that do not care about phandles: they say the same of
both ways.
-/

set_option autoImplicit false

namespace RiscvTables

/-! ## Lists of properties

A node keeps its properties in the order in which their names first came, and a name keeps its
place when its value is replaced. -/

/-- A value of a new name goes to the end. -/
theorem putProperty_of_notMem {name : String} {value : Bytes} {properties : List (String × Bytes)}
    (h : name ∉ properties.map Prod.fst) :
    putProperty name value properties = properties ++ [(name, value)] := by
  induction properties with
  | nil => rfl
  | cons p rest ih =>
    rw [List.map_cons, List.mem_cons, not_or] at h
    rw [putProperty, if_neg (Ne.symm h.1), ih h.2, List.cons_append]

theorem nodup_putProperty {name : String} {value : Bytes} {properties : List (String × Bytes)}
    (h : (properties.map Prod.fst).Nodup) :
    ((putProperty name value properties).map Prod.fst).Nodup := by
  rw [map_fst_putProperty]
  split
  next => exact h
  next hnew =>
    refine List.nodup_append.2 ⟨h, List.pairwise_singleton _ name, ?_⟩
    rintro first hfirst last hlast rfl
    exact hnew (List.mem_singleton.1 hlast ▸ hfirst)

theorem mem_putProperty_iff {name key : String} {value old : Bytes}
    {properties : List (String × Bytes)} (h : (properties.map Prod.fst).Nodup) :
    (key, old) ∈ putProperty name value properties ↔
      if key = name then old = value else (key, old) ∈ properties := by
  rw [← lookup_eq_some_iff_mem (nodup_putProperty h), lookup_putProperty]
  split
  next => rw [Option.some.injEq, eq_comm]
  next => rw [lookup_eq_some_iff_mem h]

namespace DeviceTree

variable {tree : DeviceTree} {id parent : NodeId} {name : String} {value : Bytes}

/-! ## Lookups

The lookups of an id that is no node of the tree are all empty, and a lookup that gives something
shows that its id is one. -/

/-- The properties of a node. -/
def properties (tree : DeviceTree) (id : NodeId) : List (String × Bytes) :=
  (tree.node? id).elim [] (·.properties)

theorem property?_eq_lookup : tree.property? id name = (tree.properties id).lookup name := by
  rw [property?, properties]
  cases tree.node? id <;> rfl

theorem node?_isSome : (tree.node? id).isSome ↔ id < tree.size := by
  simp [node?, size]

theorem exists_node?_of_lt (h : id < tree.size) : ∃ node, tree.node? id = some node :=
  Option.isSome_iff_exists.1 (node?_isSome.2 h)

theorem node?_eq_none (h : tree.size ≤ id) : tree.node? id = none :=
  Array.getElem?_eq_none h

theorem name?_eq_none (h : tree.size ≤ id) : tree.name? id = none := by
  rw [name?, node?_eq_none h, Option.map_none]

theorem parent?_eq_none (h : tree.size ≤ id) : tree.parent? id = none := by
  rw [parent?, node?_eq_none h, Option.bind_none]

theorem children_eq_nil (h : tree.size ≤ id) : tree.children id = [] := by
  rw [children, node?_eq_none h, Option.elim_none]

theorem lt_size_of_name? (h : tree.name? id = some name) : id < tree.size := by
  rw [← Nat.not_le]
  intro hle
  rw [name?_eq_none hle] at h
  cases h

theorem lt_size_of_parent? (h : tree.parent? id = some parent) : id < tree.size := by
  rw [← Nat.not_le]
  intro hle
  rw [parent?_eq_none hle] at h
  cases h

theorem exists_name?_of_lt (h : id < tree.size) : ∃ name, tree.name? id = some name := by
  obtain ⟨node, hnode⟩ := exists_node?_of_lt h
  exact ⟨node.name, by rw [name?, hnode, Option.map_some]⟩

/-- A node is its name, its parent, its children and its properties. -/
theorem node?_eq_some_of_name? (h : tree.name? id = some name) :
    tree.node? id = some
      { name, parent := tree.parent? id, children := tree.children id,
        properties := tree.properties id } := by
  rw [name?] at h
  obtain ⟨node, hnode, rfl⟩ := Option.map_eq_some_iff.1 h
  simp [parent?, children, properties, hnode]

theorem exists_mem_nodes_of_mem_properties {p : String × Bytes} (h : p ∈ tree.properties id) :
    ∃ node ∈ tree.nodes, p ∈ node.properties := by
  rw [properties] at h
  cases hnode : tree.node? id with
  | none =>
    rw [hnode] at h
    cases h
  | some node =>
    rw [hnode] at h
    exact ⟨node, Array.mem_of_getElem? hnode, h⟩

theorem lt_size_of_mem_properties {p : String × Bytes} (h : p ∈ tree.properties id) :
    id < tree.size := by
  rw [← Nat.not_le]
  intro hle
  rw [properties, node?_eq_none hle, Option.elim_none] at h
  cases h

/-! ## A new child

The new node is the last of the array, so its id is the size that the tree had.  Its parent is the
only other node that changes, and of that only the children do. -/

theorem size_appendChild : (tree.appendChild parent name).size = tree.size + 1 := by
  simp [appendChild, size]

theorem node?_appendChild :
    (tree.appendChild parent name).node? id =
      if id = tree.size then some { name, parent := some parent }
      else if id = parent then
        (tree.node? parent).map fun n => { n with children := n.children ++ [tree.size] }
      else tree.node? id := by
  rw [appendChild, node?, Array.getElem?_push, Array.size_modify, Array.getElem?_modify]
  by_cases hid : id = tree.nodes.size
  · rw [if_pos hid, if_pos (show id = tree.size from hid)]
  · rw [if_neg hid, if_neg (show ¬ id = tree.size from hid)]
    by_cases hparent : id = parent
    · simp [hparent, node?]
    · simp [hparent, Ne.symm hparent, node?]

theorem name?_appendChild :
    (tree.appendChild parent name).name? id =
      if id = tree.size then some name else tree.name? id := by
  rw [name?, node?_appendChild]
  split
  · rfl
  split
  next hid => rw [hid, name?, Option.map_map]; rfl
  · rfl

theorem parent?_appendChild :
    (tree.appendChild parent name).parent? id =
      if id = tree.size then some parent else tree.parent? id := by
  rw [parent?, node?_appendChild]
  split
  · rfl
  split
  next hid => rw [hid, parent?]; cases tree.node? parent <;> rfl
  · rfl

theorem children_appendChild (h : parent < tree.size) :
    (tree.appendChild parent name).children id =
      if id = parent then tree.children parent ++ [tree.size] else tree.children id := by
  rw [children, node?_appendChild]
  by_cases hid : id = tree.size
  · have hparent : id ≠ parent := fun heq => Nat.ne_of_lt h (heq.symm.trans hid)
    rw [if_pos hid, if_neg hparent, children_eq_nil (Nat.le_of_eq hid.symm)]
    rfl
  rw [if_neg hid]
  split
  next =>
    obtain ⟨node, hnode⟩ := exists_node?_of_lt h
    rw [children, hnode]
    rfl
  next => rfl

theorem properties_appendChild :
    (tree.appendChild parent name).properties id = tree.properties id := by
  rw [properties, node?_appendChild]
  split
  next hid => rw [properties, node?_eq_none (Nat.le_of_eq hid.symm)]; rfl
  split
  next hid => rw [hid, properties]; cases tree.node? parent <;> rfl
  · rfl

/-- **When a child is added, and what the tree is then.** -/
theorem addNode_eq_ok_iff {tree' : DeviceTree} :
    tree.addNode parent name = .ok (tree', id) ↔
      validName name ∧ parent < tree.size ∧
        (∀ child ∈ tree.children parent, tree.name? child ≠ some name) ∧
        tree' = tree.appendChild parent name ∧ id = tree.size := by
  rw [addNode]
  by_cases hname : validName name
  · by_cases hparent : parent < tree.size
    · obtain ⟨node, hnode⟩ := exists_node?_of_lt hparent
      have hchildren : tree.children parent = node.children := by rw [children, hnode]; rfl
      simp only [hname, Bool.not_true, Bool.false_eq_true, if_false, hnode, hchildren, hparent,
        true_and]
      by_cases hany : node.children.any fun child => tree.name? child == some name
      · rw [if_pos hany]
        obtain ⟨child, hchild, hsame⟩ := List.any_eq_true.1 hany
        refine ⟨fun h => (by cases h), fun h => ?_⟩
        exact absurd (eq_of_beq hsame) (h.1 child hchild)
      · rw [if_neg hany]
        have hnone : ∀ child ∈ node.children, tree.name? child ≠ some name := by
          intro child hchild hsame
          exact hany (List.any_eq_true.2 ⟨child, hchild, beq_iff_eq.2 hsame⟩)
        constructor
        · intro h
          obtain ⟨rfl, rfl⟩ := Prod.mk.inj (Except.ok.inj h)
          exact ⟨hnone, rfl, rfl⟩
        · rintro ⟨-, rfl, rfl⟩
          rfl
    · simp [hname, hparent, node?_eq_none (Nat.not_lt.1 hparent)]
  · simp [hname]

/-! ## A property

One node changes, and of it only the properties do. -/

theorem size_putValue : (tree.putValue id name value).size = tree.size := by
  simp [putValue, size]

theorem node?_putValue {other : NodeId} :
    (tree.putValue id name value).node? other =
      if other = id then
        (tree.node? id).map fun n => { n with properties := putProperty name value n.properties }
      else tree.node? other := by
  rw [putValue, node?, Array.getElem?_modify]
  by_cases h : other = id
  · simp [h, node?]
  · simp [h, Ne.symm h, node?]

theorem name?_putValue {other : NodeId} :
    (tree.putValue id name value).name? other = tree.name? other := by
  rw [name?, node?_putValue]
  split
  next h => rw [h, name?]; cases tree.node? id <;> rfl
  · rfl

theorem parent?_putValue {other : NodeId} :
    (tree.putValue id name value).parent? other = tree.parent? other := by
  rw [parent?, node?_putValue]
  split
  next h => rw [h, parent?]; cases tree.node? id <;> rfl
  · rfl

theorem children_putValue {other : NodeId} :
    (tree.putValue id name value).children other = tree.children other := by
  rw [children, node?_putValue]
  split
  next h => rw [h, children]; cases tree.node? id <;> rfl
  · rfl

theorem properties_putValue {other : NodeId} (h : id < tree.size) :
    (tree.putValue id name value).properties other =
      if other = id then putProperty name value (tree.properties id)
      else tree.properties other := by
  rw [properties, node?_putValue]
  split
  next =>
    obtain ⟨node, hnode⟩ := exists_node?_of_lt h
    rw [properties, hnode]
    rfl
  · rfl

/-- **When a property is set, and what the tree is then.** -/
theorem setProperty_eq_ok_iff {tree' : DeviceTree} :
    tree.setProperty id name value = .ok tree' ↔
      id < tree.size ∧
        ((name ∉ phandleNames ∧ tree' = tree.putValue id name value) ∨
          name ∈ phandleNames ∧ ∃ phandle, phandleOfValue? value = some phandle ∧
            (∀ owner, tree.phandleOwner? phandle = some owner → owner = id) ∧
            tree' = (claimPhandle.reindex tree id phandle).putValue id name value) := by
  rw [setProperty]
  by_cases hid : id < tree.size
  · rw [if_pos hid]
    by_cases hname : name ∈ phandleNames
    · rw [if_pos hname, Except.map_eq_ok_iff, claimPhandle]
      cases hvalue : phandleOfValue? value with
      | none => simp [hname]
      | some phandle =>
        cases howner : tree.phandleOwner? phandle with
        | none => simp [hname, hid, howner, eq_comm]
        | some owner =>
          by_cases hsame : owner = id
          · simp [hname, hid, howner, hsame, eq_comm]
          · simp [hname, hid, howner, hsame]
    · rw [if_neg hname]
      simp [hid, hname, eq_comm]
  · rw [if_neg hid]
    simp [hid]

/-- **When a phandle is refused because another node owns it.** -/
theorem setProperty_eq_duplicatePhandle_iff {phandle : UInt32} {first second : NodeId} :
    tree.setProperty id name value = .error (.duplicatePhandle phandle first second) ↔
      id < tree.size ∧ name ∈ phandleNames ∧ phandleOfValue? value = some phandle ∧
        tree.phandleOwner? phandle = some first ∧ first ≠ id ∧ second = id := by
  rw [setProperty]
  by_cases hid : id < tree.size
  · by_cases hname : name ∈ phandleNames
    · rw [if_pos hid, if_pos hname, Except.map_eq_error_iff, claimPhandle]
      cases hvalue : phandleOfValue? value with
      | none => simp
      | some named =>
        cases howner : tree.phandleOwner? named with
        | none =>
          simp only [howner, hid, hname, true_and, reduceCtorEq, Option.some.injEq, false_iff]
          rintro ⟨rfl, hfirst, -⟩
          rw [howner] at hfirst
          cases hfirst
        | some owner =>
          by_cases hsame : owner = id
          · simp only [howner, hsame, hid, hname, ne_eq, not_true_eq_false, if_false, true_and,
              reduceCtorEq, Option.some.injEq, false_iff]
            rintro ⟨rfl, hfirst, hne, -⟩
            rw [howner, hsame, Option.some.injEq] at hfirst
            exact hne hfirst.symm
          · simp only [howner, hsame, hid, hname, ne_eq, not_false_eq_true, if_true, true_and,
              Except.error.injEq, EditError.duplicatePhandle.injEq, Option.some.injEq]
            constructor
            · rintro ⟨rfl, rfl, rfl⟩
              exact ⟨rfl, howner, hsame, rfl⟩
            · rintro ⟨rfl, hfirst, -, rfl⟩
              exact ⟨rfl, Option.some.inj (howner.symm.trans hfirst), rfl⟩
    · simp [hid, hname]
  · simp [hid]

/-! ## Refusals

The remaining lemmas are for those who hold a node that is there: what can still be wrong is the
child's name, or the phandle. -/

/-- A node that is there can be refused a child for the child's name only. -/
theorem error_of_addNode {error : EditError} (hparent : parent < tree.size)
    (h : tree.addNode parent name = .error error) : error = .invalidNodeName name := by
  obtain ⟨node, hnode⟩ := exists_node?_of_lt hparent
  rw [addNode, hnode] at h
  split at h
  next => exact (Except.error.inj h).symm
  next =>
    dsimp only at h
    split at h
    next => exact (Except.error.inj h).symm
    next => cases h

/-- A node that is there can be refused a property for its phandle only. -/
theorem error_of_setProperty {error : EditError} (hid : id < tree.size)
    (h : tree.setProperty id name value = .error error) :
    error = .invalidPhandle id ∨ ∃ phandle first, error = .duplicatePhandle phandle first id := by
  rw [setProperty, if_pos hid] at h
  split at h
  next =>
    rw [Except.map_eq_error_iff, claimPhandle] at h
    split at h
    next => exact Or.inl (Except.error.inj h).symm
    next phandle _ =>
      split at h
      next first _ =>
        split at h
        next => exact Or.inr ⟨phandle, first, (Except.error.inj h).symm⟩
        next => cases h
      next => cases h
  next => cases h

/-! ## Properties without their phandles -/

/-- A property leaves the links alone. -/
theorem links_of_setProperty {tree' : DeviceTree} (h : tree.setProperty id name value = .ok tree') :
    tree'.size = tree.size ∧ ∀ other, tree'.children other = tree.children other := by
  obtain ⟨-, ⟨-, rfl⟩ | ⟨-, phandle, -, -, rfl⟩⟩ := setProperty_eq_ok_iff.1 h
  · exact ⟨size_putValue, fun _ => children_putValue⟩
  · refine ⟨?_, fun other => ?_⟩
    · rw [size_putValue]
      rfl
    · rw [children_putValue]
      rfl

theorem name?_of_setProperty {tree' : DeviceTree} (h : tree.setProperty id name value = .ok tree')
    (other : NodeId) : tree'.name? other = tree.name? other := by
  obtain ⟨-, ⟨-, rfl⟩ | ⟨-, phandle, -, -, rfl⟩⟩ := setProperty_eq_ok_iff.1 h
  · exact name?_putValue
  · rw [name?_putValue]
    rfl

theorem properties_of_setProperty {tree' : DeviceTree}
    (h : tree.setProperty id name value = .ok tree') (other : NodeId) :
    tree'.properties other =
      if other = id then putProperty name value (tree.properties id)
      else tree.properties other := by
  obtain ⟨hid, ⟨-, rfl⟩ | ⟨-, phandle, -, -, rfl⟩⟩ := setProperty_eq_ok_iff.1 h
  · exact properties_putValue hid
  · have hindexed : id < (claimPhandle.reindex tree id phandle).size := hid
    exact properties_putValue hindexed

end DeviceTree
end RiscvTables
