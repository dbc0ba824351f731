import RiscvTables.Proofs.DeviceTree.Renumbering

/-!
# Which names a blob can hold

A blob ends every name with a zero byte, so no tree that is read from a blob has a name with U+0000
in it (`nulFree_of_ofBlob`).  The edits let such names through: all they ask of a node's name is
that it is not empty, has no `/` and is no sibling's, and of a property's name nothing at all.

So not every tree that edits lead to can be told from its blob.  A name is cut off at its U+0000
(`not_names_survive`), or what stands behind it is read as tokens of its own.  Apart from that every
name survives (`names_survive_iff`).
-/

set_option autoImplicit false

namespace RiscvTables

/-- The name that a token brings has no zero byte. -/
def Token.ZeroFree : Token → Prop
  | .beginNode name => 0 ∉ Utf8.encode name
  | .property name _ => 0 ∉ Utf8.encode name
  | .endNode | .nop | .finish => True

theorem Token.zeroFree_of_spells {strings bytes : Bytes} {token : Token}
    (h : token.Spells strings bytes) : token.ZeroFree := by
  cases token with
  | beginNode name => exact h.1
  | property name value =>
    obtain ⟨_, hname, -⟩ := h
    exact hname.1
  | endNode | nop | finish => trivial

namespace DeviceTree

variable {tree tree' : DeviceTree} {id parent : NodeId} {name : String} {value : Bytes}

/-! ## Names without U+0000 -/

/-- No name in the tree has the character U+0000. -/
structure NulFree (tree : DeviceTree) : Prop where
  name? : ∀ id name, tree.name? id = some name → '\x00' ∉ name.toList
  properties : ∀ id, ∀ p ∈ tree.properties id, '\x00' ∉ p.1.toList

namespace NulFree

theorem start (cpu : UInt32) : (Blob.Builder.start cpu).tree.NulFree where
  name? := by
    intro id name hname
    obtain rfl : id = NodeId.root := Nat.lt_one_iff.1 (lt_size_of_name? hname)
    obtain rfl : "" = name := Option.some.inj hname
    exact List.not_mem_nil
  properties := by
    intro id p hp
    obtain rfl : id = NodeId.root := Nat.lt_one_iff.1 (lt_size_of_mem_properties hp)
    cases hp

theorem addNode (h : tree.NulFree) (hname : '\x00' ∉ name.toList)
    (hedit : tree.addNode parent name = .ok (tree', id)) : tree'.NulFree := by
  obtain ⟨-, -, -, rfl, -⟩ := addNode_eq_ok_iff.1 hedit
  refine ⟨fun other found hfound => ?_, fun other => ?_⟩
  · rw [name?_appendChild] at hfound
    split at hfound
    next => exact Option.some.inj hfound ▸ hname
    next => exact h.name? other found hfound
  · rw [properties_appendChild]
    exact h.properties other

theorem setProperty (h : tree.NulFree) (hname : '\x00' ∉ name.toList)
    (hedit : tree.setProperty id name value = .ok tree') : tree'.NulFree := by
  refine ⟨fun other found => ?_, fun other p hp => ?_⟩
  · rw [name?_of_setProperty hedit]
    exact h.name? other found
  · rw [properties_of_setProperty hedit] at hp
    split at hp
    next =>
      have hmem := List.mem_map_of_mem (f := Prod.fst) hp
      rw [map_fst_putProperty] at hmem
      have hold : ∀ key ∈ (tree.properties id).map Prod.fst, '\x00' ∉ key.toList := by
        intro key hkey
        obtain ⟨old, hmem, rfl⟩ := List.mem_map.1 hkey
        exact h.properties id old hmem
      split at hmem
      next => exact hold p.1 hmem
      next =>
        rcases List.mem_append.1 hmem with hmem | hmem
        · exact hold p.1 hmem
        · exact List.mem_singleton.1 hmem ▸ hname
    next => exact h.properties other p hp

/-- **A token without a zero byte brings no U+0000 into the tree.** -/
theorem accept {builder builder' : Blob.Builder} {token : Token} (h : builder.tree.NulFree)
    (htoken : token.ZeroFree) (haccept : builder.accept token = .ok builder') :
    builder'.tree.NulFree := by
  rcases Blob.Builder.accept_cases haccept with ⟨_, _, _, _, rfl⟩ |
    ⟨name, parent, outer, tree, id, rfl, _, hedit, rfl⟩ | ⟨_, _, _, _, rfl⟩ |
    ⟨name, value, id, outer, tree, rfl, _, hedit, rfl⟩ | ⟨_, rfl⟩
  · exact h
  · exact h.addNode (mt (Utf8.zero_mem_encode_iff name).2 htoken) hedit
  · exact h
  · exact h.setProperty (mt (Utf8.zero_mem_encode_iff name).2 htoken) hedit
  · exact h

end NulFree

/-- **No tree that is read from a blob has a name with U+0000.** -/
theorem nulFree_of_ofBlob {data : Bytes} (h : ofBlob data = .ok tree) : tree.NulFree := by
  obtain ⟨blocks, steps, cursor, cpu, hrun⟩ := exists_run_of_ofBlob h
  obtain ⟨tokens, pieces, after, hpieces, -, -, hfold⟩ := Blob.Builder.exists_spells_of_run hrun
  obtain ⟨last, hlast, hfinish⟩ := Except.bind_eq_ok_iff.1 hfold
  obtain ⟨-, -, rfl⟩ := Blob.Builder.finish_eq_ok_iff.1 hfinish
  obtain ⟨hzeroFree, -⟩ := (List.forall₂_and_left _ _).1
    (hpieces.imp fun token piece hpiece => ⟨Token.zeroFree_of_spells hpiece, hpiece⟩)
  refine Except.foldlM_preserves_of_forall_mem (P := fun builder => builder.tree.NulFree)
    (fun token htoken _ _ haccept hnul => ?_) hlast (NulFree.start cpu)
  exact hnul.accept (hzeroFree token (List.mem_append_left _ htoken)) haccept

/-! ## Names that survive -/

/-- The names in a tree, node by node in pre-order: the node's own, and those of its properties. -/
def nameList (tree : DeviceTree) : List (Option String × List String) :=
  tree.preorder.map fun id => (tree.name? id, (tree.properties id).map Prod.fst)

theorem nulFree_iff_nameList (h : tree.WellFormed) :
    tree.NulFree ↔ ∀ names ∈ tree.nameList,
      (∀ name ∈ names.1, '\x00' ∉ name.toList) ∧ ∀ name ∈ names.2, '\x00' ∉ name.toList := by
  constructor
  · intro hnul names hnames
    obtain ⟨id, -, rfl⟩ := List.mem_map.1 hnames
    refine ⟨fun name hname => hnul.name? id name hname, fun name hname => ?_⟩
    obtain ⟨p, hp, rfl⟩ := List.mem_map.1 hname
    exact hnul.properties id p hp
  · intro hall
    have hnode : ∀ id, id < tree.size → (tree.name? id, (tree.properties id).map Prod.fst) ∈
        tree.nameList := fun id hid => List.mem_map_of_mem (h.mem_preorder_iff.2 hid)
    refine ⟨fun id name hname => ?_, fun id p hp => ?_⟩
    · exact (hall _ (hnode id (lt_size_of_name? hname))).1 name hname
    · exact (hall _ (hnode id (lt_size_of_mem_properties hp))).2 p.1 (List.mem_map_of_mem hp)

/-- A tree of which every node is another's, renumbered, has the same names. -/
theorem Renumbers.nameList {renumber : NodeId → NodeId} (h : Renumbers renumber tree tree')
    (hwf : tree.WellFormed) (hwf' : tree'.WellFormed) : tree'.nameList = tree.nameList := by
  have hpreorder : tree'.preorder = tree.preorder.map renumber := by
    rw [← hwf.nodeList_eq_preorder, ← hwf'.nodeList_eq_preorder, h.nodeList]
  rw [DeviceTree.nameList, DeviceTree.nameList, hpreorder, List.map_map]
  refine List.map_congr_left fun id _ => ?_
  rw [Function.comp_apply, h.name?, h.properties]

theorem NulFree.encodable (h : tree.NulFree) (hsize : tree.toBlob.length < UInt32.size) :
    tree.Encodable where
  zero_notMem_name := by
    intro node hnode hzero
    obtain ⟨id, hid⟩ := Array.mem_iff_getElem?.1 hnode
    have hname : tree.name? id = some node.name := by rw [DeviceTree.name?, node?, hid]; rfl
    exact h.name? id node.name hname ((Utf8.zero_mem_encode_iff _).1 hzero)
  zero_notMem_property := by
    intro node hnode p hp hzero
    obtain ⟨id, hid⟩ := Array.mem_iff_getElem?.1 hnode
    have hproperties : tree.properties id = node.properties := by
      rw [DeviceTree.properties, node?, hid]
      rfl
    exact h.properties id p (hproperties ▸ hp) ((Utf8.zero_mem_encode_iff _).1 hzero)
  length_lt := hsize

/-- **The names in a tree survive being written and read back just if none of them has U+0000.**
The tree is any that edits lead to, without phandles, and with a blob whose size fits the header. -/
theorem names_survive_iff {edits : List Edit} (hedits : ofEdits? edits = some tree)
    (hphandles : ∀ node ∈ tree.nodes, ∀ name ∈ phandleNames, node.property? name = none)
    (hsize : tree.toBlob.length < UInt32.size) :
    (∃ tree', ofBlob tree.toBlob = .ok tree' ∧ tree'.nameList = tree.nameList) ↔
      tree.NulFree := by
  have hreachable := reachable_of_ofEdits? hedits
  constructor
  · rintro ⟨tree', hread, hnames⟩
    have hnul := nulFree_of_ofBlob hread
    rw [nulFree_iff_nameList (Reachable.ofBlob hread).wellFormed, hnames] at hnul
    exact (nulFree_iff_nameList hreachable.wellFormed).2 hnul
  · intro hnul
    have hone : tree.OnePhandle := by
      intro node hnode value hvalue
      rw [hphandles node hnode "phandle" (by decide)] at hvalue
      cases hvalue
    obtain ⟨tree', hread, hrenumbers⟩ :=
      renumbers_ofBlob hreachable (hnul.encodable hsize) hone
    exact ⟨tree', hread,
      hrenumbers.nameList hreachable.wellFormed (Reachable.ofBlob hread).wellFormed⟩

/-- A node whose name has U+0000 in it. -/
def cutNameEdits : List Edit :=
  [.addNode NodeId.root "a\x00b"]

/-- **Not every name that the edits accept survives.**  Only the part before U+0000 does. -/
theorem not_names_survive :
    ¬ ∀ edits tree, ofEdits? edits = some tree →
      (∀ node ∈ tree.nodes, ∀ name ∈ phandleNames, node.property? name = none) →
      tree.toBlob.length < UInt32.size →
        ∃ tree', ofBlob tree.toBlob = .ok tree' ∧ tree'.nameList = tree.nameList := by
  intro h
  have hruns : (ofEdits? cutNameEdits).any fun tree =>
      decide (∀ node ∈ tree.nodes, ∀ name ∈ phandleNames, node.property? name = none) &&
      decide (tree.toBlob.length < UInt32.size) &&
      decide (tree.nameList = [(some "", []), (some "a\x00b", [])]) &&
      (ofBlob tree.toBlob).toOption.any fun tree' =>
        decide (tree'.nameList = [(some "", []), (some "a", [])]) := by
    decide +kernel
  obtain ⟨tree, htree, hruns⟩ := (Option.any_eq_true _ _).1 hruns
  simp only [Bool.and_eq_true, decide_eq_true_eq] at hruns
  obtain ⟨⟨⟨hphandles, hsize⟩, hwritten⟩, hread⟩ := hruns
  obtain ⟨cut, hcutRead, hcut⟩ := Except.exists_ok_of_any hread
  obtain ⟨tree', hok, hnames⟩ := h cutNameEdits tree htree hphandles hsize
  rw [hcutRead] at hok
  obtain rfl := Except.ok.inj hok
  have hcut := of_decide_eq_true hcut
  rw [hnames, hwritten] at hcut
  exact absurd hcut (by decide)

/-- The part behind U+0000 can be tokens: here the end of the node and the beginning of another. -/
example : (do
      let tree ← ofEdits? [.addNode NodeId.root "abc\x00\x00\x00\x00\x02\x00\x00\x00\x01x"]
      let tree' ← (ofBlob tree.toBlob).toOption
      return tree'.preorder.map tree'.name?) =
    some [some "", some "abc", some "x"] := by
  decide +kernel

/-- A tree that is not in pre-order, with names that say nothing to the blob.  A node whose name is
cut is added to it. -/
def plainNameEdits : List Edit :=
  [.addNode NodeId.root "b", .addNode NodeId.root "é", .addNode 1 "\x01\x02",
    .setProperty 3 "" [], .setProperty 1 "a/b" [0], .setProperty 3 "a/b" [1]]

theorem names_survive_plainNameEdits :
    (∃ tree tree', ofEdits? plainNameEdits = some tree ∧
      (∀ node ∈ tree.nodes, ∀ name ∈ phandleNames, node.property? name = none) ∧
      tree.toBlob.length < UInt32.size ∧ ofBlob tree.toBlob = .ok tree' ∧
      tree.nameList = [(some "", []), (some "b", ["a/b"]), (some "\x01\x02", ["", "a/b"]),
        (some "é", [])] ∧
      tree'.nameList = tree.nameList) ∧
    ∃ tree, ofEdits? (plainNameEdits ++ cutNameEdits) = some tree ∧
      (∀ node ∈ tree.nodes, ∀ name ∈ phandleNames, node.property? name = none) ∧
      tree.toBlob.length < UInt32.size ∧ ¬ tree.NulFree ∧
      ¬ ∃ tree', ofBlob tree.toBlob = .ok tree' ∧ tree'.nameList = tree.nameList := by
  constructor
  · have hruns : (ofEdits? plainNameEdits).any fun tree =>
        decide (∀ node ∈ tree.nodes, ∀ name ∈ phandleNames, node.property? name = none) &&
        decide (tree.toBlob.length < UInt32.size) &&
        decide (tree.nameList = [(some "", []), (some "b", ["a/b"]),
          (some "\x01\x02", ["", "a/b"]), (some "é", [])]) := by
      decide +kernel
    obtain ⟨tree, htree, hruns⟩ := (Option.any_eq_true _ _).1 hruns
    simp only [Bool.and_eq_true, decide_eq_true_eq] at hruns
    obtain ⟨⟨hphandles, hsize⟩, hwritten⟩ := hruns
    have hnul : tree.NulFree := by
      rw [nulFree_iff_nameList (reachable_of_ofEdits? htree).wellFormed, hwritten]
      decide
    obtain ⟨tree', hread, hnames⟩ := (names_survive_iff htree hphandles hsize).2 hnul
    exact ⟨tree, tree', htree, hphandles, hsize, hread, hwritten, hnames⟩
  · have hruns : (ofEdits? (plainNameEdits ++ cutNameEdits)).any fun tree =>
        decide (∀ node ∈ tree.nodes, ∀ name ∈ phandleNames, node.property? name = none) &&
        decide (tree.toBlob.length < UInt32.size) &&
        decide (tree.name? 4 = some "a\x00b") := by
      decide +kernel
    obtain ⟨tree, htree, hruns⟩ := (Option.any_eq_true _ _).1 hruns
    simp only [Bool.and_eq_true, decide_eq_true_eq] at hruns
    obtain ⟨⟨hphandles, hsize⟩, hname⟩ := hruns
    have hnul : ¬ tree.NulFree := fun hnul => hnul.name? 4 _ hname (by decide)
    exact ⟨tree, htree, hphandles, hsize, hnul,
      fun hsurvive => hnul ((names_survive_iff htree hphandles hsize).1 hsurvive)⟩

end DeviceTree
end RiscvTables
