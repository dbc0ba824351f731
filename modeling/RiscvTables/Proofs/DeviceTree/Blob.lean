import RiscvTables.Proofs.DeviceTree.Header
import RiscvTables.Proofs.DeviceTree.Preorder
import RiscvTables.Proofs.DeviceTree.Token

/-!
# Reading a written blob

`ofBlob` finds the two blocks of a blob from `toBlob` where its header says they are, and feeds
the tokens of the tree to a builder (`ofBlob_toBlob_eq`).  What the builder makes of them is a
matter of trees and not of bytes.

`Encodable` is what a tree needs for this: names without zero bytes, and a blob whose size fits
the header.
-/

set_option autoImplicit false

namespace RiscvTables

/-- A word that is written as one of a list of words is read as that one. -/
theorem Blob.headerWord_flatMap_encode {words : List Nat} {i n : Nat} (rest : Bytes)
    (hword : words[i]? = some n) (hn : n < UInt32.size) :
    headerWord (words.flatMap (BigEndian.encode 4) ++ rest) i = n := by
  obtain ⟨hlt, rfl⟩ := List.getElem?_eq_some_iff.1 hword
  have hlength : ((words.take i).flatMap (BigEndian.encode 4)).length = 4 * i := by
    simp [List.length_flatMap, Nat.le_of_lt hlt, Nat.mul_comm]
  have hsplit : words.flatMap (BigEndian.encode 4) ++ rest =
      (words.take i).flatMap (BigEndian.encode 4) ++ (BigEndian.encode 4 words[i] ++
        ((words.drop (i + 1)).flatMap (BigEndian.encode 4) ++ rest)) := by
    rw [← List.append_assoc, ← List.append_assoc, List.append_assoc (List.flatMap _ _),
      ← List.flatMap_cons, ← List.flatMap_append, ← List.drop_eq_getElem_cons hlt,
      List.take_append_drop]
  rw [headerWord, hsplit, List.drop_left' hlength, List.take_left' (BigEndian.length_encode 4 _),
    BigEndian.decode_encode hn]

namespace DeviceTree

variable {tree : DeviceTree}

/-! ## The header -/

/-- The ten words of the header. -/
def headerWords (tree : DeviceTree) : List Nat :=
  [Blob.magic, 56 + tree.structureBlock.length + tree.stringsBlock.length, 56,
    56 + tree.structureBlock.length, 40, 17, 16, tree.bootCpu.toNat, tree.stringsBlock.length,
    tree.structureBlock.length]

theorem toBlob_eq_append :
    tree.toBlob = tree.headerWords.flatMap (BigEndian.encode 4) ++
      (List.replicate Blob.reservationEnd 0 ++ (tree.structureBlock ++ tree.stringsBlock)) := by
  simp only [toBlob, headerWords, Blob.headerSize, Blob.reservationEnd, List.append_assoc]

theorem length_front :
    (tree.headerWords.flatMap (BigEndian.encode 4) ++
      List.replicate Blob.reservationEnd 0).length = 56 := by
  simp [headerWords, Blob.reservationEnd]

theorem length_toBlob :
    tree.toBlob.length = 56 + tree.structureBlock.length + tree.stringsBlock.length := by
  rw [toBlob_eq_append, ← List.append_assoc, List.length_append, length_front, List.length_append,
    Nat.add_assoc]

section Header

variable (hsize : tree.toBlob.length < UInt32.size)
include hsize

theorem headerWord_toBlob {i n : Nat} (hword : tree.headerWords[i]? = some n) :
    Blob.headerWord tree.toBlob i = n := by
  rw [toBlob_eq_append]
  refine Blob.headerWord_flatMap_encode _ hword ?_
  have hcpu := tree.bootCpu.toNat_lt
  have hmem := List.mem_of_getElem? hword
  rw [length_toBlob] at hsize
  simp only [headerWords, Blob.magic, List.mem_cons, List.not_mem_nil, or_false] at hmem
  simp only [UInt32.size] at hsize hcpu ⊢
  omega

theorem structureStop_toBlob :
    Blob.structureStop tree.toBlob = 56 + tree.structureBlock.length := by
  have hversion : Blob.headerWord tree.toBlob 5 = 17 := headerWord_toBlob hsize rfl
  have hstart : Blob.headerWord tree.toBlob 2 = 56 := headerWord_toBlob hsize rfl
  have hlength : Blob.headerWord tree.toBlob 9 = tree.structureBlock.length :=
    headerWord_toBlob hsize rfl
  rw [Blob.structureStop, hversion, if_pos (Nat.le_refl 17), hstart, hlength]

theorem structureBytes_toBlob : Blob.structureBytes tree.toBlob = tree.structureBlock := by
  have hstart : Blob.headerWord tree.toBlob 2 = 56 := headerWord_toBlob hsize rfl
  rw [Blob.structureBytes, structureStop_toBlob hsize, hstart, toBlob_eq_append,
    ← List.append_assoc, ← List.append_assoc,
    List.take_left' (by rw [List.length_append, length_front]), List.drop_left' length_front]

theorem stringsBytes_toBlob : Blob.stringsBytes tree.toBlob = tree.stringsBlock := by
  have hstart : Blob.headerWord tree.toBlob 3 = 56 + tree.structureBlock.length :=
    headerWord_toBlob hsize rfl
  have hlength : Blob.headerWord tree.toBlob 8 = tree.stringsBlock.length :=
    headerWord_toBlob hsize rfl
  rw [Blob.stringsBytes, hstart, hlength, ← length_toBlob, List.take_length, toBlob_eq_append,
    ← List.append_assoc, ← List.append_assoc,
    List.drop_left' (by rw [List.length_append, length_front])]

theorem headerCpu_toBlob : Blob.headerCpu tree.toBlob = tree.bootCpu := by
  have hcpu : Blob.headerWord tree.toBlob 7 = tree.bootCpu.toNat := headerWord_toBlob hsize rfl
  rw [Blob.headerCpu, hcpu, UInt32.ofNat_toNat]

theorem validHeader_toBlob : Blob.ValidHeader tree.toBlob := by
  have htotal : Blob.headerWord tree.toBlob 1 = tree.toBlob.length :=
    (headerWord_toBlob hsize rfl).trans length_toBlob.symm
  have hstart : Blob.headerWord tree.toBlob 2 = 56 := headerWord_toBlob hsize rfl
  have hstrings : Blob.headerWord tree.toBlob 3 = 56 + tree.structureBlock.length :=
    headerWord_toBlob hsize rfl
  have hversion : Blob.headerWord tree.toBlob 5 = 17 := headerWord_toBlob hsize rfl
  have hcompatible : Blob.headerWord tree.toBlob 6 = 16 := headerWord_toBlob hsize rfl
  have hlength : Blob.headerWord tree.toBlob 8 = tree.stringsBlock.length :=
    headerWord_toBlob hsize rfl
  have hblob : tree.toBlob.length = 56 + tree.structureBlock.length + tree.stringsBlock.length :=
    length_toBlob
  exact {
    length_ge := by omega
    magic := headerWord_toBlob hsize rfl
    version_ge := by omega
    lastCompatible_le := by omega
    totalSize_le := Nat.le_of_eq htotal
    structureStart_le := by rw [hstart, structureStop_toBlob hsize]; omega
    structureStop_le := by rw [htotal, structureStop_toBlob hsize]; omega
    stringsStop_le := by rw [hstrings, hlength, htotal, hblob] }

end Header

/-! ## Tokens -/

/-- The trees that survive being written. -/
structure Encodable (tree : DeviceTree) : Prop where
  zero_notMem_name : ∀ node ∈ tree.nodes, 0 ∉ Utf8.encode node.name
  zero_notMem_property : ∀ node ∈ tree.nodes, ∀ p ∈ node.properties, 0 ∉ Utf8.encode p.1
  length_lt : tree.toBlob.length < UInt32.size

theorem nodeTokens_succ {id : NodeId} {name : String} (levels : Nat)
    (hname : tree.name? id = some name) :
    tree.nodeTokens (levels + 1) id =
      .beginNode name :: (tree.properties id).map (fun p => .property p.1 p.2) ++
        (tree.children id).flatMap (tree.nodeTokens levels) ++ [.endNode] := by
  rw [nodeTokens, node?_eq_some_of_name? hname]

/-- More generations than there are bring no more tokens. -/
theorem WellFormed.nodeTokens_eq_of_le (h : tree.WellFormed) {levels more id : Nat}
    (hid : id < tree.size) (hlevels : tree.size ≤ id + levels) (hmore : tree.size ≤ id + more) :
    tree.nodeTokens levels id = tree.nodeTokens more id := by
  induction levels generalizing id more with
  | zero => exact absurd hid (Nat.not_lt.2 hlevels)
  | succ levels ih =>
    cases more with
    | zero => exact absurd hid (Nat.not_lt.2 hmore)
    | succ more =>
      have hchildren : ∀ child ∈ tree.children id,
          tree.nodeTokens levels child = tree.nodeTokens more child := fun child hchild =>
        ih (h.lt_size_of_mem_children hchild) (h.size_le_add_of_mem_children hlevels hchild)
          (h.size_le_add_of_mem_children hmore hchild)
      obtain ⟨name, hname⟩ := exists_name?_of_lt hid
      rw [nodeTokens_succ levels hname, nodeTokens_succ more hname, List.flatMap_congr hchildren]

/-- Every token is about a node of the subtree. -/
theorem exists_of_mem_nodeTokens {levels : Nat} {id : NodeId} {token : Token}
    (h : token ∈ tree.nodeTokens levels id) :
    token = .endNode ∨ ∃ other ∈ tree.subtree levels id,
      (∃ name, tree.name? other = some name ∧ token = .beginNode name) ∨
        ∃ p ∈ tree.properties other, token = .property p.1 p.2 := by
  induction levels generalizing id with
  | zero => cases h
  | succ levels ih =>
    cases hname : tree.name? id with
    | none =>
      rw [name?, Option.map_eq_none_iff] at hname
      rw [nodeTokens, hname] at h
      cases h
    | some name =>
      have hself : id ∈ tree.subtree (levels + 1) id := List.mem_cons_self
      rw [nodeTokens_succ levels hname] at h
      simp only [List.cons_append, List.mem_cons, List.mem_append, List.mem_map,
        List.mem_flatMap, List.not_mem_nil, or_false] at h
      rcases h with rfl | (⟨p, hp, rfl⟩ | ⟨child, hchild, h⟩) | rfl
      · exact Or.inr ⟨id, hself, Or.inl ⟨name, hname, rfl⟩⟩
      · exact Or.inr ⟨id, hself, Or.inr ⟨p, hp, rfl⟩⟩
      · refine (ih h).imp_right ?_
        rintro ⟨other, hother, habout⟩
        exact ⟨other, List.mem_cons_of_mem _ (List.mem_flatMap.2 ⟨child, hchild, hother⟩), habout⟩
      · exact Or.inl rfl

theorem propertyNames_eq :
    tree.propertyNames =
      (tree.preorder.flatMap fun id => (tree.properties id).map Prod.fst).eraseDups := by
  rw [propertyNames]
  congr 2
  funext id
  rw [properties]
  cases tree.node? id <;> rfl

theorem mem_propertyNames_iff {name : String} :
    name ∈ tree.propertyNames ↔
      ∃ id ∈ tree.preorder, ∃ value, (name, value) ∈ tree.properties id := by
  simp [propertyNames_eq]

theorem length_lt_of_property_mem_tokens (hsize : tree.toBlob.length < UInt32.size)
    {name : String} {value : Bytes} (h : .property name value ∈ tree.tokens) :
    value.length < UInt32.size := by
  have hpiece : ((Token.property name value).encode tree.propertyNames).length ≤
      tree.structureBlock.length :=
    (List.sublist_flatten_of_mem (List.mem_map_of_mem h)).length_le
  have hvalue := Bytes.le_roundUp value.length (show 0 < 4 by decide)
  rw [length_toBlob] at hsize
  rw [Token.encode, List.length_append, Bytes.length_padTo _ (show 0 < 4 by decide)] at hpiece
  omega

theorem WellFormed.writable_of_mem_nodeTokens (h : tree.WellFormed) (hencodable : tree.Encodable)
    {token : Token} (htoken : token ∈ tree.nodeTokens tree.size NodeId.root) :
    token.Writable tree.propertyNames ∧ token ≠ .finish := by
  rcases exists_of_mem_nodeTokens htoken with
    rfl | ⟨id, hid, ⟨name, hname, rfl⟩ | ⟨⟨name, value⟩, hp, rfl⟩⟩
  · exact ⟨trivial, Token.noConfusion⟩
  · obtain ⟨node, hnode, rfl⟩ := Option.map_eq_some_iff.1 hname
    exact ⟨hencodable.zero_notMem_name node (Array.mem_of_getElem? hnode), Token.noConfusion⟩
  · refine ⟨⟨mem_propertyNames_iff.2 ⟨id, ?_, value, hp⟩, ?_⟩, Token.noConfusion⟩
    · rwa [h.preorder_eq_subtree]
    · exact length_lt_of_property_mem_tokens hencodable.length_lt (List.mem_append_left _ htoken)

/-- **The builder sees the tokens of the tree.** -/
theorem WellFormed.ofBlob_toBlob_eq (h : tree.WellFormed) (hencodable : tree.Encodable) :
    ofBlob tree.toBlob =
      (tree.nodeTokens tree.size NodeId.root).foldlM Blob.Builder.accept
        (Blob.Builder.start tree.bootCpu) >>= Blob.Builder.finish := by
  have hlength := hencodable.length_lt
  rw [length_toBlob] at hlength
  have hnames : ∀ name ∈ tree.propertyNames, 0 ∉ Utf8.encode name := by
    intro name hname
    obtain ⟨id, -, value, hp⟩ := mem_propertyNames_iff.1 hname
    obtain ⟨node, hnode, hp⟩ := exists_mem_nodes_of_mem_properties hp
    exact hencodable.zero_notMem_property node hnode (name, value) hp
  have hsteps : (tree.nodeTokens tree.size NodeId.root).length <
      tree.structureBlock.length / 4 := by
    have hle : ∀ tokens : List Token,
        4 * tokens.length ≤ (tokens.flatMap (Token.encode tree.propertyNames)).length := by
      intro tokens
      induction tokens with
      | nil => exact Nat.le_refl 0
      | cons token tokens ih =>
        have := Token.four_le_length_encode tree.propertyNames token
        rw [List.flatMap_cons, List.length_append, List.length_cons]
        omega
    have := hle tree.tokens
    rw [tokens, List.length_append, List.length_singleton] at this
    rw [structureBlock, tokens]
    omega
  have hstrings : (PropertyValue.ofStrings tree.propertyNames).length < UInt32.size := by
    show tree.stringsBlock.length < UInt32.size
    omega
  have hblocks : (Token.Blocks.mk (Blob.headerWord tree.toBlob 2) (Blob.headerWord tree.toBlob 3)
      tree.stringsBlock).strings = PropertyValue.ofStrings tree.propertyNames := rfl
  have hrun := Blob.Builder.run_encode hblocks hnames hstrings
    (fun token htoken => h.writable_of_mem_nodeTokens hencodable htoken) (Nat.zero_mod 4) hsteps []
    (Blob.Builder.start tree.bootCpu)
  rw [List.append_nil] at hrun
  rw [ofBlob_eq_run (validHeader_toBlob hencodable.length_lt),
    structureBytes_toBlob hencodable.length_lt, stringsBytes_toBlob hencodable.length_lt,
    headerCpu_toBlob hencodable.length_lt]
  exact hrun

end DeviceTree
end RiscvTables
