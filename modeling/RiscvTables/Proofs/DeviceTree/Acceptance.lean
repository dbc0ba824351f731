import RiscvTables.Proofs.DeviceTree.Grammar
import RiscvTables.Proofs.DeviceTree.Header

/-!
# Blobs that are accepted

Which bytes are a tree.  `Description.StandsIn` says which description the structure block spells,
with whatever bytes between the tokens and behind the last one.

A blob is accepted just if its header is valid and a description stands in it whose edits succeed,
and the tree is the one the description describes (`DeviceTree.ofBlob_grammar`).
-/

set_option autoImplicit false

namespace RiscvTables

/-- The description is what the structure block starts with. -/
def Blob.Description.StandsIn (description : Description) (data : Bytes) : Prop :=
  ∃ pieces after, List.Forall₂ (Token.Spells (stringsBytes data))
      (description.tokens ++ [.finish]) pieces ∧
    structureBytes data = pieces.flatten ++ after

/-- A block has room for the tokens that stand in it, so its reader does not come to its bound. -/
theorem Blob.Description.length_tokens_lt {description : Description} {strings block : Bytes}
    {pieces : List Bytes} {after : Bytes}
    (hpieces : List.Forall₂ (Token.Spells strings) (description.tokens ++ [.finish]) pieces)
    (hblock : block = pieces.flatten ++ after) : description.tokens.length < block.length / 4 := by
  have hlength := Token.length_flatten_of_spells hpieces
  rw [List.length_append, List.length_singleton] at hlength
  rw [hblock, List.length_append]
  omega

namespace DeviceTree

open Blob

variable {data : Bytes}

/-- **A description that stands in a blob says what is read from it.** -/
theorem ofBlob_eq_replay {description : Description} (hheader : ValidHeader data)
    (hstands : description.StandsIn data) :
    ofBlob data = ofEdit (description.replay (headerCpu data)) := by
  obtain ⟨pieces, after, hpieces, hblock⟩ := hstands
  have hsteps := Description.length_tokens_lt hpieces hblock
  rw [ofBlob_eq_run hheader]
  rw [hblock] at hsteps ⊢
  rw [Builder.run_of_spells hpieces description.finish_notMem_tokens (Nat.zero_mod 4) hsteps,
    Builder.foldlM_description]

/-- **In every blob that is read there stands a description.** -/
theorem exists_standsIn_of_ofBlob {tree : DeviceTree} (h : ofBlob data = .ok tree) :
    ∃ description : Description, description.StandsIn data := by
  rw [ofBlob_eq_run (validHeader_of_ofBlob h)] at h
  obtain ⟨tokens, pieces, after, hpieces, hfinish, hblock, hfold⟩ := Builder.exists_spells_of_run h
  obtain ⟨description, rfl⟩ := Builder.exists_description hfinish hfold
  exact ⟨description, pieces, after, hpieces, hblock⟩

/-! ## What is accepted -/

theorem exists_addNode_iff {tree : DeviceTree} {parent : NodeId} {name : String} :
    (∃ made, tree.addNode parent name = .ok made) ↔
      (name ≠ "" ∧ '/' ∉ name.toList) ∧ parent < tree.size ∧
        ∀ child ∈ tree.children parent, tree.name? child ≠ some name := by
  rw [Prod.exists]
  simp only [addNode_eq_ok_iff, validName, decide_eq_true_eq]
  constructor
  · rintro ⟨_, _, hname, hparent, hsiblings, -, -⟩
    exact ⟨hname, hparent, hsiblings⟩
  · rintro ⟨hname, hparent, hsiblings⟩
    exact ⟨_, _, hname, hparent, hsiblings, rfl, rfl⟩

theorem exists_setProperty_iff {tree : DeviceTree} {id : NodeId} {name : String} {value : Bytes} :
    (∃ made, tree.setProperty id name value = .ok made) ↔
      id < tree.size ∧ (name ∈ phandleNames → ∃ phandle, phandleOfValue? value = some phandle ∧
        ∀ owner, tree.phandleOwner? phandle = some owner → owner = id) := by
  simp only [setProperty_eq_ok_iff]
  constructor
  · rintro ⟨_, hid, ⟨hname, -⟩ | ⟨-, phandle, hvalue, howner, -⟩⟩
    · exact ⟨hid, fun hmem => absurd hmem hname⟩
    · exact ⟨hid, fun _ => ⟨phandle, hvalue, howner⟩⟩
  · rintro ⟨hid, hphandle⟩
    by_cases hname : name ∈ phandleNames
    · obtain ⟨phandle, hvalue, howner⟩ := hphandle hname
      exact ⟨_, hid, Or.inr ⟨hname, phandle, hvalue, howner, rfl⟩⟩
    · exact ⟨_, hid, Or.inl ⟨hname, rfl⟩⟩

/-- **A blob is accepted just if its header is valid and a description stands in it whose edits
succeed.**  The tree has the nodes of the description, in order of appearance.  Nothing else about
the blob counts: not the name of the root, not the tokens that do nothing, and none of the bytes
that a description leaves open. -/
theorem ofBlob_grammar (data : Bytes) :
    (∀ tree, ofBlob data = .ok tree ↔
      ValidHeader data ∧ ∃ description : Description, description.StandsIn data ∧
        description.replay (headerCpu data) = .ok tree) ∧
    (∀ tree (description : Description), ofBlob data = .ok tree → description.StandsIn data →
      tree.nodes.toList = description.nodes ∧ tree.bootCpu = headerCpu data) ∧
    (∀ other (description description' : Description), ValidHeader data → ValidHeader other →
      description.StandsIn data → description'.StandsIn other →
      description.items.dropNops = description'.items.dropNops →
      headerCpu data = headerCpu other → ofBlob data = ofBlob other) ∧
    (∀ (tree : DeviceTree) parent name, (∃ made, tree.addNode parent name = .ok made) ↔
      (name ≠ "" ∧ '/' ∉ name.toList) ∧ parent < tree.size ∧
        ∀ child ∈ tree.children parent, tree.name? child ≠ some name) ∧
    (∀ (tree : DeviceTree) id name value, (∃ made, tree.setProperty id name value = .ok made) ↔
      id < tree.size ∧ (name ∈ phandleNames → ∃ phandle, phandleOfValue? value = some phandle ∧
        ∀ owner, tree.phandleOwner? phandle = some owner → owner = id)) := by
  refine ⟨fun tree => ⟨fun h => ?_, ?_⟩, fun tree description h hstands => ?_, ?_,
    fun _ _ _ => exists_addNode_iff, fun _ _ _ _ => exists_setProperty_iff⟩
  · obtain ⟨description, hstands⟩ := exists_standsIn_of_ofBlob h
    have hheader := validHeader_of_ofBlob h
    refine ⟨hheader, description, hstands, ?_⟩
    rwa [ofBlob_eq_replay hheader hstands, ofEdit, Except.mapError_eq_ok_iff] at h
  · rintro ⟨hheader, description, hstands, h⟩
    rwa [ofBlob_eq_replay hheader hstands, ofEdit, Except.mapError_eq_ok_iff]
  · rw [ofBlob_eq_replay (validHeader_of_ofBlob h) hstands, ofEdit, Except.mapError_eq_ok_iff] at h
    exact Description.nodes_of_replay h
  · intro other description description' hdata hother hstands hstands' hitems hcpu
    rw [ofBlob_eq_replay hdata hstands, ofBlob_eq_replay hother hstands', hcpu,
      Description.replay, Description.replay, ← Items.replay_dropNops, hitems,
      Items.replay_dropNops]

/-- What `foreignBlob` describes: a property that is set twice, and a node. -/
def foreignDescription : Description where
  before := 1
  name := "x"
  items := .property "a" [1] <| .nop <| .property "a" [2, 3, 4, 5] <| .node "n" (.nop .none) .none
  after := 1

/-- The tokens of `foreignDescription` as no tidy writer would spell them: filled up with what was
at hand. -/
def foreignPieces : List Bytes :=
  [[0, 0, 0, 4], [0, 0, 0, 1, 120, 0, 7, 7],
    [0, 0, 0, 3, 0, 0, 0, 1, 0, 0, 0, 1, 1, 9, 9, 9], [0, 0, 0, 4],
    [0, 0, 0, 3, 0, 0, 0, 4, 0, 0, 0, 1, 2, 3, 4, 5], [0, 0, 0, 1, 110, 0, 5, 6],
    [0, 0, 0, 4], [0, 0, 0, 2], [0, 0, 0, 2], [0, 0, 0, 4], [0, 0, 0, 9]]

/-- A blob without a reservation map, with two bytes behind the last token and with one behind
the end that its header gives. -/
def foreignBlob : Bytes :=
  [0xd00dfeed, 121, 40, 118, 0, 17, 2, 5, 3, 78].flatMap (BigEndian.encode 4) ++
    foreignPieces.flatten ++ [0xde, 0xad] ++ [0xff, 97, 0] ++ [1]

theorem foreignDescription_standsIn : foreignDescription.StandsIn foreignBlob := by
  have hname : Token.NameAt (stringsBytes foreignBlob) 1 "a" :=
    ⟨by decide +kernel, [0xff], [], by decide +kernel, rfl⟩
  have htokens : foreignDescription.tokens ++ [.finish] =
      [.nop, .beginNode "x", .property "a" [1], .nop, .property "a" [2, 3, 4, 5], .beginNode "n",
        .nop, .endNode, .endNode, .nop, .finish] := rfl
  refine ⟨foreignPieces, [0xde, 0xad], ?_, by decide +kernel⟩
  rw [htokens, foreignPieces]
  refine .cons rfl <| .cons ⟨by decide +kernel, [7, 7], ?_, ?_, ?_⟩ <|
    .cons ⟨1, hname, ?_, ?_, [9, 9, 9], ?_, ?_, ?_⟩ <| .cons rfl <|
    .cons ⟨1, hname, ?_, ?_, [], ?_, ?_, ?_⟩ <| .cons ⟨by decide +kernel, [5, 6], ?_, ?_, ?_⟩ <|
    .cons rfl <| .cons rfl <| .cons rfl <| .cons rfl <| .cons rfl .nil
  all_goals decide +kernel

theorem ofBlob_grammar_foreignBlob :
    ∃ tree, ofBlob foreignBlob = .ok tree ∧ tree.bootCpu = 5 ∧
      tree.nodes.toList =
        [{ name := "", parent := none, children := [1], properties := [("a", [2, 3, 4, 5])] },
          { name := "n", parent := some NodeId.root }] := by
  have hheader : ValidHeader foreignBlob := by
    constructor <;> decide +kernel
  obtain ⟨haccepted, hdescribed, -⟩ := ofBlob_grammar foreignBlob
  obtain ⟨tree, hreplay⟩ :
      ∃ tree, foreignDescription.replay (headerCpu foreignBlob) = .ok tree := ⟨_, rfl⟩
  have hread := (haccepted tree).2
    ⟨hheader, foreignDescription, foreignDescription_standsIn, hreplay⟩
  obtain ⟨hnodes, hcpu⟩ := hdescribed tree foreignDescription hread foreignDescription_standsIn
  exact ⟨tree, hread, hcpu, hnodes⟩

end DeviceTree
end RiscvTables
