import RiscvTables.Proofs.DeviceTree.Edit
import RiscvTables.Proofs.DeviceTree.Spelling

/-!
# Trees that a program can come to hold

`Reachable` trees come out of the edits and out of blobs.  A blob is read by edits too, so what
holds of the empty tree and survives an edit holds of every reachable tree
(`Reachable.of_keptByEdits`).
-/

set_option autoImplicit false

namespace RiscvTables

/-! ## Builders -/

namespace Blob
namespace Builder

variable {blocks : Token.Blocks} {builder builder' : Builder} {token : Token}

/-- The builder before the first token. -/
def start (cpu : UInt32) : Builder where
  tree := DeviceTree.empty.setBootCpu cpu
  openNodes := []
  rootSeen := false

/-- **What a token can do to a builder.** -/
theorem accept_cases (h : builder.accept token = .ok builder') :
    (∃ name, token = .beginNode name ∧ builder.openNodes = [] ∧ builder.rootSeen = false ∧
        builder' = { builder with openNodes := [NodeId.root], rootSeen := true }) ∨
      (∃ name parent outer tree id, token = .beginNode name ∧
        builder.openNodes = parent :: outer ∧ builder.tree.addNode parent name = .ok (tree, id) ∧
        builder' = { builder with tree, openNodes := id :: parent :: outer }) ∨
      (∃ inner outer, token = .endNode ∧ builder.openNodes = inner :: outer ∧
        builder' = { builder with openNodes := outer }) ∨
      (∃ name value id outer tree, token = .property name value ∧
        builder.openNodes = id :: outer ∧ builder.tree.setProperty id name value = .ok tree ∧
        builder' = { builder with tree }) ∨
      ((token = .nop ∨ token = .finish) ∧ builder' = builder) := by
  cases token with
  | beginNode name =>
    rw [accept] at h
    split at h
    next hopen =>
      split at h
      next => cases h
      next hseen =>
        exact Or.inl ⟨name, rfl, hopen, Bool.eq_false_iff.2 hseen, (Except.ok.inj h).symm⟩
    next parent outer hopen =>
      obtain ⟨⟨tree, id⟩, hedit, h⟩ := Except.bind_eq_ok_iff.1 h
      refine Or.inr (Or.inl ⟨name, parent, outer, tree, id, rfl, hopen, ?_, ?_⟩)
      · exact Except.mapError_eq_ok_iff.1 hedit
      · rw [← hopen]
        exact (Except.pure_eq_ok_iff.1 h).symm
  | endNode =>
    rw [accept] at h
    split at h
    next => cases h
    next inner outer hopen =>
      exact Or.inr (Or.inr (Or.inl ⟨inner, outer, rfl, hopen, (Except.ok.inj h).symm⟩))
  | property name value =>
    rw [accept] at h
    split at h
    next => cases h
    next id outer hopen =>
      obtain ⟨tree, hedit, h⟩ := Except.bind_eq_ok_iff.1 h
      refine Or.inr (Or.inr (Or.inr (Or.inl ⟨name, value, id, outer, tree, rfl, hopen, ?_, ?_⟩)))
      · exact Except.mapError_eq_ok_iff.1 hedit
      · exact (Except.pure_eq_ok_iff.1 h).symm
  | nop =>
    exact Or.inr (Or.inr (Or.inr (Or.inr ⟨Or.inl rfl, (Except.ok.inj h).symm⟩)))
  | finish =>
    exact Or.inr (Or.inr (Or.inr (Or.inr ⟨Or.inr rfl, (Except.ok.inj h).symm⟩)))

/-- **What a builder can refuse a token for.** -/
theorem accept_error_cases {error : BlobError} (h : builder.accept token = .error error) :
    error = .unbalanced ∨ ∃ id outer cause, builder.openNodes = id :: outer ∧
      error = .edit cause ∧
        ((∃ name, builder.tree.addNode id name = .error cause) ∨
          ∃ name value, builder.tree.setProperty id name value = .error cause) := by
  have hedit : ∀ {α : Type} {edited : Except EditError α}, ofEdit edited = .error error →
      ∃ cause, error = .edit cause ∧ edited = .error cause := by
    intro α edited hedited
    cases edited with
    | error cause => exact ⟨cause, (Except.error.inj hedited).symm, rfl⟩
    | ok a => cases hedited
  cases token with
  | beginNode name =>
    rw [accept] at h
    split at h
    next =>
      split at h
      next => exact Or.inl (Except.error.inj h).symm
      next => cases h
    next parent outer hopen =>
      rcases Except.bind_eq_error_iff.1 h with hadd | ⟨_, -, h⟩
      · obtain ⟨cause, rfl, hrefused⟩ := hedit hadd
        exact Or.inr ⟨parent, outer, cause, hopen, rfl, Or.inl ⟨name, hrefused⟩⟩
      · cases h
  | endNode =>
    rw [accept] at h
    split at h
    next => exact Or.inl (Except.error.inj h).symm
    next => cases h
  | property name value =>
    rw [accept] at h
    split at h
    next => exact Or.inl (Except.error.inj h).symm
    next id outer hopen =>
      rcases Except.bind_eq_error_iff.1 h with hset | ⟨_, -, h⟩
      · obtain ⟨cause, rfl, hrefused⟩ := hedit hset
        exact Or.inr ⟨id, outer, cause, hopen, rfl, Or.inr ⟨name, value, hrefused⟩⟩
      · cases h
  | nop => cases h
  | finish => cases h

theorem finish_eq_ok_iff {tree : DeviceTree} :
    builder.finish = .ok tree ↔
      builder.openNodes = [] ∧ builder.rootSeen ∧ builder.tree = tree := by
  rw [finish]
  by_cases hopen : builder.openNodes = [] <;> by_cases hseen : builder.rootSeen <;>
    simp [hopen, hseen]

/-- **What every token keeps holds of the builder that the tree is taken from.** -/
theorem exists_of_run {P : Builder → Prop}
    (hkept : ∀ builder token builder', P builder → builder.accept token = .ok builder' → P builder')
    {steps : Nat} {cursor : Token.Cursor} {tree : DeviceTree} (hstart : P builder)
    (h : run blocks steps cursor builder = .ok tree) :
    ∃ last, P last ∧ last.openNodes = [] ∧ last.rootSeen ∧ last.tree = tree := by
  obtain ⟨tokens, -, -, -, -, -, h⟩ := exists_spells_of_run h
  obtain ⟨last, hlast, h⟩ := Except.bind_eq_ok_iff.1 h
  have hkept' : ∀ builder token builder',
      builder.accept token = .ok builder' → P builder → P builder' :=
    fun builder token builder' haccept hbuilder => hkept builder token builder' hbuilder haccept
  exact ⟨last, Except.foldlM_preserves hkept' hlast hstart, finish_eq_ok_iff.1 h⟩

end Builder
end Blob

namespace DeviceTree

/-- A tree that a blob describes has been built from the tokens of the blob. -/
theorem exists_run_of_ofBlob {data : Bytes} {tree : DeviceTree} (h : ofBlob data = .ok tree) :
    ∃ blocks steps cursor cpu,
      Blob.Builder.run blocks steps cursor (Blob.Builder.start cpu) = .ok tree := by
  rw [ofBlob] at h
  obtain ⟨header, -, h⟩ := Except.bind_eq_ok_iff.1 h
  obtain ⟨structureBlock, -, h⟩ := Except.bind_eq_ok_iff.1 h
  obtain ⟨strings, -, h⟩ := Except.bind_eq_ok_iff.1 h
  exact ⟨_, _, _, _, h⟩

/-! ## Reachable trees -/

/-- The trees that edits and blobs lead to. -/
inductive Reachable : DeviceTree → Prop
  | empty : Reachable DeviceTree.empty
  | ofBlob {data : Bytes} {tree : DeviceTree} :
    DeviceTree.ofBlob data = .ok tree → Reachable tree
  | addNode {tree tree' : DeviceTree} {parent id : NodeId} {name : String} :
    Reachable tree → tree.addNode parent name = .ok (tree', id) → Reachable tree'
  | setProperty {tree tree' : DeviceTree} {id : NodeId} {name : String} {value : Bytes} :
    Reachable tree → tree.setProperty id name value = .ok tree' → Reachable tree'
  | setBootCpu {tree : DeviceTree} (cpu : UInt32) :
    Reachable tree → Reachable (tree.setBootCpu cpu)

/-- What every edit keeps. -/
structure KeptByEdits (P : DeviceTree → Prop) : Prop where
  addNode : ∀ {tree tree' : DeviceTree} {parent id : NodeId} {name : String},
    P tree → tree.addNode parent name = .ok (tree', id) → P tree'
  setProperty : ∀ {tree tree' : DeviceTree} {id : NodeId} {name : String} {value : Bytes},
    P tree → tree.setProperty id name value = .ok tree' → P tree'
  setBootCpu : ∀ {tree : DeviceTree} (cpu : UInt32), P tree → P (tree.setBootCpu cpu)

theorem KeptByEdits.of_accept {P : DeviceTree → Prop} (hkept : KeptByEdits P)
    {builder builder' : Blob.Builder} {token : Token} (hP : P builder.tree)
    (h : builder.accept token = .ok builder') : P builder'.tree := by
  rcases Blob.Builder.accept_cases h with ⟨_, _, _, _, rfl⟩ | ⟨_, _, _, tree, _, _, _, hedit, rfl⟩ |
    ⟨_, _, _, _, rfl⟩ | ⟨_, _, _, _, tree, _, _, hedit, rfl⟩ | ⟨_, rfl⟩
  · exact hP
  · exact hkept.addNode hP hedit
  · exact hP
  · exact hkept.setProperty hP hedit
  · exact hP

/-- **What the empty tree has and every edit keeps, every reachable tree has.** -/
theorem Reachable.of_keptByEdits {P : DeviceTree → Prop} {tree : DeviceTree}
    (htree : Reachable tree) (hkept : KeptByEdits P) (hempty : P DeviceTree.empty) : P tree := by
  induction htree with
  | empty => exact hempty
  | ofBlob h =>
    obtain ⟨blocks, steps, cursor, cpu, hrun⟩ := exists_run_of_ofBlob h
    obtain ⟨last, hlast, -, -, rfl⟩ :=
      Blob.Builder.exists_of_run (P := fun builder => P builder.tree)
        (fun _ _ _ hP haccept => hkept.of_accept hP haccept) (hkept.setBootCpu cpu hempty) hrun
    exact hlast
  | addNode _ hedit ih => exact hkept.addNode ih hedit
  | setProperty _ hedit ih => exact hkept.setProperty ih hedit
  | setBootCpu cpu _ ih => exact hkept.setBootCpu cpu ih

theorem Reachable.keptByEdits : KeptByEdits Reachable :=
  ⟨Reachable.addNode, Reachable.setProperty, fun cpu htree => htree.setBootCpu cpu⟩

/-! ## Lists of edits -/

/-- An edit that can fail, as a value. -/
inductive Edit where
  | addNode (parent : NodeId) (name : String)
  | setProperty (id : NodeId) (name : String) (value : Bytes)

/-- Makes an edit. -/
def edit (tree : DeviceTree) : Edit → Except EditError DeviceTree
  | .addNode parent name => (tree.addNode parent name).map Prod.fst
  | .setProperty id name value => tree.setProperty id name value

theorem KeptByEdits.of_edit {P : DeviceTree → Prop} (hkept : KeptByEdits P)
    {tree tree' : DeviceTree} {e : Edit} (hP : P tree) (h : tree.edit e = .ok tree') : P tree' := by
  cases e with
  | addNode parent name =>
    obtain ⟨⟨made, id⟩, hadd, rfl⟩ := Except.map_eq_ok_iff.1 h
    exact hkept.addNode hP hadd
  | setProperty id name value => exact hkept.setProperty hP h

/-- The tree that edits make of the empty one, if none of them fails. -/
def ofEdits? (edits : List Edit) : Option DeviceTree :=
  (edits.foldlM edit DeviceTree.empty).toOption

theorem reachable_of_ofEdits? {edits : List Edit} {tree : DeviceTree}
    (h : ofEdits? edits = some tree) : tree.Reachable := by
  have hrun : edits.foldlM edit DeviceTree.empty = .ok tree := Except.toOption_eq_some_iff.1 h
  exact Except.foldlM_preserves
    (fun _ _ _ hedit htree => Reachable.keptByEdits.of_edit htree hedit) hrun Reachable.empty

end DeviceTree
end RiscvTables
