import RiscvTables.Proofs.DeviceTree.WellFormed

/-!
# Working on one tree

An edit returns a new tree or none.  A program that holds one tree and edits it in place has no
other tree to go back to: it checks and writes step by step, and what it has written before a
failure stays written.  `InPlace` are such steps.  The edits told in them end as the edits do, and
one that is refused has written nothing by then (`Edit.run_inPlace`).

A `Session` is a tree that a program works on with any calls at all, refused ones among them, and
the edits that have been made so far.  What every edit keeps holds at every moment of a session
(`Session.calls_preserves`), and so the tree is an `Arena` throughout (`Session.arena_of_calls`).
-/

set_option autoImplicit false

namespace RiscvTables
namespace DeviceTree

/-! ## Steps on a tree -/

/-- Steps on a tree.  What was done before a failure stays done. -/
abbrev InPlace (α : Type) : Type :=
  ExceptT EditError (StateM DeviceTree) α

namespace InPlace

variable {α : Type}

/-- Carries out the steps: how they end, and the tree they leave. -/
def run (steps : InPlace α) (tree : DeviceTree) : Except EditError α × DeviceTree :=
  StateT.run (ExceptT.run steps) tree

/-- Puts a node at the end of the arena, and then lists it with its parent. -/
def addNode (parent : NodeId) (name : String) : InPlace NodeId := do
  let tree ← get
  if !validName name then throw (.invalidNodeName name)
  else match tree.node? parent with
    | none => throw (.unknownNode parent)
    | some node =>
      if node.children.any fun child => tree.name? child == some name then
        throw (.invalidNodeName name)
      else
        modify fun tree => { tree with nodes := tree.nodes.push { name, parent := some parent } }
        modify fun current =>
          { current with
            nodes := current.nodes.modify parent fun n =>
              { n with children := n.children ++ [tree.size] } }
        return tree.size

/-- Takes a node's phandle out of the index, and then puts the new one in. -/
def claimPhandle (id : NodeId) (value : Bytes) : InPlace Unit := do
  let tree ← get
  match phandleOfValue? value with
  | none => throw (.invalidPhandle id)
  | some phandle =>
    match tree.phandleOwner? phandle with
    | some first => if first ≠ id then throw (.duplicatePhandle phandle first id) else move phandle
    | none => move phandle
where
  /-- Moves the node in the index. -/
  move (phandle : UInt32) : InPlace Unit := do
    modify fun tree => { tree with phandles := tree.phandles.filter fun p => p.2 ≠ id }
    modify fun tree => { tree with phandles := (phandle, id) :: tree.phandles }

/-- Brings the index up to date, and then sets the property. -/
def setProperty (id : NodeId) (name : String) (value : Bytes) : InPlace Unit := do
  let tree ← get
  if id < tree.size then
    if name ∈ phandleNames then claimPhandle id value
    modify (·.putValue id name value)
  else throw (.unknownNode id)

end InPlace

/-- Makes an edit in place. -/
def Edit.inPlace : Edit → InPlace Unit
  | .addNode parent name => do let _ ← InPlace.addNode parent name
  | .setProperty id name value => InPlace.setProperty id name value

namespace InPlace

variable {α β : Type} {tree : DeviceTree} {parent : NodeId}

/-! ### What steps leave -/

theorem run_bind (steps : InPlace α) (next : α → InPlace β) (tree : DeviceTree) :
    run (steps >>= next) tree =
      match steps.run tree with
      | (.error error, after) => (.error error, after)
      | (.ok a, after) => (next a).run after := by
  show (ExceptT.bindCont next (steps.run tree).1).run (steps.run tree).2 = _
  rcases steps.run tree with ⟨error | a, after⟩ <;> rfl

theorem run_get_bind (next : DeviceTree → InPlace α) (tree : DeviceTree) :
    run (get >>= next) tree = (next tree).run tree := rfl

theorem run_modify_bind (f : DeviceTree → DeviceTree) (next : Unit → InPlace α)
    (tree : DeviceTree) : run (modify f >>= next) tree = (next ()).run (f tree) := rfl

theorem run_throw (error : EditError) (tree : DeviceTree) :
    run (throw error : InPlace α) tree = (.error error, tree) := rfl

/-- A node is listed with its parent just as well before it is there. -/
theorem modify_push_eq (h : parent < tree.size) (node : Node) (f : Node → Node) :
    (tree.nodes.push node).modify parent f = (tree.nodes.modify parent f).push node := by
  refine Array.ext_getElem? fun i => ?_
  rw [Array.getElem?_modify, Array.getElem?_push, Array.getElem?_push, Array.size_modify,
    Array.getElem?_modify]
  by_cases hi : i = tree.nodes.size
  · rw [if_pos hi, if_pos hi, if_neg (Nat.ne_of_lt (Nat.lt_of_lt_of_eq h hi.symm))]
  · rw [if_neg hi, if_neg hi]

theorem run_addNode (tree : DeviceTree) (parent : NodeId) (name : String) :
    (addNode parent name).run tree =
      match tree.addNode parent name with
      | .error error => (.error error, tree)
      | .ok (after, id) => (.ok id, after) := by
  rw [addNode, run_get_bind, DeviceTree.addNode]
  by_cases hname : validName name
  · cases hnode : tree.node? parent with
    | none => simp only [hname, Bool.not_true, Bool.false_eq_true, if_false, run_throw]
    | some node =>
      have hparent : parent < tree.size := node?_isSome.1 (Option.isSome_of_eq_some hnode)
      by_cases hany : node.children.any fun child => tree.name? child == some name
      · simp only [hname, hany, Bool.not_true, Bool.false_eq_true, if_false, if_true, run_throw]
      · simp only [hname, hany, Bool.not_true, Bool.false_eq_true, if_false, run_modify_bind,
          modify_push_eq hparent]
        rfl
  · simp only [hname, Bool.not_false, if_true, run_throw]

theorem run_claimPhandle (tree : DeviceTree) (id : NodeId) (value : Bytes) :
    (claimPhandle id value).run tree =
      match tree.claimPhandle id value with
      | .error error => (.error error, tree)
      | .ok after => (.ok (), after) := by
  rw [claimPhandle, run_get_bind, DeviceTree.claimPhandle]
  cases phandleOfValue? value with
  | none => rfl
  | some phandle =>
    cases howner : tree.phandleOwner? phandle with
    | none =>
      simp only [howner]
      rfl
    | some first =>
      by_cases hfirst : first ≠ id
      · simp only [howner, if_pos hfirst, run_throw]
      · simp only [howner, if_neg hfirst]
        rfl

theorem run_setProperty (tree : DeviceTree) (id : NodeId) (name : String) (value : Bytes) :
    (setProperty id name value).run tree =
      match tree.setProperty id name value with
      | .error error => (.error error, tree)
      | .ok after => (.ok (), after) := by
  rw [setProperty, run_get_bind, DeviceTree.setProperty]
  by_cases hid : id < tree.size
  · by_cases hname : name ∈ phandleNames
    · simp only [if_pos hid, if_pos hname, run_bind, run_claimPhandle]
      -- the index is written only when nothing is left that could fail
      cases tree.claimPhandle id value <;> rfl
    · rw [if_pos hid, if_neg hname, if_pos hid, if_neg hname]
      rfl
  · rw [if_neg hid, if_neg hid]
    rfl

end InPlace

/-- **An edit in place ends as the edit does.**  One that is refused leaves the tree as it was. -/
theorem Edit.run_inPlace (e : Edit) (tree : DeviceTree) :
    e.inPlace.run tree =
      match tree.edit e with
      | .error error => (.error error, tree)
      | .ok after => (.ok (), after) := by
  cases e with
  | addNode parent name =>
    rw [Edit.inPlace, InPlace.run_bind, InPlace.run_addNode, edit]
    rcases tree.addNode parent name with error | ⟨after, id⟩ <;> rfl
  | setProperty id name value => exact InPlace.run_setProperty tree id name value

/-! ## Sessions -/

/-- A tree that is being worked on, and the edits that have been made to it, in order. -/
structure Session where
  tree : DeviceTree
  history : List Edit

namespace Session

/-- Calls for an edit.  If it is refused, the session goes on with the tree that the failed steps
have left. -/
def call (session : Session) (e : Edit) : Session :=
  match e.inPlace.run session.tree with
  | (.error _, tree) => { session with tree }
  | (.ok (), tree) => { tree, history := session.history ++ [e] }

/-- Calls for one edit after the other. -/
def calls (session : Session) (edits : List Edit) : Session :=
  edits.foldl call session

variable {session : Session}

theorem call_of_error {e : Edit} {error : EditError} (h : session.tree.edit e = .error error) :
    session.call e = session := by
  rw [call, Edit.run_inPlace, h]

theorem call_of_ok {e : Edit} {tree : DeviceTree} (h : session.tree.edit e = .ok tree) :
    session.call e = ⟨tree, session.history ++ [e]⟩ := by
  rw [call, Edit.run_inPlace, h]

/-- **What every edit that succeeds keeps holds after any calls.** -/
theorem calls_preserves {P : Session → Prop}
    (hedit : ∀ session e tree, P session → session.tree.edit e = .ok tree →
      P ⟨tree, session.history ++ [e]⟩)
    (h : P session) (edits : List Edit) : P (session.calls edits) := by
  induction edits generalizing session with
  | nil => exact h
  | cons e rest ih =>
    refine ih ?_
    cases hmade : session.tree.edit e with
    | error error => exact (call_of_error hmade).symm ▸ h
    | ok tree => exact (call_of_ok hmade).symm ▸ hedit session e tree h hmade

/-- Edits of which none is refused are all made. -/
theorem calls_of_foldlM {edits : List Edit} {tree : DeviceTree}
    (h : edits.foldlM edit session.tree = .ok tree) :
    session.calls edits = ⟨tree, session.history ++ edits⟩ := by
  induction edits generalizing session with
  | nil =>
    obtain rfl := Except.pure_eq_ok_iff.1 h
    rw [List.append_nil]
    rfl
  | cons e rest ih =>
    rw [List.foldlM_cons, Except.bind_eq_ok_iff] at h
    obtain ⟨made, hmade, hrest⟩ := h
    show (session.call e).calls rest = _
    rw [call_of_ok hmade, ih hrest, List.append_assoc, List.singleton_append]

/-- A session that begins with a reachable tree goes on with reachable trees. -/
theorem reachable_calls (h : session.tree.Reachable) (edits : List Edit) :
    (session.calls edits).tree.Reachable :=
  calls_preserves (P := fun session => session.tree.Reachable)
    (fun _ _ _ htree hmade => Reachable.keptByEdits.of_edit htree hmade) h edits

end Session

/-! ## Arenas -/

/-- The links, the names and the properties of a tree are in order, and each node below the root
is listed once, by its parent and by nobody else. -/
structure Arena (tree : DeviceTree) : Prop extends tree.WellFormed where
  listed_once : ∀ id, id < tree.size → id ≠ NodeId.root →
    ∃ parent : Nat, parent < id ∧ tree.parent? id = some parent ∧
      ∀ other, (tree.children other).count id = if other = parent then 1 else 0

theorem WellFormed.arena {tree : DeviceTree} (h : tree.WellFormed) : tree.Arena where
  toWellFormed := h
  listed_once := by
    intro id hid hroot
    obtain ⟨parent, hparent⟩ := h.exists_parent id hid hroot
    refine ⟨parent, h.parent_lt id parent hparent, hparent, fun other => ?_⟩
    rw [(h.nodup_children other).count]
    refine if_congr ?_ rfl rfl
    rw [h.mem_children_iff, hparent, Option.some.injEq, eq_comm]

/-- **A tree is an arena at every moment of a session**, and a call that is refused leaves it just
as it was, the index of phandles included. -/
theorem Session.arena_of_calls {session : Session}
    (h : session.tree = DeviceTree.empty ∨ ∃ data, ofBlob data = .ok session.tree)
    (edits : List Edit) :
    (session.calls edits).tree.Arena ∧
      ∀ (e : Edit) (error : EditError) (after : DeviceTree),
        e.inPlace.run (session.calls edits).tree = (.error error, after) →
          after = (session.calls edits).tree := by
  have hreachable : session.tree.Reachable := by
    rcases h with h | ⟨data, h⟩
    · exact h ▸ Reachable.empty
    · exact Reachable.ofBlob h
  refine ⟨(reachable_calls hreachable edits).wellFormed.arena, fun e error after hrun => ?_⟩
  rw [Edit.run_inPlace] at hrun
  cases hmade : (session.calls edits).tree.edit e with
  | error refusal =>
    rw [hmade] at hrun
    exact (Prod.mk.inj hrun).2.symm
  | ok made =>
    rw [hmade] at hrun
    cases (Prod.mk.inj hrun).1

/-- Calls of which five are refused: for a node that is not there, for a sibling's name, for a name
with a slash, and for phandles that another node owns or that are none. -/
def mixedCalls : List Edit :=
  [.addNode NodeId.root "a", .addNode NodeId.root "b", .addNode 1 "a", .addNode 7 "c",
    .addNode NodeId.root "a", .addNode 2 "c/d", .setProperty 1 "phandle" [0, 0, 0, 1],
    .setProperty 2 "linux,phandle" [0, 0, 0, 1], .setProperty 1 "phandle" [1]]

theorem Session.arena_mixedCalls :
    ∃ session : Session, session.tree = DeviceTree.empty ∧
      (session.calls mixedCalls).tree.Arena ∧ (session.calls mixedCalls).tree.size = 4 ∧
      (session.calls mixedCalls).history.length = 4 ∧
      ∃ after, (Edit.setProperty 2 "phandle" [0, 0, 0, 1]).inPlace.run
          (session.calls mixedCalls).tree = (.error (.duplicatePhandle 1 1 2), after) ∧
        after = (session.calls mixedCalls).tree ∧ after.phandles = [(1, 1)] := by
  obtain ⟨harena, hkept⟩ := @arena_of_calls ⟨DeviceTree.empty, []⟩ (Or.inl rfl) mixedCalls
  obtain ⟨after, hrun⟩ : ∃ after, (Edit.setProperty 2 "phandle" [0, 0, 0, 1]).inPlace.run
      (Session.calls ⟨DeviceTree.empty, []⟩ mixedCalls).tree =
        (.error (.duplicatePhandle 1 1 2), after) := ⟨_, Prod.ext (by decide +kernel) rfl⟩
  have hafter := hkept _ _ after hrun
  refine ⟨_, rfl, harena, by decide +kernel, by decide +kernel, after, hrun, hafter, ?_⟩
  rw [hafter]
  decide +kernel

end DeviceTree
end RiscvTables
