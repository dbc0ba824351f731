import RiscvTables.Proofs.DeviceTree.Reachable

/-!
# The grammar of structure blocks

A builder is a machine: it is fed one token after the other and keeps the open nodes on a stack.
What it accepts is a language with a recursive grammar, a node between a beginning and an end that
holds properties, other nodes and tokens that do nothing.  `Items` are the derivations of what
stands in a node, and `Description` those of a whole block.

`Description.replay` says what a description means without a stack: the edits of the items, one
after the other, each at the node around it.  `Description.nodes` says it without edits: the
arena, node by node.  `Builder.foldlM_description` and `Description.nodes_of_replay` are the two
steps from the machine to the latter, and `Builder.exists_description` is the way back: whatever
tokens the machine accepts have a derivation.
-/

set_option autoImplicit false

namespace RiscvTables
namespace Blob

/-! ## Derivations

What is computed from items has a case for each sort of item.  A node among the items is the case
with two calls, for what stands in it and for what stands behind it. -/

/-- What stands between the beginning and the end of a node: each item and those that follow. -/
inductive Items where
  | none
  | nop (rest : Items)
  | property (name : String) (value : Bytes) (rest : Items)
  | node (name : String) (items rest : Items)
deriving DecidableEq, Repr

namespace Items

/-- The tokens of the items. -/
def tokens : Items → List Token
  | none => []
  | nop rest => .nop :: rest.tokens
  | property name value rest => .property name value :: rest.tokens
  | node name items rest => .beginNode name :: items.tokens ++ .endNode :: rest.tokens

/-- The edits of the items at the node `id` they stand in. -/
def replay (id : NodeId) : Items → DeviceTree → Except EditError DeviceTree
  | none, tree => .ok tree
  | nop rest, tree => rest.replay id tree
  | property name value rest, tree => do rest.replay id (← tree.setProperty id name value)
  | node name items rest, tree => do
    let (tree, child) ← tree.addNode id name
    rest.replay id (← items.replay child tree)

/-- How many nodes begin among the items, at any depth. -/
def count : Items → Nat
  | none => 0
  | nop rest => rest.count
  | property _ _ rest => rest.count
  | node _ items rest => 1 + items.count + rest.count

/-- The properties of the node around the items, on top of those it has. -/
def properties : Items → List (String × Bytes) → List (String × Bytes)
  | none, old => old
  | nop rest, old => rest.properties old
  | property name value rest, old => rest.properties (putProperty name value old)
  | node _ _ rest, old => rest.properties old

/-- The children of the node around the items, if the next node to begin is number `next`. -/
def children : Items → NodeId → List NodeId
  | none, _ => []
  | nop rest, next => rest.children next
  | property _ _ rest, next => rest.children next
  | node _ items rest, next => next :: rest.children (next + 1 + items.count)

/-- The nodes that begin among the items of node `id`, in order, the first of them number `next`. -/
def nodes : Items → (id next : NodeId) → List Node
  | none, _, _ => []
  | nop rest, id, next => rest.nodes id next
  | property _ _ rest, id, next => rest.nodes id next
  | node name items rest, id, next =>
    { name, parent := some id, children := items.children (next + 1)
      properties := items.properties [] } ::
        items.nodes next (next + 1) ++ rest.nodes id (next + 1 + items.count)

/-- The items without those that do nothing. -/
def dropNops : Items → Items
  | none => none
  | nop rest => rest.dropNops
  | property name value rest => property name value rest.dropNops
  | node name items rest => node name items.dropNops rest.dropNops

end Items

/-- A structure block: the root, with tokens that do nothing around it. -/
structure Description where
  before : Nat
  name : String
  items : Items
  after : Nat
deriving DecidableEq, Repr

namespace Description

variable (description : Description)

/-- The tokens of the block, but for the one that ends it. -/
def tokens : List Token :=
  List.replicate description.before .nop ++
    .beginNode description.name :: description.items.tokens ++
      .endNode :: List.replicate description.after .nop

/-- The edits of the block on the empty tree.  The name of the root does not count. -/
def replay (bootCpu : UInt32) : Except EditError DeviceTree :=
  description.items.replay NodeId.root (DeviceTree.empty.setBootCpu bootCpu)

/-- The nodes of the block. -/
def nodes : List Node :=
  { name := "", parent := none, children := description.items.children 1
    properties := description.items.properties [] } :: description.items.nodes NodeId.root 1

end Description

theorem Items.finish_notMem_tokens (items : Items) : Token.finish ∉ items.tokens := by
  induction items with
  | none => exact List.not_mem_nil
  | nop rest ih => simpa [tokens] using ih
  | property name value rest ih => simpa [tokens] using ih
  | node name items rest ihitems ihrest => simp [tokens, ihitems, ihrest]

theorem Description.finish_notMem_tokens (description : Description) :
    Token.finish ∉ description.tokens := by
  simp [tokens, Items.finish_notMem_tokens]

/-! ## Replaying is what the builder does

The induction is on the derivation.  A node among the items goes on the stack, its own items leave
it there, and its end takes it off, so the stack is as it was when the next item comes. -/

namespace Builder

variable {id : NodeId} {outer : List NodeId} {seen : Bool}

/-- **The items of an open node do their edits there**, and leave the open nodes as they are. -/
theorem foldlM_items (items : Items) (tree : DeviceTree) :
    items.tokens.foldlM accept ⟨tree, id :: outer, seen⟩ =
      (ofEdit (items.replay id tree)).map fun tree => ⟨tree, id :: outer, seen⟩ := by
  induction items generalizing tree id outer with
  | none => rfl
  | nop rest ih => exact ih tree
  | property name value rest ih =>
    simp only [Items.tokens, List.foldlM_cons, accept, Items.replay]
    cases tree.setProperty id name value with
    | error error => rfl
    | ok tree => exact ih tree
  | node name items rest ihitems ihrest =>
    simp only [Items.tokens, List.cons_append, List.foldlM_cons, accept, Items.replay]
    cases tree.addNode id name with
    | error error => rfl
    | ok made =>
      obtain ⟨made, child⟩ := made
      simp only [ofEdit, Except.mapError, bind, Except.bind, pure, Except.pure]
      rw [List.foldlM_append, ihitems]
      cases items.replay child made with
      | error error => rfl
      | ok tree => exact ihrest tree

theorem foldlM_nops (count : Nat) (builder : Builder) :
    (List.replicate count Token.nop).foldlM accept builder = .ok builder := by
  induction count with
  | zero => rfl
  | succ count ih => exact ih

/-- **A described block is accepted if its edits are**, and refused for the first that is not. -/
theorem foldlM_description (description : Description) (bootCpu : UInt32) :
    description.tokens.foldlM accept (start bootCpu) >>= finish =
      ofEdit (description.replay bootCpu) := by
  rw [Description.tokens, Description.replay, List.append_assoc, List.foldlM_append, foldlM_nops]
  simp only [List.cons_append, List.foldlM_cons, accept, start, bind, Except.bind]
  rw [if_neg Bool.false_ne_true]
  simp only [List.foldlM_append, foldlM_items, bind, Except.bind]
  cases description.items.replay NodeId.root (DeviceTree.empty.setBootCpu bootCpu) with
  | error error => rfl
  | ok tree =>
    simp only [ofEdit, Except.mapError, Except.map, List.foldlM_cons, accept, bind, Except.bind,
      foldlM_nops]
    rfl

end Builder

/-! ## The tree of a description

An edit changes one node and may add another at the end of the arena.  So what items do is local:
the node around them is filled, and the nodes that begin among them get the next numbers. -/

namespace Items

variable {id : NodeId} {tree tree' : DeviceTree}

/-- A node with what items add to it, if the next node to begin is number `next`. -/
def fill (items : Items) (next : NodeId) (node : Node) : Node :=
  { node with children := node.children ++ items.children next
              properties := items.properties node.properties }

theorem length_nodes (items : Items) (id next : NodeId) :
    (items.nodes id next).length = items.count := by
  induction items generalizing id next with
  | none => rfl
  | nop rest ih => exact ih id next
  | property name value rest ih => exact ih id next
  | node name items rest ihitems ihrest =>
    rw [nodes, List.cons_append, List.length_cons, List.length_append, ihitems, ihrest, count]
    omega

theorem replay_property_eq_ok_iff {name : String} {value : Bytes} {rest : Items} :
    (property name value rest).replay id tree = .ok tree' ↔
      ∃ next, tree.setProperty id name value = .ok next ∧ rest.replay id next = .ok tree' :=
  Except.bind_eq_ok_iff

theorem replay_node_eq_ok_iff {name : String} {items rest : Items} :
    (node name items rest).replay id tree = .ok tree' ↔
      ∃ made child inner, tree.addNode id name = .ok (made, child) ∧
        items.replay child made = .ok inner ∧ rest.replay id inner = .ok tree' := by
  rw [replay, Except.bind_eq_ok_iff, Prod.exists]
  exact exists₂_congr fun made child =>
    (and_congr_right fun _ => Except.bind_eq_ok_iff).trans exists_and_left.symm

theorem bootCpu_of_setProperty {name : String} {value : Bytes}
    (h : tree.setProperty id name value = .ok tree') : tree'.bootCpu = tree.bootCpu := by
  obtain ⟨-, ⟨-, rfl⟩ | ⟨-, phandle, -, -, rfl⟩⟩ := DeviceTree.setProperty_eq_ok_iff.1 h <;> rfl

theorem node?_of_setProperty {name : String} {value : Bytes}
    (h : tree.setProperty id name value = .ok tree') (i : NodeId) :
    tree'.node? i =
      if i = id then
        (tree.node? id).map fun n => { n with properties := putProperty name value n.properties }
      else tree.node? i := by
  obtain ⟨-, ⟨-, rfl⟩ | ⟨-, phandle, -, -, rfl⟩⟩ := DeviceTree.setProperty_eq_ok_iff.1 h
  · exact DeviceTree.node?_putValue
  · exact DeviceTree.node?_putValue

/-- Items begin as many nodes as they count, and leave the boot cpu alone. -/
theorem size_of_replay {items : Items} (h : items.replay id tree = .ok tree') :
    tree'.size = tree.size + items.count ∧ tree'.bootCpu = tree.bootCpu := by
  induction items generalizing id tree tree' with
  | none =>
    obtain rfl := Except.ok.inj h
    exact ⟨rfl, rfl⟩
  | nop rest ih => exact ih h
  | property name value rest ih =>
    obtain ⟨next, hset, h⟩ := replay_property_eq_ok_iff.1 h
    obtain ⟨hsize, hboot⟩ := ih h
    rw [hsize, hboot, (DeviceTree.links_of_setProperty hset).1, bootCpu_of_setProperty hset]
    exact ⟨rfl, rfl⟩
  | node name items rest ihitems ihrest =>
    obtain ⟨made, child, inner, hadd, hitems, h⟩ := replay_node_eq_ok_iff.1 h
    obtain ⟨-, -, -, rfl, rfl⟩ := DeviceTree.addNode_eq_ok_iff.1 hadd
    obtain ⟨hsize, hboot⟩ := ihitems hitems
    obtain ⟨hsize', hboot'⟩ := ihrest h
    rw [hsize', hboot', hsize, hboot, DeviceTree.size_appendChild, count]
    exact ⟨by omega, rfl⟩

/-- **What items do to the arena**: the node around them is filled, the nodes that begin among them
go to the end, and no other node changes. -/
theorem node?_of_replay {items : Items} {id : Nat} (hid : id < tree.size)
    (h : items.replay id tree = .ok tree') (i : Nat) :
    tree'.node? i =
      if i < tree.size then
        if i = id then (tree.node? id).map (items.fill tree.size) else tree.node? i
      else (items.nodes id tree.size)[i - tree.size]? := by
  induction items generalizing id tree tree' i with
  | none =>
    obtain rfl := Except.ok.inj h
    have hfill : (tree.node? id).map (fill none tree.size) = tree.node? id := by
      cases tree.node? id with
      | none => rfl
      | some n => simp [fill, children, properties]
    rw [hfill, nodes, List.getElem?_nil]
    split
    next =>
      split
      next heq => rw [heq]
      next => rfl
    next hi => exact DeviceTree.node?_eq_none (Nat.not_lt.1 hi)
  | nop rest ih => exact ih hid h i
  | property name value rest ih =>
    obtain ⟨next, hset, h⟩ := replay_property_eq_ok_iff.1 h
    have hsize := (DeviceTree.links_of_setProperty hset).1
    rw [ih (hsize ▸ hid) h, hsize, node?_of_setProperty hset, node?_of_setProperty hset,
      if_pos rfl, Option.map_map]
    refine if_congr Iff.rfl ?_ rfl
    split
    next => rfl
    next hne => rfl
  | node name items rest ihitems ihrest =>
    obtain ⟨made, child, inner, hadd, hitems, h⟩ := replay_node_eq_ok_iff.1 h
    obtain ⟨-, -, -, rfl, rfl⟩ := DeviceTree.addNode_eq_ok_iff.1 hadd
    have hsize := (size_of_replay hitems).1
    rw [DeviceTree.size_appendChild] at hsize
    have hinner := ihitems (by rw [DeviceTree.size_appendChild]; exact Nat.lt_succ_self _) hitems
    have houter := ihrest (by rw [hsize]; omega) h i
    rw [DeviceTree.size_appendChild] at hinner
    rw [houter, hsize, hinner i, hinner id, if_pos (show id < tree.size + 1 by omega),
      if_neg (Nat.ne_of_lt hid)]
    rcases Nat.lt_trichotomy i tree.size with hi | rfl | hi
    -- a node that was there: only the one around the items changes
    · rw [if_pos (show i < tree.size + 1 + items.count by omega),
        if_pos (show i < tree.size + 1 by omega), if_neg (Nat.ne_of_lt hi), if_pos hi,
        DeviceTree.node?_appendChild, DeviceTree.node?_appendChild, if_neg (Nat.ne_of_lt hid),
        if_neg (Nat.ne_of_lt hi), if_pos rfl, Option.map_map]
      split
      next =>
        cases tree.node? id with
        | none => rfl
        | some n => simp [fill, children, properties]
      next => rfl
    -- the node that begins
    · rw [if_pos (show tree.size < tree.size + 1 + items.count by omega),
        if_neg (Nat.ne_of_gt hid), if_pos (Nat.lt_succ_self _), if_pos rfl,
        DeviceTree.node?_appendChild, if_pos rfl, if_neg (Nat.lt_irrefl _), nodes, Nat.sub_self,
        List.cons_append, List.getElem?_cons_zero]
      rfl
    -- the nodes that begin behind it
    · have hsub : i - tree.size = i - (tree.size + 1) + 1 := by omega
      rw [if_neg (show ¬ i < tree.size + 1 by omega), if_neg (show ¬ i < tree.size by omega),
        if_neg (show i ≠ id by omega), nodes, hsub, List.cons_append, List.getElem?_cons_succ]
      split
      next hin => rw [List.getElem?_append_left (by rw [length_nodes]; omega)]
      next hout =>
        rw [List.getElem?_append_right (by rw [length_nodes]; omega), length_nodes, Nat.sub_sub]

end Items

/-- **The tree of a description** has its nodes and the given boot cpu. -/
theorem Description.nodes_of_replay {description : Description} {bootCpu : UInt32}
    {tree : DeviceTree} (h : description.replay bootCpu = .ok tree) :
    tree.nodes.toList = description.nodes ∧ tree.bootCpu = bootCpu := by
  refine ⟨List.ext_getElem? fun i => ?_, (Items.size_of_replay h).2⟩
  have hsize : (DeviceTree.empty.setBootCpu bootCpu).size = 1 := rfl
  have hnode := Items.node?_of_replay (hsize ▸ Nat.one_pos) h i
  rw [hsize] at hnode
  rw [Array.getElem?_toList]
  refine hnode.trans ?_
  cases i with
  | zero => rfl
  | succ i => rw [if_neg (Nat.not_lt.2 (Nat.le_add_left 1 i)), nodes, List.getElem?_cons_succ,
      Nat.add_sub_cancel]

/-! ## Tokens that do nothing -/

theorem Items.replay_dropNops (items : Items) (id : NodeId) (tree : DeviceTree) :
    items.dropNops.replay id tree = items.replay id tree := by
  induction items generalizing id tree with
  | none => rfl
  | nop rest ih => exact ih id tree
  | property name value rest ih => simp only [dropNops, replay, ih]
  | node name items rest ihitems ihrest => simp only [dropNops, replay, ihitems, ihrest]

/-! ## What is accepted has a derivation -/

namespace Builder

/-- **Behind the beginning of a node there are items and the end of the node**, if the node is
ever closed.  The induction is on the number of tokens, since a node among the items is taken off
together with its end. -/
theorem exists_items {id : NodeId} {outer : List NodeId} {seen : Bool} {tree : DeviceTree}
    {tokens : List Token} {builder : Builder} (hfinish : Token.finish ∉ tokens)
    (h : tokens.foldlM accept ⟨tree, id :: outer, seen⟩ = .ok builder)
    (hclosed : builder.openNodes.length ≤ outer.length) :
    ∃ items rest, tokens = Items.tokens items ++ Token.endNode :: rest := by
  induction hlength : tokens.length using Nat.strongRecOn generalizing tokens tree id outer with
  | _ n ih =>
    cases tokens with
    | nil =>
      obtain rfl := Except.pure_eq_ok_iff.1 h
      exact absurd hclosed (Nat.not_succ_le_self _)
    | cons token tokens =>
      rw [List.foldlM_cons, Except.bind_eq_ok_iff] at h
      obtain ⟨next, haccept, h⟩ := h
      rw [List.mem_cons, not_or] at hfinish
      subst hlength
      cases token with
      | nop =>
        obtain rfl := Except.ok.inj haccept
        obtain ⟨items, rest, rfl⟩ := ih _ (Nat.lt_succ_self _) hfinish.2 h hclosed rfl
        exact ⟨.nop items, rest, rfl⟩
      | finish => exact absurd rfl hfinish.1
      | endNode => exact ⟨.none, tokens, rfl⟩
      | property name value =>
        obtain ⟨tree, -, haccept⟩ := Except.bind_eq_ok_iff.1 haccept
        obtain rfl := Except.ok.inj haccept
        obtain ⟨items, rest, rfl⟩ := ih _ (Nat.lt_succ_self _) hfinish.2 h hclosed rfl
        exact ⟨.property name value items, rest, rfl⟩
      | beginNode name =>
        obtain ⟨⟨made, child⟩, -, haccept⟩ := Except.bind_eq_ok_iff.1 haccept
        obtain rfl := Except.ok.inj haccept
        obtain ⟨inner, rest, rfl⟩ := ih _ (Nat.lt_succ_self _) hfinish.2 h
          (Nat.le_trans hclosed (Nat.le_succ _)) rfl
        rw [List.foldlM_append, Except.bind_eq_ok_iff] at h
        obtain ⟨between, hinner, h⟩ := h
        rw [foldlM_items] at hinner
        obtain ⟨filled, -, rfl⟩ := Except.map_eq_ok_iff.1 hinner
        -- the inner node is closed, and the same node is open as before it
        have hrest : rest.foldlM accept ⟨filled, id :: outer, seen⟩ = .ok builder := h
        have hfinish' : Token.finish ∉ rest := fun hmem =>
          hfinish.2 (List.mem_append_right _ (List.mem_cons_of_mem _ hmem))
        have hshort : rest.length <
            (Token.beginNode name :: (inner.tokens ++ Token.endNode :: rest)).length := by
          simp only [List.length_cons, List.length_append]
          omega
        obtain ⟨items, rest, rfl⟩ := ih _ hshort hfinish' hrest hclosed rfl
        refine ⟨.node name inner items, rest, ?_⟩
        simp only [Items.tokens, List.cons_append, List.append_assoc]

/-- Once the root is closed, nothing but tokens that do nothing is accepted. -/
theorem exists_nops {tree : DeviceTree} {tokens : List Token} {builder : Builder}
    (hfinish : Token.finish ∉ tokens)
    (h : tokens.foldlM accept ⟨tree, [], true⟩ = .ok builder) :
    ∃ count, tokens = List.replicate count .nop := by
  induction tokens with
  | nil => exact ⟨0, rfl⟩
  | cons token tokens ih =>
    rw [List.foldlM_cons, Except.bind_eq_ok_iff] at h
    obtain ⟨next, haccept, h⟩ := h
    rw [List.mem_cons, not_or] at hfinish
    cases token with
    | nop =>
      obtain rfl := Except.ok.inj haccept
      obtain ⟨count, rfl⟩ := ih hfinish.2 h
      exact ⟨count + 1, rfl⟩
    | finish => exact absurd rfl hfinish.1
    | beginNode name => cases haccept
    | endNode => cases haccept
    | property name value => cases haccept

/-- **Whatever tokens a builder accepts have a derivation.** -/
theorem exists_description {tokens : List Token} {bootCpu : UInt32} {tree : DeviceTree}
    (hfinish : Token.finish ∉ tokens)
    (h : tokens.foldlM accept (start bootCpu) >>= finish = .ok tree) :
    ∃ description : Description, tokens = description.tokens := by
  induction tokens with
  | nil => cases h
  | cons token tokens ih =>
    rw [List.foldlM_cons] at h
    rw [List.mem_cons, not_or] at hfinish
    cases token with
    | nop =>
      obtain ⟨description, rfl⟩ := ih hfinish.2 h
      exact ⟨{ description with before := description.before + 1 }, rfl⟩
    | finish => exact absurd rfl hfinish.1
    | endNode => cases h
    | property name value => cases h
    | beginNode name =>
      obtain ⟨last, hlast, h⟩ := Except.bind_eq_ok_iff.1 h
      obtain ⟨hclosed, -, -⟩ := finish_eq_ok_iff.1 h
      have hroot : tokens.foldlM accept
          ⟨DeviceTree.empty.setBootCpu bootCpu, [NodeId.root], true⟩ = .ok last := hlast
      obtain ⟨items, rest, rfl⟩ :=
        exists_items hfinish.2 hroot (Nat.le_of_eq (congrArg List.length hclosed))
      rw [List.foldlM_append, Except.bind_eq_ok_iff] at hroot
      obtain ⟨between, hitems, hroot⟩ := hroot
      rw [foldlM_items] at hitems
      obtain ⟨filled, -, rfl⟩ := Except.map_eq_ok_iff.1 hitems
      have hrest : rest.foldlM accept ⟨filled, [], true⟩ = .ok last := hroot
      obtain ⟨after, rfl⟩ := exists_nops
        (fun hmem => hfinish.2 (List.mem_append_right _ (List.mem_cons_of_mem _ hmem))) hrest
      exact ⟨⟨0, name, items, after⟩, rfl⟩

end Builder
end Blob
end RiscvTables
