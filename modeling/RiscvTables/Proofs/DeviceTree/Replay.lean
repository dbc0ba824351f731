import RiscvTables.Proofs.DeviceTree.Rebuild

/-!
# Replaying the tokens of a tree

The tokens of a subtree take a builder from one part of the tree to the part that also has the
nodes of that subtree (`WellFormed.replays`).  The induction is on the generations that the tokens
cover, and within a generation on the siblings that are left; the place in pre-order at which it
stands says what has been rebuilt.

The whole tree is rebuilt in the end, so reading what was written gives `renumbered`
(`ofBlob_toBlob_renumbered`).
-/

set_option autoImplicit false

namespace RiscvTables
namespace DeviceTree

/-- The builder that holds a part of the tree and has these nodes open. -/
def replayed (tree : DeviceTree) (parts : List (NodeId × List (String × Bytes)))
    (openNodes : List NodeId) : Blob.Builder where
  tree := tree.rebuilt parts
  openNodes
  rootSeen := true

theorem whole_append (tree : DeviceTree) (first second : List NodeId) :
    tree.whole (first ++ second) = tree.whole first ++ tree.whole second :=
  List.map_append

/-- The tokens of children, generation by generation, add the nodes of their subtrees. -/
def Replays (tree : DeviceTree) (levels : Nat) : Prop :=
  ∀ (parent : NodeId) (older younger done rest outer : List NodeId),
    tree.children parent = older ++ younger →
    (∀ child ∈ younger, tree.size ≤ child + levels) →
    tree.preorder = done ++ younger.flatMap (tree.subtree levels) ++ rest →
    (younger.flatMap (tree.nodeTokens levels)).foldlM Blob.Builder.accept
        (tree.replayed (tree.whole done) (tree.rank parent :: outer)) =
      .ok (tree.replayed (tree.whole (done ++ younger.flatMap (tree.subtree levels)))
        (tree.rank parent :: outer))

/-- A tree with every node numbered by its rank. -/
def renumbered (tree : DeviceTree) : DeviceTree :=
  tree.rebuilt (tree.whole tree.preorder)

namespace WellFormed

variable {tree : DeviceTree}

/-- The properties of the node that was begun last. -/
theorem foldlM_properties (h : tree.WellFormed) (hindexed : tree.Indexed) (hone : tree.OnePhandle)
    {done rest : List NodeId} {id : NodeId} (outer : List NodeId)
    (hpreorder : tree.preorder = done ++ id :: rest) :
    ((tree.properties id).map fun p => Token.property p.1 p.2).foldlM Blob.Builder.accept
        (tree.replayed (tree.whole done ++ [(id, [])]) (tree.rank id :: outer)) =
      .ok (tree.replayed (tree.whole (done ++ [id])) (tree.rank id :: outer)) := by
  have hwhole : tree.preorder = (tree.whole done).map Prod.fst ++ id :: rest := by
    rw [map_fst_whole, hpreorder]
  have hparts : ∀ part ∈ tree.whole done, part.2 ⊆ tree.properties part.1 := by
    intro part hpart
    obtain ⟨other, -, rfl⟩ := List.mem_map.1 hpart
    exact List.Subset.refl _
  have hstep : ∀ first second : List (String × Bytes), first ++ second = tree.properties id →
      (second.map fun p => Token.property p.1 p.2).foldlM Blob.Builder.accept
          (tree.replayed (tree.whole done ++ [(id, first)]) (tree.rank id :: outer)) =
        .ok (tree.replayed (tree.whole done ++ [(id, tree.properties id)])
          (tree.rank id :: outer)) := by
    intro first second
    induction second generalizing first with
    | nil =>
      intro hsplit
      rw [← hsplit, List.append_nil]
      rfl
    | cons p second ih =>
      intro hsplit
      have hsplit' : (first ++ [p]) ++ second = tree.properties id := by
        rw [List.append_assoc, List.singleton_append, hsplit]
      have hnew : p.1 ∉ first.map Prod.fst := by
        have hnodup := h.nodup_properties id
        rw [← hsplit, List.map_append, List.map_cons, List.nodup_middle, List.nodup_cons,
          List.mem_append, not_or] at hnodup
        exact hnodup.1.1
      have hset := h.setProperty_rebuilt hindexed hone hwhole hparts
        (hsplit' ▸ List.subset_append_left _ _) hnew
      rw [List.map_cons, List.foldlM_cons]
      simp only [replayed, Blob.Builder.accept, Blob.ofEdit, hset]
      exact ih (first ++ [p]) hsplit'
  rw [whole_append]
  exact hstep [] (tree.properties id) rfl

/-- The tokens of a node behind its first one, once those of its children are known. -/
theorem foldlM_node (h : tree.WellFormed) (hindexed : tree.Indexed) (hone : tree.OnePhandle)
    {levels : Nat} (hreplays : tree.Replays levels) {done rest : List NodeId} {id : NodeId}
    (outer : List NodeId) (hlevels : ∀ child ∈ tree.children id, tree.size ≤ child + levels)
    (hpreorder : tree.preorder = done ++ tree.subtree (levels + 1) id ++ rest) :
    ((tree.properties id).map (fun p => Token.property p.1 p.2) ++
        (tree.children id).flatMap (tree.nodeTokens levels) ++ [Token.endNode]).foldlM
          Blob.Builder.accept
        (tree.replayed (tree.whole done ++ [(id, [])]) (tree.rank id :: outer)) =
      .ok (tree.replayed (tree.whole (done ++ tree.subtree (levels + 1) id)) outer) := by
  have hhead : tree.preorder =
      done ++ id :: ((tree.children id).flatMap (tree.subtree levels) ++ rest) := by
    rw [hpreorder, subtree]
    simp only [List.append_assoc, List.cons_append]
  have hrest : tree.preorder =
      (done ++ [id]) ++ (tree.children id).flatMap (tree.subtree levels) ++ rest := by
    rw [hhead]
    simp only [List.append_assoc, List.cons_append, List.nil_append]
  have hproperties := h.foldlM_properties hindexed hone outer hhead
  have hchildren := hreplays id [] (tree.children id) (done ++ [id]) rest outer rfl hlevels hrest
  rw [List.foldlM_append, List.foldlM_append, hproperties]
  simp only [bind, Except.bind, hchildren]
  rw [subtree, List.append_assoc, List.singleton_append]
  rfl

/-- **Written subtrees are rebuilt**, whatever their shape. -/
theorem replays (h : tree.WellFormed) (hindexed : tree.Indexed) (hone : tree.OnePhandle)
    (levels : Nat) : tree.Replays levels := by
  induction levels with
  | zero =>
    intro parent older younger done rest outer hchildren hlevels _
    cases younger with
    | nil => simp [pure, Except.pure]
    | cons child younger =>
      have hchild : child ∈ tree.children parent :=
        hchildren ▸ List.mem_append_right _ List.mem_cons_self
      exact absurd (h.lt_size_of_mem_children hchild)
        (Nat.not_lt.2 (hlevels child List.mem_cons_self))
  | succ levels ih =>
    intro parent older younger done rest outer hchildren hlevels hpreorder
    induction younger generalizing older done with
    | nil => simp [pure, Except.pure]
    | cons child younger ihyounger =>
      have hchild : child ∈ tree.children parent :=
        hchildren ▸ List.mem_append_right _ List.mem_cons_self
      have hparent := (h.mem_children_iff parent child).1 hchild
      obtain ⟨name, hname⟩ := exists_name?_of_lt (h.lt_size_of_mem_children hchild)
      rw [List.flatMap_cons] at hpreorder
      have hnode : tree.preorder = done ++ tree.subtree (levels + 1) child ++
          (younger.flatMap (tree.subtree (levels + 1)) ++ rest) := by
        rw [hpreorder]
        simp only [List.append_assoc]
      have hhead : tree.preorder = (tree.whole done).map Prod.fst ++
          child :: ((tree.children child).flatMap (tree.subtree levels) ++
            (younger.flatMap (tree.subtree (levels + 1)) ++ rest)) := by
        rw [hnode, map_fst_whole, subtree, List.append_assoc, List.cons_append]
      have hbelow : ∀ other ∈ tree.children child, tree.size ≤ other + levels := fun other hother =>
        h.size_le_add_of_mem_children (hlevels child List.mem_cons_self) hother
      have hbody := h.foldlM_node hindexed hone ih (tree.rank parent :: outer) hbelow hnode
      have hyounger := ihyounger (older ++ [child]) (done ++ tree.subtree (levels + 1) child)
        (by rw [hchildren, List.append_assoc, List.singleton_append])
        (fun other hother => hlevels other (List.mem_cons_of_mem child hother))
        (by rw [hpreorder]; simp only [List.append_assoc])
      have hbegin : (tree.replayed (tree.whole done) (tree.rank parent :: outer)).accept
          (.beginNode name) = .ok (tree.replayed (tree.whole done ++ [(child, [])])
            (tree.rank child :: tree.rank parent :: outer)) := by
        simp only [Blob.Builder.accept, replayed, Blob.ofEdit,
          h.addNode_rebuilt hhead hname hparent]
        rfl
      rw [List.flatMap_cons, List.foldlM_append, nodeTokens_succ levels hname, List.cons_append,
        List.cons_append, List.foldlM_cons, hbegin]
      simp only [bind, Except.bind] at hbody ⊢
      rw [hbody, List.flatMap_cons, ← List.append_assoc]
      exact hyounger

/-! ## The whole tree -/

/-- A builder that has begun the root holds the part of the tree that has only the root. -/
theorem rebuilt_root (h : tree.WellFormed) {rest : List NodeId}
    (hpreorder : tree.preorder = NodeId.root :: rest) :
    tree.rebuilt [(NodeId.root, [])] = DeviceTree.empty.setBootCpu tree.bootCpu := by
  have hsplit : tree.preorder = [] ++ NodeId.root :: rest := hpreorder
  have hbegun : tree.begun [NodeId.root] NodeId.root = [] := h.begun_append_self hsplit
  rw [rebuilt, List.map_singleton, List.map_singleton, h.root_name, h.root_parent, hbegun]
  rfl

/-- **The tokens of a tree rebuild all of it.** -/
theorem foldlM_nodeTokens (h : tree.WellFormed) (hindexed : tree.Indexed) (hone : tree.OnePhandle) :
    (tree.nodeTokens tree.size NodeId.root).foldlM Blob.Builder.accept
        (Blob.Builder.start tree.bootCpu) =
      .ok (tree.replayed (tree.whole tree.preorder) []) := by
  obtain ⟨levels, hsize⟩ :=
    Nat.exists_eq_add_one_of_ne_zero (Nat.ne_zero_of_lt h.root_lt_size)
  have hpreorder := h.preorder_eq_subtree
  rw [hsize] at hpreorder ⊢
  have hsplit : tree.preorder = [] ++ tree.subtree (levels + 1) NodeId.root ++ [] := by
    rw [List.nil_append, List.append_nil, hpreorder]
  have hbelow : ∀ child ∈ tree.children NodeId.root, tree.size ≤ child + levels := by
    intro child hchild
    have := h.lt_of_mem_children hchild
    rw [hsize]
    omega
  have hbody := h.foldlM_node hindexed hone (h.replays hindexed hone levels) [] hbelow hsplit
  have hbegin : (Blob.Builder.start tree.bootCpu).accept (.beginNode "") =
      .ok (tree.replayed (tree.whole [] ++ [(NodeId.root, [])]) [tree.rank NodeId.root]) := by
    rw [subtree] at hpreorder
    rw [replayed, whole, List.map_nil, List.nil_append, h.rebuilt_root hpreorder, h.rank_root]
    rfl
  rw [nodeTokens_succ levels h.root_name, List.cons_append, List.cons_append, List.foldlM_cons,
    hbegin]
  simp only [bind, Except.bind] at hbody ⊢
  rw [hbody, List.nil_append, hpreorder]

/-- **Reading a written tree gives it back with its nodes renumbered.** -/
theorem ofBlob_toBlob_renumbered (h : tree.WellFormed) (hindexed : tree.Indexed)
    (hone : tree.OnePhandle) (hencodable : tree.Encodable) :
    ofBlob tree.toBlob = .ok tree.renumbered := by
  rw [h.ofBlob_toBlob_eq hencodable, h.foldlM_nodeTokens hindexed hone]
  have hfinish : (tree.replayed (tree.whole tree.preorder) []).finish = .ok tree.renumbered :=
    Blob.Builder.finish_eq_ok_iff.2 ⟨rfl, rfl, rfl⟩
  exact hfinish

end WellFormed
end DeviceTree
end RiscvTables
