import RiscvTables.Proofs.DeviceTree.InOrder
import RiscvTables.Proofs.DeviceTree.Replay

/-!
# Blobs keep trees

Reading a written tree gives the tree back, with each node numbered by its place in pre-order
(`ofBlob_toBlob`).  `SameUpTo` says what that means lookup by lookup.  Two sorts of tree have no
blob that says what they are: those with a name that holds a zero byte, and those with a node
whose two phandle properties disagree, of which the index knows one and the blob both.
-/

set_option autoImplicit false

namespace RiscvTables
namespace DeviceTree

/-- Two trees are the same up to the numbers of their nodes. -/
structure SameUpTo (renumber : NodeId → NodeId) (tree tree' : DeviceTree) : Prop where
  bootCpu : tree'.bootCpu = tree.bootCpu
  size : tree'.size = tree.size
  name? : ∀ id, id < tree.size → tree'.name? (renumber id) = tree.name? id
  properties : ∀ id, id < tree.size → tree'.properties (renumber id) = tree.properties id
  parent? : ∀ id, id < tree.size → tree'.parent? (renumber id) = (tree.parent? id).map renumber
  children : ∀ id, id < tree.size →
    tree'.children (renumber id) = (tree.children id).map renumber
  phandleOwner? : ∀ phandle,
    tree'.phandleOwner? phandle = (tree.phandleOwner? phandle).map renumber

namespace WellFormed

variable {tree : DeviceTree}

/-! ## The renumbered tree -/

theorem node?_renumbered (h : tree.WellFormed) {id : Nat} (hid : id < tree.size) :
    tree.renumbered.node? (tree.rank id) =
      some { name := (tree.name? id).getD "", parent := (tree.parent? id).map tree.rank,
             children := (tree.children id).map tree.rank, properties := tree.properties id } := by
  have hbegun : tree.begun tree.preorder id = (tree.children id).map tree.rank := by
    rw [begun, List.filter_eq_self.2]
    exact fun child hchild =>
      decide_eq_true (h.mem_preorder_iff.2 (h.lt_size_of_mem_children hchild))
  rw [renumbered, node?_rebuilt, map_fst_whole, whole, List.getElem?_map, h.getElem?_rank hid,
    Option.map_some, Option.map_some, hbegun]

/-- The renumbered tree owns the same phandles. -/
theorem mem_phandles_renumbered_iff (h : tree.WellFormed) (hindexed : tree.Indexed)
    (hone : tree.OnePhandle) {phandle : UInt32} {owner : NodeId} :
    (phandle, owner) ∈ tree.renumbered.phandles ↔
      ∃ id, (phandle, id) ∈ tree.phandles ∧ owner = tree.rank id := by
  constructor
  · intro hmem
    have hparts : ∀ part ∈ tree.whole tree.preorder, part.2 ⊆ tree.properties part.1 := by
      intro part hpart
      obtain ⟨id, -, rfl⟩ := List.mem_map.1 hpart
      exact List.Subset.refl _
    obtain ⟨id, -, howner, hentry⟩ :=
      h.exists_of_mem_phandles_rebuilt hindexed hone hparts hmem
    exact ⟨id, hentry, howner⟩
  · rintro ⟨id, hmem, rfl⟩
    obtain ⟨name, hname, value, hp, hvalue⟩ := hindexed.exists_property phandle id hmem
    have hid : id < tree.size := by
      rw [← Nat.not_le]
      intro hle
      rw [properties, node?_eq_none hle] at hp
      cases hp
    have hfound : phandleIn? (tree.properties id) = some phandle := by
      cases hfind : phandleIn? (tree.properties id) with
      | none =>
        have hnone := List.findSome?_eq_none_iff.1 hfind (name, value) hp
        rw [if_pos hname, hvalue] at hnone
        cases hnone
      | some found =>
        have hfound := h.mem_phandles_of_phandleIn? hindexed hone (List.Subset.refl _) hfind
        have heq := List.inj_on_of_nodup_map hindexed.nodup_owners hfound hmem rfl
        exact congrArg some (Prod.mk.inj heq).1
    refine List.mem_filterMap.2 ⟨(id, tree.properties id), ?_, ?_⟩
    · rw [List.mem_reverse]
      exact List.mem_map_of_mem (h.mem_preorder_iff.2 hid)
    · rw [hfound]
      rfl

/-- **The renumbered tree is the tree up to the numbers of its nodes.** -/
theorem sameUpTo_renumbered (h : tree.WellFormed) (hindexed : tree.Indexed) (hone : tree.OnePhandle)
    (hrenumbered : tree.renumbered.Indexed) : SameUpTo tree.rank tree tree.renumbered where
  bootCpu := rfl
  size := by rw [renumbered, size_rebuilt, whole, List.length_map, h.length_preorder]
  name? := by
    intro id hid
    obtain ⟨name, hname⟩ := exists_name?_of_lt hid
    rw [DeviceTree.name?, h.node?_renumbered hid, hname]
    rfl
  properties := by
    intro id hid
    rw [DeviceTree.properties, h.node?_renumbered hid]
    rfl
  parent? := by
    intro id hid
    rw [DeviceTree.parent?, h.node?_renumbered hid]
    rfl
  children := by
    intro id hid
    rw [DeviceTree.children, h.node?_renumbered hid]
    rfl
  phandleOwner? := by
    intro phandle
    refine Option.ext fun owner => ?_
    rw [hrenumbered.phandleOwner?_eq_some_iff, h.mem_phandles_renumbered_iff hindexed hone,
      Option.map_eq_some_iff]
    refine exists_congr fun id => ?_
    rw [hindexed.phandleOwner?_eq_some_iff, eq_comm]

end WellFormed

/-! ## Reading undoes writing -/

/-- **Reading undoes writing**, up to the numbers of the nodes; and a tree that was itself read
from a blob keeps these numbers. -/
theorem ofBlob_toBlob {tree : DeviceTree} (hreachable : tree.Reachable)
    (hencodable : tree.Encodable) (hone : tree.OnePhandle) :
    (∃ tree', ofBlob tree.toBlob = .ok tree' ∧ SameUpTo tree.rank tree tree') ∧
      tree.preorder.Perm (List.range tree.size) ∧
      ((∃ data, ofBlob data = .ok tree) → ∀ id, id < tree.size → tree.rank id = id) := by
  have hwf := hreachable.wellFormed
  have hread := hwf.ofBlob_toBlob_renumbered hreachable.indexed hone hencodable
  refine ⟨⟨tree.renumbered, hread, ?_⟩, hwf.perm_preorder, ?_⟩
  · exact hwf.sameUpTo_renumbered hreachable.indexed hone (Reachable.ofBlob hread).indexed
  · rintro ⟨data, hdata⟩ id hid
    refine hwf.rank_eq_of_getElem? ?_
    rw [preorder_of_ofBlob hdata, List.getElem?_range hid]

/-- The edits of a tree whose nodes are not added in pre-order. -/
def sampleEdits : Except EditError DeviceTree := do
  let (tree, cpus) ← empty.addNode NodeId.root "cpus"
  let (tree, soc) ← tree.addNode NodeId.root "soc"
  let (tree, cpu) ← tree.addNode cpus "cpu@0"
  let tree ← tree.setProperty soc "linux,phandle" [0, 0, 0, 1]
  let tree ← tree.setProperty soc "phandle" [0, 0, 0, 1]
  let tree ← tree.setProperty cpu "reg" [0, 0, 0, 0]
  return tree.setBootCpu 3

/-- The tree of these edits. -/
def sampleTree : DeviceTree :=
  match sampleEdits with
  | .ok tree => tree
  | .error _ => DeviceTree.empty

theorem sampleTree_reachable : sampleTree.Reachable := by
  have hedits : sampleEdits = .ok sampleTree := by decide +kernel
  obtain ⟨⟨tree, cpus⟩, h, hedits⟩ := Except.bind_eq_ok_iff.1 hedits
  have hreachable := Reachable.empty.addNode h
  obtain ⟨⟨tree, soc⟩, h, hedits⟩ := Except.bind_eq_ok_iff.1 hedits
  replace hreachable := hreachable.addNode h
  obtain ⟨⟨tree, cpu⟩, h, hedits⟩ := Except.bind_eq_ok_iff.1 hedits
  replace hreachable := hreachable.addNode h
  obtain ⟨tree, h, hedits⟩ := Except.bind_eq_ok_iff.1 hedits
  replace hreachable := hreachable.setProperty h
  obtain ⟨tree, h, hedits⟩ := Except.bind_eq_ok_iff.1 hedits
  replace hreachable := hreachable.setProperty h
  obtain ⟨tree, h, hedits⟩ := Except.bind_eq_ok_iff.1 hedits
  exact Except.pure_eq_ok_iff.1 hedits ▸ (hreachable.setProperty h).setBootCpu 3

theorem ofBlob_toBlob_sampleTree :
    sampleTree.Reachable ∧ sampleTree.Encodable ∧ sampleTree.OnePhandle ∧ sampleTree.rank 3 = 2 ∧
      ∃ tree', ofBlob sampleTree.toBlob = .ok tree' ∧
        SameUpTo sampleTree.rank sampleTree tree' := by
  have hencodable : sampleTree.Encodable :=
    ⟨by decide +kernel, by decide +kernel, by decide +kernel⟩
  have hone : sampleTree.OnePhandle := by
    show ∀ node ∈ sampleTree.nodes, ∀ value ∈ node.property? "phandle",
      ∀ other ∈ node.property? "linux,phandle", value = other
    decide +kernel
  exact ⟨sampleTree_reachable, hencodable, hone, by decide +kernel,
    (ofBlob_toBlob sampleTree_reachable hencodable hone).1⟩

end DeviceTree
end RiscvTables
