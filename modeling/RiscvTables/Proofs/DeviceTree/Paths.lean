import Mathlib.Data.List.Induction
import RiscvTables.Proofs.DeviceTree.Walks

/-!
# Paths

A path spells the names on the way from the root down to a node, and a lookup goes that way again.
`namesTo` is that way as a list of names, read off the links above the node.  A path is its
spelling (`path_eq`, `WellFormed.path?_eq`), which loses nothing because no name is empty or holds
a `/` (`pathComponents_slash`), and a lookup finds the node whose way it is given
(`WellFormed.foldlM_childNamed?_eq_some_iff`): siblings have different names, so the first child
of a name is the only one.

The payoff is `Reachable.path_inverse`: nodes and their paths determine each other, and a lookup
that finds a node was given its path, up to empty components.
-/

set_option autoImplicit false

namespace RiscvTables
namespace DeviceTree

variable {tree : DeviceTree}

/-- The names from the root, which does not count, down to a node. -/
def namesTo (tree : DeviceTree) (id : NodeId) : List String :=
  ((tree.links id).map fun link => (tree.name? link.1).getD "?").reverse

/-! ## The spelling of a path -/

/-- A separator before every name is a separator before all of them and one between any two. -/
theorem join_map_slash (name : String) (rest : List String) :
    String.join ((name :: rest).map ("/" ++ ·)) = "/" ++ String.intercalate "/" (name :: rest) := by
  induction rest generalizing name with
  | nil => simp
  | cons next rest ih =>
    rw [List.map_cons, String.join_cons, ih, String.intercalate_cons_cons, String.append_assoc,
      String.append_assoc]

theorem partsUp_eq_map (tree : DeviceTree) (levels : Nat) (id : NodeId) :
    tree.partsUp levels id = (unroll tree.climbStep levels id).map fun link =>
      (tree.name? link.1).getD "?" := by
  induction levels generalizing id with
  | zero => rfl
  | succ levels ih =>
    rw [partsUp, unroll, climbStep]
    cases tree.parent? id with
    | none => rfl
    | some parent => exact congrArg _ (ih parent)

/-- **A path spells the names on the way to its node.** -/
theorem path_eq (tree : DeviceTree) (id : NodeId) :
    tree.path id = "/" ++ String.intercalate "/" (tree.namesTo id) := by
  have hparts : tree.partsUp tree.size id = (tree.namesTo id).reverse := by
    rw [partsUp_eq_map, namesTo, links, List.reverse_reverse]
  rw [path, hparts]
  cases hnames : tree.namesTo id with
  | nil => rfl
  | cons name rest =>
    rw [← join_map_slash]
    split
    next hnil => simp at hnil
    next => rw [List.reverse_reverse]

/-- Names without separators are read back from their spelling. -/
theorem pathComponents_slash {names : List String} (h : ∀ name ∈ names, validName name) :
    pathComponents ("/" ++ String.intercalate "/" names) = names := by
  have hvalid : ∀ name ∈ names.map String.toList, name ≠ [] ∧ '/' ∉ name := by
    intro chars hchars
    obtain ⟨name, hname, rfl⟩ := List.mem_map.1 hchars
    simpa [validName] using h name hname
  have hsplit : ("/" ++ String.intercalate "/" names).toList.splitOn '/' =
      [] :: if names = [] then [[]] else names.map String.toList := by
    rw [String.toList_append, String.toList_intercalate]
    cases names with
    | nil => rfl
    | cons name rest =>
      have hnot : ∀ chars ∈ [] :: (name :: rest).map String.toList, '/' ∉ chars := by
        intro chars hchars
        rcases List.mem_cons.1 hchars with rfl | hchars
        · exact List.not_mem_nil
        · exact (hvalid chars hchars).2
      rw [if_neg (List.cons_ne_nil name rest),
        ← List.splitOn_intercalate '/' hnot (List.cons_ne_nil _ _), List.map_cons,
        List.intercalate_cons_cons]
      rfl
  have hfilter : (names.map String.toList).filter (· ≠ []) = names.map String.toList := by
    rw [List.filter_eq_self]
    intro chars hchars
    exact decide_eq_true (hvalid chars hchars).1
  rw [pathComponents, hsplit]
  split
  next hnil => rw [hnil]; rfl
  next =>
    rw [List.filter_cons_of_neg (by simp), hfilter, List.map_map]
    simp [Function.comp_def, String.ofList_toList]

namespace WellFormed

/-! ## The way to a node -/

theorem links_of_parent? (h : tree.WellFormed) {id parent : NodeId}
    (hparent : tree.parent? id = some parent) :
    tree.links id = (id, parent) :: tree.links parent := by
  have hstep : tree.climbStep id = some ((id, parent), parent) := by
    rw [climbStep, hparent, Option.map_some]
  exact (h.yields_links id).eq (Yields.more hstep (h.yields_links parent))

theorem namesTo_of_parent?_eq_none (h : tree.WellFormed) {id : NodeId}
    (hparent : tree.parent? id = none) : tree.namesTo id = [] := by
  have hstep : tree.climbStep id = none := by rw [climbStep, hparent, Option.map_none]
  rw [namesTo, (h.yields_links id).eq (Yields.done hstep)]
  rfl

/-- A child is one name further than its parent. -/
theorem namesTo_of_parent? (h : tree.WellFormed) {id parent : NodeId} {name : String}
    (hparent : tree.parent? id = some parent) (hname : tree.name? id = some name) :
    tree.namesTo id = tree.namesTo parent ++ [name] := by
  rw [namesTo, namesTo, h.links_of_parent? hparent, List.map_cons, hname, List.reverse_cons]
  rfl

theorem validName_of_mem_namesTo (h : tree.WellFormed) {id : Nat} {name : String}
    (hname : name ∈ tree.namesTo id) : DeviceTree.validName name := by
  induction id using Nat.strongRecOn with
  | _ id ih =>
    cases hparent : tree.parent? id with
    | none =>
      rw [h.namesTo_of_parent?_eq_none hparent] at hname
      cases hname
    | some parent =>
      obtain ⟨own, hown⟩ := exists_name?_of_lt (lt_size_of_parent? hparent)
      have hroot : id ≠ NodeId.root := by
        rintro rfl
        cases h.root_parent.symm.trans hparent
      rw [h.namesTo_of_parent? hparent hown] at hname
      rcases List.mem_append.1 hname with hname | hname
      · exact ih parent (h.parent_lt id parent hparent) hname
      · exact List.mem_singleton.1 hname ▸ h.validName id own hroot hown

/-- The names on the way up are there if the node is. -/
theorem namesUp?_eq (h : tree.WellFormed) {levels id : Nat} (hid : id < tree.size)
    (hlevels : id < levels) :
    tree.namesUp? levels id = some ((unroll tree.climbStep levels id).map fun link =>
      (tree.name? link.1).getD "?") := by
  induction levels generalizing id with
  | zero => exact absurd hlevels (Nat.not_lt_zero id)
  | succ levels ih =>
    obtain ⟨name, hname⟩ := exists_name?_of_lt hid
    rw [namesUp?, node?_eq_some_of_name? hname, Option.bind_some, unroll, climbStep]
    cases hparent : tree.parent? id with
    | none => rfl
    | some parent =>
      have hlt := h.parent_lt id parent hparent
      have hnames := ih (h.parent_lt_size hparent)
        (Nat.lt_of_lt_of_le hlt (Nat.le_of_lt_succ hlevels))
      simp only [hnames, Option.map_some, List.map_cons, hname, Option.getD_some]

/-- **A node that is there has the path that messages show, and no other has one.** -/
theorem path?_eq (h : tree.WellFormed) (id : NodeId) :
    tree.path? id = if id < tree.size then some (tree.path id) else none := by
  split
  next hid =>
    rw [path?, h.namesUp?_eq hid hid, Option.map_some, path_eq]
    rfl
  next hid =>
    have hnode := node?_eq_none (Nat.le_of_not_lt hid)
    rw [path?]
    cases tree.size with
    | zero => rfl
    | succ levels => rw [namesUp?, hnode, Option.bind_none, Option.map_none]

/-! ## The way back -/

/-- The first child of a name is the only one. -/
theorem childNamed?_eq_some_iff (h : tree.WellFormed) {parent child : NodeId} {name : String} :
    tree.childNamed? parent name = some child ↔
      tree.parent? child = some parent ∧ tree.name? child = some name := by
  have hsound : ∀ first, tree.childNamed? parent name = some first →
      tree.parent? first = some parent ∧ tree.name? first = some name := by
    intro first hfirst
    rw [childNamed?] at hfirst
    have hname := List.find?_some hfirst
    exact ⟨(h.mem_children_iff parent first).1 (List.mem_of_find?_eq_some hfirst), eq_of_beq hname⟩
  refine ⟨hsound child, fun hchild => ?_⟩
  have hfound : (tree.childNamed? parent name).isSome := by
    rw [childNamed?, List.find?_isSome]
    exact ⟨child, (h.mem_children_iff parent child).2 hchild.1, beq_iff_eq.2 hchild.2⟩
  obtain ⟨first, hfirst⟩ := Option.isSome_iff_exists.1 hfound
  have hsame := h.sibling_eq first child parent (hsound first hfirst).1 hchild.1
    ((hsound first hfirst).2.trans hchild.2.symm)
  exact hsame ▸ hfirst

/-- **Going down from child to child by names leads to the node with these names above it.** -/
theorem foldlM_childNamed?_eq_some_iff (h : tree.WellFormed) {names : List String} {id : NodeId} :
    names.foldlM (fun parent name => tree.childNamed? parent name) NodeId.root = some id ↔
      id < tree.size ∧ tree.namesTo id = names := by
  induction names using List.reverseRecOn generalizing id with
  | nil =>
    rw [List.foldlM_nil, Option.pure_def, Option.some.injEq]
    constructor
    · rintro rfl
      exact ⟨h.root_lt_size, h.namesTo_of_parent?_eq_none h.root_parent⟩
    · rintro ⟨hid, hnames⟩
      by_contra hroot
      obtain ⟨parent, hparent⟩ := h.exists_parent id hid (Ne.symm hroot)
      obtain ⟨name, hname⟩ := exists_name?_of_lt hid
      rw [h.namesTo_of_parent? hparent hname] at hnames
      exact List.append_ne_nil_of_right_ne_nil _ (List.cons_ne_nil name []) hnames
  | append_singleton names name ih =>
    rw [List.foldlM_append, Option.bind_eq_bind, Option.bind_eq_some_iff]
    simp only [List.foldlM_cons, List.foldlM_nil, bind_pure, ih, h.childNamed?_eq_some_iff]
    constructor
    · rintro ⟨parent, ⟨-, rfl⟩, hparent, hname⟩
      exact ⟨lt_size_of_name? hname, h.namesTo_of_parent? hparent hname⟩
    · rintro ⟨hid, hnames⟩
      cases hparent : tree.parent? id with
      | none =>
        rw [h.namesTo_of_parent?_eq_none hparent] at hnames
        exact absurd hnames.symm (List.append_ne_nil_of_right_ne_nil _ (List.cons_ne_nil name []))
      | some parent =>
        obtain ⟨own, hown⟩ := exists_name?_of_lt hid
        rw [h.namesTo_of_parent? hparent hown] at hnames
        obtain ⟨rfl, hlast⟩ := List.append_inj' hnames rfl
        obtain rfl := List.singleton_inj.1 hlast
        exact ⟨parent, ⟨h.parent_lt_size hparent, rfl⟩, rfl, hown⟩

/-- **A lookup finds the node whose names are the components.** -/
theorem find?_eq_some_iff (h : tree.WellFormed) {text : String} {id : NodeId} :
    tree.find? text = some id ↔ id < tree.size ∧ tree.namesTo id = pathComponents text :=
  h.foldlM_childNamed?_eq_some_iff

theorem pathComponents_path (h : tree.WellFormed) (id : NodeId) :
    pathComponents (tree.path id) = tree.namesTo id := by
  rw [path_eq, pathComponents_slash fun name hname => h.validName_of_mem_namesTo hname]

end WellFormed

/-- **Paths and nodes determine each other.**  A node that is there is found at its path, the one
that messages show, so no two nodes share a path; and where a lookup finds a node, the path of the
node is what was looked up, without the empty components.  The way up that a path is made of ends
from every number, one that no node has included. -/
theorem Reachable.path_inverse {tree : DeviceTree} (h : tree.Reachable) :
    (∀ id, id < tree.size →
      tree.path? id = some (tree.path id) ∧ tree.find? (tree.path id) = some id) ∧
      (∀ first second, first < tree.size → second < tree.size →
        tree.path first = tree.path second → first = second) ∧
      (∀ text id, tree.find? text = some id → id < tree.size ∧
        tree.path id = "/" ++ String.intercalate "/" (pathComponents text)) ∧
      ∀ id, Yields tree.climbStep id (tree.links id) ∧
        tree.path id = "/" ++ String.intercalate "/" (tree.namesTo id) ∧
        tree.path? id = if id < tree.size then some (tree.path id) else none := by
  have hwf := h.wellFormed
  have hfind : ∀ id, id < tree.size → tree.find? (tree.path id) = some id := fun id hid =>
    hwf.find?_eq_some_iff.2 ⟨hid, (hwf.pathComponents_path id).symm⟩
  refine ⟨fun id hid => ?_, fun first second hfirst hsecond hpath => ?_, fun text id hfound => ?_,
    fun id => ⟨hwf.yields_links id, tree.path_eq id, hwf.path?_eq id⟩⟩
  · rw [hwf.path?_eq, if_pos hid]
    exact ⟨rfl, hfind id hid⟩
  · exact Option.some.inj ((hfind first hfirst).symm.trans (hpath ▸ hfind second hsecond))
  · obtain ⟨hid, hnames⟩ := hwf.find?_eq_some_iff.1 hfound
    rw [path_eq, hnames]
    exact ⟨hid, rfl⟩

/-- The last `cpu` of the two branches is found without the first separator and with too many of
the others, and a number that no node has is shown as the root. -/
theorem path_twoBranchEdits :
    ∃ tree, ofEdits? twoBranchEdits = some tree ∧ tree.Reachable ∧
      tree.find? "cpus//cpu@1/" = some 5 ∧ tree.path 5 = "/cpus/cpu@1" ∧
      tree.path? 5 = some "/cpus/cpu@1" ∧ tree.find? "/cpus/cpu@1" = some 5 ∧
      tree.path? 7 = none ∧ tree.path 7 = "/" := by
  have hmade : (ofEdits? twoBranchEdits).any fun tree =>
      decide (tree.size = 7) && decide (tree.find? "cpus//cpu@1/" = some 5) &&
        decide (tree.namesTo 7 = []) := by decide +kernel
  obtain ⟨tree, htree, hmade⟩ := (Option.any_eq_true _ _).1 hmade
  simp only [Bool.and_eq_true, decide_eq_true_eq] at hmade
  obtain ⟨⟨hsize, hfound⟩, hnames⟩ := hmade
  have hreachable := reachable_of_ofEdits? htree
  obtain ⟨hthere, -, hlookup, hup⟩ := hreachable.path_inverse
  obtain ⟨hid, hpath⟩ := hlookup _ _ hfound
  have hspelled : tree.path 5 = "/cpus/cpu@1" := hpath.trans (by decide +kernel)
  obtain ⟨hpath?, hback⟩ := hthere 5 hid
  obtain ⟨-, hshown, hnone⟩ := hup 7
  rw [hspelled] at hpath? hback
  rw [hsize, if_neg (Nat.lt_irrefl 7)] at hnone
  rw [hnames] at hshown
  exact ⟨tree, htree, hreachable, hfound, hspelled, hpath?, hback, hnone, hshown⟩

end DeviceTree
end RiscvTables
