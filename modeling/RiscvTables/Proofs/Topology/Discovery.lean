import Mathlib.Data.List.Perm.Subperm
import Mathlib.Data.List.TakeWhile
import RiscvTables.Proofs.DeviceTree.Cells
import RiscvTables.Proofs.DeviceTree.WellFormed
import RiscvTables.Proofs.Topology.Harts

/-!
# Which trees have harts

Discovery goes through the cpus one by one and stops at the first that it cannot use.  What it
demands can be said without that order: `Discoverable` is about the children of one node, their
names and the bytes of their `reg`, and mentions no table and no error.  It is necessary and
sufficient, and the table that comes out is determined down to the last field
(`Reachable.resolveHarts_exact`).

A hart id is spelled by the leading bytes of a `reg`, four for each cell.  The code takes a value
apart into cells first; `hartId_eq_ok_iff` says that this is the same number.
-/

set_option autoImplicit false

namespace RiscvTables
namespace DeviceTree

variable {tree : DeviceTree} {cpus cpu : NodeId} {name : String} {table : HartTable}

/-! ## What discovery demands -/

/-- A cpu of a node is a child that is called `cpu`, with or without a unit address. -/
def IsCpuOf (tree : DeviceTree) (cpus cpu : NodeId) : Prop :=
  cpu ∈ tree.children cpus ∧
    ∃ name, tree.name? cpu = some name ∧ (name = "cpu" ∨ ∃ address, name = "cpu@" ++ address)

/-- How many cells the hart ids below a node have: what the first four bytes of `#address-cells`
say, and 2 if there are no four bytes. -/
def idCells (tree : DeviceTree) (cpus : NodeId) : Nat :=
  match tree.property? cpus "#address-cells" with
  | none => 2
  | some value => if 4 ≤ value.length then BigEndian.decode (value.take 4) else 2

/-- The `reg` of a cpu is cells, at least as many as a hart id has. -/
def HasIdCells (tree : DeviceTree) (cpus cpu : NodeId) : Prop :=
  ∃ value, tree.property? cpu "reg" = some value ∧
    value.length % 4 = 0 ∧ 4 * tree.idCells cpus ≤ value.length

/-- The number that the leading cells of a `reg` spell, the most significant byte first. -/
def leadingNumber (tree : DeviceTree) (cpus cpu : NodeId) : Nat :=
  BigEndian.decode (((tree.property? cpu "reg").getD []).take (4 * tree.idCells cpus))

/-- The cpus of a node can all be discovered. -/
structure Discoverable (tree : DeviceTree) (cpus : NodeId) : Prop where
  exists_cpu : ∃ cpu, tree.IsCpuOf cpus cpu
  isCompatible : ∀ cpu, tree.IsCpuOf cpus cpu → tree.isCompatible cpu "riscv"
  idCells_eq : tree.idCells cpus = 1 ∨ tree.idCells cpus = 2
  hasIdCells : ∀ cpu, tree.IsCpuOf cpus cpu → tree.HasIdCells cpus cpu
  /-- Different cpus have different hart ids. -/
  eq_of_leadingNumber_eq : ∀ first second, tree.IsCpuOf cpus first → tree.IsCpuOf cpus second →
    tree.leadingNumber cpus first = tree.leadingNumber cpus second → first = second

/-! ## What discovery makes -/

/-- The hart that the cpu at a position is, before anything wires it. -/
structure IsFreshHart (tree : DeviceTree) (cpus : NodeId) (i : Nat) (cpu : NodeId)
    (entry : HartEntry) : Prop where
  version_eq : entry.record.version = 1
  /-- The hart is enabled, and no other flag is set. -/
  flags_eq : entry.record.flags = 1
  toNat_hartId : entry.record.hartId.toNat = tree.leadingNumber cpus cpu
  toNat_processorUid : entry.record.processorUid.toNat = i
  externalId_eq : entry.record.externalId = 0
  imsicBase_eq : entry.record.imsicBase = 0
  imsicSize_eq : entry.record.imsicSize = 0
  wiredBy_eq : entry.wiredBy = none

/-- The table has one fresh hart for each cpu, in the order of the children, and no other. -/
def ListsCpus (tree : DeviceTree) (cpus : NodeId) (table : HartTable) : Prop :=
  ∃ cpuList : List NodeId, cpuList.Sublist (tree.children cpus) ∧ cpuList.Nodup ∧
    (∀ cpu, cpu ∈ cpuList ↔ tree.IsCpuOf cpus cpu) ∧
    table.entries.length = cpuList.length ∧
    ∀ i cpu entry, cpuList[i]? = some cpu → table.entries[i]? = some entry →
      tree.IsFreshHart cpus i cpu entry

/-! ## The cpus of a node -/

theorem takeWhile_ne_eq_iff {c : Char} {chars front : List Char} (h : c ∉ front) :
    chars.takeWhile (· ≠ c) = front ↔ chars = front ∨ ∃ rest, chars = front ++ c :: rest := by
  have hfront : ∀ x ∈ front, decide (x ≠ c) = true := by
    intro x hx
    exact decide_eq_true fun heq => h (heq ▸ hx)
  constructor
  · rintro rfl
    have hsplit := List.takeWhile_append_dropWhile (p := fun x => decide (x ≠ c)) (l := chars)
    cases hrest : chars.dropWhile fun x => decide (x ≠ c) with
    | nil =>
      rw [hrest, List.append_nil] at hsplit
      exact Or.inl hsplit.symm
    | cons x rest =>
      have hx := List.head?_dropWhile_not (fun x => decide (x ≠ c)) chars
      rw [hrest] at hx hsplit
      obtain rfl : x = c := by simpa using hx
      exact Or.inr ⟨rest, hsplit.symm⟩
  · rintro (rfl | ⟨rest, rfl⟩)
    · exact List.takeWhile_eq_self_iff.2 hfront
    · rw [List.takeWhile_append_of_pos hfront, List.takeWhile_cons_of_neg (by simp),
        List.append_nil]

theorem unitName_eq_cpu_iff {node : Node} :
    node.unitName = "cpu" ↔ node.name = "cpu" ∨ ∃ address, node.name = "cpu@" ++ address := by
  have hname : ∀ chars, node.name.toList = chars ↔ node.name = String.ofList chars := by
    intro chars
    rw [← String.toList_inj, String.toList_ofList]
  have hcpu : node.unitName = "cpu" ↔
      node.name.toList.takeWhile (· ≠ '@') = ['c', 'p', 'u'] := by
    rw [Node.unitName, ← String.toList_inj, String.toList_ofList]
    rfl
  rw [hcpu, takeWhile_ne_eq_iff (by decide), hname]
  refine or_congr Iff.rfl ⟨?_, ?_⟩
  · rintro ⟨rest, hrest⟩
    refine ⟨String.ofList rest, ?_⟩
    rw [← String.toList_inj, hrest, String.toList_append, String.toList_ofList (l := rest)]
    rfl
  · rintro ⟨address, haddress⟩
    refine ⟨address.toList, ?_⟩
    rw [haddress, String.toList_append]
    rfl

theorem mem_cpuNodes_iff : cpu ∈ tree.cpuNodes cpus ↔ tree.IsCpuOf cpus cpu := by
  rw [cpuNodes, List.mem_filter, IsCpuOf, name?, Option.any_eq_true]
  refine and_congr_right fun _ => ?_
  simp only [decide_eq_true_eq, unitName_eq_cpu_iff, Option.map_eq_some_iff]
  constructor
  · rintro ⟨node, hnode, hname⟩
    exact ⟨node.name, ⟨node, hnode, rfl⟩, hname⟩
  · rintro ⟨_, ⟨node, hnode, rfl⟩, hname⟩
    exact ⟨node, hnode, hname⟩

theorem WellFormed.nodup_cpuNodes (h : tree.WellFormed) (cpus : NodeId) :
    (tree.cpuNodes cpus).Nodup :=
  (h.nodup_children cpus).filter _

theorem WellFormed.length_children_le (h : tree.WellFormed) (id : NodeId) :
    (tree.children id).length ≤ tree.size := by
  have hsubset : tree.children id ⊆ List.range tree.size := fun child hchild =>
    List.mem_range.2 (h.lt_size_of_mem_children hchild)
  have hle := (List.subperm_of_subset (h.nodup_children id) hsubset).length_le
  rwa [List.length_range] at hle

/-! ## Hart ids -/

theorem addressCells_eq_idCells : tree.addressCells cpus = tree.idCells cpus := by
  rw [addressCells, idCells]
  cases tree.property? cpus "#address-cells" with
  | none => rfl
  | some value =>
    rw [Option.bind_some, PropertyValue.cellAt?_eq]
    by_cases hlength : 4 ≤ value.length
    · have hlt := BigEndian.decode_lt (value.take 4)
      rw [List.length_take_of_le hlength] at hlt
      simp only [Nat.mul_zero, Nat.zero_add, if_pos hlength, List.drop_zero, Option.getD_some]
      exact UInt32.toNat_ofNat_of_lt' hlt
    · simp [hlength]

theorem hasIdCells_iff : tree.HasIdCells cpus cpu ↔ ∃ cells,
    tree.property? cpu "reg" = some (PropertyValue.ofCells cells) ∧
      tree.idCells cpus ≤ cells.length := by
  constructor
  · rintro ⟨value, hvalue, haligned, hlong⟩
    obtain ⟨cells, hcells⟩ := PropertyValue.exists_cells?_iff.2 haligned
    obtain rfl := PropertyValue.cells?_eq_some_iff.1 hcells
    rw [PropertyValue.length_ofCells] at hlong
    exact ⟨cells, hvalue, by omega⟩
  · rintro ⟨cells, hvalue, hlong⟩
    refine ⟨_, hvalue, ?_, ?_⟩ <;> rw [PropertyValue.length_ofCells] <;> omega

/-- A number of one or two cells fits the hart id. -/
theorem leadingNumber_lt (hcells : tree.idCells cpus = 1 ∨ tree.idCells cpus = 2)
    (h : tree.HasIdCells cpus cpu) : tree.leadingNumber cpus cpu < UInt64.size := by
  obtain ⟨value, hvalue, -, hlong⟩ := h
  have hlt := BigEndian.decode_lt (value.take (4 * tree.idCells cpus))
  rw [leadingNumber, hvalue, Option.getD_some]
  rw [List.length_take_of_le hlong] at hlt
  rcases hcells with hone | htwo
  · rw [hone] at hlt ⊢
    exact Nat.lt_trans hlt (by decide)
  · rw [htwo] at hlt ⊢
    exact hlt

/-- **When a cpu has a hart id, and which.** -/
theorem hartId_eq_ok_iff (hparent : tree.parent? cpu = some cpus) {id : UInt64} :
    tree.hartId cpu = .ok id ↔ (tree.idCells cpus = 1 ∨ tree.idCells cpus = 2) ∧
      tree.HasIdCells cpus cpu ∧ id.toNat = tree.leadingNumber cpus cpu := by
  have hwidth : (tree.idCells cpus < 1 ∨ 2 < tree.idCells cpus) ↔
      ¬ (tree.idCells cpus = 1 ∨ tree.idCells cpus = 2) := by omega
  rw [hartId, hparent]
  simp only [addressCells_eq_idCells, hwidth, ite_not]
  by_cases hcells : tree.idCells cpus = 1 ∨ tree.idCells cpus = 2
  · rw [if_pos hcells, and_iff_right hcells]
    by_cases hreg : tree.HasIdCells cpus cpu
    · have hsmall := leadingNumber_lt hcells hreg
      obtain ⟨cells, hvalue, hlong⟩ := hasIdCells_iff.1 hreg
      have htake : (cells.take (tree.idCells cpus)).length ≤ 2 := by
        rw [List.length_take_of_le hlong]
        omega
      have hnumber : PropertyValue.numberOfCells? (cells.take (tree.idCells cpus)) =
          some (tree.leadingNumber cpus cpu) := by
        rw [PropertyValue.numberOfCells?_eq_decode htake, leadingNumber, hvalue, Option.getD_some,
          PropertyValue.take_ofCells]
      simp only [hvalue, Option.bind_some, PropertyValue.cells?_eq_some_iff.2 rfl,
        if_neg (Nat.not_lt.2 hlong), hnumber]
      rw [and_iff_right hreg, Except.ok.injEq, ← UInt64.toNat_inj,
        UInt64.toNat_ofNat_of_lt' hsmall, eq_comm]
    · have hrefused : ∀ cells, (tree.property? cpu "reg").bind PropertyValue.cells? = some cells →
          cells.length < tree.idCells cpus := by
        intro cells h
        obtain ⟨value, hvalue, hread⟩ := Option.bind_eq_some_iff.1 h
        obtain rfl := PropertyValue.cells?_eq_some_iff.1 hread
        exact Nat.not_le.1 fun hlong => hreg (hasIdCells_iff.2 ⟨cells, hvalue, hlong⟩)
      refine ⟨fun h => ?_, fun h => absurd h.1 hreg⟩
      split at h
      next => cases h
      next cells hcells =>
        rw [if_pos (hrefused cells hcells)] at h
        cases h
  · rw [if_neg hcells]
    exact ⟨nofun, fun h => absurd h.1 hcells⟩

/-- When all of some cpus have a hart id, and which. -/
theorem WellFormed.forall₂_hartId_iff (h : tree.WellFormed) {cpuList : List NodeId}
    (hmem : ∀ cpu ∈ cpuList, cpu ∈ tree.children cpus) {ids : List UInt64} :
    List.Forall₂ (fun cpu id => tree.hartId cpu = .ok id) cpuList ids ↔
      (∀ cpu ∈ cpuList,
        (tree.idCells cpus = 1 ∨ tree.idCells cpus = 2) ∧ tree.HasIdCells cpus cpu) ∧
        cpuList.map (tree.leadingNumber cpus) = ids.map UInt64.toNat := by
  have hone : ∀ cpu id, (cpu ∈ tree.children cpus ∧ tree.hartId cpu = .ok id) ↔
      cpu ∈ tree.children cpus ∧
        ((tree.idCells cpus = 1 ∨ tree.idCells cpus = 2) ∧ tree.HasIdCells cpus cpu) ∧
          tree.leadingNumber cpus cpu = id.toNat := by
    refine fun cpu id => and_congr_right fun hchild => ?_
    rw [hartId_eq_ok_iff ((h.mem_children_iff cpus cpu).1 hchild), and_assoc,
      eq_comm (a := id.toNat)]
  rw [← and_iff_right (b := List.Forall₂ _ cpuList ids) hmem, ← List.forall₂_and_left]
  simp only [hone]
  rw [List.forall₂_and_left, and_iff_right hmem, List.forall₂_and_left, ← List.forall₂_eq_eq_eq,
    List.forall₂_map_left_iff, List.forall₂_map_right_iff]

/-! ## Exactness -/

theorem WellFormed.exists_resolveHarts_iff (h : tree.WellFormed) (cpus : NodeId) :
    (∃ table, (tree.resolveHarts cpus).outcome = .ok table) ↔ tree.Discoverable cpus := by
  have hmem : ∀ cpu ∈ tree.cpuNodes cpus, cpu ∈ tree.children cpus := fun cpu hcpu =>
    (mem_cpuNodes_iff.1 hcpu).1
  simp only [outcome_resolveHarts_eq_ok_iff, h.forall₂_hartId_iff hmem]
  constructor
  · rintro ⟨table, hne, hcompatible, ids, ⟨hcells, hnumbers⟩, hnodup, -⟩
    obtain ⟨cpu, hcpu⟩ := List.exists_mem_of_ne_nil _ hne
    refine ⟨⟨cpu, mem_cpuNodes_iff.1 hcpu⟩, ?_, (hcells cpu hcpu).1, ?_, ?_⟩
    · exact fun cpu hcpu => hcompatible cpu (mem_cpuNodes_iff.2 hcpu)
    · exact fun cpu hcpu => (hcells cpu (mem_cpuNodes_iff.2 hcpu)).2
    · intro first second hfirst hsecond heq
      have hdistinct := hnodup.map fun a b => UInt64.toNat_inj.1
      rw [← hnumbers] at hdistinct
      exact List.inj_on_of_nodup_map hdistinct (mem_cpuNodes_iff.2 hfirst)
        (mem_cpuNodes_iff.2 hsecond) heq
  · intro hdiscoverable
    obtain ⟨cpu, hcpu⟩ := hdiscoverable.exists_cpu
    have hnumbers : (tree.cpuNodes cpus).map (tree.leadingNumber cpus) =
        ((tree.cpuNodes cpus).map fun cpu =>
          UInt64.ofNat (tree.leadingNumber cpus cpu)).map UInt64.toNat := by
      rw [List.map_map]
      refine List.map_congr_left fun cpu hcpu => ?_
      exact (UInt64.toNat_ofNat_of_lt' (leadingNumber_lt hdiscoverable.idCells_eq
        (hdiscoverable.hasIdCells cpu (mem_cpuNodes_iff.1 hcpu)))).symm
    refine ⟨⟨HartTable.freshEntries 0 _⟩, List.ne_nil_of_mem (mem_cpuNodes_iff.2 hcpu), ?_, _,
      ⟨?_, hnumbers⟩, ?_, rfl⟩
    · exact fun cpu hcpu => hdiscoverable.isCompatible cpu (mem_cpuNodes_iff.1 hcpu)
    · exact fun cpu hcpu =>
        ⟨hdiscoverable.idCells_eq, hdiscoverable.hasIdCells cpu (mem_cpuNodes_iff.1 hcpu)⟩
    · refine List.Nodup.of_map UInt64.toNat ?_
      rw [← hnumbers, List.nodup_map_iff_inj_on (h.nodup_cpuNodes cpus)]
      intro first hfirst second hsecond
      exact hdiscoverable.eq_of_leadingNumber_eq first second (mem_cpuNodes_iff.1 hfirst)
        (mem_cpuNodes_iff.1 hsecond)

theorem WellFormed.listsCpus_of_resolveHarts (h : tree.WellFormed)
    (hsize : tree.size < UInt32.size) (hok : (tree.resolveHarts cpus).outcome = .ok table) :
    tree.ListsCpus cpus table := by
  obtain ⟨-, -, ids, hids, -, hentries⟩ := outcome_resolveHarts_eq_ok_iff.1 hok
  have hmem : ∀ cpu ∈ tree.cpuNodes cpus, cpu ∈ tree.children cpus := fun cpu hcpu =>
    (mem_cpuNodes_iff.1 hcpu).1
  have hnumbers := ((h.forall₂_hartId_iff hmem).1 hids).2
  refine ⟨tree.cpuNodes cpus, List.filter_sublist, h.nodup_cpuNodes cpus,
    fun cpu => mem_cpuNodes_iff, ?_, ?_⟩
  · rw [hentries, hids.length_eq, HartTable.freshEntries, List.length_map, List.length_zipIdx]
  · intro i cpu entry hcpu hentry
    rw [hentries, HartTable.getElem?_freshEntries, Option.map_eq_some_iff] at hentry
    obtain ⟨id, hid, rfl⟩ := hentry
    have hnumber : tree.leadingNumber cpus cpu = id.toNat := by
      have hi := congrArg (fun numbers => numbers[i]?) hnumbers
      rw [List.getElem?_map, List.getElem?_map, hcpu, hid] at hi
      exact Option.some.inj hi
    -- there are no more cpus than nodes, so a processor uid never wraps
    have hi : i < UInt32.size := by
      have hlt := (List.getElem?_eq_some_iff.1 hcpu).1
      have hle := (List.filter_sublist (p := fun child =>
        (tree.node? child).any fun node => node.unitName = "cpu")).length_le.trans
          (h.length_children_le cpus)
      exact Nat.lt_trans (Nat.lt_of_lt_of_le hlt hle) hsize
    refine ⟨rfl, rfl, hnumber.symm, ?_, rfl, rfl, rfl, rfl⟩
    rw [HartRecord.fresh, Nat.zero_add]
    exact UInt32.toNat_ofNat_of_lt' hi

/-- **Hart discovery is exact.**  It succeeds on the nodes whose cpus can all be discovered, and
on no others, and makes one fresh hart for each of their cpus. -/
theorem Reachable.resolveHarts_exact (h : tree.Reachable) (hsize : tree.size < UInt32.size)
    (cpus : NodeId) :
    ((∃ table, (tree.resolveHarts cpus).outcome = .ok table) ↔ tree.Discoverable cpus) ∧
      ∀ table, (tree.resolveHarts cpus).outcome = .ok table → tree.ListsCpus cpus table :=
  ⟨h.wellFormed.exists_resolveHarts_iff cpus, fun _ hok =>
    h.wellFormed.listsCpus_of_resolveHarts hsize hok⟩

/-- Two cpus with hart ids of two cells, one of them without a unit address, among other children.
Behind its hart id, the second `reg` has a cell that says nothing. -/
def twoCellEdits : List Edit :=
  [.addNode NodeId.root "cpus", .addNode 1 "cpu-map", .addNode 1 "cpu@100000002",
    .setProperty 3 "compatible" (PropertyValue.ofStrings ["vendor,core", "riscv"]),
    .setProperty 3 "reg" (PropertyValue.ofCells [1, 2]),
    .addNode 1 "cpus@0", .addNode 1 "cpu",
    .setProperty 5 "compatible" (PropertyValue.ofStrings ["riscv"]),
    .setProperty 5 "reg" (PropertyValue.ofCells [0, 2, 7])]

theorem resolveHarts_twoCellEdits :
    (∃ tree table, ofEdits? twoCellEdits = some tree ∧ tree.size < UInt32.size ∧
      (tree.resolveHarts 1).outcome = .ok table ∧
      table.records = [HartRecord.fresh 0x100000002 0, HartRecord.fresh 2 1] ∧
      tree.Discoverable 1 ∧ tree.ListsCpus 1 table) ∧
    ∃ tree, ofEdits? (twoCellEdits ++
        [.setProperty 1 "#address-cells" (PropertyValue.ofCells [1]),
          .setProperty 5 "reg" (PropertyValue.ofCells [1])]) = some tree ∧
      tree.size < UInt32.size ∧ (tree.resolveHarts 1).outcome = .error (.duplicateHart 1) ∧
      ¬ tree.Discoverable 1 := by
  constructor
  · have hruns : (ofEdits? twoCellEdits).any fun tree =>
        decide (tree.size < UInt32.size) &&
        (tree.resolveHarts 1).outcome.toOption.any fun table =>
          decide (table.records = [HartRecord.fresh 0x100000002 0, HartRecord.fresh 2 1]) := by
      decide +kernel
    obtain ⟨tree, htree, hruns⟩ := (Option.any_eq_true _ _).1 hruns
    simp only [Bool.and_eq_true, decide_eq_true_eq] at hruns
    obtain ⟨hsize, hruns⟩ := hruns
    obtain ⟨hiff, hlists⟩ := (reachable_of_ofEdits? htree).resolveHarts_exact hsize 1
    obtain ⟨table, hresolve, hrecords⟩ := Except.exists_ok_of_any hruns
    exact ⟨tree, table, htree, hsize, hresolve, of_decide_eq_true hrecords,
      hiff.1 ⟨table, hresolve⟩, hlists table hresolve⟩
  · have hruns : (ofEdits? (twoCellEdits ++
        [.setProperty 1 "#address-cells" (PropertyValue.ofCells [1]),
          .setProperty 5 "reg" (PropertyValue.ofCells [1])])).any fun tree =>
        decide (tree.size < UInt32.size) &&
        match (tree.resolveHarts 1).outcome with
        | .ok _ => false
        | .error error => decide (error = .duplicateHart 1) := by
      decide +kernel
    obtain ⟨tree, htree, hruns⟩ := (Option.any_eq_true _ _).1 hruns
    simp only [Bool.and_eq_true, decide_eq_true_eq] at hruns
    obtain ⟨hsize, hruns⟩ := hruns
    obtain ⟨hiff, -⟩ := (reachable_of_ofEdits? htree).resolveHarts_exact hsize 1
    cases hresolve : (tree.resolveHarts 1).outcome with
    | ok table =>
      rw [hresolve] at hruns
      cases hruns
    | error error =>
      rw [hresolve] at hruns
      obtain rfl := of_decide_eq_true hruns
      refine ⟨tree, htree, hsize, hresolve, fun hdiscoverable => ?_⟩
      obtain ⟨table, htable⟩ := hiff.2 hdiscoverable
      rw [hresolve] at htable
      cases htable

end DeviceTree
end RiscvTables
