import Mathlib.Algebra.Ring.Nat
import Mathlib.Data.List.Pairwise
import Mathlib.Data.Set.Function
import RiscvTables.Proofs.Lookup
import RiscvTables.Proofs.Topology.Banks

/-!
# Global interrupt numbers without gaps

The global numbers of a bank's sources begin where those of the bank before it end
(`BankRecord.Consecutive`), so written one after the other they are the numbers from 0 on
(`Consecutive.flatMap_globalNumbers`): nothing is left out and nothing comes twice.  That makes
the translation of a bank's own numbers a bijection, which `GsiPartition` states.

All of this happens below 2^32, or the banks are not resolved at all.
-/

set_option autoImplicit false

namespace RiscvTables

/-! ## Consecutive ranges -/

namespace BankRecord

/-- The global numbers of a bank's sources. -/
def globalNumbers (bank : BankRecord) : List Nat :=
  List.range' bank.gsiBase.toNat bank.sources.toNat

/-- How many sources some banks have together. -/
def totalSources (banks : List BankRecord) : Nat :=
  (banks.map (·.sources.toNat)).sum

/-- The global numbers of each bank follow those of the bank before it; the first of them has the
numbers from `start` on. -/
def Consecutive : Nat → List BankRecord → Prop
  | _, [] => True
  | start, bank :: rest =>
    bank.gsiBase.toNat = start ∧ Consecutive (start + bank.sources.toNat) rest

theorem totalSources_cons (bank : BankRecord) (rest : List BankRecord) :
    totalSources (bank :: rest) = bank.sources.toNat + totalSources rest := rfl

/-- A global number of a bank is its base and one of its sources. -/
theorem mem_globalNumbers_iff {bank : BankRecord} {n : Nat} :
    n ∈ bank.globalNumbers ↔ ∃ source < bank.sources, bank.gsiBase.toNat + source.toNat = n := by
  rw [globalNumbers, List.mem_range'_1]
  constructor
  · rintro ⟨hle, hlt⟩
    obtain ⟨source, rfl⟩ := Nat.exists_eq_add_of_le hle
    have hsource : source < bank.sources.toNat := Nat.lt_of_add_lt_add_left hlt
    have hnat : (UInt32.ofNat source).toNat = source :=
      UInt32.toNat_ofNat_of_lt' (Nat.lt_trans hsource bank.sources.toNat_lt)
    exact ⟨UInt32.ofNat source, UInt32.lt_iff_toNat_lt.2 (hnat.symm ▸ hsource), by rw [hnat]⟩
  · rintro ⟨source, hsource, rfl⟩
    exact ⟨Nat.le_add_right _ _, Nat.add_lt_add_left (UInt32.lt_iff_toNat_lt.1 hsource) _⟩

variable {start : Nat} {banks : List BankRecord}

/-- A bank begins behind all the sources of the banks before it. -/
theorem Consecutive.gsiBase_eq (h : Consecutive start banks) {i : Nat} {bank : BankRecord}
    (hbank : banks[i]? = some bank) :
    bank.gsiBase.toNat = start + totalSources (banks.take i) := by
  induction banks generalizing start i with
  | nil => cases hbank
  | cons first rest ih =>
    obtain ⟨hfirst, hrest⟩ := h
    cases i with
    | zero =>
      obtain rfl := Option.some.inj hbank
      exact hfirst
    | succ i =>
      rw [ih hrest hbank, List.take_succ_cons, totalSources_cons, Nat.add_assoc]

/-- One after the other, the global numbers are a range. -/
theorem Consecutive.flatMap_globalNumbers (h : Consecutive start banks) :
    banks.flatMap globalNumbers = List.range' start (totalSources banks) := by
  induction banks generalizing start with
  | nil => rfl
  | cons first rest ih =>
    obtain ⟨hfirst, hrest⟩ := h
    rw [List.flatMap_cons, ih hrest, globalNumbers, hfirst, totalSources_cons,
      List.range'_append_1]

/-- Consecutive banks from 0 on have all numbers below the number of their sources. -/
theorem Consecutive.exists_mem_globalNumbers_iff (h : Consecutive 0 banks) {n : Nat} :
    (∃ bank ∈ banks, n ∈ bank.globalNumbers) ↔ n < totalSources banks := by
  rw [← List.mem_flatMap, h.flatMap_globalNumbers, ← List.range_eq_range', List.mem_range]

/-- Banks at different places have no global number in common. -/
theorem Consecutive.pairwise_disjoint (h : Consecutive start banks) :
    banks.Pairwise fun first second => first.globalNumbers.Disjoint second.globalNumbers := by
  have hnodup : (banks.flatMap globalNumbers).Nodup := by
    rw [h.flatMap_globalNumbers]
    exact List.nodup_range'
  exact (List.nodup_flatMap.1 hnodup).2

end BankRecord

/-! ## The map -/

namespace GsiMap

theorem put_of_notMem {node : NodeId} {base : UInt32} {entries : List (NodeId × UInt32)}
    (h : node ∉ entries.map Prod.fst) : put node base entries = entries ++ [(node, base)] := by
  induction entries with
  | nil => rfl
  | cons entry rest ih =>
    rw [List.map_cons, List.mem_cons, not_or] at h
    rw [put, if_neg (Ne.symm h.1), ih h.2, List.cons_append]

/-- Banks at distinct nodes are registered one after the other. -/
theorem entries_foldl_register {banks : List (NodeId × BankRecord)} {map : GsiMap}
    (h : (map.entries.map Prod.fst ++ banks.map Prod.fst).Nodup) :
    (banks.foldl (fun map p => map.register p.1 p.2.gsiBase) map).entries =
      map.entries ++ banks.map fun p => (p.1, p.2.gsiBase) := by
  induction banks generalizing map with
  | nil => exact (List.append_nil _).symm
  | cons p rest ih =>
    rw [List.map_cons, List.nodup_middle, List.nodup_cons, List.mem_append, not_or] at h
    have hregister : (map.register p.1 p.2.gsiBase).entries =
        map.entries ++ [(p.1, p.2.gsiBase)] :=
      put_of_notMem h.1.1
    rw [List.foldl_cons, ih, hregister, List.append_assoc, List.map_cons, List.singleton_append]
    rw [hregister, List.map_append, List.append_assoc]
    exact List.nodup_middle.2 (List.nodup_cons.2 ⟨by simpa using h.1, h.2⟩)

theorem toNat_saturatingAdd {a b : UInt32} (h : a.toNat + b.toNat < UInt32.size) :
    (saturatingAdd a b).toNat = a.toNat + b.toNat := by
  rw [saturatingAdd, Nat.min_eq_left (by omega)]
  exact UInt32.toNat_ofNat_of_lt' h

/-- A source of a registered bank is counted from the bank's base on. -/
theorem toNat_translate {map : GsiMap} {node : NodeId} {base source : UInt32}
    (hnodup : (map.entries.map Prod.fst).Nodup) (hbase : (node, base) ∈ map.entries)
    (h : base.toNat + source.toNat < UInt32.size) :
    (map.translate node source).toNat = base.toNat + source.toNat := by
  rw [translate, base?, (lookup_eq_some_iff_mem hnodup).2 hbase]
  exact toNat_saturatingAdd h

end GsiMap

/-! ## The banks of a tree -/

namespace DeviceTree

section Statement

variable (tree : DeviceTree)

/-- The first cell of a property. -/
def firstCell? (node : NodeId) (property : String) : Option UInt32 :=
  (tree.property? node property).bind (PropertyValue.cellAt? · 0)

/-- The number of sources that a node declares: the first cell of `riscv,num-sources`, or else of
`riscv,ndev`. -/
def declaredSources (node : NodeId) : Nat :=
  (((tree.firstCell? node "riscv,num-sources").or
    (tree.firstCell? node "riscv,ndev")).map UInt32.toNat).getD 0

/-- The sources that all banks of a tree declare. -/
def totalDeclaredSources : Nat :=
  ((tree.bankNodes tree.preorder).map fun p => tree.declaredSources p.1).sum

/-- The banks of a resolution, each with its node. -/
def placedBanks (resolution : BankResolution) : List (NodeId × BankRecord) :=
  ((tree.bankNodes tree.preorder).map Prod.fst).zip resolution.banks

/-- The sources of all banks: for each bank the numbers below its count. -/
def localSources (resolution : BankResolution) : Set (NodeId × UInt32) :=
  {p | ∃ bank, (p.1, bank) ∈ tree.placedBanks resolution ∧ p.2 < bank.sources}

/-- The banks of a resolution divide the global numbers from 0 on among themselves. -/
structure GsiPartition (resolution : BankResolution) : Prop where
  /-- There is one bank for each bank node, with as many sources as the node declares. -/
  sources : resolution.banks.map (·.sources.toNat) =
    (tree.bankNodes tree.preorder).map fun p => tree.declaredSources p.1
  gsiBase : ∀ (i : Nat) (bank : BankRecord), resolution.banks[i]? = some bank →
    bank.gsiBase.toNat = ((resolution.banks.take i).map (·.sources.toNat)).sum
  total_lt : BankRecord.totalSources resolution.banks < UInt32.size
  /-- The map has one entry for each bank, in order. -/
  entries : resolution.gsi.entries =
    (tree.placedBanks resolution).map fun p => (p.1, p.2.gsiBase)
  nodup : (resolution.gsi.entries.map Prod.fst).Nodup
  /-- No translation saturates. -/
  translate : ∀ p ∈ tree.placedBanks resolution, ∀ source < p.2.sources,
    (resolution.gsi.translate p.1 source).toNat = p.2.gsiBase.toNat + source.toNat
  bijOn : Set.BijOn (fun p => (resolution.gsi.translate p.1 p.2).toNat)
    (tree.localSources resolution) {n | n < BankRecord.totalSources resolution.banks}

end Statement

variable {tree : DeviceTree} {node : NodeId} {entries : List ContextWrite}

theorem optionalCell_eq_ok {property : String} {cell : Option UInt32}
    (h : tree.optionalCell node property = .ok cell) :
    tree.firstCell? node property = cell := by
  rw [firstCell?]
  rw [optionalCell] at h
  split at h
  next hnone =>
    rw [hnone]
    exact Except.ok.inj h
  next value hvalue =>
    split at h
    next => cases h
    next first hfirst =>
      rw [hvalue, Option.bind_some, hfirst]
      exact Except.ok.inj h

/-- The sources of a bank are those that its node declares. -/
theorem toNat_bankSources {sources : UInt32} (h : tree.bankSources node = .ok sources) :
    sources.toNat = tree.declaredSources node := by
  rw [bankSources] at h
  obtain ⟨first, hfirst, h⟩ := Except.bind_eq_ok_iff.1 h
  rw [declaredSources, optionalCell_eq_ok hfirst]
  cases first with
  | some cell =>
    obtain rfl := Except.pure_eq_ok_iff.1 h
    rfl
  | none =>
    obtain ⟨second, hsecond, h⟩ := Except.bind_eq_ok_iff.1 h
    rw [optionalCell_eq_ok hsecond]
    cases second with
    | some cell =>
      obtain rfl := Except.pure_eq_ok_iff.1 h
      rfl
    | none => exact absurd h Except.throw_ne_ok

/-- **The banks among some nodes follow each other in the global numbers.** -/
theorem banksAmong_consecutive {nodes : List NodeId} {id gsiBase : Nat}
    {banks : List (NodeId × BankRecord)} (hbase : gsiBase < UInt32.size)
    (h : tree.banksAmong id gsiBase nodes = ⟨entries, .ok banks⟩) :
    (banks.map fun p => p.2.sources.toNat) =
        ((tree.bankNodes nodes).map fun p => tree.declaredSources p.1) ∧
      BankRecord.Consecutive gsiBase (banks.map Prod.snd) ∧
      gsiBase + BankRecord.totalSources (banks.map Prod.snd) < UInt32.size := by
  induction nodes generalizing id gsiBase entries banks with
  | nil =>
    obtain ⟨-, rfl⟩ := Journal.pure_eq_ok_iff.1 h
    exact ⟨rfl, trivial, hbase⟩
  | cons node rest ih =>
    rw [bankNodes, List.filterMap_cons]
    cases hfamily : tree.bankFamily? node with
    | none =>
      rw [banksAmong, hfamily] at h
      exact ih hbase h
    | some family =>
      obtain ⟨record, others, before, after, hplan, hrest, -, rfl⟩ := banksAmong_cons hfamily h
      obtain ⟨sources, region, hsources, -, hfits, -, rfl⟩ := planBank_eq_ok hplan
      obtain ⟨hdeclared, hconsecutive, htotal⟩ := ih hfits hrest
      refine ⟨?_, ⟨UInt32.toNat_ofNat_of_lt' hbase, hconsecutive⟩, ?_⟩
      · exact congrArg₂ List.cons (toNat_bankSources hsources) hdeclared
      · rw [List.map_cons, BankRecord.totalSources_cons, ← Nat.add_assoc]
        exact htotal

/-! ## The partition -/

/-- The translation of consecutive banks takes each global number once. -/
theorem bijOn_translate {banks : List (NodeId × BankRecord)} {translate : NodeId → UInt32 → UInt32}
    (hconsecutive : BankRecord.Consecutive 0 (banks.map Prod.snd))
    (htranslate : ∀ p ∈ banks, ∀ source < p.2.sources,
      (translate p.1 source).toNat = p.2.gsiBase.toNat + source.toNat) :
    Set.BijOn (fun p : NodeId × UInt32 => (translate p.1 p.2).toNat)
      {p | ∃ bank, (p.1, bank) ∈ banks ∧ p.2 < bank.sources}
      {n | n < BankRecord.totalSources (banks.map Prod.snd)} := by
  have hmem : ∀ p ∈ banks, ∀ source < p.2.sources,
      (translate p.1 source).toNat ∈ p.2.globalNumbers := fun p hp source hsource =>
    BankRecord.mem_globalNumbers_iff.2 ⟨source, hsource, (htranslate p hp source hsource).symm⟩
  have : Std.Symm fun p q : NodeId × BankRecord =>
      p.2.globalNumbers.Disjoint q.2.globalNumbers := ⟨fun _ _ h => List.disjoint_symm h⟩
  have hdisjoint := (List.pairwise_map.1 hconsecutive.pairwise_disjoint).forall
  refine ⟨?_, ?_, ?_⟩
  · rintro ⟨node, source⟩ ⟨bank, hbank, hsource⟩
    exact hconsecutive.exists_mem_globalNumbers_iff.1
      ⟨bank, List.mem_map_of_mem hbank, hmem _ hbank source hsource⟩
  · rintro ⟨node, source⟩ ⟨bank, hbank, hsource⟩ ⟨node', source'⟩ ⟨bank', hbank', hsource'⟩ heq
    have htranslated : (translate node source).toNat = (translate node' source').toNat := heq
    -- two banks with a number in common are the same bank
    have hsame : (node, bank) = (node', bank') := by
      by_contra hne
      refine hdisjoint hbank hbank' hne (hmem _ hbank source hsource) ?_
      rw [htranslated]
      exact hmem _ hbank' source' hsource'
    obtain ⟨rfl, rfl⟩ := Prod.mk.inj hsame
    rw [htranslate _ hbank source hsource, htranslate _ hbank source' hsource'] at htranslated
    rw [UInt32.toNat_inj.1 (Nat.add_left_cancel htranslated)]
  · intro n hn
    obtain ⟨bank, hbank, hglobal⟩ := hconsecutive.exists_mem_globalNumbers_iff.2 hn
    obtain ⟨⟨node, bank⟩, hplaced, rfl⟩ := List.mem_map.1 hbank
    obtain ⟨source, hsource, rfl⟩ := BankRecord.mem_globalNumbers_iff.1 hglobal
    exact ⟨(node, source), ⟨bank, hplaced, hsource⟩, htranslate _ hplaced source hsource⟩

theorem gsiPartition_of_resolveBanks {table table' : HartTable} {resolution : BankResolution}
    (hwf : tree.WellFormed) (h : tree.resolveBanks table = (table', .ok resolution)) :
    tree.GsiPartition resolution := by
  obtain ⟨entries, banks, hbanks, -, rfl⟩ := resolveBanks_eq_ok h
  rw [hwf.nodeList_eq_preorder] at hbanks
  have hnodes := map_fst_banksAmong hbanks
  obtain ⟨hsources, hconsecutive, htotal⟩ :=
    banksAmong_consecutive (show 0 < UInt32.size by decide) hbanks
  rw [Nat.zero_add] at htotal
  have hnodup : (banks.map Prod.fst).Nodup := hnodes ▸ nodup_bankNodes hwf.nodup_preorder
  have hplaced : ((tree.bankNodes tree.preorder).map Prod.fst).zip (banks.map Prod.snd) = banks :=
    (List.zip_of_prod hnodes rfl).symm
  generalize hgsi : banks.foldl (fun map p => map.register p.1 p.2.gsiBase) GsiMap.empty = gsi
  have hentries : gsi.entries = banks.map fun p => (p.1, p.2.gsiBase) :=
    hgsi ▸ GsiMap.entries_foldl_register hnodup
  have hkeys : (gsi.entries.map Prod.fst).Nodup := by
    rw [hentries, List.map_map]
    exact hnodup
  have htranslate : ∀ p ∈ banks, ∀ source < p.2.sources,
      (gsi.translate p.1 source).toNat = p.2.gsiBase.toNat + source.toNat := by
    intro p hp source hsource
    refine GsiMap.toNat_translate hkeys (hentries ▸ List.mem_map_of_mem hp) ?_
    refine Nat.lt_trans (hconsecutive.exists_mem_globalNumbers_iff.1 ?_) htotal
    exact ⟨p.2, List.mem_map_of_mem hp, BankRecord.mem_globalNumbers_iff.2 ⟨source, hsource, rfl⟩⟩
  exact {
    sources := by rw [List.map_map]; exact hsources
    gsiBase := fun i bank hbank => by
      rw [hconsecutive.gsiBase_eq hbank, Nat.zero_add]
      rfl
    total_lt := htotal
    entries := by rw [hentries, placedBanks, hplaced]
    nodup := hkeys
    translate := by
      rw [placedBanks, hplaced]
      exact htranslate
    bijOn := by
      rw [localSources, placedBanks, hplaced]
      exact bijOn_translate hconsecutive htranslate }

/-- **Banks that are resolved divide the global numbers among themselves without a gap.**  If the
nodes declare more sources than there are numbers, they are not resolved. -/
theorem gsi_partitioned (hreachable : tree.Reachable) (table : HartTable) :
    (∀ table' resolution, tree.resolveBanks table = (table', .ok resolution) →
      tree.GsiPartition resolution) ∧
    (UInt32.size ≤ tree.totalDeclaredSources →
      ∃ error, (tree.resolveBanks table).2 = .error error) := by
  have hpartition : ∀ table' resolution, tree.resolveBanks table = (table', .ok resolution) →
      tree.GsiPartition resolution := fun _ _ h =>
    gsiPartition_of_resolveBanks hreachable.wellFormed h
  refine ⟨hpartition, fun hmany => ?_⟩
  rcases hresolve : tree.resolveBanks table with ⟨table', error | resolution⟩
  · exact ⟨error, rfl⟩
  · have hpart := hpartition table' resolution hresolve
    have htotal := hpart.total_lt
    rw [BankRecord.totalSources, hpart.sources] at htotal
    exact absurd hmany (Nat.not_le.2 htotal)

theorem gsi_partitioned_sampleBankEdits :
    (∃ tree table resolution,
      ofEdits? (sampleBankEdits ++
        [.setProperty 9 "riscv,ndev" (PropertyValue.ofCells [0])]) = some tree ∧
      tree.resolveBanks sampleHarts = (table, .ok resolution) ∧
      resolution.gsi.entries = [(8, 0), (9, 8), (10, 8)] ∧ tree.GsiPartition resolution) ∧
    (∃ tree error,
      ofEdits? (sampleBankEdits ++
        [.setProperty 8 "riscv,num-sources" (PropertyValue.ofCells [0xffffffff])]) = some tree ∧
      UInt32.size ≤ tree.totalDeclaredSources ∧
      (tree.resolveBanks sampleHarts).2 = .error error) := by
  constructor
  · have hruns : (ofEdits? (sampleBankEdits ++
        [.setProperty 9 "riscv,ndev" (PropertyValue.ofCells [0])])).any fun tree =>
        match (tree.resolveBanks sampleHarts).2 with
        | .ok resolution => decide (resolution.gsi.entries = [(8, 0), (9, 8), (10, 8)])
        | .error _ => false := by
      decide +kernel
    obtain ⟨tree, htree, hruns⟩ := (Option.any_eq_true _ _).1 hruns
    rcases hresolve : tree.resolveBanks sampleHarts with ⟨table, error | resolution⟩
    · rw [hresolve] at hruns
      cases hruns
    · rw [hresolve] at hruns
      exact ⟨tree, table, resolution, htree, hresolve, of_decide_eq_true hruns,
        (gsi_partitioned (reachable_of_ofEdits? htree) sampleHarts).1 table resolution hresolve⟩
  · have hmany : (ofEdits? (sampleBankEdits ++
        [.setProperty 8 "riscv,num-sources" (PropertyValue.ofCells [0xffffffff])])).any fun tree =>
        decide (UInt32.size ≤ tree.totalDeclaredSources) := by
      decide +kernel
    obtain ⟨tree, htree, hmany⟩ := (Option.any_eq_true _ _).1 hmany
    have hsize := of_decide_eq_true hmany
    obtain ⟨error, herror⟩ :=
      (gsi_partitioned (reachable_of_ofEdits? htree) sampleHarts).2 hsize
    exact ⟨tree, error, htree, hsize, herror⟩

end DeviceTree
end RiscvTables
