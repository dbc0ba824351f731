import RiscvTables.Proofs.Topology
import RiscvTables.Proofs.Topology.Banks

/-!
# Which harts have the same external id

An external id names a bank and one of its contexts.  Every context of an APLIC has a wire of its
own, so no two harts get the same one.  A PLIC has two wires for each context that is wired: if
both are at level 9 they lead to the same context, and there may be a different hart behind each.

That is the only way in which two harts come to the same external id
(`externalId_eq_iff_sharePair`), and it does happen (`not_externalId_injective`).
-/

set_option autoImplicit false

namespace RiscvTables
namespace DeviceTree

variable (tree : DeviceTree)

/-- A pair of wires of a node, both at level 9, with the phandles that they lead to. -/
def PairAt (node : NodeId) (pair : Nat) (first second : UInt32) : Prop :=
  (tree.wiresOf node)[2 * pair]? = some ⟨first, 9⟩ ∧
    (tree.wiresOf node)[2 * pair + 1]? = some ⟨second, 9⟩

/-- Two contexts are one because their wires make up a pair of a PLIC. -/
structure SharePair (c d : BankContext) : Prop where
  node : c.node = d.node
  family : c.family = .plic ∧ d.family = .plic
  wires : ∃ pair, c.context = 2 * pair + 1 ∧ d.context = 2 * pair + 1 ∧
    (tree.PairAt c.node pair c.phandle d.phandle ∨ tree.PairAt c.node pair d.phandle c.phandle)

variable {tree} {c d : BankContext}

/-! ## Where a context comes from -/

/-- The number of a context's bank leads to its node. -/
theorem bank_of_mem_bankContexts (h : c ∈ tree.bankContexts) :
    (tree.bankNodes tree.preorder)[c.bank]? = some (c.node, c.family) := by
  obtain ⟨⟨⟨node, family⟩, bank⟩, hbank, hc⟩ := List.mem_flatMap.1 h
  rw [List.mk_mem_zipIdx_iff_getElem?] at hbank
  cases family with
  | plic =>
    obtain ⟨_, -, rfl⟩ := List.mem_map.1 hc
    exact hbank
  | aplic =>
    obtain ⟨_, -, rfl⟩ := List.mem_map.1 hc
    exact hbank

/-- A context of a PLIC stands for a wire at level 9 of the pair that it is the second of. -/
theorem wire_of_plic (h : c ∈ tree.bankContexts) (hfamily : c.family = .plic) :
    ∃ position, (tree.wiresOf c.node)[position]? = some ⟨c.phandle, 9⟩ ∧
      c.context = 2 * (position / 2) + 1 := by
  obtain ⟨⟨⟨node, family⟩, bank⟩, -, hc⟩ := List.mem_flatMap.1 h
  cases family with
  | plic =>
    obtain ⟨⟨⟨phandle, level⟩, position⟩, hwire, rfl⟩ := List.mem_map.1 hc
    obtain ⟨hmem, hlevel⟩ := List.mem_filter.1 hwire
    obtain rfl : level = 9 := of_decide_eq_true hlevel
    exact ⟨position, List.mk_mem_zipIdx_iff_getElem?.1 hmem, rfl⟩
  | aplic =>
    obtain ⟨_, -, rfl⟩ := List.mem_map.1 hc
    cases hfamily

/-- A context of an APLIC stands for the wire with its number. -/
theorem wire_of_aplic (h : c ∈ tree.bankContexts) (hfamily : c.family = .aplic) :
    ∃ level, (tree.wiresOf c.node)[c.context]? = some ⟨c.phandle, level⟩ := by
  obtain ⟨⟨⟨node, family⟩, bank⟩, -, hc⟩ := List.mem_flatMap.1 h
  cases family with
  | plic =>
    obtain ⟨_, -, rfl⟩ := List.mem_map.1 hc
    cases hfamily
  | aplic =>
    obtain ⟨⟨⟨phandle, level⟩, position⟩, hmem, rfl⟩ := List.mem_map.1 hc
    exact ⟨level, List.mk_mem_zipIdx_iff_getElem?.1 hmem⟩

/-- Contexts of one node are contexts of one bank. -/
theorem bank_eq_of_node_eq (hwf : tree.WellFormed) (hc : c ∈ tree.bankContexts)
    (hd : d ∈ tree.bankContexts) (h : c.node = d.node) : c.bank = d.bank := by
  have hnode : ∀ e ∈ tree.bankContexts,
      ((tree.bankNodes tree.preorder).map Prod.fst)[e.bank]? = some e.node := by
    intro e he
    rw [List.getElem?_map, bank_of_mem_bankContexts he]
    rfl
  obtain ⟨hlt, -⟩ := List.getElem?_eq_some_iff.1 (hnode c hc)
  refine (List.getElem?_inj hlt (nodup_bankNodes hwf.nodup_preorder)).1 ?_
  rw [hnode c hc, hnode d hd, h]

/-! ## Equal external ids -/

/-- Two contexts with one number but different harts come from the two wires of a pair. -/
theorem sharePair_of_context_eq (hc : c ∈ tree.bankContexts) (hd : d ∈ tree.bankContexts)
    (hbank : c.bank = d.bank) (hcontext : c.context = d.context)
    (hne : tree.hartOf? c ≠ tree.hartOf? d) : tree.SharePair c d := by
  have hsame := bank_of_mem_bankContexts hc
  rw [hbank, bank_of_mem_bankContexts hd, Option.some.injEq, Prod.mk.injEq] at hsame
  obtain ⟨hnode, hfamily⟩ := hsame
  -- one phandle would lead to one hart
  have hphandle : c.phandle ≠ d.phandle := fun h => hne (by rw [hartOf?, hartOf?, hnode, h])
  cases hplic : c.family with
  | plic =>
    obtain ⟨p, hp, hpcontext⟩ := wire_of_plic hc hplic
    obtain ⟨q, hq, hqcontext⟩ := wire_of_plic hd (hfamily.trans hplic)
    rw [hnode] at hq
    have hpq : p ≠ q := by
      rintro rfl
      rw [hp, Option.some.injEq, Wire.mk.injEq] at hq
      exact hphandle hq.1
    refine ⟨hnode.symm, ⟨hplic, hfamily.trans hplic⟩, p / 2, hpcontext, by omega, ?_⟩
    rcases Nat.lt_or_gt_of_ne hpq with hlt | hlt
    · refine Or.inl ⟨?_, ?_⟩
      · rwa [show 2 * (p / 2) = p by omega]
      · rwa [show 2 * (p / 2) + 1 = q by omega]
    · refine Or.inr ⟨?_, ?_⟩
      · rwa [show 2 * (p / 2) = q by omega]
      · rwa [show 2 * (p / 2) + 1 = p by omega]
  | aplic =>
    obtain ⟨level, hwire⟩ := wire_of_aplic hc hplic
    obtain ⟨level', hwire'⟩ := wire_of_aplic hd (hfamily.trans hplic)
    rw [hnode, ← hcontext, hwire, Option.some.injEq, Wire.mk.injEq] at hwire'
    exact absurd hwire'.1 hphandle

/-- **Contexts for different harts have one external id exactly if they share a pair.** -/
theorem contextId_eq_iff_sharePair (hwf : tree.WellFormed)
    (hgives : ∀ c ∈ tree.bankContexts, tree.Gives c) (hc : c ∈ tree.bankContexts)
    (hd : d ∈ tree.bankContexts) (hne : tree.hartOf? c ≠ tree.hartOf? d) :
    c.externalId = d.externalId ↔ tree.SharePair c d := by
  constructor
  · intro h
    obtain ⟨hbank, hcontext⟩ := (hgives c hc).2.parts
    obtain ⟨hbank', hcontext'⟩ := (hgives d hd).2.parts
    rw [h] at hbank hcontext
    exact sharePair_of_context_eq hc hd (hbank.symm.trans hbank') (hcontext.symm.trans hcontext')
      hne
  · rintro ⟨hnode, -, pair, hcontext, hcontext', -⟩
    rw [BankContext.externalId, BankContext.externalId, bank_eq_of_node_eq hwf hc hd hnode,
      hcontext, hcontext']

/-! ## The harts of a topology -/

/-- Banks that are resolved have given away all their contexts, and each hart has the last one
that was given to it. -/
theorem contexts_of_resolveBanks {table table' : HartTable} {resolution : BankResolution}
    (hwf : tree.WellFormed) (h : tree.resolveBanks table = (table', .ok resolution)) :
    (∀ c ∈ tree.bankContexts, tree.Gives c) ∧
      table'.entries = table.entries.map tree.wiredEntry := by
  obtain ⟨entries, banks, hbanks, hrun, -⟩ := resolveBanks_eq_ok h
  rw [hwf.nodeList_eq_preorder] at hbanks
  obtain ⟨hgives, rfl⟩ := banksAmong_contexts hbanks
  obtain ⟨-, -, rfl⟩ := ContextWrite.foldlM_apply_eq_ok_iff.1 hrun
  exact ⟨hgives, List.map_congr_left fun entry _ => settle_writeOf hgives entry⟩

theorem hartId_wiredEntry (entry : HartEntry) :
    (tree.wiredEntry entry).record.hartId = entry.record.hartId := by
  rw [wiredEntry]
  cases tree.lastContext? entry.record.hartId <;> rfl

theorem externalId_wiredEntry {entry : HartEntry}
    (h : tree.lastContext? entry.record.hartId = some c) :
    (tree.wiredEntry entry).record.externalId = c.externalId := by
  rw [wiredEntry, h]

theorem mem_bankContexts_of_lastContext? {hartId : UInt64}
    (h : tree.lastContext? hartId = some c) :
    c ∈ tree.bankContexts ∧ tree.hartOf? c = some hartId := by
  obtain ⟨hmem, hhart⟩ := List.mem_filter.1 (List.mem_of_getLast? h)
  exact ⟨hmem, of_decide_eq_true hhart⟩

/-- A resolved hart has the external id of the last context that was given to it. -/
theorem externalId_of_resolveTopology {warnings : List Warning} {topology : Topology}
    (hwf : tree.WellFormed) (h : tree.resolveTopology = ⟨warnings, .ok topology⟩) :
    (∀ c ∈ tree.bankContexts, tree.Gives c) ∧
      ∀ hart ∈ topology.harts, ∀ c, tree.lastContext? hart.hartId = some c →
        hart.externalId = c.externalId := by
  obtain ⟨cpus, discovered, -, -, hwiring⟩ := resolveTopology_eq_ok h
  obtain ⟨paged, receiver, wired, banks, -, hbanks, rfl⟩ := resolveWiring_eq_ok_iff.1 hwiring
  obtain ⟨hgives, hentries⟩ := contexts_of_resolveBanks hwf hbanks
  refine ⟨hgives, fun hart hhart c hc => ?_⟩
  rw [HartTable.records, hentries, List.map_map] at hhart
  obtain ⟨entry, -, rfl⟩ := List.mem_map.1 hhart
  rw [Function.comp_apply, hartId_wiredEntry] at hc
  exact externalId_wiredEntry hc

/-- **Two harts have the same external id exactly if they share a pair of a PLIC.**  This holds of
all contexts that are given away, and of the harts as they are in the end. -/
theorem externalId_eq_iff_sharePair {warnings : List Warning} {topology : Topology}
    (hreachable : tree.Reachable) (h : tree.resolveTopology = ⟨warnings, .ok topology⟩) :
    (∀ c ∈ tree.bankContexts, ∀ d ∈ tree.bankContexts, tree.hartOf? c ≠ tree.hartOf? d →
      (c.externalId = d.externalId ↔ tree.SharePair c d)) ∧
    ∀ a ∈ topology.harts, ∀ b ∈ topology.harts, a.hartId ≠ b.hartId →
      ∀ c d, tree.lastContext? a.hartId = some c → tree.lastContext? b.hartId = some d →
        (a.externalId = b.externalId ↔ tree.SharePair c d) := by
  have hwf := hreachable.wellFormed
  obtain ⟨hgives, hids⟩ := externalId_of_resolveTopology hwf h
  refine ⟨fun c hc d hd hne => contextId_eq_iff_sharePair hwf hgives hc hd hne, ?_⟩
  intro a ha b hb hne c d hlast hlast'
  obtain ⟨hc, hhart⟩ := mem_bankContexts_of_lastContext? hlast
  obtain ⟨hd, hhart'⟩ := mem_bankContexts_of_lastContext? hlast'
  rw [hids a ha c hlast, hids b hb d hlast']
  refine contextId_eq_iff_sharePair hwf hgives hc hd ?_
  rw [hhart, hhart']
  exact fun heq => hne (Option.some.inj heq)

/-! ## A board whose harts share a pair -/

/-- The edits of a board with three cpus and a PLIC whose wires are all at level 9. -/
def sharedPairEdits : List Edit :=
  [.addNode NodeId.root "cpus", .setProperty 1 "#address-cells" (PropertyValue.ofCells [1]),
    .addNode 1 "cpu@0", .addNode 2 "interrupt-controller",
    .setProperty 2 "compatible" (PropertyValue.ofStrings ["riscv"]),
    .setProperty 2 "reg" (PropertyValue.ofCells [0]),
    .setProperty 3 "phandle" (PropertyValue.ofCells [1]),
    .addNode 1 "cpu@1", .addNode 4 "interrupt-controller",
    .setProperty 4 "compatible" (PropertyValue.ofStrings ["riscv"]),
    .setProperty 4 "reg" (PropertyValue.ofCells [1]),
    .setProperty 5 "phandle" (PropertyValue.ofCells [2]),
    .addNode 1 "cpu@2", .addNode 6 "interrupt-controller",
    .setProperty 6 "compatible" (PropertyValue.ofStrings ["riscv"]),
    .setProperty 6 "reg" (PropertyValue.ofCells [2]),
    .setProperty 7 "phandle" (PropertyValue.ofCells [3]),
    .addNode NodeId.root "plic",
    .setProperty 8 "compatible" (PropertyValue.ofStrings ["riscv,plic0"]),
    .setProperty 8 "riscv,num-sources" (PropertyValue.ofCells [8]),
    .setProperty 8 "reg" (PropertyValue.ofCells [0, 0x1000, 0x100]),
    .setProperty 8 "interrupts-extended" (PropertyValue.ofCells [1, 9, 2, 9, 3, 9])]

/-- The harts of this board.  The first two share a context, the third has one of its own. -/
def sharedPairHarts : List HartRecord :=
  [{ HartRecord.fresh 0 0 with externalId := 1 }, { HartRecord.fresh 1 1 with externalId := 1 },
    { HartRecord.fresh 2 2 with externalId := 3 }]

theorem resolveTopology_sharedPairEdits :
    ∃ tree warnings topology, ofEdits? sharedPairEdits = some tree ∧
      tree.resolveTopology = ⟨warnings, .ok topology⟩ ∧ topology.harts = sharedPairHarts ∧
      ∀ hart ∈ sharedPairHarts, (tree.lastContext? hart.hartId).isSome := by
  have hruns : (ofEdits? sharedPairEdits).any fun tree =>
      (match tree.resolveTopology.outcome with
        | .ok topology => decide (topology.harts = sharedPairHarts)
        | .error _ => false) &&
      sharedPairHarts.all fun hart => (tree.lastContext? hart.hartId).isSome := by
    decide +kernel
  obtain ⟨tree, htree, hruns⟩ := (Option.any_eq_true _ _).1 hruns
  rw [Bool.and_eq_true] at hruns
  obtain ⟨hharts, hlast⟩ := hruns
  split at hharts
  next topology houtcome =>
    obtain ⟨warnings, hresolved⟩ := Journal.outcome_eq_ok_iff.1 houtcome
    exact ⟨tree, warnings, topology, htree, hresolved, of_decide_eq_true hharts,
      List.all_eq_true.1 hlast⟩
  next => cases hharts

/-- **Distinct harts can have the same external id.** -/
theorem not_externalId_injective :
    ¬ ∀ (tree : DeviceTree) (warnings : List Warning) (topology : Topology), tree.Reachable →
      tree.resolveTopology = ⟨warnings, .ok topology⟩ →
      ∀ a ∈ topology.harts, ∀ b ∈ topology.harts, a.hartId ≠ b.hartId →
        (tree.lastContext? a.hartId).isSome → (tree.lastContext? b.hartId).isSome →
        a.externalId ≠ b.externalId := by
  intro hinjective
  obtain ⟨tree, warnings, topology, htree, hresolved, hharts, hlast⟩ :=
    resolveTopology_sharedPairEdits
  have hfirst : { HartRecord.fresh 0 0 with externalId := 1 } ∈ sharedPairHarts := by decide
  have hsecond : { HartRecord.fresh 1 1 with externalId := 1 } ∈ sharedPairHarts := by decide
  refine hinjective tree warnings topology (reachable_of_ofEdits? htree) hresolved _
    (hharts ▸ hfirst) _ (hharts ▸ hsecond) (by decide) (hlast _ hfirst) (hlast _ hsecond) rfl

theorem sharePair_sharedPairEdits :
    ∃ tree warnings topology, ofEdits? sharedPairEdits = some tree ∧
      tree.resolveTopology = ⟨warnings, .ok topology⟩ ∧ topology.harts = sharedPairHarts ∧
      ∃ c d e, tree.lastContext? 0 = some c ∧ tree.lastContext? 1 = some d ∧
        tree.lastContext? 2 = some e ∧ tree.SharePair c d ∧ ¬ tree.SharePair c e := by
  obtain ⟨tree, warnings, topology, htree, hresolved, hharts, hlast⟩ :=
    resolveTopology_sharedPairEdits
  have hfirst : { HartRecord.fresh 0 0 with externalId := 1 } ∈ sharedPairHarts := by decide
  have hsecond : { HartRecord.fresh 1 1 with externalId := 1 } ∈ sharedPairHarts := by decide
  have hthird : { HartRecord.fresh 2 2 with externalId := 3 } ∈ sharedPairHarts := by decide
  obtain ⟨c, hc⟩ := Option.isSome_iff_exists.1 (hlast _ hfirst)
  obtain ⟨d, hd⟩ := Option.isSome_iff_exists.1 (hlast _ hsecond)
  obtain ⟨e, he⟩ := Option.isSome_iff_exists.1 (hlast _ hthird)
  have hshare := (externalId_eq_iff_sharePair (reachable_of_ofEdits? htree) hresolved).2
  refine ⟨tree, warnings, topology, htree, hresolved, hharts, c, d, e, hc, hd, he, ?_, ?_⟩
  · exact (hshare _ (hharts ▸ hfirst) _ (hharts ▸ hsecond) (by decide) c d hc hd).1 rfl
  · exact fun h => absurd
      ((hshare _ (hharts ▸ hfirst) _ (hharts ▸ hthird) (by decide) c e hc he).2 h) (by decide)

end DeviceTree
end RiscvTables
