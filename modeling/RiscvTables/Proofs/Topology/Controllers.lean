import RiscvTables.Proofs.Topology.ExternalIds
import RiscvTables.Proofs.Topology.Receiver

/-!
# Which node a hart is wired through

A wire names a phandle.  Its owner should be the interrupt controller of a hart, and so the node
above it the hart's cpu.  The resolvers read a hart id off whatever node stands there, unless it is
the root, and give the page or the context to the hart of the table that has this id.

So every wire that is followed leads to the id of exactly one cpu, or there is no topology
(`wirings_of_resolveTopology`).  But the node that the id was read from need not be that cpu: any
node will do whose `reg` begins with the number of a hart (`not_wired_through_cpus`).
-/

set_option autoImplicit false

namespace RiscvTables
namespace DeviceTree

variable (tree : DeviceTree)

/-! ## Where a phandle leads -/

/-- A phandle leads to the node above its owner, and a hart id is read there. -/
structure LeadsTo (phandle : UInt32) (node : NodeId) (hartId : UInt64) : Prop where
  owner : ∃ controller, tree.phandleOwner? phandle = some controller ∧
    tree.parent? controller = some node
  ne_root : node ≠ NodeId.root
  hartId_eq : tree.hartId node = .ok hartId

/-- Of the cpus below a node, one has the hart id and no other. -/
structure IsHartOf (cpus cpu : NodeId) (hartId : UInt64) : Prop where
  mem : cpu ∈ tree.cpuNodes cpus
  hartId_eq : tree.hartId cpu = .ok hartId
  eq_of_hartId : ∀ other ∈ tree.cpuNodes cpus, tree.hartId other = .ok hartId → other = cpu

/-- A phandle leads to the hart id of a cpu.  If it leads to a cpu at all, it is this one. -/
def LeadsToHart (cpus : NodeId) (phandle : UInt32) (hartId : UInt64) : Prop :=
  ∃ node cpu, tree.LeadsTo phandle node hartId ∧ tree.IsHartOf cpus cpu hartId ∧
    (node ∈ tree.cpuNodes cpus ↔ node = cpu)

/-! ## The wires that are followed -/

/-- An IMSIC that delivers to supervisor mode, by its first wire. -/
def Delivers (node : NodeId) : Prop :=
  (tree.wiresOf node).head?.map (·.level) = some 9

instance (node : NodeId) : Decidable (tree.Delivers node) :=
  inferInstanceAs (Decidable (_ = _))

/-- The wires of an IMSIC that there is a page for, with the addresses of the pages. -/
def pagedWires (node : NodeId) : List (Wire × Nat) :=
  (tree.wiresOf node).zip
    (pageAddresses (tree.wiresOf node).length ((tree.regions? node).getD []))

/-- The wires that are given a page by the receiver among some IMSIC nodes. -/
def pagedWiresAmong (nodes : List NodeId) : List (Wire × Nat) :=
  (nodes.find? fun node => tree.Delivers node).elim [] tree.pagedWires

/-- The phandles that are followed: those of the receiver's pages, and those of the banks'
contexts. -/
def followedPhandles : List UInt32 :=
  (tree.pagedWiresAmong (tree.compatibleNodes "riscv,imsics")).map (·.1.phandle) ++
    tree.bankContexts.map (·.phandle)

/-- The writes of both resolvers: for which phandle, and to which hart. -/
def wirings : List (UInt32 × UInt64) :=
  tree.planReceiver.entries.map (fun write => (write.phandle, write.hartId)) ++
    tree.planBanks.entries.map fun write => (write.phandle, write.hartId)

variable {tree} {node cpus : NodeId} {phandle : UInt32} {hartId : UInt64}

theorem hartOfController_eq_ok_iff {referrer : NodeId} :
    tree.hartOfController referrer phandle = .ok hartId ↔
      ∃ node, tree.LeadsTo phandle node hartId := by
  rw [hartOfController]
  constructor
  · intro h
    split at h
    next => cases h
    next controller howner =>
      split at h
      next => cases h
      next node hparent =>
        split at h
        next => cases h
        next hroot => exact ⟨node, ⟨controller, howner, hparent⟩, hroot, h⟩
  · rintro ⟨node, ⟨controller, howner, hparent⟩, hroot, hid⟩
    simp only [howner, hparent, if_neg hroot, hid]

theorem LeadsTo.node_eq {controller above : NodeId} (h : tree.LeadsTo phandle node hartId)
    (howner : tree.phandleOwner? phandle = some controller)
    (hparent : tree.parent? controller = some above) : node = above := by
  obtain ⟨⟨other, hother, hnode⟩, -, -⟩ := h
  obtain rfl := Option.some.inj (howner.symm.trans hother)
  exact Option.some.inj (hnode.symm.trans hparent)

/-! ## Pages -/

/-- A page is given to the hart that the wire beside it leads to. -/
structure GivenTo (tree : DeviceTree) (page : Wire × Nat) (write : PageWrite) : Prop where
  phandle_eq : write.phandle = page.1.phandle
  base_eq : write.base = UInt64.ofNat page.2
  leads : ∃ above, tree.LeadsTo write.phandle above write.hartId

theorem assignPages_eq_ok_iff {pages : List (Wire × Nat)} {entries : List PageWrite} :
    tree.assignPages node pages = ⟨entries, .ok ()⟩ ↔ List.Forall₂ tree.GivenTo pages entries := by
  induction pages generalizing entries with
  | nil => rw [assignPages, Journal.pure_eq_ok_iff, List.forall₂_nil_left_iff, and_iff_left rfl]
  | cons page rest ih =>
    obtain ⟨wire, base⟩ := page
    rw [assignPages, Journal.liftM_bind_eq_ok_iff, List.forall₂_cons_left_iff]
    simp only [Journal.bind_eq_ok_iff, Journal.emit_eq_ok_iff, ih]
    constructor
    · rintro ⟨hartId, hhart, ⟨⟩, _, after, rfl, hrest, rfl⟩
      exact ⟨_, after, ⟨rfl, rfl, hartOfController_eq_ok_iff.1 hhart⟩, hrest, rfl⟩
    · rintro ⟨⟨_, hartId, _⟩, after, ⟨rfl, rfl, hleads⟩, hrest, rfl⟩
      exact ⟨hartId, hartOfController_eq_ok_iff.2 hleads, (), _, after, rfl, hrest, rfl⟩

theorem wiresOf_of_wires? {wires : List Wire} (h : tree.wires? node = .ok (some wires)) :
    tree.wiresOf node = wires := by
  rw [wiresOf, h]

theorem DeliversElsewhere.not_delivers (h : tree.DeliversElsewhere node) :
    ¬ tree.Delivers node := by
  obtain ⟨first, rest, hread, hlevel⟩ := h
  rw [Delivers, wiresOf_of_wires? hread]
  exact fun h => hlevel (Option.some.inj h)

/-- The receiver is the first node that delivers. -/
theorem pagedWiresAmong_eq {nodes : List NodeId} {receiver : Receiver} {wires : List Wire}
    {regions : List Region} (hfirst : tree.IsFirstAmong nodes receiver.node)
    (h : tree.Describes receiver wires regions) :
    tree.pagedWiresAmong nodes = wires.zip (pageAddresses wires.length regions) := by
  obtain ⟨before, after, rfl, hbefore⟩ := hfirst
  have hskipped : before.find? (fun node => tree.Delivers node) = none := by
    rw [List.find?_eq_none]
    exact fun node hnode => by simpa using (hbefore node hnode).not_delivers
  have hdelivers : tree.Delivers receiver.node := by
    rw [Delivers, wiresOf_of_wires? h.wires?_eq]
    exact h.level_eq
  rw [pagedWiresAmong, List.find?_append, hskipped, Option.none_or,
    List.find?_cons_of_pos (by simpa using hdelivers), Option.elim_some, pagedWires,
    wiresOf_of_wires? h.wires?_eq, h.regions?_eq, Option.getD_some]

/-- **The receiver gives pages to the harts that its wires lead to.** -/
theorem pages_of_receiverAmong {nodes : List NodeId} {entries : List PageWrite}
    {receiver : Option Receiver} (h : tree.receiverAmong nodes = ⟨entries, .ok receiver⟩) :
    List.Forall₂ tree.GivenTo (tree.pagedWiresAmong nodes) entries := by
  rcases receiverAmong_eq_ok_iff.1 h with
    ⟨hall, rfl, -⟩ | ⟨receiver, wires, regions, hfirst, hdescribes, hpages, -⟩
  · have hnone : nodes.find? (fun node => tree.Delivers node) = none := by
      rw [List.find?_eq_none]
      exact fun node hnode => by simpa using (hall node hnode).not_delivers
    rw [pagedWiresAmong, hnone]
    exact .nil
  · rw [pagedWiresAmong_eq hfirst hdescribes]
    exact assignPages_eq_ok_iff.1 hpages

/-- Pages are taken for harts of the table only. -/
theorem hartId_mem_of_foldlM_apply {entries : List PageWrite} {table table' : HartTable}
    (h : entries.foldlM PageWrite.apply table = .ok table') :
    ∀ write ∈ entries, write.hartId ∈ table.records.map (·.hartId) := by
  induction entries generalizing table with
  | nil => nofun
  | cons write rest ih =>
    rw [List.foldlM_cons, Except.bind_eq_ok_iff] at h
    obtain ⟨next, hfirst, hrest⟩ := h
    obtain ⟨⟨entry, hentry⟩, rfl⟩ := HartTable.setInterruptFile_eq_ok_iff.1 hfirst
    refine List.forall_mem_cons.2 ⟨?_, fun other hother => ?_⟩
    · by_contra hnot
      rw [HartTable.entry?_eq_none_iff.2 hnot] at hentry
      cases hentry
    · have hmem := ih hrest other hother
      rw [HartTable.map_hartId_records, HartTable.map_adjust] at hmem
      · rwa [HartTable.map_hartId_records]
      · exact fun _ => rfl

/-! ## Harts -/

/-- Each hart that is discovered is that of one cpu. -/
theorem exists_isHartOf {warnings : List Warning} {table : HartTable}
    (h : tree.resolveHarts cpus = ⟨warnings, .ok table⟩)
    (hmem : hartId ∈ table.records.map (·.hartId)) : ∃ cpu, tree.IsHartOf cpus cpu hartId := by
  obtain ⟨ids, hids, hnodup, hentries⟩ := resolveHarts_spec h
  have hread : (tree.cpuNodes cpus).map tree.hartId = ids.map .ok := by
    rw [← List.forall₂_eq_eq_eq, List.forall₂_map_left_iff, List.forall₂_map_right_iff]
    exact hids
  have hdistinct : ((tree.cpuNodes cpus).map tree.hartId).Nodup := by
    rw [hread]
    exact hnodup.map fun _ _ => Except.ok.inj
  have hknown : hartId ∈ ids := by
    rwa [HartTable.map_hartId_records, hentries, HartTable.map_hartId_freshEntries] at hmem
  have hlisted : Except.ok hartId ∈ (tree.cpuNodes cpus).map tree.hartId := by
    rw [hread]
    exact List.mem_map_of_mem hknown
  obtain ⟨cpu, hcpu, hid⟩ := List.mem_map.1 hlisted
  exact ⟨cpu, hcpu, hid, fun other hother hsame =>
    List.inj_on_of_nodup_map hdistinct hother hcpu (hsame.trans hid.symm)⟩

theorem LeadsTo.leadsToHart {cpu : NodeId} (h : tree.LeadsTo phandle node hartId)
    (hcpu : tree.IsHartOf cpus cpu hartId) : tree.LeadsToHart cpus phandle hartId := by
  refine ⟨node, cpu, h, hcpu, fun hmem => hcpu.eq_of_hartId node hmem h.hartId_eq, ?_⟩
  rintro rfl
  exact hcpu.mem

/-! ## The wiring of a topology -/

/-- The receiver writes for the wires that have a page, if the table holds harts of cpus only. -/
theorem pages_of_resolveReceiver {table table' : HartTable} {receiver : Option Receiver}
    (hcpus : ∀ hartId ∈ table.records.map (·.hartId), ∃ cpu, tree.IsHartOf cpus cpu hartId)
    (h : tree.resolveReceiver table = (table', .ok receiver)) :
    tree.planReceiver.entries.map (·.phandle) =
        (tree.pagedWiresAmong (tree.compatibleNodes "riscv,imsics")).map (·.1.phandle) ∧
      ∀ write ∈ tree.planReceiver.entries,
        tree.LeadsToHart cpus write.phandle write.hartId := by
  obtain ⟨houtcome, hrun⟩ := Journal.carryOut_eq_ok_iff.1 h
  obtain ⟨entries, hplan⟩ := Journal.outcome_eq_ok_iff.1 houtcome
  have hgiven := pages_of_receiverAmong hplan
  have hleads : ∀ write ∈ entries, ∃ node, tree.LeadsTo write.phandle node write.hartId :=
    ((List.forall₂_and_left _ _).1
      (hgiven.flip.imp fun _ _ hpage => ⟨hpage.leads, hpage⟩)).1
  rw [hplan] at hrun ⊢
  constructor
  · rw [← List.forall₂_eq_eq_eq, List.forall₂_map_left_iff, List.forall₂_map_right_iff]
    exact hgiven.flip.imp fun _ _ hpage => hpage.phandle_eq
  · intro write hwrite
    obtain ⟨node, hnode⟩ := hleads write hwrite
    obtain ⟨cpu, hcpu⟩ := hcpus _ (hartId_mem_of_foldlM_apply hrun write hwrite)
    exact hnode.leadsToHart hcpu

/-- The banks write for their contexts, if the table holds harts of cpus only. -/
theorem writes_of_resolveBanks {table table' : HartTable} {resolution : BankResolution}
    (hwf : tree.WellFormed)
    (hcpus : ∀ hartId ∈ table.records.map (·.hartId), ∃ cpu, tree.IsHartOf cpus cpu hartId)
    (h : tree.resolveBanks table = (table', .ok resolution)) :
    tree.planBanks.entries.map (·.phandle) = tree.bankContexts.map (·.phandle) ∧
      ∀ write ∈ tree.planBanks.entries, tree.LeadsToHart cpus write.phandle write.hartId := by
  obtain ⟨houtcome, hrun⟩ := Journal.carryOut_eq_ok_iff.1 h
  obtain ⟨entries, hplan⟩ := Journal.outcome_eq_ok_iff.1 houtcome
  rw [hplan] at hrun ⊢
  obtain ⟨banks, hbanks, -⟩ := Journal.bind_pure_eq_ok_iff.1 hplan
  rw [hwf.nodeList_eq_preorder] at hbanks
  obtain ⟨hgives, rfl⟩ := banksAmong_contexts hbanks
  obtain ⟨htaken, -, -⟩ := ContextWrite.foldlM_apply_eq_ok_iff.1 hrun
  refine ⟨List.map_map, fun write hwrite => ?_⟩
  obtain ⟨cpu, hcpu⟩ := hcpus _ (htaken write hwrite).hartId_mem
  obtain ⟨c, hc, rfl⟩ := List.mem_map.1 hwrite
  obtain ⟨hartId, hhart⟩ := Option.isSome_iff_exists.1 (hgives c hc).1
  obtain ⟨node, hnode⟩ := hartOfController_eq_ok_iff.1 (hartOf?_eq_some_iff.1 hhart)
  have hid : (tree.writeOf c).hartId = hartId := by
    rw [writeOf, hhart]
    rfl
  rw [← hid] at hnode
  exact hnode.leadsToHart hcpu

/-- **Every wire that is followed leads to the hart id of a cpu.**  Each gets one write, to the hart
with this id, and a wire that leads anywhere else leaves no topology.  A wire that leads to one of
the cpus leads to the hart's own. -/
theorem wirings_of_resolveTopology {warnings : List Warning} {topology : Topology}
    (hreachable : tree.Reachable) (h : tree.resolveTopology = ⟨warnings, .ok topology⟩)
    (hcpus : tree.find? cpusPath = some cpus) :
    tree.wirings.map Prod.fst = tree.followedPhandles ∧
      ∀ p ∈ tree.wirings, tree.LeadsToHart cpus p.1 p.2 := by
  obtain ⟨found, discovered, hfound, hharts, hwiring⟩ := resolveTopology_eq_ok h
  obtain rfl := Option.some.inj (hfound.symm.trans hcpus)
  obtain ⟨paged, receiver, wired, banks, hreceiver, hbanks, -⟩ :=
    resolveWiring_eq_ok_iff.1 hwiring
  have hknown : ∀ hartId ∈ discovered.records.map (·.hartId),
      ∃ cpu, tree.IsHartOf found cpu hartId := fun _ hmem => exists_isHartOf hharts hmem
  -- the receiver leaves the hart ids alone, so the banks find the same harts
  have hids : paged.records.map (·.hartId) = discovered.records.map (·.hartId) := by
    have hkept := map_of_resolveReceiver tree discovered
      (g := fun entry => entry.record.hartId) fun _ _ _ => rfl
    rw [hreceiver] at hkept
    rw [HartTable.map_hartId_records, HartTable.map_hartId_records]
    exact hkept
  obtain ⟨hpages, hpageLeads⟩ := pages_of_resolveReceiver hknown hreceiver
  obtain ⟨hcontexts, hcontextLeads⟩ :=
    writes_of_resolveBanks hreachable.wellFormed (hids ▸ hknown) hbanks
  constructor
  · rw [wirings, List.map_append, List.map_map, List.map_map, followedPhandles, ← hpages,
      ← hcontexts]
    rfl
  · intro p hp
    rcases List.mem_append.1 hp with hp | hp
    · obtain ⟨write, hwrite, rfl⟩ := List.mem_map.1 hp
      exact hpageLeads write hwrite
    · obtain ⟨write, hwrite, rfl⟩ := List.mem_map.1 hp
      exact hcontextLeads write hwrite

/-! ## A board with a stray controller -/

/-- The edits of a board with two cpus, a PLIC and an IMSIC.  The second wire of each leads to a
port of a device, whose `reg` begins with the number of the second cpu. -/
def strayBoardEdits : List Edit :=
  [.addNode NodeId.root "cpus", .setProperty 1 "#address-cells" (PropertyValue.ofCells [1]),
    .addNode 1 "cpu@0", .addNode 2 "interrupt-controller",
    .setProperty 2 "compatible" (PropertyValue.ofStrings ["riscv"]),
    .setProperty 2 "reg" (PropertyValue.ofCells [0]),
    .setProperty 3 "phandle" (PropertyValue.ofCells [1]),
    .addNode 1 "cpu@1",
    .setProperty 4 "compatible" (PropertyValue.ofStrings ["riscv"]),
    .setProperty 4 "reg" (PropertyValue.ofCells [1]),
    .addNode NodeId.root "device", .addNode 5 "port",
    .setProperty 5 "reg" (PropertyValue.ofCells [0, 1]),
    .setProperty 6 "phandle" (PropertyValue.ofCells [2]),
    .addNode NodeId.root "plic",
    .setProperty 7 "compatible" (PropertyValue.ofStrings ["riscv,plic0"]),
    .setProperty 7 "riscv,num-sources" (PropertyValue.ofCells [8]),
    .setProperty 7 "reg" (PropertyValue.ofCells [0, 0x1000, 0x100]),
    .setProperty 7 "interrupts-extended" (PropertyValue.ofCells [1, 11, 1, 9, 2, 11, 2, 9]),
    .addNode NodeId.root "imsics",
    .setProperty 8 "compatible" (PropertyValue.ofStrings ["riscv,imsics"]),
    .setProperty 8 "riscv,num-ids" (PropertyValue.ofCells [255]),
    .setProperty 8 "reg" (PropertyValue.ofCells [0, 0x28000000, 0x2000]),
    .setProperty 8 "interrupts-extended" (PropertyValue.ofCells [1, 9, 2, 9])]

/-- What the board wires: each of the two harts once by the IMSIC and once by the PLIC. -/
def strayBoardWirings : List (UInt32 × UInt64) :=
  [(1, 0), (2, 1), (1, 0), (2, 1)]

theorem resolveTopology_strayBoardEdits :
    ∃ tree warnings topology, ofEdits? strayBoardEdits = some tree ∧
      tree.resolveTopology = ⟨warnings, .ok topology⟩ ∧ tree.find? cpusPath = some 1 ∧
      tree.wirings = strayBoardWirings ∧ tree.cpuNodes 1 = [2, 4] ∧
      tree.phandleOwner? 1 = some 3 ∧ tree.parent? 3 = some 2 ∧
      tree.phandleOwner? 2 = some 6 ∧ tree.parent? 6 = some 5 := by
  have hruns : (ofEdits? strayBoardEdits).any fun tree =>
      tree.resolveTopology.outcome.isOk &&
        decide (tree.find? cpusPath = some 1 ∧ tree.wirings = strayBoardWirings ∧
          tree.cpuNodes 1 = [2, 4] ∧ tree.phandleOwner? 1 = some 3 ∧ tree.parent? 3 = some 2 ∧
          tree.phandleOwner? 2 = some 6 ∧ tree.parent? 6 = some 5) := by
    decide +kernel
  obtain ⟨tree, htree, hruns⟩ := (Option.any_eq_true _ _).1 hruns
  rw [Bool.and_eq_true, decide_eq_true_eq] at hruns
  obtain ⟨hok, hfacts⟩ := hruns
  cases houtcome : tree.resolveTopology.outcome with
  | error error =>
    rw [houtcome] at hok
    cases hok
  | ok topology =>
    obtain ⟨warnings, hresolved⟩ := Journal.outcome_eq_ok_iff.1 houtcome
    exact ⟨tree, warnings, topology, htree, hresolved, hfacts⟩

/-- **A hart can be wired through a node that is no cpu.** -/
theorem not_wired_through_cpus :
    ¬ ∀ (tree : DeviceTree) (warnings : List Warning) (topology : Topology) (cpus : NodeId),
      tree.Reachable → tree.resolveTopology = ⟨warnings, .ok topology⟩ →
      tree.find? cpusPath = some cpus →
      ∀ p ∈ tree.wirings, ∃ cpu ∈ tree.cpuNodes cpus, tree.LeadsTo p.1 cpu p.2 := by
  intro hthrough
  obtain ⟨tree, warnings, topology, htree, hresolved, hcpus, hwiring, hnodes, -, -, howner,
    hparent⟩ := resolveTopology_strayBoardEdits
  have hstray : ((2, 1) : UInt32 × UInt64) ∈ tree.wirings := by
    rw [hwiring]
    decide
  obtain ⟨cpu, hcpu, hleads⟩ :=
    hthrough tree warnings topology 1 (reachable_of_ofEdits? htree) hresolved hcpus _ hstray
  obtain rfl := hleads.node_eq howner hparent
  rw [hnodes] at hcpu
  exact absurd hcpu (by decide)

/-- The first hart is wired through its own cpu, and the second through the device. -/
theorem wirings_strayBoardEdits :
    ∃ tree warnings topology, ofEdits? strayBoardEdits = some tree ∧
      tree.resolveTopology = ⟨warnings, .ok topology⟩ ∧ tree.find? cpusPath = some 1 ∧
      tree.followedPhandles = [1, 2, 1, 2] ∧
      tree.LeadsTo 1 2 0 ∧ tree.IsHartOf 1 2 0 ∧
      tree.LeadsTo 2 5 1 ∧ tree.IsHartOf 1 4 1 := by
  obtain ⟨tree, warnings, topology, htree, hresolved, hcpus, hwiring, hnodes, howner, hparent,
    howner', hparent'⟩ := resolveTopology_strayBoardEdits
  obtain ⟨hfollowed, hleads⟩ :=
    wirings_of_resolveTopology (reachable_of_ofEdits? htree) hresolved hcpus
  rw [hwiring] at hfollowed hleads
  refine ⟨tree, warnings, topology, htree, hresolved, hcpus, hfollowed.symm, ?_⟩
  obtain ⟨node, cpu, hfirst, hcpu, hthrough⟩ := hleads (1, 0) (by decide)
  obtain ⟨stray, other, hsecond, hother, -⟩ := hleads (2, 1) (by decide)
  obtain rfl := hfirst.node_eq howner hparent
  obtain rfl := hsecond.node_eq howner' hparent'
  obtain rfl := hthrough.1 (hnodes ▸ List.mem_cons_self)
  have hne : other ≠ 2 := by
    rintro rfl
    exact absurd (Except.ok.inj (hcpu.hartId_eq.symm.trans hother.hartId_eq)) (by decide)
  have hmem := hother.mem
  rw [hnodes, List.mem_cons, or_iff_right hne, List.mem_singleton] at hmem
  exact ⟨hfirst, hcpu, hsecond, hmem ▸ hother⟩

end DeviceTree
end RiscvTables
