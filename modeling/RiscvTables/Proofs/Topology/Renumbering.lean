import RiscvTables.Proofs.Build
import RiscvTables.Proofs.DeviceTree.Renumbering
import RiscvTables.Proofs.Topology.Banks
import RiscvTables.Proofs.Topology.Capabilities
import RiscvTables.Proofs.Topology.Gsi

/-!
# Going through a blob changes nothing

A tree and the blob that it is written to say the same, though the tree that is read back has
other numbers for its nodes.  The resolvers follow links, phandles and the pre-order of the nodes,
and name a node by its path; so on a renumbered tree each of them makes the same entries in its
journal and ends the same way, with the same error if it fails.

Only one thing that they resolve holds numbers of nodes, the map of global interrupt numbers, and
`Topology.renumber` renumbers it.  Records hold none, so the store is the same, and the table.

There is one lemma for each resolver, in the order of the library, and all rest on `Renumbers`.
`ofBlob_toBlob_computes` joins them with the round trip.
-/

set_option autoImplicit false

namespace RiscvTables

/-! ## Journals with a rewritten result

The entries of a journal name no node by its number, so a run on a renumbered tree has the same
entries.  Its result may hold numbers, and is then the old one rewritten. -/

namespace Journal

variable {ω α β γ : Type}

/-- The same run, with its result rewritten. -/
def map (f : α → β) (journal : Journal ω α) : Journal ω β :=
  ⟨journal.entries, journal.outcome.map f⟩

theorem map_bind (f : β → γ) (first : Journal ω α) (next : α → Journal ω β) :
    (first >>= next).map f = first >>= fun a => (next a).map f := by
  obtain ⟨entries, outcome⟩ := first
  cases outcome <;> rfl

theorem bind_map (f : α → β) (first : Journal ω α) (next : β → Journal ω γ) :
    first.map f >>= next = first >>= fun a => next (f a) := by
  obtain ⟨entries, outcome⟩ := first
  cases outcome <;> rfl

/-- Carrying out a run does not look at its result. -/
theorem carryOut_map {σ : Type} (f : α → β) (step : σ → ω → Except TopologyError σ)
    (journal : Journal ω α) (state : σ) :
    (journal.map f).carryOut step state =
      ((journal.carryOut step state).1, (journal.carryOut step state).2.map f) := by
  have hgo : ∀ entries state, carryOut.go step (journal.map f) entries state =
      ((carryOut.go step journal entries state).1,
        (carryOut.go step journal entries state).2.map f) := by
    intro entries
    induction entries with
    | nil => exact fun state => rfl
    | cons entry rest ih =>
      intro state
      rw [carryOut.go, carryOut.go]
      cases step state entry with
      | error error => rfl
      | ok next => exact ih next
  exact hgo journal.entries state

end Journal

/-! ## Results that name nodes -/

/-- The map with each node renumbered. -/
def GsiMap.renumber (renumber : NodeId → NodeId) (map : GsiMap) : GsiMap :=
  ⟨map.entries.map fun entry => (renumber entry.1, entry.2)⟩

/-- Banks at nodes whose new numbers are distinct are registered under these numbers. -/
theorem GsiMap.foldl_register_renumber {renumber : NodeId → NodeId}
    {banks : List (NodeId × BankRecord)} (h : ((banks.map Prod.fst).map renumber).Nodup) :
    ((banks.map fun p => (renumber p.1, p.2)).foldl
      (fun map p => map.register p.1 p.2.gsiBase) GsiMap.empty) =
        (banks.foldl (fun map p => map.register p.1 p.2.gsiBase) GsiMap.empty).renumber
          renumber := by
  have hold : (GsiMap.empty.entries.map Prod.fst ++ banks.map Prod.fst).Nodup := h.of_map
  have hnew : (GsiMap.empty.entries.map Prod.fst ++
      (banks.map fun p => (renumber p.1, p.2)).map Prod.fst).Nodup := by
    rw [List.map_map] at h ⊢
    exact h
  rw [GsiMap.renumber, entries_foldl_register hold]
  refine congrArg GsiMap.mk ((entries_foldl_register hnew).trans ?_)
  rw [List.map_map, List.map_append, List.map_map]
  rfl

/-- The topology with each node renumbered: only the map of global numbers names nodes. -/
def Topology.renumber (renumber : NodeId → NodeId) (topology : Topology) : Topology :=
  { topology with gsi := topology.gsi.renumber renumber }

theorem Topology.toRecords_renumber (renumber : NodeId → NodeId) (topology : Topology) :
    (topology.renumber renumber).toRecords = topology.toRecords := rfl

namespace DeviceTree
namespace Renumbers

variable {renumber : NodeId → NodeId} {tree tree' : DeviceTree} (h : Renumbers renumber tree tree')
include h

/-! ## Messages and wires -/

theorem malformed (node : NodeId) (property : String) :
    tree'.malformed (renumber node) property = tree.malformed node property := by
  rw [DeviceTree.malformed, DeviceTree.malformed, h.path]

theorem missing (node : NodeId) (property : String) :
    tree'.missing (renumber node) property = tree.missing node property := by
  rw [DeviceTree.missing, DeviceTree.missing, h.path]

theorem optionalCell (node : NodeId) (property : String) :
    tree'.optionalCell (renumber node) property = tree.optionalCell node property := by
  rw [DeviceTree.optionalCell, DeviceTree.optionalCell, h.property?, h.malformed]

theorem wires? (node : NodeId) : tree'.wires? (renumber node) = tree.wires? node := by
  rw [DeviceTree.wires?, DeviceTree.wires?, h.property?, h.malformed]

theorem firstLevel? (node : NodeId) :
    tree'.firstLevel? (renumber node) = tree.firstLevel? node := by
  rw [DeviceTree.firstLevel?, DeviceTree.firstLevel?, h.property?]

/-! ## Harts -/

theorem hartId (cpu : NodeId) : tree'.hartId (renumber cpu) = tree.hartId cpu := by
  rw [DeviceTree.hartId, DeviceTree.hartId, h.parent?, h.path, h.property?]
  cases tree.parent? cpu with
  | none => rfl
  | some cpus =>
    dsimp only [Option.map_some]
    rw [h.addressCells, h.path]

theorem hartOfController (referrer : NodeId) (phandle : UInt32) :
    tree'.hartOfController (renumber referrer) phandle =
      tree.hartOfController referrer phandle := by
  rw [DeviceTree.hartOfController, DeviceTree.hartOfController, h.phandleOwner?, h.path]
  cases tree.phandleOwner? phandle with
  | none => rfl
  | some controller =>
    dsimp only [Option.map_some]
    rw [h.parent?, h.path]
    cases tree.parent? controller with
    | none => rfl
    | some cpu =>
      dsimp only [Option.map_some]
      rw [h.hartId]
      exact if_congr (h.root_iff cpu) rfl rfl

theorem cpuNodes (cpus : NodeId) :
    tree'.cpuNodes (renumber cpus) = (tree.cpuNodes cpus).map renumber := by
  rw [DeviceTree.cpuNodes, DeviceTree.cpuNodes, h.children, List.filter_map]
  refine congrArg (List.map renumber) (List.filter_congr fun child _ => ?_)
  exact h.any_node? child fun name =>
    String.ofList (name.toList.takeWhile (· ≠ '@')) = "cpu"

theorem hasInterruptController (cpu : NodeId) :
    tree'.hasInterruptController (renumber cpu) = tree.hasInterruptController cpu := by
  rw [DeviceTree.hasInterruptController, DeviceTree.hasInterruptController, h.children,
    List.any_map]
  simp only [Function.comp_def, h.property?, h.isCompatible]

theorem collectHarts (uid : Nat) (table : HartTable) (cpus : List NodeId) :
    tree'.collectHarts uid table (cpus.map renumber) = tree.collectHarts uid table cpus := by
  induction cpus generalizing uid table with
  | nil => rfl
  | cons cpu rest ih =>
    simp only [List.map_cons, DeviceTree.collectHarts, h.isCompatible, h.path, h.hartId,
      h.hasInterruptController, ih]

theorem resolveHarts (cpus : NodeId) :
    tree'.resolveHarts (renumber cpus) = tree.resolveHarts cpus := by
  rw [DeviceTree.resolveHarts, DeviceTree.resolveHarts, h.cpuNodes, h.path]
  cases tree.cpuNodes cpus with
  | nil => rfl
  | cons cpu rest => exact h.collectHarts 0 HartTable.empty (cpu :: rest)

/-! ## The receiver -/

theorem receiverRecord (node : NodeId) (wireCount : Nat) :
    tree'.receiverRecord (renumber node) wireCount = tree.receiverRecord node wireCount := by
  simp only [DeviceTree.receiverRecord, h.optionalCell, h.missing]

theorem assignPages (node : NodeId) (pages : List (Wire × Nat)) :
    tree'.assignPages (renumber node) pages = tree.assignPages node pages := by
  induction pages with
  | nil => rfl
  | cons page rest ih => simp only [DeviceTree.assignPages, h.hartOfController, ih]

theorem receiverWires (node : NodeId) :
    tree'.receiverWires (renumber node) = tree.receiverWires node := by
  simp only [DeviceTree.receiverWires, h.wires?, h.malformed]

theorem receiverAmong (nodes : List NodeId) :
    tree'.receiverAmong (nodes.map renumber) =
      (tree.receiverAmong nodes).map (Option.map fun receiver =>
        { receiver with node := renumber receiver.node }) := by
  induction nodes with
  | nil => rfl
  | cons node rest ih =>
    rw [List.map_cons, DeviceTree.receiverAmong, DeviceTree.receiverAmong, h.receiverWires,
      Journal.map_bind]
    refine congrArg _ (funext fun wires => ?_)
    split
    next => exact ih
    next =>
      rw [h.receiverRecord, Journal.map_bind]
      refine congrArg _ (funext fun record => ?_)
      rw [h.regions?]
      cases tree.regions? node with
      | none => rw [h.malformed]; rfl
      | some regions =>
        dsimp only
        rw [h.assignPages, Journal.map_bind]
        rfl

theorem compatibleNodes (model : String) :
    tree'.compatibleNodes model = (tree.compatibleNodes model).map renumber := by
  rw [DeviceTree.compatibleNodes, DeviceTree.compatibleNodes, h.nodeList, h.filter_map_renumber]

theorem resolveReceiver (table : HartTable) :
    tree'.resolveReceiver table =
      ((tree.resolveReceiver table).1,
        (tree.resolveReceiver table).2.map (Option.map fun receiver =>
          { receiver with node := renumber receiver.node })) := by
  rw [DeviceTree.resolveReceiver, DeviceTree.resolveReceiver, DeviceTree.planReceiver,
    DeviceTree.planReceiver, h.compatibleNodes, h.receiverAmong, Journal.carryOut_map]

/-! ## The banks -/

theorem bankFamily? (node : NodeId) :
    tree'.bankFamily? (renumber node) = tree.bankFamily? node := by
  rw [DeviceTree.bankFamily?, DeviceTree.bankFamily?, h.isCompatible, h.isCompatible,
    h.firstLevel?, h.property?]
  refine if_congr Iff.rfl rfl (if_congr Iff.rfl rfl (if_congr Iff.rfl rfl ?_))
  refine congrArg _ (funext fun value => congrArg _ (funext fun phandle => ?_))
  rw [h.phandleOwner?]
  cases tree.phandleOwner? phandle with
  | none => rfl
  | some imsic => simp only [Option.map_some, bind, Option.bind_some, h.firstLevel?]

theorem wireContexts (node : NodeId) (family : BankFamily) (bank : Nat)
    (contexts : List (Wire × Nat)) :
    tree'.wireContexts (renumber node) family bank contexts =
      tree.wireContexts node family bank contexts := by
  induction contexts with
  | nil => rfl
  | cons context rest ih => simp only [DeviceTree.wireContexts, h.hartOfController, ih]

theorem wirePlic (node : NodeId) (bank : Nat) :
    tree'.wirePlic (renumber node) bank = tree.wirePlic node bank := by
  simp only [DeviceTree.wirePlic, h.wires?, h.missing, h.malformed, h.wireContexts]

theorem wireAplic (node : NodeId) (bank : Nat) :
    tree'.wireAplic (renumber node) bank = tree.wireAplic node bank := by
  simp only [DeviceTree.wireAplic, h.wires?, h.wireContexts]

theorem bankSources (node : NodeId) :
    tree'.bankSources (renumber node) = tree.bankSources node := by
  simp only [DeviceTree.bankSources, h.optionalCell, h.missing]

theorem bankRegion (node : NodeId) : tree'.bankRegion (renumber node) = tree.bankRegion node := by
  rw [DeviceTree.bankRegion, DeviceTree.bankRegion, h.regions?, h.malformed]

theorem planBank (node : NodeId) (family : BankFamily) (id gsiBase : Nat) :
    tree'.planBank (renumber node) family id gsiBase = tree.planBank node family id gsiBase := by
  simp only [DeviceTree.planBank, h.bankSources, h.bankRegion, h.malformed, h.wirePlic,
    h.wireAplic]

theorem banksAmong (id gsiBase : Nat) (nodes : List NodeId) :
    tree'.banksAmong id gsiBase (nodes.map renumber) =
      (tree.banksAmong id gsiBase nodes).map (List.map fun p => (renumber p.1, p.2)) := by
  induction nodes generalizing id gsiBase with
  | nil => rfl
  | cons node rest ih =>
    rw [List.map_cons, DeviceTree.banksAmong, DeviceTree.banksAmong, h.bankFamily?]
    cases tree.bankFamily? node with
    | none => exact ih id gsiBase
    | some family =>
      dsimp only
      rw [h.planBank, Journal.map_bind]
      refine congrArg _ (funext fun bank => ?_)
      rw [ih, Journal.map_bind, Journal.bind_map]
      rfl

theorem planBanks :
    tree'.planBanks = tree.planBanks.map fun resolution =>
      { resolution with gsi := resolution.gsi.renumber renumber } := by
  have hnodup : (tree.nodeList.map renumber).Nodup := h.nodeList ▸ h.nodup
  rw [DeviceTree.planBanks, DeviceTree.planBanks, h.nodeList, h.banksAmong, Journal.bind_map,
    Journal.map_bind]
  rcases hbanks : tree.banksAmong 0 0 tree.nodeList with ⟨entries, error | banks⟩
  · rfl
  have hnodes : banks.map Prod.fst = tree.nodeList.filter fun node =>
      (tree.bankFamily? node).isSome := (map_fst_banksAmong hbanks).trans (map_fst_bankNodes _)
  have hdistinct : ((banks.map Prod.fst).map renumber).Nodup :=
    hnodes ▸ hnodup.sublist (List.filter_sublist.map renumber)
  have hbanks' : (banks.map fun p => (renumber p.1, p.2)).map Prod.snd = banks.map Prod.snd := by
    rw [List.map_map]
    rfl
  simp only [Journal.bind_eq, Journal.andThen_ok, Journal.pure_eq, Journal.map, Except.map,
    GsiMap.foldl_register_renumber hdistinct, hbanks']

theorem resolveBanks (table : HartTable) :
    tree'.resolveBanks table =
      ((tree.resolveBanks table).1, (tree.resolveBanks table).2.map fun resolution =>
        { resolution with gsi := resolution.gsi.renumber renumber }) := by
  rw [DeviceTree.resolveBanks, DeviceTree.resolveBanks, h.planBanks, Journal.carryOut_map]

/-! ## The topology -/

theorem resolveWiring (table : HartTable) :
    tree'.resolveWiring table = (tree.resolveWiring table).map (Topology.renumber renumber) := by
  rw [DeviceTree.resolveWiring, DeviceTree.resolveWiring, h.resolveReceiver]
  rcases tree.resolveReceiver table with ⟨table, error | receiver⟩
  · rfl
  dsimp only [Except.map]
  rw [h.resolveBanks]
  rcases tree.resolveBanks table with ⟨table, error | banks⟩
  · rfl
  · cases receiver <;> rfl

theorem resolveTopology :
    tree'.resolveTopology = tree.resolveTopology.map (Topology.renumber renumber) := by
  rw [DeviceTree.resolveTopology, DeviceTree.resolveTopology, h.find?]
  cases tree.find? cpusPath with
  | none => rfl
  | some cpus =>
    dsimp only [Option.map_some]
    rw [h.resolveHarts, Journal.map_bind]
    refine congrArg _ (funext fun table => ?_)
    rw [h.resolveWiring]
    rfl

/-- **The topology of a renumbered tree is the topology renumbered**, and in the store it is the
same. -/
theorem publishTopology (store : Store) :
    store.publishTopology tree' = (store.publishTopology tree).map fun result =>
      (result.1.renumber renumber, result.2) := by
  rw [Store.publishTopology, Store.publishTopology, h.resolveTopology, Journal.bind_map,
    Journal.map_bind]
  refine congrArg _ (funext fun topology => ?_)
  rw [Topology.toRecords_renumber]
  rfl

/-! ## Capabilities -/

theorem readTimer (cpus : NodeId) : tree'.readTimer (renumber cpus) = tree.readTimer cpus := by
  have hfirst : tree'.nextCompatible? none "riscv,timer" =
      (tree.nextCompatible? none "riscv,timer").map renumber := by
    have hwalk (tree : DeviceTree) : tree.nextCompatible? none "riscv,timer" =
        tree.nodeList.find? (tree.isCompatible · "riscv,timer") :=
      searchCompatible?_eq_find? _ _ _
    rw [hwalk, hwalk, h.nodeList, List.find?_map]
    simp only [Function.comp_def, h.isCompatible]
  have hword : ∀ timer? : Option NodeId,
      ((timer?.map renumber).any fun timer =>
        (tree'.property? timer "riscv,timer-cannot-wake-cpu").isSome) =
          timer?.any fun timer =>
            (tree.property? timer "riscv,timer-cannot-wake-cpu").isSome := by
    rintro (_ | timer)
    · rfl
    · simp only [Option.map_some, Option.any_some, h.property?]
  rw [DeviceTree.readTimer, DeviceTree.readTimer, h.property?, h.malformed, hfirst, hword]

theorem readIsa (cpu : NodeId) : tree'.readIsa (renumber cpu) = tree.readIsa cpu := by
  rw [DeviceTree.readIsa, DeviceTree.readIsa, h.property?, h.malformed]

theorem readBlockSize (cpu : NodeId) (property : String) :
    tree'.readBlockSize (renumber cpu) property = tree.readBlockSize cpu property := by
  simp only [DeviceTree.readBlockSize, h.optionalCell, h.malformed]

theorem capabilities (cpus : NodeId) :
    tree'.capabilities (renumber cpus) = tree.capabilities cpus := by
  rw [DeviceTree.capabilities, DeviceTree.capabilities, h.readTimer, h.cpuNodes]
  refine congrArg _ (funext fun timer => ?_)
  cases tree.cpuNodes cpus with
  | nil => rfl
  | cons cpu rest =>
    simp only [List.map_cons, h.readIsa, DeviceTree.readCacheBlocks, h.readBlockSize]

/-! ## The table -/

theorem gatherRecords (platform : PlatformConfig) :
    RiscvTables.gatherRecords tree' platform = RiscvTables.gatherRecords tree platform := by
  have hcpus : ((tree.find? cpusPath).map renumber).getD NodeId.root =
      renumber ((tree.find? cpusPath).getD NodeId.root) := by
    cases tree.find? cpusPath with
    | none => exact h.root.symm
    | some cpus => rfl
  rw [RiscvTables.gatherRecords, RiscvTables.gatherRecords, h.publishTopology, h.find?, hcpus]
  simp only [h.capabilities]
  rcases Store.empty.publishTopology tree with ⟨warnings, error | ⟨topology, store⟩⟩ <;> rfl

theorem buildTable (platform : PlatformConfig) :
    RiscvTables.buildTable tree' platform = RiscvTables.buildTable tree platform := by
  rw [RiscvTables.buildTable, RiscvTables.buildTable, h.gatherRecords]

end Renumbers

/-- **Going through a blob changes nothing.**  The tree that is read back has the same topology,
up to the numbers of the nodes, or the same error, and the same table for every platform. -/
theorem ofBlob_toBlob_computes {tree : DeviceTree} (hreachable : tree.Reachable)
    (hencodable : tree.Encodable) (hone : tree.OnePhandle) :
    ∃ tree', ofBlob tree.toBlob = .ok tree' ∧
      (∀ store : Store, store.publishTopology tree' =
        (store.publishTopology tree).map fun result =>
          (result.1.renumber tree.rank, result.2)) ∧
      ∀ platform, buildTable tree' platform = buildTable tree platform := by
  obtain ⟨tree', hread, hrenumbers⟩ := renumbers_ofBlob hreachable hencodable hone
  exact ⟨tree', hread, hrenumbers.publishTopology, hrenumbers.buildTable⟩

/-! ## A board that is not in pre-order -/

/-- The edits of a board whose PLIC is added before the cpu. -/
def earlyBankEdits : List Edit :=
  [.addNode NodeId.root "cpus", .addNode NodeId.root "plic", .addNode 1 "cpu@0",
    .addNode 3 "interrupt-controller",
    .setProperty 1 "#address-cells" (PropertyValue.ofCells [1]),
    .setProperty 3 "compatible" (PropertyValue.ofStrings ["riscv"]),
    .setProperty 3 "reg" (PropertyValue.ofCells [0]),
    .setProperty 4 "phandle" (PropertyValue.ofCells [1]),
    .setProperty 2 "compatible" (PropertyValue.ofStrings ["riscv,plic0"]),
    .setProperty 2 "riscv,num-sources" (PropertyValue.ofCells [8]),
    .setProperty 2 "reg" (PropertyValue.ofCells [0, 0x1000, 0x100]),
    .setProperty 2 "interrupts-extended" (PropertyValue.ofCells [1, 11, 1, 9])]

/-- The tree of these edits. -/
def earlyBankTree : DeviceTree :=
  (ofEdits? earlyBankEdits).getD DeviceTree.empty

/-- The PLIC is node 2, and node 4 of the tree that is read back. -/
theorem ofBlob_toBlob_computes_earlyBankTree :
    ∃ tree' topology topology' store, ofBlob earlyBankTree.toBlob = .ok tree' ∧
      (Store.empty.publishTopology earlyBankTree).outcome = .ok (topology, store) ∧
      (Store.empty.publishTopology tree').outcome = .ok (topology', store) ∧
      topology.gsi.entries = [(2, 0)] ∧ topology'.gsi.entries = [(4, 0)] ∧
      buildTable tree' samplePlatform = buildTable earlyBankTree samplePlatform := by
  have hedits : ofEdits? earlyBankEdits = some earlyBankTree := by decide +kernel
  have hencodable : earlyBankTree.Encodable :=
    ⟨by decide +kernel, by decide +kernel, by decide +kernel⟩
  have hone : earlyBankTree.OnePhandle := by
    show ∀ node ∈ earlyBankTree.nodes, ∀ value ∈ node.property? "phandle",
      ∀ other ∈ node.property? "linux,phandle", value = other
    decide +kernel
  have hbank : (Store.empty.publishTopology earlyBankTree).outcome.map (·.1.gsi.entries) =
      .ok [(2, 0)] := by decide +kernel
  have hrank : earlyBankTree.rank 2 = 4 := by decide +kernel
  obtain ⟨tree', hread, htopology, htable⟩ :=
    ofBlob_toBlob_computes (reachable_of_ofEdits? hedits) hencodable hone
  obtain ⟨⟨topology, store⟩, houtcome, hentries⟩ := Except.map_eq_ok_iff.1 hbank
  refine ⟨tree', topology, topology.renumber earlyBankTree.rank, store, hread, houtcome, ?_,
    hentries, ?_, htable samplePlatform⟩
  · rw [htopology, Journal.map, houtcome]
    rfl
  · rw [Topology.renumber, GsiMap.renumber, hentries, List.map_singleton, hrank]

end DeviceTree
end RiscvTables
