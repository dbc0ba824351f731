import RiscvTables.Proofs.Record.Store
import RiscvTables.Proofs.Topology
import RiscvTables.Proofs.Topology.ExternalIds

/-!
# Publishing a topology

Resolution takes many steps, any of which can fail, and some of which write to the table of harts
before a later one does.  `publication` has all of them in order as steps on a table and a store,
where a failure undoes nothing.  It ends as `Store.publishTopology` does, and the store is written
to only when no step is left that could fail (`run_publication`).

So a store either stays as it is or gets all records of a topology, each at the end of its kind
(`Store.Adds`), and these are the records as they are after the last write to the table
(`Settled`).
-/

set_option autoImplicit false

namespace RiscvTables

/-! ## Steps on a workspace -/

/-- What a resolution writes to. -/
structure Workspace where
  table : HartTable
  store : Store

/-- Steps on a workspace.  What was done before a failure stays done. -/
abbrev Steps (α : Type) : Type :=
  ExceptT TopologyError (StateM Workspace) α

namespace Steps

variable {α β : Type}

/-- Carries out the steps: how they end, and what they leave. -/
def run (steps : Steps α) (workspace : Workspace) : Except TopologyError α × Workspace :=
  StateT.run (ExceptT.run steps) workspace

/-- A step that only may fail. -/
def ofExcept (outcome : Except TopologyError α) : Steps α :=
  ExceptT.mk (pure outcome)

/-- Puts another table into the workspace. -/
def setTable (table : HartTable) : Steps Unit :=
  modify fun workspace => { workspace with table }

/-- Runs a resolver on the table.  What it has written there stays, however it ends. -/
def onTable (resolve : HartTable → HartTable × Except TopologyError α) : Steps α := do
  let result := resolve (← get).table
  setTable result.1
  ofExcept result.2

/-- Adds records to the store. -/
def publish (records : List Record) : Steps Unit :=
  modify fun workspace => { workspace with store := workspace.store.publish records }

variable {workspace after : Workspace} {steps : Steps α} {next : α → Steps β}

theorem run_bind_of_ok {a : α} (h : steps.run workspace = (.ok a, after)) :
    Steps.run (steps >>= next) workspace = (next a).run after :=
  ExceptT.runOn_bind_of_ok h

theorem run_bind_of_error {error : TopologyError}
    (h : steps.run workspace = (.error error, after)) :
    Steps.run (steps >>= next) workspace = (.error error, after) :=
  ExceptT.runOn_bind_of_error h

theorem run_ofExcept (workspace : Workspace) (outcome : Except TopologyError α) :
    (ofExcept outcome).run workspace = (outcome, workspace) := rfl

theorem run_setTable (workspace : Workspace) (table : HartTable) :
    (setTable table).run workspace = (.ok (), { workspace with table }) := rfl

theorem run_onTable {resolve : HartTable → HartTable × Except TopologyError α} {table : HartTable}
    {outcome : Except TopologyError α} (h : resolve workspace.table = (table, outcome)) :
    (onTable resolve).run workspace = (outcome, { workspace with table }) := by
  show ((resolve workspace.table).2, { workspace with table := (resolve workspace.table).1 }) = _
  rw [h]

end Steps

namespace DeviceTree

variable (tree : DeviceTree)

/-- Wires the table as the receiver and the banks say. -/
def wiring : Steps Topology := do
  let receiver ← Steps.onTable tree.resolveReceiver
  let banks ← Steps.onTable tree.resolveBanks
  return {
    harts := (← get).table.records
    receiver := receiver.map (·.record)
    banks := banks.banks
    gsi := banks.gsi }

/-- Fills the table and wires it. -/
def resolution : Steps Topology := do
  let cpus ← Steps.ofExcept ((tree.find? cpusPath).elim (.error (.missingNode cpusPath)) .ok)
  let discovered ← Steps.ofExcept (tree.resolveHarts cpus).outcome
  Steps.setTable discovered
  tree.wiring

/-- Resolves a tree and publishes the records. -/
def publication : Steps Topology := do
  let topology ← tree.resolution
  Steps.publish topology.toRecords
  return topology

/-- Wiring ends as `resolveWiring` does, and only the table has changed. -/
theorem run_wiring (workspace : Workspace) :
    ∃ table, tree.wiring.run workspace =
      (tree.resolveWiring workspace.table, { workspace with table }) := by
  rcases hreceiver : tree.resolveReceiver workspace.table with ⟨paged, error | receiver⟩
  · have houtcome : tree.resolveWiring workspace.table = .error error := by
      rw [resolveWiring, hreceiver]
    rw [wiring, Steps.run_bind_of_error (Steps.run_onTable hreceiver), houtcome]
    exact ⟨paged, rfl⟩
  · rw [wiring, Steps.run_bind_of_ok (Steps.run_onTable hreceiver)]
    rcases hbanks : tree.resolveBanks paged with ⟨wired, error | banks⟩
    · have houtcome : tree.resolveWiring workspace.table = .error error := by
        rw [resolveWiring, hreceiver]
        simp only [hbanks]
      rw [Steps.run_bind_of_error (Steps.run_onTable hbanks), houtcome]
      exact ⟨wired, rfl⟩
    · have houtcome :=
        resolveWiring_eq_ok_iff.2 ⟨paged, receiver, wired, banks, hreceiver, hbanks, rfl⟩
      rw [Steps.run_bind_of_ok (Steps.run_onTable hbanks), houtcome]
      exact ⟨wired, rfl⟩

/-- **No step of a resolution writes to the store.** -/
theorem run_resolution (workspace : Workspace) :
    ∃ table, tree.resolution.run workspace =
      (tree.resolveTopology.outcome, { workspace with table }) := by
  have hfind := Steps.run_ofExcept workspace <|
    (tree.find? cpusPath).elim (.error (.missingNode cpusPath)) Except.ok
  rw [resolution]
  cases hcpus : tree.find? cpusPath with
  | none =>
    have houtcome : tree.resolveTopology.outcome = .error (.missingNode cpusPath) := by
      rw [resolveTopology, hcpus]
      rfl
    rw [hcpus] at hfind
    rw [Steps.run_bind_of_error hfind, houtcome]
    exact ⟨workspace.table, rfl⟩
  | some cpus =>
    rw [hcpus] at hfind
    rw [Steps.run_bind_of_ok hfind, outcome_resolveTopology hcpus]
    have hfill := Steps.run_ofExcept workspace (tree.resolveHarts cpus).outcome
    cases hharts : (tree.resolveHarts cpus).outcome with
    | error error =>
      rw [hharts] at hfill
      rw [Steps.run_bind_of_error hfill]
      exact ⟨workspace.table, rfl⟩
    | ok discovered =>
      rw [hharts] at hfill
      rw [Steps.run_bind_of_ok hfill, Steps.run_bind_of_ok (Steps.run_setTable _ _)]
      exact tree.run_wiring { workspace with table := discovered }

/-- Publication ends as the resolution does, and the store has got all records or none. -/
theorem run_publication (workspace : Workspace) :
    ∃ table, tree.publication.run workspace = (tree.resolveTopology.outcome,
      { table
        store := match tree.resolveTopology.outcome with
          | .error _ => workspace.store
          | .ok topology => workspace.store.publish topology.toRecords }) := by
  obtain ⟨table, hrun⟩ := tree.run_resolution workspace
  refine ⟨table, ?_⟩
  rw [publication]
  cases houtcome : tree.resolveTopology.outcome with
  | error error =>
    rw [houtcome] at hrun
    exact Steps.run_bind_of_error hrun
  | ok topology =>
    rw [houtcome] at hrun
    rw [Steps.run_bind_of_ok hrun]
    rfl

end DeviceTree

/-! ## What is published -/

/-- A store has got the records of a topology, each at the end of its kind, and nothing else. -/
structure Store.Adds (store : Store) (topology : Topology) (after : Store) : Prop where
  receiver : after.fetch .imsic = store.fetch .imsic ++ topology.receiver.toList.map .receiver
  banks : ∀ family : BankFamily, after.fetch family.kind =
    store.fetch family.kind ++ (topology.banks.filter (·.family = family)).map .bank
  harts : after.fetch .hart = store.fetch .hart ++ topology.harts.map .hart
  others : ∀ kind ∉ [RecordKind.imsic, .plic, .aplic, .hart], after.fetch kind = store.fetch kind

theorem BankFamily.kind_inj {a b : BankFamily} : a.kind = b.kind ↔ a = b := by
  cases a <;> cases b <;> decide

/-- Of records that are all of one kind, all or none are of a given kind. -/
theorem Record.filter_map_kind {α : Type} {f : α → Record} {own : RecordKind}
    (hf : ∀ a, (f a).kind = own) (list : List α) (kind : RecordKind) :
    (list.map f).filter (·.kind = kind) = if own = kind then list.map f else [] := by
  rw [List.filter_map, show (fun record : Record => decide (record.kind = kind)) ∘ f =
    fun _ => decide (own = kind) from funext fun a => by rw [Function.comp_apply, hf]]
  split
  next h => rw [decide_eq_true h, List.filter_true]
  next h => rw [decide_eq_false h, List.filter_false, List.map_nil]

theorem Topology.filter_toRecords (topology : Topology) (kind : RecordKind) :
    topology.toRecords.filter (·.kind = kind) =
      (if .imsic = kind then topology.receiver.toList.map .receiver else []) ++
        (topology.banks.filter (·.family.kind = kind)).map .bank ++
        (if .hart = kind then topology.harts.map .hart else []) := by
  rw [toRecords, List.filter_append, List.filter_append,
    Record.filter_map_kind (f := .receiver) fun _ => rfl,
    Record.filter_map_kind (f := .hart) fun _ => rfl, List.filter_map]
  rfl

theorem BankRecord.filter_kind_eq_nil {kind : RecordKind}
    (h : ∀ family : BankFamily, family.kind ≠ kind) (banks : List BankRecord) :
    banks.filter (·.family.kind = kind) = [] :=
  List.filter_eq_nil_iff.2 fun bank _ hkind => h bank.family (of_decide_eq_true hkind)

theorem Store.adds_publish {store : Store} (h : store.Sorted) (topology : Topology) :
    store.Adds topology (store.publish topology.toRecords) where
  receiver := by
    have hbanks : topology.banks.filter (·.family.kind = .imsic) = [] :=
      BankRecord.filter_kind_eq_nil (fun family => by cases family <;> decide) _
    rw [fetch_publish h, Topology.filter_toRecords, hbanks, if_pos rfl, if_neg (by decide)]
    simp only [List.map_nil, List.append_nil]
  banks family := by
    have hparts : .imsic ≠ family.kind ∧ .hart ≠ family.kind := by cases family <;> decide
    rw [fetch_publish h, Topology.filter_toRecords, if_neg hparts.1, if_neg hparts.2]
    simp only [BankFamily.kind_inj, List.nil_append, List.append_nil]
  harts := by
    have hbanks : topology.banks.filter (·.family.kind = .hart) = [] :=
      BankRecord.filter_kind_eq_nil (fun family => by cases family <;> decide) _
    rw [fetch_publish h, Topology.filter_toRecords, hbanks, if_neg (by decide), if_pos rfl]
    simp only [List.map_nil, List.nil_append]
  others kind hkind := by
    simp only [List.mem_cons, List.not_mem_nil, not_or, not_false_eq_true] at hkind
    obtain ⟨himsic, hplic, haplic, hhart, -⟩ := hkind
    have hbanks : topology.banks.filter (·.family.kind = kind) = [] := by
      refine BankRecord.filter_kind_eq_nil (fun family => ?_) _
      cases family with
      | plic => exact Ne.symm hplic
      | aplic => exact Ne.symm haplic
    rw [fetch_publish h, Topology.filter_toRecords, hbanks, if_neg (Ne.symm himsic),
      if_neg (Ne.symm hhart)]
    simp only [List.map_nil, List.append_nil]

namespace DeviceTree

/-- The records of a topology are in order, and no write to them is outstanding. -/
structure Settled (tree : DeviceTree) (topology : Topology) : Prop where
  /-- The banks are in the order of their nodes. -/
  banks : topology.banks.map (fun bank => (bank.family, bank.id)) =
    (tree.bankNodes tree.nodeList).zipIdx.map fun p => (p.1.2, UInt32.ofNat p.2)
  uids : topology.harts.map (·.processorUid) =
    (List.range topology.harts.length).map UInt32.ofNat
  /-- The harts have got every page and every context. -/
  harts : ∃ cpus discovered paged wired, tree.find? cpusPath = some cpus ∧
    (tree.resolveHarts cpus).outcome = .ok discovered ∧
    tree.planReceiver.entries.foldlM PageWrite.apply discovered = .ok paged ∧
    tree.planBanks.entries.foldlM ContextWrite.apply paged = .ok wired ∧
    topology.harts = wired.records

variable {tree : DeviceTree}

theorem settled_of_resolveTopology {topology : Topology}
    (h : tree.resolveTopology.outcome = .ok topology) : tree.Settled topology := by
  obtain ⟨warnings, h⟩ := Journal.outcome_eq_ok_iff.1 h
  obtain ⟨cpus, discovered, hcpus, hharts, hwiring⟩ := resolveTopology_eq_ok h
  have huids := (processorUid_of_resolveWiring hwiring).trans (processorUid_of_resolveHarts hharts)
  have hlength : topology.harts.length = (tree.cpuNodes cpus).length := by
    simpa using congrArg List.length huids
  obtain ⟨paged, receiver, wired, banks, hreceiver, hresolved, rfl⟩ :=
    resolveWiring_eq_ok_iff.1 hwiring
  obtain ⟨entries, placed, hplaced, -, rfl⟩ := resolveBanks_eq_ok hresolved
  refine ⟨?_, ?_, cpus, discovered, paged, wired, hcpus, ?_, ?_, ?_, rfl⟩
  · have hinOrder := congrArg (List.map Prod.snd) (banksAmong_inOrder hplaced)
    rw [List.map_map, List.map_map] at hinOrder
    rw [List.map_map]
    exact hinOrder
  · rw [hlength]
    exact huids
  · rw [hharts]
  · exact (Journal.carryOut_eq_ok_iff.1 hreceiver).2
  · exact (Journal.carryOut_eq_ok_iff.1 hresolved).2

/-- **A topology is published as a whole or not at all.**  A store is in order to begin with if it
was made by publishing and removing records. -/
theorem publication_all_or_nothing {store : Store} (h : store.Sorted) (tree : DeviceTree)
    (table : HartTable) :
    match tree.publication.run ⟨table, store⟩ with
    | (.error error, after) =>
      (store.publishTopology tree).outcome = .error error ∧ after.store = store
    | (.ok topology, after) =>
      (store.publishTopology tree).outcome = .ok (topology, after.store) ∧
        store.Adds topology after.store ∧ tree.Settled topology := by
  obtain ⟨table', hrun⟩ := tree.run_publication ⟨table, store⟩
  rw [hrun, Store.publishTopology, Journal.outcome_bind]
  cases houtcome : tree.resolveTopology.outcome with
  | error error => exact ⟨rfl, rfl⟩
  | ok topology =>
    exact ⟨rfl, Store.adds_publish h topology, settled_of_resolveTopology houtcome⟩

/-! ## A board with a receiver -/

/-- The edits of the board whose harts share a pair, with a receiver beside the PLIC. -/
def receiverBoardEdits : List Edit :=
  sharedPairEdits ++
    [.addNode NodeId.root "imsics",
      .setProperty 9 "compatible" (PropertyValue.ofStrings ["riscv,imsics"]),
      .setProperty 9 "riscv,num-ids" (PropertyValue.ofCells [255]),
      .setProperty 9 "reg" (PropertyValue.ofCells [0, 0x28000000, 0x3000]),
      .setProperty 9 "interrupts-extended" (PropertyValue.ofCells [1, 9, 2, 9, 3, 9])]

/-- The harts of this board after the last write. -/
def receiverBoardHarts : List HartRecord :=
  [{ HartRecord.fresh 0 0 with externalId := 1, imsicBase := 0x28000000, imsicSize := 4096 },
    { HartRecord.fresh 1 1 with externalId := 1, imsicBase := 0x28001000, imsicSize := 4096 },
    { HartRecord.fresh 2 2 with externalId := 3, imsicBase := 0x28002000, imsicSize := 4096 }]

/-- A store that has been written to before. -/
def usedStore : Store :=
  (Store.empty.publish [.timer ⟨1000000, false⟩, .bank (BankRecord.fresh .plic 7),
    .bank (BankRecord.fresh .aplic 8), .hart (HartRecord.fresh 9 9)]).remove .aplic

/-- With a second PLIC that says nothing about its sources, the board fails after all writes to
its table. -/
theorem publication_receiverBoardEdits :
    usedStore.Sorted ∧
    (∃ tree topology after, ofEdits? receiverBoardEdits = some tree ∧
      tree.publication.run ⟨HartTable.empty, usedStore⟩ = (.ok topology, after) ∧
      topology.harts = receiverBoardHarts ∧ topology.receiver.isSome ∧
      usedStore.Adds topology after.store ∧ tree.Settled topology) ∧
    (∃ tree error after,
      ofEdits? (receiverBoardEdits ++ [.addNode NodeId.root "plic@1",
        .setProperty 10 "compatible" (PropertyValue.ofStrings ["riscv,plic0"])]) = some tree ∧
      tree.publication.run ⟨HartTable.empty, usedStore⟩ = (.error error, after) ∧
      after.table.records = receiverBoardHarts ∧ after.store = usedStore) := by
  have hsorted : usedStore.Sorted :=
    Store.sorted_remove (Store.sorted_publish Store.sorted_empty _) _
  refine ⟨hsorted, ?_, ?_⟩
  · have hruns : (ofEdits? receiverBoardEdits).any fun tree =>
        match (tree.publication.run ⟨HartTable.empty, usedStore⟩).1 with
        | .ok topology => decide (topology.harts = receiverBoardHarts) && topology.receiver.isSome
        | .error _ => false := by
      decide +kernel
    obtain ⟨tree, htree, hruns⟩ := (Option.any_eq_true _ _).1 hruns
    have hall := publication_all_or_nothing hsorted tree HartTable.empty
    rcases hrun : tree.publication.run ⟨HartTable.empty, usedStore⟩ with ⟨error | topology, after⟩
    · rw [hrun] at hruns
      cases hruns
    · rw [hrun] at hruns hall
      obtain ⟨hharts, hreceiver⟩ := Bool.and_eq_true_iff.1 hruns
      exact ⟨tree, topology, after, htree, hrun, of_decide_eq_true hharts, hreceiver, hall.2⟩
  · have hruns : (ofEdits? (receiverBoardEdits ++ [.addNode NodeId.root "plic@1",
        .setProperty 10 "compatible" (PropertyValue.ofStrings ["riscv,plic0"])])).any fun tree =>
        !(tree.publication.run ⟨HartTable.empty, usedStore⟩).1.isOk &&
          decide ((tree.publication.run ⟨HartTable.empty, usedStore⟩).2.table.records =
            receiverBoardHarts) := by
      decide +kernel
    obtain ⟨tree, htree, hruns⟩ := (Option.any_eq_true _ _).1 hruns
    have hall := publication_all_or_nothing hsorted tree HartTable.empty
    rcases hrun : tree.publication.run ⟨HartTable.empty, usedStore⟩ with ⟨error | topology, after⟩
    · rw [hrun] at hruns hall
      exact ⟨tree, error, after, htree, hrun,
        of_decide_eq_true (Bool.and_eq_true_iff.1 hruns).2, hall.2⟩
    · rw [hrun] at hruns
      cases hruns

end DeviceTree
end RiscvTables
