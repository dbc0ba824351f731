import RiscvTables.Topology.Banks
import RiscvTables.Topology.Harts
import RiscvTables.Topology.Receiver

/-!
# Interrupt topology

Everything that a device tree says about harts and interrupts: the harts below `/cpus`, the
message receiver, the controller banks and the global interrupt numbers.  The receiver comes
before the banks, so if both are faulty its error is the one that is told.

`Store.publishTopology` puts the resolved records into a store.  It does so only after everything
has been resolved, so a failure leaves the store as it was.
-/

set_option autoImplicit false

namespace RiscvTables

/-- Everything resolved from one tree. -/
structure Topology where
  harts : List HartRecord
  receiver : Option ReceiverRecord
  banks : List BankRecord
  gsi : GsiMap
deriving DecidableEq, Repr

/-- The resolved records as one batch. -/
def Topology.toRecords (topology : Topology) : List Record :=
  topology.receiver.toList.map .receiver ++ topology.banks.map .bank ++
    topology.harts.map .hart

namespace DeviceTree

variable (tree : DeviceTree)

/-- The path of the node that holds the cpus. -/
def cpusPath : String := "/cpus"

/-- Wires a table of harts: first the receiver, then the banks. -/
def resolveWiring (table : HartTable) : Except TopologyError Topology :=
  match tree.resolveReceiver table with
  | (_, .error error) => .error error
  | (table, .ok receiver) =>
    match tree.resolveBanks table with
    | (_, .error error) => .error error
    | (table, .ok banks) => .ok
        { harts := table.records
          receiver := receiver.map (·.record)
          banks := banks.banks
          gsi := banks.gsi }

/-- Everything the tree says about harts and interrupts. -/
def resolveTopology : Journal Warning Topology := do
  let some cpus := tree.find? cpusPath
    | Journal.ofExcept (.error (.missingNode cpusPath))
  let table ← tree.resolveHarts cpus
  tree.resolveWiring table

end DeviceTree

/-- The topology of a tree, and the store with its records. -/
def Store.publishTopology (store : Store) (tree : DeviceTree) :
    Journal Warning (Topology × Store) := do
  let topology ← tree.resolveTopology
  return (topology, store.publish topology.toRecords)

end RiscvTables
