import RiscvTables.Platform.Config
import RiscvTables.Rhct.Generator
import RiscvTables.Topology
import RiscvTables.Topology.Capabilities

/-!
# From a tree to a table

The whole way: the topology and the capabilities of a device tree become records, the platform's
overrides are laid over the capabilities, and the table is built from all of them.  Each step has
its own errors, and an error says in which step it arose.
-/

set_option autoImplicit false

namespace RiscvTables

/-- Why no table could be built, by the step that failed. -/
inductive BuildError where
  | topology (cause : TopologyError)
  | capabilities (cause : TopologyError)
  | platform (cause : PlatformError)
  | table (cause : RhctError)
deriving DecidableEq, Repr

namespace BuildError

/-- The wording of the error: what was being done, and what went wrong. -/
def message : BuildError → String
  | .topology cause => s!"resolving interrupt topology: {cause.message}"
  | .capabilities cause => s!"reading cpu capabilities: {cause.message}"
  | .platform cause => cause.message
  | .table cause => s!"generating RHCT: {cause.message}"

/-- What sort of failure the error is. -/
def kind : BuildError → ErrorKind
  | .topology cause => cause.kind
  | .capabilities cause => cause.kind
  | .platform cause => cause.kind
  | .table cause => cause.kind

end BuildError

/-- The records that the table of a tree is built from.

The capabilities are read below `/cpus`, which is looked up a second time.  By then it has been
found once, since a topology is resolved in no tree that has no `/cpus`; so the root never stands in
for it. -/
def gatherRecords (tree : DeviceTree) (platform : PlatformConfig) : Except BuildError Store := do
  let (_, store) ← (Store.empty.publishTopology tree).outcome.mapError .topology
  let cpus := (tree.find? DeviceTree.cpusPath).getD NodeId.root
  let found ← (tree.capabilities cpus).mapError .capabilities
  let overrides ← platform.records.mapError .platform
  return store.publish (overrides.mergeOver found).toRecords

/-- The table of a tree, as the given platform has it. -/
def buildTable (tree : DeviceTree) (platform : PlatformConfig) : Except BuildError Bytes := do
  let store ← gatherRecords tree platform
  let (table, _) ← (Rhct.build Rhct.stampIdentity platform.table.toInfo store).mapError .table
  return table

end RiscvTables
