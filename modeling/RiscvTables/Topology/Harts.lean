import RiscvTables.Topology.HartTable
import RiscvTables.Topology.Interrupts
import RiscvTables.Topology.Journal

/-!
# Hart discovery

Every direct child of the `/cpus` node that is called `cpu`, with or without a unit address, is a
hart.  Harts are numbered in the order of the children.

A cpu that has no interrupt controller of its own is suspicious but not wrong, so it costs a
warning in the journal.
-/

set_option autoImplicit false

namespace RiscvTables

/-- Something that is suspicious but does not stop a run. -/
inductive Warning where
  /-- No controller can send an interrupt to the cpu. -/
  | noInterruptController (cpu : String)
deriving DecidableEq, Repr

/-- The wording of a warning. -/
def Warning.message : Warning → String
  | .noInterruptController _ => "cpu node has no interrupt-controller child"

namespace DeviceTree

variable (tree : DeviceTree)

/-- The cpu nodes below a node: the children whose name, up to a unit address, is `cpu`. -/
def cpuNodes (cpus : NodeId) : List NodeId :=
  (tree.children cpus).filter fun child =>
    (tree.node? child).any fun node => node.unitName = "cpu"

/-- Whether a cpu has an interrupt controller of its own. -/
def hasInterruptController (cpu : NodeId) : Bool :=
  (tree.children cpu).any fun child =>
    (tree.property? child "interrupt-controller").isSome ||
      tree.isCompatible child "riscv,cpu-intc"

/-- Adds the harts of the given cpus to a table, the first of them with processor uid `uid`.

A uid has 32 bits.  Running out of them is no case here: each cpu is a node of the tree, so the
uids do not reach 2³² as long as the nodes of the tree do not. -/
def collectHarts : Nat → HartTable → List NodeId → Journal Warning HartTable
  | _, table, [] => pure table
  | uid, table, cpu :: rest => do
    if !tree.isCompatible cpu "riscv" then
      Journal.ofExcept (.error (.unsupportedCpu (tree.path cpu)))
    let id ← tree.hartId cpu
    if !tree.hasInterruptController cpu then
      Journal.emit (.noInterruptController (tree.path cpu))
    let table ← table.push (HartRecord.fresh id (UInt32.ofNat uid))
    collectHarts (uid + 1) table rest

/-- The harts below a node.  There must be at least one. -/
def resolveHarts (cpus : NodeId) : Journal Warning HartTable :=
  match tree.cpuNodes cpus with
  | [] => Journal.ofExcept (.error (.noCpus (tree.path cpus)))
  | cpuList => tree.collectHarts 0 HartTable.empty cpuList

end DeviceTree
end RiscvTables
