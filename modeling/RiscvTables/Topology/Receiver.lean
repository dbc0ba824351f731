import RiscvTables.Topology.HartTable
import RiscvTables.Topology.Interrupts
import RiscvTables.Topology.Journal

/-!
# The message receiver

An IMSIC node describes one interrupt file for each hart: pages of 4096 bytes, one after the
other through the regions of the node.  The n-th wire of the node names the hart that the n-th
page belongs to.  Only the IMSIC that delivers to supervisor mode counts; of several the first.

The pages are assigned in a journal, so that what the tree says about them does not depend on
which harts the table knows.
-/

set_option autoImplicit false

namespace RiscvTables

/-- The size of an interrupt file. -/
def interruptFileSize : Nat := 4096

/-- The least number of bits that can count up to `count` things: the base-2 logarithm of
`count`, rounded up. -/
def hartIndexBits (count : Nat) : Nat :=
  if count ≤ 1 then 0 else (count - 1).log2 + 1

/-- The first `count` page addresses of a list of regions.  What is left of a region behind its
last whole page is no page. -/
def pageAddresses : Nat → List Region → List Nat
  | _, [] => []
  | count, region :: rest =>
    let here := min count (region.size / interruptFileSize)
    (List.range here).map (fun page => region.address + page * interruptFileSize) ++
      pageAddresses (count - here) rest

/-- A page given to the hart that a phandle leads to. -/
structure PageWrite where
  phandle : UInt32
  hartId : UInt64
  base : UInt64
deriving DecidableEq, Repr

/-- Carries out the assignment of a page. -/
def PageWrite.apply (table : HartTable) (write : PageWrite) : Except TopologyError HartTable :=
  table.setInterruptFile write.hartId write.base (UInt32.ofNat interruptFileSize)

/-- The receiver, and the node that describes it. -/
structure Receiver where
  node : NodeId
  record : ReceiverRecord
deriving DecidableEq, Repr

namespace DeviceTree

variable (tree : DeviceTree)

/-- How the receiver at a node numbers its interrupt files.  The tree may leave out all but the
number of interrupt identities; the width of a hart index then follows from the wires. -/
def receiverRecord (node : NodeId) (wireCount : Nat) : Except TopologyError ReceiverRecord := do
  let some ids ← tree.optionalCell node "riscv,num-ids"
    | throw (tree.missing node "riscv,num-ids")
  let declaredBits ← tree.optionalCell node "riscv,hart-index-bits"
  let guestIds ← tree.optionalCell node "riscv,num-guest-ids"
  let guestIndexBits ← tree.optionalCell node "riscv,guest-index-bits"
  let groupIndexBits ← tree.optionalCell node "riscv,group-index-bits"
  let groupIndexShift ← tree.optionalCell node "riscv,group-index-shift"
  let hartBits := declaredBits.getD 0
  return {
    version := recordVersion
    flags := 0
    ids
    guestIds := guestIds.getD ids
    guestIndexBits := guestIndexBits.getD 0
    hartIndexBits := if hartBits = 0 then UInt32.ofNat (hartIndexBits wireCount) else hartBits
    groupIndexBits := groupIndexBits.getD 0
    groupIndexShift := groupIndexShift.getD 24 }

/-- Gives each page to the hart of the wire beside it. -/
def assignPages (node : NodeId) : List (Wire × Nat) → Journal PageWrite Unit
  | [] => pure ()
  | (wire, base) :: rest => do
    let hartId ← tree.hartOfController node wire.phandle
    Journal.emit { phandle := wire.phandle, hartId, base := UInt64.ofNat base }
    assignPages node rest

/-- The wires of an IMSIC node, of which there must be one. -/
def receiverWires (node : NodeId) : Except TopologyError (List Wire) := do
  match ← tree.wires? node with
  | none | some [] => throw (tree.malformed node "interrupts-extended")
  | some wires => return wires

/-- The receiver among the given IMSIC nodes, and the pages it assigns. -/
def receiverAmong : List NodeId → Journal PageWrite (Option Receiver)
  | [] => pure none
  | node :: rest => do
    let wires ← tree.receiverWires node
    if wires.head?.map (·.level) ≠ some supervisorExternal then
      receiverAmong rest
    else
      let record ← tree.receiverRecord node wires.length
      let some regions := tree.regions? node
        | Journal.ofExcept (.error (tree.malformed node "reg"))
      tree.assignPages node (wires.zip (pageAddresses wires.length regions))
      return some { node, record }

/-- The nodes compatible with a model, in pre-order. -/
def compatibleNodes (model : String) : List NodeId :=
  tree.nodeList.filter (tree.isCompatible · model)

/-- What the tree says about the receiver. -/
def planReceiver : Journal PageWrite (Option Receiver) :=
  tree.receiverAmong (tree.compatibleNodes "riscv,imsics")

/-- Finds the receiver and points the harts at their interrupt files.  The table is that with the
pages that were assigned before a failure. -/
def resolveReceiver (table : HartTable) :
    HartTable × Except TopologyError (Option Receiver) :=
  tree.planReceiver.carryOut PageWrite.apply table

end DeviceTree
end RiscvTables
