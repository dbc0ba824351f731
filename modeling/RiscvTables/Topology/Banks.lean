import RiscvTables.Topology.Gsi
import RiscvTables.Topology.HartTable
import RiscvTables.Topology.Interrupts
import RiscvTables.Topology.Journal

/-!
# Controller banks

Every PLIC, and every APLIC that delivers to supervisor mode, is a bank.  Banks are numbered in
pre-order, and the global numbers of a bank's sources follow those of the bank before it.

A bank tells each hart it serves which of its contexts that is: the external id has the bank in
its top byte and the context below.  The contexts of a PLIC come in pairs, one for machine and one
for supervisor mode, and only the supervisor's is wired; every wire of an APLIC is a context.
-/

set_option autoImplicit false

namespace RiscvTables

/-- The external id of a context of a bank: the bank in the top byte, the context in the other
three. -/
def externalId (bank context : Nat) : Except TopologyError UInt32 :=
  if 0xff < bank ∨ 0xffffff < context then .error (.externalIdOverflow bank context)
  else .ok (UInt32.ofNat (bank * 0x1000000 + context))

/-- An external id given by a family's bank to the hart that a phandle leads to. -/
structure ContextWrite where
  phandle : UInt32
  hartId : UInt64
  family : BankFamily
  externalId : UInt32
deriving DecidableEq, Repr

/-- Carries out the wiring of a context. -/
def ContextWrite.apply (table : HartTable) (write : ContextWrite) :
    Except TopologyError HartTable :=
  table.setExternalId write.hartId write.family write.externalId

/-- The banks, and the global numbers of their sources. -/
structure BankResolution where
  banks : List BankRecord
  gsi : GsiMap
deriving DecidableEq, Repr

namespace DeviceTree

variable (tree : DeviceTree)

/-- The family of the bank at a node, if there is a bank.  An APLIC delivers to supervisor mode
through its own wires, or by messages to an IMSIC that does. -/
def bankFamily? (node : NodeId) : Option BankFamily :=
  if tree.isCompatible node "riscv,plic0" then some .plic
  else if !tree.isCompatible node "riscv,aplic" then none
  else if tree.firstLevel? node = some supervisorExternal then some .aplic
  else do
    let value ← tree.property? node "msi-parent"
    let imsic ← tree.phandleOwner? (← PropertyValue.cellAt? value 0)
    if tree.firstLevel? imsic = some supervisorExternal then some .aplic else none

/-! ## Wiring -/

/-- Gives each context to the hart of its wire. -/
def wireContexts (node : NodeId) (family : BankFamily) (bank : Nat) :
    List (Wire × Nat) → Journal ContextWrite Unit
  | [] => pure ()
  | (wire, context) :: rest => do
    let hartId ← tree.hartOfController node wire.phandle
    let externalId ← externalId bank context
    Journal.emit { phandle := wire.phandle, hartId, family, externalId }
    wireContexts node family bank rest

/-- The contexts of a PLIC that are wired: of each pair the second, where it has a supervisor's
wire.  A supervisor's wire at the first place of a pair counts as that pair's second. -/
def plicContexts (wires : List Wire) : List (Wire × Nat) :=
  (wires.zipIdx.filter fun p => p.1.level = supervisorExternal).map fun p =>
    (p.1, 2 * (p.2 / 2) + 1)

/-- Wires the harts of a PLIC, which must have wires. -/
def wirePlic (node : NodeId) (bank : Nat) : Journal ContextWrite Unit := do
  match ← tree.wires? node with
  | none => Journal.ofExcept (.error (tree.missing node "interrupts-extended"))
  | some [] => Journal.ofExcept (.error (tree.malformed node "interrupts-extended"))
  | some wires => tree.wireContexts node .plic bank (plicContexts wires)

/-- Wires the harts of an APLIC, and counts its contexts. -/
def wireAplic (node : NodeId) (bank : Nat) : Journal ContextWrite Nat := do
  match ← tree.wires? node with
  | none => return 0
  | some wires =>
    tree.wireContexts node .aplic bank wires.zipIdx
    return wires.length

/-! ## Banks -/

/-- How many sources the bank at a node has. -/
def bankSources (node : NodeId) : Except TopologyError UInt32 := do
  match ← tree.optionalCell node "riscv,num-sources" with
  | some sources => return sources
  | none =>
    match ← tree.optionalCell node "riscv,ndev" with
    | some sources => return sources
    | none => throw (tree.missing node "riscv,num-sources")

/-- Where the bank at a node is: its first region, whose size must fit 32 bits. -/
def bankRegion (node : NodeId) : Except TopologyError Region :=
  match (tree.regions? node).bind List.head? with
  | none => .error (tree.malformed node "reg")
  | some region =>
    if region.size < UInt32.size then .ok region else .error (tree.malformed node "reg")

/-- The bank at a node, with number `id` and global numbers from `gsiBase` on.  The global
numbers must not run out of 32 bits.

Running out of bank numbers or of contexts is no case here.  Each bank is a node of the tree, and
each context takes eight bytes of a property, so neither reaches 2³² in a tree of fewer nodes with
properties of fewer than 2³⁵ bytes. -/
def planBank (node : NodeId) (family : BankFamily) (id gsiBase : Nat) :
    Journal ContextWrite BankRecord := do
  let sources ← tree.bankSources node
  let region ← tree.bankRegion node
  if UInt32.size ≤ gsiBase + sources.toNat then
    Journal.ofExcept (.error (tree.malformed node "riscv,num-sources"))
  let idcs ← match family with
    | .plic => do tree.wirePlic node id; pure 0
    | .aplic => tree.wireAplic node id
  return { BankRecord.fresh family (UInt32.ofNat id) with
    sources
    idcs := UInt32.ofNat idcs
    base := UInt64.ofNat region.address
    size := UInt32.ofNat region.size
    gsiBase := UInt32.ofNat gsiBase }

/-- The banks among the given nodes, the first of them with number `id` and global numbers from
`gsiBase` on. -/
def banksAmong : Nat → Nat → List NodeId → Journal ContextWrite (List (NodeId × BankRecord))
  | _, _, [] => pure []
  | id, gsiBase, node :: rest =>
    match tree.bankFamily? node with
    | none => banksAmong id gsiBase rest
    | some family => do
      let bank ← tree.planBank node family id gsiBase
      let others ← banksAmong (id + 1) (gsiBase + bank.sources.toNat) rest
      return (node, bank) :: others

/-- What the tree says about the banks. -/
def planBanks : Journal ContextWrite BankResolution := do
  let banks ← tree.banksAmong 0 0 tree.nodeList
  return {
    banks := banks.map Prod.snd
    gsi := banks.foldl (fun map p => map.register p.1 p.2.gsiBase) GsiMap.empty }

/-- Finds the banks and wires the harts they serve.  The table is that with the contexts that were
wired before a failure. -/
def resolveBanks (table : HartTable) : HartTable × Except TopologyError BankResolution :=
  tree.planBanks.carryOut ContextWrite.apply table

end DeviceTree
end RiscvTables
