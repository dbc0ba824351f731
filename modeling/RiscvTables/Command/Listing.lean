import RiscvTables.Rhct.View
import RiscvTables.Topology

/-!
# Listings

What the commands print for a reader: a topology and a table, in lines.
-/

set_option autoImplicit false

namespace RiscvTables
namespace Listing

open Numeral

/-! ## Topologies -/

/-- The line of a hart.  An interrupt file is shown if there is one. -/
def hartLine (hart : HartRecord) : String :=
  let uid := padRight 4 (toString hart.processorUid.toNat)
  let id := padRight 6 (hex hart.hartId.toNat)
  let file :=
    if hart.imsicSize = 0 then ""
    else s!"  imsic {hex hart.imsicBase.toNat}+{hex hart.imsicSize.toNat}"
  s!"  uid {uid} hart {id} ext-intc {hexPadded 8 hart.externalId.toNat}{file}\n"

/-- The lines of a receiver. -/
def receiverLines (receiver : ReceiverRecord) : String :=
  let ids := s!"ids {receiver.ids.toNat} guest-ids {receiver.guestIds.toNat}"
  let groupBits := s!"group-index-bits {receiver.groupIndexBits.toNat}"
  let groupShift := s!"group-index-shift {receiver.groupIndexShift.toNat}"
  "\n=== IMSIC ===\n" ++
    s!"  {ids} hart-index-bits {receiver.hartIndexBits.toNat} {groupBits} {groupShift}\n"

/-- The line of a bank. -/
def bankLine (bank : BankRecord) : String :=
  let head := s!"{bank.family.label} id {bank.id.toNat} {bank.hardwareIdText}"
  let last := (GsiMap.saturatingAdd bank.gsiBase bank.sources).toNat
  let place := s!"{hex bank.base.toNat}+{hex bank.size.toNat}"
  s!"  {head} sources {bank.sources.toNat} gsi {bank.gsiBase.toNat}..{last} at {place}\n"

/-- The lines of a list under a heading, if the list has any. -/
def titled {α : Type} (title : String) (line : α → String) (items : List α) : String :=
  if items.isEmpty then "" else s!"\n=== {title} ===\n" ++ String.join (items.map line)

/-- A topology.  The tree gives the paths of the nodes. -/
def topology (tree : DeviceTree) (resolved : Topology) : String :=
  s!"=== Harts ({resolved.harts.length}) ===\n" ++
    String.join (resolved.harts.map hartLine) ++
    resolved.receiver.elim "" receiverLines ++
    titled s!"Interrupt controller banks ({resolved.banks.length})" bankLine resolved.banks ++
    titled "GSI bases"
      (fun entry => s!"  {padRight 32 (tree.path entry.1)} {entry.2.toNat}\n")
      resolved.gsi.entries

/-! ## Tables -/

/-- What a node says, in a line. -/
def nodeText : Rhct.NodeBody → String
  | .isaString isa => s!"ISA string  \"{isa}\""
  | .cacheBlocks cbom cbop cboz =>
    s!"CMO         cbom 2^{cbom.toNat} cbop 2^{cbop.toNat} cboz 2^{cboz.toNat}"
  | .hartInfo processorUid offsets =>
    let references := String.intercalate ", " (offsets.map fun offset => hex offset.toNat)
    s!"Hart info   uid {processorUid.toNat} -> [{references}]"
  | .unknown type length => s!"type {hexPadded 4 type.toNat}  {length.toNat} bytes"

/-- The line of a node. -/
def nodeLine (node : Rhct.Node) : String :=
  s!"  {hexPadded 4 node.offset.toNat} r{node.revision.toNat} {nodeText node.body}\n"

/-- A table. -/
def table (view : Rhct.View) : String :=
  let header := view.header
  let size := s!"revision {header.revision.toNat}, {header.length.toNat} bytes"
  let note := if view.timerCannotWakeCpu then " (timer cannot wake cpu)" else ""
  String.join [
    s!"=== {header.signature} ({size}) ===\n",
    s!"  OEM:      '{header.oemId}' '{header.oemTableId}' rev {header.oemRevision.toNat}\n",
    s!"  Creator:  '{header.creatorId}' rev {header.creatorRevision.toNat}\n",
    s!"  Timebase: {view.timebaseFrequency.toNat} Hz\n",
    s!"  Flags:    {hex view.flags.toNat}{note}\n",
    s!"\n--- Nodes ({view.nodes.length}) ---\n"] ++
    String.join (view.nodes.map nodeLine)

end Listing
end RiscvTables
