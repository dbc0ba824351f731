import RiscvTables.Record.Document
import RiscvTables.Topology

/-!
# Topologies as documents
-/

set_option autoImplicit false

namespace RiscvTables

/-- The nodes of the map and their first global numbers, as pairs. -/
def GsiMap.toDocument (map : GsiMap) : Document :=
  .record [("entries", .list (map.entries.map fun entry =>
    .list [.natural entry.1, .natural entry.2.toNat]))]

/-- A topology, with `null` for a receiver that is not there. -/
def Topology.toDocument (topology : Topology) : Document :=
  .record [
    ("harts", .list (topology.harts.map fun hart => .record hart.toFields)),
    ("imsic", topology.receiver.elim .null fun receiver => .record receiver.toFields),
    ("banks", .list (topology.banks.map fun bank => .record bank.toFields)),
    ("gsi", topology.gsi.toDocument)]

end RiscvTables
