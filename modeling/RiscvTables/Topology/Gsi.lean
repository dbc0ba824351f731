import RiscvTables.DeviceTree.Basic

/-!
# Global interrupt numbers

Each controller bank numbers its sources from 0; the system numbers all sources of all banks.
The map holds, for each bank's node, the global number of the bank's source 0.
-/

set_option autoImplicit false

namespace RiscvTables

/-- The first global number of each bank, in the order of registration. -/
structure GsiMap where
  entries : List (NodeId × UInt32)
deriving DecidableEq, Repr

namespace GsiMap

/-- The map without banks. -/
def empty : GsiMap := ⟨[]⟩

/-- Sets the number of a node in a list of entries: in place if the node is there, at the end
otherwise. -/
def put (node : NodeId) (base : UInt32) : List (NodeId × UInt32) → List (NodeId × UInt32)
  | [] => [(node, base)]
  | entry :: rest =>
    if entry.1 = node then (node, base) :: rest else entry :: put node base rest

variable (map : GsiMap)

/-- Sets the first global number of a bank. -/
def register (node : NodeId) (base : UInt32) : GsiMap :=
  ⟨put node base map.entries⟩

/-- The first global number of a bank. -/
def base? (node : NodeId) : Option UInt32 :=
  map.entries.lookup node

/-- The sum of two 32-bit numbers, or the largest one if the sum is larger. -/
def saturatingAdd (a b : UInt32) : UInt32 :=
  UInt32.ofNat (min (a.toNat + b.toNat) (UInt32.size - 1))

/-- The global number of a source of a bank.  A source of anything else keeps its number. -/
def translate (node : NodeId) (source : UInt32) : UInt32 :=
  match map.base? node with
  | some base => saturatingAdd base source
  | none => source

end GsiMap
end RiscvTables
