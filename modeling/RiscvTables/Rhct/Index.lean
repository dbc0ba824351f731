import RiscvTables.Rhct.Error

/-!
# Where records land in a table

A node index lists, for each node of a table, the record it was made from and the offset at which
it starts.
-/

set_option autoImplicit false

namespace RiscvTables
namespace Rhct

/-- The record that a node is made from. -/
inductive NodeSource where
  | isaString
  /-- The cache-block record with the given position among its kind. -/
  | cacheBlock (position : Nat)
  /-- The hart record with the given position among its kind. -/
  | hartInfo (position : Nat) (processorUid : UInt32)
deriving DecidableEq, Repr

/-- The offset of the node made from a record. -/
structure IndexEntry where
  source : NodeSource
  offset : UInt32
deriving DecidableEq, Repr

/-- The entries of all nodes, in table order. -/
structure NodeIndex where
  entries : List IndexEntry
deriving DecidableEq, Repr

namespace NodeIndex

/-- The index of a table without nodes. -/
def empty : NodeIndex := ⟨[]⟩

variable (index : NodeIndex)

/-- The index with one more node at the end of the table. -/
def push (source : NodeSource) (offset : UInt32) : NodeIndex :=
  ⟨index.entries ++ [⟨source, offset⟩]⟩

/-- How many nodes the index lists. -/
def size : Nat := index.entries.length

/-- The offset of the first node that was made from a record. -/
def offsetOf? (source : NodeSource) : Option UInt32 :=
  (index.entries.find? fun entry => entry.source = source).map (·.offset)

end NodeIndex
end Rhct
end RiscvTables
