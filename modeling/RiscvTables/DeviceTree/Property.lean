import RiscvTables.DeviceTree.Walk
import RiscvTables.Text.Utf8

/-!
# What properties say

A property value is bytes; this file reads it as cells, as a list of strings, or as the regions
of a `reg` property, and asks the questions about nodes that rest on those readings.

`regions?` and `Region.encode` are two sides of one format: an entry is the cells of its address
followed by the cells of its size, and the cell counts come from the node's parent.
-/

set_option autoImplicit false

namespace RiscvTables
namespace PropertyValue

/-! ## Cells -/

/-- The cell with the given index. -/
def cellAt? (value : Bytes) (index : Nat) : Option UInt32 :=
  (value.slice? (4 * index) 4).map fun cell => UInt32.ofNat (BigEndian.decode cell)

/-- All cells, if the value is a whole number of them. -/
def cells? : Bytes → Option (List UInt32)
  | [] => some []
  | a :: b :: c :: d :: rest =>
    (cells? rest).map (UInt32.ofNat (BigEndian.decode [a, b, c, d]) :: ·)
  | _ => none

/-- The number in at most two cells, the most significant first. -/
def numberOfCells? : List UInt32 → Option Nat
  | [] => some 0
  | [low] => some low.toNat
  | [high, low] => some (high.toNat * UInt32.size + low.toNat)
  | _ => none

/-! ## Strings -/

/-- The entries of a list of strings, each ended by a zero byte.  Empty entries and entries that
are not UTF-8 do not count. -/
def strings (value : Bytes) : List String :=
  ((value.splitOn 0).filter (· ≠ [])).filterMap Utf8.decode?

/-- A list of strings, each followed by a zero byte. -/
def ofStrings (strings : List String) : Bytes :=
  strings.flatMap fun s => Utf8.encode s ++ [0]

end PropertyValue

/-! ## Regions -/

/-- An entry of a `reg` property. -/
structure Region where
  address : Nat
  size : Nat
deriving DecidableEq, Repr

namespace Region

/-- The cells of an address followed by the cells of a size. -/
def ofCells? (addressCells : Nat) (entry : List UInt32) : Option Region := do
  let address ← PropertyValue.numberOfCells? (entry.take addressCells)
  let size ← PropertyValue.numberOfCells? (entry.drop addressCells)
  return { address, size }

/-- A list in pieces of `n`, the first `steps` of them. -/
def chunks {α : Type} (n : Nat) : Nat → List α → List (List α)
  | 0, _ => []
  | steps + 1, xs => xs.take n :: chunks n steps (xs.drop n)

/-- The regions in a `reg` value whose entries have the given cell counts.  Nothing if a count is
above 2 or both are 0, or if the value is empty or not a whole number of entries. -/
def decode? (value : Bytes) (addressCells sizeCells : Nat) : Option (List Region) :=
  let stride := addressCells + sizeCells
  if addressCells > 2 ∨ sizeCells > 2 ∨ stride = 0 then none
  else do
    let cells ← PropertyValue.cells? value
    if cells = [] ∨ cells.length % stride ≠ 0 then none
    else (chunks stride (cells.length / stride) cells).mapM (ofCells? addressCells)

/-- A region as the big-endian cells of its address and of its size. -/
def encode (addressCells sizeCells : Nat) (region : Region) : Bytes :=
  BigEndian.encode (4 * addressCells) region.address ++ BigEndian.encode (4 * sizeCells) region.size

end Region

namespace DeviceTree

variable (tree : DeviceTree)

/-! ## Questions about nodes -/

/-- How many cells an address takes in the `reg` of the node's children: 2 unless declared. -/
def addressCells (id : NodeId) : Nat :=
  (((tree.property? id "#address-cells").bind (PropertyValue.cellAt? · 0)).getD 2).toNat

/-- How many cells a size takes in the `reg` of the node's children: 1 unless declared. -/
def sizeCells (id : NodeId) : Nat :=
  (((tree.property? id "#size-cells").bind (PropertyValue.cellAt? · 0)).getD 1).toNat

/-- The regions of a node, read with the cell counts of its parent. -/
def regions? (id : NodeId) : Option (List Region) := do
  let parent ← tree.parent? id
  let value ← tree.property? id "reg"
  Region.decode? value (tree.addressCells parent) (tree.sizeCells parent)

/-- Whether a node is compatible with the given model. -/
def isCompatible (id : NodeId) (model : String) : Bool :=
  (tree.property? id "compatible").any fun value => (PropertyValue.strings value).contains model

/-- The first child compatible with a model. -/
def compatibleChild? (parent : NodeId) (model : String) : Option NodeId :=
  (tree.children parent).find? (tree.isCompatible · model)

/-- The first of the next `steps` nodes after `prev` that is compatible with a model. -/
def searchCompatible? (model : String) : Nat → Option NodeId → Option NodeId
  | 0, _ => none
  | steps + 1, prev =>
    (tree.nextNode? prev).bind fun id =>
      if tree.isCompatible id model then some id else searchCompatible? model steps (some id)

/-- The first node after `prev`, in pre-order, that is compatible with a model. -/
def nextCompatible? (prev : Option NodeId) (model : String) : Option NodeId :=
  tree.searchCompatible? model tree.size prev

end DeviceTree
end RiscvTables
