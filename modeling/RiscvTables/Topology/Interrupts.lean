import RiscvTables.DeviceTree.Property
import RiscvTables.Topology.Error

/-!
# Interrupt wiring in the tree

An interrupt controller lists in `interrupts-extended` where its outputs go: pairs of a phandle,
which names the controller inside a hart, and a level on it.  The hart behind such a phandle is
the parent of the node that owns it.

This file reads those lists and follows those phandles, for every resolver alike.
-/

set_option autoImplicit false

namespace RiscvTables

/-- The level of external interrupts to supervisor mode. -/
def supervisorExternal : UInt32 := 9

/-- One output of an interrupt controller. -/
structure Wire where
  phandle : UInt32
  level : UInt32
deriving DecidableEq, Repr

namespace Wire

/-- A list of cells as wires; nothing if a cell is left over. -/
def ofCells? : List UInt32 → Option (List Wire)
  | [] => some []
  | [_] => none
  | phandle :: level :: rest => (ofCells? rest).map (⟨phandle, level⟩ :: ·)

end Wire

namespace DeviceTree

variable (tree : DeviceTree)

/-! ## Properties that must make sense -/

/-- The error for a property whose value cannot be used. -/
def malformed (node : NodeId) (property : String) : TopologyError :=
  .malformedProperty (tree.path node) property

/-- The error for a property that is not there. -/
def missing (node : NodeId) (property : String) : TopologyError :=
  .missingProperty (tree.path node) property

/-- The first cell of a property, if the node has the property. -/
def optionalCell (node : NodeId) (property : String) : Except TopologyError (Option UInt32) :=
  match tree.property? node property with
  | none => .ok none
  | some value =>
    match PropertyValue.cellAt? value 0 with
    | none => .error (tree.malformed node property)
    | some cell => .ok (some cell)

/-! ## Wires -/

/-- The wires of a node; none at all if it does not list any. -/
def wires? (node : NodeId) : Except TopologyError (Option (List Wire)) :=
  match tree.property? node "interrupts-extended" with
  | none => .ok none
  | some value =>
    match (PropertyValue.cells? value).bind Wire.ofCells? with
    | none => .error (tree.malformed node "interrupts-extended")
    | some wires => .ok (some wires)

/-- The level of a node's first wire, if the list reaches that far. -/
def firstLevel? (node : NodeId) : Option UInt32 :=
  (tree.property? node "interrupts-extended").bind (PropertyValue.cellAt? · 1)

/-! ## Harts -/

/-- The hart id of a cpu: the leading cells of its `reg`, as many as an address has. -/
def hartId (cpu : NodeId) : Except TopologyError UInt64 :=
  match tree.parent? cpu with
  | none => .error (.orphanController (tree.path cpu))
  | some cpus =>
    let width := tree.addressCells cpus
    if width < 1 ∨ 2 < width then .error (.badAddressCells (tree.path cpus) width)
    else
      match (tree.property? cpu "reg").bind PropertyValue.cells? with
      | none => .error (.badHartReg (tree.path cpu) width)
      | some cells =>
        if cells.length < width then .error (.badHartReg (tree.path cpu) width)
        else
          match PropertyValue.numberOfCells? (cells.take width) with
          | none => .error (.badHartReg (tree.path cpu) width)
          | some id => .ok (UInt64.ofNat id)

/-- The hart behind a phandle: the owner of the phandle is a hart's own interrupt controller, and
stands below the hart's cpu node. -/
def hartOfController (referrer : NodeId) (phandle : UInt32) : Except TopologyError UInt64 :=
  match tree.phandleOwner? phandle with
  | none => .error (.danglingPhandle (tree.path referrer) phandle)
  | some controller =>
    match tree.parent? controller with
    | none => .error (.orphanController (tree.path controller))
    | some cpu =>
      if cpu = NodeId.root then .error (.orphanController (tree.path controller))
      else tree.hartId cpu

end DeviceTree
end RiscvTables
