import RiscvTables.Bytes.Endian
import RiscvTables.Text.Numeral

/-!
# Device trees

A device tree is an arena of nodes.  A node is known by its position in the arena; the root is
node 0, and a new node always goes to the end, so a child has a larger number than its parent.
Children and properties keep the order in which they were added, which is also the order in
which a blob lists them.

## What is here

* `Node` and `DeviceTree`, and the lookups on them;
* the three edits: `DeviceTree.addNode`, `DeviceTree.setProperty` and `DeviceTree.setBootCpu`.

An edit that is refused returns an `EditError` and no tree, so there is nothing it could have
changed.  A phandle names at most one node: `setProperty` keeps an index from phandles to their
owners and refuses a phandle that another node owns.
-/

set_option autoImplicit false

namespace RiscvTables

/-- The position of a node in its tree. -/
abbrev NodeId := Nat

/-- The root of every tree. -/
def NodeId.root : NodeId := 0

/-- How a message names a node. -/
def NodeId.label (id : NodeId) : String :=
  s!"node#{id}"

/-- A node: its name, its links and its properties. -/
structure Node where
  name : String
  parent : Option NodeId
  children : List NodeId := []
  properties : List (String × Bytes) := []
deriving DecidableEq, Repr

namespace Node

/-- The value of the named property. -/
def property? (node : Node) (name : String) : Option Bytes :=
  node.properties.lookup name

/-- The name without the unit address: what stands before the first `@`. -/
def unitName (node : Node) : String :=
  String.ofList (node.name.toList.takeWhile (· ≠ '@'))

end Node

/-- Sets the value of a name in a list of properties: in place if the name is there, at the end
otherwise. -/
def putProperty (name : String) (value : Bytes) : List (String × Bytes) → List (String × Bytes)
  | [] => [(name, value)]
  | p :: rest => if p.1 = name then (name, value) :: rest else p :: putProperty name value rest

theorem map_fst_putProperty (name : String) (value : Bytes) (properties : List (String × Bytes)) :
    (putProperty name value properties).map Prod.fst =
      if name ∈ properties.map Prod.fst then properties.map Prod.fst
      else properties.map Prod.fst ++ [name] := by
  induction properties with
  | nil => simp [putProperty]
  | cons p rest ih =>
    by_cases h : p.1 = name
    · simp [putProperty, h]
    · simp only [putProperty, h, if_false, List.map_cons, ih, List.mem_cons, Ne.symm h, false_or]
      split <;> simp

theorem lookup_property_cons (key first : String) (old : Bytes) (rest : List (String × Bytes)) :
    ((first, old) :: rest).lookup key = if key = first then some old else rest.lookup key := by
  rw [List.lookup_cons]
  by_cases h : key = first
  · simp [h]
  · simp [beq_false_of_ne h, h]

theorem lookup_putProperty (name key : String) (value : Bytes)
    (properties : List (String × Bytes)) :
    (putProperty name value properties).lookup key =
      if key = name then some value else properties.lookup key := by
  induction properties with
  | nil => simp [putProperty, lookup_property_cons]
  | cons p rest ih =>
    obtain ⟨first, old⟩ := p
    by_cases hp : first = name
    · by_cases hk : key = name <;> simp [putProperty, lookup_property_cons, hp, hk]
    · by_cases hk : key = first <;> simp [putProperty, lookup_property_cons, hp, hk, ih]

/-! ## Trees -/

/-- A device tree: its nodes, the owners of the phandles, and the physical id of the boot cpu. -/
structure DeviceTree where
  nodes : Array Node
  phandles : List (UInt32 × NodeId)
  bootCpu : UInt32
deriving DecidableEq, Repr

/-- Why an edit was refused. -/
inductive EditError where
  /-- The node is not in the tree. -/
  | unknownNode (node : NodeId)
  /-- The name is empty, holds a `/`, or is a sibling's name. -/
  | invalidNodeName (name : String)
  /-- A phandle must be one cell, and neither 0 nor 0xffffffff. -/
  | invalidPhandle (node : NodeId)
  /-- The phandle belongs to another node. -/
  | duplicatePhandle (phandle : UInt32) (first second : NodeId)
deriving DecidableEq, Repr

/-- The wording of a refusal. -/
def EditError.message : EditError → String
  | .unknownNode node => s!"node {NodeId.label node} does not exist"
  | .invalidNodeName name => s!"invalid node name '{name}'"
  | .invalidPhandle node => s!"invalid phandle value on node {NodeId.label node}"
  | .duplicatePhandle phandle first second =>
    s!"phandle {Numeral.hex phandle.toNat} is used by both {NodeId.label first} " ++
      s!"and {NodeId.label second}"

namespace DeviceTree

/-- The tree that holds a nameless root and nothing else. -/
def empty : DeviceTree where
  nodes := #[{ name := "", parent := none }]
  phandles := []
  bootCpu := 0

/-! ## Lookups -/

variable (tree : DeviceTree)

/-- How many nodes the tree has. -/
def size : Nat := tree.nodes.size

/-- The node with the given number. -/
def node? (id : NodeId) : Option Node := tree.nodes[id]?

/-- The value of a property of a node. -/
def property? (id : NodeId) (name : String) : Option Bytes :=
  (tree.node? id).bind (·.property? name)

/-- The parent of a node. -/
def parent? (id : NodeId) : Option NodeId :=
  (tree.node? id).bind (·.parent)

/-- The children of a node, in the order in which they were added. -/
def children (id : NodeId) : List NodeId :=
  (tree.node? id).elim [] (·.children)

/-- The name of a node. -/
def name? (id : NodeId) : Option String :=
  (tree.node? id).map (·.name)

/-- The node that owns a phandle. -/
def phandleOwner? (phandle : UInt32) : Option NodeId :=
  tree.phandles.lookup phandle

/-! ## Edits -/

/-- Sets the physical id of the boot cpu. -/
def setBootCpu (cpu : UInt32) : DeviceTree :=
  { tree with bootCpu := cpu }

/-- A name that a node below the root may have. -/
def validName (name : String) : Bool :=
  name ≠ "" ∧ '/' ∉ name.toList

/-- The tree with a new last child of `parent`, whatever its name. -/
def appendChild (parent : NodeId) (name : String) : DeviceTree :=
  { tree with
    nodes := (tree.nodes.modify parent fun n =>
      { n with children := n.children ++ [tree.size] }).push { name, parent := some parent } }

/-- Adds a child to a node.  The new node is the last of the arena. -/
def addNode (parent : NodeId) (name : String) : Except EditError (DeviceTree × NodeId) :=
  if !validName name then .error (.invalidNodeName name)
  else match tree.node? parent with
    | none => .error (.unknownNode parent)
    | some node =>
      if node.children.any fun child => tree.name? child == some name then
        .error (.invalidNodeName name)
      else
        .ok (tree.appendChild parent name, tree.size)

/-- The properties that give a node its phandle. -/
def phandleNames : List String := ["phandle", "linux,phandle"]

/-- The phandle that a property value holds: one cell, neither 0 nor 0xffffffff. -/
def phandleOfValue? (value : Bytes) : Option UInt32 :=
  let phandle := UInt32.ofNat (BigEndian.decode value)
  if value.length = 4 ∧ phandle ≠ 0 ∧ phandle ≠ 0xffffffff then some phandle else none

/-- Makes a node the owner of the phandle in `value`, and of no other. -/
def claimPhandle (id : NodeId) (value : Bytes) : Except EditError DeviceTree :=
  match phandleOfValue? value with
  | none => .error (.invalidPhandle id)
  | some phandle =>
    match tree.phandleOwner? phandle with
    | some first =>
      if first ≠ id then .error (.duplicatePhandle phandle first id)
      else .ok (reindex phandle)
    | none => .ok (reindex phandle)
where
  /-- The index after `id` has given up its phandle for `phandle`. -/
  reindex (phandle : UInt32) : DeviceTree :=
    { tree with phandles := (phandle, id) :: tree.phandles.filter fun p => p.2 ≠ id }

/-- The tree with a property set on a node, whatever the property means. -/
def putValue (id : NodeId) (name : String) (value : Bytes) : DeviceTree :=
  { tree with
    nodes := tree.nodes.modify id fun n =>
      { n with properties := putProperty name value n.properties } }

/-- Sets a property of a node, in place if the node has one of that name.  A property that names
the node's phandle also moves the node in the phandle index. -/
def setProperty (id : NodeId) (name : String) (value : Bytes) : Except EditError DeviceTree :=
  if id < tree.size then
    if name ∈ phandleNames then
      (tree.claimPhandle id value).map fun claimed => claimed.putValue id name value
    else
      .ok (tree.putValue id name value)
  else
    .error (.unknownNode id)

end DeviceTree

/-! ## Property values -/

namespace PropertyValue

/-- A list of cells, each a 32-bit number with the most significant byte first. -/
def ofCells (cells : List UInt32) : Bytes :=
  cells.flatMap fun cell => BigEndian.encode 4 cell.toNat

/-- One 64-bit number, in two cells. -/
def ofUInt64 (value : UInt64) : Bytes :=
  BigEndian.encode 8 value.toNat

end PropertyValue
end RiscvTables
