import RiscvTables.DeviceTree.Basic

/-!
# Walking a device tree

The two ways through a tree in pre-order, and the way between a node and its path.

`preorder` keeps a stack of nodes still to be visited.  `nextNode?` needs no memory: it goes to
the first child, or else climbs until an ancestor has a following sibling.  A parent stands
before its children in the arena, so no walk makes more steps than there are nodes; that number
is the step bound of every walk here.
-/

set_option autoImplicit false

namespace RiscvTables
namespace DeviceTree

variable (tree : DeviceTree)

/-! ## With a stack -/

/-- The next `steps` nodes of a walk that has `stack` still to visit. -/
def visit : Nat → List NodeId → List NodeId
  | 0, _ => []
  | _, [] => []
  | steps + 1, id :: stack => id :: visit steps (tree.children id ++ stack)

/-- All nodes, each before its children's subtrees. -/
def preorder : List NodeId :=
  tree.visit tree.size [NodeId.root]

/-! ## From node to node -/

/-- What stands after the first `x` in a list. -/
def successor? (x : NodeId) : List NodeId → Option NodeId
  | [] => none
  | y :: rest => if y = x then rest.head? else successor? x rest

/-- The following sibling of the nearest of `id` and its ancestors that has one, looked for
`levels` levels up. -/
def climb? : Nat → NodeId → Option NodeId
  | 0, _ => none
  | levels + 1, id =>
    (tree.parent? id).bind fun parent =>
      (successor? id (tree.children parent)).or (climb? levels parent)

/-- The node after `prev` in pre-order; the root comes first. -/
def nextNode? : Option NodeId → Option NodeId
  | none => some NodeId.root
  | some prev => (tree.children prev).head?.or (tree.climb? tree.size prev)

/-- The next `steps` nodes after `prev`. -/
def walk : Nat → Option NodeId → List NodeId
  | 0, _ => []
  | steps + 1, prev =>
    match tree.nextNode? prev with
    | none => []
    | some id => id :: walk steps (some id)

/-- All nodes, one `nextNode?` after the other. -/
def nodeList : List NodeId :=
  tree.walk tree.size none

/-! ## Paths -/

/-- The names from a node up to the root, whose own name does not count.  Nothing if the node is
not there, or one above it. -/
def namesUp? : Nat → NodeId → Option (List String)
  | 0, _ => none
  | levels + 1, id =>
    (tree.node? id).bind fun node =>
      match node.parent with
      | none => some []
      | some parent => (namesUp? levels parent).map (node.name :: ·)

/-- The path of a node; nothing if there is no such node. -/
def path? (id : NodeId) : Option String :=
  (tree.namesUp? tree.size id).map fun names => "/" ++ String.intercalate "/" names.reverse

/-- The parts of a path for messages, from a node upwards: one for each node that has a parent. -/
def partsUp : Nat → NodeId → List String
  | 0, _ => []
  | levels + 1, id =>
    match tree.parent? id with
    | none => []
    | some parent => (tree.name? id).getD "?" :: partsUp levels parent

/-- The path of a node, for messages: a node that is not there is shown as the root. -/
def path (id : NodeId) : String :=
  match tree.partsUp tree.size id with
  | [] => "/"
  | parts => String.join (parts.reverse.map ("/" ++ ·))

/-- The parts of a path that name something. -/
def pathComponents (path : String) : List String :=
  ((path.toList.splitOn '/').filter (· ≠ [])).map String.ofList

/-- The first child with the given name. -/
def childNamed? (parent : NodeId) (name : String) : Option NodeId :=
  (tree.children parent).find? fun child => tree.name? child == some name

/-- The node at a path.  Each component must be the full name of a child. -/
def find? (path : String) : Option NodeId :=
  (pathComponents path).foldlM (fun id name => tree.childNamed? id name) NodeId.root

end DeviceTree
end RiscvTables
