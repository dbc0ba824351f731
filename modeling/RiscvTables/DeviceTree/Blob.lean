import RiscvTables.DeviceTree.Token

/-!
# Flattened device trees

A blob is a header of ten 32-bit numbers, a reservation map, the structure block and the strings
block.  `DeviceTree.ofBlob` reads every blob that claims to be readable as version 16 or 17;
`DeviceTree.toBlob` writes version 17 with an empty reservation map.

Reading is a `Builder` fed with one token after the other: it holds the tree so far and the nodes
that are open, and every node or property goes through the same edits that any other caller of
the tree would use.  Writing lists the tokens of the tree in pre-order and encodes them.
-/

set_option autoImplicit false

namespace RiscvTables

/-! ## The header -/

namespace Blob

/-- The first word of every blob. -/
def magic : Nat := 0xd00dfeed

/-- The header's size in bytes. -/
def headerSize : Nat := 40

/-- The size of the all-zero entry that ends a reservation map. -/
def reservationEnd : Nat := 16

/-- What the header says, as far as reading needs it. -/
structure Header where
  totalSize : Nat
  structureStart : Nat
  stringsStart : Nat
  version : Nat
  bootCpu : UInt32
  stringsSize : Nat
  structureSize : Nat

/-- Reads the header and checks that the blob is whole and of a readable version. -/
def Header.read (data : Bytes) : Except BlobError Header :=
  if data.length < headerSize then .error (.truncated data.length)
  else
    let field (i : Nat) : UInt32 := (PropertyValue.cellAt? data i).getD 0
    let version := field 5
    let lastCompatible := field 6
    if (field 0).toNat ≠ magic then .error (.invalidMagic (field 0))
    else if version < 16 ∨ lastCompatible > 17 then
      .error (.unsupportedVersion version lastCompatible)
    else if (field 1).toNat > data.length then .error (.truncated data.length)
    else .ok
      { totalSize := (field 1).toNat
        structureStart := (field 2).toNat
        stringsStart := (field 3).toNat
        version := version.toNat
        bootCpu := field 7
        stringsSize := (field 8).toNat
        structureSize := (field 9).toNat }

/-- Where the structure block ends.  Version 16 does not say, so there it runs to the end. -/
def Header.structureEnd (header : Header) : Nat :=
  if header.version ≥ 17 then header.structureStart + header.structureSize else header.totalSize

/-- The bytes from `start` up to `stop`, both of which must lie in the blob. -/
def range (blob : Bytes) (start stop : Nat) : Except BlobError Bytes :=
  match if start ≤ stop then blob.slice? start (stop - start) else none with
  | none => .error (.truncated stop)
  | some bytes => .ok bytes

/-! ## Reading -/

/-- A tree under construction: the tree so far, the open nodes from the innermost outwards, and
whether the root has begun. -/
structure Builder where
  tree : DeviceTree
  openNodes : List NodeId
  rootSeen : Bool

/-- The result of an edit, its refusal told as that of the blob. -/
def ofEdit {α : Type} (edited : Except EditError α) : Except BlobError α :=
  edited.mapError .edit

namespace Builder

/-- Takes in one token.  The name of the root does not count. -/
def accept (builder : Builder) : Token → Except BlobError Builder
  | .beginNode name =>
    match builder.openNodes with
    | [] =>
      if builder.rootSeen then .error .unbalanced
      else .ok { builder with openNodes := [NodeId.root], rootSeen := true }
    | parent :: _ => do
      let (tree, id) ← ofEdit (builder.tree.addNode parent name)
      return { builder with tree, openNodes := id :: builder.openNodes }
  | .endNode =>
    match builder.openNodes with
    | [] => .error .unbalanced
    | _ :: outer => .ok { builder with openNodes := outer }
  | .property name value =>
    match builder.openNodes with
    | [] => .error .unbalanced
    | id :: _ => do
      let tree ← ofEdit (builder.tree.setProperty id name value)
      return { builder with tree }
  | .nop | .finish => .ok builder

/-- The tree, once the tokens are over: the root must have begun, and nothing may be open. -/
def finish (builder : Builder) : Except BlobError DeviceTree :=
  if builder.openNodes ≠ [] ∨ !builder.rootSeen then .error .unbalanced else .ok builder.tree

/-- Feeds the tokens from the cursor on, up to the one that ends the block.  A token takes at
least four bytes, so a block of `4 * steps` bytes that has held `steps` tokens is used up. -/
def run (blocks : Token.Blocks) : Nat → Token.Cursor → Builder → Except BlobError DeviceTree
  | steps, cursor, builder =>
    if cursor.offset % 4 ≠ 0 then
      .error (.tokenUnaligned (blocks.structureStart + cursor.offset))
    else
      match steps with
      | 0 => .error (.truncated (blocks.structureStart + cursor.offset))
      | steps + 1 => do
        let (token, next) ← Token.read blocks cursor
        if token = .finish then builder.finish
        else run blocks steps next (← builder.accept token)

end Builder
end Blob

namespace DeviceTree

/-- The tree that a blob describes. -/
def ofBlob (data : Bytes) : Except BlobError DeviceTree := do
  let header ← Blob.Header.read data
  let blob := data.take header.totalSize
  let structureBlock ← Blob.range blob header.structureStart header.structureEnd
  let strings ← Blob.range blob header.stringsStart (header.stringsStart + header.stringsSize)
  Blob.Builder.run
    { structureStart := header.structureStart, stringsStart := header.stringsStart, strings }
    (structureBlock.length / 4)
    { offset := 0, rest := structureBlock }
    { tree := DeviceTree.empty.setBootCpu header.bootCpu, openNodes := [], rootSeen := false }

/-! ## Writing -/

variable (tree : DeviceTree)

/-- The distinct property names, in the order in which a pre-order walk meets them. -/
def propertyNames : List String :=
  (tree.preorder.flatMap fun id =>
    (tree.node? id).elim [] fun node => node.properties.map Prod.fst).eraseDups

/-- The tokens of a node and of `levels - 1` generations below it. -/
def nodeTokens : Nat → NodeId → List Token
  | 0, _ => []
  | levels + 1, id =>
    match tree.node? id with
    | none => []
    | some node =>
      .beginNode node.name :: node.properties.map (fun p => .property p.1 p.2) ++
        node.children.flatMap (nodeTokens levels) ++ [.endNode]

/-- The tokens of the whole tree. -/
def tokens : List Token :=
  tree.nodeTokens tree.size NodeId.root ++ [.finish]

/-- The structure block. -/
def structureBlock : Bytes :=
  tree.tokens.flatMap (Token.encode tree.propertyNames)

/-- The strings block: each property name once, ended by a zero byte. -/
def stringsBlock : Bytes :=
  PropertyValue.ofStrings tree.propertyNames

/-- The tree as a blob of version 17. -/
def toBlob : Bytes :=
  let structureBlock := tree.structureBlock
  let strings := tree.stringsBlock
  let structureStart := Blob.headerSize + Blob.reservationEnd
  let stringsStart := structureStart + structureBlock.length
  let header :=
    [Blob.magic, stringsStart + strings.length, structureStart, stringsStart, Blob.headerSize,
      17, 16, tree.bootCpu.toNat, strings.length, structureBlock.length]
  header.flatMap (BigEndian.encode 4) ++ List.replicate Blob.reservationEnd 0 ++
    structureBlock ++ strings

end DeviceTree
end RiscvTables
