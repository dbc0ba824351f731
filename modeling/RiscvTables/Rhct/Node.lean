import RiscvTables.Rhct.Header
import RiscvTables.Text.Utf8

/-!
# Table nodes

After its header a table is a list of nodes.  A node starts with its type, its length and its
revision, 16 bits each and least significant byte first; the length covers the whole node.

`NodeBody.encode` writes a node and `Node.read` reads the one at an offset.  A reader steps from
node to node by their lengths, so it also gets past nodes whose type it does not know.
-/

set_option autoImplicit false

namespace RiscvTables
namespace Rhct

/-- The size of the header of a node. -/
def nodeHeaderSize : Nat := 6

/-- What a node says. -/
inductive NodeBody where
  /-- The ISA string that harts refer to. -/
  | isaString (isa : String)
  /-- Cache-block sizes, as base-2 logarithms. -/
  | cacheBlocks (cbom cbop cboz : UInt8)
  /-- A hart, and the offsets of the nodes that describe it. -/
  | hartInfo (processorUid : UInt32) (offsets : List UInt32)
  /-- A node of another type. -/
  | unknown (nodeType length : UInt16)
deriving DecidableEq, Repr

/-! ## Writing -/

/-- The length of the node of an ISA string: the string and the zero byte behind it are filled up
to an even number of bytes. -/
def isaStringSize (isa : String) : Nat :=
  8 + Bytes.roundUp 2 ((Utf8.encode isa).length + 1)

/-- The length of a cache-block node. -/
def cacheBlocksSize : Nat := 10

/-- The length of the node of a hart with the given number of offsets. -/
def hartInfoSize (offsets : Nat) : Nat :=
  12 + 4 * offsets

namespace NodeBody

/-- The type number of the node. -/
def nodeType : NodeBody → UInt16
  | .isaString _ => 0
  | .cacheBlocks .. => 1
  | .hartInfo .. => 0xffff
  | .unknown type _ => type

/-- The length of the node. -/
def size : NodeBody → Nat
  | .isaString isa => isaStringSize isa
  | .cacheBlocks .. => cacheBlocksSize
  | .hartInfo _ offsets => hartInfoSize offsets.length
  | .unknown _ length => length.toNat

/-- The bytes behind the node's header.  What an unknown node holds is not known, so it is
written as zeros. -/
def payload : NodeBody → Bytes
  | .isaString isa =>
    let text := Utf8.encode isa
    LittleEndian.encode 2 (text.length + 1) ++ Bytes.padTo 2 (text ++ [0])
  | .cacheBlocks cbom cbop cboz => [0, cbom, cbop, cboz]
  | .hartInfo processorUid offsets =>
    LittleEndian.encode 2 offsets.length ++ LittleEndian.encode 4 processorUid.toNat ++
      offsets.flatMap fun offset => LittleEndian.encode 4 offset.toNat
  | .unknown _ length => List.replicate (length.toNat - nodeHeaderSize) 0

/-- The bytes of the node, in revision 1. -/
def encode (body : NodeBody) : Bytes :=
  LittleEndian.encode 2 body.nodeType.toNat ++ LittleEndian.encode 2 body.size ++
    LittleEndian.encode 2 1 ++ body.payload

end NodeBody

/-! ## Reading -/

/-- A position in a table and the bytes from there on. -/
structure Reader where
  offset : Nat
  rest : Bytes

namespace Reader

/-- The number in the next `width` bytes. -/
def number (width : Nat) (reader : Reader) : Except RhctError (Nat × Reader) :=
  match reader.rest.split? width with
  | none => .error (.truncated reader.offset width)
  | some (head, rest) =>
    .ok (LittleEndian.decode head, { offset := reader.offset + width, rest })

/-- The numbers in the next `count` pieces of `width` bytes. -/
def numbers (width : Nat) : Nat → Reader → Except RhctError (List Nat)
  | 0, _ => .ok []
  | count + 1, reader => do
    let (first, reader) ← reader.number width
    return first :: (← numbers width count reader)

end Reader

/-- A node of a table, and the offset at which it starts. -/
structure Node where
  offset : UInt32
  nodeType : UInt16
  revision : UInt16
  body : NodeBody
deriving DecidableEq, Repr

namespace Node

/-- The body of an ISA string node that starts at `offset`, read behind its header.  The string
ends at its first zero byte. -/
def readIsaString (offset : Nat) (reader : Reader) : Except RhctError NodeBody := do
  let (length, reader) ← reader.number 2
  match reader.rest.split? length with
  | none => throw (.badNode offset (.isaOverrun length))
  | some (text, _) => return .isaString (Utf8.decodeLossy (text.takeWhile (· ≠ 0)))

/-- The body of a cache-block node, read behind its header. -/
def readCacheBlocks (reader : Reader) : Except RhctError NodeBody := do
  let (_, reader) ← reader.number 1
  let (cbom, reader) ← reader.number 1
  let (cbop, reader) ← reader.number 1
  let (cboz, _) ← reader.number 1
  return .cacheBlocks (UInt8.ofNat cbom) (UInt8.ofNat cbop) (UInt8.ofNat cboz)

/-- The body of the node of a hart that starts at `offset`, read behind its header. -/
def readHartInfo (offset length : Nat) (reader : Reader) : Except RhctError NodeBody := do
  let (count, reader) ← reader.number 2
  let (processorUid, reader) ← reader.number 4
  if length < hartInfoSize count then throw (.badNode offset (.offsetsOverrun count))
  let offsets ← reader.numbers 4 count
  return .hartInfo (UInt32.ofNat processorUid) (offsets.map UInt32.ofNat)

/-- The body of a node of the given type that starts at `offset`, read behind its header. -/
def readBody (nodeType : UInt16) (offset length : Nat) (reader : Reader) :
    Except RhctError NodeBody :=
  if nodeType = 0 then readIsaString offset reader
  else if nodeType = 1 then readCacheBlocks reader
  else if nodeType = 0xffff then readHartInfo offset length reader
  else .ok (.unknown nodeType (UInt16.ofNat length))

/-- The node at a position, and the position behind it. -/
def read (reader : Reader) : Except RhctError (Node × Reader) := do
  let (nodeType, next) ← reader.number 2
  let (length, next) ← next.number 2
  let (revision, _) ← next.number 2
  if length < nodeHeaderSize then throw (.badNode reader.offset (.shortLength length))
  match reader.rest.split? length with
  | none => throw (.truncated reader.offset length)
  | some (bytes, rest) =>
    let nodeType := UInt16.ofNat nodeType
    let body ← readBody nodeType reader.offset length
      { offset := reader.offset + nodeHeaderSize, rest := bytes.drop nodeHeaderSize }
    return ({ offset := UInt32.ofNat reader.offset, nodeType,
              revision := UInt16.ofNat revision, body },
            { offset := reader.offset + length, rest })

/-- The next `count` nodes. -/
def readAll : Nat → Reader → Except RhctError (List Node)
  | 0, _ => .ok []
  | count + 1, reader => do
    let (node, reader) ← read reader
    return node :: (← readAll count reader)

end Node
end Rhct
end RiscvTables
