import RiscvTables.Rhct.Node

/-!
# Reading a table

`View.parse` reads any byte string that claims to be a RISC-V hart capabilities table.  It looks
first at the signature, then at the length, then at the checksum, and only then at the nodes; and
last at what the hart nodes refer to.
-/

set_option autoImplicit false

namespace RiscvTables
namespace Rhct

/-- The size of the description header together with the fields of this table in front of the
nodes. -/
def tableHeaderSize : Nat := sdtHeaderSize + 20

/-- The signature of the table. -/
def signature : Vector UInt8 4 := #v[0x52, 0x48, 0x43, 0x54]

/-- The description header as it was read. -/
structure Header where
  signature : String
  length : UInt32
  revision : UInt8
  checksum : UInt8
  oemId : String
  oemTableId : String
  oemRevision : UInt32
  creatorId : String
  creatorRevision : UInt32
deriving DecidableEq, Repr

/-- A table as it was read. -/
structure View where
  header : Header
  flags : UInt32
  timebaseFrequency : UInt64
  nodeOffset : UInt32
  nodes : List Node
deriving DecidableEq, Repr

namespace View

/-- The bytes of a field of the header. -/
def field (data : Bytes) (offset width : Nat) : Bytes :=
  (data.drop offset).take width

/-- The number in a field of the header. -/
def numberField (data : Bytes) (offset width : Nat) : Nat :=
  LittleEndian.decode (field data offset width)

/-- The text in a field of the header. -/
def textField (data : Bytes) (offset width : Nat) : String :=
  Utf8.decodeLossy (field data offset width)

/-- The description header of a table. -/
def readHeader (data : Bytes) : Header where
  signature := textField data 0 4
  length := UInt32.ofNat (numberField data 4 4)
  revision := UInt8.ofNat (numberField data 8 1)
  checksum := UInt8.ofNat (numberField data checksumOffset 1)
  oemId := textField data 10 6
  oemTableId := textField data 16 8
  oemRevision := UInt32.ofNat (numberField data 24 4)
  creatorId := textField data 28 4
  creatorRevision := UInt32.ofNat (numberField data 32 4)

/-- The first hart node with an offset at which no node starts, and that offset. -/
def badReference? (nodes : List Node) : Option (Node × UInt32) :=
  nodes.findSome? fun node =>
    match node.body with
    | .hartInfo _ offsets =>
      (offsets.find? fun target => !nodes.any fun other => other.offset = target).map (node, ·)
    | _ => none

/-- The table that the bytes are. -/
def parse (data : Bytes) : Except RhctError View := do
  if data.length < tableHeaderSize then throw (.truncated data.length tableHeaderSize)
  let header := readHeader data
  if field data 0 4 ≠ signature.toList then throw (.badSignature (field data 0 4))
  if header.length.toNat ≠ data.length then throw (.lengthMismatch header.length data.length)
  if data.byteSum ≠ 0 then throw (.badChecksum data.byteSum)
  let nodeOffset := numberField data 52 4
  let nodes ← Node.readAll (numberField data 48 4)
    { offset := nodeOffset, rest := data.drop nodeOffset }
  match badReference? nodes with
  | some (node, target) => throw (.badNode node.offset.toNat (.badReference target))
  | none => return {
      header
      flags := UInt32.ofNat (numberField data 36 4)
      timebaseFrequency := UInt64.ofNat (numberField data 40 8)
      nodeOffset := UInt32.ofNat nodeOffset
      nodes }

variable (view : View)

/-- Whether the timer cannot wake a cpu: bit 0 of the flags. -/
def timerCannotWakeCpu : Bool :=
  view.flags &&& 1 ≠ 0

/-- The node that starts at an offset. -/
def nodeAt? (offset : UInt32) : Option Node :=
  view.nodes.find? fun node => node.offset = offset

/-- The first ISA string of the table. -/
def isaString? : Option String :=
  view.nodes.findSome? fun node =>
    match node.body with
    | .isaString isa => some isa
    | _ => none

/-- The processor uid and the offsets of every hart node, in order. -/
def harts : List (UInt32 × List UInt32) :=
  view.nodes.filterMap fun node =>
    match node.body with
    | .hartInfo processorUid offsets => some (processorUid, offsets)
    | _ => none

end View
end Rhct
end RiscvTables
