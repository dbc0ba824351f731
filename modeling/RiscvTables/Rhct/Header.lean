import RiscvTables.Bytes.Endian
import RiscvTables.Rhct.Error

/-!
# The description header and its checksum

Every table starts with the same 36 bytes: what it is, how long it is, who made it, and at byte 9
a checksum that makes all bytes of the table sum to zero.

A `Stamper` writes these bytes; `stampIdentity` is the ordinary one.  It leaves the checksum at
zero, since only the finished table has one.
-/

set_option autoImplicit false

namespace RiscvTables
namespace Rhct

/-- The size of the description header. -/
def sdtHeaderSize : Nat := 36

/-- Where the checksum stands. -/
def checksumOffset : Nat := 9

/-- Who makes a table, and in which revision. -/
structure TableInfo where
  revision : UInt8
  oemId : Vector UInt8 6
  oemTableId : Vector UInt8 8
  oemRevision : UInt32
  creatorId : Vector UInt8 4
  creatorRevision : UInt32
deriving DecidableEq, Repr

/-- Writes the header of a table with the given signature and length. -/
abbrev Stamper : Type :=
  Vector UInt8 4 → UInt32 → TableInfo → Except RhctError (Vector UInt8 sdtHeaderSize)

/-- The header bytes for a table. -/
def headerBytes (signature : Vector UInt8 4) (length : UInt32) (info : TableInfo) : Bytes :=
  signature.toList ++ LittleEndian.encode 4 length.toNat ++ [info.revision, 0] ++
    info.oemId.toList ++ info.oemTableId.toList ++
    LittleEndian.encode 4 info.oemRevision.toNat ++ info.creatorId.toList ++
    LittleEndian.encode 4 info.creatorRevision.toNat

theorem length_headerBytes (signature : Vector UInt8 4) (length : UInt32) (info : TableInfo) :
    (headerBytes signature length info).length = sdtHeaderSize := by
  simp [headerBytes, sdtHeaderSize]

/-- Writes the header straight from the information about the table. -/
def stampIdentity : Stamper := fun signature length info =>
  .ok ⟨(headerBytes signature length info).toArray, by
    simpa using length_headerBytes signature length info⟩

/-! ## The checksum -/

/-- The byte that makes the bytes sum to zero when it is added to them. -/
def checksum (bytes : Bytes) : UInt8 :=
  0 - bytes.byteSum

/-- The table with its checksum set.  What is too short to have a header is left alone. -/
def finalizeChecksum (table : Bytes) : Bytes :=
  if table.length < sdtHeaderSize then table
  else table.set checksumOffset (checksum (table.set checksumOffset 0))

end Rhct
end RiscvTables
