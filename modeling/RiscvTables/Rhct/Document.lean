import RiscvTables.Document
import RiscvTables.Rhct.Generator

/-!
# Tables as documents
-/

set_option autoImplicit false

namespace RiscvTables
namespace Rhct

/-- A description header. -/
def Header.toDocument (header : Header) : Document :=
  .record [
    ("signature", .text header.signature),
    ("length", .natural header.length.toNat),
    ("revision", .natural header.revision.toNat),
    ("checksum", .natural header.checksum.toNat),
    ("oem_id", .text header.oemId),
    ("oem_table_id", .text header.oemTableId),
    ("oem_revision", .natural header.oemRevision.toNat),
    ("creator_id", .text header.creatorId),
    ("creator_revision", .natural header.creatorRevision.toNat)]

/-- The body of a node, with its type in front. -/
def NodeBody.toDocument : NodeBody → Document
  | .isaString isa => .record [("type", .text "isa-string"), ("isa", .text isa)]
  | .cacheBlocks cbom cbop cboz =>
    .record [
      ("type", .text "cmo"),
      ("cbom_block_size", .natural cbom.toNat),
      ("cbop_block_size", .natural cbop.toNat),
      ("cboz_block_size", .natural cboz.toNat)]
  | .hartInfo processorUid offsets =>
    .record [
      ("type", .text "hart-info"),
      ("acpi_processor_uid", .natural processorUid.toNat),
      ("offsets", .list (offsets.map fun offset => .natural offset.toNat))]
  | .unknown type length =>
    .record [
      ("type", .text "unknown"),
      ("node_type", .natural type.toNat),
      ("length", .natural length.toNat)]

/-- A node. -/
def Node.toDocument (node : Node) : Document :=
  .record [
    ("offset", .natural node.offset.toNat),
    ("node_type", .natural node.nodeType.toNat),
    ("revision", .natural node.revision.toNat),
    ("body", node.body.toDocument)]

/-- A table that was read. -/
def View.toDocument (view : View) : Document :=
  .record [
    ("header", view.header.toDocument),
    ("flags", .natural view.flags.toNat),
    ("timebase_frequency", .natural view.timebaseFrequency.toNat),
    ("node_offset", .natural view.nodeOffset.toNat),
    ("nodes", .list (view.nodes.map Node.toDocument))]

/-- The source of a node: a word, or a record with the source's sort as its only name. -/
def NodeSource.toDocument : NodeSource → Document
  | .isaString => .text "isa-string"
  | .cacheBlock position => .record [("cmo", .natural position)]
  | .hartInfo position processorUid =>
    .record [("hart-info", .record [
      ("index", .natural position),
      ("acpi_processor_uid", .natural processorUid.toNat)])]

/-- A node index. -/
def NodeIndex.toDocument (index : NodeIndex) : Document :=
  .record [("entries", .list (index.entries.map fun entry =>
    .record [("source", entry.source.toDocument), ("offset", .natural entry.offset.toNat)]))]

end Rhct
end RiscvTables
