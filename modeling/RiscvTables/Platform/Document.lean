import RiscvTables.Platform.Config
import RiscvTables.Toml.Reader

/-!
# Platform files

A platform configuration as a document, and as the text of a platform file.  Only the name must be
there; the table's identity is all there or not at all; of cache-block sizes each may be missing.
What is left at nothing is not written.

Nothing but the document depends on what a configuration is, so a platform file can be of any text
format (`PlatformConfig.ofText`, `PlatformConfig.toText`).  The files that are in use are TOML
(`PlatformConfig.ofToml`, `PlatformConfig.toToml`).
-/

set_option autoImplicit false

namespace RiscvTables

/-! ## Reading -/

/-- The identity that a document describes. -/
def TableIdentity.ofDocument? (surplus : Document.Surplus) (document : Document) :
    Option TableIdentity := do
  let fields ← document.fields? surplus 6
  return {
    oemId := ← fields.required? 0 "oem-id" Document.text?
    oemTableId := ← fields.required? 1 "oem-table-id" Document.text?
    oemRevision := ← fields.required? 2 "oem-revision" Document.uint32?
    creatorId := ← fields.required? 3 "creator-id" Document.text?
    creatorRevision := ← fields.required? 4 "creator-revision" Document.uint32?
    revision := ← fields.required? 5 "revision" Document.uint8? }

/-- The timer that a document describes. -/
def TimerConfig.ofDocument? (surplus : Document.Surplus) (document : Document) :
    Option TimerConfig := do
  let fields ← document.fields? surplus 2
  return {
    frequency := ← fields.required? 0 "timebase-frequency" Document.uint64?
    cannotWakeCpu := ← fields.optional? 1 "cannot-wake-cpu" Document.boolean? false }

/-- The cache-block sizes that a document describes. -/
def CacheBlockConfig.ofDocument? (surplus : Document.Surplus) (document : Document) :
    Option CacheBlockConfig := do
  let fields ← document.fields? surplus 3
  return {
    cbom := ← fields.optional? 0 "cbom-block-size" Document.uint64? 0
    cbop := ← fields.optional? 1 "cbop-block-size" Document.uint64? 0
    cboz := ← fields.optional? 2 "cboz-block-size" Document.uint64? 0 }

namespace PlatformConfig

/-- The configuration that a document describes. -/
def ofDocument? (surplus : Document.Surplus) (document : Document) : Option PlatformConfig := do
  let fields ← document.fields? surplus 5
  return {
    name := ← fields.required? 0 "name" Document.text?
    isa := ← fields.optional? 1 "isa-string" (Document.nullable? Document.text?) none
    table := ← fields.optional? 2 "table" (TableIdentity.ofDocument? surplus) {}
    timer := ←
      fields.optional? 3 "timer" (Document.nullable? (TimerConfig.ofDocument? surplus)) none
    cacheBlocks := ←
      fields.optional? 4 "cmo" (Document.listOf? (CacheBlockConfig.ofDocument? surplus)) [] }

/-- The configuration in a platform file of some format.  Where the format gives a record by
position, items beyond its last field do not count. -/
def ofText (format : Document.Format) (text : String) : Except PlatformError PlatformConfig :=
  match (format.read? text).bind (ofDocument? .ignored) with
  | some config => .ok config
  | none => .error .unreadable

/-- The configuration in a platform file. -/
def ofToml (text : String) : Except PlatformError PlatformConfig :=
  ofText Toml.format text

end PlatformConfig

/-! ## Writing -/

/-- The identity as a document. -/
def TableIdentity.toDocument (identity : TableIdentity) : Document :=
  .record [
    ("oem-id", .text identity.oemId),
    ("oem-table-id", .text identity.oemTableId),
    ("oem-revision", .natural identity.oemRevision.toNat),
    ("creator-id", .text identity.creatorId),
    ("creator-revision", .natural identity.creatorRevision.toNat),
    ("revision", .natural identity.revision.toNat)]

/-- The timer as a document. -/
def TimerConfig.toDocument (timer : TimerConfig) : Document :=
  .record [
    ("timebase-frequency", .natural timer.frequency.toNat),
    ("cannot-wake-cpu", .boolean timer.cannotWakeCpu)]

/-- The cache-block sizes as a document. -/
def CacheBlockConfig.toDocument (sizes : CacheBlockConfig) : Document :=
  .record [
    ("cbom-block-size", .natural sizes.cbom.toNat),
    ("cbop-block-size", .natural sizes.cbop.toNat),
    ("cboz-block-size", .natural sizes.cboz.toNat)]

namespace PlatformConfig

/-- The fields that are single values. -/
def leadingFields (config : PlatformConfig) : List (String × Document) :=
  ("name", .text config.name) :: config.isa.toList.map fun isa => ("isa-string", .text isa)

/-- The fields that have fields of their own, behind those that have none. -/
def sectionFields (config : PlatformConfig) : List (String × Document) :=
  ("table", config.table.toDocument) ::
    config.timer.toList.map (fun timer => ("timer", timer.toDocument)) ++
    (if config.cacheBlocks = [] then []
     else [("cmo", .list (config.cacheBlocks.map CacheBlockConfig.toDocument))])

/-- The configuration as a document. -/
def toDocument (config : PlatformConfig) : Document :=
  .record (config.leadingFields ++ config.sectionFields)

/-- The configuration as a platform file of some format. -/
def toText (format : Document.Format) (config : PlatformConfig) : Except PlatformError String :=
  match format.write? config.toDocument with
  | some text => .ok text
  | none => .error .unwritable

/-- The configuration as a platform file. -/
def toToml (config : PlatformConfig) : Except PlatformError String :=
  toText Toml.format config

end PlatformConfig
end RiscvTables
