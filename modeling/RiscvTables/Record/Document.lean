import RiscvTables.Document
import RiscvTables.Record.Platform

/-!
# Records as documents

How each record is written down and read back.  A record of unknown type carries its type as a
field `kind` in front of its own fields, or, where fields are given by position, as the first item.
-/

set_option autoImplicit false

namespace RiscvTables

/-! ## Families and kinds -/

/-- The written name of a family. -/
def BankFamily.name : BankFamily → String
  | .plic => "plic"
  | .aplic => "aplic"

/-- The family with a written name. -/
def BankFamily.ofName? (name : String) : Option BankFamily :=
  [BankFamily.plic, .aplic].find? fun family => family.name = name

/-- The written name of a kind. -/
def RecordKind.name : RecordKind → String
  | .hart => "rintc"
  | .plic => "plic"
  | .aplic => "aplic"
  | .imsic => "imsic"
  | .isaString => "isa-string"
  | .cacheBlock => "cmo"
  | .timer => "timer"

/-- All kinds, in order. -/
def RecordKind.all : List RecordKind :=
  [.hart, .plic, .aplic, .imsic, .isaString, .cacheBlock, .timer]

/-- The kind with a written name. -/
def RecordKind.ofName? (name : String) : Option RecordKind :=
  RecordKind.all.find? fun kind => kind.name = name

/-! ## Harts -/

namespace HartRecord

/-- The fields of a hart, in order. -/
def toFields (hart : HartRecord) : List (String × Document) :=
  [("version", .natural hart.version.toNat),
   ("flags", .natural hart.flags.toNat),
   ("hart-id", .natural hart.hartId.toNat),
   ("acpi-processor-uid", .natural hart.processorUid.toNat),
   ("ext-intc-id", .natural hart.externalId.toNat),
   ("imsic-base-address", .natural hart.imsicBase.toNat),
   ("imsic-size", .natural hart.imsicSize.toNat)]

/-- The hart that a document describes. -/
def ofDocument? (document : Document) : Option HartRecord := do
  let fields ← document.fields? .refused 7
  return {
    version := ← fields.required? 0 "version" Document.uint8?
    flags := ← fields.required? 1 "flags" Document.uint32?
    hartId := ← fields.required? 2 "hart-id" Document.uint64?
    processorUid := ← fields.required? 3 "acpi-processor-uid" Document.uint32?
    externalId := ← fields.required? 4 "ext-intc-id" Document.uint32?
    imsicBase := ← fields.required? 5 "imsic-base-address" Document.uint64?
    imsicSize := ← fields.required? 6 "imsic-size" Document.uint32? }

end HartRecord

/-! ## Banks -/

namespace BankRecord

/-- The fields of a bank, in order. -/
def toFields (bank : BankRecord) : List (String × Document) :=
  [("version", .natural bank.version.toNat),
   ("id", .natural bank.id.toNat),
   ("family", .text bank.family.name),
   ("hw-id", .list (bank.hardwareId.toList.map fun b => .natural b.toNat)),
   ("num-sources", .natural bank.sources.toNat),
   ("num-idcs", .natural bank.idcs.toNat),
   ("base-address", .natural bank.base.toNat),
   ("size", .natural bank.size.toNat),
   ("gsi-base", .natural bank.gsiBase.toNat)]

/-- A hardware id: a list of exactly eight bytes. -/
def hardwareIdOfDocument? (document : Document) : Option (Vector UInt8 8) := do
  let bytes ← document.listOf? Document.uint8?
  if h : bytes.length = 8 then some ⟨bytes.toArray, by simpa using h⟩ else none

/-- The bank that a document describes. -/
def ofDocument? (document : Document) : Option BankRecord := do
  let fields ← document.fields? .refused 9
  return {
    version := ← fields.required? 0 "version" Document.uint8?
    id := ← fields.required? 1 "id" Document.uint32?
    family := ← (← fields.required? 2 "family" Document.word?) |> BankFamily.ofName?
    hardwareId := ← fields.required? 3 "hw-id" hardwareIdOfDocument?
    sources := ← fields.required? 4 "num-sources" Document.uint32?
    idcs := ← fields.required? 5 "num-idcs" Document.uint32?
    base := ← fields.required? 6 "base-address" Document.uint64?
    size := ← fields.required? 7 "size" Document.uint32?
    gsiBase := ← fields.required? 8 "gsi-base" Document.uint32? }

end BankRecord

/-! ## Receivers -/

namespace ReceiverRecord

/-- The fields of a receiver, in order. -/
def toFields (receiver : ReceiverRecord) : List (String × Document) :=
  [("version", .natural receiver.version.toNat),
   ("flags", .natural receiver.flags.toNat),
   ("num-ids", .natural receiver.ids.toNat),
   ("num-guest-ids", .natural receiver.guestIds.toNat),
   ("guest-index-bits", .natural receiver.guestIndexBits.toNat),
   ("hart-index-bits", .natural receiver.hartIndexBits.toNat),
   ("group-index-bits", .natural receiver.groupIndexBits.toNat),
   ("group-index-shift", .natural receiver.groupIndexShift.toNat)]

/-- The receiver that a document describes. -/
def ofDocument? (document : Document) : Option ReceiverRecord := do
  let fields ← document.fields? .refused 8
  return {
    version := ← fields.required? 0 "version" Document.uint8?
    flags := ← fields.required? 1 "flags" Document.uint32?
    ids := ← fields.required? 2 "num-ids" Document.uint32?
    guestIds := ← fields.required? 3 "num-guest-ids" Document.uint32?
    guestIndexBits := ← fields.required? 4 "guest-index-bits" Document.uint32?
    hartIndexBits := ← fields.required? 5 "hart-index-bits" Document.uint32?
    groupIndexBits := ← fields.required? 6 "group-index-bits" Document.uint32?
    groupIndexShift := ← fields.required? 7 "group-index-shift" Document.uint32? }

end ReceiverRecord

/-! ## The platform's records -/

namespace IsaRecord

/-- The fields of an ISA string, in order. -/
def toFields (record : IsaRecord) : List (String × Document) :=
  [("isa", .text record.isa)]

/-- The ISA string that a document describes. -/
def ofDocument? (document : Document) : Option IsaRecord := do
  let fields ← document.fields? .refused 1
  return { isa := ← fields.required? 0 "isa" Document.text? }

end IsaRecord

namespace CacheBlockRecord

/-- The fields of cache-block sizes, in order. -/
def toFields (record : CacheBlockRecord) : List (String × Document) :=
  [("cbom-block-size", .natural record.cbom.toNat),
   ("cbop-block-size", .natural record.cbop.toNat),
   ("cboz-block-size", .natural record.cboz.toNat)]

/-- The cache-block sizes that a document describes. -/
def ofDocument? (document : Document) : Option CacheBlockRecord := do
  let fields ← document.fields? .refused 3
  return {
    cbom := ← fields.required? 0 "cbom-block-size" Document.uint8?
    cbop := ← fields.required? 1 "cbop-block-size" Document.uint8?
    cboz := ← fields.required? 2 "cboz-block-size" Document.uint8? }

end CacheBlockRecord

namespace TimerRecord

/-- The fields of a timer, in order. -/
def toFields (timer : TimerRecord) : List (String × Document) :=
  [("timebase-frequency", .natural timer.frequency.toNat),
   ("timer-cannot-wake-cpu", .boolean timer.cannotWakeCpu)]

/-- The timer that a document describes.  A timer that is not said to be unable to wake a cpu is
able to. -/
def ofDocument? (document : Document) : Option TimerRecord := do
  let fields ← document.fields? .refused 2
  return {
    frequency := ← fields.required? 0 "timebase-frequency" Document.uint64?
    cannotWakeCpu := ← fields.optional? 1 "timer-cannot-wake-cpu" Document.boolean? false }

end TimerRecord

/-- What is known of a platform, with `null` for what is not. -/
def PlatformRecords.toDocument (records : PlatformRecords) : Document :=
  .record [
    ("timer", records.timer.elim .null fun timer => .record timer.toFields),
    ("isa_string", records.isa.elim .null fun isa => .record isa.toFields),
    ("cmo", .list (records.cacheBlocks.map fun record => .record record.toFields))]

/-! ## Records of any type -/

namespace Record

/-- The written name of a record's type. -/
def typeName : Record → String
  | .hart _ => "hart"
  | .bank _ => "controller-bank"
  | .receiver _ => "msg-receiver"
  | .isa _ => "isa-string"
  | .cacheBlock _ => "cache-block"
  | .timer _ => "timer"

/-- The fields of a record, without its type. -/
def toFields : Record → List (String × Document)
  | .hart record => record.toFields
  | .bank record => record.toFields
  | .receiver record => record.toFields
  | .isa record => record.toFields
  | .cacheBlock record => record.toFields
  | .timer record => record.toFields

/-- A record with its type. -/
def toDocument (record : Record) : Document :=
  .record (("kind", .text record.typeName) :: record.toFields)

/-- Reads a record of the named type. -/
def ofTyped? (type : String) (document : Document) : Option Record :=
  if type = "hart" then (HartRecord.ofDocument? document).map .hart
  else if type = "controller-bank" then (BankRecord.ofDocument? document).map .bank
  else if type = "msg-receiver" then (ReceiverRecord.ofDocument? document).map .receiver
  else if type = "isa-string" then (IsaRecord.ofDocument? document).map .isa
  else if type = "cache-block" then (CacheBlockRecord.ofDocument? document).map .cacheBlock
  else if type = "timer" then (TimerRecord.ofDocument? document).map .timer
  else none

/-- The record that a document describes, which says its type exactly once. -/
def ofDocument? : Document → Option Record
  | .record fields =>
    match fields.filter fun field => field.1 = "kind" with
    | [(_, .text type)] =>
      ofTyped? type (.record (fields.filter fun field => field.1 ≠ "kind"))
    | _ => none
  | .list (.text type :: items) => ofTyped? type (.list items)
  | _ => none

end Record

/-- The records of a store under the names of their kinds. -/
def Store.toDocument (store : Store) : Document :=
  .record [("objects", .record (store.buckets.map fun bucket =>
    (bucket.1.name, .list (bucket.2.map Record.toDocument))))]

end RiscvTables
