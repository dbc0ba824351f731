import RiscvTables.Text.Utf8

/-!
# Configuration records

What is known about a machine, one fact per record: its harts, the interrupt controller banks
and the message receiver that serve them, its instruction set, its cache blocks and its timer.
Discovery produces records and the table generator consumes them; neither needs to know the
other.

`Record` is any of them, for batches that mix types.  `RecordKind` is what a store sorts by: a
type of record has one kind, except that the two families of controller bank have one each.
-/

set_option autoImplicit false

namespace RiscvTables

/-- The version of every record layout. -/
def recordVersion : UInt8 := 1

/-- One hart.  The fields after the processor uid say how it is wired, and are 0 until it is. -/
structure HartRecord where
  version : UInt8
  flags : UInt32
  hartId : UInt64
  processorUid : UInt32
  externalId : UInt32
  imsicBase : UInt64
  imsicSize : UInt32
deriving DecidableEq, Repr

namespace HartRecord

/-- An enabled hart that is not wired to anything. -/
def fresh (hartId : UInt64) (processorUid : UInt32) : HartRecord :=
  { version := recordVersion, flags := 1, hartId, processorUid, externalId := 0, imsicBase := 0,
    imsicSize := 0 }

/-- Whether the hart may be used: bit 0 of the flags. -/
def isEnabled (hart : HartRecord) : Bool :=
  hart.flags &&& 1 ≠ 0

end HartRecord

/-- The two families of interrupt controller banks. -/
inductive BankFamily where
  | plic
  | aplic
deriving DecidableEq, Repr

namespace BankFamily

/-- The family's usual name. -/
def label : BankFamily → String
  | .plic => "PLIC"
  | .aplic => "APLIC"

/-- The hardware id of every bank of the family. -/
def hardwareId : BankFamily → Vector UInt8 8
  | .plic => #v[0x52, 0x53, 0x43, 0x56, 0x30, 0x30, 0x30, 0x31]
  | .aplic => #v[0x52, 0x53, 0x43, 0x56, 0x30, 0x30, 0x30, 0x32]

end BankFamily

/-- One interrupt controller bank.  Its sources have the global numbers from `gsiBase` on. -/
structure BankRecord where
  version : UInt8
  id : UInt32
  family : BankFamily
  hardwareId : Vector UInt8 8
  sources : UInt32
  idcs : UInt32
  base : UInt64
  size : UInt32
  gsiBase : UInt32
deriving DecidableEq, Repr

namespace BankRecord

/-- A bank of which only the family and the number are known. -/
def fresh (family : BankFamily) (id : UInt32) : BankRecord :=
  { version := recordVersion, id, family, hardwareId := family.hardwareId, sources := 0,
    idcs := 0, base := 0, size := 0, gsiBase := 0 }

/-- The hardware id as text. -/
def hardwareIdText (bank : BankRecord) : String :=
  Utf8.decodeLossy bank.hardwareId.toList

end BankRecord

/-- The receiver of message-signalled interrupts, and how it numbers its interrupt files. -/
structure ReceiverRecord where
  version : UInt8
  flags : UInt32
  ids : UInt32
  guestIds : UInt32
  guestIndexBits : UInt32
  hartIndexBits : UInt32
  groupIndexBits : UInt32
  groupIndexShift : UInt32
deriving DecidableEq, Repr

/-- The instruction set that all harts share, as an ISA string. -/
structure IsaRecord where
  isa : String
deriving DecidableEq, Repr

/-- The sizes of the blocks that cache management, prefetch and zeroing work on, each as the
base-2 logarithm of its bytes; 0 where there is no such operation. -/
structure CacheBlockRecord where
  cbom : UInt8
  cbop : UInt8
  cboz : UInt8
deriving DecidableEq, Repr

/-- The base-2 logarithm of a power of two, and 0 for 0. -/
def blockSizeLog2? (bytes : UInt64) : Option UInt8 :=
  if bytes = 0 then some 0
  else if 1 <<< bytes.toNat.log2 = bytes.toNat then some (UInt8.ofNat bytes.toNat.log2)
  else none

/-- The record for block sizes in bytes.  Each must be 0 or a power of two. -/
def CacheBlockRecord.ofByteSizes? (cbom cbop cboz : UInt64) : Option CacheBlockRecord := do
  return { cbom := ← blockSizeLog2? cbom, cbop := ← blockSizeLog2? cbop,
           cboz := ← blockSizeLog2? cboz }

/-- The timer: how many ticks a second has, and whether it can wake a sleeping cpu. -/
structure TimerRecord where
  frequency : UInt64
  cannotWakeCpu : Bool
deriving DecidableEq, Repr

/-! ## Records of any type -/

/-- What a store sorts records by. -/
inductive RecordKind where
  | hart
  | plic
  | aplic
  | imsic
  | isaString
  | cacheBlock
  | timer
deriving DecidableEq, Repr

namespace RecordKind

/-- The kind's place in the order of kinds. -/
def rank : RecordKind → Nat
  | .hart => 0
  | .plic => 1
  | .aplic => 2
  | .imsic => 3
  | .isaString => 4
  | .cacheBlock => 5
  | .timer => 6

theorem rank_injective {a b : RecordKind} (h : a.rank = b.rank) : a = b := by
  cases a <;> cases b <;> simp [rank] at h ⊢

/-- How a message names records of the kind. -/
def label : RecordKind → String
  | .hart => "hart"
  | .plic => "PLIC"
  | .aplic => "APLIC"
  | .imsic => "IMSIC"
  | .isaString => "ISA string"
  | .cacheBlock => "CMO"
  | .timer => "timer"

end RecordKind

/-- The kind of the banks of a family. -/
def BankFamily.kind : BankFamily → RecordKind
  | .plic => .plic
  | .aplic => .aplic

/-- A record of any type. -/
inductive Record where
  | hart (hart : HartRecord)
  | bank (bank : BankRecord)
  | receiver (receiver : ReceiverRecord)
  | isa (isa : IsaRecord)
  | cacheBlock (cacheBlock : CacheBlockRecord)
  | timer (timer : TimerRecord)
deriving DecidableEq, Repr

/-- The kind that a record is stored under. -/
def Record.kind : Record → RecordKind
  | .hart _ => .hart
  | .bank record => record.family.kind
  | .receiver _ => .imsic
  | .isa _ => .isaString
  | .cacheBlock _ => .cacheBlock
  | .timer _ => .timer

/-- A type of record: the kinds its records are stored under, the first of them the one that
messages name, and the way into and out of `Record`. -/
class RecordType (α : Type) where
  primaryKind : RecordKind
  otherKinds : List RecordKind
  ofRecord? : Record → Option α
  toRecord : α → Record

/-- All kinds that records of a type are stored under. -/
def RecordType.kinds (α : Type) [RecordType α] : List RecordKind :=
  primaryKind α :: otherKinds α

instance : RecordType HartRecord where
  primaryKind := .hart
  otherKinds := []
  ofRecord? | .hart hart => some hart | _ => none
  toRecord := .hart

instance : RecordType BankRecord where
  primaryKind := .plic
  otherKinds := [.aplic]
  ofRecord? | .bank bank => some bank | _ => none
  toRecord := .bank

instance : RecordType ReceiverRecord where
  primaryKind := .imsic
  otherKinds := []
  ofRecord? | .receiver receiver => some receiver | _ => none
  toRecord := .receiver

instance : RecordType IsaRecord where
  primaryKind := .isaString
  otherKinds := []
  ofRecord? | .isa isa => some isa | _ => none
  toRecord := .isa

instance : RecordType CacheBlockRecord where
  primaryKind := .cacheBlock
  otherKinds := []
  ofRecord? | .cacheBlock cacheBlock => some cacheBlock | _ => none
  toRecord := .cacheBlock

instance : RecordType TimerRecord where
  primaryKind := .timer
  otherKinds := []
  ofRecord? | .timer timer => some timer | _ => none
  toRecord := .timer

end RiscvTables
