import RiscvTables.Record.Store
import RiscvTables.Text.Numeral

/-!
# Why a table could not be built or read
-/

set_option autoImplicit false

namespace RiscvTables

/-- What is wrong with the body of a node. -/
inductive NodeFault where
  /-- The node's length does not even cover its header. -/
  | shortLength (length : Nat)
  /-- The ISA string is longer than the rest of its node. -/
  | isaOverrun (length : Nat)
  /-- There are more offsets than fit the node. -/
  | offsetsOverrun (count : Nat)
  /-- An offset points where no node starts. -/
  | badReference (offset : UInt32)
deriving DecidableEq, Repr

/-- The wording of a fault. -/
def NodeFault.message : NodeFault → String
  | .shortLength length => s!"length {length} is shorter than a node header"
  | .isaOverrun length => s!"ISA length {length} overruns the node"
  | .offsetsOverrun count => s!"{count} offsets overrun the node"
  | .badReference offset => s!"offset {Numeral.hex offset.toNat} is not a node"

/-- Why a table could not be built or read. -/
inductive RhctError where
  /-- No table of that revision can be built. -/
  | unsupportedRevision (requested min max : UInt8)
  /-- There are no records of a kind that a table cannot do without. -/
  | missingRecords (kind : RecordKind)
  /-- A node's length would not fit 16 bits. -/
  | nodeTooLarge (node : String) (length : Nat)
  /-- The table's size would not fit 32 bits. -/
  | tableTooLarge (size : Nat)
  /-- There is no room for something. -/
  | outOfResources (what : String) (count : Nat)
  /-- A node was not written where the layout has it. -/
  | layoutMismatch (offset actual : Nat)
  /-- The store failed. -/
  | store (cause : StoreError)
  /-- The table ends before a header or a node does. -/
  | truncated (offset needed : Nat)
  /-- The table's signature is another. -/
  | badSignature (signature : Bytes)
  /-- The table's length field is wrong. -/
  | lengthMismatch (header : UInt32) (actual : Nat)
  /-- The bytes do not sum to zero. -/
  | badChecksum (sum : UInt8)
  /-- A node contradicts itself or the table. -/
  | badNode (offset : Nat) (fault : NodeFault)
deriving DecidableEq, Repr

namespace RhctError

/-- The wording of the error. -/
def message : RhctError → String
  | .unsupportedRevision requested min max =>
    s!"requested table revision {requested.toNat} is not supported " ++
      s!"(supported: {min.toNat}..={max.toNat})"
  | .missingRecords kind => s!"no {kind.label} records to build the table from"
  | .nodeTooLarge node length => s!"{node} node length {length} exceeds 65535 bytes"
  | .tableTooLarge size => s!"table size {size} exceeds 4 GiB"
  | .outOfResources what count => s!"could not reserve {count} bytes for {what}"
  | .layoutMismatch offset actual =>
    s!"node at offset {Numeral.hex offset} landed at {Numeral.hex actual}"
  | .store cause => cause.message
  | .truncated offset needed =>
    s!"table truncated: need {needed} bytes at offset {Numeral.hex offset}"
  | .badSignature signature =>
    let bytes := String.intercalate ", " (signature.map fun b => toString b.toNat)
    s!"bad signature [{bytes}], expected \"RHCT\""
  | .lengthMismatch header actual =>
    s!"header length {header.toNat} does not match table size {actual}"
  | .badChecksum sum => s!"checksum mismatch: bytes sum to {Numeral.hexPadded 2 sum.toNat}"
  | .badNode offset fault =>
    s!"malformed node at offset {Numeral.hex offset}: {fault.message}"

/-- What sort of failure the error is. -/
def kind : RhctError → ErrorKind
  | .missingRecords _ => .notFound
  | .outOfResources .. => .outOfResources
  | .layoutMismatch .. => .aborted
  | .store cause => cause.kind
  | .unsupportedRevision .. | .nodeTooLarge .. | .tableTooLarge _ | .truncated ..
  | .badSignature _ | .lengthMismatch .. | .badChecksum _ | .badNode .. => .invalidParameter

end RhctError
end RiscvTables
