import RiscvTables.Record.Store
import RiscvTables.Rhct.Index
import RiscvTables.Rhct.View

/-!
# Building a table

A table is built from the records of a store in three steps.  `Inputs.fetch` takes the records
out of the store; `Inputs.layOut` decides where each node goes; `Inputs.write` writes the nodes
and checks that each lands where it was put.  The order of the nodes is fixed: the ISA string, the
cache blocks, the harts.  Every hart refers to the ISA string and to the first cache-block node.

A `Generator` also keeps the node index of the table it built last.
-/

set_option autoImplicit false

namespace RiscvTables
namespace Rhct

/-- The only revision of the table that can be built. -/
def tableRevision : UInt8 := 1

/-- The records that a table is made from. -/
structure Inputs where
  timer : TimerRecord
  isa : Option IsaRecord
  cacheBlocks : List CacheBlockRecord
  harts : List HartRecord
deriving DecidableEq, Repr

/-- Where the nodes of a table go, and how large it is. -/
structure Layout where
  index : NodeIndex
  size : UInt32
deriving DecidableEq, Repr

/-- A failure of the store, told as that of the table. -/
def ofStore {α : Type} (fetched : Except StoreError α) : Except RhctError α :=
  fetched.mapError .store

namespace Inputs

/-- The records of a store that a table is made from. -/
def fetch (store : Store) : Except RhctError Inputs := do
  let timer ← ofStore (store.fetchSingle TimerRecord)
  let isa ← ofStore (store.fetchOptional IsaRecord)
  let harts := store.fetchAll HartRecord
  if harts = [] then throw (.missingRecords .hart)
  return { timer, isa, cacheBlocks := store.fetchAll CacheBlockRecord, harts }

variable (inputs : Inputs)

/-! ## Layout -/

/-- How many offsets each hart node lists. -/
def referenceCount : Nat :=
  (if inputs.isa.isSome then 1 else 0) + (if inputs.cacheBlocks = [] then 0 else 1)

/-- The source and the length of each node, in table order. -/
def nodeSizes : List (NodeSource × Nat) :=
  inputs.isa.toList.map (fun record => (.isaString, isaStringSize record.isa)) ++
    inputs.cacheBlocks.zipIdx.map (fun p => (.cacheBlock p.2, cacheBlocksSize)) ++
    inputs.harts.zipIdx.map fun p =>
      (.hartInfo p.2 p.1.processorUid, hartInfoSize inputs.referenceCount)

/-- An offset as a 32-bit number, if it fits. -/
def tableOffset (offset : Nat) : Except RhctError UInt32 :=
  if offset < UInt32.size then .ok (UInt32.ofNat offset) else .error (.tableTooLarge offset)

/-- Places nodes one after the other from an offset on. -/
def place (offset : Nat) : List (NodeSource × Nat) → Except RhctError Layout
  | [] => do return { index := NodeIndex.empty, size := ← tableOffset offset }
  | (source, length) :: rest => do
    let start ← tableOffset offset
    let layout ← place (offset + length) rest
    return { layout with index := ⟨⟨source, start⟩ :: layout.index.entries⟩ }

/-- Where the nodes go.  The length of a node must fit 16 bits and the size of the table 32;
only an ISA string can make a node too long. -/
def layOut : Except RhctError Layout := do
  if let some record := inputs.isa then
    if 0xffff < isaStringSize record.isa then
      throw (.nodeTooLarge "ISA string" (isaStringSize record.isa))
  place tableHeaderSize inputs.nodeSizes

/-! ## Writing -/

/-- The offsets that each hart node lists. -/
def references (index : NodeIndex) : List UInt32 :=
  (index.offsetOf? .isaString).toList ++ (index.offsetOf? (.cacheBlock 0)).toList

/-- The nodes in table order. -/
def nodeBodies (index : NodeIndex) : List NodeBody :=
  inputs.isa.toList.map (fun record => .isaString record.isa) ++
    inputs.cacheBlocks.map (fun record => .cacheBlocks record.cbom record.cbop record.cboz) ++
    inputs.harts.map fun record => .hartInfo record.processorUid (references index)

/-- Writes nodes from a position on, each of which must be where its entry has it. -/
def writeNodes (position : Nat) : List IndexEntry → List NodeBody → Except RhctError Bytes
  | _, [] => .ok []
  | [], _ :: _ => .error (.layoutMismatch 0 position)
  | entry :: entries, body :: bodies =>
    if entry.offset.toNat ≠ position then
      .error (.layoutMismatch entry.offset.toNat position)
    else do
      let bytes := body.encode
      return bytes ++ (← writeNodes (position + bytes.length) entries bodies)

/-- The fields between the description header and the nodes. -/
def tableFields (nodeCount : Nat) : Bytes :=
  LittleEndian.encode 4 (if inputs.timer.cannotWakeCpu then 1 else 0) ++
    LittleEndian.encode 8 inputs.timer.frequency.toNat ++
    LittleEndian.encode 4 nodeCount ++ LittleEndian.encode 4 tableHeaderSize

/-- Writes the table that was laid out. -/
def write (stamper : Stamper) (info : TableInfo) (layout : Layout) : Except RhctError Bytes := do
  let header ← stamper signature layout.size info
  let nodes ← writeNodes tableHeaderSize layout.index.entries (inputs.nodeBodies layout.index)
  let bytes := header.toList ++ inputs.tableFields layout.index.size ++ nodes
  if bytes.length ≠ layout.size.toNat then
    throw (.layoutMismatch layout.size.toNat bytes.length)
  return finalizeChecksum bytes

end Inputs

/-- The table for the records of a store, and the index of its nodes. -/
def build (stamper : Stamper) (info : TableInfo) (store : Store) :
    Except RhctError (Bytes × NodeIndex) := do
  if info.revision ≠ tableRevision then
    throw (.unsupportedRevision info.revision tableRevision tableRevision)
  let inputs ← Inputs.fetch store
  let layout ← inputs.layOut
  return (← inputs.write stamper info layout, layout.index)

/-! ## Generators -/

/-- A way of stamping headers, and the index of the table built last. -/
structure Generator where
  stamper : Stamper := stampIdentity
  index : Option NodeIndex := none

namespace Generator

/-- Builds a table and keeps its index.  After a failure there is no index. -/
def buildTable (generator : Generator) (info : TableInfo) (store : Store) :
    Except RhctError Bytes × Generator :=
  match build generator.stamper info store with
  | .error error => (.error error, { generator with index := none })
  | .ok (table, index) => (.ok table, { generator with index := some index })

/-- Gives up the index together with a table. -/
def freeTable (generator : Generator) (_table : Bytes) : Generator :=
  { generator with index := none }

end Generator
end Rhct
end RiscvTables
