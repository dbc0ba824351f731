import RiscvTables.Topology.Error

/-!
# The hart table

The harts in the order of their discovery.  Each resolver owns its own fields of a record: the
message receiver writes the interrupt file, the controller banks write the external id.  A bank
of one family may overwrite what an earlier one of the same family wrote, but never what the
other family did, so the table also remembers which family has wired a hart.
-/

set_option autoImplicit false

namespace RiscvTables

/-- A hart, and the family that has wired it. -/
structure HartEntry where
  record : HartRecord
  wiredBy : Option BankFamily
deriving DecidableEq, Repr

/-- The harts in the order of their discovery. -/
structure HartTable where
  entries : List HartEntry
deriving DecidableEq, Repr

namespace HartTable

/-- The table without harts. -/
def empty : HartTable := ⟨[]⟩

/-- The storage that a hart record takes, in bytes. -/
def recordSize : Nat := 40

/-- An empty table with room for `count` harts.  No block of storage has 2^63
bytes or more. -/
def withCapacity (count : Nat) : Except TopologyError HartTable :=
  if recordSize * count < 0x8000000000000000 then .ok empty
  else .error (.outOfResources "hart records" count)

variable (table : HartTable)

/-- The records, in order. -/
def records : List HartRecord :=
  table.entries.map (·.record)

/-- How many harts the table holds. -/
def size : Nat := table.entries.length

/-- The entry of the hart with the given id. -/
def entry? (hartId : UInt64) : Option HartEntry :=
  table.entries.find? fun entry => entry.record.hartId = hartId

/-- The record of the hart with the given id. -/
def get? (hartId : UInt64) : Option HartRecord :=
  (table.entry? hartId).map (·.record)

/-- Adds a hart at the end.  Its id must be new. -/
def push (record : HartRecord) : Except TopologyError HartTable :=
  match table.entry? record.hartId with
  | some _ => .error (.duplicateHart record.hartId)
  | none => .ok ⟨table.entries ++ [⟨record, none⟩]⟩

/-- The table with a function applied to the entry of one hart. -/
def adjust (hartId : UInt64) (f : HartEntry → HartEntry) : HartTable :=
  ⟨table.entries.map fun entry => if entry.record.hartId = hartId then f entry else entry⟩

/-! ## The receiver's fields -/

/-- Points a hart at its interrupt file. -/
def setInterruptFile (hartId base : UInt64) (size : UInt32) : Except TopologyError HartTable :=
  match table.entry? hartId with
  | none => .error (.unknownHart hartId)
  | some _ => .ok <| table.adjust hartId fun entry =>
      { entry with record := { entry.record with imsicBase := base, imsicSize := size } }

/-! ## The banks' field -/

/-- Records which context of which bank serves a hart. -/
def setExternalId (hartId : UInt64) (family : BankFamily) (externalId : UInt32) :
    Except TopologyError HartTable :=
  match table.entry? hartId with
  | none => .error (.unknownHart hartId)
  | some entry =>
    match entry.wiredBy with
    | some existing =>
      if existing = family then .ok wired
      else .error (.familyConflict hartId existing family)
    | none => .ok wired
where
  /-- The table with the hart wired by the family. -/
  wired : HartTable :=
    table.adjust hartId fun entry =>
      { record := { entry.record with externalId }, wiredBy := some family }

end HartTable
end RiscvTables
