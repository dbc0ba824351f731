import RiscvTables.Proofs.Outcome
import RiscvTables.Proofs.Topology.HartTable

/-!
# The hart table in two columns

In storage a hart table is two columns side by side: the records, and the families that have wired
them.  A call looks for the hart in the one column, and reads and writes both at the place where it
has found it.  It does so step by step, a place that is not there stops it, and what it has written
before it stops stays written.

That is safe as long as no two harts have the same id.  Then the first hart that is found is the
only one, both columns have its place, and all that can be refused is refused before anything is
written: a call in place ends as the call on the table does (`HartTable.Call.runOn_inPlace`).
-/

set_option autoImplicit false

namespace RiscvTables
namespace HartTable

/-! ## Calls -/

/-- What is asked of a hart table. -/
inductive Call where
  | push (record : HartRecord)
  | setInterruptFile (hartId base : UInt64) (size : UInt32)
  | setExternalId (hartId : UInt64) (family : BankFamily) (externalId : UInt32)
deriving DecidableEq, Repr

/-- The table after a call. -/
def call (table : HartTable) : Call → Except TopologyError HartTable
  | .push record => table.push record
  | .setInterruptFile hartId base size => table.setInterruptFile hartId base size
  | .setExternalId hartId family externalId => table.setExternalId hartId family externalId

/-! ## Columns -/

/-- The records of a table, and the families that have wired them. -/
structure Columns where
  harts : List HartRecord
  wiredBy : List (Option BankFamily)
deriving DecidableEq, Repr

/-- The columns of a table. -/
def columns (table : HartTable) : Columns where
  harts := table.records
  wiredBy := table.entries.map (·.wiredBy)

/-- Where a hart stands. -/
def Columns.position? (columns : Columns) (hartId : UInt64) : Option Nat :=
  columns.harts.findIdx? fun hart => hart.hartId = hartId

/-- Why a call stops. -/
inductive Stop where
  /-- The call is refused. -/
  | refused (error : TopologyError)
  /-- A column does not have the place. -/
  | outOfBounds (index : Nat)
deriving DecidableEq, Repr

/-- Steps on the columns.  What was done before a failure stays done. -/
abbrev InPlace (α : Type) : Type :=
  ExceptT Stop (StateM Columns) α

namespace InPlace

/-- The place of a hart that must be there. -/
def indexOf (hartId : UInt64) : InPlace Nat := do
  match (← get).position? hartId with
  | some index => return index
  | none => throw (.refused (.unknownHart hartId))

/-- Changes the record at a place. -/
def writeHart (index : Nat) (f : HartRecord → HartRecord) : InPlace Unit := do
  if index < (← get).harts.length then
    modify fun columns => { columns with harts := columns.harts.modify index f }
  else throw (.outOfBounds index)

/-- Reads the family at a place. -/
def readFamily (index : Nat) : InPlace (Option BankFamily) := do
  match (← get).wiredBy[index]? with
  | some family => return family
  | none => throw (.outOfBounds index)

/-- Writes the family at a place. -/
def writeFamily (index : Nat) (family : BankFamily) : InPlace Unit := do
  if index < (← get).wiredBy.length then
    modify fun columns => { columns with wiredBy := columns.wiredBy.set index (some family) }
  else throw (.outOfBounds index)

/-- Puts a record at the end of its column, and then no family beside it. -/
def push (record : HartRecord) : InPlace Unit := do
  if ((← get).position? record.hartId).isSome then
    throw (.refused (.duplicateHart record.hartId))
  else
    modify fun columns => { columns with harts := columns.harts ++ [record] }
    modify fun columns => { columns with wiredBy := columns.wiredBy ++ [none] }

/-- Writes the base of a hart's interrupt file, and then its size. -/
def setInterruptFile (hartId base : UInt64) (size : UInt32) : InPlace Unit := do
  let index ← indexOf hartId
  writeHart index fun hart => { hart with imsicBase := base }
  writeHart index fun hart => { hart with imsicSize := size }

/-- Writes a hart's external id, and then the family beside it. -/
def setExternalId (hartId : UInt64) (family : BankFamily) (externalId : UInt32) :
    InPlace Unit := do
  let index ← indexOf hartId
  match ← readFamily index with
  | some existing =>
    if existing ≠ family then throw (.refused (.familyConflict hartId existing family))
    else wire index
  | none => wire index
where
  /-- Wires the hart at a place. -/
  wire (index : Nat) : InPlace Unit := do
    writeHart index fun hart => { hart with externalId }
    writeFamily index family

end InPlace

/-- Carries out a call in place. -/
def Call.inPlace : Call → InPlace Unit
  | .push record => InPlace.push record
  | .setInterruptFile hartId base size => InPlace.setInterruptFile hartId base size
  | .setExternalId hartId family externalId => InPlace.setExternalId hartId family externalId

/-! ## Places -/

variable {table : HartTable} {hartId : UInt64}

theorem position?_columns (table : HartTable) (hartId : UInt64) :
    table.columns.position? hartId =
      table.entries.findIdx? fun entry => entry.record.hartId = hartId :=
  List.findIdx?_map

theorem position?_eq_none_iff :
    table.columns.position? hartId = none ↔ table.entry? hartId = none := by
  rw [position?_columns, entry?, List.findIdx?_eq_none_iff, List.find?_eq_none]
  simp only [Bool.not_eq_true]

/-- With distinct ids, the hart that is found is the only one that an adjustment changes. -/
theorem exists_index {entries : List HartEntry} {entry : HartEntry}
    (hnodup : (entries.map (·.record.hartId)).Nodup)
    (h : entries.find? (fun entry => entry.record.hartId = hartId) = some entry) :
    ∃ index, entries.findIdx? (fun entry => entry.record.hartId = hartId) = some index ∧
      entries[index]? = some entry ∧
      ∀ f : HartEntry → HartEntry,
        (entries.map fun entry => if entry.record.hartId = hartId then f entry else entry) =
          entries.modify index f := by
  induction entries with
  | nil => cases h
  | cons first rest ih =>
    obtain ⟨hfirst, hrest⟩ := List.nodup_cons.1 hnodup
    by_cases hid : first.record.hartId = hartId
    · rw [List.find?_cons_of_pos (by simpa using hid), Option.some.injEq] at h
      subst h
      refine ⟨0, ?_, rfl, fun f => ?_⟩
      · rw [List.findIdx?_cons, if_pos (decide_eq_true hid)]
      · have hothers : (rest.map fun entry =>
            if entry.record.hartId = hartId then f entry else entry) = rest := by
          refine (List.map_congr_left fun other hother => if_neg fun hsame => ?_).trans
            (List.map_id rest)
          exact hfirst (List.mem_map.2 ⟨other, hother, hsame.trans hid.symm⟩)
        rw [List.map_cons, if_pos hid, hothers, List.modify_zero_cons]
    · rw [List.find?_cons_of_neg (by simpa using hid)] at h
      obtain ⟨index, hindex, hentry, hmodify⟩ := ih hrest h
      refine ⟨index + 1, ?_, hentry, fun f => ?_⟩
      · rw [List.findIdx?_cons, if_neg (by simpa using hid), hindex, Option.map_some]
      · rw [List.map_cons, if_neg hid, hmodify, List.modify_succ_cons]

/-- With distinct ids, a hart of the table has a place, and adjusting its entry is changing both
columns there. -/
theorem exists_position {entry : HartEntry} (hnodup : (table.records.map (·.hartId)).Nodup)
    (h : table.entry? hartId = some entry) :
    ∃ index, table.columns.position? hartId = some index ∧
      table.columns.wiredBy[index]? = some entry.wiredBy ∧ index < table.columns.harts.length ∧
      ∀ (f : HartRecord → HartRecord) (g : Option BankFamily → Option BankFamily),
        (table.adjust hartId fun entry => ⟨f entry.record, g entry.wiredBy⟩).columns =
          ⟨table.columns.harts.modify index f, table.columns.wiredBy.modify index g⟩ := by
  rw [map_hartId_records] at hnodup
  obtain ⟨index, hindex, hentry, hmodify⟩ := exists_index hnodup h
  refine ⟨index, (position?_columns table hartId).trans hindex, ?_, ?_, fun f g => ?_⟩
  · rw [columns, List.getElem?_map, hentry, Option.map_some]
  · rw [columns, records, List.length_map]
    exact (List.getElem?_eq_some_iff.1 hentry).1
  · have hmap {β : Type} (field : HartEntry → β) (change : β → β)
        (hchange : ∀ entry : HartEntry,
          field ⟨f entry.record, g entry.wiredBy⟩ = change (field entry)) :
        (table.entries.modify index fun entry => ⟨f entry.record, g entry.wiredBy⟩).map field =
          (table.entries.map field).modify index change := by
      refine List.ext_getElem? fun place => ?_
      rw [List.getElem?_map, List.getElem?_modify, List.getElem?_modify, List.getElem?_map]
      cases table.entries[place]? with
      | none => rfl
      | some entry =>
        by_cases hplace : index = place <;> simp [hplace, hchange]
    rw [adjust, hmodify, columns, records, hmap _ f fun _ => rfl, hmap _ g fun _ => rfl]
    rfl

/-! ## Calls in place -/

namespace InPlace

variable {columns : Columns} {index : Nat}

open ExceptT

theorem runOn_indexOf (columns : Columns) (hartId : UInt64) :
    (indexOf hartId).runOn columns =
      match columns.position? hartId with
      | some index => (.ok index, columns)
      | none => (.error (.refused (.unknownHart hartId)), columns) := by
  rw [indexOf, runOn_get_bind]
  cases columns.position? hartId <;> rfl

theorem runOn_writeHart (h : index < columns.harts.length) (f : HartRecord → HartRecord) :
    (writeHart index f).runOn columns =
      (.ok (), { columns with harts := columns.harts.modify index f }) := by
  rw [writeHart, runOn_get_bind, if_pos h]
  rfl

theorem runOn_readFamily {family : Option BankFamily} (h : columns.wiredBy[index]? = some family) :
    (readFamily index).runOn columns = (.ok family, columns) := by
  rw [readFamily, runOn_get_bind, h]
  rfl

theorem runOn_writeFamily {wiredBy : List (Option BankFamily)} (h : index < wiredBy.length)
    (harts : List HartRecord) (family : BankFamily) :
    (writeFamily index family).runOn ⟨harts, wiredBy⟩ =
      (.ok (), ⟨harts, wiredBy.set index (some family)⟩) := by
  rw [writeFamily, runOn_get_bind]
  exact congrArg (fun steps : InPlace Unit => steps.runOn ⟨harts, wiredBy⟩) (if_pos h)

theorem runOn_push (table : HartTable) (record : HartRecord) :
    (push record).runOn table.columns =
      match table.push record with
      | .error error => (.error (.refused error), table.columns)
      | .ok after => (.ok (), after.columns) := by
  rw [push, runOn_get_bind, HartTable.push]
  cases hentry : table.entry? record.hartId with
  | none =>
    rw [position?_eq_none_iff.2 hentry, if_neg (by simp)]
    simp [runOn_bind, runOn_modify, HartTable.columns, records]
  | some entry =>
    have hposition : (table.columns.position? record.hartId).isSome := by
      rw [Option.isSome_iff_ne_none, Ne, position?_eq_none_iff, hentry]
      exact Option.some_ne_none entry
    rw [if_pos hposition]
    rfl

theorem runOn_setInterruptFile (hnodup : (table.records.map (·.hartId)).Nodup)
    (hartId base : UInt64) (size : UInt32) :
    (setInterruptFile hartId base size).runOn table.columns =
      match table.setInterruptFile hartId base size with
      | .error error => (.error (.refused error), table.columns)
      | .ok after => (.ok (), after.columns) := by
  rw [setInterruptFile, runOn_bind, runOn_indexOf, HartTable.setInterruptFile]
  cases hentry : table.entry? hartId with
  | none =>
    rw [position?_eq_none_iff.2 hentry]
  | some entry =>
    obtain ⟨index, hindex, -, hlt, hadjust⟩ := exists_position hnodup hentry
    have hlt' : index < (table.columns.harts.modify index fun hart =>
        { hart with imsicBase := base }).length := by rwa [List.length_modify]
    simp only [hindex]
    rw [runOn_bind_of_ok (runOn_writeHart hlt _), runOn_writeHart hlt', List.modify_modify_eq]
    have hafter := hadjust (fun hart => { hart with imsicBase := base, imsicSize := size }) id
    rw [List.modify_id] at hafter
    exact Prod.ext rfl hafter.symm

theorem runOn_setExternalId (hnodup : (table.records.map (·.hartId)).Nodup)
    (hartId : UInt64) (family : BankFamily) (externalId : UInt32) :
    (setExternalId hartId family externalId).runOn table.columns =
      match table.setExternalId hartId family externalId with
      | .error error => (.error (.refused error), table.columns)
      | .ok after => (.ok (), after.columns) := by
  rw [setExternalId, runOn_bind, runOn_indexOf, HartTable.setExternalId]
  cases hentry : table.entry? hartId with
  | none =>
    rw [position?_eq_none_iff.2 hentry]
  | some entry =>
    obtain ⟨index, hindex, hfamily, hlt, hadjust⟩ := exists_position hnodup hentry
    have hwire : (setExternalId.wire family externalId index).runOn table.columns =
        (.ok (), (setExternalId.wired table hartId family externalId).columns) := by
      have hplace := (List.getElem?_eq_some_iff.1 hfamily).1
      rw [setExternalId.wire, runOn_bind_of_ok (runOn_writeHart hlt _),
        runOn_writeFamily hplace, List.set_eq_modify]
      exact Prod.ext rfl (hadjust (fun hart => { hart with externalId }) fun _ => some family).symm
    simp only [hindex]
    rw [runOn_bind_of_ok (runOn_readFamily hfamily)]
    cases hwired : entry.wiredBy with
    | none => simp only [hwire]
    | some existing =>
      by_cases hsame : existing = family
      · simp only [hsame, ne_eq, not_true_eq_false, if_false, if_true, hwire]
      · simp only [hsame, ne_eq, not_false_eq_true, if_false, if_true]
        rfl

end InPlace

/-- **A call in place ends as the call on the table does.**  One that is refused leaves the columns
as they were, and none stops at a place that is not there. -/
theorem Call.runOn_inPlace (hnodup : (table.records.map (·.hartId)).Nodup) (c : Call) :
    c.inPlace.runOn table.columns =
      match table.call c with
      | .error error => (.error (.refused error), table.columns)
      | .ok after => (.ok (), after.columns) := by
  cases c with
  | push record => exact InPlace.runOn_push table record
  | setInterruptFile hartId base size =>
    exact InPlace.runOn_setInterruptFile hnodup hartId base size
  | setExternalId hartId family externalId =>
    exact InPlace.runOn_setExternalId hnodup hartId family externalId

end HartTable
end RiscvTables
