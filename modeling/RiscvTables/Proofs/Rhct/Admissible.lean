import RiscvTables.Proofs.Rhct.Entries

/-!
# What a table can be built from

`checks` lists the conditions that the records of a store and the makers of a table have to meet,
in the order in which a build looks at them, each with the error of a build that fails it.  The
payoff is `Generator.buildTable_checked`: the first condition that is not met is the error, and if
all are met there is a table, laid out as planned (`IsLaidOut`).  That a node was not written where
it was planned is no error of any condition, so it never happens.
-/

set_option autoImplicit false

namespace RiscvTables
namespace Rhct

/-- A condition for a build, and the error of a build that does not meet it. -/
structure Check where
  passes : Bool
  error : RhctError
deriving DecidableEq, Repr

/-- The conditions for a build, in the order in which they are looked at. -/
def checks (info : TableInfo) (store : Store) : List Check :=
  [{ passes := info.revision = tableRevision
     error := .unsupportedRevision info.revision tableRevision tableRevision },
    { passes := (store.fetchAll TimerRecord).length = 1
      error := .store (Store.notSingle .timer (store.fetchAll TimerRecord).length) },
    { passes := (store.fetchAll IsaRecord).length ≤ 1
      error := .store (.tooMany .isaString 1 (store.fetchAll IsaRecord).length) },
    { passes := store.fetchAll HartRecord ≠ []
      error := .missingRecords .hart },
    { passes := ∀ record ∈ store.fetchAll IsaRecord,
        (Utf8.encode record.isa).length ≤ maxIsaLength
      error := .nodeTooLarge "ISA string" ((isaNodes store).map (·.2.size)).sum },
    { passes := tableHeaderSize + (nodeLengths store).sum < UInt32.size
      error := .tableTooLarge ((firstTooLarge? tableHeaderSize (nodeLengths store)).getD 0) }]

/-- The first condition that is not met. -/
def failed? (info : TableInfo) (store : Store) : Option Check :=
  (checks info store).find? fun check => !check.passes

variable {info : TableInfo} {store : Store} {inputs : Inputs}

/-! ## Records that cannot be fetched -/

theorem fetch_of_timers (h : (store.fetchAll TimerRecord).length ≠ 1) :
    Inputs.fetch store =
      .error (.store (Store.notSingle .timer (store.fetchAll TimerRecord).length)) := by
  rw [Inputs.fetch, Store.fetchSingle_eq_error h]
  rfl

theorem fetch_of_isa (htimer : (store.fetchAll TimerRecord).length = 1)
    (h : ¬ (store.fetchAll IsaRecord).length ≤ 1) :
    Inputs.fetch store =
      .error (.store (.tooMany .isaString 1 (store.fetchAll IsaRecord).length)) := by
  obtain ⟨timer, htimer⟩ := List.length_eq_one_iff.1 htimer
  rw [Inputs.fetch, Store.fetchSingle_eq_ok_iff.2 htimer,
    Store.fetchOptional_eq_error (Nat.lt_of_not_le h)]
  rfl

/-- An optional record as the list of its records. -/
theorem exists_toList_eq {α : Type} {records : List α} (h : records.length ≤ 1) :
    ∃ found : Option α, records = found.toList :=
  match records, h with
  | [], _ => ⟨none, rfl⟩
  | [record], _ => ⟨some record, rfl⟩

theorem fetch_of_harts (htimer : (store.fetchAll TimerRecord).length = 1)
    (hisa : (store.fetchAll IsaRecord).length ≤ 1) (h : store.fetchAll HartRecord = []) :
    Inputs.fetch store = .error (.missingRecords .hart) := by
  obtain ⟨timer, htimer⟩ := List.length_eq_one_iff.1 htimer
  obtain ⟨isa, hisa⟩ := exists_toList_eq hisa
  rw [Inputs.fetch, Store.fetchSingle_eq_ok_iff.2 htimer, Store.fetchOptional_eq_ok_iff.2 hisa]
  exact if_pos h

theorem exists_fetch_eq_ok (htimer : (store.fetchAll TimerRecord).length = 1)
    (hisa : (store.fetchAll IsaRecord).length ≤ 1) (h : store.fetchAll HartRecord ≠ []) :
    ∃ inputs, Inputs.fetch store = .ok inputs := by
  obtain ⟨timer, htimer⟩ := List.length_eq_one_iff.1 htimer
  obtain ⟨isa, hisa⟩ := exists_toList_eq hisa
  exact ⟨⟨timer, isa, _, _⟩, Inputs.fetch_eq_ok_iff.2 ⟨htimer, hisa, rfl, rfl, h⟩⟩

/-! ## Nodes and tables that are too large -/

/-- The ISA strings that fit their node. -/
theorem isaStringSize_le_of_fetch (hfetch : Inputs.fetch store = .ok inputs) :
    (∀ record ∈ store.fetchAll IsaRecord, (Utf8.encode record.isa).length ≤ maxIsaLength) ↔
      ∀ record, inputs.isa = some record → isaStringSize record.isa ≤ 0xffff := by
  rw [(Inputs.fetch_eq_ok_iff.1 hfetch).2.1]
  simp only [Option.mem_toList, isaStringSize_le_iff]

theorem build_of_isa_too_long (hrevision : info.revision = tableRevision)
    (hfetch : Inputs.fetch store = .ok inputs)
    (h : ¬ ∀ record ∈ store.fetchAll IsaRecord, (Utf8.encode record.isa).length ≤ maxIsaLength) :
    build stampIdentity info store =
      .error (.nodeTooLarge "ISA string" ((isaNodes store).map (·.2.size)).sum) := by
  rw [isaStringSize_le_of_fetch hfetch] at h
  simp only [not_forall, Nat.not_le] at h
  obtain ⟨record, hrecord, hlong⟩ := h
  have hsum : ((isaNodes store).map (·.2.size)).sum = isaStringSize record.isa := by
    rw [isaNodes, (Inputs.fetch_eq_ok_iff.1 hfetch).2.1, hrecord]
    rfl
  rw [build_of_fetch hrevision hfetch, Inputs.layOut_of_isa_too_long hrecord hlong, hsum]
  rfl

theorem build_of_table_too_large (hrevision : info.revision = tableRevision)
    (hfetch : Inputs.fetch store = .ok inputs)
    (hisa : ∀ record ∈ store.fetchAll IsaRecord, (Utf8.encode record.isa).length ≤ maxIsaLength)
    (h : ¬ tableHeaderSize + (nodeLengths store).sum < UInt32.size) :
    build stampIdentity info store =
      .error (.tableTooLarge ((firstTooLarge? tableHeaderSize (nodeLengths store)).getD 0)) := by
  obtain ⟨size, -, hsize⟩ := exists_firstTooLarge? (Nat.le_of_not_lt h)
  rw [build_of_fetch hrevision hfetch,
    Inputs.layOut_eq_place ((isaStringSize_le_of_fetch hfetch).1 hisa),
    Inputs.place_eq_error (map_snd_nodeSizes hfetch ▸ hsize), hsize]
  rfl

/-! ## The first condition that is not met -/

theorem build_of_fetch_error {error : RhctError} (hrevision : info.revision = tableRevision)
    (h : Inputs.fetch store = .error error) : build stampIdentity info store = .error error := by
  rw [build, if_neg (not_not.2 hrevision), h]
  rfl

theorem find?_cons_check (check : Check) (rest : List Check) :
    (check :: rest).find? (fun check => !check.passes) =
      if check.passes then rest.find? fun check => !check.passes else some check := by
  cases hpasses : check.passes <;> simp [hpasses]

/-- **A build fails with the first condition that is not met.** -/
theorem build_of_failed? {check : Check} (h : failed? info store = some check) :
    build stampIdentity info store = .error check.error := by
  rw [failed?, checks] at h
  simp only [find?_cons_check, List.find?_nil, decide_eq_true_eq] at h
  split_ifs at h with hrevision htimer hisa hharts hlong hlarge <;> obtain rfl := Option.some.inj h
  · obtain ⟨inputs, hfetch⟩ := exists_fetch_eq_ok htimer hisa hharts
    exact build_of_table_too_large hrevision hfetch hlong hlarge
  · obtain ⟨inputs, hfetch⟩ := exists_fetch_eq_ok htimer hisa hharts
    exact build_of_isa_too_long hrevision hfetch hlong
  · exact build_of_fetch_error hrevision (fetch_of_harts htimer hisa (not_not.1 hharts))
  · exact build_of_fetch_error hrevision (fetch_of_isa htimer hisa)
  · exact build_of_fetch_error hrevision (fetch_of_timers htimer)
  · exact build_of_revision_ne hrevision

/-- **A build of which all conditions are met succeeds.** -/
theorem exists_build_of_checks (h : failed? info store = none) :
    ∃ table index, build stampIdentity info store = .ok (table, index) ∧
      IsLaidOut store table index := by
  rw [failed?, checks] at h
  simp only [find?_cons_check, List.find?_nil, decide_eq_true_eq] at h
  split_ifs at h with hrevision htimer hisa hharts hlong hfits
  obtain ⟨inputs, hfetch⟩ := exists_fetch_eq_ok htimer hisa hharts
  have hlayout := Inputs.layOut_eq_ok_iff.2 ⟨(isaStringSize_le_of_fetch hfetch).1 hlong,
    tableSize_of_fetch hfetch ▸ hfits, rfl⟩
  refine ⟨_, _, ?_, isLaidOut_of_fetch info hfetch hlayout⟩
  rw [build_of_fetch hrevision hfetch, hlayout]
  rfl

theorem failed?_eq_none_iff :
    failed? info store = none ↔ ∀ check ∈ checks info store, check.passes := by
  rw [failed?, List.find?_eq_none]
  simp only [Bool.not_eq_true', Bool.not_eq_false]

theorem error_ne_layoutMismatch {check : Check} (h : check ∈ checks info store)
    (offset actual : Nat) : check.error ≠ .layoutMismatch offset actual := by
  simp only [checks, List.mem_cons, List.not_mem_nil, or_false] at h
  rcases h with rfl | rfl | rfl | rfl | rfl | rfl <;> exact nofun

/-- **A build is checked in order, and then does what was planned.**  The first condition that is
not met is the error, and there is no index.  If all are met there is a table, and it is laid out
for the records of the store as its index says.  No node is ever found out of its place. -/
theorem Generator.buildTable_checked (info : TableInfo) (store : Store)
    (previous : Option NodeIndex) :
    (match failed? info store with
      | some check => buildTable ⟨stampIdentity, previous⟩ info store =
          (.error check.error, ⟨stampIdentity, none⟩)
      | none => ∃ table index, buildTable ⟨stampIdentity, previous⟩ info store =
          (.ok table, ⟨stampIdentity, some index⟩) ∧ IsLaidOut store table index) ∧
      ((∃ table, (buildTable ⟨stampIdentity, previous⟩ info store).1 = .ok table) ↔
        ∀ check ∈ checks info store, check.passes) ∧
      ∀ offset actual, (buildTable ⟨stampIdentity, previous⟩ info store).1 ≠
        .error (.layoutMismatch offset actual) := by
  rw [← failed?_eq_none_iff]
  cases hfailed : failed? info store with
  | some check =>
    have hbuild : buildTable ⟨stampIdentity, previous⟩ info store =
        (.error check.error, ⟨stampIdentity, none⟩) := by
      rw [buildTable, build_of_failed? hfailed]
    refine ⟨hbuild, ?_, fun offset actual herror => ?_⟩
    · simp [hbuild]
    · rw [hbuild, Except.error.injEq] at herror
      exact error_ne_layoutMismatch (List.mem_of_find?_eq_some hfailed) offset actual herror
  | none =>
    obtain ⟨table, index, hbuild, hlaidOut⟩ := exists_build_of_checks hfailed
    have hbuild : buildTable ⟨stampIdentity, previous⟩ info store =
        (.ok table, ⟨stampIdentity, some index⟩) := by
      rw [buildTable, hbuild]
    refine ⟨⟨table, index, hbuild, hlaidOut⟩, ?_, ?_⟩
    · simp [hbuild]
    · simp [hbuild]

/-- The sample records meet all conditions, and their five nodes stand where their lengths put
them. -/
theorem Generator.buildTable_sampleStore :
    failed? sampleInfo sampleStore = none ∧ nodeLengths sampleStore = [16, 10, 10, 20, 20] ∧
      ∃ table index, buildTable ⟨stampIdentity, none⟩ sampleInfo sampleStore =
          (.ok table, ⟨stampIdentity, some index⟩) ∧ IsLaidOut sampleStore table index ∧
        table.length = 132 ∧ index.entries.map (·.offset) = [56, 72, 82, 92, 112] := by
  have hpasses : failed? sampleInfo sampleStore = none := by decide +kernel
  have hlengths : nodeLengths sampleStore = [16, 10, 10, 20, 20] := by decide +kernel
  have hchecked := (buildTable_checked sampleInfo sampleStore none).1
  rw [hpasses] at hchecked
  obtain ⟨table, index, hbuild, hlaidOut⟩ := hchecked
  have hoffsets : ((buildTable ⟨stampIdentity, none⟩ sampleInfo sampleStore).2.index.map
      fun index => index.entries.map (·.offset)) = some [56, 72, 82, 92, 112] := by decide +kernel
  rw [hbuild] at hoffsets
  exact ⟨hpasses, hlengths, table, index, hbuild, hlaidOut,
    hlaidOut.length.trans (by rw [hlengths]; rfl), Option.some.inj hoffsets⟩

/-- Nothing at all is told as the lack of a timer, the first of the records that are missing. -/
example : (failed? sampleInfo Store.empty).map (·.error) = some (.store (.notFound .timer)) := by
  decide +kernel

end Rhct
end RiscvTables
