import Mathlib.Data.List.Induction
import RiscvTables.Proofs.Outcome
import RiscvTables.Proofs.Topology.HartColumns

/-!
# Who owns what in a hart table

The calls that a table has accepted are its history, and all that is in the table can be read off
it.  Each record is the one that was pushed, but for the interrupt file, which is the last one that
was set for the hart, and the external id, which is the last one too (`HartTable.settled`).  What is
refused is also decided by the history alone (`HartTable.refusal?`): a second hart of the same id, a
hart that is not there, and a family other than the one that has wired the hart.

A `Session` is a table that calls of any kind are made to, refused ones among them.  Its columns are
those of the table that the accepted calls build, `Session.Owned` says what that means for whoever
looks at them, and it holds after any calls.  A hart that has once been wired is never taken
by the other family again, whatever happens in between (`Session.ownership_law`).
-/

set_option autoImplicit false

namespace RiscvTables
namespace HartTable

/-! ## Histories

These are functions of the calls, and no table appears in them.  What was set last stands last, so
each has a lemma for one more call at the end. -/

/-- The record that a call pushes. -/
def Call.pushed? : Call → Option HartRecord
  | .push record => some record
  | _ => none

/-- The interrupt file, its base and its size, that a call sets for a hart. -/
def Call.interruptFile? (hartId : UInt64) : Call → Option (UInt64 × UInt32)
  | .setInterruptFile other base size => if other = hartId then some (base, size) else none
  | _ => none

/-- The external id that a call sets for a hart, and for which family. -/
def Call.wiring? (hartId : UInt64) : Call → Option (BankFamily × UInt32)
  | .setExternalId other family externalId =>
    if other = hartId then some (family, externalId) else none
  | _ => none

/-- The records that have been pushed, in order. -/
def pushed (history : List Call) : List HartRecord :=
  history.filterMap Call.pushed?

/-- The ids of the harts that are there. -/
def hartIds (history : List Call) : List UInt64 :=
  (pushed history).map (·.hartId)

/-- The interrupt file that has been set last for a hart. -/
def lastInterruptFile? (history : List Call) (hartId : UInt64) : Option (UInt64 × UInt32) :=
  (history.filterMap (Call.interruptFile? hartId)).getLast?

/-- The external id that has been set last for a hart. -/
def lastWiring? (history : List Call) (hartId : UInt64) : Option (BankFamily × UInt32) :=
  (history.filterMap (Call.wiring? hartId)).getLast?

/-- A record as it is after some calls: the interrupt file and the external id are the last ones
that have been set for the hart, and the rest is as it was pushed. -/
def settled (history : List Call) (record : HartRecord) : HartRecord :=
  let (base, size) :=
    (lastInterruptFile? history record.hartId).getD (record.imsicBase, record.imsicSize)
  let externalId := ((lastWiring? history record.hartId).map Prod.snd).getD record.externalId
  { record with imsicBase := base, imsicSize := size, externalId }

/-- The family that has wired a hart. -/
def wiredFamily? (history : List Call) (hartId : UInt64) : Option BankFamily :=
  (lastWiring? history hartId).map Prod.fst

/-- Why a call is refused after some others, if it is. -/
def refusal? (history : List Call) : Call → Option TopologyError
  | .push record =>
    if record.hartId ∈ hartIds history then some (.duplicateHart record.hartId)
    else none
  | .setInterruptFile hartId _ _ =>
    if hartId ∈ hartIds history then none else some (.unknownHart hartId)
  | .setExternalId hartId family _ =>
    if hartId ∈ hartIds history then
      match wiredFamily? history hartId with
      | some existing =>
        if existing = family then none else some (.familyConflict hartId existing family)
      | none => none
    else some (.unknownHart hartId)

section History

variable {history : List Call} {hartId : UInt64}

theorem getLast?_filterMap_concat {α β : Type} (f : α → Option β) (l : List α) (a : α) :
    ((l ++ [a]).filterMap f).getLast? = (f a).or (l.filterMap f).getLast? := by
  rw [List.filterMap_append, List.getLast?_append]
  cases hlast : f a <;> simp [hlast]

theorem lastInterruptFile?_concat (history : List Call) (c : Call) (hartId : UInt64) :
    lastInterruptFile? (history ++ [c]) hartId =
      (c.interruptFile? hartId).or (lastInterruptFile? history hartId) :=
  getLast?_filterMap_concat _ history c

theorem lastWiring?_concat (history : List Call) (c : Call) (hartId : UInt64) :
    lastWiring? (history ++ [c]) hartId = (c.wiring? hartId).or (lastWiring? history hartId) :=
  getLast?_filterMap_concat _ history c

theorem wiredFamily?_concat (history : List Call) (c : Call) (hartId : UInt64) :
    wiredFamily? (history ++ [c]) hartId =
      ((c.wiring? hartId).map Prod.fst).or (wiredFamily? history hartId) := by
  rw [wiredFamily?, lastWiring?_concat, Option.map_or, wiredFamily?]

/-- **A family is not ousted by an accepted call.** -/
theorem wiredFamily?_eq_some_of_accepted {family : BankFamily} {c : Call}
    (hc : refusal? history c = none) (h : wiredFamily? history hartId = some family) :
    wiredFamily? (history ++ [c]) hartId = some family := by
  rw [wiredFamily?_concat, h]
  cases c with
  | push record => rfl
  | setInterruptFile other base size => rfl
  | setExternalId other requested externalId =>
    rw [Call.wiring?]
    split
    next hother =>
      subst hother
      rw [refusal?, h] at hc
      have hsame : family = requested := by
        by_contra hne
        simp only [if_neg hne] at hc
        split at hc <;> cases hc
      rw [hsame]
      rfl
    next => rfl

theorem refusal?_of_wired {family : BankFamily} (hmem : hartId ∈ hartIds history)
    (h : wiredFamily? history hartId = some family) (other : BankFamily) (externalId : UInt32) :
    refusal? history (.setExternalId hartId other externalId) =
      if family = other then none else some (.familyConflict hartId family other) := by
  rw [refusal?, if_pos hmem, h]

theorem pushed_concat (history : List Call) (c : Call) :
    pushed (history ++ [c]) = pushed history ++ c.pushed?.toList := by
  rw [pushed, List.filterMap_append]
  cases hpushed : c.pushed? <;> simp [hpushed, pushed]

end History

/-! ## What a history builds

`Follows` is the invariant: the entries of the table are the records that were pushed, each as it is
after the calls. -/

/-- The entry of a record after some calls. -/
def settledEntry (history : List Call) (record : HartRecord) : HartEntry :=
  ⟨settled history record, wiredFamily? history record.hartId⟩

/-- An entry depends on what has been set for its hart, and on nothing else of the history. -/
theorem settledEntry_congr {history other : List Call} {record : HartRecord}
    (hfile : lastInterruptFile? history record.hartId = lastInterruptFile? other record.hartId)
    (hwiring : lastWiring? history record.hartId = lastWiring? other record.hartId) :
    settledEntry history record = settledEntry other record := by
  simp only [settledEntry, settled, wiredFamily?, hfile, hwiring]

/-- A table is what some calls, none of them refused, have made of the empty one. -/
structure Follows (history : List Call) (table : HartTable) : Prop where
  entries_eq : table.entries = (pushed history).map (settledEntry history)
  nodup_hartIds : (hartIds history).Nodup
  /-- Nothing has been set for a hart that is not there. -/
  unset : ∀ hartId, hartId ∉ hartIds history →
    lastInterruptFile? history hartId = none ∧ lastWiring? history hartId = none

theorem follows_empty : Follows [] empty where
  entries_eq := rfl
  nodup_hartIds := List.nodup_nil
  unset _ _ := ⟨rfl, rfl⟩

namespace Follows

variable {history : List Call} {table table' : HartTable}

theorem records_eq (h : Follows history table) :
    table.records = (pushed history).map (settled history) := by
  rw [records, h.entries_eq, List.map_map]
  rfl

theorem map_hartId_eq (h : Follows history table) :
    table.records.map (·.hartId) = hartIds history := by
  rw [h.records_eq, List.map_map]
  rfl

/-- The entry of a hart that has been pushed. -/
theorem exists_entry (h : Follows history table) {hartId : UInt64}
    (hmem : hartId ∈ hartIds history) :
    ∃ entry, table.entry? hartId = some entry ∧
      entry.wiredBy = wiredFamily? history hartId := by
  cases hentry : table.entry? hartId with
  | none => exact absurd (h.map_hartId_eq ▸ hmem) (entry?_eq_none_iff.1 hentry)
  | some entry =>
    have hid : entry.record.hartId = hartId := by simpa using List.find?_some hentry
    have hfound : entry ∈ (pushed history).map (settledEntry history) :=
      h.entries_eq ▸ List.mem_of_find?_eq_some hentry
    obtain ⟨record, -, rfl⟩ := List.mem_map.1 hfound
    exact ⟨_, rfl, congrArg (wiredFamily? history) hid⟩

theorem entry?_eq_none (h : Follows history table) {hartId : UInt64}
    (hmem : hartId ∉ hartIds history) : table.entry? hartId = none :=
  entry?_eq_none_iff.2 (h.map_hartId_eq ▸ hmem)

theorem mem_of_wired (h : Follows history table) {hartId : UInt64} {family : BankFamily}
    (hwired : wiredFamily? history hartId = some family) : hartId ∈ hartIds history := by
  by_contra hnot
  rw [wiredFamily?, (h.unset hartId hnot).2] at hwired
  cases hwired

/-! ### What is refused -/

/-- **What is refused is decided by the history.** -/
theorem call_eq_error_iff (h : Follows history table) (c : Call) (error : TopologyError) :
    table.call c = .error error ↔ refusal? history c = some error := by
  cases c with
  | push record =>
    rw [HartTable.call, HartTable.push, refusal?]
    by_cases hmem : record.hartId ∈ hartIds history
    · obtain ⟨entry, hentry, -⟩ := h.exists_entry hmem
      simp [hentry, if_pos hmem]
    · simp [h.entry?_eq_none hmem, if_neg hmem]
  | setInterruptFile hartId base size =>
    rw [HartTable.call, HartTable.setInterruptFile, refusal?]
    by_cases hmem : hartId ∈ hartIds history
    · obtain ⟨entry, hentry, -⟩ := h.exists_entry hmem
      simp [hentry, if_pos hmem]
    · simp [h.entry?_eq_none hmem, if_neg hmem]
  | setExternalId hartId family externalId =>
    rw [HartTable.call, HartTable.setExternalId, refusal?]
    by_cases hmem : hartId ∈ hartIds history
    · obtain ⟨entry, hentry, hwired⟩ := h.exists_entry hmem
      rw [hentry, if_pos hmem, ← hwired]
      cases hfamily : entry.wiredBy with
      | none => simp [hfamily]
      | some existing => by_cases hsame : existing = family <;> simp [hfamily, hsame]
    · simp [h.entry?_eq_none hmem, if_neg hmem]

/-! ### What an accepted call does

Both calls that set something change the entries of one hart (`adjust`), and a push adds an entry at
the end. -/

/-- Setting something for one hart. -/
theorem adjust (h : Follows history table) {c : Call} {hartId : UInt64}
    {f : HartEntry → HartEntry} (hmem : hartId ∈ hartIds history)
    (hpushed : c.pushed? = none)
    (hothers : ∀ other, other ≠ hartId → c.interruptFile? other = none ∧ c.wiring? other = none)
    (hself : ∀ record, record.hartId = hartId →
      settledEntry (history ++ [c]) record = f (settledEntry history record)) :
    Follows (history ++ [c]) (table.adjust hartId f) := by
  have hsame : pushed (history ++ [c]) = pushed history := by
    rw [pushed_concat, hpushed, Option.toList_none, List.append_nil]
  have hids : hartIds (history ++ [c]) = hartIds history := by
    rw [hartIds, hsame, hartIds]
  have hlast (other : UInt64) (hother : other ≠ hartId) :
      lastInterruptFile? (history ++ [c]) other = lastInterruptFile? history other ∧
        lastWiring? (history ++ [c]) other = lastWiring? history other := by
    obtain ⟨hfile, hwiring⟩ := hothers other hother
    rw [lastInterruptFile?_concat, lastWiring?_concat, hfile, hwiring]
    exact ⟨rfl, rfl⟩
  refine ⟨?_, hids ▸ h.nodup_hartIds, fun other hother => ?_⟩
  · rw [HartTable.adjust, h.entries_eq, List.map_map, hsame]
    refine List.map_congr_left fun record _ => ?_
    show (if record.hartId = hartId then _ else _) = _
    by_cases hid : record.hartId = hartId
    · rw [if_pos hid, hself record hid]
    · rw [if_neg hid]
      exact (settledEntry_congr (hlast _ hid).1 (hlast _ hid).2).symm
  · rw [hids] at hother
    have hne : other ≠ hartId := fun heq => hother (heq ▸ hmem)
    rw [(hlast other hne).1, (hlast other hne).2]
    exact h.unset other hother

theorem push (h : Follows history table) {record : HartRecord}
    (hnew : record.hartId ∉ hartIds history) :
    Follows (history ++ [.push record]) ⟨table.entries ++ [⟨record, none⟩]⟩ := by
  have hpushed : pushed (history ++ [.push record]) = pushed history ++ [record] :=
    pushed_concat history (.push record)
  have hids : hartIds (history ++ [.push record]) = (hartIds history).concat record.hartId := by
    rw [hartIds, hpushed, List.map_append, List.concat_eq_append]
    rfl
  have hlast (hartId : UInt64) :
      lastInterruptFile? (history ++ [.push record]) hartId = lastInterruptFile? history hartId ∧
        lastWiring? (history ++ [.push record]) hartId = lastWiring? history hartId :=
    ⟨lastInterruptFile?_concat _ _ _, lastWiring?_concat _ _ _⟩
  have hentry : settledEntry (history ++ [.push record]) = settledEntry history :=
    funext fun _ => settledEntry_congr (hlast _).1 (hlast _).2
  refine ⟨?_, ?_, fun hartId hhart => ?_⟩
  · obtain ⟨hfile, hwiring⟩ := h.unset record.hartId hnew
    have hfresh : settledEntry history record = ⟨record, none⟩ := by
      simp [settledEntry, settled, wiredFamily?, hfile, hwiring]
    rw [hpushed, List.map_append, hentry, h.entries_eq, List.map_singleton, hfresh]
  · exact hids ▸ h.nodup_hartIds.concat hnew
  · rw [(hlast hartId).1, (hlast hartId).2]
    refine h.unset hartId fun hmem => hhart ?_
    rw [hids, List.concat_eq_append]
    exact List.mem_append_left _ hmem

theorem setInterruptFile (h : Follows history table) {hartId base : UInt64} {size : UInt32}
    (hmem : hartId ∈ hartIds history) :
    Follows (history ++ [.setInterruptFile hartId base size]) (table.adjust hartId fun entry =>
      { entry with record := { entry.record with imsicBase := base, imsicSize := size } }) := by
  refine h.adjust hmem rfl (fun other hother => ⟨if_neg hother.symm, rfl⟩) fun record hid => ?_
  have hfile : lastInterruptFile? (history ++ [.setInterruptFile hartId base size]) record.hartId =
      some (base, size) := by
    rw [lastInterruptFile?_concat, Call.interruptFile?, if_pos hid.symm, Option.some_or]
  have hwiring : lastWiring? (history ++ [.setInterruptFile hartId base size]) record.hartId =
      lastWiring? history record.hartId := lastWiring?_concat _ _ _
  simp [settledEntry, settled, wiredFamily?, hfile, hwiring]

theorem setExternalId (h : Follows history table) {hartId : UInt64} {family : BankFamily}
    {externalId : UInt32} (hmem : hartId ∈ hartIds history) :
    Follows (history ++ [.setExternalId hartId family externalId]) (table.adjust hartId fun entry =>
      { record := { entry.record with externalId }, wiredBy := some family }) := by
  refine h.adjust hmem rfl (fun other hother => ⟨rfl, if_neg hother.symm⟩) fun record hid => ?_
  have hfile : lastInterruptFile? (history ++ [.setExternalId hartId family externalId])
      record.hartId = lastInterruptFile? history record.hartId := lastInterruptFile?_concat _ _ _
  have hwiring : lastWiring? (history ++ [.setExternalId hartId family externalId]) record.hartId =
      some (family, externalId) := by
    rw [lastWiring?_concat, Call.wiring?, if_pos hid.symm, Option.some_or]
  simp [settledEntry, settled, wiredFamily?, hfile, hwiring]

/-- **The table of a history, after one more accepted call, is that of the longer history.** -/
theorem call (h : Follows history table) {c : Call} (hcall : table.call c = .ok table') :
    Follows (history ++ [c]) table' := by
  have hmem {hartId : UInt64} {entry : HartEntry} (hentry : table.entry? hartId = some entry) :
      hartId ∈ hartIds history := by
    by_contra hnot
    rw [h.entry?_eq_none hnot] at hentry
    cases hentry
  cases c with
  | push record =>
    obtain ⟨hnew, rfl⟩ := push_eq_ok_iff.1 hcall
    exact h.push (h.map_hartId_eq ▸ hnew)
  | setInterruptFile hartId base size =>
    obtain ⟨⟨entry, hentry⟩, rfl⟩ := setInterruptFile_eq_ok_iff.1 hcall
    exact h.setInterruptFile (hmem hentry)
  | setExternalId hartId family externalId =>
    obtain ⟨⟨entry, hentry, -⟩, rfl⟩ := setExternalId_eq_ok_iff.1 hcall
    exact h.setExternalId (hmem hentry)

theorem of_foldlM (h : history.foldlM HartTable.call empty = .ok table) :
    Follows history table := by
  induction history using List.reverseRecOn generalizing table with
  | nil =>
    obtain rfl := Except.pure_eq_ok_iff.1 h
    exact follows_empty
  | append_singleton history c ih =>
    rw [List.foldlM_append, Except.bind_eq_ok_iff] at h
    obtain ⟨before, hbefore, hlast⟩ := h
    rw [List.foldlM_cons, Except.bind_eq_ok_iff] at hlast
    obtain ⟨after, hcall, hafter⟩ := hlast
    obtain rfl := Except.pure_eq_ok_iff.1 hafter
    exact (ih hbefore).call hcall

end Follows

/-! ## Sessions

A session goes on with whatever columns a call has left, also one that fails on the way.  That a
refused call leaves them as they were is proved (`Built.call_cases`), and not put into the
definition. -/

/-- The columns of a table that is being worked on, and the calls that it has accepted, in order. -/
structure Session where
  columns : Columns
  history : List Call

namespace Session

/-- An empty table, before any call. -/
def start : Session := ⟨empty.columns, []⟩

/-- Makes a call.  If it fails, the session goes on with the columns that the failed steps have
left. -/
def call (session : Session) (c : Call) : Session :=
  match c.inPlace.runOn session.columns with
  | (.error _, columns) => { session with columns }
  | (.ok (), columns) => { columns, history := session.history ++ [c] }

/-- Makes one call after the other. -/
def calls (session : Session) (calls : List Call) : Session :=
  calls.foldl call session

variable {session : Session}

theorem calls_append (session : Session) (first rest : List Call) :
    session.calls (first ++ rest) = (session.calls first).calls rest :=
  List.foldl_append

/-- The columns are those of the table that the accepted calls build. -/
def Built (session : Session) : Prop :=
  ∃ table, session.history.foldlM HartTable.call empty = .ok table ∧
    session.columns = table.columns

theorem built_start : start.Built :=
  ⟨empty, rfl, rfl⟩

/-- A call is refused, and nothing changes, or it is accepted and goes down in the history. -/
theorem Built.call_cases (h : session.Built) (c : Call) :
    (∃ error, refusal? session.history c = some error ∧
      c.inPlace.runOn session.columns = (.error (.refused error), session.columns) ∧
      session.call c = session) ∨
    (refusal? session.history c = none ∧ (c.inPlace.runOn session.columns).1 = .ok () ∧
      (session.call c).history = session.history ++ [c] ∧ (session.call c).Built) := by
  obtain ⟨table, hbuilt, hcolumns⟩ := h
  have hfollows := Follows.of_foldlM hbuilt
  have hrun := Call.runOn_inPlace (hfollows.map_hartId_eq ▸ hfollows.nodup_hartIds) c
  rw [← hcolumns] at hrun
  cases hcall : table.call c with
  | error error =>
    rw [hcall] at hrun
    exact .inl ⟨error, (hfollows.call_eq_error_iff c error).1 hcall, hrun, by rw [call, hrun]⟩
  | ok after =>
    rw [hcall] at hrun
    have haccepted : refusal? session.history c = none := by
      refine Option.eq_none_iff_forall_ne_some.2 fun error herror => ?_
      rw [← hfollows.call_eq_error_iff, hcall] at herror
      cases herror
    have hafter : session.call c = ⟨after.columns, session.history ++ [c]⟩ := by rw [call, hrun]
    have hlonger : (session.history ++ [c]).foldlM HartTable.call empty = .ok after := by
      rw [List.foldlM_append, Except.bind_eq_ok_iff]
      exact ⟨table, hbuilt, Except.bind_eq_ok_iff.2 ⟨after, hcall, rfl⟩⟩
    exact .inr ⟨haccepted, by rw [hrun], by rw [hafter], hafter ▸ ⟨after, hlonger, rfl⟩⟩

theorem Built.call (h : session.Built) (c : Call) : (session.call c).Built := by
  rcases h.call_cases c with ⟨_, -, -, hsame⟩ | ⟨-, -, -, hbuilt⟩
  · rwa [hsame]
  · exact hbuilt

theorem Built.calls (h : session.Built) (calls : List Call) : (session.calls calls).Built :=
  List.foldlRecOn calls Session.call h fun _ hsession c _ => hsession.call c

/-- A hart that has been wired for a family stays with it. -/
theorem Built.wiredFamily?_calls (h : session.Built) {hartId : UInt64} {family : BankFamily}
    (hwired : wiredFamily? session.history hartId = some family) (calls : List Call) :
    wiredFamily? (session.calls calls).history hartId = some family := by
  refine (List.foldlRecOn (motive := fun session : Session =>
    session.Built ∧ wiredFamily? session.history hartId = some family) calls Session.call
    ⟨h, hwired⟩ fun session hsession c _ => ⟨hsession.1.call c, ?_⟩).2
  rcases hsession.1.call_cases c with ⟨_, -, -, hsame⟩ | ⟨haccepted, -, hhistory, -⟩
  · rw [hsame]
    exact hsession.2
  · rw [hhistory]
    exact wiredFamily?_eq_some_of_accepted haccepted hsession.2

/-! ## The ownership law -/

/-- What is in the columns, and what a call does to them, can be read off the accepted calls. -/
structure Owned (session : Session) : Prop where
  nodup_hartIds : (session.columns.harts.map (·.hartId)).Nodup
  /-- The records stand in the order in which they were pushed. -/
  harts_eq : session.columns.harts = (pushed session.history).map (settled session.history)
  /-- Beside each stands the family that has wired it. -/
  wiredBy_eq : session.columns.wiredBy =
    (pushed session.history).map fun record => wiredFamily? session.history record.hartId
  /-- A call that fails leaves both columns as they were. -/
  refused (c : Call) (error : TopologyError) (h : refusal? session.history c = some error) :
    c.inPlace.runOn session.columns = (.error (.refused error), session.columns)
  accepted (c : Call) (h : refusal? session.history c = none) :
    (c.inPlace.runOn session.columns).1 = .ok ()
  /-- The accepted calls build a table, with the same columns, that refuses the same calls. -/
  built : ∃ table, session.history.foldlM HartTable.call empty = .ok table ∧
    session.columns = table.columns ∧
    ∀ c error, table.call c = .error error ↔ refusal? session.history c = some error

theorem Built.owned (h : session.Built) : session.Owned := by
  have hcases := h.call_cases
  obtain ⟨table, hbuilt, hcolumns⟩ := h
  have hfollows := Follows.of_foldlM hbuilt
  exact
    { nodup_hartIds := by
        rw [hcolumns]
        exact hfollows.map_hartId_eq ▸ hfollows.nodup_hartIds
      harts_eq := by
        rw [hcolumns]
        exact hfollows.records_eq
      wiredBy_eq := by
        rw [hcolumns, HartTable.columns, hfollows.entries_eq, List.map_map]
        rfl
      refused := fun c error hrefused => by
        rcases hcases c with ⟨_, hsome, hrun, -⟩ | ⟨hnone, -⟩
        · rw [hrun, Option.some.inj (hsome.symm.trans hrefused)]
        · cases hnone.symm.trans hrefused
      accepted := fun c haccepted => by
        rcases hcases c with ⟨_, hsome, -⟩ | ⟨-, hrun, -⟩
        · cases hsome.symm.trans haccepted
        · exact hrun
      built := ⟨table, hbuilt, hcolumns, hfollows.call_eq_error_iff⟩ }

/-- **The ownership law.**  After any calls, the table is what its history says.  And a hart that
has been wired for a family is that family's for good: whatever is called in between, the family may
wire it again and the other may not. -/
theorem ownership_law (before : List Call) :
    (start.calls before).Owned ∧
    ∀ (hartId : UInt64) (family : BankFamily) (externalId : UInt32),
      ((Call.setExternalId hartId family externalId).inPlace.runOn
        (start.calls before).columns).1 = .ok () →
      ∀ (between : List Call) (other : BankFamily) (next : UInt32),
        ((Call.setExternalId hartId other next).inPlace.runOn
          (start.calls (before ++ .setExternalId hartId family externalId :: between)).columns).1 =
          if other = family then .ok ()
          else .error (.refused (.familyConflict hartId family other)) := by
  have hbuilt := built_start.calls before
  refine ⟨hbuilt.owned, fun hartId family externalId hset between other next => ?_⟩
  rw [calls_append]
  rcases hbuilt.call_cases (.setExternalId hartId family externalId) with
    ⟨_, -, hrun, -⟩ | ⟨haccepted, -, hhistory, hafter⟩
  · rw [hrun] at hset
    cases hset
  · have hwired : wiredFamily?
        ((start.calls before).call (.setExternalId hartId family externalId)).history hartId =
          some family := by
      rw [hhistory, wiredFamily?_concat, Call.wiring?, if_pos rfl]
      rfl
    obtain ⟨table, htable, -⟩ := hafter.calls between
    have howned := (hafter.calls between).owned
    have hlater := hafter.wiredFamily?_calls hwired between
    have hrefusal := refusal?_of_wired ((Follows.of_foldlM htable).mem_of_wired hlater) hlater
      other next
    by_cases hsame : family = other
    · rw [if_pos hsame] at hrefusal
      rw [if_pos hsame.symm]
      exact howned.accepted _ hrefusal
    · rw [if_neg hsame] at hrefusal
      rw [if_neg (Ne.symm hsame)]
      exact congrArg Prod.fst (howned.refused _ _ hrefusal)

/-- Calls of which four are refused: for an id that is there already, for harts that are not there,
and for the family that has not wired the hart. -/
def mixedCalls : List Call :=
  [.push (.fresh 4 0), .push (.fresh 2 1), .push (.fresh 4 2),
    .setInterruptFile 2 0x28001000 0x1000, .setInterruptFile 7 0x28002000 0x1000,
    .setExternalId 7 .plic 1, .setExternalId 4 .plic 1, .setExternalId 4 .aplic 0,
    .setInterruptFile 2 0x28003000 0x2000]

theorem ownership_law_mixedCalls :
    (start.calls mixedCalls).Owned ∧ (start.calls mixedCalls).history.length = 5 ∧
    (start.calls mixedCalls).columns =
      ⟨[{ HartRecord.fresh 4 0 with externalId := 1 },
        { HartRecord.fresh 2 1 with imsicBase := 0x28003000, imsicSize := 0x2000 }],
        [some .plic, none]⟩ ∧
    ((Call.setExternalId 4 .plic 7).inPlace.runOn (start.calls mixedCalls).columns).1 = .ok () ∧
    ((Call.setExternalId 4 .aplic 3).inPlace.runOn
      (start.calls (mixedCalls ++ .setExternalId 4 .plic 7 :: [.push (.fresh 5 2)])).columns).1 =
        .error (.refused (.familyConflict 4 .plic .aplic)) := by
  obtain ⟨howned, hsticky⟩ := ownership_law mixedCalls
  have hset : ((Call.setExternalId 4 .plic 7).inPlace.runOn
      (start.calls mixedCalls).columns).1 = .ok () := by decide +kernel
  exact ⟨howned, by decide +kernel, by decide +kernel, hset,
    hsticky 4 .plic 7 hset [.push (.fresh 5 2)] .aplic 3⟩

end Session
end HartTable
end RiscvTables
