import RiscvTables.Proofs.Rhct.Damage

/-!
# The index that a generator keeps

A generator is used over and over: it builds, fails to build, and gives tables up.  The index that
it keeps is meant for one table only, the last that it built, and no table tells which index it
came with.

A build in place drops the old index first, leaves in the middle if something is wrong, and keeps
the new index last (`InPlace.buildTable`).  It ends as `Generator.buildTable` does
(`InPlace.runOn_buildTable`), so what a generator keeps after any calls is told by the last of them
(`Generator.calls_eq`), and the index it keeps lists the nodes of the table that this call returned
(`Generator.keeps_last_index`).

What the header of a table says is up to the stamper.  Where the nodes are is not: nothing behind
the header depends on it (`offsets_of_parse`).
-/

set_option autoImplicit false

namespace RiscvTables
namespace Rhct

/-! ## Where the nodes of a table are -/

theorem drop_finalizeChecksum {start : Nat} (table : Bytes) (h : checksumOffset < start) :
    (finalizeChecksum table).drop start = table.drop start :=
  (sameButChecksum_finalizeChecksum table).drop_eq h

theorem View.field_finalizeChecksum {start : Nat} (table : Bytes) (width : Nat)
    (h : checksumOffset < start) :
    field (finalizeChecksum table) start width = field table start width := by
  rw [field, drop_finalizeChecksum table h, field]

theorem View.numberField_finalizeChecksum {start : Nat} (table : Bytes) (width : Nat)
    (h : checksumOffset < start) :
    numberField (finalizeChecksum table) start width = numberField table start width := by
  rw [numberField, field_finalizeChecksum table width h, numberField]

/-- Nodes that stand one behind the other are where the planner puts them. -/
theorem map_offset_placed {offset : Nat} {nodes : List (NodeSource × Nat)}
    {bodies : List NodeBody} (h : nodes.map Prod.snd = bodies.map NodeBody.size) :
    (Node.placed offset bodies).map (·.offset) = (entriesFrom offset nodes).map (·.offset) := by
  induction nodes generalizing offset bodies with
  | nil =>
    obtain rfl : bodies = [] := by simpa using h.symm
    rfl
  | cons node rest ih =>
    cases bodies with
    | nil => simp at h
    | cons body bodies =>
      obtain ⟨hsize, hrest⟩ := List.cons.inj h
      rw [Node.placed, entriesFrom, List.map_cons, List.map_cons, ih hrest, hsize]
      rfl

namespace Inputs

variable {inputs : Inputs}

/-- Behind the header a table has the same fields and nodes under every stamper. -/
theorem stamped_fields {header : Bytes} (hheader : header.length = sdtHeaderSize)
    (hfits : inputs.tableSize < UInt32.size) :
    View.numberField (inputs.stamped header) 48 4 = inputs.bodies.length ∧
      View.numberField (inputs.stamped header) 52 4 = tableHeaderSize ∧
      (inputs.stamped header).drop tableHeaderSize = inputs.bodies.flatMap NodeBody.encode := by
  have hpieces : inputs.stamped header =
      [header, LittleEndian.encode 4 (if inputs.timer.cannotWakeCpu then 1 else 0),
        LittleEndian.encode 8 inputs.timer.frequency.toNat,
        LittleEndian.encode 4 inputs.nodeSizes.length, LittleEndian.encode 4 tableHeaderSize,
        inputs.bodies.flatMap NodeBody.encode].flatten := by
    simp [stamped, tableFields]
  refine ⟨?_, ?_, ?_⟩
  · rw [hpieces, View.numberField_flatten 3 rfl (by simp [hheader, sdtHeaderSize])
      (length_nodeSizes ▸ length_bodies_lt hfits), length_nodeSizes]
  · rw [hpieces]
    exact View.numberField_flatten 4 rfl (by simp [hheader, sdtHeaderSize]) (by decide)
  · rw [stamped]
    refine List.drop_left' ?_
    simp [tableFields, hheader, tableHeaderSize]

end Inputs

/-- **Whatever a table is read as, its nodes are where its index has them.** -/
theorem offsets_of_parse {stamper : Stamper} {info : TableInfo} {store : Store} {table : Bytes}
    {index : NodeIndex} {view : View} (hbuild : build stamper info store = .ok (table, index))
    (hisa : ∀ record ∈ store.fetchAll IsaRecord, 0 ∉ Utf8.encode record.isa)
    (hparse : View.parse table = .ok view) :
    view.nodes.map (·.offset) = index.entries.map (·.offset) := by
  obtain ⟨-, inputs, hfetch, ⟨layout, hlayout⟩, rfl, header, -, rfl⟩ :=
    build_eq_ok_iff_stamped.1 hbuild
  obtain ⟨-, hfits, -⟩ := Inputs.layOut_eq_ok_iff.1 hlayout
  have hheader : header.toList.length = sdtHeaderSize := Vector.length_toList
  obtain ⟨hcount, hstart, hnodes⟩ := Inputs.stamped_fields hheader hfits
  obtain ⟨-, nodes, hread, -, rfl⟩ := View.parse_eq_ok_iff.1 hparse
  have hplaced := Node.readAll_encode inputs.bodies tableHeaderSize []
    (Inputs.writable_of_layOut hfetch hlayout hisa)
  rw [View.nodeReader, View.numberField_finalizeChecksum _ _ (by decide),
    View.numberField_finalizeChecksum _ _ (by decide), hcount, hstart,
    drop_finalizeChecksum _ (by decide), hnodes] at hread
  rw [List.append_nil, hread] at hplaced
  obtain rfl := Except.ok.inj hplaced
  exact map_offset_placed Inputs.nodeSizes_eq

namespace Generator

/-! ## Building in place -/

/-- Steps on a generator.  What was done before a failure stays done. -/
abbrev InPlace (α : Type) : Type :=
  ExceptT RhctError (StateM Generator) α

namespace InPlace

variable {α : Type}

/-- Puts another index, or none, in the place of the one that is kept. -/
def setIndex (index : Option NodeIndex) : InPlace Unit :=
  modify fun generator => { generator with index }

/-- Drops the old index, builds a table, and keeps the new index.  Each step in between is a way
out. -/
def buildTable (info : TableInfo) (store : Store) : InPlace Bytes := do
  setIndex none
  if info.revision ≠ tableRevision then
    throw (.unsupportedRevision info.revision tableRevision tableRevision)
  let inputs ← MonadExcept.ofExcept (Inputs.fetch store)
  let layout ← MonadExcept.ofExcept inputs.layOut
  let table ← MonadExcept.ofExcept (inputs.write (← get).stamper info layout)
  setIndex (some layout.index)
  return table

theorem runOn_setIndex_bind (index : Option NodeIndex) (next : Unit → InPlace α)
    (generator : Generator) :
    ExceptT.runOn (setIndex index >>= next) generator =
      (next ()).runOn { generator with index } := rfl

/-- **A build in place ends as a build does**, whichever way out it takes. -/
theorem runOn_buildTable (info : TableInfo) (store : Store) (generator : Generator) :
    (buildTable info store).runOn generator = generator.buildTable info store := by
  rw [buildTable, Generator.buildTable, build, runOn_setIndex_bind]
  by_cases hrevision : info.revision ≠ tableRevision
  · rw [if_pos hrevision, if_pos hrevision]
    rfl
  · -- from here on each way out leaves the generator as the first step has left it
    rw [if_neg hrevision, if_neg hrevision, ExceptT.runOn_ofExcept_bind]
    cases hfetch : Inputs.fetch store with
    | error error => rfl
    | ok inputs =>
      dsimp only
      rw [ExceptT.runOn_ofExcept_bind]
      cases hlayout : inputs.layOut with
      | error error => simp only [bind, Except.bind, hlayout]
      | ok layout =>
        dsimp only
        rw [ExceptT.runOn_get_bind, ExceptT.runOn_ofExcept_bind]
        cases hwrite : inputs.write generator.stamper info layout with
        | error error => simp only [bind, Except.bind, hlayout, hwrite]
        | ok table => simp only [bind, Except.bind, hlayout, hwrite]; rfl

end InPlace

/-! ## Calls -/

/-- What is asked of a generator. -/
inductive Call where
  | build (info : TableInfo) (store : Store)
  | free (table : Bytes)

/-- Carries out a call: the table that it returns, if it is to return one and can, and the generator
after it. -/
def call (generator : Generator) : Call → Except RhctError (Option Bytes) × Generator
  | .build info store =>
    ((generator.buildTable info store).1.map some, (generator.buildTable info store).2)
  | .free table => (.ok none, generator.freeTable table)

/-- What one call after the other returns, and the generator after the last of them. -/
def calls (generator : Generator) :
    List Call → List (Except RhctError (Option Bytes)) × Generator
  | [] => ([], generator)
  | call :: rest =>
    ((generator.call call).1 :: ((generator.call call).2.calls rest).1,
      ((generator.call call).2.calls rest).2)

namespace Call

/-- The steps of a call. -/
def inPlace : Call → InPlace (Option Bytes)
  | .build info store => do return some (← InPlace.buildTable info store)
  | .free _ => do
    InPlace.setIndex none
    return none

/-- What a call returns, told without a generator. -/
def outcome (stamper : Stamper) : Call → Except RhctError (Option Bytes)
  | .build info store => (Rhct.build stamper info store).map fun built => some built.1
  | .free _ => .ok none

/-- The index that is kept after a call, told without a generator. -/
def index? (stamper : Stamper) : Call → Option NodeIndex
  | .build info store => (Rhct.build stamper info store).toOption.map Prod.snd
  | .free _ => none

theorem runOn_inPlace (generator : Generator) (call : Call) :
    call.inPlace.runOn generator = generator.call call := by
  cases call with
  | build info store =>
    rw [inPlace, ExceptT.runOn_bind, InPlace.runOn_buildTable, Generator.call]
    rcases generator.buildTable info store with ⟨error | table, after⟩ <;> rfl
  | free table => rfl

/-- An index is kept just by a build that returns a table. -/
theorem isSome_index?_iff {stamper : Stamper} {call : Call} :
    (call.index? stamper).isSome ↔ ∃ table, call.outcome stamper = .ok (some table) := by
  cases call with
  | build info store =>
    rw [index?, outcome]
    cases Rhct.build stamper info store with
    | error error => simp [Except.toOption, Except.map]
    | ok built => simp [Except.toOption, Except.map]
  | free table => simp [index?, outcome]

/-- The index that is kept is that of the table that is returned. -/
theorem exists_build_of_outcome {stamper : Stamper} {call : Call} {table : Bytes}
    (h : call.outcome stamper = .ok (some table)) :
    ∃ info store index, call = .build info store ∧ call.index? stamper = some index ∧
      Rhct.build stamper info store = .ok (table, index) := by
  cases call with
  | build info store =>
    obtain ⟨⟨built, index⟩, hbuild, hsame⟩ := Except.map_eq_ok_iff.1 h
    obtain rfl := Option.some.inj hsame
    exact ⟨info, store, index, rfl, by rw [index?, hbuild]; rfl, hbuild⟩
  | free table => cases h

end Call

/-- A call depends on the stamper, and on nothing else of the generator. -/
theorem call_eq (generator : Generator) (call : Call) :
    generator.call call =
      (call.outcome generator.stamper,
        { generator with index := call.index? generator.stamper }) := by
  cases call with
  | build info store =>
    rw [Generator.call, buildTable, Call.outcome, Call.index?]
    cases Rhct.build generator.stamper info store with
    | error error => rfl
    | ok built => rfl
  | free table => rfl

/-- **After any calls the last of them tells what is kept.** -/
theorem calls_eq (generator : Generator) (calls : List Call) :
    generator.calls calls =
      (calls.map (Call.outcome generator.stamper),
        { generator with index :=
            calls.getLast?.elim generator.index (Call.index? generator.stamper) }) := by
  induction calls generalizing generator with
  | nil => rfl
  | cons call rest ih =>
    rw [Generator.calls, call_eq, ih]
    cases rest with
    | nil => rfl
    | cons next rest => rw [List.getLast?_cons_cons]; rfl

/-- **A generator keeps the index of the table that it has built last, and only as long as nothing
else is asked of it.**  Whatever was asked before, and however it ended, a call returns what it
would return on its own.  The steps of a call, with all their ways out, end as the call does. -/
theorem keeps_last_index (stamper : Stamper) (calls : List Call) :
    (Generator.calls ⟨stamper, none⟩ calls).1 = calls.map (Call.outcome stamper) ∧
      ((Generator.calls ⟨stamper, none⟩ calls).2.index.isSome ↔
        ∃ table, (Generator.calls ⟨stamper, none⟩ calls).1.getLast? = some (.ok (some table))) ∧
      (∀ table, (Generator.calls ⟨stamper, none⟩ calls).1.getLast? = some (.ok (some table)) →
        ∃ info store index, calls.getLast? = some (.build info store) ∧
          (Generator.calls ⟨stamper, none⟩ calls).2.index = some index ∧
          build stamper info store = .ok (table, index) ∧
          ((∀ record ∈ store.fetchAll IsaRecord, 0 ∉ Utf8.encode record.isa) →
            (∀ view, View.parse table = .ok view →
              view.nodes.map (·.offset) = index.entries.map (·.offset)) ∧
            (stamper = stampIdentity → ∃ view, View.parse table = .ok view))) ∧
      ∀ (generator : Generator) (call : Call),
        call.inPlace.runOn generator = generator.call call := by
  rw [calls_eq]
  refine ⟨rfl, ?_, ?_, Call.runOn_inPlace⟩ <;> rw [List.getLast?_map]
  · cases calls.getLast? with
    | none => simp
    | some call => simpa using Call.isSome_index?_iff
  · intro table hlast
    obtain ⟨call, hcall, houtcome⟩ := Option.map_eq_some_iff.1 hlast
    obtain ⟨info, store, index, rfl, hindex, hbuild⟩ := Call.exists_build_of_outcome houtcome
    refine ⟨info, store, index, hcall, by rw [hcall]; exact hindex, hbuild, fun hisa => ⟨?_, ?_⟩⟩
    · exact fun view => offsets_of_parse hbuild hisa
    · rintro rfl
      obtain ⟨inputs, -, hparse, -⟩ := parse_of_build hbuild hisa
      exact ⟨_, hparse⟩

/-- A build, one that fails since no table of revision 2 can be built, and a build again. -/
def sampleCalls : List Call :=
  [.build sampleInfo sampleStore, .build { sampleInfo with revision := 2 } sampleStore,
    .build sampleInfo sampleStore]

/-- The failed build leaves nothing, not even what the first had kept, and it does not stand in the
way of the last. -/
theorem keeps_last_index_sampleCalls :
    (calls ⟨stampIdentity, none⟩ (sampleCalls.take 2)).2.index = none ∧
      ∃ table index view, (calls ⟨stampIdentity, none⟩ sampleCalls).2.index = some index ∧
        build stampIdentity sampleInfo sampleStore = .ok (table, index) ∧
        View.parse table = .ok view ∧ view.nodes.map (·.offset) = [56, 72, 82, 92, 112] := by
  obtain ⟨houtcomes, hfailed, -⟩ := keeps_last_index stampIdentity (sampleCalls.take 2)
  obtain ⟨houtcomes', -, hkept, -⟩ := keeps_last_index stampIdentity sampleCalls
  obtain ⟨table, _, hbuild⟩ := View.exists_sampleTable
  have hlast : (sampleCalls.map (Call.outcome stampIdentity)).getLast? =
      some (.ok (some table)) := by
    show some (Call.outcome stampIdentity (.build sampleInfo sampleStore)) = _
    rw [Call.outcome, hbuild]
    rfl
  rw [houtcomes'] at hkept
  obtain ⟨info, store, index, hcall, hindex, hbuilt, hread⟩ := hkept table hlast
  obtain ⟨rfl, rfl⟩ := Call.build.inj (Option.some.inj hcall)
  obtain ⟨hoffsets, hparses⟩ := hread View.isa_sampleStore
  obtain ⟨view, hparse⟩ := hparses rfl
  have hplaces : ((build stampIdentity sampleInfo sampleStore).toOption.map fun built =>
      built.2.entries.map (·.offset)) = some [56, 72, 82, 92, 112] := by decide +kernel
  rw [hbuilt] at hplaces
  refine ⟨?_, table, index, view, hindex, hbuilt, hparse, ?_⟩
  · rw [← Option.not_isSome_iff_eq_none, hfailed, houtcomes]
    rintro ⟨other, hother⟩
    cases hother
  · rw [hoffsets view hparse]
    exact Option.some.inj hplaces

end Generator
end Rhct
end RiscvTables
