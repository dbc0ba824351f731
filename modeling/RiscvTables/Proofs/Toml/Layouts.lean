import RiscvTables.Proofs.Outcome
import RiscvTables.Proofs.Toml.Lines

/-!
# Layouts of TOML

A layout that is written is read back as a document (`parse?_render?`).  Its text is read line by
line as the lines that it was written as, and those lines build the tables one after the other.

The sections of a layout come in parts: a part is one table, or all tables with the same repeated
header.  While the lines of a section are carried out only the table under its header changes;
`IsFocused` says which that is, so that one lemma serves the keys in front of all sections, those
of a table, and those of a repeated one.
-/

set_option autoImplicit false

namespace RiscvTables
namespace Toml

open RiscvTables.Document (AreKeys IsBare)
open RiscvTables.Parser (Reads ReadsAll)

/-! ## Lines of a layout

The text of a layout is the text of its lines, and each line is read by itself.  What follows from
here on is about lines and not about characters. -/

/-- The lines that give keys their values. -/
def entryLines (entries : List (String × Scalar)) : List Line :=
  entries.map fun entry => .assignment [entry.1] entry.2.toDocument

/-- The line of a section's header. -/
def Section.headerLine (self : Section) : Line :=
  if self.isRepeated then .element [self.name] else .table [self.name]

/-- The lines of a section. -/
def Section.lines (self : Section) : List Line :=
  .blank :: self.headerLine :: entryLines self.entries

/-- The lines of a layout. -/
def Layout.lines (self : Layout) : List Line :=
  entryLines self.entries ++ self.sections.flatMap Section.lines

/-- Layouts all of whose keys and headers can do without quotes. -/
structure Layout.HasBareKeys (layout : Layout) : Prop where
  entries : ∀ entry ∈ layout.entries, IsBare entry.1
  sections : ∀ s ∈ layout.sections, IsBare s.name ∧ ∀ entry ∈ s.entries, IsBare entry.1

theorem readsAll_renderEntries {entries : List (String × Scalar)} {text : List Char}
    (hbare : ∀ entry ∈ entries, IsBare entry.1) (h : renderEntries? entries = some text) :
    ReadsAll line text (entryLines entries) := by
  obtain ⟨words, hwords, htext⟩ := Option.bind_eq_some_iff.1 h
  cases htext
  have hentry : ∀ entry ∈ entries, ∀ word, renderEntry? entry = some word →
      ReadsAll line word [.assignment [entry.1] entry.2.toDocument] :=
    fun entry hmem word hword => (reads_line_entry (hbare entry hmem) hword).readsAll rfl
  have hall := Parser.readsAll_of_mapM hwords hentry
  rwa [← List.map_eq_flatMap] at hall

theorem Section.reads_headerLine {s : Section} (h : IsBare s.name) :
    Reads line
      ((if s.isRepeated then "[[".toList ++ s.name.toList ++ "]]".toList
        else "[".toList ++ s.name.toList ++ "]".toList) ++ ['\n']) s.headerLine := by
  rw [headerLine]
  cases s.isRepeated with
  | true => exact reads_line_element h
  | false => exact reads_line_table h

theorem Section.readsAll_render {s : Section} {text : List Char} (hname : IsBare s.name)
    (hbare : ∀ entry ∈ s.entries, IsBare entry.1) (h : s.render? = some text) :
    ReadsAll line text s.lines := by
  obtain ⟨body, hbody, htext⟩ := Option.bind_eq_some_iff.1 h
  cases htext
  have hblank : ReadsAll line ['\n'] [.blank] := reads_line_blank.readsAll rfl
  have hheader := (reads_headerLine hname).readsAll rfl
  have hall := hblank.append (hheader.append (readsAll_renderEntries hbare hbody))
  rw [← List.append_assoc, ← List.append_assoc] at hall
  exact hall

/-- **A layout is read line by line.** -/
theorem Layout.many_line_render {layout : Layout} {text : String} (hbare : layout.HasBareKeys)
    (h : render? layout = some text) :
    Parser.many line text.toList = some (layout.lines, []) := by
  obtain ⟨body, hbody, h⟩ := Option.bind_eq_some_iff.1 h
  obtain ⟨words, hwords, htext⟩ := Option.bind_eq_some_iff.1 h
  cases htext
  have hsections : ReadsAll line words.flatten (layout.sections.flatMap Section.lines) :=
    Parser.readsAll_of_mapM hwords fun s hs word hword =>
      Section.readsAll_render (hbare.sections s hs).1 (hbare.sections s hs).2 hword
  have hall := (readsAll_renderEntries hbare.entries hbody).append hsections
  have hmany := hall.many_eq (rfl : line [] = none)
  rw [List.append_nil] at hmany
  rw [String.toList_ofList]
  exact hmany

/-- No line starts with the mark that may stand in front of a text. -/
theorem dropByteOrderMark_eq_self {text : List Char} {lines : List Line}
    (h : Parser.many line text = some (lines, [])) : dropByteOrderMark text = text := by
  unfold dropByteOrderMark
  split
  · next rest =>
    have hline : line ('\ufeff' :: rest) = none := rfl
    cases (Parser.many_eq_nil hline).symm.trans h
  · rfl

/-! ## Layouts that have a text

The printer refuses a number that does not fit 64 bits with a sign, and nothing else. -/

/-- The number that a value is, if it is one. -/
def Scalar.natural? : Scalar → Option Nat
  | .natural n => some n
  | .text _ | .boolean _ => none

/-- The numbers among the values of keys. -/
def entryNaturals (entries : List (String × Scalar)) : List Nat :=
  entries.filterMap fun entry => entry.2.natural?

/-- The numbers in a layout. -/
def Layout.naturals (self : Layout) : List Nat :=
  entryNaturals self.entries ++ self.sections.flatMap fun s => entryNaturals s.entries

theorem Scalar.exists_render?_iff (scalar : Scalar) :
    (∃ word, scalar.render? = some word) ↔ ∀ n, scalar.natural? = some n → n < integerBound := by
  cases scalar with
  | natural n => by_cases h : n < integerBound <;> simp [render?, natural?, h]
  | text value =>
    refine ⟨fun _ n hn => ?_, fun _ => ⟨_, rfl⟩⟩
    cases hn
  | boolean value =>
    refine ⟨fun _ n hn => ?_, fun _ => ⟨_, rfl⟩⟩
    cases hn

theorem exists_renderEntries?_iff (entries : List (String × Scalar)) :
    (∃ text, renderEntries? entries = some text) ↔
      ∀ n ∈ entryNaturals entries, n < integerBound := by
  have hentries : (∃ text, renderEntries? entries = some text) ↔
      ∀ entry ∈ entries, ∃ word, renderEntry? entry = some word := by
    rw [← Option.exists_mapM_eq_some_iff]
    cases h : entries.mapM renderEntry? <;> simp [renderEntries?, h]
  have hentry : ∀ entry, (∃ word, renderEntry? entry = some word) ↔
      ∃ word, entry.2.render? = some word := fun entry => by
    cases h : entry.2.render? <;> simp [h, renderEntry?]
  simp only [hentries, hentry, Scalar.exists_render?_iff, entryNaturals, List.mem_filterMap]
  exact ⟨fun h n ⟨entry, hmem, hn⟩ => h entry hmem n hn,
    fun h entry hmem n hn => h n ⟨entry, hmem, hn⟩⟩

/-- **A layout has a text if all its numbers fit**, and only then. -/
theorem exists_render?_iff (layout : Layout) :
    (∃ text, render? layout = some text) ↔ ∀ n ∈ layout.naturals, n < integerBound := by
  have hlayout : (∃ text, render? layout = some text) ↔
      (∃ text, renderEntries? layout.entries = some text) ∧
        ∀ s ∈ layout.sections, ∃ text, s.render? = some text := by
    rw [← Option.exists_mapM_eq_some_iff]
    cases h : renderEntries? layout.entries <;>
      cases h' : layout.sections.mapM Section.render? <;> simp [render?, h, h']
  have hsection : ∀ s : Section, (∃ text, s.render? = some text) ↔
      ∃ text, renderEntries? s.entries = some text := fun s => by
    constructor
    · rintro ⟨text, htext⟩
      obtain ⟨body, hbody, -⟩ := Option.bind_eq_some_iff.1 htext
      exact ⟨body, hbody⟩
    · rintro ⟨body, hbody⟩
      exact ⟨_, Option.bind_eq_some_iff.2 ⟨body, hbody, rfl⟩⟩
  simp only [hlayout, hsection, exists_renderEntries?_iff, Layout.naturals,
    List.forall_mem_append, List.mem_flatMap]
  exact and_congr_right' ⟨fun h n ⟨s, hs, hn⟩ => h s hs n hn, fun h s hs n hn => h n ⟨s, hs, hn⟩⟩

/-! ## Items at the end of a table

What a line does to a table depends on the item that has the name already.  If there is none, a new
item comes to the end, and what is done to the item at the end leaves the others alone. -/

section Fresh

variable {name : String} {entries : Entries}

/-- No item of a table has the name. -/
def IsFresh (name : String) (entries : Entries) : Prop :=
  ∀ entry ∈ entries, entry.1 ≠ name

theorem IsFresh.find? (h : IsFresh name entries) : entries.find? name = none :=
  List.lookup_eq_none_iff.2 fun entry hentry => bne_iff_ne.2 (h entry hentry).symm

theorem IsFresh.find?_append (h : IsFresh name entries) (item : Item) :
    Entries.find? (entries ++ [(name, item)]) name = some item := by
  rw [Entries.find?, List.lookup_append, show entries.lookup name = none from h.find?]
  simp

theorem IsFresh.put_append (h : IsFresh name entries) (item : Item) (rest : Entries) :
    Entries.put name item (entries ++ rest) = entries ++ Entries.put name item rest := by
  induction entries with
  | nil => rfl
  | cons entry entries ih =>
    obtain ⟨hentry, hentries⟩ := List.forall_mem_cons.1 h
    rw [List.cons_append, Entries.put, if_neg hentry, ih hentries, List.cons_append]

theorem IsFresh.put (h : IsFresh name entries) (item : Item) :
    entries.put name item = entries ++ [(name, item)] := by
  have hput := h.put_append item []
  rwa [List.append_nil] at hput

theorem IsFresh.put_last (h : IsFresh name entries) (old item : Item) :
    Entries.put name item (entries ++ [(name, old)]) = entries ++ [(name, item)] := by
  rw [h.put_append]
  simp [Entries.put]

theorem IsFresh.assign (h : IsFresh name entries) (document : Document) :
    Entries.assign document [name] .header entries =
      some (entries ++ [(name, .value document)]) := by
  simp only [Entries.assign, h.find?, h.put]

theorem IsFresh.openTable (h : IsFresh name entries) :
    Entries.openTable [name] entries = some (entries ++ [(name, .table .header [])]) := by
  simp only [Entries.openTable, h.find?, h.put]

theorem IsFresh.openElement (h : IsFresh name entries) :
    Entries.openElement [name] entries = some (entries ++ [(name, .tables [[]])]) := by
  simp only [Entries.openElement, h.find?, h.put]

theorem IsFresh.openElement_last (h : IsFresh name entries) (elements : List Entries) :
    Entries.openElement [name] (entries ++ [(name, .tables elements)]) =
      some (entries ++ [(name, .tables (elements ++ [[]]))]) := by
  simp only [Entries.openElement, h.find?_append, h.put_last]

end Fresh

/-! ## The table under a header -/

/-- What `around` puts round a table leaves it as the one at the path. -/
def IsFocused (path : List String) (around : Entries → Entries) : Prop :=
  ∀ (f : Entries → Option Entries) (inner : Entries),
    Entries.atCurrent f path (around inner) = (f inner).map around

theorem isFocused_top : IsFocused [] id := fun f inner => by
  rw [Entries.atCurrent, Option.map_id]
  rfl

theorem IsFresh.isFocused_table {name : String} {entries : Entries} (h : IsFresh name entries) :
    IsFocused [name] fun inner => entries ++ [(name, .table .header inner)] := by
  intro f inner
  simp only [Entries.atCurrent, h.find?_append, h.put_last]
  cases f inner <;> rfl

theorem IsFresh.isFocused_element {name : String} {entries : Entries} (h : IsFresh name entries)
    (elements : List Entries) :
    IsFocused [name] fun inner => entries ++ [(name, .tables (elements ++ [inner]))] := by
  intro f inner
  simp only [Entries.atCurrent, h.find?_append, h.put_last, Entries.atLast, List.getLast?_concat,
    List.dropLast_concat, bind, Option.bind]
  cases f inner <;> rfl

theorem IsFocused.step_assignment {path : List String} {around : Entries → Entries}
    (h : IsFocused path around) {name : String} {inner : Entries} (hfresh : IsFresh name inner)
    (document : Document) :
    State.step ⟨around inner, path⟩ (.assignment [name] document) =
      some ⟨around (inner ++ [(name, .value document)]), path⟩ := by
  have hcurrent := h (Entries.assign document [name] .header) inner
  rw [hfresh.assign, Option.map_some] at hcurrent
  rw [State.step]
  exact congrArg (Option.bind · _) hcurrent

/-- The items that keys and values make. -/
def valueEntries (entries : List (String × Scalar)) : Entries :=
  entries.map fun entry => (entry.1, .value entry.2.toDocument)

/-- **Keys and values go into the table under the header**, and nothing else changes. -/
theorem IsFocused.foldlM_entryLines {path : List String} {around : Entries → Entries}
    (h : IsFocused path around) {entries : List (String × Scalar)} {inner : Entries}
    (hfresh : ∀ entry ∈ entries, IsFresh entry.1 inner) (hnodup : (entries.map Prod.fst).Nodup) :
    (entryLines entries).foldlM State.step ⟨around inner, path⟩ =
      some ⟨around (inner ++ valueEntries entries), path⟩ := by
  induction entries generalizing inner with
  | nil => simp [entryLines, valueEntries]
  | cons entry entries ih =>
    obtain ⟨hentry, hentries⟩ := List.forall_mem_cons.1 hfresh
    rw [List.map_cons, List.nodup_cons] at hnodup
    have hrest : ∀ other ∈ entries, IsFresh other.1
        (inner ++ [(entry.1, .value entry.2.toDocument)]) := by
      intro other hother p hp
      rcases List.mem_append.1 hp with hp | hp
      · exact hentries other hother p hp
      · rintro heq
        rw [List.mem_singleton.1 hp] at heq
        exact hnodup.1 (heq ▸ List.mem_map_of_mem hother)
    have hfold := ih hrest hnodup.2
    rw [List.append_assoc] at hfold
    rw [entryLines, List.map_cons, List.foldlM_cons, h.step_assignment hentry]
    exact hfold

/-! ## The parts of a layout

The parts of a layout have different names, so each adds its own item to the table at the top and
leaves the items of the others alone. -/

/-- One table, or all tables with the same repeated header. -/
inductive Part where
  | table (name : String) (entries : List (String × Scalar))
  | tables (name : String) (elements : List (List (String × Scalar)))

namespace Part

/-- The name in the headers of a part. -/
def name : Part → String
  | .table name _ | .tables name _ => name

/-- The tables of a part. -/
def elements : Part → List (List (String × Scalar))
  | .table _ entries => [entries]
  | .tables _ elements => elements

/-- The sections that a part is written as. -/
def sections : Part → List Section
  | .table name entries => [⟨name, false, entries⟩]
  | .tables name elements => elements.map fun entries => ⟨name, true, entries⟩

/-- The item that a part makes.  Repeated tables of which there is none make nothing. -/
def items : Part → Entries
  | .table name entries => [(name, .table .header (valueEntries entries))]
  | .tables _ [] => []
  | .tables name elements => [(name, .tables (elements.map valueEntries))]

end Part

/-- A section whose header opens an empty table fills it with its keys and values. -/
theorem Section.foldlM_lines {s : Section} {state : State} {around : Entries → Entries}
    (hopen : state.step s.headerLine = some ⟨around [], [s.name]⟩)
    (hfocus : IsFocused [s.name] around) (hnodup : (s.entries.map Prod.fst).Nodup) :
    s.lines.foldlM State.step state = some ⟨around (valueEntries s.entries), [s.name]⟩ := by
  have hentries : (entryLines s.entries).foldlM State.step ⟨around [], [s.name]⟩ =
      some ⟨around (valueEntries s.entries), [s.name]⟩ :=
    hfocus.foldlM_entryLines (fun _ _ => nofun) hnodup
  have hblank : state.step .blank = some state := rfl
  rw [lines, List.foldlM_cons, hblank, Option.bind_eq_bind, Option.bind_some, List.foldlM_cons,
    hopen]
  exact hentries

/-- The tables of a repeated header come behind those that are there. -/
theorem IsFresh.foldlM_elements {name : String} {entries : Entries} (h : IsFresh name entries)
    {elements : List (List (String × Scalar))}
    (hnodup : ∀ element ∈ elements, (element.map Prod.fst).Nodup) (before : List Entries) :
    ((elements.map fun element => Section.mk name true element).flatMap Section.lines).foldlM
        State.step ⟨entries ++ [(name, .tables before)], [name]⟩ =
      some ⟨entries ++ [(name, .tables (before ++ elements.map valueEntries))], [name]⟩ := by
  induction elements generalizing before with
  | nil => simp
  | cons element elements ih =>
    obtain ⟨helement, helements⟩ := List.forall_mem_cons.1 hnodup
    have hopen : State.step ⟨entries ++ [(name, .tables before)], [name]⟩ (.element [name]) =
        some ⟨entries ++ [(name, .tables (before ++ [[]]))], [name]⟩ := by
      rw [State.step]
      exact congrArg (Option.bind · _) (h.openElement_last before)
    have hfill := Section.foldlM_lines (s := ⟨name, true, element⟩) hopen
      (h.isFocused_element before) helement
    have hrest := ih helements (before ++ [valueEntries element])
    rw [List.append_assoc] at hrest
    rw [List.map_cons, List.flatMap_cons, List.foldlM_append, hfill]
    exact hrest

/-- **The sections of a part make its item.** -/
theorem Part.foldlM_lines {part : Part} {entries : Entries} (path : List String)
    (h : IsFresh part.name entries)
    (hnodup : ∀ element ∈ part.elements, (element.map Prod.fst).Nodup) :
    ∃ path', (part.sections.flatMap Section.lines).foldlM State.step ⟨entries, path⟩ =
      some ⟨entries ++ part.items, path'⟩ := by
  cases part with
  | table name element =>
    have hopen : State.step ⟨entries, path⟩ (.table [name]) =
        some ⟨entries ++ [(name, .table .header [])], [name]⟩ := by
      rw [State.step]
      exact congrArg (Option.bind · _) h.openTable
    have hfill := Section.foldlM_lines (s := ⟨name, false, element⟩) hopen h.isFocused_table
      (hnodup element (List.mem_singleton_self _))
    rw [sections, List.flatMap_singleton]
    exact ⟨[name], hfill⟩
  | tables name elements =>
    cases elements with
    | nil => exact ⟨path, by simp [sections, items]⟩
    | cons element elements =>
      obtain ⟨helement, helements⟩ := List.forall_mem_cons.1 hnodup
      have hopen : State.step ⟨entries, path⟩ (.element [name]) =
          some ⟨entries ++ [(name, .tables [[]])], [name]⟩ := by
        rw [State.step]
        exact congrArg (Option.bind · _) h.openElement
      have hfill := Section.foldlM_lines (s := ⟨name, true, element⟩) hopen
        (h.isFocused_element []) helement
      have hrest := h.foldlM_elements helements [valueEntries element]
      rw [sections, List.map_cons, List.flatMap_cons, List.foldlM_append, hfill]
      exact ⟨[name], hrest⟩

theorem Part.of_mem_sections {part : Part} {s : Section} (h : s ∈ part.sections) :
    s.name = part.name ∧ s.entries ∈ part.elements := by
  cases part with
  | table name element =>
    rw [List.mem_singleton.1 h]
    exact ⟨rfl, List.mem_singleton_self element⟩
  | tables name elements =>
    obtain ⟨element, helement, rfl⟩ := List.mem_map.1 h
    exact ⟨rfl, helement⟩

theorem Part.name_of_mem_items {part : Part} {entry : String × Item} (h : entry ∈ part.items) :
    entry.1 = part.name := by
  cases part with
  | table name element => rw [List.mem_singleton.1 h]; rfl
  | tables name elements =>
    cases elements with
    | nil => cases h
    | cons element elements => rw [List.mem_singleton.1 h]; rfl

/-- Parts of different names make their items one after the other. -/
theorem foldlM_parts {parts : List Part} {entries : Entries} (path : List String)
    (hfresh : ∀ part ∈ parts, IsFresh part.name entries) (hnames : (parts.map Part.name).Nodup)
    (hkeys : ∀ part ∈ parts, ∀ element ∈ part.elements, (element.map Prod.fst).Nodup) :
    ∃ path', ((parts.flatMap Part.sections).flatMap Section.lines).foldlM State.step
        ⟨entries, path⟩ = some ⟨entries ++ parts.flatMap Part.items, path'⟩ := by
  induction parts generalizing entries path with
  | nil => exact ⟨path, by simp⟩
  | cons part parts ih =>
    obtain ⟨hpart, hparts⟩ := List.forall_mem_cons.1 hfresh
    obtain ⟨hkey, hkeys⟩ := List.forall_mem_cons.1 hkeys
    rw [List.map_cons, List.nodup_cons] at hnames
    obtain ⟨path₁, hfirst⟩ := Part.foldlM_lines path hpart hkey
    have hfresh : ∀ other ∈ parts, IsFresh other.name (entries ++ part.items) := by
      intro other hother entry hentry
      rcases List.mem_append.1 hentry with hentry | hentry
      · exact hparts other hother entry hentry
      · rw [Part.name_of_mem_items hentry]
        rintro heq
        exact hnames.1 (heq ▸ List.mem_map_of_mem hother)
    obtain ⟨path₂, hrest⟩ := ih path₁ hfresh hnames.2 hkeys
    rw [List.append_assoc] at hrest
    refine ⟨path₂, ?_⟩
    rw [List.flatMap_cons, List.flatMap_append, List.foldlM_append, hfirst]
    exact hrest

/-! ## The document of a layout -/

theorem entriesToFields_eq_map (entries : Entries) :
    entriesToFields entries = entries.map fun entry => (entry.1, entry.2.toDocument) := by
  induction entries with
  | nil => rw [entriesToFields, List.map_nil]
  | cons entry entries ih => rw [entriesToFields, ih, List.map_cons]

theorem entriesToFields_append (entries entries' : Entries) :
    entriesToFields (entries ++ entries') =
      entriesToFields entries ++ entriesToFields entries' := by
  simp only [entriesToFields_eq_map, List.map_append]

theorem entriesToFields_flatMap {α : Type} (items : α → Entries) (xs : List α) :
    entriesToFields (xs.flatMap items) = xs.flatMap fun x => entriesToFields (items x) := by
  simp only [entriesToFields_eq_map, List.map_flatMap]

theorem elementsToDocuments_eq_map (elements : List Entries) :
    elementsToDocuments elements =
      elements.map fun entries => .record (entriesToFields entries) := by
  induction elements with
  | nil => rw [elementsToDocuments, List.map_nil]
  | cons element elements ih => rw [elementsToDocuments, ih, List.map_cons]

/-- Keys and values as fields. -/
def entryFields (entries : List (String × Scalar)) : List (String × Document) :=
  entries.map fun entry => (entry.1, entry.2.toDocument)

/-- Keys and values as a document. -/
def entriesDocument (entries : List (String × Scalar)) : Document :=
  .record (entryFields entries)

theorem entriesToFields_valueEntries (entries : List (String × Scalar)) :
    entriesToFields (valueEntries entries) = entryFields entries := by
  rw [entriesToFields_eq_map, valueEntries, List.map_map, entryFields]
  refine List.map_congr_left fun entry _ => ?_
  rw [Function.comp_apply, Item.toDocument]

/-- The field that a part is read as, if it has a table at all. -/
def Part.fields : Part → List (String × Document)
  | .table name entries => [(name, entriesDocument entries)]
  | .tables _ [] => []
  | .tables name elements => [(name, .list (elements.map entriesDocument))]

theorem Part.entriesToFields_items (part : Part) : entriesToFields part.items = part.fields := by
  cases part with
  | table name element =>
    simp only [items, fields, entriesToFields, Item.toDocument, entriesToFields_valueEntries,
      entriesDocument]
  | tables name elements =>
    cases elements with
    | nil => rw [items, fields, entriesToFields]
    | cons element elements =>
      simp only [items, fields, entriesToFields, Item.toDocument, elementsToDocuments_eq_map,
        List.map_map, Function.comp_def, entriesToFields_valueEntries]
      rfl

/-- Keys in front of all sections, and the sections in parts. -/
structure Outline where
  entries : List (String × Scalar)
  parts : List Part

namespace Outline

/-- The layout of an outline. -/
def layout (self : Outline) : Layout where
  entries := self.entries
  sections := self.parts.flatMap Part.sections

/-- The document that an outline stands for. -/
def document (self : Outline) : Document :=
  .record (entryFields self.entries ++ self.parts.flatMap Part.fields)

/-- Outlines all of whose tables have keys of their own. -/
structure IsClear (outline : Outline) : Prop where
  names : AreKeys (outline.entries.map Prod.fst ++ outline.parts.map Part.name)
  keys : ∀ part ∈ outline.parts, ∀ element ∈ part.elements, AreKeys (element.map Prod.fst)

theorem IsClear.hasBareKeys_layout {outline : Outline} (h : outline.IsClear) :
    outline.layout.HasBareKeys := by
  have hnames := List.forall_mem_append.1 h.names.bare
  refine ⟨List.forall_mem_map.1 hnames.1, fun s hs => ?_⟩
  obtain ⟨part, hpart, hs⟩ := List.mem_flatMap.1 hs
  obtain ⟨hname, helement⟩ := Part.of_mem_sections hs
  exact ⟨hname ▸ List.forall_mem_map.1 hnames.2 part hpart,
    List.forall_mem_map.1 (h.keys part hpart s.entries helement).bare⟩

/-- **What is written is read back**, as the document that it stands for. -/
theorem IsClear.parse?_render? {outline : Outline} {text : String} (h : outline.IsClear)
    (htext : render? outline.layout = some text) : parse? text = some outline.document := by
  have hmany := Layout.many_line_render h.hasBareKeys_layout htext
  obtain ⟨hentries, hparts, hdistinct⟩ := List.nodup_append.1 h.names.nodup
  have hleading : (entryLines outline.entries).foldlM State.step ⟨[], []⟩ =
      some ⟨valueEntries outline.entries, []⟩ :=
    isFocused_top.foldlM_entryLines (fun _ _ => nofun) hentries
  have hfresh : ∀ part ∈ outline.parts, IsFresh part.name (valueEntries outline.entries) := by
    intro part hpart entry hentry
    obtain ⟨source, hsource, rfl⟩ := List.mem_map.1 hentry
    exact hdistinct _ (List.mem_map_of_mem hsource) _ (List.mem_map_of_mem hpart)
  obtain ⟨path, hsections⟩ := foldlM_parts [] hfresh hparts
    fun part hpart element helement => (h.keys part hpart element helement).nodup
  have hlines : outline.layout.lines.foldlM State.step ⟨[], []⟩ =
      some ⟨valueEntries outline.entries ++ outline.parts.flatMap Part.items, path⟩ := by
    rw [Layout.lines, List.foldlM_append]
    exact (congrArg (Option.bind · _) hleading).trans hsections
  have hfields : entriesToFields (valueEntries outline.entries ++
      outline.parts.flatMap Part.items) =
        entryFields outline.entries ++ outline.parts.flatMap Part.fields := by
    rw [entriesToFields_append, entriesToFields_valueEntries, entriesToFields_flatMap]
    simp only [Part.entriesToFields_items]
  rw [parse?, dropByteOrderMark_eq_self hmany, hmany]
  simp only [bind, Option.bind, skipBlanks, List.dropWhile_nil, ne_eq, not_true_eq_false, if_false,
    hlines, hfields, pure]
  rfl

end Outline

end Toml
end RiscvTables
