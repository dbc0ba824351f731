import Mathlib.Data.Set.List
import RiscvTables.Proofs.Toml.Layouts

/-!
# TOML as a text format

`Toml.format` obeys the laws that the library relies on: it reads back what it has written
(`readsBack_format`), writes what fits 64 bits with a sign (`writesSmall_format`), and refuses
larger integers (`refusesLarge_format`).

The laws speak of documents, what is known of the printer and the reader speaks of outlines.  A
document in sections is that of a clear outline (`exists_outline`), and the printer, which is given
the document alone, finds the layout of that outline (`Layout.ofDocument?_document`).
-/

set_option autoImplicit false

namespace RiscvTables
namespace Toml

open RiscvTables.Document (AreKeys IsSection IsSectioned IsSingle IsTable)

/-! ## Documents that have an outline -/

/-- Members that each come from somewhere are together the image of a list. -/
theorem exists_map_eq {α β : Type} {f : α → β} {ys : List β} (h : ∀ y ∈ ys, ∃ x, f x = y) :
    ∃ xs : List α, xs.map f = ys :=
  (Set.ext_iff.1 (Set.range_list_map f) ys).2 h

theorem exists_scalar {document : Document} (h : document.IsSingle) :
    ∃ scalar : Scalar, scalar.toDocument = document := by
  cases h with
  | text value => exact ⟨.text value, rfl⟩
  | boolean value => exact ⟨.boolean value, rfl⟩
  | natural n => exact ⟨.natural n, rfl⟩

theorem exists_entries {fields : List (String × Document)}
    (h : ∀ field ∈ fields, IsSingle field.2) : ∃ entries, entryFields entries = fields :=
  exists_map_eq fun field hfield => by
    obtain ⟨scalar, hscalar⟩ := exists_scalar (h field hfield)
    exact ⟨(field.1, scalar), Prod.ext rfl hscalar⟩

theorem exists_entriesDocument {document : Document} (h : document.IsTable) :
    ∃ entries, entriesDocument entries = document := by
  obtain ⟨-, hsingle⟩ := h
  obtain ⟨entries, rfl⟩ := exists_entries hsingle
  exact ⟨entries, rfl⟩

theorem map_fst_entryFields (entries : List (String × Scalar)) :
    (entryFields entries).map Prod.fst = entries.map Prod.fst := by
  rw [entryFields, List.map_map]
  rfl

theorem areKeys_of_isTable {entries : List (String × Scalar)}
    (h : (entriesDocument entries).IsTable) : AreKeys (entries.map Prod.fst) := by
  obtain ⟨hkeys, -⟩ := h
  rwa [map_fst_entryFields] at hkeys

theorem exists_part {field : String × Document} (h : field.2.IsSection) :
    ∃ part : Part, part.fields = [field] ∧ part.name = field.1 ∧
      ∀ element ∈ part.elements, AreKeys (element.map Prod.fst) := by
  obtain ⟨name, document⟩ := field
  cases h with
  | table h =>
    obtain ⟨entries, rfl⟩ := exists_entriesDocument h
    refine ⟨.table name entries, rfl, rfl, fun element helement => ?_⟩
    rw [List.mem_singleton.1 helement]
    exact areKeys_of_isTable h
  | tables hne h =>
    obtain ⟨elements, rfl⟩ := exists_map_eq fun item hitem => exists_entriesDocument (h item hitem)
    cases elements with
    | nil => exact absurd rfl hne
    | cons element elements =>
      exact ⟨.tables name (element :: elements), rfl, rfl,
        fun other hother => areKeys_of_isTable (h _ (List.mem_map_of_mem hother))⟩

theorem exists_parts {sections : List (String × Document)}
    (h : ∀ field ∈ sections, IsSection field.2) :
    ∃ parts : List Part, parts.flatMap Part.fields = sections ∧
      parts.map Part.name = sections.map Prod.fst ∧
        ∀ part ∈ parts, ∀ element ∈ part.elements, AreKeys (element.map Prod.fst) := by
  induction sections with
  | nil => exact ⟨[], rfl, rfl, nofun⟩
  | cons field sections ih =>
    obtain ⟨hfield, hsections⟩ := List.forall_mem_cons.1 h
    obtain ⟨part, hpart, hname, hkeys⟩ := exists_part hfield
    obtain ⟨parts, rfl, hnames, hall⟩ := ih hsections
    refine ⟨part :: parts, ?_, ?_, List.forall_mem_cons.2 ⟨hkeys, hall⟩⟩
    · rw [List.flatMap_cons, hpart, List.singleton_append]
    · rw [List.map_cons, List.map_cons, hname, hnames]

/-- **A document in sections is that of a clear outline.** -/
theorem exists_outline {document : Document} (h : document.IsSectioned) :
    ∃ outline : Outline, outline.IsClear ∧ outline.document = document := by
  obtain ⟨hkeys, hleading, hsections⟩ := h
  obtain ⟨entries, rfl⟩ := exists_entries hleading
  obtain ⟨parts, rfl, hnames, hall⟩ := exists_parts hsections
  refine ⟨⟨entries, parts⟩, ⟨?_, hall⟩, rfl⟩
  rwa [List.map_append, map_fst_entryFields, ← hnames] at hkeys

/-! ## The layout that the printer finds -/

theorem Scalar.ofDocument?_toDocument (scalar : Scalar) :
    Scalar.ofDocument? scalar.toDocument = some scalar := by
  cases scalar <;> rfl

theorem entriesOfDocument?_entriesDocument (entries : List (String × Scalar)) :
    entriesOfDocument? (entriesDocument entries) = some entries := by
  refine (Option.mapM_map_eq_some (fun entry => ?_) entries).trans (congrArg some (List.map_id _))
  rw [Scalar.ofDocument?_toDocument]
  rfl

theorem Part.ofDocument?_fields {part : Part} {field : String × Document}
    (h : field ∈ part.fields) : Scalar.ofDocument? field.2 = none := by
  cases part with
  | table name entries => rw [List.mem_singleton.1 h]; rfl
  | tables name elements =>
    cases elements with
    | nil => cases h
    | cons element elements => rw [List.mem_singleton.1 h]; rfl

theorem Part.mapM_sectionsOfField? (part : Part) :
    ∃ sections, part.fields.mapM sectionsOfField? = some sections ∧
      sections.flatten = part.sections := by
  cases part with
  | table name entries =>
    have htable : sectionsOfField? (name, entriesDocument entries) =
        some [⟨name, false, entries⟩] :=
      congrArg (Option.bind · _) (entriesOfDocument?_entriesDocument entries)
    refine ⟨[[⟨name, false, entries⟩]], ?_, rfl⟩
    rw [fields, List.mapM_cons, htable]
    rfl
  | tables name elements =>
    cases elements with
    | nil => exact ⟨[], rfl, rfl⟩
    | cons element elements =>
      have htables : sectionsOfField?
          (name, .list ((element :: elements).map entriesDocument)) =
            some ((element :: elements).map fun entries => ⟨name, true, entries⟩) := by
        refine Option.mapM_map_eq_some (fun entries => ?_) (element :: elements)
        rw [entriesOfDocument?_entriesDocument]
        rfl
      refine ⟨[(element :: elements).map fun entries => ⟨name, true, entries⟩], ?_,
        List.append_nil _⟩
      change List.mapM sectionsOfField?
        [(name, .list ((element :: elements).map entriesDocument))] = _
      rw [List.mapM_cons, htables]
      rfl

theorem mapM_sectionsOfField?_parts (parts : List Part) :
    ∃ sections, (parts.flatMap Part.fields).mapM sectionsOfField? = some sections ∧
      sections.flatten = parts.flatMap Part.sections := by
  induction parts with
  | nil => exact ⟨[], rfl, rfl⟩
  | cons part parts ih =>
    obtain ⟨first, hfirst, hpart⟩ := part.mapM_sectionsOfField?
    obtain ⟨rest, hrest, hparts⟩ := ih
    refine ⟨first ++ rest, ?_, ?_⟩
    · rw [List.flatMap_cons, List.mapM_append, hfirst, hrest]
      rfl
    · rw [List.flatten_append, hpart, hparts, List.flatMap_cons]

theorem filter_append_of_forall {α : Type} {p : α → Bool} {xs ys : List α}
    (hxs : ∀ x ∈ xs, p x = true) (hys : ∀ y ∈ ys, p y = false) :
    (xs ++ ys).filter p = xs ∧ (xs ++ ys).filter (!p ·) = ys := by
  have hxs' : ∀ x ∈ xs, ¬ (!p x) = true := fun x hx => by simp [hxs x hx]
  have hys' : ∀ y ∈ ys, ¬ p y = true := fun y hy => by simp [hys y hy]
  constructor
  · rw [List.filter_append, List.filter_eq_self.2 hxs, List.filter_eq_nil_iff.2 hys',
      List.append_nil]
  · rw [List.filter_append, List.filter_eq_nil_iff.2 hxs', List.nil_append,
      List.filter_eq_self.2 fun y hy => by simp [hys y hy]]

/-- **The printer finds the layout of an outline** in its document. -/
theorem Layout.ofDocument?_document (outline : Outline) :
    Layout.ofDocument? outline.document = some outline.layout := by
  obtain ⟨sections, hsections, hflatten⟩ := mapM_sectionsOfField?_parts outline.parts
  have hentries : ∀ field ∈ entryFields outline.entries,
      (Scalar.ofDocument? field.2).isSome = true := by
    intro field hfield
    obtain ⟨entry, -, rfl⟩ := List.mem_map.1 hfield
    exact congrArg Option.isSome (Scalar.ofDocument?_toDocument entry.2)
  have hparts : ∀ field ∈ outline.parts.flatMap Part.fields,
      (Scalar.ofDocument? field.2).isSome = false := by
    intro field hfield
    obtain ⟨part, -, hfield⟩ := List.mem_flatMap.1 hfield
    exact congrArg Option.isSome (Part.ofDocument?_fields hfield)
  obtain ⟨hsingle, hothers⟩ := filter_append_of_forall hentries hparts
  have hrecord : entriesOfDocument? (.record (entryFields outline.entries)) =
      some outline.entries := entriesOfDocument?_entriesDocument outline.entries
  simp only [Outline.document, Layout.ofDocument?, hsingle, hothers, hrecord, hsections, bind,
    Option.bind, pure, hflatten, Outline.layout]

theorem write?_document (outline : Outline) :
    write? outline.document = render? outline.layout :=
  congrArg (Option.bind · render?) (Layout.ofDocument?_document outline)

/-! ## The integers of an outline -/

theorem Scalar.mentions_toDocument_iff (scalar : Scalar) (n : Int) :
    scalar.toDocument.Mentions n ↔ ∃ k, scalar.natural? = some k ∧ (k : Int) = n := by
  cases scalar <;> simp [toDocument, natural?]

theorem mentions_entriesDocument_iff (entries : List (String × Scalar)) (n : Int) :
    (entriesDocument entries).Mentions n ↔ ∃ k ∈ entryNaturals entries, (k : Int) = n := by
  simp only [entriesDocument, entryFields, Document.mentions_record_iff, List.mem_map,
    exists_exists_and_eq_and, Scalar.mentions_toDocument_iff, entryNaturals, List.mem_filterMap]
  constructor
  · rintro ⟨entry, hmem, k, hk, hn⟩
    exact ⟨k, ⟨entry, hmem, hk⟩, hn⟩
  · rintro ⟨k, ⟨entry, hmem, hk⟩, hn⟩
    exact ⟨entry, hmem, k, hk, hn⟩

theorem Part.mentions_fields_iff (part : Part) (n : Int) :
    (∃ field ∈ part.fields, field.2.Mentions n) ↔
      ∃ s ∈ part.sections, ∃ k ∈ entryNaturals s.entries, (k : Int) = n := by
  cases part with
  | table name entries => simp [fields, sections, mentions_entriesDocument_iff]
  | tables name elements =>
    cases elements <;> simp [fields, sections, mentions_entriesDocument_iff]

theorem exists_mem_flatMap {α β : Type} {f : α → List β} {xs : List α} {p : β → Prop} :
    (∃ y ∈ xs.flatMap f, p y) ↔ ∃ x ∈ xs, ∃ y ∈ f x, p y := by
  simp only [List.mem_flatMap]
  constructor
  · rintro ⟨y, ⟨x, hx, hy⟩, h⟩
    exact ⟨x, hx, y, hy, h⟩
  · rintro ⟨x, hx, y, hy, h⟩
    exact ⟨y, ⟨x, hx, hy⟩, h⟩

/-- The document of an outline mentions the numbers of its layout, and no others. -/
theorem mentions_document_iff (outline : Outline) (n : Int) :
    outline.document.Mentions n ↔ ∃ k ∈ outline.layout.naturals, (k : Int) = n := by
  have hentries := mentions_entriesDocument_iff outline.entries n
  rw [entriesDocument, Document.mentions_record_iff] at hentries
  simp only [Outline.document, Document.mentions_record_iff, Layout.naturals, Outline.layout,
    List.mem_append, or_and_right, exists_or, exists_mem_flatMap, hentries,
    Part.mentions_fields_iff]

/-- **The printer writes the document of an outline** if all its integers fit, and only then. -/
theorem exists_write?_document_iff (outline : Outline) :
    (∃ text, write? outline.document = some text) ↔
      ∀ n : Int, outline.document.Mentions n → n ≤ 0x7fffffffffffffff := by
  rw [write?_document, exists_render?_iff]
  simp only [mentions_document_iff, integerBound]
  constructor
  · rintro h n ⟨k, hk, rfl⟩
    exact Int.ofNat_le.2 (Nat.le_of_lt_succ (h k hk))
  · intro h k hk
    exact Nat.lt_succ_of_le (Int.ofNat_le.1 (h k ⟨k, hk, rfl⟩))

/-! ## The laws -/

/-- **What is written as TOML is read back.** -/
theorem readsBack_format : format.ReadsBack := by
  intro document text hdocument hwrite
  obtain ⟨outline, hclear, rfl⟩ := exists_outline hdocument
  exact hclear.parse?_render? ((write?_document outline).symm.trans hwrite)

theorem writesSmall_format : format.WritesSmall := by
  intro document hdocument hsmall
  obtain ⟨outline, -, rfl⟩ := exists_outline hdocument
  exact (exists_write?_document_iff outline).2 hsmall

theorem refusesLarge_format : format.RefusesLarge := by
  intro document n hdocument hmentions hlarge
  obtain ⟨outline, -, rfl⟩ := exists_outline hdocument
  rw [Option.eq_none_iff_forall_ne_some]
  intro text htext
  exact Int.not_le.2 hlarge ((exists_write?_document_iff outline).1 ⟨text, htext⟩ n hmentions)

end Toml
end RiscvTables
