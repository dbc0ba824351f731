import Mathlib.Data.List.Basic
import RiscvTables.Document

/-!
# What documents hold

Types are read from documents field by field, and written to them in the same way.  What is proved
here is what all of them share.

* A field is found by its name, whatever stands around it (`Fields.required?_present`,
  `Fields.optional?_present`).  The fields of a type that writes some of them only at times are
  kept as one list, `present`, of names with or without a document, so that these lemmas need no
  case for each way in which fields can be missing.
* A natural number is read as the word that it is the value of, if it is below the bound of the
  type (`uint8?_natural`, `uint32?_natural`, `uint64?_natural`).

What integers a document mentions anywhere in it decides whether a text format can hold it;
`Mentions` says which they are.
-/

set_option autoImplicit false

namespace RiscvTables
namespace Document

/-! ## Numbers -/

theorem naturalBelow?_natural {bound n : Nat} (h : n < bound) :
    (natural n).naturalBelow? bound = some n := by
  simp [natural, naturalBelow?, h]

theorem uint8?_natural (n : UInt8) : (natural n.toNat).uint8? = some n := by
  rw [uint8?, naturalBelow?_natural n.toNat_lt, Option.map_some, UInt8.ofNat_toNat]

theorem uint32?_natural (n : UInt32) : (natural n.toNat).uint32? = some n := by
  rw [uint32?, naturalBelow?_natural n.toNat_lt, Option.map_some, UInt32.ofNat_toNat]

theorem uint64?_natural (n : UInt64) : (natural n.toNat).uint64? = some n := by
  rw [uint64?, naturalBelow?_natural n.toNat_lt, Option.map_some, UInt64.ofNat_toNat]

/-! ## Fields that may be missing -/

/-- The fields that are there. -/
def present (fields : List (String × Option Document)) : List (String × Document) :=
  fields.filterMap fun field => field.2.map (field.1, ·)

theorem filter_present_eq_nil {fields : List (String × Option Document)} {name : String}
    (h : name ∉ fields.map Prod.fst) :
    ((present fields).filter fun field => field.1 = name) = [] := by
  rw [List.filter_eq_nil_iff]
  intro field hfield
  obtain ⟨⟨first, value⟩, hmem, hvalue⟩ := List.mem_filterMap.1 hfield
  obtain ⟨document, -, rfl⟩ := Option.map_eq_some_iff.1 hvalue
  rw [decide_eq_true_iff]
  rintro rfl
  exact h (List.mem_map_of_mem hmem)

theorem present_cons (name : String) (value : Option Document)
    (fields : List (String × Option Document)) :
    present ((name, value) :: fields) = value.toList.map (name, ·) ++ present fields := by
  cases value <;> rfl

/-- The names of the fields that are there, in the order of all names. -/
theorem sublist_present (fields : List (String × Option Document)) :
    ((present fields).map Prod.fst).Sublist (fields.map Prod.fst) := by
  induction fields with
  | nil => exact .slnil
  | cons field fields ih =>
    obtain ⟨name, value⟩ := field
    rw [present_cons]
    cases value with
    | none => exact ih.cons name
    | some document => exact ih.cons_cons name

theorem filter_present {fields : List (String × Option Document)}
    (hnames : (fields.map Prod.fst).Nodup) {name : String} {value : Option Document}
    (h : (name, value) ∈ fields) :
    ((present fields).filter fun field => field.1 = name) = value.toList.map (name, ·) := by
  induction fields with
  | nil => cases h
  | cons field fields ih =>
    rw [List.map_cons, List.nodup_cons] at hnames
    obtain ⟨first, other⟩ := field
    rw [present_cons, List.filter_append]
    rcases List.mem_cons.1 h with hhere | hrest
    · obtain ⟨rfl, rfl⟩ := Prod.mk.inj hhere
      rw [filter_present_eq_nil hnames.1, List.append_nil]
      simp
    · have hne : first ≠ name := by
        rintro rfl
        exact hnames.1 (List.mem_map.2 ⟨_, hrest, rfl⟩)
      rw [ih hnames.2 hrest]
      simp [hne]

/-- Among fields of different names each is found by its name if it is there. -/
theorem Fields.find?_present {fields : List (String × Option Document)}
    (hnames : (fields.map Prod.fst).Nodup) {name : String} {value : Option Document}
    (h : (name, value) ∈ fields) (position : Nat) :
    (named (present fields)).find? position name = some value := by
  rw [find?, filter_present hnames h]
  cases value <;> rfl

section Read

variable {α : Type} {fields : List (String × Option Document)}
  (hnames : (fields.map Prod.fst).Nodup) {name : String} (position : Nat)
  (read : Document → Option α)

include hnames

theorem Fields.required?_present {document : Document} (h : (name, some document) ∈ fields) :
    (named (present fields)).required? position name read = read document := by
  rw [required?, find?_present hnames h]
  rfl

theorem Fields.optional?_present {value : Option Document} (h : (name, value) ∈ fields)
    (default : α) :
    (named (present fields)).optional? position name read default =
      value.elim (some default) read := by
  rw [optional?, find?_present hnames h]
  cases value <;> rfl

end Read

/-! ## Integers -/

section Mentions

variable {n : Int}

/-- The integer stands somewhere in the document. -/
inductive Mentions (n : Int) : Document → Prop where
  | integer : Mentions n (.integer n)
  | item {items : List Document} {item : Document} (hmem : item ∈ items)
      (h : Mentions n item) : Mentions n (.list items)
  | field {fields : List (String × Document)} {field : String × Document} (hmem : field ∈ fields)
      (h : Mentions n field.2) : Mentions n (.record fields)

@[simp] theorem not_mentions_text (value : String) : ¬ (text value).Mentions n := nofun

@[simp] theorem not_mentions_boolean (value : Bool) : ¬ (boolean value).Mentions n := nofun

@[simp] theorem mentions_natural_iff (k : Nat) : (natural k).Mentions n ↔ (k : Int) = n :=
  ⟨fun h => by cases h; rfl, fun h => h ▸ .integer⟩

@[simp] theorem mentions_list_iff (items : List Document) :
    (list items).Mentions n ↔ ∃ item ∈ items, item.Mentions n :=
  ⟨fun h => by cases h with | item hmem h => exact ⟨_, hmem, h⟩, fun ⟨_, hmem, h⟩ => .item hmem h⟩

@[simp] theorem mentions_record_iff (fields : List (String × Document)) :
    (record fields).Mentions n ↔ ∃ field ∈ fields, field.2.Mentions n :=
  ⟨fun h => by cases h with | field hmem h => exact ⟨_, hmem, h⟩,
    fun ⟨_, hmem, h⟩ => .field hmem h⟩

end Mentions

end Document
end RiscvTables
