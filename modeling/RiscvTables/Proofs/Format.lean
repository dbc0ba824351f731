import RiscvTables.Proofs.Document

/-!
# Laws of text formats

The library writes documents as text and reads them back through a `Document.Format`, which it
takes as it finds it.  What it relies on are the three laws here:

* `ReadsBack`: what has been written is read as the document that it was written for;
* `WritesSmall`: a document is written if each of its integers fits 64 bits with a sign;
* `RefusesLarge`: a document with an integer above those is not written at all.

The laws are about documents in sections only (`IsSectioned`): first single values, then tables
and lists of tables, with a bare name for each.  Formats do not agree on more than that, and a law
for all documents would hold of no format that is in use.  A TOML text has no place for `null`,
and a printer may move single values in front of the tables, so that the document that is read has
its fields in another order.
-/

set_option autoImplicit false

namespace RiscvTables
namespace Document

/-! ## Documents in sections -/

/-- A name that is a key without quotes. -/
def IsBare (name : String) : Prop :=
  name.toList ≠ [] ∧ name.toList.all (fun c => c.isAlphanum || c = '-' || c = '_') = true

instance (name : String) : Decidable (IsBare name) :=
  inferInstanceAs (Decidable (_ ∧ _))

/-- Names for the fields of one table: they can do without quotes, and no two are the same. -/
structure AreKeys (names : List String) : Prop where
  bare : ∀ name ∈ names, IsBare name
  nodup : names.Nodup

instance (names : List String) : Decidable (AreKeys names) :=
  decidable_of_iff ((∀ name ∈ names, IsBare name) ∧ names.Nodup)
    ⟨fun h => ⟨h.1, h.2⟩, fun h => ⟨h.bare, h.nodup⟩⟩

theorem AreKeys.sublist {names names' : List String} (h : AreKeys names)
    (hsublist : names'.Sublist names) : AreKeys names' :=
  ⟨fun name hname => h.bare name (hsublist.subset hname), h.nodup.sublist hsublist⟩

/-- Single values that every format can write: texts, truth values and natural numbers. -/
inductive IsSingle : Document → Prop where
  | text (value : String) : IsSingle (.text value)
  | boolean (value : Bool) : IsSingle (.boolean value)
  | natural (n : Nat) : IsSingle (natural n)

attribute [simp] IsSingle.text IsSingle.boolean IsSingle.natural

/-- Records of single values. -/
inductive IsTable : Document → Prop where
  | record {fields : List (String × Document)} (hkeys : AreKeys (fields.map Prod.fst))
      (hsingle : ∀ field ∈ fields, IsSingle field.2) : IsTable (.record fields)

/-- Tables, and lists of tables that are not empty. -/
inductive IsSection : Document → Prop where
  | table {document : Document} (h : IsTable document) : IsSection document
  | tables {items : List Document} (hne : items ≠ []) (h : ∀ item ∈ items, IsTable item) :
      IsSection (.list items)

/-- Records of single values, and sections behind them. -/
inductive IsSectioned : Document → Prop where
  | record {leading sections : List (String × Document)}
      (hkeys : AreKeys ((leading ++ sections).map Prod.fst))
      (hleading : ∀ field ∈ leading, IsSingle field.2)
      (hsections : ∀ field ∈ sections, IsSection field.2) :
      IsSectioned (.record (leading ++ sections))

/-! ## The laws -/

namespace Format

variable (format : Format)

/-- A text that the format writes for a document in sections is read as that document. -/
def ReadsBack : Prop :=
  ∀ (document : Document) (text : String), document.IsSectioned →
    format.write? document = some text → format.read? text = some document

/-- The format writes each document in sections whose integers all fit 64 bits with a sign. -/
def WritesSmall : Prop :=
  ∀ document : Document, document.IsSectioned →
    (∀ n : Int, document.Mentions n → n ≤ 0x7fffffffffffffff) →
      ∃ text, format.write? document = some text

/-- The format writes no document in sections that has a larger integer. -/
def RefusesLarge : Prop :=
  ∀ (document : Document) (n : Int), document.IsSectioned → document.Mentions n →
    0x7fffffffffffffff < n → format.write? document = none

end Format
end Document
end RiscvTables
