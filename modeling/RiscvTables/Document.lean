import RiscvTables.Text.Numeral

/-!
# Documents

What a data format can say, whatever the format: truth values, numbers, texts, lists, and records
of named fields in the order in which they stand.  JSON and TOML texts are read into documents,
and the types of this library are read from documents and turned into them.

A record type is read through `Fields`.  Its fields are usually found by name, but a list serves
as well: then the n-th item is the n-th field of the type.

How a document stands in a text is the matter of a `Format`.  What is said here about documents,
and what the types of this library say about themselves as documents, mentions no format.
-/

set_option autoImplicit false

namespace RiscvTables

/-- A value of a data format. -/
inductive Document where
  | null
  | boolean (value : Bool)
  | integer (value : Int)
  /-- A number that is not written as an integer, as it is written. -/
  | fraction (literal : List Char)
  | text (value : String)
  /-- A date, a time, or both, as it is written. -/
  | moment (literal : List Char)
  | list (items : List Document)
  | record (fields : List (String × Document))

namespace Document

/-- A natural number. -/
def natural (n : Nat) : Document := .integer n

/-! ## Reading single values -/

/-- A natural number below a bound. -/
def naturalBelow? (bound : Nat) : Document → Option Nat
  | .integer n => if 0 ≤ n ∧ n.toNat < bound then some n.toNat else none
  | _ => none

/-- An 8-bit number. -/
def uint8? (document : Document) : Option UInt8 :=
  (document.naturalBelow? UInt8.size).map UInt8.ofNat

/-- A 32-bit number. -/
def uint32? (document : Document) : Option UInt32 :=
  (document.naturalBelow? UInt32.size).map UInt32.ofNat

/-- A 64-bit number. -/
def uint64? (document : Document) : Option UInt64 :=
  (document.naturalBelow? UInt64.size).map UInt64.ofNat

/-- A truth value. -/
def boolean? : Document → Option Bool
  | .boolean value => some value
  | _ => none

/-- A text. -/
def text? : Document → Option String
  | .text value => some value
  | _ => none

/-- A list whose items can all be read. -/
def listOf? {α : Type} (read : Document → Option α) : Document → Option (List α)
  | .list items => items.mapM read
  | _ => none

/-- A value that may be left out by writing `null` for it. -/
def nullable? {α : Type} (read : Document → Option α) : Document → Option (Option α)
  | .null => some none
  | document => (read document).map some

/-- A word out of a fixed set: its name, or a record that gives nothing under its name, written as
`null` or as a record without fields. -/
def word? : Document → Option String
  | .text name => some name
  | .record [(name, .null)] => some name
  | .record [(name, .record [])] => some name
  | _ => none

/-! ## Reading records -/

/-- The fields of a record: by name, or by position. -/
inductive Fields where
  | named (fields : List (String × Document))
  | positional (items : List Document)

/-- How many items more than fields a record by position may have. -/
inductive Surplus where
  /-- None. -/
  | refused
  /-- Any number; they do not count. -/
  | ignored
deriving DecidableEq

/-- The fields of a document that is to be read as a record of `count` fields.  A moment is a
record of which no field is known. -/
def fields? (surplus : Surplus) (count : Nat) : Document → Option Fields
  | .record fields => some (.named fields)
  | .list items =>
    if surplus = .refused ∧ count < items.length then none else some (.positional items)
  | .moment _ => some (.named [])
  | _ => none

namespace Fields

/-- The field with a position and a name, if it is there.  The failure, the outer `none`, is a
name that stands more than once. -/
def find? (fields : Fields) (position : Nat) (name : String) : Option (Option Document) :=
  match fields with
  | .positional items => some items[position]?
  | .named fields =>
    match fields.filter fun field => field.1 = name with
    | [] => some none
    | [field] => some (some field.2)
    | _ => none

/-- The value of a field that must be there. -/
def required? {α : Type} (fields : Fields) (position : Nat) (name : String)
    (read : Document → Option α) : Option α := do
  read (← ← fields.find? position name)

/-- The value of a field, or a default if it is not there. -/
def optional? {α : Type} (fields : Fields) (position : Nat) (name : String)
    (read : Document → Option α) (default : α) : Option α := do
  match ← fields.find? position name with
  | none => return default
  | some document => read document

end Fields

/-! ## Text formats -/

/-- A text format: how a document is written as a text, and how one is read from a text.  Either
may fail. -/
structure Format where
  write? : Document → Option String
  read? : String → Option Document

end Document
end RiscvTables
