import RiscvTables.Document

/-!
# TOML tables

A TOML text builds its tables piece by piece: a header opens a table, a line gives a key a value,
and a key of several parts makes the tables on its way.  Which later piece may still add to a table
depends on how the table came about, so an `Item` remembers that until the text is over.

An edit that the format does not allow, such as a second value for a key, gives nothing.
-/

set_option autoImplicit false

namespace RiscvTables
namespace Toml

/-- How a table came about. -/
inductive Origin where
  /-- It has a header of its own, or is the top level. -/
  | header
  /-- A header below it made it. -/
  | implied
  /-- A key of several parts made it. -/
  | dotted
deriving DecidableEq

/-- What a name in a table stands for. -/
inductive Item where
  | value (document : Document)
  | table (origin : Origin) (entries : List (String × Item))
  /-- Tables with the same repeated header; the last of them is the current one. -/
  | tables (elements : List (List (String × Item)))

/-- The named items of a table, in the order in which they were made. -/
abbrev Entries : Type := List (String × Item)

namespace Entries

/-- The item with a name. -/
def find? (entries : Entries) (name : String) : Option Item :=
  entries.lookup name

/-- The entries with the item of a name replaced, or added at the end. -/
def put (name : String) (item : Item) : Entries → Entries
  | [] => [(name, item)]
  | entry :: rest => if entry.1 = name then (name, item) :: rest else entry :: put name item rest

/-- Applies a function to the last of a list of tables. -/
def atLast (f : Entries → Option Entries) (elements : List Entries) : Option (List Entries) := do
  let last ← elements.getLast?
  return elements.dropLast ++ [← f last]

/-- Gives a key a value, in a table of the given origin.  The table that takes the value must have
been made by the same sort of key: the current table by a key of one part, a dotted table by a key
of several. -/
def assign (document : Document) : List String → Origin → Entries → Option Entries
  | [], _, _ => none
  | [name], origin, entries =>
    match origin, entries.find? name with
    | .implied, _ => none
    | _, some _ => none
    | _, none => some (entries.put name (.value document))
  | name :: path, _, entries =>
    match entries.find? name with
    | none => do
      return entries.put name (.table .dotted (← assign document path .dotted []))
    | some (.table .dotted inner) => do
      return entries.put name (.table .dotted (← assign document path .dotted inner))
    | some (.table .implied inner) => do
      return entries.put name (.table .implied (← assign document path .implied inner))
    | some (.tables elements) => do
      return entries.put name (.tables (← atLast (assign document path .implied) elements))
    | some _ => none

/-- Opens the table of a header, making the tables on its way. -/
def openTable : List String → Entries → Option Entries
  | [], _ => none
  | [name], entries =>
    match entries.find? name with
    | none => some (entries.put name (.table .header []))
    | some (.table .implied inner) => some (entries.put name (.table .header inner))
    | some _ => none
  | name :: path, entries =>
    match entries.find? name with
    | none => do return entries.put name (.table .implied (← openTable path []))
    | some (.table origin inner) => do
      return entries.put name (.table origin (← openTable path inner))
    | some (.tables elements) => do
      return entries.put name (.tables (← atLast (openTable path) elements))
    | some (.value _) => none

/-- Opens one more table of a repeated header, making the tables on its way. -/
def openElement : List String → Entries → Option Entries
  | [], _ => none
  | [name], entries =>
    match entries.find? name with
    | none => some (entries.put name (.tables [[]]))
    | some (.tables elements) => some (entries.put name (.tables (elements ++ [[]])))
    | some _ => none
  | name :: path, entries =>
    match entries.find? name with
    | none => do return entries.put name (.table .implied (← openElement path []))
    | some (.table origin inner) => do
      return entries.put name (.table origin (← openElement path inner))
    | some (.tables elements) => do
      return entries.put name (.tables (← atLast (openElement path) elements))
    | some (.value _) => none

/-- Applies a function to the table at the path of the current header. -/
def atCurrent (f : Entries → Option Entries) : List String → Entries → Option Entries
  | [], entries => f entries
  | name :: path, entries =>
    match entries.find? name with
    | some (.table origin inner) => do
      return entries.put name (.table origin (← atCurrent f path inner))
    | some (.tables elements) => do
      return entries.put name (.tables (← atLast (atCurrent f path) elements))
    | _ => none

end Entries

mutual

/-- The document that an item is. -/
def Item.toDocument : Item → Document
  | .value document => document
  | .table _ entries => .record (entriesToFields entries)
  | .tables elements => .list (elementsToDocuments elements)

/-- The fields that the entries of a table are. -/
def entriesToFields : List (String × Item) → List (String × Document)
  | [] => []
  | (name, item) :: rest => (name, item.toDocument) :: entriesToFields rest

/-- The records that repeated tables are. -/
def elementsToDocuments : List (List (String × Item)) → List Document
  | [] => []
  | entries :: rest => .record (entriesToFields entries) :: elementsToDocuments rest

end

/-- The document of an inline table with the given assignments. -/
def collectInline (assignments : List (List String × Document)) : Option Document := do
  let entries ← assignments.foldlM
    (fun entries (path, document) => Entries.assign document path .header entries) []
  return .record (entriesToFields entries)

end Toml
end RiscvTables
