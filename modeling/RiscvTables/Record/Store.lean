import RiscvTables.ErrorKind
import RiscvTables.Record

/-!
# The record store

A store keeps the published records sorted by kind, and within a kind in the order of their
publication.  A kind has a bucket while there are records of it; removing a kind removes its
bucket.

The typed lookups at the end are what a consumer uses: all records of a type, at most one, or
exactly one.
-/

set_option autoImplicit false

namespace RiscvTables

/-- Why a record could not be had. -/
inductive StoreError where
  /-- There is no record of the kind. -/
  | notFound (kind : RecordKind)
  /-- There are more records of the kind than the consumer takes. -/
  | tooMany (kind : RecordKind) (max found : Nat)
  /-- There is no room for more records of the kind. -/
  | outOfResources (kind : RecordKind) (count : Nat)
deriving DecidableEq, Repr

namespace StoreError

/-- The wording of the error. -/
def message : StoreError → String
  | .notFound kind => s!"no {kind.label} record available"
  | .tooMany kind max found => s!"expected at most {max} {kind.label} record(s), found {found}"
  | .outOfResources kind count =>
    s!"could not reserve storage for {count} {kind.label} record(s)"

/-- What sort of failure the error is. -/
def kind : StoreError → ErrorKind
  | .notFound _ => .notFound
  | .tooMany .. => .invalidParameter
  | .outOfResources .. => .outOfResources

end StoreError

/-- The published records of each kind, in the order of the kinds. -/
structure Store where
  buckets : List (RecordKind × List Record)
deriving DecidableEq, Repr

namespace Store

/-- The store without records. -/
def empty : Store := ⟨[]⟩

/-- Puts a record at the end of its kind's bucket, making the bucket where it belongs in the
order of kinds if it is not there. -/
def insert (record : Record) : List (RecordKind × List Record) → List (RecordKind × List Record)
  | [] => [(record.kind, [record])]
  | bucket :: rest =>
    if record.kind = bucket.1 then (bucket.1, bucket.2 ++ [record]) :: rest
    else if record.kind.rank < bucket.1.rank then (record.kind, [record]) :: bucket :: rest
    else bucket :: insert record rest

variable (store : Store)

/-- The store with more records, in their order. -/
def publish (records : List Record) : Store :=
  ⟨records.foldl (fun buckets record => insert record buckets) store.buckets⟩

/-- All records of a kind, in the order of their publication. -/
def fetch (kind : RecordKind) : List Record :=
  (store.buckets.lookup kind).getD []

/-- The store without the records of a kind. -/
def remove (kind : RecordKind) : Store :=
  ⟨store.buckets.filter fun bucket => bucket.1 ≠ kind⟩

/-- Takes the bucket of a kind out of the store: its records, and the store without it. -/
def extract (kind : RecordKind) : List Record × Store :=
  let (found, rest) := go store.buckets
  (found, ⟨rest⟩)
where
  /-- The records in the first bucket of the kind, and the other buckets. -/
  go : List (RecordKind × List Record) → List Record × List (RecordKind × List Record)
    | [] => ([], [])
    | bucket :: rest =>
      if kind = bucket.1 then (bucket.2, rest)
      else
        let (found, others) := go rest
        (found, bucket :: others)

/-- All records, in the order of their kinds. -/
def records : List Record :=
  store.buckets.flatMap Prod.snd

/-- How many records there are. -/
def size : Nat :=
  store.records.length

/-! ## Typed lookups -/

/-- All records of a type. -/
def fetchAll (α : Type) [RecordType α] : List α :=
  ((RecordType.kinds α).flatMap store.fetch).filterMap RecordType.ofRecord?

/-- The record of a type, if there is one; more than one is an error. -/
def fetchOptional (α : Type) [RecordType α] : Except StoreError (Option α) :=
  match store.fetchAll α with
  | [] => .ok none
  | [record] => .ok (some record)
  | records => .error (.tooMany (RecordType.primaryKind α) 1 records.length)

/-- The one record of a type. -/
def fetchSingle (α : Type) [RecordType α] : Except StoreError α := do
  match ← store.fetchOptional α with
  | some record => return record
  | none => throw (.notFound (RecordType.primaryKind α))

end Store
end RiscvTables
