import Mathlib.Data.List.Basic
import RiscvTables.Proofs.Lookup
import RiscvTables.Proofs.Outcome
import RiscvTables.Record.Store

/-!
# What a store holds

A store keeps its buckets in the order of their kinds (`Sorted`), and with that order a record
that is published goes to the end of its own kind and nowhere else (`fetch_publish`).

Looking up the one record of a type succeeds exactly when there is one (`fetchSingle_eq_ok_iff`),
and looking up an optional one exactly when there are not two (`fetchOptional_eq_ok_iff`).
-/

set_option autoImplicit false

namespace RiscvTables

/-- A type whose records are all of one kind. -/
class RecordType.OneKind (α : Type) [RecordType α] : Prop where
  otherKinds_eq : RecordType.otherKinds α = []
  kind_eq {record : Record} {a : α} (h : RecordType.ofRecord? record = some a) :
    record.kind = RecordType.primaryKind α

instance : RecordType.OneKind HartRecord where
  otherKinds_eq := rfl
  kind_eq {record a} h := by cases record <;> cases h; rfl

instance : RecordType.OneKind IsaRecord where
  otherKinds_eq := rfl
  kind_eq {record a} h := by cases record <;> cases h; rfl

instance : RecordType.OneKind CacheBlockRecord where
  otherKinds_eq := rfl
  kind_eq {record a} h := by cases record <;> cases h; rfl

instance : RecordType.OneKind TimerRecord where
  otherKinds_eq := rfl
  kind_eq {record a} h := by cases record <;> cases h; rfl

namespace Store

variable {store : Store}

/-! ## Publishing -/

/-- Buckets in the order of their kinds, one for each kind. -/
def SortedBuckets (buckets : List (RecordKind × List Record)) : Prop :=
  buckets.Pairwise fun first second => first.1.rank < second.1.rank

/-- The buckets of a store are in order. -/
def Sorted (store : Store) : Prop :=
  SortedBuckets store.buckets

theorem sorted_empty : empty.Sorted :=
  List.Pairwise.nil

theorem lookup_eq_none_of_rank_lt {buckets : List (RecordKind × List Record)} {kind : RecordKind}
    (h : ∀ bucket ∈ buckets, kind.rank < bucket.1.rank) : buckets.lookup kind = none := by
  rw [List.lookup_eq_none_iff]
  intro bucket hbucket
  have hne : kind ≠ bucket.1 := fun heq => Nat.ne_of_lt (h bucket hbucket) (heq ▸ rfl)
  simp [hne]

/-- A new record goes to the end of its kind. -/
theorem lookup_insert {record : Record} {buckets : List (RecordKind × List Record)}
    (h : SortedBuckets buckets) (kind : RecordKind) :
    (insert record buckets).lookup kind =
      if kind = record.kind then some ((buckets.lookup kind).getD [] ++ [record])
      else buckets.lookup kind := by
  induction buckets with
  | nil =>
    rw [insert, lookup_cons_eq_ite]
    rfl
  | cons bucket rest ih =>
    obtain ⟨hbucket, hrest⟩ := List.pairwise_cons.1 h
    obtain ⟨first, records⟩ := bucket
    rw [insert]
    split
    next hfirst =>
      subst hfirst
      rw [lookup_cons_eq_ite, lookup_cons_eq_ite]
      by_cases hkind : kind = record.kind <;> simp [hkind]
    next hfirst =>
      split
      next hlt =>
        have hnone : ((first, records) :: rest).lookup record.kind = none := by
          refine lookup_eq_none_of_rank_lt fun other hother => ?_
          rcases List.mem_cons.1 hother with rfl | hother
          · exact hlt
          · exact Nat.lt_trans hlt (hbucket other hother)
        rw [lookup_cons_eq_ite]
        by_cases hkind : kind = record.kind
        · rw [if_pos hkind, if_pos hkind, hkind, hnone]
          rfl
        · rw [if_neg hkind, if_neg hkind]
      next =>
        rw [lookup_cons_eq_ite, lookup_cons_eq_ite, ih hrest]
        by_cases hkind : kind = first
        · have hne : kind ≠ record.kind := fun heq => hfirst (heq.symm.trans hkind)
          rw [if_pos hkind, if_pos hkind, if_neg hne]
        · rw [if_neg hkind, if_neg hkind]

theorem mem_insert_kind {record : Record} {buckets : List (RecordKind × List Record)}
    {bucket : RecordKind × List Record} (h : bucket ∈ insert record buckets) :
    bucket.1 = record.kind ∨ ∃ old ∈ buckets, bucket.1 = old.1 := by
  induction buckets with
  | nil =>
    rw [insert, List.mem_singleton] at h
    exact Or.inl (congrArg Prod.fst h)
  | cons first rest ih =>
    rw [insert] at h
    split at h
    next =>
      rcases List.mem_cons.1 h with rfl | h
      · exact Or.inr ⟨first, List.mem_cons_self, rfl⟩
      · exact Or.inr ⟨bucket, List.mem_cons_of_mem first h, rfl⟩
    next =>
      split at h
      next =>
        rcases List.mem_cons.1 h with rfl | h
        · exact Or.inl rfl
        · exact Or.inr ⟨bucket, h, rfl⟩
      next =>
        rcases List.mem_cons.1 h with rfl | h
        · exact Or.inr ⟨bucket, List.mem_cons_self, rfl⟩
        · refine (ih h).imp_right ?_
          rintro ⟨old, hold, hkind⟩
          exact ⟨old, List.mem_cons_of_mem first hold, hkind⟩

theorem sorted_insert {record : Record} {buckets : List (RecordKind × List Record)}
    (h : SortedBuckets buckets) : SortedBuckets (insert record buckets) := by
  induction buckets with
  | nil => exact List.pairwise_singleton _ _
  | cons first rest ih =>
    obtain ⟨hfirst, hrest⟩ := List.pairwise_cons.1 h
    rw [insert]
    split
    next => exact List.pairwise_cons.2 ⟨hfirst, hrest⟩
    next hkind =>
      split
      next hlt =>
        refine List.pairwise_cons.2 ⟨fun bucket hbucket => ?_, h⟩
        rcases List.mem_cons.1 hbucket with rfl | hbucket
        · exact hlt
        · exact Nat.lt_trans hlt (hfirst bucket hbucket)
      next hnot =>
        refine List.pairwise_cons.2 ⟨fun bucket hbucket => ?_, ih hrest⟩
        rcases mem_insert_kind hbucket with heq | ⟨old, hold, heq⟩
        · have hne : first.1.rank ≠ record.kind.rank := fun hrank =>
            hkind (RecordKind.rank_injective hrank).symm
          rw [heq]
          omega
        · rw [heq]
          exact hfirst old hold

theorem sorted_publish (h : store.Sorted) (records : List Record) :
    (store.publish records).Sorted := by
  obtain ⟨buckets⟩ := store
  induction records generalizing buckets with
  | nil => exact h
  | cons record rest ih => exact ih (insert record buckets) (sorted_insert h)

theorem sorted_remove (h : store.Sorted) (kind : RecordKind) : (store.remove kind).Sorted :=
  List.Pairwise.filter _ h

/-- **What is published is added to its kinds, in order.** -/
theorem fetch_publish (h : store.Sorted) (records : List Record) (kind : RecordKind) :
    (store.publish records).fetch kind =
      store.fetch kind ++ records.filter fun record => record.kind = kind := by
  obtain ⟨buckets⟩ := store
  induction records generalizing buckets with
  | nil => exact (List.append_nil _).symm
  | cons record rest ih =>
    have hrest : (publish ⟨buckets⟩ (record :: rest)).fetch kind =
        fetch ⟨insert record buckets⟩ kind ++ rest.filter fun record => record.kind = kind :=
      ih (insert record buckets) (sorted_insert h)
    rw [hrest, fetch, fetch, lookup_insert h, List.filter_cons]
    by_cases hkind : kind = record.kind
    · simp [hkind]
    · simp [hkind, Ne.symm hkind]

/-! ## Typed lookups -/

/-- For a type that has one kind, the published records of the type are added. -/
theorem fetchAll_publish {α : Type} [RecordType α] [RecordType.OneKind α] (h : store.Sorted)
    (records : List Record) :
    (store.publish records).fetchAll α =
      store.fetchAll α ++ records.filterMap RecordType.ofRecord? := by
  have hfilter : (records.filter fun record => record.kind = RecordType.primaryKind α).filterMap
      RecordType.ofRecord? = records.filterMap (RecordType.ofRecord? (α := α)) := by
    rw [List.filterMap_filter]
    refine List.filterMap_congr fun record _ => ?_
    split
    next => rfl
    next hother =>
      cases hrecord : RecordType.ofRecord? (α := α) record with
      | none => rfl
      | some a => exact absurd (RecordType.OneKind.kind_eq hrecord) (by simpa using hother)
  rw [fetchAll, fetchAll, RecordType.kinds, RecordType.OneKind.otherKinds_eq,
    List.flatMap_singleton, List.flatMap_singleton, fetch_publish h, List.filterMap_append, hfilter]

theorem fetchOptional_eq_ok_iff {α : Type} [RecordType α] {found : Option α} :
    store.fetchOptional α = .ok found ↔ store.fetchAll α = found.toList := by
  rw [fetchOptional]
  cases hall : store.fetchAll α with
  | nil => cases found <;> simp
  | cons record rest =>
    cases rest with
    | nil => cases found <;> simp
    | cons second rest => cases found <;> simp

theorem fetchOptional_eq_error {α : Type} [RecordType α] (h : 1 < (store.fetchAll α).length) :
    store.fetchOptional α =
      .error (.tooMany (RecordType.primaryKind α) 1 (store.fetchAll α).length) := by
  rw [fetchOptional]
  split
  next hnil => simp [hnil] at h
  next hone => simp [hone] at h
  next => rfl

theorem fetchSingle_eq_ok_iff {α : Type} [RecordType α] {record : α} :
    store.fetchSingle α = .ok record ↔ store.fetchAll α = [record] := by
  rw [fetchSingle, Except.bind_eq_ok_iff]
  constructor
  · rintro ⟨found, hfound, h⟩
    cases found with
    | none => exact absurd h Except.throw_ne_ok
    | some first =>
      obtain rfl := Except.pure_eq_ok_iff.1 h
      exact fetchOptional_eq_ok_iff.1 hfound
  · intro h
    exact ⟨some record, fetchOptional_eq_ok_iff.2 h, rfl⟩

/-- What is wrong with having so many records of a kind where there should be one. -/
def notSingle (kind : RecordKind) (found : Nat) : StoreError :=
  if found = 0 then .notFound kind else .tooMany kind 1 found

theorem fetchSingle_eq_error {α : Type} [RecordType α] (h : (store.fetchAll α).length ≠ 1) :
    store.fetchSingle α =
      .error (notSingle (RecordType.primaryKind α) (store.fetchAll α).length) := by
  by_cases hzero : (store.fetchAll α).length = 0
  · have hnone : store.fetchOptional α = .ok none :=
      fetchOptional_eq_ok_iff.2 (List.length_eq_zero_iff.1 hzero)
    rw [fetchSingle, hnone, notSingle, if_pos hzero]
    rfl
  · rw [fetchSingle, fetchOptional_eq_error (by omega), notSingle, if_neg hzero]
    rfl

end Store
end RiscvTables
