import Mathlib.Algebra.Ring.Nat
import Mathlib.Data.List.DropRight
import Mathlib.Data.List.Sort
import RiscvTables.Proofs.Record.Store
import RiscvTables.Record.Document

/-!
# What a store holds after any calls

A store is asked to publish batches and to remove kinds.  What it holds of a kind is then what has
been published of the kind since its last removal (`Store.kept`), whatever else was asked of it in
between.  This is read off the calls; no store appears in it.

What a store lists as a whole follows from that if its buckets are in order, none is empty and none
holds records of another kind (`Store.Regular`): then the buckets are no more than a way of writing
down what each kind has (`Store.Regular.buckets_eq`).

The order of calls for different kinds makes no difference, and neither does where one batch ends
and the next begins.  `Store.events` says what is left of some calls from the point of view of one
kind, and calls with the same events for each kind leave the same store (`Store.history_law`).
-/

set_option autoImplicit false

namespace RiscvTables

/-- A type of record that its kinds tell apart from the others, and that is written in `Record` in
one way only. -/
class RecordType.Lawful (α : Type) [RecordType α] : Prop where
  kinds_eq : RecordKind.all.filter (fun kind => kind ∈ RecordType.kinds α) = RecordType.kinds α
  kind_mem_eq (record : Record) :
    decide (record.kind ∈ RecordType.kinds α) = (RecordType.ofRecord? (α := α) record).isSome
  toRecord_eq {record : Record} {a : α} (h : RecordType.ofRecord? record = some a) :
    RecordType.toRecord a = record

instance : RecordType.Lawful HartRecord where
  kinds_eq := rfl
  kind_mem_eq record := by rcases record with _ | ⟨_, _, _ | _⟩ | _ | _ | _ | _ <;> rfl
  toRecord_eq {record a} h := by cases record <;> cases h; rfl

instance : RecordType.Lawful BankRecord where
  kinds_eq := rfl
  kind_mem_eq record := by rcases record with _ | ⟨_, _, _ | _⟩ | _ | _ | _ | _ <;> rfl
  toRecord_eq {record a} h := by cases record <;> cases h; rfl

instance : RecordType.Lawful ReceiverRecord where
  kinds_eq := rfl
  kind_mem_eq record := by rcases record with _ | ⟨_, _, _ | _⟩ | _ | _ | _ | _ <;> rfl
  toRecord_eq {record a} h := by cases record <;> cases h; rfl

instance : RecordType.Lawful IsaRecord where
  kinds_eq := rfl
  kind_mem_eq record := by rcases record with _ | ⟨_, _, _ | _⟩ | _ | _ | _ | _ <;> rfl
  toRecord_eq {record a} h := by cases record <;> cases h; rfl

instance : RecordType.Lawful CacheBlockRecord where
  kinds_eq := rfl
  kind_mem_eq record := by rcases record with _ | ⟨_, _, _ | _⟩ | _ | _ | _ | _ <;> rfl
  toRecord_eq {record a} h := by cases record <;> cases h; rfl

instance : RecordType.Lawful TimerRecord where
  kinds_eq := rfl
  kind_mem_eq record := by rcases record with _ | ⟨_, _, _ | _⟩ | _ | _ | _ | _ <;> rfl
  toRecord_eq {record a} h := by cases record <;> cases h; rfl

namespace Store

/-! ## Calls -/

/-- What is asked of a store. -/
inductive Call where
  | publish (records : List Record)
  | remove (kind : RecordKind)
deriving DecidableEq, Repr

/-- Carries out a call: the records that it hands back, and the store after it. -/
def call (store : Store) : Call → List Record × Store
  | .publish records => ([], store.publish records)
  | .remove kind => store.extract kind

/-- The store after one call and the next. -/
def calls (store : Store) (calls : List Call) : Store :=
  calls.foldl (fun store call => (store.call call).2) store

/-- The records that a call publishes. -/
def Call.published : Call → List Record
  | .publish records => records
  | .remove _ => []

/-- What has been published of a kind since its last removal, in order. -/
def kept (kind : RecordKind) (calls : List Call) : List Record :=
  ((calls.rtakeWhile fun call => call ≠ .remove kind).flatMap Call.published).filter fun record =>
    record.kind = kind

theorem kept_publish (kind : RecordKind) (calls : List Call) (records : List Record) :
    kept kind (calls ++ [.publish records]) =
      kept kind calls ++ records.filter fun record => record.kind = kind := by
  rw [kept, List.rtakeWhile_concat_pos _ _ _ (by simp), List.flatMap_append, List.filter_append,
    List.flatMap_singleton]
  rfl

theorem kept_remove (kind other : RecordKind) (calls : List Call) :
    kept kind (calls ++ [.remove other]) = if kind = other then [] else kept kind calls := by
  by_cases hkind : kind = other
  · rw [if_pos hkind, kept, List.rtakeWhile_concat_neg _ _ _ (by simp [hkind])]
    rfl
  · rw [if_neg hkind, kept, List.rtakeWhile_concat_pos _ _ _ (by simp [Ne.symm hkind]),
      List.flatMap_append, List.flatMap_singleton, Call.published, List.append_nil, kept]

/-! ## Removing

A removal takes the first bucket of a kind and looks no further.  In sorted buckets there is no
second one. -/

section Remove

variable {store : Store}

theorem lookup_filter_kind (buckets : List (RecordKind × List Record)) (kind other : RecordKind) :
    (buckets.filter fun bucket => bucket.1 ≠ kind).lookup other =
      if other = kind then none else buckets.lookup other := by
  induction buckets with
  | nil => exact (ite_self none).symm
  | cons bucket rest ih =>
    obtain ⟨first, records⟩ := bucket
    by_cases hfirst : first = kind
    · rw [List.filter_cons_of_neg (by simp [hfirst]), ih, lookup_cons_eq_ite, hfirst]
      split <;> rfl
    · rw [List.filter_cons_of_pos (by simp [hfirst]), lookup_cons_eq_ite, lookup_cons_eq_ite, ih]
      by_cases hother : other = first
      · rw [if_pos hother, if_pos hother, if_neg (hother ▸ hfirst)]
      · rw [if_neg hother, if_neg hother]

theorem fetch_remove (store : Store) (kind other : RecordKind) :
    (store.remove kind).fetch other = if other = kind then [] else store.fetch other := by
  rw [fetch, remove, lookup_filter_kind]
  split <;> rfl

theorem extract_go_eq {buckets : List (RecordKind × List Record)} (h : SortedBuckets buckets)
    (kind : RecordKind) :
    extract.go kind buckets =
      ((buckets.lookup kind).getD [], buckets.filter fun bucket => bucket.1 ≠ kind) := by
  induction buckets with
  | nil => rfl
  | cons bucket rest ih =>
    obtain ⟨hbucket, hrest⟩ := List.pairwise_cons.1 h
    obtain ⟨first, records⟩ := bucket
    rw [extract.go, lookup_cons_eq_ite]
    by_cases hkind : kind = first
    · subst hkind
      -- the buckets behind this one are of other kinds, and stay
      have hothers : rest.filter (fun bucket => bucket.1 ≠ kind) = rest := by
        refine List.filter_eq_self.2 fun other hother => decide_eq_true fun heq => ?_
        exact Nat.lt_irrefl _ (heq ▸ hbucket other hother)
      rw [if_pos rfl, if_pos rfl, List.filter_cons_of_neg (by simp), hothers]
      rfl
    · rw [if_neg hkind, if_neg hkind, ih hrest,
        List.filter_cons_of_pos (by simpa using Ne.symm hkind)]

/-- A removal hands back what the kind has, and leaves the rest. -/
theorem extract_eq (h : store.Sorted) (kind : RecordKind) :
    store.extract kind = (store.fetch kind, store.remove kind) := by
  rw [extract, extract_go_eq h]
  rfl

end Remove

/-! ## Regular stores

Every store that calls have made is regular, and for a regular store it is enough to know what each
kind has. -/

theorem flatMap_filter_of_eq_nil {α β : Type} {f : α → List β} {p : α → Bool} {l : List α}
    (h : ∀ a ∈ l, p a = false → f a = []) : (l.filter p).flatMap f = l.flatMap f := by
  induction l with
  | nil => rfl
  | cons a rest ih =>
    have hrest := ih fun b hb => h b (List.mem_cons_of_mem a hb)
    cases ha : p a with
    | true => rw [List.filter_cons_of_pos ha, List.flatMap_cons, List.flatMap_cons, hrest]
    | false =>
      rw [List.filter_cons_of_neg (by simp [ha]), List.flatMap_cons,
        h a List.mem_cons_self ha, List.nil_append, hrest]

namespace SortedBuckets

variable {buckets others : List (RecordKind × List Record)}

theorem nodup_kinds (h : SortedBuckets buckets) : (buckets.map Prod.fst).Nodup := by
  refine List.pairwise_map.2 (h.imp fun {first second} hlt heq => ?_)
  rw [heq] at hlt
  exact Nat.lt_irrefl _ hlt

/-- There is one order in which buckets can stand. -/
theorem eq_of_mem_iff (h : SortedBuckets buckets) (hothers : SortedBuckets others)
    (hmem : ∀ bucket, bucket ∈ buckets ↔ bucket ∈ others) : buckets = others := by
  have hperm : buckets.Perm others :=
    (List.perm_ext_iff_of_nodup h.nodup_kinds.of_map hothers.nodup_kinds.of_map).2 hmem
  exact hperm.eq_of_pairwise (fun _ _ _ _ hlt hgt => absurd hgt (Nat.lt_asymm hlt)) h hothers

end SortedBuckets

/-- A bucket holds records, all of them of its kind. -/
def OwnRecords (bucket : RecordKind × List Record) : Prop :=
  bucket.2 ≠ [] ∧ ∀ record ∈ bucket.2, record.kind = bucket.1

/-- The buckets are in the order of their kinds, and each holds records of its own kind. -/
structure Regular (store : Store) : Prop where
  sorted : store.Sorted
  own : ∀ bucket ∈ store.buckets, OwnRecords bucket

theorem regular_empty : empty.Regular where
  sorted := sorted_empty
  own _ hbucket := nomatch hbucket

theorem own_insert {record : Record} {buckets : List (RecordKind × List Record)}
    (h : ∀ bucket ∈ buckets, OwnRecords bucket) :
    ∀ bucket ∈ insert record buckets, OwnRecords bucket := by
  have hnew : OwnRecords (record.kind, [record]) := by simp [OwnRecords]
  induction buckets with
  | nil => simpa [insert] using hnew
  | cons first rest ih =>
    obtain ⟨hfirst, hrest⟩ := List.forall_mem_cons.1 h
    rw [insert]
    split
    next hkind =>
      refine List.forall_mem_cons.2 ⟨⟨by simp, fun other hother => ?_⟩, hrest⟩
      rcases List.mem_append.1 hother with hother | hother
      · exact hfirst.2 other hother
      · rw [List.mem_singleton.1 hother]
        exact hkind
    next =>
      split
      · exact List.forall_mem_cons.2 ⟨hnew, h⟩
      · exact List.forall_mem_cons.2 ⟨hfirst, ih hrest⟩

namespace Regular

variable {store : Store}

theorem publish (h : store.Regular) (records : List Record) : (store.publish records).Regular := by
  obtain ⟨buckets⟩ := store
  induction records generalizing buckets with
  | nil => exact h
  | cons record rest ih =>
    exact ih (insert record buckets) ⟨sorted_insert h.sorted, own_insert h.own⟩

theorem remove (h : store.Regular) (kind : RecordKind) : (store.remove kind).Regular where
  sorted := sorted_remove h.sorted kind
  own bucket hbucket := h.own bucket (List.mem_of_mem_filter hbucket)

theorem call (h : store.Regular) (c : Call) : (store.call c).2.Regular := by
  cases c with
  | publish records => exact h.publish records
  | remove kind =>
    rw [Store.call, extract_eq h.sorted]
    exact h.remove kind

theorem mem_buckets_iff (h : store.Regular) {kind : RecordKind} {found : List Record} :
    (kind, found) ∈ store.buckets ↔ found ≠ [] ∧ store.fetch kind = found := by
  have hnodup := h.sorted.nodup_kinds
  rw [← lookup_eq_some_iff_mem hnodup, fetch]
  constructor
  · intro hlookup
    have hown := h.own _ ((lookup_eq_some_iff_mem hnodup).1 hlookup)
    rw [hlookup]
    exact ⟨hown.1, rfl⟩
  · rintro ⟨hne, hfound⟩
    cases hlookup : store.buckets.lookup kind with
    | none => rw [hlookup] at hfound; exact absurd hfound.symm hne
    | some records => rw [hlookup] at hfound; exact congrArg some hfound

theorem kind_of_mem_fetch (h : store.Regular) {kind : RecordKind} {record : Record}
    (hrecord : record ∈ store.fetch kind) : record.kind = kind := by
  have hbucket := h.mem_buckets_iff.2 ⟨List.ne_nil_of_mem hrecord, rfl⟩
  exact (h.own _ hbucket).2 record hrecord

/-- **The buckets of a store are what its kinds have**, in the order of the kinds. -/
theorem buckets_eq (h : store.Regular) :
    store.buckets = (RecordKind.all.filter fun kind => store.fetch kind ≠ []).map fun kind =>
      (kind, store.fetch kind) := by
  have hall : RecordKind.all.Pairwise fun first second => first.rank < second.rank := by decide
  refine SortedBuckets.eq_of_mem_iff h.sorted (List.pairwise_map.2 (hall.filter _)) ?_
  rintro ⟨kind, found⟩
  rw [h.mem_buckets_iff, List.mem_map]
  constructor
  · rintro ⟨hne, rfl⟩
    refine ⟨kind, List.mem_filter.2 ⟨?_, decide_eq_true hne⟩, rfl⟩
    cases kind <;> decide
  · rintro ⟨other, hother, heq⟩
    obtain ⟨rfl, rfl⟩ := Prod.mk.inj heq
    exact ⟨of_decide_eq_true (List.mem_filter.1 hother).2, rfl⟩

theorem records_eq (h : store.Regular) : store.records = RecordKind.all.flatMap store.fetch := by
  rw [records, h.buckets_eq, List.flatMap_map]
  exact flatMap_filter_of_eq_nil fun kind _ hnil => by simpa using hnil

/-- **A regular store is determined by what its kinds have.** -/
theorem eq_of_fetch_eq (h : store.Regular) {other : Store} (hother : other.Regular)
    (hfetch : ∀ kind, store.fetch kind = other.fetch kind) : store = other := by
  have hbuckets : store.buckets = other.buckets := by
    rw [h.buckets_eq, hother.buckets_eq, funext hfetch]
  obtain ⟨buckets⟩ := store
  exact congrArg Store.mk hbuckets

/-! ### Typed lookups -/

variable {α : Type} [RecordType α] [RecordType.Lawful α]

/-- A typed lookup finds all stored records of the type. -/
theorem fetchAll_eq (h : store.Regular) :
    store.fetchAll α = store.records.filterMap RecordType.ofRecord? := by
  -- a bucket of a kind that is not the type's has no record of the type
  have hothers (kind : RecordKind) (hkind : kind ∉ RecordType.kinds α) :
      (store.fetch kind).filterMap (RecordType.ofRecord? (α := α)) = [] := by
    refine List.filterMap_eq_nil_iff.2 fun record hrecord => Option.not_isSome_iff_eq_none.1 ?_
    rw [← RecordType.Lawful.kind_mem_eq, h.kind_of_mem_fetch hrecord]
    simpa using hkind
  rw [fetchAll, h.records_eq, List.filterMap_flatMap, List.filterMap_flatMap,
    ← RecordType.Lawful.kinds_eq]
  exact flatMap_filter_of_eq_nil fun kind _ hkind => hothers kind (of_decide_eq_false hkind)

/-- A typed lookup leaves out no record that is stored under the kinds of the type. -/
theorem map_toRecord_fetchAll (h : store.Regular) :
    (store.fetchAll α).map RecordType.toRecord = (RecordType.kinds α).flatMap store.fetch := by
  have hback : ∀ record ∈ (RecordType.kinds α).flatMap store.fetch,
      (RecordType.ofRecord? (α := α) record).map RecordType.toRecord = some record := by
    intro record hrecord
    obtain ⟨kind, hkind, hfetch⟩ := List.mem_flatMap.1 hrecord
    have hsome : (RecordType.ofRecord? (α := α) record).isSome := by
      rw [← RecordType.Lawful.kind_mem_eq, h.kind_of_mem_fetch hfetch]
      exact decide_eq_true hkind
    obtain ⟨a, ha⟩ := Option.isSome_iff_exists.1 hsome
    rw [ha, Option.map_some, RecordType.Lawful.toRecord_eq ha]
  rw [fetchAll, List.map_filterMap, List.filterMap_congr hback, List.filterMap_some]

end Regular

/-! ## After any calls -/

theorem calls_concat (store : Store) (calls : List Call) (call : Call) :
    store.calls (calls ++ [call]) = ((store.calls calls).call call).2 := by
  rw [Store.calls, List.foldl_concat, Store.calls]

theorem regular_calls (calls : List Call) : (empty.calls calls).Regular := by
  induction calls using List.reverseRecOn with
  | nil => exact regular_empty
  | append_singleton calls call ih =>
    rw [calls_concat]
    exact ih.call call

/-- **A store has of a kind what was published of it since its last removal.** -/
theorem fetch_calls (calls : List Call) (kind : RecordKind) :
    (empty.calls calls).fetch kind = kept kind calls := by
  induction calls using List.reverseRecOn with
  | nil => rfl
  | append_singleton calls call ih =>
    have hsorted := (regular_calls calls).sorted
    rw [calls_concat]
    cases call with
    | publish records => rw [Store.call, fetch_publish hsorted, ih, kept_publish]
    | remove other => rw [Store.call, extract_eq hsorted, fetch_remove, ih, kept_remove]

/-! ## The history law

From the point of view of one kind there are only publications and removals.  Two publications in a
row are the same as one, which is why it does not matter where a batch ends. -/

/-- What happens to the records of one kind. -/
inductive Event where
  | publication (record : Record)
  | removal
deriving DecidableEq, Repr

/-- What a call does to the records of a kind. -/
def Call.events (kind : RecordKind) : Call → List Event
  | .publish records => (records.filter fun record => record.kind = kind).map .publication
  | .remove other => if kind = other then [.removal] else []

/-- What some calls do to the records of a kind, in order. -/
def events (kind : RecordKind) (calls : List Call) : List Event :=
  calls.flatMap (Call.events kind)

/-- The records of a kind after an event. -/
def Event.apply (records : List Record) : Event → List Record
  | .publication record => records ++ [record]
  | .removal => []

theorem foldl_publication (records published : List Record) :
    (published.map Event.publication).foldl Event.apply records = records ++ published := by
  induction published generalizing records with
  | nil => exact (List.append_nil records).symm
  | cons record rest ih =>
    rw [List.map_cons, List.foldl_cons, ih, Event.apply, List.append_assoc, List.singleton_append]

/-- What is kept of a kind shows in its events. -/
theorem kept_eq_foldl (kind : RecordKind) (calls : List Call) :
    kept kind calls = (events kind calls).foldl Event.apply [] := by
  induction calls using List.reverseRecOn with
  | nil => rfl
  | append_singleton calls call ih =>
    rw [events, List.flatMap_append, List.flatMap_singleton, List.foldl_append, ← events, ← ih]
    cases call with
    | publish records => rw [kept_publish, Call.events, foldl_publication]
    | remove other =>
      rw [kept_remove, Call.events]
      split <;> rfl

/-- Calls that do the same to each kind leave the same store. -/
theorem calls_eq_of_events_eq {first second : List Call}
    (h : ∀ kind, events kind first = events kind second) :
    empty.calls first = empty.calls second := by
  refine (regular_calls first).eq_of_fetch_eq (regular_calls second) fun kind => ?_
  rw [fetch_calls, fetch_calls, kept_eq_foldl, kept_eq_foldl, h]

/-- A store is what is left of some calls: every way of looking at it shows, for each kind, the
records that were published of the kind since its last removal. -/
structure Holds (store : Store) (calls : List Call) : Prop where
  fetch_eq (kind : RecordKind) : store.fetch kind = kept kind calls
  /-- A removal hands back the records that it takes away. -/
  removed_eq (kind : RecordKind) : (store.call (.remove kind)).1 = kept kind calls
  /-- There is a bucket for each kind that has records, and they are in order. -/
  buckets_eq : store.buckets =
    (RecordKind.all.filter fun kind => kept kind calls ≠ []).map fun kind => (kind, kept kind calls)
  records_eq : store.records = RecordKind.all.flatMap fun kind => kept kind calls
  size_eq : store.size = (RecordKind.all.map fun kind => (kept kind calls).length).sum
  /-- A typed lookup finds the stored records of the type. -/
  fetchAll_eq (α : Type) [RecordType α] [RecordType.Lawful α] :
    store.fetchAll α = store.records.filterMap RecordType.ofRecord?
  /-- A typed lookup finds all that is kept of the kinds of the type. -/
  map_fetchAll (α : Type) [RecordType α] [RecordType.Lawful α] :
    (store.fetchAll α).map RecordType.toRecord =
      (RecordType.kinds α).flatMap fun kind => kept kind calls
  /-- The PLIC banks come before the APLIC banks. -/
  banks_eq : (store.fetchAll BankRecord).map Record.bank = kept .plic calls ++ kept .aplic calls

theorem holds_calls (calls : List Call) : (empty.calls calls).Holds calls := by
  have hregular := regular_calls calls
  have hfetch : (empty.calls calls).fetch = fun kind => kept kind calls :=
    funext (fetch_calls calls)
  have hrecords : (empty.calls calls).records =
      RecordKind.all.flatMap fun kind => kept kind calls := by
    rw [hregular.records_eq, hfetch]
  have hall (α : Type) [RecordType α] [RecordType.Lawful α] :
      ((empty.calls calls).fetchAll α).map RecordType.toRecord =
        (RecordType.kinds α).flatMap fun kind => kept kind calls := by
    rw [hregular.map_toRecord_fetchAll, hfetch]
  exact
    { fetch_eq := fetch_calls calls
      removed_eq := fun kind => by
        rw [Store.call, extract_eq hregular.sorted]
        exact fetch_calls calls kind
      buckets_eq := by rw [hregular.buckets_eq, hfetch]
      records_eq := hrecords
      size_eq := by rw [size, hrecords, List.length_flatMap]
      fetchAll_eq := fun α => hregular.fetchAll_eq
      map_fetchAll := hall
      banks_eq := (hall BankRecord).trans (by
        simp [RecordType.kinds, RecordType.primaryKind, RecordType.otherKinds]) }

theorem filter_append_comm {batch others : List Record}
    (h : ∀ record ∈ batch, ∀ other ∈ others, record.kind ≠ other.kind) (kind : RecordKind) :
    (batch ++ others).filter (fun record => record.kind = kind) =
      (others ++ batch).filter fun record => record.kind = kind := by
  rw [List.filter_append, List.filter_append]
  by_cases hbatch : ∃ record ∈ batch, record.kind = kind
  · obtain ⟨record, hrecord, hkind⟩ := hbatch
    have hothers : others.filter (fun record => record.kind = kind) = [] := by
      refine List.filter_eq_nil_iff.2 fun other hother => ?_
      simpa [hkind] using (h record hrecord other hother).symm
    rw [hothers, List.append_nil, List.nil_append]
  · have hnil : batch.filter (fun record => record.kind = kind) = [] := by
      refine List.filter_eq_nil_iff.2 fun record hrecord => ?_
      simpa using fun hkind => hbatch ⟨record, hrecord, hkind⟩
    rw [hnil, List.append_nil, List.nil_append]

/-- Two batches are one batch. -/
theorem events_publish_publish (kind : RecordKind) (before after : List Call)
    (batch others : List Record) :
    events kind (before ++ .publish batch :: .publish others :: after) =
      events kind (before ++ .publish (batch ++ others) :: after) := by
  simp only [events, List.flatMap_append, List.flatMap_cons, Call.events, List.filter_append,
    List.map_append, List.append_assoc]

/-- **The history law.**  After any calls, every way of looking at a store shows, for each kind,
what was published of it since its last removal.  So it makes no difference to a store where a
batch ends, nor in which order records of different kinds are published. -/
theorem history_law (calls : List Call) :
    (empty.calls calls).Holds calls ∧
    (∀ others, (∀ kind, events kind calls = events kind others) →
      empty.calls calls = empty.calls others) ∧
    (∀ batch others after,
      empty.calls (calls ++ .publish batch :: .publish others :: after) =
        empty.calls (calls ++ .publish (batch ++ others) :: after)) ∧
    ∀ batch others after, (∀ record ∈ batch, ∀ other ∈ others, record.kind ≠ other.kind) →
      empty.calls (calls ++ .publish batch :: .publish others :: after) =
        empty.calls (calls ++ .publish others :: .publish batch :: after) := by
  have hmerge (batch others : List Record) (after : List Call) :
      empty.calls (calls ++ .publish batch :: .publish others :: after) =
        empty.calls (calls ++ .publish (batch ++ others) :: after) :=
    calls_eq_of_events_eq fun kind => events_publish_publish kind calls after batch others
  refine ⟨holds_calls calls, fun _ => calls_eq_of_events_eq, hmerge, ?_⟩
  intro batch others after hkinds
  rw [hmerge, hmerge]
  refine calls_eq_of_events_eq fun kind => ?_
  simp only [events, List.flatMap_append, List.flatMap_cons, Call.events,
    filter_append_comm hkinds]

/-- Calls that publish records of four kinds and remove one kind between. -/
def mixedHistory : List Call :=
  [.publish [.timer ⟨10000000, false⟩, .hart (.fresh 0 0)],
    .publish [.bank (.fresh .aplic 0), .bank (.fresh .plic 0), .hart (.fresh 1 1)],
    .remove .hart,
    .publish [.bank (.fresh .plic 1), .hart (.fresh 2 2)]]

theorem history_law_mixedHistory :
    (empty.calls mixedHistory).Holds mixedHistory ∧
    kept .hart mixedHistory = [.hart (.fresh 2 2)] ∧
    (empty.calls mixedHistory).fetchAll BankRecord =
      [.fresh .plic 0, .fresh .plic 1, .fresh .aplic 0] ∧
    empty.calls mixedHistory = empty.calls
      [.publish [.hart (.fresh 0 0), .hart (.fresh 1 1)], .remove .hart,
        .publish [.hart (.fresh 2 2), .bank (.fresh .plic 0), .bank (.fresh .plic 1)],
        .publish [.bank (.fresh .aplic 0), .timer ⟨10000000, false⟩]] ∧
    empty.calls (mixedHistory ++ .publish [.isa ⟨"rv64i"⟩] :: .publish [.hart (.fresh 3 3)] :: []) =
      empty.calls
        (mixedHistory ++ .publish [.hart (.fresh 3 3)] :: .publish [.isa ⟨"rv64i"⟩] :: []) := by
  obtain ⟨hholds, hevents, -, hswap⟩ := history_law mixedHistory
  refine ⟨hholds, by decide, by decide, hevents _ fun kind => ?_, hswap _ _ [] (by decide)⟩
  cases kind <;> decide

end Store
end RiscvTables
