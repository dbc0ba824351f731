import Mathlib.Algebra.BigOperators.Group.List.Basic
import Mathlib.Data.List.Nodup
import RiscvTables.Proofs.Rhct.Damage
import RiscvTables.Proofs.Rhct.Size

/-!
# The index of a table, and the bytes of its nodes

The planner adds up lengths, and the index is made of its sums.  The writer appends nodes, and the
bytes of a table are made of those.  `IsLaidOut` holds an index against a table and asks only the
bytes: at every offset of the index there is a node, with the length that it should have, and the
lengths that the nodes before it give themselves add up to that offset.

`tableNodes` are the nodes that a table should have, told from the records alone.  The payoff is
`isLaidOut_of_fetch`: what the planner lays out is what is found in the bytes.
-/

set_option autoImplicit false

namespace RiscvTables
namespace Rhct

/-! ## The nodes for the records of a store -/

/-- The node of the ISA string, with its source. -/
def isaNodes (store : Store) : List (NodeSource × NodeBody) :=
  (store.fetchAll IsaRecord).map fun record => (.isaString, .isaString record.isa)

/-- The nodes of the cache-block records. -/
def cacheBlockNodes (store : Store) : List (NodeSource × NodeBody) :=
  (store.fetchAll CacheBlockRecord).zipIdx.map fun p =>
    (.cacheBlock p.2, .cacheBlocks p.1.cbom p.1.cbop p.1.cboz)

/-- Where the nodes stand that every hart refers to: the ISA string, and the first cache blocks
behind it. -/
def sharedOffsets (store : Store) : List UInt32 :=
  (isaNodes store).head?.toList.map (fun _ => UInt32.ofNat tableHeaderSize) ++
    (cacheBlockNodes store).head?.toList.map fun _ =>
      UInt32.ofNat (tableHeaderSize + ((isaNodes store).map (·.2.size)).sum)

/-- The nodes of the harts. -/
def hartNodes (store : Store) : List (NodeSource × NodeBody) :=
  (store.fetchAll HartRecord).zipIdx.map fun p =>
    (.hartInfo p.2 p.1.processorUid, .hartInfo p.1.processorUid (sharedOffsets store))

/-- The nodes that a table for the records of a store has, in table order, each with its source. -/
def tableNodes (store : Store) : List (NodeSource × NodeBody) :=
  isaNodes store ++ cacheBlockNodes store ++ hartNodes store

/-- How long these nodes are. -/
def nodeLengths (store : Store) : List Nat :=
  (tableNodes store).map (·.2.size)

variable {store : Store} {inputs : Inputs}

theorem sharedOffsets_of_fetch (h : Inputs.fetch store = .ok inputs) :
    sharedOffsets store = inputs.isaOffset?.toList ++ inputs.cacheBlockOffset?.toList := by
  obtain ⟨-, hisa, hcacheBlocks, -, -⟩ := Inputs.fetch_eq_ok_iff.1 h
  rw [sharedOffsets, isaNodes, cacheBlockNodes, hisa, hcacheBlocks, Inputs.isaOffset?,
    Inputs.cacheBlockOffset?]
  cases inputs.isa <;> cases inputs.cacheBlocks <;> rfl

/-- The planner adds up the lengths of these nodes. -/
theorem nodeSizes_of_fetch (h : Inputs.fetch store = .ok inputs) :
    inputs.nodeSizes = (tableNodes store).map fun node => (node.1, node.2.size) := by
  have hcount : (sharedOffsets store).length = inputs.referenceCount := by
    rw [sharedOffsets_of_fetch h, ← Inputs.references_entriesFrom,
      Inputs.length_references_entriesFrom]
  obtain ⟨-, hisa, hcacheBlocks, hharts, -⟩ := Inputs.fetch_eq_ok_iff.1 h
  simp only [tableNodes, isaNodes, cacheBlockNodes, hartNodes, Inputs.nodeSizes, hisa, hcacheBlocks,
    hharts, ← hcount, List.map_append, List.map_map, Function.comp_def, NodeBody.size]

/-- What does not look at the positions is not changed by them. -/
theorem map_zipIdx_eq_map {α β : Type} (f : α → β) (xs : List α) :
    (xs.zipIdx.map fun p => f p.1) = xs.map f := by
  calc (xs.zipIdx.map fun p => f p.1) = (xs.zipIdx.map Prod.fst).map f := List.map_map.symm
    _ = xs.map f := by rw [List.zipIdx_map_fst]

theorem map_snd_tableNodes (h : Inputs.fetch store = .ok inputs) :
    (tableNodes store).map Prod.snd = inputs.bodies := by
  obtain ⟨-, hisa, hcacheBlocks, hharts, -⟩ := Inputs.fetch_eq_ok_iff.1 h
  rw [Inputs.bodies_eq, tableNodes, isaNodes, cacheBlockNodes, hartNodes, hisa, hcacheBlocks,
    hharts, sharedOffsets_of_fetch h, ← map_zipIdx_eq_map _ inputs.cacheBlocks,
    ← map_zipIdx_eq_map _ inputs.harts]
  simp only [List.map_append, List.map_map, Function.comp_def]

theorem map_snd_nodeSizes (h : Inputs.fetch store = .ok inputs) :
    inputs.nodeSizes.map Prod.snd = nodeLengths store := by
  rw [nodeSizes_of_fetch h, List.map_map, nodeLengths]
  rfl

theorem tableSize_of_fetch (h : Inputs.fetch store = .ok inputs) :
    inputs.tableSize = tableHeaderSize + (nodeLengths store).sum := by
  rw [Inputs.tableSize, totalSize_eq_sum, map_snd_nodeSizes h]

/-! ## Different sources -/

/-- The position of a record among its kind. -/
def NodeSource.position : NodeSource → Nat
  | .isaString => 0
  | .cacheBlock position => position
  | .hartInfo position _ => position

theorem nodup_map_zipIdx {α : Type} {source : α × Nat → NodeSource}
    (h : ∀ p, (source p).position = p.2) (xs : List α) : (xs.zipIdx.map source).Nodup := by
  have hpositions : (xs.zipIdx.map source).map NodeSource.position = xs.zipIdx.map Prod.snd := by
    rw [List.map_map]
    exact List.map_congr_left fun p _ => h p
  refine List.Nodup.of_map NodeSource.position ?_
  rw [hpositions, List.zipIdx_map_snd]
  exact List.nodup_range'

/-- No record has two nodes. -/
theorem nodup_map_fst_tableNodes (h : Inputs.fetch store = .ok inputs) :
    ((tableNodes store).map Prod.fst).Nodup := by
  obtain ⟨-, hisa, -, -, -⟩ := Inputs.fetch_eq_ok_iff.1 h
  have hisaNodes : ((isaNodes store).map Prod.fst).Nodup := by
    rw [isaNodes, hisa]
    cases inputs.isa <;> simp
  have hcacheBlockNodes : ((cacheBlockNodes store).map Prod.fst).Nodup := by
    rw [cacheBlockNodes, List.map_map]
    exact nodup_map_zipIdx (fun _ => rfl) _
  have hhartNodes : ((hartNodes store).map Prod.fst).Nodup := by
    rw [hartNodes, List.map_map]
    exact nodup_map_zipIdx (fun _ => rfl) _
  rw [tableNodes, List.map_append, List.map_append]
  refine List.nodup_append.2 ⟨List.nodup_append.2 ⟨hisaNodes, hcacheBlockNodes, ?_⟩, hhartNodes, ?_⟩
  all_goals
    simp only [isaNodes, cacheBlockNodes, hartNodes, List.map_map, List.mem_append, List.mem_map]
  · rintro _ ⟨record, -, rfl⟩ _ ⟨block, -, rfl⟩ heq
    cases heq
  · rintro _ (⟨record, -, rfl⟩ | ⟨block, -, rfl⟩) _ ⟨hart, -, rfl⟩ heq
    · cases heq
    · cases heq

/-! ## The index -/

/-- An index is looked up like a list of pairs. -/
theorem NodeIndex.offsetOf?_eq_lookup (index : NodeIndex) (source : NodeSource) :
    index.offsetOf? source =
      (index.entries.map fun entry => (entry.source, entry.offset)).lookup source := by
  rw [offsetOf?]
  induction index.entries with
  | nil => rfl
  | cons entry rest ih =>
    rw [List.map_cons, lookup_cons_eq_ite, ← ih]
    by_cases heq : entry.source = source
    · simp [heq]
    · simp [heq, Ne.symm heq]

/-- If no record has two entries, each is found. -/
theorem NodeIndex.offsetOf?_of_mem {index : NodeIndex} (h : (index.entries.map (·.source)).Nodup)
    {entry : IndexEntry} (hentry : entry ∈ index.entries) :
    index.offsetOf? entry.source = some entry.offset := by
  have hkeys : ((index.entries.map fun entry =>
      (entry.source, entry.offset)).map Prod.fst).Nodup := by
    rw [List.map_map]
    exact h
  rw [offsetOf?_eq_lookup, lookup_eq_some_iff_mem hkeys]
  exact List.mem_map_of_mem hentry

theorem map_source_entriesFrom (offset : Nat) (nodes : List (NodeSource × Nat)) :
    (entriesFrom offset nodes).map (·.source) = nodes.map Prod.fst := by
  induction nodes generalizing offset with
  | nil => rfl
  | cons node rest ih => rw [entriesFrom, List.map_cons, List.map_cons, ih]

/-- Each entry is behind the nodes before it. -/
theorem getElem?_entriesFrom (offset : Nat) (nodes : List (NodeSource × Nat)) (k : Nat) :
    (entriesFrom offset nodes)[k]? = nodes[k]?.map fun node =>
      ⟨node.1, UInt32.ofNat (offset + totalSize (nodes.take k))⟩ := by
  induction nodes generalizing offset k with
  | nil => rfl
  | cons node rest ih =>
    cases k with
    | zero => rfl
    | succ k =>
      rw [entriesFrom, List.getElem?_cons_succ, List.getElem?_cons_succ, ih, List.take_succ_cons,
        totalSize, Nat.add_assoc]

/-! ## The bytes of the nodes -/

/-- The length that the node of an entry has in the bytes of a table. -/
def storedLength (table : Bytes) (entry : IndexEntry) : Nat :=
  View.numberField table (entry.offset.toNat + 2) 2

/-- A node that is there whole has its length where a reader looks for it. -/
theorem numberField_of_field_eq_encode {table : Bytes} {offset : Nat} {body : NodeBody}
    (hheader : nodeHeaderSize ≤ body.size) (hsize : body.size ≤ 0xffff)
    (h : View.field table offset body.size = body.encode) :
    View.numberField table (offset + 2) 2 = body.size := by
  have hfield : View.field table (offset + 2) 2 = View.field body.encode 2 2 := by
    rw [← h, View.field, View.field, View.field, List.drop_take, List.drop_drop, List.take_take,
      Nat.min_eq_left (by simp only [nodeHeaderSize] at hheader; omega)]
  have hpieces : body.encode = [LittleEndian.encode 2 body.nodeType.toNat,
      LittleEndian.encode 2 body.size, LittleEndian.encode 2 1, body.payload].flatten := by
    simp [NodeBody.encode]
  have hencode : View.field body.encode 2 2 = LittleEndian.encode 2 body.size := by
    rw [hpieces]
    exact View.field_flatten 1 rfl (by simp) (by simp)
  rw [View.numberField, hfield, hencode, LittleEndian.decode_encode (Nat.lt_succ_of_le hsize)]

/-- What an index says of a node that is there whole. -/
def EntryOf (table : Bytes) (entry : IndexEntry) (node : NodeSource × NodeBody) : Prop :=
  entry.source = node.1 ∧ storedLength table entry = node.2.size ∧
    View.field table entry.offset.toNat node.2.size = node.2.encode

/-- Where the index puts nodes that were written one behind the other, there they are. -/
theorem forall₂_entryOf {table : Bytes} {offset : Nat} {nodes : List (NodeSource × NodeBody)}
    (hbodies : ∀ node ∈ nodes, nodeHeaderSize ≤ node.2.size ∧ node.2.size ≤ 0xffff)
    (hfits : offset + (nodes.map (·.2.size)).sum < UInt32.size)
    (hbytes : table.drop offset = (nodes.map Prod.snd).flatMap NodeBody.encode) :
    List.Forall₂ (EntryOf table)
      (entriesFrom offset (nodes.map fun node => (node.1, node.2.size))) nodes := by
  induction nodes generalizing offset with
  | nil => exact List.Forall₂.nil
  | cons node rest ih =>
    obtain ⟨hheader, hsize⟩ := hbodies node List.mem_cons_self
    have hlength := NodeBody.length_encode hheader
    rw [List.map_cons, List.sum_cons, ← Nat.add_assoc] at hfits
    rw [List.map_cons, List.flatMap_cons] at hbytes
    have hposition : (UInt32.ofNat offset).toNat = offset := UInt32.toNat_ofNat_of_lt' (by omega)
    have hfield : View.field table offset node.2.size = node.2.encode := by
      rw [View.field, hbytes, ← hlength, List.take_left]
    have hrest : table.drop (offset + node.2.size) =
        (rest.map Prod.snd).flatMap NodeBody.encode := by
      rw [← List.drop_drop, hbytes, ← hlength, List.drop_left]
    refine List.Forall₂.cons ⟨rfl, ?_, ?_⟩
      (ih (fun other hother => hbodies other (List.mem_cons_of_mem node hother)) hfits hrest)
    · rw [storedLength, hposition, numberField_of_field_eq_encode hheader hsize hfield]
    · rw [hposition, hfield]

/-! ## An index against its table -/

/-- A table and its index are laid out for the records of a store.  Everything is asked of the
bytes: the nodes are there whole, and each starts where the lengths of those before it end. -/
structure IsLaidOut (store : Store) (table : Bytes) (index : NodeIndex) : Prop where
  length : table.length = tableHeaderSize + (nodeLengths store).sum
  lengthField : View.numberField table 4 4 = table.length
  byteSum : table.byteSum = 0
  nodeCount : View.numberField table 48 4 = index.size
  /-- Every node has an entry, and is there with its length. -/
  entries : List.Forall₂ (EntryOf table) index.entries (tableNodes store)
  /-- The lengths that the nodes in front of it have in the bytes add up to each offset. -/
  offset : ∀ k entry, index.entries[k]? = some entry → entry.offset.toNat =
    tableHeaderSize + ((index.entries.take k).map (storedLength table)).sum
  offsetOf : ∀ entry ∈ index.entries, index.offsetOf? entry.source = some entry.offset

/-- **What was planned is what is written.** -/
theorem isLaidOut_of_fetch {layout : Layout} (info : TableInfo)
    (hfetch : Inputs.fetch store = .ok inputs) (hlayout : inputs.layOut = .ok layout) :
    IsLaidOut store (finalizeChecksum (inputs.draft info)) layout.index := by
  obtain ⟨hisa, hfits, rfl⟩ := Inputs.layOut_eq_ok_iff.1 hlayout
  have hlength : (finalizeChecksum (inputs.draft info)).length = inputs.tableSize := by
    rw [length_finalizeChecksum, Inputs.length_draft]
  have hheader : ∀ body ∈ inputs.bodies, nodeHeaderSize ≤ body.size :=
    fun _ => Inputs.nodeHeaderSize_le_of_mem_bodies
  have hsum : (finalizeChecksum (inputs.draft info)).byteSum = 0 := by
    refine byteSum_finalizeChecksum ?_
    rw [Inputs.length_draft, Inputs.tableSize, tableHeaderSize]
    omega
  rw [Inputs.finalizeChecksum_draft] at hlength hsum ⊢
  generalize checksum (inputs.draft info) = check at *
  have hentries : List.Forall₂ (EntryOf (inputs.pieces info check).flatten)
      (entriesFrom tableHeaderSize inputs.nodeSizes) (tableNodes store) := by
    rw [nodeSizes_of_fetch hfetch]
    refine forall₂_entryOf (fun node hnode => ?_) ?_ ?_
    · have hmem : node.2 ∈ inputs.bodies :=
        map_snd_tableNodes hfetch ▸ List.mem_map_of_mem hnode
      exact ⟨Inputs.nodeHeaderSize_le_of_mem_bodies hmem, Inputs.size_le_of_mem_bodies hisa hmem⟩
    · exact tableSize_of_fetch hfetch ▸ hfits
    · rw [Inputs.drop_pieces, map_snd_tableNodes hfetch]
  have hstored : (entriesFrom tableHeaderSize inputs.nodeSizes).map
      (storedLength (inputs.pieces info check).flatten) = nodeLengths store := by
    rw [nodeLengths, ← List.forall₂_eq_eq_eq, List.forall₂_map_left_iff,
      List.forall₂_map_right_iff]
    exact hentries.imp fun _ _ h => h.2.1
  refine ⟨?_, ?_, hsum, ?_, hentries, ?_, ?_⟩
  · rw [hlength, tableSize_of_fetch hfetch]
  · rw [hlength, View.numberField_flatten 1 rfl (by simp [Inputs.pieces]) (UInt32.toNat_lt _),
      UInt32.toNat_ofNat_of_lt' hfits]
  · rw [(Inputs.numberFields_pieces info check hfits).2.2.1, NodeIndex.size, length_entriesFrom,
      Inputs.length_nodeSizes]
  · intro k entry hentry
    rw [getElem?_entriesFrom, Option.map_eq_some_iff] at hentry
    obtain ⟨node, -, rfl⟩ := hentry
    have hbefore : tableHeaderSize + totalSize (inputs.nodeSizes.take k) < UInt32.size := by
      have hsplit := totalSize_append (inputs.nodeSizes.take k) (inputs.nodeSizes.drop k)
      rw [List.take_append_drop] at hsplit
      rw [Inputs.tableSize] at hfits
      omega
    rw [UInt32.toNat_ofNat_of_lt' hbefore, totalSize_eq_sum, List.map_take,
      map_snd_nodeSizes hfetch, List.map_take, hstored]
  · refine fun entry => NodeIndex.offsetOf?_of_mem ?_
    rw [map_source_entriesFrom, nodeSizes_of_fetch hfetch, List.map_map]
    exact nodup_map_fst_tableNodes hfetch

end Rhct
end RiscvTables
