import RiscvTables.Proofs.Record.Store
import RiscvTables.Proofs.Rhct.Node
import RiscvTables.Rhct.Generator

/-!
# The layout of a table, and that the writer keeps to it

The planner adds up the lengths of the nodes before any node is written, and the writer checks
that each node lands where the planner put it.  Here both are put in closed form: `layOut` fails
only for a length that does not fit (`layOut_eq_ok_iff`), and after it the writer never does
(`writeNodes_entriesFrom`), because the planned lengths are the lengths of the written nodes
(`nodeSizes_eq`).
-/

set_option autoImplicit false

namespace RiscvTables
namespace Rhct

/-! ## Placing nodes -/

/-- The length of nodes that stand one behind the other. -/
def totalSize : List (NodeSource × Nat) → Nat
  | [] => 0
  | node :: rest => node.2 + totalSize rest

/-- The entries of nodes that stand one behind the other from an offset on. -/
def entriesFrom (offset : Nat) : List (NodeSource × Nat) → List IndexEntry
  | [] => []
  | node :: rest => ⟨node.1, UInt32.ofNat offset⟩ :: entriesFrom (offset + node.2) rest

theorem entriesFrom_append (offset : Nat) (first second : List (NodeSource × Nat)) :
    entriesFrom offset (first ++ second) =
      entriesFrom offset first ++ entriesFrom (offset + totalSize first) second := by
  induction first generalizing offset with
  | nil => simp [entriesFrom, totalSize]
  | cons node rest ih => simp [entriesFrom, totalSize, ih, Nat.add_assoc]

@[simp] theorem length_entriesFrom (offset : Nat) (nodes : List (NodeSource × Nat)) :
    (entriesFrom offset nodes).length = nodes.length := by
  induction nodes generalizing offset with
  | nil => rfl
  | cons node rest ih => simp [entriesFrom, ih]

namespace Inputs

theorem tableOffset_eq_ok_iff {offset : Nat} {start : UInt32} :
    tableOffset offset = .ok start ↔ offset < UInt32.size ∧ start = UInt32.ofNat offset := by
  rw [tableOffset]
  split
  next h => simp [h, eq_comm]
  next h => simp [h]

/-- Nodes can be placed exactly when their end fits 32 bits, and then each stands where the one
before it ends. -/
theorem place_eq_ok_iff {offset : Nat} {nodes : List (NodeSource × Nat)} {layout : Layout} :
    place offset nodes = .ok layout ↔
      offset + totalSize nodes < UInt32.size ∧
        layout = ⟨⟨entriesFrom offset nodes⟩, UInt32.ofNat (offset + totalSize nodes)⟩ := by
  induction nodes generalizing offset layout with
  | nil =>
    rw [place, Except.bind_eq_ok_iff]
    constructor
    · rintro ⟨start, hstart, h⟩
      obtain ⟨hlt, rfl⟩ := tableOffset_eq_ok_iff.1 hstart
      exact ⟨hlt, (Except.pure_eq_ok_iff.1 h).symm⟩
    · rintro ⟨hlt, rfl⟩
      exact ⟨_, tableOffset_eq_ok_iff.2 ⟨hlt, rfl⟩, rfl⟩
  | cons node rest ih =>
    have hassoc : offset + totalSize (node :: rest) = offset + node.2 + totalSize rest := by
      rw [totalSize, Nat.add_assoc]
    rw [place, Except.bind_eq_ok_iff, hassoc]
    constructor
    · rintro ⟨start, hstart, h⟩
      obtain ⟨hlt, rfl⟩ := tableOffset_eq_ok_iff.1 hstart
      obtain ⟨tail, htail, h⟩ := Except.bind_eq_ok_iff.1 h
      obtain ⟨hfits, rfl⟩ := ih.1 htail
      exact ⟨hfits, (Except.pure_eq_ok_iff.1 h).symm⟩
    · rintro ⟨hfits, rfl⟩
      refine ⟨_, tableOffset_eq_ok_iff.2 ⟨by omega, rfl⟩, ?_⟩
      exact Except.bind_eq_ok_iff.2 ⟨_, ih.2 ⟨hfits, rfl⟩, rfl⟩

variable {inputs : Inputs}

/-- The end of the nodes, and so the size of the table. -/
def tableSize (inputs : Inputs) : Nat :=
  tableHeaderSize + totalSize inputs.nodeSizes

/-- **When a table can be laid out**: its ISA node fits 16 bits and its size 32 bits. -/
theorem layOut_eq_ok_iff {layout : Layout} :
    inputs.layOut = .ok layout ↔
      (∀ record, inputs.isa = some record → isaStringSize record.isa ≤ 0xffff) ∧
        inputs.tableSize < UInt32.size ∧
        layout =
          ⟨⟨entriesFrom tableHeaderSize inputs.nodeSizes⟩, UInt32.ofNat inputs.tableSize⟩ := by
  rw [tableSize, ← place_eq_ok_iff, layOut]
  cases hisa : inputs.isa with
  | none => simp
  | some record =>
    simp only [Option.some.injEq, forall_eq']
    rw [Except.guard_eq_ok_iff, Nat.not_lt]

/-! ## What the harts refer to -/

/-- Where the node of the ISA string stands. -/
def isaOffset? (inputs : Inputs) : Option UInt32 :=
  inputs.isa.map fun _ => UInt32.ofNat tableHeaderSize

/-- Where the first cache-block node stands. -/
def cacheBlockOffset? (inputs : Inputs) : Option UInt32 :=
  inputs.cacheBlocks.head?.map fun _ =>
    UInt32.ofNat (tableHeaderSize + inputs.isa.elim 0 fun record => isaStringSize record.isa)

/-- **The harts refer to the ISA string and to the first cache blocks**, as far as they are
there. -/
theorem references_entriesFrom :
    references ⟨entriesFrom tableHeaderSize inputs.nodeSizes⟩ =
      inputs.isaOffset?.toList ++ inputs.cacheBlockOffset?.toList := by
  have hharts : ∀ offset position source, (∀ p uid, source ≠ .hartInfo p uid) →
      (entriesFrom offset ((inputs.harts.zipIdx position).map fun p =>
        (.hartInfo p.2 p.1.processorUid, hartInfoSize inputs.referenceCount))).find?
          (fun entry => entry.source = source) = none := by
    intro offset position source hsource
    induction inputs.harts generalizing offset position with
    | nil => rfl
    | cons hart rest ih =>
      rw [List.zipIdx_cons, List.map_cons, entriesFrom, List.find?_cons_of_neg, ih]
      simpa using (hsource _ _).symm
  have hcacheBlocks : ∀ offset position,
      (entriesFrom offset ((inputs.cacheBlocks.zipIdx position).map fun p =>
        (NodeSource.cacheBlock p.2, cacheBlocksSize))).find?
          (fun entry => entry.source = .isaString) = none := by
    intro offset position
    induction inputs.cacheBlocks generalizing offset position with
    | nil => rfl
    | cons record rest ih =>
      rw [List.zipIdx_cons, List.map_cons, entriesFrom, List.find?_cons_of_neg, ih]
      simp
  rw [references, NodeIndex.offsetOf?, NodeIndex.offsetOf?, isaOffset?, cacheBlockOffset?]
  simp only [nodeSizes, entriesFrom_append, List.find?_append, hharts _ _ .isaString (by simp),
    hharts _ _ (.cacheBlock 0) (by simp), hcacheBlocks]
  cases inputs.isa <;> cases inputs.cacheBlocks <;>
    simp [entriesFrom, totalSize]

theorem length_references_entriesFrom :
    (references ⟨entriesFrom tableHeaderSize inputs.nodeSizes⟩).length = inputs.referenceCount := by
  rw [references_entriesFrom, referenceCount, isaOffset?, cacheBlockOffset?]
  cases inputs.isa <;> cases inputs.cacheBlocks <;> rfl

/-! ## Writing what was placed -/

/-- The nodes of the table, with what the harts refer to written out. -/
def bodies (inputs : Inputs) : List NodeBody :=
  inputs.nodeBodies ⟨entriesFrom tableHeaderSize inputs.nodeSizes⟩

theorem nodeHeaderSize_le_of_mem_bodies {body : NodeBody} (h : body ∈ inputs.bodies) :
    nodeHeaderSize ≤ body.size := by
  simp only [bodies, nodeBodies, List.mem_append, List.mem_map] at h
  rcases h with (⟨record, -, rfl⟩ | ⟨record, -, rfl⟩) | ⟨record, -, rfl⟩
  · exact Nat.le_add_right_of_le (by decide)
  · exact Nat.le_of_sub_eq_zero rfl
  · exact Nat.le_add_right_of_le (by decide)

/-- **The planned lengths are the lengths of the nodes.** -/
theorem nodeSizes_eq : inputs.nodeSizes.map Prod.snd = inputs.bodies.map NodeBody.size := by
  have hreferences : (references ⟨entriesFrom tableHeaderSize inputs.nodeSizes⟩).length =
      inputs.referenceCount := length_references_entriesFrom
  rw [bodies, nodeBodies]
  generalize references _ = targets at hreferences
  simp [nodeSizes, Function.comp_def, NodeBody.size, hreferences, List.map_const']

/-- The writer never finds a node out of its place. -/
theorem writeNodes_entriesFrom {position : Nat} {nodes : List (NodeSource × Nat)}
    {bodies : List NodeBody} (hsizes : nodes.map Prod.snd = bodies.map NodeBody.size)
    (hheader : ∀ body ∈ bodies, nodeHeaderSize ≤ body.size)
    (hfits : position + totalSize nodes < UInt32.size) :
    writeNodes position (entriesFrom position nodes) bodies =
      .ok (bodies.flatMap NodeBody.encode) := by
  induction nodes generalizing position bodies with
  | nil =>
    obtain rfl : bodies = [] := by simpa using hsizes.symm
    rfl
  | cons node rest ih =>
    cases bodies with
    | nil => simp at hsizes
    | cons body bodies =>
      obtain ⟨hsize, hrest⟩ := List.cons.inj hsizes
      have hlength : body.encode.length = node.2 :=
        (NodeBody.length_encode (hheader body List.mem_cons_self)).trans hsize.symm
      have hposition : (UInt32.ofNat position).toNat = position :=
        UInt32.toNat_ofNat_of_lt' (by omega)
      have hfits' : position + node.2 + totalSize rest < UInt32.size := by
        rw [totalSize] at hfits
        omega
      have htail := ih hrest (fun b hb => hheader b (List.mem_cons_of_mem body hb)) hfits'
      simp only [entriesFrom, writeNodes, hposition, ne_eq, not_true_eq_false, if_false, hlength,
        htail, bind, Except.bind, List.flatMap_cons]
      rfl

theorem length_flatMap_encode {nodes : List (NodeSource × Nat)} {bodies : List NodeBody}
    (hsizes : nodes.map Prod.snd = bodies.map NodeBody.size)
    (hheader : ∀ body ∈ bodies, nodeHeaderSize ≤ body.size) :
    (bodies.flatMap NodeBody.encode).length = totalSize nodes := by
  induction nodes generalizing bodies with
  | nil =>
    obtain rfl : bodies = [] := by simpa using hsizes.symm
    rfl
  | cons node rest ih =>
    cases bodies with
    | nil => simp at hsizes
    | cons body bodies =>
      obtain ⟨hsize, hrest⟩ := List.cons.inj hsizes
      rw [List.flatMap_cons, List.length_append, totalSize,
        ih hrest fun b hb => hheader b (List.mem_cons_of_mem body hb),
        NodeBody.length_encode (hheader body List.mem_cons_self), hsize]

/-! ## The finished table -/

/-- The bytes of the table behind a header, before its checksum is set. -/
def stamped (inputs : Inputs) (header : Bytes) : Bytes :=
  header ++ inputs.tableFields inputs.nodeSizes.length ++ inputs.bodies.flatMap NodeBody.encode

theorem length_stamped {header : Bytes} (h : header.length = sdtHeaderSize) :
    (inputs.stamped header).length = inputs.tableSize := by
  have hfields : (inputs.tableFields inputs.nodeSizes.length).length = 20 := by
    simp [tableFields]
  rw [stamped, List.length_append, List.length_append, h, hfields,
    length_flatMap_encode nodeSizes_eq fun _ => nodeHeaderSize_le_of_mem_bodies]
  rfl

/-- **After a layout the writer ends as the stamper does.** -/
theorem write_eq {stamper : Stamper} {layout : Layout} (info : TableInfo)
    (h : inputs.layOut = .ok layout) :
    inputs.write stamper info layout =
      (stamper signature (UInt32.ofNat inputs.tableSize) info).map fun header =>
        finalizeChecksum (inputs.stamped header.toList) := by
  obtain ⟨-, hfits, rfl⟩ := layOut_eq_ok_iff.1 h
  rw [write]
  cases stamper signature (UInt32.ofNat inputs.tableSize) info with
  | error error => rfl
  | ok header =>
    have hnodes : writeNodes tableHeaderSize (entriesFrom tableHeaderSize inputs.nodeSizes)
        inputs.bodies = .ok (inputs.bodies.flatMap NodeBody.encode) :=
      writeNodes_entriesFrom nodeSizes_eq (fun _ => nodeHeaderSize_le_of_mem_bodies) hfits
    have hsize : (UInt32.ofNat inputs.tableSize).toNat = inputs.tableSize :=
      UInt32.toNat_ofNat_of_lt' hfits
    refine Except.bind_eq_ok_iff.2 ⟨_, rfl, Except.bind_eq_ok_iff.2 ⟨_, hnodes, ?_⟩⟩
    rw [NodeIndex.size, length_entriesFrom, hsize]
    refine Except.guard_eq_ok_iff.2 ⟨?_, rfl⟩
    exact Decidable.not_not.2 (length_stamped Vector.length_toList)

/-- The bytes of the table before its checksum is set. -/
def draft (inputs : Inputs) (info : TableInfo) : Bytes :=
  headerBytes signature (UInt32.ofNat inputs.tableSize) info ++
    inputs.tableFields inputs.nodeSizes.length ++ inputs.bodies.flatMap NodeBody.encode

theorem length_draft (info : TableInfo) : (inputs.draft info).length = inputs.tableSize :=
  length_stamped (length_headerBytes _ _ info)

/-- **After a layout the writer succeeds.** -/
theorem write_eq_ok {layout : Layout} (info : TableInfo) (h : inputs.layOut = .ok layout) :
    inputs.write stampIdentity info layout = .ok (finalizeChecksum (inputs.draft info)) :=
  write_eq info h

/-! ## Fetching the records -/

/-- The records that a table is made from are those of the store. -/
theorem fetch_eq_ok_iff {store : Store} :
    fetch store = .ok inputs ↔
      store.fetchAll TimerRecord = [inputs.timer] ∧
        store.fetchAll IsaRecord = inputs.isa.toList ∧
        store.fetchAll CacheBlockRecord = inputs.cacheBlocks ∧
        store.fetchAll HartRecord = inputs.harts ∧ inputs.harts ≠ [] := by
  rw [fetch, Except.bind_eq_ok_iff]
  simp only [ofStore, Except.mapError_eq_ok_iff, Store.fetchSingle_eq_ok_iff]
  constructor
  · rintro ⟨timer, htimer, h⟩
    obtain ⟨isa, hisa, h⟩ := Except.bind_eq_ok_iff.1 h
    rw [Except.mapError_eq_ok_iff, Store.fetchOptional_eq_ok_iff] at hisa
    obtain ⟨hharts, h⟩ := Except.guard_eq_ok_iff.1 h
    obtain rfl := Except.pure_eq_ok_iff.1 h
    exact ⟨htimer, hisa, rfl, rfl, hharts⟩
  · rintro ⟨htimer, hisa, hcacheBlocks, hharts, hne⟩
    refine ⟨inputs.timer, htimer, Except.bind_eq_ok_iff.2 ⟨inputs.isa, ?_, ?_⟩⟩
    · rw [Except.mapError_eq_ok_iff, Store.fetchOptional_eq_ok_iff, hisa]
    · refine Except.guard_eq_ok_iff.2 ⟨hharts ▸ hne, ?_⟩
      rw [hcacheBlocks, hharts]
      rfl

end Inputs

/-- **When a table is built, and which.** -/
theorem build_eq_ok_iff_stamped {stamper : Stamper} {info : TableInfo} {store : Store}
    {table : Bytes} {index : NodeIndex} :
    build stamper info store = .ok (table, index) ↔
      info.revision = tableRevision ∧ ∃ inputs, Inputs.fetch store = .ok inputs ∧
        (∃ layout, inputs.layOut = .ok layout) ∧
        index = ⟨entriesFrom tableHeaderSize inputs.nodeSizes⟩ ∧
        ∃ header, stamper signature (UInt32.ofNat inputs.tableSize) info = .ok header ∧
          table = finalizeChecksum (inputs.stamped header.toList) := by
  rw [build, Except.guard_eq_ok_iff, Decidable.not_not]
  refine and_congr_right fun _ => ?_
  rw [Except.bind_eq_ok_iff]
  refine exists_congr fun inputs => and_congr_right fun _ => ?_
  rw [Except.bind_eq_ok_iff]
  constructor
  · rintro ⟨layout, hlayout, h⟩
    obtain ⟨written, hwritten, h⟩ := Except.bind_eq_ok_iff.1 h
    obtain ⟨rfl, rfl⟩ := Prod.mk.inj (Except.pure_eq_ok_iff.1 h)
    rw [Inputs.write_eq info hlayout, Except.map_eq_ok_iff] at hwritten
    obtain ⟨header, hheader, rfl⟩ := hwritten
    refine ⟨⟨layout, hlayout⟩, ?_, header, hheader, rfl⟩
    rw [(Inputs.layOut_eq_ok_iff.1 hlayout).2.2]
  · rintro ⟨⟨layout, hlayout⟩, rfl, header, hheader, rfl⟩
    have hwritten : inputs.write stamper info layout =
        .ok (finalizeChecksum (inputs.stamped header.toList)) := by
      rw [Inputs.write_eq info hlayout, hheader]
      rfl
    refine ⟨layout, hlayout, Except.bind_eq_ok_iff.2 ⟨_, hwritten, ?_⟩⟩
    rw [(Inputs.layOut_eq_ok_iff.1 hlayout).2.2]
    rfl

/-- The ordinary stamper never fails, so what it builds hangs on the records only. -/
theorem build_eq_ok_iff {info : TableInfo} {store : Store} {table : Bytes} {index : NodeIndex} :
    build stampIdentity info store = .ok (table, index) ↔
      info.revision = tableRevision ∧ ∃ inputs, Inputs.fetch store = .ok inputs ∧
        (∃ layout, inputs.layOut = .ok layout) ∧
        index = ⟨entriesFrom tableHeaderSize inputs.nodeSizes⟩ ∧
        table = finalizeChecksum (inputs.draft info) := by
  rw [build_eq_ok_iff_stamped]
  refine and_congr_right fun _ => exists_congr fun inputs => and_congr_right fun _ =>
    and_congr_right fun _ => and_congr_right fun _ => ?_
  constructor
  · rintro ⟨header, hheader, rfl⟩
    obtain rfl := Except.ok.inj hheader
    rfl
  · rintro rfl
    exact ⟨_, rfl, rfl⟩

end Rhct
end RiscvTables
