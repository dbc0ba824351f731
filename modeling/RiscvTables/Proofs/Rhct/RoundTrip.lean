import RiscvTables.Proofs.Rhct.Checksum
import RiscvTables.Proofs.Rhct.Layout

/-!
# Tables that are built are read back

`View.parse` reads fields at fixed offsets and then as many nodes as one of the fields says; the
writer appends one piece after the other.  Both meet in `Inputs.pieces`, the table as the list of
its pieces: a field is read from the bytes behind the pieces in front of it (`View.field_flatten`).

`Inputs.view` is what should be read, written down without reading anything, and
`parse_finalizeChecksum` says that it is.  `View.Describes` says the same field by field, with
what the harts refer to found in the view itself.
-/

set_option autoImplicit false

namespace RiscvTables
namespace Rhct

/-! ## Fields

A field has an offset and a piece has a place in the list.  The pieces in front of the nodes are of
fixed lengths, so where a piece starts is a sum that computes. -/

namespace View

variable {pieces : List Bytes} {piece : Bytes} {start width : Nat}

/-- A piece is read at the length of the pieces in front of it. -/
theorem field_flatten (i : Nat) (hpiece : pieces[i]? = some piece)
    (hstart : (pieces.take i).flatten.length = start) (hwidth : piece.length = width) :
    field pieces.flatten start width = piece := by
  obtain ⟨hlt, rfl⟩ := List.getElem?_eq_some_iff.1 hpiece
  have hsplit : pieces.flatten =
      (pieces.take i).flatten ++ (pieces[i] ++ (pieces.drop (i + 1)).flatten) := by
    rw [← List.flatten_cons, ← List.flatten_append, ← List.drop_eq_getElem_cons hlt,
      List.take_append_drop]
  rw [field, hsplit, List.drop_append_of_le_length (by omega), List.drop_of_length_le (by omega),
    List.nil_append, List.take_append_of_le_length (by omega), List.take_of_length_le (by omega)]

theorem numberField_flatten {n : Nat} (i : Nat)
    (hpiece : pieces[i]? = some (LittleEndian.encode width n))
    (hstart : (pieces.take i).flatten.length = start) (hn : n < Bytes.capacity width) :
    numberField pieces.flatten start width = n := by
  rw [numberField, field_flatten i hpiece hstart (LittleEndian.length_encode width n),
    LittleEndian.decode_encode hn]

theorem uint8Field_flatten {b : UInt8} (i : Nat) (hpiece : pieces[i]? = some [b])
    (hstart : (pieces.take i).flatten.length = start) :
    UInt8.ofNat (numberField pieces.flatten start 1) = b := by
  rw [numberField, field_flatten i hpiece hstart List.length_singleton]
  simp [LittleEndian.decode]

theorem uint32Field_flatten {n : UInt32} (i : Nat)
    (hpiece : pieces[i]? = some (LittleEndian.encode 4 n.toNat))
    (hstart : (pieces.take i).flatten.length = start) :
    UInt32.ofNat (numberField pieces.flatten start 4) = n := by
  rw [numberField_flatten i hpiece hstart n.toNat_lt, UInt32.ofNat_toNat]

theorem textField_flatten (i : Nat) (hpiece : pieces[i]? = some piece)
    (hstart : (pieces.take i).flatten.length = start) (hwidth : piece.length = width) :
    textField pieces.flatten start width = Utf8.decodeLossy piece := by
  rw [textField, field_flatten i hpiece hstart hwidth]

/-! ## References

A hart refers to the ISA string and to the first of the cache blocks, each if there is one, by where
its node starts. -/

/-- Where the first node with a body of some sort starts. -/
def firstOffset? (sort : NodeBody → Bool) (nodes : List Node) : Option UInt32 :=
  (nodes.find? fun node => sort node.body).map (·.offset)

/-- Nothing is wrong with the references if every offset that a hart lists is that of a node. -/
theorem badReference?_eq_none_iff {nodes : List Node} :
    badReference? nodes = none ↔
      ∀ node ∈ nodes, ∀ uid offsets, node.body = .hartInfo uid offsets →
        ∀ target ∈ offsets, ∃ other ∈ nodes, other.offset = target := by
  rw [badReference?, List.findSome?_eq_none_iff]
  refine forall₂_congr fun node _ => ?_
  cases hbody : node.body <;> simp [Option.map_eq_none_iff]

theorem exists_mem_of_firstOffset? {sort : NodeBody → Bool} {nodes : List Node} {target : UInt32}
    (h : firstOffset? sort nodes = some target) : ∃ node ∈ nodes, node.offset = target := by
  obtain ⟨node, hnode, rfl⟩ := Option.map_eq_some_iff.1 h
  exact ⟨node, List.mem_of_find?_eq_some hnode, rfl⟩

end View

/-- Whether a body is an ISA string. -/
def NodeBody.isIsaString : NodeBody → Bool
  | .isaString _ => true
  | _ => false

/-- Whether a body is cache-block sizes. -/
def NodeBody.isCacheBlocks : NodeBody → Bool
  | .cacheBlocks .. => true
  | _ => false

namespace Inputs

variable {inputs : Inputs}

theorem bodies_eq :
    inputs.bodies =
      inputs.isa.toList.map (fun record => .isaString record.isa) ++
        inputs.cacheBlocks.map (fun record => .cacheBlocks record.cbom record.cbop record.cboz) ++
        inputs.harts.map fun record => .hartInfo record.processorUid
          (inputs.isaOffset?.toList ++ inputs.cacheBlockOffset?.toList) := by
  rw [bodies, nodeBodies, references_entriesFrom]

theorem firstOffset?_isIsaString :
    View.firstOffset? NodeBody.isIsaString (Node.placed tableHeaderSize inputs.bodies) =
      inputs.isaOffset? := by
  have hnone : ∀ offset, ∀ bodies : List NodeBody,
      (∀ body ∈ bodies, body.isIsaString = false) →
        View.firstOffset? NodeBody.isIsaString (Node.placed offset bodies) = none := by
    intro offset bodies h
    rw [View.firstOffset?, Option.map_eq_none_iff, List.find?_eq_none]
    intro node hnode
    have hbody := List.mem_map_of_mem (f := Node.body) hnode
    rw [Node.map_body_placed] at hbody
    simpa using h _ hbody
  rw [bodies_eq, isaOffset?]
  cases inputs.isa with
  | none =>
    refine hnone _ _ fun body hbody => ?_
    simp only [Option.toList_none, List.map_nil, List.nil_append, List.mem_append,
      List.mem_map] at hbody
    rcases hbody with ⟨record, -, rfl⟩ | ⟨record, -, rfl⟩ <;> rfl
  | some record => rfl

theorem firstOffset?_isCacheBlocks :
    View.firstOffset? NodeBody.isCacheBlocks (Node.placed tableHeaderSize inputs.bodies) =
      inputs.cacheBlockOffset? := by
  rw [bodies_eq, cacheBlockOffset?]
  cases hcacheBlocks : inputs.cacheBlocks with
  | nil =>
    rw [View.firstOffset?, List.head?_nil, Option.map_none, Option.map_eq_none_iff,
      List.find?_eq_none]
    intro node hnode
    have hbody := List.mem_map_of_mem (f := Node.body) hnode
    simp only [Node.map_body_placed, List.map_nil, List.append_nil, List.mem_append,
      List.mem_map] at hbody
    rcases hbody with ⟨record, -, hbody⟩ | ⟨record, -, hbody⟩ <;>
      simp [← hbody, NodeBody.isCacheBlocks]
  | cons first rest => cases inputs.isa <;> rfl

/-! ## The table in pieces

The checksum is a piece of its own: the finished table is the draft with another byte in that
place. -/

/-- The pieces of the table with a given checksum. -/
def pieces (inputs : Inputs) (info : TableInfo) (check : UInt8) : List Bytes :=
  [signature.toList, LittleEndian.encode 4 (UInt32.ofNat inputs.tableSize).toNat, [info.revision],
    [check], info.oemId.toList, info.oemTableId.toList,
    LittleEndian.encode 4 info.oemRevision.toNat, info.creatorId.toList,
    LittleEndian.encode 4 info.creatorRevision.toNat,
    LittleEndian.encode 4 (if inputs.timer.cannotWakeCpu then 1 else 0),
    LittleEndian.encode 8 inputs.timer.frequency.toNat,
    LittleEndian.encode 4 inputs.nodeSizes.length, LittleEndian.encode 4 tableHeaderSize,
    inputs.bodies.flatMap NodeBody.encode]

theorem draft_eq_flatten (info : TableInfo) :
    inputs.draft info = (inputs.pieces info 0).flatten := by
  simp [draft, headerBytes, tableFields, pieces]

/-- The finished table differs from the draft in one piece. -/
theorem finalizeChecksum_draft (info : TableInfo) :
    finalizeChecksum (inputs.draft info) =
      (inputs.pieces info (checksum (inputs.draft info))).flatten := by
  have hbefore : [signature.toList, LittleEndian.encode 4 (UInt32.ofNat inputs.tableSize).toNat,
      [info.revision]].flatten.length = checksumOffset := by
    simp [checksumOffset]
  have hheader : sdtHeaderSize ≤ (inputs.draft info).length := by
    rw [length_draft, tableSize, tableHeaderSize]
    omega
  rw [draft_eq_flatten] at hheader ⊢
  simpa [pieces] using finalizeChecksum_append _ 0 hbefore (by simpa [pieces] using hheader)

/-! ## The view of the table -/

/-- The header as it should be read. -/
def header (inputs : Inputs) (info : TableInfo) : Header where
  signature := "RHCT"
  length := UInt32.ofNat inputs.tableSize
  revision := info.revision
  checksum := checksum (inputs.draft info)
  oemId := Utf8.decodeLossy info.oemId.toList
  oemTableId := Utf8.decodeLossy info.oemTableId.toList
  oemRevision := info.oemRevision
  creatorId := Utf8.decodeLossy info.creatorId.toList
  creatorRevision := info.creatorRevision

/-- The table as it should be read. -/
def view (inputs : Inputs) (info : TableInfo) : View where
  header := inputs.header info
  flags := if inputs.timer.cannotWakeCpu then 1 else 0
  timebaseFrequency := inputs.timer.frequency
  nodeOffset := UInt32.ofNat tableHeaderSize
  nodes := Node.placed tableHeaderSize inputs.bodies

theorem readHeader_pieces (info : TableInfo) :
    View.readHeader (inputs.pieces info (checksum (inputs.draft info))).flatten =
      inputs.header info := by
  have hsignature : Utf8.decodeLossy signature.toList = "RHCT" := by decide
  simp only [View.readHeader, header, Header.mk.injEq, ← hsignature]
  refine ⟨?_, ?_, ?_, ?_, ?_, ?_, ?_, ?_, ?_⟩
  · exact View.textField_flatten 0 rfl rfl (by simp)
  · exact View.uint32Field_flatten 1 rfl (by simp [pieces])
  · exact View.uint8Field_flatten 2 rfl (by simp [pieces])
  · exact View.uint8Field_flatten 3 rfl (by simp [pieces, checksumOffset])
  · exact View.textField_flatten 4 rfl (by simp [pieces]) (by simp)
  · exact View.textField_flatten 5 rfl (by simp [pieces]) (by simp)
  · exact View.uint32Field_flatten 6 rfl (by simp [pieces])
  · exact View.textField_flatten 7 rfl (by simp [pieces]) (by simp)
  · exact View.uint32Field_flatten 8 rfl (by simp [pieces])

/-! ## Reading the table back -/

theorem length_nodeSizes : inputs.nodeSizes.length = inputs.bodies.length := by
  have hsizes : inputs.nodeSizes.map Prod.snd = inputs.bodies.map NodeBody.size := nodeSizes_eq
  simpa using congrArg List.length hsizes

/-- No node is empty, so there are not more nodes than bytes. -/
theorem length_bodies_lt (hfits : inputs.tableSize < UInt32.size) :
    inputs.bodies.length < UInt32.size := by
  have hle : ∀ bodies : List NodeBody, (∀ body ∈ bodies, nodeHeaderSize ≤ body.size) →
      bodies.length ≤ (bodies.flatMap NodeBody.encode).length := by
    intro bodies h
    induction bodies with
    | nil => exact Nat.le_refl _
    | cons body rest ih =>
      have hbody := h body List.mem_cons_self
      have hrest := ih fun b hb => h b (List.mem_cons_of_mem body hb)
      rw [List.flatMap_cons, List.length_append, NodeBody.length_encode hbody, List.length_cons]
      simp only [nodeHeaderSize] at hbody
      omega
  have hbodies := hle inputs.bodies fun _ => nodeHeaderSize_le_of_mem_bodies
  rw [length_flatMap_encode nodeSizes_eq fun _ => nodeHeaderSize_le_of_mem_bodies] at hbodies
  rw [tableSize] at hfits
  omega

/-- Only an ISA string can make a node too long. -/
theorem size_le_of_mem_bodies
    (hsize : ∀ record, inputs.isa = some record → isaStringSize record.isa ≤ 0xffff)
    {body : NodeBody} (h : body ∈ inputs.bodies) : body.size ≤ 0xffff := by
  have hcount : (inputs.isaOffset?.toList ++ inputs.cacheBlockOffset?.toList).length ≤ 2 := by
    rw [isaOffset?, cacheBlockOffset?]
    cases inputs.isa <;> cases inputs.cacheBlocks <;> simp
  rw [bodies_eq, List.mem_append, List.mem_append] at h
  simp only [List.mem_map, Option.mem_toList] at h
  rcases h with (⟨record, hrecord, rfl⟩ | ⟨record, -, rfl⟩) | ⟨record, -, rfl⟩
  · exact hsize record hrecord
  · exact Nat.le_of_ble_eq_true rfl
  · show hartInfoSize _ ≤ 0xffff
    rw [hartInfoSize]
    omega

/-- An ISA string without a zero byte that fits its node is all that the nodes need. -/
theorem writable_of_mem_bodies
    (hsize : ∀ record, inputs.isa = some record → isaStringSize record.isa ≤ 0xffff)
    (hzero : ∀ record, inputs.isa = some record → 0 ∉ Utf8.encode record.isa)
    {body : NodeBody} (h : body ∈ inputs.bodies) : body.Writable := by
  have hlength := size_le_of_mem_bodies hsize h
  rw [bodies_eq, List.mem_append, List.mem_append] at h
  simp only [List.mem_map, Option.mem_toList] at h
  rcases h with (⟨record, hrecord, rfl⟩ | ⟨record, -, rfl⟩) | ⟨record, -, rfl⟩
  · exact ⟨hlength, hzero record hrecord⟩
  · trivial
  · exact hlength

/-- The harts refer to nodes that are there. -/
theorem badReference?_placed :
    View.badReference? (Node.placed tableHeaderSize inputs.bodies) = none := by
  rw [View.badReference?_eq_none_iff]
  intro node hnode uid offsets hbody target htarget
  have hmem : node.body ∈ inputs.bodies := by
    have := List.mem_map_of_mem (f := Node.body) hnode
    rwa [Node.map_body_placed] at this
  rw [hbody, bodies_eq, List.mem_append, List.mem_append] at hmem
  simp only [List.mem_map, reduceCtorEq, and_false, exists_false, false_or,
    NodeBody.hartInfo.injEq] at hmem
  obtain ⟨record, -, -, rfl⟩ := hmem
  rw [List.mem_append, Option.mem_toList, Option.mem_toList] at htarget
  rcases htarget with htarget | htarget
  · exact View.exists_mem_of_firstOffset? (firstOffset?_isIsaString.trans htarget)
  · exact View.exists_mem_of_firstOffset? (firstOffset?_isCacheBlocks.trans htarget)

/-- The fields between the header and the nodes. -/
theorem numberFields_pieces (info : TableInfo) (check : UInt8)
    (hfits : inputs.tableSize < UInt32.size) :
    View.numberField (inputs.pieces info check).flatten 36 4 =
        (if inputs.timer.cannotWakeCpu then 1 else 0) ∧
      View.numberField (inputs.pieces info check).flatten 40 8 = inputs.timer.frequency.toNat ∧
      View.numberField (inputs.pieces info check).flatten 48 4 = inputs.bodies.length ∧
      View.numberField (inputs.pieces info check).flatten 52 4 = tableHeaderSize := by
  refine ⟨?_, ?_, ?_, ?_⟩
  · refine View.numberField_flatten 9 rfl (by simp [pieces]) ?_
    split <;> decide
  · exact View.numberField_flatten 10 rfl (by simp [pieces]) inputs.timer.frequency.toNat_lt
  · rw [View.numberField_flatten 11 rfl (by simp [pieces])
      (length_nodeSizes ▸ length_bodies_lt hfits), length_nodeSizes]
  · exact View.numberField_flatten 12 rfl (by simp [pieces]) (by decide)

theorem drop_pieces (info : TableInfo) (check : UInt8) :
    (inputs.pieces info check).flatten.drop tableHeaderSize =
      inputs.bodies.flatMap NodeBody.encode := by
  have hfront : ((inputs.pieces info check).take 13).flatten.length = tableHeaderSize := by
    simp [pieces, tableHeaderSize, sdtHeaderSize]
  rw [← List.take_append_drop 13 (inputs.pieces info check), List.flatten_append,
    List.drop_append_of_le_length (Nat.le_of_eq hfront.symm),
    List.drop_of_length_le (Nat.le_of_eq hfront), List.nil_append]
  simp [pieces]

/-- **The finished table is read as what it was made from.** -/
theorem parse_finalizeChecksum (info : TableInfo)
    (hfits : inputs.tableSize < UInt32.size) (hbodies : ∀ body ∈ inputs.bodies, body.Writable) :
    View.parse (finalizeChecksum (inputs.draft info)) = .ok (inputs.view info) := by
  have hlength : (finalizeChecksum (inputs.draft info)).length = inputs.tableSize := by
    rw [length_finalizeChecksum, length_draft]
  have hsum : (finalizeChecksum (inputs.draft info)).byteSum = 0 := by
    refine byteSum_finalizeChecksum ?_
    rw [length_draft, tableSize, tableHeaderSize]
    omega
  have hsize : (UInt32.ofNat inputs.tableSize).toNat = inputs.tableSize :=
    UInt32.toNat_ofNat_of_lt' hfits
  have hheader : View.readHeader (inputs.pieces info (checksum (inputs.draft info))).flatten =
      inputs.header info := readHeader_pieces info
  rw [finalizeChecksum_draft] at hlength hsum ⊢
  generalize checksum (inputs.draft info) = check at *
  have hsignature : View.field (inputs.pieces info check).flatten 0 4 = signature.toList :=
    View.field_flatten 0 rfl rfl (by simp)
  obtain ⟨hflags, hfrequency, hcount, hoffset⟩ := numberFields_pieces info check hfits
  have hnodes := Node.readAll_encode inputs.bodies tableHeaderSize [] hbodies
  rw [List.append_nil] at hnodes
  rw [View.parse]
  -- the four guards, then the nodes
  refine Except.guard_eq_ok_iff.2 ⟨?_, ?_⟩
  · rw [hlength, tableSize]
    omega
  refine Except.guard_eq_ok_iff.2 ⟨Decidable.not_not.2 hsignature, ?_⟩
  refine Except.guard_eq_ok_iff.2 ⟨Decidable.not_not.2 ?_, ?_⟩
  · rw [hheader, hlength]
    exact hsize
  refine Except.guard_eq_ok_iff.2 ⟨Decidable.not_not.2 hsum, ?_⟩
  simp only [hcount, hoffset, drop_pieces, hnodes, hheader, hflags, hfrequency, bind, Except.bind,
    badReference?_placed, view, UInt64.ofNat_toNat]
  split <;> rfl

end Inputs

/-- What a table says about who made it and about the records it was made from. -/
structure View.Describes (view : View) (info : TableInfo) (inputs : Inputs) : Prop where
  signature : view.header.signature = "RHCT"
  revision : view.header.revision = info.revision
  oemId : view.header.oemId = Utf8.decodeLossy info.oemId.toList
  oemTableId : view.header.oemTableId = Utf8.decodeLossy info.oemTableId.toList
  oemRevision : view.header.oemRevision = info.oemRevision
  creatorId : view.header.creatorId = Utf8.decodeLossy info.creatorId.toList
  creatorRevision : view.header.creatorRevision = info.creatorRevision
  flags : view.flags = if inputs.timer.cannotWakeCpu then 1 else 0
  frequency : view.timebaseFrequency = inputs.timer.frequency
  nodeOffset : view.nodeOffset = 56
  /-- The nodes stand one behind the other from the end of the header on. -/
  placed : view.nodes = Node.placed tableHeaderSize (view.nodes.map (·.body))
  /-- Every hart refers to the first ISA string and to the first cache blocks of this table. -/
  bodies : view.nodes.map (·.body) =
    inputs.isa.toList.map (fun record => .isaString record.isa) ++
      inputs.cacheBlocks.map (fun record => .cacheBlocks record.cbom record.cbop record.cboz) ++
      inputs.harts.map fun record => .hartInfo record.processorUid
        ((View.firstOffset? NodeBody.isIsaString view.nodes).toList ++
          (View.firstOffset? NodeBody.isCacheBlocks view.nodes).toList)

theorem Inputs.describes_view (inputs : Inputs) (info : TableInfo) :
    (inputs.view info).Describes info inputs where
  signature := rfl
  revision := rfl
  oemId := rfl
  oemTableId := rfl
  oemRevision := rfl
  creatorId := rfl
  creatorRevision := rfl
  flags := rfl
  frequency := rfl
  nodeOffset := rfl
  placed := by rw [view, Node.map_body_placed]
  bodies := by
    rw [view, firstOffset?_isIsaString, firstOffset?_isCacheBlocks, Node.map_body_placed, bodies_eq]

/-! ## Parsing undoes building -/

/-- What was fetched and laid out can be written, if the ISA string has no zero byte. -/
theorem Inputs.writable_of_layOut {inputs : Inputs} {store : Store} {layout : Layout}
    (hfetch : Inputs.fetch store = .ok inputs) (hlayout : inputs.layOut = .ok layout)
    (hisa : ∀ record ∈ store.fetchAll IsaRecord, 0 ∉ Utf8.encode record.isa) :
    ∀ body ∈ inputs.bodies, body.Writable := by
  have hzero : ∀ record, inputs.isa = some record → 0 ∉ Utf8.encode record.isa := by
    intro record hrecord
    refine hisa record ?_
    rw [(fetch_eq_ok_iff.1 hfetch).2.1, hrecord]
    exact List.mem_cons_self
  exact fun _ => writable_of_mem_bodies (layOut_eq_ok_iff.1 hlayout).1 hzero

theorem parse_of_build {info : TableInfo} {store : Store} {table : Bytes} {index : NodeIndex}
    (hbuild : build stampIdentity info store = .ok (table, index))
    (hisa : ∀ record ∈ store.fetchAll IsaRecord, 0 ∉ Utf8.encode record.isa) :
    ∃ inputs, Inputs.fetch store = .ok inputs ∧ View.parse table = .ok (inputs.view info) ∧
      (inputs.view info).header.length.toNat = table.length ∧
      inputs.bodies.length < UInt32.size := by
  obtain ⟨-, inputs, hfetch, ⟨layout, hlayout⟩, -, rfl⟩ := build_eq_ok_iff.1 hbuild
  obtain ⟨-, hfits, -⟩ := Inputs.layOut_eq_ok_iff.1 hlayout
  refine ⟨inputs, hfetch, ?_, ?_, Inputs.length_bodies_lt hfits⟩
  · exact Inputs.parse_finalizeChecksum info hfits (Inputs.writable_of_layOut hfetch hlayout hisa)
  · rw [length_finalizeChecksum, Inputs.length_draft]
    exact UInt32.toNat_ofNat_of_lt' hfits

/-- **Parsing undoes building.**  The table that a generator builds from the records of a store is
read as a table that describes these records, as long as the ISA string has no zero byte. -/
theorem Generator.parse_buildTable {info : TableInfo} {store : Store} {table : Bytes}
    {previous : Option NodeIndex}
    (hbuild : (buildTable ⟨stampIdentity, previous⟩ info store).1 = .ok table)
    (hisa : ∀ record ∈ store.fetchAll IsaRecord, 0 ∉ Utf8.encode record.isa) :
    ∃ view inputs, View.parse table = .ok view ∧ view.header.length.toNat = table.length ∧
      store.fetchAll TimerRecord = [inputs.timer] ∧
      store.fetchAll IsaRecord = inputs.isa.toList ∧
      store.fetchAll CacheBlockRecord = inputs.cacheBlocks ∧
      store.fetchAll HartRecord = inputs.harts ∧ view.Describes info inputs := by
  rw [buildTable] at hbuild
  split at hbuild
  next => cases hbuild
  next built index hbuilt =>
    obtain rfl := Except.ok.inj hbuild
    obtain ⟨inputs, hfetch, hparse, hlength, -⟩ := parse_of_build hbuilt hisa
    obtain ⟨htimer, hisaRecords, hcacheBlocks, hharts, -⟩ := Inputs.fetch_eq_ok_iff.1 hfetch
    exact ⟨inputs.view info, inputs, hparse, hlength, htimer, hisaRecords, hcacheBlocks, hharts,
      inputs.describes_view info⟩

/-- The makers of a sample table. -/
def sampleInfo : TableInfo where
  revision := 1
  oemId := #v[0x52, 0x49, 0x53, 0x43, 0x56, 0x20]
  oemTableId := #v[0x53, 0x41, 0x4d, 0x50, 0x4c, 0x45, 0x20, 0x20]
  oemRevision := 3
  creatorId := #v[0x4c, 0x45, 0x41, 0x4e]
  creatorRevision := 7

/-- Two harts with an ISA string and two sorts of cache blocks. -/
def sampleStore : Store :=
  Store.empty.publish [.hart (.fresh 0 0), .timer ⟨10000000, true⟩, .isa ⟨"rv64gc"⟩,
    .cacheBlock ⟨6, 6, 6⟩, .hart (.fresh 1 1), .cacheBlock ⟨5, 0, 5⟩]

theorem Generator.parse_sampleStore :
    ∃ table, (buildTable ⟨stampIdentity, none⟩ sampleInfo sampleStore).1 = .ok table ∧
      ∃ view inputs, View.parse table = .ok view ∧ view.Describes sampleInfo inputs := by
  have hisa : ∀ record ∈ sampleStore.fetchAll IsaRecord, 0 ∉ Utf8.encode record.isa := by
    decide +kernel
  have hok : (buildTable ⟨stampIdentity, none⟩ sampleInfo sampleStore).1.isOk := by
    decide +kernel
  cases hbuild : (buildTable ⟨stampIdentity, none⟩ sampleInfo sampleStore).1 with
  | error error => rw [hbuild] at hok; cases hok
  | ok table =>
    obtain ⟨view, inputs, hparse, -, -, -, -, -, hdescribes⟩ := parse_buildTable hbuild hisa
    exact ⟨table, rfl, view, inputs, hparse, hdescribes⟩

end Rhct
end RiscvTables
