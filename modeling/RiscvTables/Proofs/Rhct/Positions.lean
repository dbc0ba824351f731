import RiscvTables.Proofs.Rhct.Indexed

/-!
# Tables are only read inside their bytes

`View.parse_safe` is the payoff, and it is about all byte strings, tables or not.

* The indexing program of `RiscvTables.Proofs.Rhct.Indexed` ends as `View.parse` does, so none of
  its slices is out of range.
* It decodes at most one node more than the bytes can hold (`Indexed.decoded_parse_le`), whatever
  number of nodes the table claims to have.  A node takes up at least its header of six bytes, and
  one that cannot be decoded is the last.
* A table that is accepted is sound.

`View.Sound` is what that means, in terms of the bytes alone.  It says where each part of the table
stands and that what the view holds is what stands there: a header of the right signature, length
and sum, as many nodes as the header says, one behind the other from the offset on that the header
names, each with its body inside the length that its own header gives.  From this follows that no
two nodes share a byte and that their offsets increase.  References are part of it too, as the one
thing that is not a matter of positions: each names the offset of a node of the same table.

The proof reads the positions off the program.  A body that it returns stands in the bytes that it
was given (`standsIn_of_body`), which are those in front of the end of its node; so a node stands
where it was looked for (`standsAt_of_node`), and the nodes of a table stand in a row
(`standFrom_of_nodes`).  The offsets that the view holds have 32 bits.  They do not wrap, since an
accepted table has the length that its header gives, and that has 32 bits as well.
-/

set_option autoImplicit false

namespace RiscvTables
namespace Rhct

/-! ## What an accepted table is

All of this is said with `View.field` and `View.numberField`, the bytes and the number at a
position.  Neither the reader nor the program occurs in it. -/

open View (field numberField)

/-- A body stands behind the header of a node, in the bytes from `start` up to `stop`. -/
def NodeBody.StandsIn (data : Bytes) (start stop : Nat) : NodeBody → Prop
  | .isaString isa =>
    start + 8 + numberField data (start + 6) 2 ≤ stop ∧
      isa = Utf8.decodeLossy
        ((field data (start + 8) (numberField data (start + 6) 2)).takeWhile (· ≠ 0))
  | .cacheBlocks cbom cbop cboz =>
    start + 10 ≤ stop ∧ data[start + 7]? = some cbom ∧ data[start + 8]? = some cbop ∧
      data[start + 9]? = some cboz
  | .hartInfo processorUid offsets =>
    start + 12 + 4 * offsets.length ≤ stop ∧
      processorUid = UInt32.ofNat (numberField data (start + 8) 4) ∧
      offsets = (List.range (numberField data (start + 6) 2)).map fun i =>
        UInt32.ofNat (numberField data (start + 12 + 4 * i) 4)
  | .unknown _ length => length.toNat = numberField data (start + 2) 2

/-- The length that a node has from its header. -/
def Node.lengthIn (data : Bytes) (node : Node) : Nat :=
  numberField data (node.offset.toNat + 2) 2

/-- A node stands at the offset `start`, inside the bytes. -/
structure Node.StandsAt (data : Bytes) (start : Nat) (node : Node) : Prop where
  offset : node.offset.toNat = start
  nodeType : node.nodeType = UInt16.ofNat (numberField data start 2)
  revision : node.revision = UInt16.ofNat (numberField data (start + 4) 2)
  header : nodeHeaderSize ≤ node.lengthIn data
  inside : start + node.lengthIn data ≤ data.length
  sort : node.body.nodeType = node.nodeType
  body : node.body.StandsIn data start (start + node.lengthIn data)

/-- Nodes stand one behind the other from `start` on. -/
def Node.StandFrom (data : Bytes) : Nat → List Node → Prop
  | _, [] => True
  | start, node :: rest =>
    node.StandsAt data start ∧ StandFrom data (start + node.lengthIn data) rest

/-- What an accepted table is. -/
structure View.Sound (view : View) (data : Bytes) : Prop where
  size : tableHeaderSize ≤ data.length
  signature : data.take 4 = Utf8.encode "RHCT"
  length : view.header.length.toNat = data.length
  sum : data.byteSum = 0
  count : view.nodes.length = numberField data 48 4
  nodeOffset : view.nodeOffset.toNat = numberField data 52 4
  nodes : Node.StandFrom data view.nodeOffset.toNat view.nodes
  apart : view.nodes.Pairwise fun first second =>
    first.offset.toNat + first.lengthIn data ≤ second.offset.toNat
  increasing : view.nodes.Pairwise fun first second => first.offset < second.offset
  references : ∀ node ∈ view.nodes, ∀ uid offsets, node.body = .hartInfo uid offsets →
    ∀ target ∈ offsets, ∃ other ∈ view.nodes, other.offset = target

/-! ## Reading positions off the program

A number that has been read is known to be inside the bytes, with its value, and the program goes on
with that value (`number_bind_eq_ok_iff`).  Within a node the bytes end with the node, but what is
read there is what the table has at that position (`number_take_bind_eq_ok_iff`). -/

namespace Indexed

section Sound

variable {data : Bytes} {stop position width : Nat}

theorem number_bind_eq_ok_iff {α : Type} {next : Nat → Except Stop α} {a : α} :
    (number data position width >>= next) = .ok a ↔
      position + width ≤ data.length ∧ next (numberField data position width) = .ok a := by
  rw [number_eq]
  split
  next h => exact (and_iff_right h).symm
  next h => exact iff_of_false (by rintro ⟨⟩) fun h' => h h'.1

/-- Before the end of a node the bytes up to there are all bytes. -/
theorem number_take_bind_eq_ok_iff (hstop : stop ≤ data.length) {α : Type}
    {next : Nat → Except Stop α} {a : α} :
    (number (data.take stop) position width >>= next) = .ok a ↔
      position + width ≤ stop ∧ next (numberField data position width) = .ok a := by
  rw [number_bind_eq_ok_iff, List.length_take_of_le hstop]
  refine and_congr_right fun h => ?_
  rw [numberField, View.field_take h, numberField]

theorem numbers_take_eq_ok (hstop : stop ≤ data.length) {count : Nat} {ns : List Nat}
    (hposition : position ≤ stop) (h : numbers (data.take stop) width count position = .ok ns) :
    position + width * count ≤ stop ∧
      ns = (List.range count).map fun i => numberField data (position + width * i) width := by
  induction count generalizing position ns with
  | zero =>
    obtain rfl := Except.ok.inj h
    exact ⟨hposition, rfl⟩
  | succ count ih =>
    rw [numbers, number_take_bind_eq_ok_iff hstop] at h
    obtain ⟨hfirst, h⟩ := h
    obtain ⟨rest, hrest, h⟩ := Except.bind_eq_ok_iff.1 h
    obtain rfl := Except.ok.inj h
    obtain ⟨hend, rfl⟩ := ih hfirst hrest
    refine ⟨by rw [Nat.mul_succ]; omega, ?_⟩
    rw [List.range_succ_eq_map, List.map_cons, List.map_map]
    refine congrArg (numberField data position width :: ·) (List.map_congr_left fun i _ => ?_)
    rw [Function.comp_apply, Nat.mul_succ]
    congr 1
    omega

theorem standsIn_of_isaString (hstop : stop ≤ data.length) {start : Nat} {body : NodeBody}
    (h : isaString (data.take stop) start = .ok body) :
    body.StandsIn data start stop ∧ body.nodeType = 0 := by
  rw [isaString, number_take_bind_eq_ok_iff hstop] at h
  obtain ⟨-, h⟩ := h
  rw [take_eq, List.length_take_of_le hstop] at h
  split at h
  next text htext =>
    split at htext
    next hend =>
      obtain rfl := Except.ok.inj htext
      obtain rfl := Except.ok.inj h
      rw [View.field_take hend]
      exact ⟨⟨hend, rfl⟩, rfl⟩
    next => cases htext
  next => cases h
  next => cases h

theorem getElem?_eq_numberField (h : position + 1 ≤ data.length) :
    data[position]? = some (UInt8.ofNat (numberField data position 1)) := by
  have hbyte : field data position 1 = [data[position]] := by
    rw [field, List.drop_eq_getElem_cons h]
    rfl
  rw [numberField, hbyte, List.getElem?_eq_getElem h]
  simp [LittleEndian.decode]

theorem standsIn_of_cacheBlocks (hstop : stop ≤ data.length) {start : Nat} {body : NodeBody}
    (h : cacheBlocks (data.take stop) start = .ok body) :
    body.StandsIn data start stop ∧ body.nodeType = 1 := by
  simp only [cacheBlocks, number_take_bind_eq_ok_iff hstop] at h
  obtain ⟨-, hcbom, hcbop, hcboz, h⟩ := h
  obtain rfl := Except.ok.inj h
  exact ⟨⟨hcboz, getElem?_eq_numberField (by omega), getElem?_eq_numberField (by omega),
    getElem?_eq_numberField (by omega)⟩, rfl⟩

theorem standsIn_of_hartInfo (hstop : stop ≤ data.length) {start length : Nat} {body : NodeBody}
    (h : hartInfo (data.take stop) start length = .ok body) :
    body.StandsIn data start stop ∧ body.nodeType = 0xffff := by
  simp only [hartInfo, number_take_bind_eq_ok_iff hstop] at h
  obtain ⟨-, huid, h⟩ := h
  obtain ⟨-, h⟩ := Except.guard_eq_ok_iff.1 h
  obtain ⟨offsets, hoffsets, h⟩ := Except.bind_eq_ok_iff.1 h
  obtain rfl := Except.ok.inj h
  obtain ⟨hend, rfl⟩ := numbers_take_eq_ok hstop huid hoffsets
  rw [List.map_map]
  refine ⟨⟨?_, rfl, rfl⟩, rfl⟩
  rwa [List.length_map, List.length_range]

theorem standsIn_of_body (hstop : stop ≤ data.length) {start : Nat} {nodeType : UInt16}
    {body : NodeBody}
    (h : Indexed.body (data.take stop) nodeType start (numberField data (start + 2) 2) = .ok body)
    (hlength : numberField data (start + 2) 2 < UInt16.size) :
    body.StandsIn data start stop ∧ body.nodeType = nodeType := by
  rw [Indexed.body] at h
  split at h
  next htype => exact htype ▸ standsIn_of_isaString hstop h
  split at h
  next htype => exact htype ▸ standsIn_of_cacheBlocks hstop h
  split at h
  next htype => exact htype ▸ standsIn_of_hartInfo hstop h
  next =>
    obtain rfl := Except.ok.inj h
    exact ⟨UInt16.toNat_ofNat_of_lt' hlength, rfl⟩

/-- A node that is decoded stands where it was looked for. -/
theorem standsAt_of_node {start length : Nat} {node : Node} (hsize : data.length < UInt32.size)
    (h : Indexed.node data start = .ok (node, length)) :
    node.StandsAt data start ∧ length = node.lengthIn data := by
  simp only [Indexed.node, number_bind_eq_ok_iff] at h
  obtain ⟨-, hlength, hheader, h⟩ := h
  obtain ⟨hleast, h⟩ := Except.guard_eq_ok_iff.1 h
  obtain ⟨hend, h⟩ := Except.guard_eq_ok_iff.1 h
  have hinside := Nat.not_lt.1 hend
  rw [slice, if_pos ⟨Nat.zero_le _, hinside⟩, List.drop_zero] at h
  obtain ⟨bytes, hbytes, h⟩ := Except.bind_eq_ok_iff.1 h
  obtain rfl := Except.ok.inj hbytes
  obtain ⟨body, hbody, h⟩ := Except.bind_eq_ok_iff.1 h
  obtain ⟨rfl, rfl⟩ := Prod.mk.inj (Except.ok.inj h)
  have hstart : (UInt32.ofNat start).toNat = start := UInt32.toNat_ofNat_of_lt' (by omega)
  have hlt := LittleEndian.decode_lt (field data (start + 2) 2)
  rw [View.length_field hlength] at hlt
  obtain ⟨hstands, hsort⟩ := standsIn_of_body hinside hbody hlt
  have hlengthIn {nodeType revision : UInt16} :
      Node.lengthIn data ⟨UInt32.ofNat start, nodeType, revision, body⟩ =
        numberField data (start + 2) 2 := by
    rw [Node.lengthIn, hstart]
  refine ⟨⟨hstart, rfl, rfl, ?_, ?_, hsort, ?_⟩, hlengthIn.symm⟩
  · exact hlengthIn ▸ Nat.not_lt.1 hleast
  · exact hlengthIn ▸ hinside
  · exact hlengthIn ▸ hstands

theorem standFrom_of_nodes {count start : Nat} {found : List Node}
    (hsize : data.length < UInt32.size) (h : (Indexed.nodes data count start).2 = .ok found) :
    found.length = count ∧ Node.StandFrom data start found := by
  induction count generalizing start found with
  | zero =>
    obtain rfl := Except.ok.inj h
    exact ⟨rfl, trivial⟩
  | succ count ih =>
    rw [Indexed.nodes] at h
    split at h
    next => cases h
    next node length hnode =>
      obtain ⟨rest, hrest, rfl⟩ := Except.map_eq_ok_iff.1 h
      obtain ⟨hstands, rfl⟩ := standsAt_of_node hsize hnode
      obtain ⟨hcount, hfrom⟩ := ih hrest
      exact ⟨congrArg Nat.succ hcount, hstands, hfrom⟩

/-- Every node that could be decoded took up bytes of its own. -/
theorem decoded_nodes_le (hsize : data.length < UInt32.size) (count start : Nat) :
    nodeHeaderSize * (Indexed.nodes data count start).1 ≤ data.length - start + nodeHeaderSize := by
  induction count generalizing start with
  | zero => exact Nat.zero_le _
  | succ count ih =>
    rw [Indexed.nodes]
    split
    next => exact Nat.le_add_left _ _
    next node length hnode =>
      obtain ⟨hstands, rfl⟩ := standsAt_of_node hsize hnode
      have hrest := ih (start + node.lengthIn data)
      have hheader := hstands.header
      have hinside := hstands.inside
      dsimp only
      rw [Nat.mul_succ]
      omega

end Sound

/-- **Whatever number of nodes a table claims, only so many are looked at as it can hold**, and
one more. -/
theorem decoded_parse_le (data : Bytes) : (parse data).1 ≤ data.length / 6 + 1 := by
  rw [parse, front_eq]
  cases hfault : View.headerFault? data with
  | some error => exact Nat.zero_le _
  | none =>
    have hlength := (View.headerFault?_eq_none_iff.1 hfault).2.2.1
    have hsize : data.length < UInt32.size := hlength ▸ (View.readHeader data).length.toNat_lt
    have hle := decoded_nodes_le hsize (numberField data 48 4)
      (View.around data []).nodeOffset.toNat
    rw [nodeHeaderSize] at hle
    dsimp only
    omega

end Indexed

/-! ## Nodes in a row -/

namespace Node.StandFrom

variable {data : Bytes} {start : Nat} {nodes : List Node}

theorem standsAt_of_mem (h : StandFrom data start nodes) {node : Node} (hnode : node ∈ nodes) :
    start ≤ node.offset.toNat ∧ node.StandsAt data node.offset.toNat := by
  induction nodes generalizing start with
  | nil => cases hnode
  | cons first rest ih =>
    obtain ⟨hfirst, hrest⟩ := h
    rcases List.mem_cons.1 hnode with rfl | hnode
    · exact ⟨Nat.le_of_eq hfirst.offset.symm, hfirst.offset.symm ▸ hfirst⟩
    · obtain ⟨hle, hstands⟩ := ih hrest hnode
      exact ⟨Nat.le_trans (Nat.le_add_right _ _) hle, hstands⟩

/-- Nodes that stand one behind the other have no byte in common. -/
theorem apart (h : StandFrom data start nodes) :
    nodes.Pairwise fun first second =>
      first.offset.toNat + first.lengthIn data ≤ second.offset.toNat := by
  induction nodes generalizing start with
  | nil => exact List.Pairwise.nil
  | cons first rest ih =>
    obtain ⟨hfirst, hrest⟩ := h
    refine List.pairwise_cons.2 ⟨fun second hsecond => ?_, ih hrest⟩
    rw [hfirst.offset]
    exact (standsAt_of_mem hrest hsecond).1

theorem increasing (h : StandFrom data start nodes) :
    nodes.Pairwise fun first second => first.offset < second.offset := by
  refine h.apart.imp_of_mem fun {first second} hfirst _ hle => ?_
  have hheader := (h.standsAt_of_mem hfirst).2.header
  rw [UInt32.lt_iff_toNat_lt]
  rw [nodeHeaderSize] at hheader
  omega

end Node.StandFrom

/-! ## Any bytes can be read -/

namespace View

/-- What is accepted is sound. -/
theorem sound_of_parse {data : Bytes} {view : View} (h : parse data = .ok view) :
    view.Sound data := by
  obtain ⟨hfault, nodes, hnodes, hreferences, rfl⟩ := parse_eq_ok_iff.1 h
  obtain ⟨hsize, hsignature, hlength, hsum⟩ := headerFault?_eq_none_iff.1 hfault
  have hoffset := Indexed.toNat_nodeOffset_around hfault nodes
  have hindexed := Indexed.nodes_eq data (numberField data 48 4) (numberField data 52 4)
  have hreader : Indexed.readerAt data (numberField data 52 4) = nodeReader data := rfl
  rw [hreader, hnodes] at hindexed
  obtain ⟨hcount, hfrom⟩ := Indexed.standFrom_of_nodes
    (hlength ▸ (readHeader data).length.toNat_lt) hindexed
  exact {
    size := hsize
    signature := hsignature.trans (by decide)
    length := hlength
    sum := hsum
    count := hcount
    nodeOffset := hoffset
    nodes := hoffset ▸ hfrom
    apart := hfrom.apart
    increasing := hfrom.increasing
    references := badReference?_eq_none_iff.1 hreferences }

/-- **Any bytes can be read, and an accepted table is sound.**  The indexing program is never out
of range: it ends as `parse` does, after no more nodes than the bytes can hold and one. -/
theorem parse_safe (data : Bytes) :
    (Indexed.parse data).2 = (parse data).mapError .refused ∧
      (∀ first last length, (Indexed.parse data).2 ≠ .error (.outOfRange first last length)) ∧
      (Indexed.parse data).1 ≤ data.length / 6 + 1 ∧
      ∀ view, parse data = .ok view → view.Sound data := by
  have houtcome := Indexed.outcome_parse data
  refine ⟨houtcome, fun first last length hout => ?_, Indexed.decoded_parse_le data,
    fun view => sound_of_parse⟩
  rw [houtcome] at hout
  cases hparse : parse data with
  | error cause => rw [hparse] at hout; cases hout
  | ok view => rw [hparse] at hout; cases hout

/-- The sample table is accepted, so it is sound. -/
theorem parse_safe_sampleStore :
    ∃ table view,
      (Generator.buildTable ⟨stampIdentity, none⟩ sampleInfo sampleStore).1 = .ok table ∧
        parse table = .ok view ∧ view.Sound table := by
  obtain ⟨table, index, hbuild⟩ := exists_sampleTable
  obtain ⟨inputs, -, hparse, -⟩ := parse_of_build hbuild isa_sampleStore
  exact ⟨table, _, by rw [Generator.buildTable, hbuild], hparse,
    (parse_safe table).2.2.2 _ hparse⟩

end View
end Rhct
end RiscvTables
