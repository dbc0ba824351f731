import RiscvTables.Proofs.Rhct.Damage

/-!
# Reading a table by position

`View.parse` reads a table through a `Reader`, which cuts bytes off its input and goes on with the
rest, so it cannot leave the input.  A program that keeps the whole table and indexes it can: every
slice that it takes has bounds, and bounds outside the bytes are the end of the program.

This file is that program, and `Indexed.outcome_parse`, the payoff, says that it does what
`View.parse` does.  That none of its accesses is out of range follows at once.  The program is worth
having for another reason as well: it knows the position of each thing that it reads, which the
reader throws away, and `RiscvTables.Proofs.Rhct.Positions` reads off it where everything in an
accepted table stands.

Two things about its form matter for what can be said of it.

* A slice with bad bounds is an outcome of its own, `Stop.outOfRange`, next to the refusals with
  their causes.  Nearly all accesses go through `take`, which first asks for the bytes and refuses a
  table that has none there.  The signature, and the bytes up to the end of a node, are sliced
  outright; the check that makes this safe stands further up in the program.
* The nodes are counted as they are decoded, one that cannot be decoded included.  A table claims a
  number of nodes, and the count tells what such a claim can cost.

The proof goes through the functions of the two readers in pairs, from single numbers up to the
nodes, by equations that hold at every position.  `readerAt` is the reader that stands at a
position; `number_bind` is the one step that all of them are made of.
-/

set_option autoImplicit false

namespace RiscvTables
namespace Rhct

/-! ## The program

A node is decoded from the bytes in front of its end, so that a text or a list of references cannot
run into the node behind it.  The positions stay those of the table. -/

/-- Why an indexing program comes to an end without a table. -/
inductive Stop where
  /-- There is no slice with these bounds. -/
  | outOfRange (first last length : Nat)
  /-- The bytes are not a table. -/
  | refused (cause : RhctError)

namespace Indexed

/-- The bytes from `first` up to `last`. -/
def slice (data : Bytes) (first last : Nat) : Except Stop Bytes :=
  if first ≤ last ∧ last ≤ data.length then .ok ((data.take last).drop first)
  else .error (.outOfRange first last data.length)

/-- The next `width` bytes at a position, once it is sure that they are there. -/
def take (data : Bytes) (position width : Nat) : Except Stop Bytes :=
  if position + width ≤ data.length then slice data position (position + width)
  else .error (.refused (.truncated position width))

/-- The number in the next `width` bytes. -/
def number (data : Bytes) (position width : Nat) : Except Stop Nat :=
  return LittleEndian.decode (← take data position width)

/-- The text in the next `width` bytes. -/
def text (data : Bytes) (position width : Nat) : Except Stop String :=
  return Utf8.decodeLossy (← take data position width)

/-- The numbers in the next `count` pieces of `width` bytes. -/
def numbers (data : Bytes) (width : Nat) : Nat → Nat → Except Stop (List Nat)
  | 0, _ => .ok []
  | count + 1, position => do
    let first ← number data position width
    return first :: (← numbers data width count (position + width))

/-- The body of an ISA string node that starts at `offset`. -/
def isaString (bytes : Bytes) (offset : Nat) : Except Stop NodeBody := do
  let length ← number bytes (offset + 6) 2
  match take bytes (offset + 8) length with
  | .ok text => return .isaString (Utf8.decodeLossy (text.takeWhile (· ≠ 0)))
  | .error (.refused _) => throw (.refused (.badNode offset (.isaOverrun length)))
  | .error (.outOfRange first last length) => throw (.outOfRange first last length)

/-- The body of a cache-block node. -/
def cacheBlocks (bytes : Bytes) (offset : Nat) : Except Stop NodeBody := do
  let _ ← number bytes (offset + 6) 1
  let cbom ← number bytes (offset + 7) 1
  let cbop ← number bytes (offset + 8) 1
  let cboz ← number bytes (offset + 9) 1
  return .cacheBlocks (UInt8.ofNat cbom) (UInt8.ofNat cbop) (UInt8.ofNat cboz)

/-- The body of the node of a hart. -/
def hartInfo (bytes : Bytes) (offset length : Nat) : Except Stop NodeBody := do
  let count ← number bytes (offset + 6) 2
  let processorUid ← number bytes (offset + 8) 4
  if length < hartInfoSize count then throw (.refused (.badNode offset (.offsetsOverrun count)))
  let offsets ← numbers bytes 4 count (offset + 12)
  return .hartInfo (UInt32.ofNat processorUid) (offsets.map UInt32.ofNat)

/-- The body of a node of the given type, from the bytes up to the end of the node. -/
def body (bytes : Bytes) (nodeType : UInt16) (offset length : Nat) : Except Stop NodeBody :=
  if nodeType = 0 then isaString bytes offset
  else if nodeType = 1 then cacheBlocks bytes offset
  else if nodeType = 0xffff then hartInfo bytes offset length
  else .ok (.unknown nodeType (UInt16.ofNat length))

/-- The node at a position, and its length. -/
def node (data : Bytes) (offset : Nat) : Except Stop (Node × Nat) := do
  let nodeType ← number data offset 2
  let length ← number data (offset + 2) 2
  let revision ← number data (offset + 4) 2
  if length < nodeHeaderSize then throw (.refused (.badNode offset (.shortLength length)))
  if data.length < offset + length then throw (.refused (.truncated offset length))
  let bytes ← slice data 0 (offset + length)
  let body ← body bytes (UInt16.ofNat nodeType) offset length
  return ({ offset := UInt32.ofNat offset, nodeType := UInt16.ofNat nodeType,
            revision := UInt16.ofNat revision, body }, length)

/-- The next `count` nodes, and how many were decoded, one that cannot be included. -/
def nodes (data : Bytes) : Nat → Nat → Nat × Except Stop (List Node)
  | 0, _ => (0, .ok [])
  | count + 1, offset =>
    match node data offset with
    | .error stop => (1, .error stop)
    | .ok (node, length) =>
      let (decoded, outcome) := nodes data count (offset + length)
      (decoded + 1, outcome.map (node :: ·))

/-- The description header. -/
def header (data : Bytes) : Except Stop Header := do
  if data.length < tableHeaderSize then
    throw (.refused (.truncated data.length tableHeaderSize))
  let signature ← text data 0 4
  let length ← number data 4 4
  let revision ← number data 8 1
  let checksum ← number data 9 1
  let oemId ← text data 10 6
  let oemTableId ← text data 16 8
  let oemRevision ← number data 24 4
  let creatorId ← text data 28 4
  let creatorRevision ← number data 32 4
  return {
    signature, oemId, oemTableId, creatorId
    length := UInt32.ofNat length
    revision := UInt8.ofNat revision
    checksum := UInt8.ofNat checksum
    oemRevision := UInt32.ofNat oemRevision
    creatorRevision := UInt32.ofNat creatorRevision }

/-- The table without its nodes, and how many nodes it claims to have. -/
def front (data : Bytes) : Except Stop (View × Nat) := do
  let header ← header data
  let start ← slice data 0 4
  if start ≠ signature.toList then throw (.refused (.badSignature start))
  if header.length.toNat ≠ data.length then
    throw (.refused (.lengthMismatch header.length data.length))
  if data.byteSum ≠ 0 then throw (.refused (.badChecksum data.byteSum))
  let flags ← number data 36 4
  let timebaseFrequency ← number data 40 8
  let count ← number data 48 4
  let nodeOffset ← number data 52 4
  return ({ header, flags := UInt32.ofNat flags, nodes := []
            timebaseFrequency := UInt64.ofNat timebaseFrequency
            nodeOffset := UInt32.ofNat nodeOffset }, count)

/-- The table with its nodes, if these only refer to each other. -/
def checkReferences (table : View) (nodes : List Node) : Except Stop View :=
  match View.badReference? nodes with
  | some (node, target) => .error (.refused (.badNode node.offset.toNat (.badReference target)))
  | none => .ok { table with nodes }

/-- The table that the bytes are, and how many nodes were decoded. -/
def parse (data : Bytes) : Nat × Except Stop View :=
  match front data with
  | .error stop => (0, .error stop)
  | .ok (table, count) =>
    let (decoded, outcome) := nodes data count table.nodeOffset.toNat
    (decoded, outcome.bind (checkReferences table))

/-! ## Numbers

In these equations no slice is left: a number is there, or the table is refused for being too short
at that position.  `View.field` and `View.numberField` name the bytes and the number at a position
without saying how they are read. -/

theorem take_eq (data : Bytes) (position width : Nat) :
    take data position width =
      if position + width ≤ data.length then .ok (View.field data position width)
      else .error (.refused (.truncated position width)) := by
  rw [take, slice, List.drop_take, Nat.add_sub_cancel_left, View.field]
  split
  next h => rw [if_pos ⟨Nat.le_add_right _ _, h⟩]
  next => rfl

theorem number_eq (data : Bytes) (position width : Nat) :
    number data position width =
      if position + width ≤ data.length then .ok (View.numberField data position width)
      else .error (.refused (.truncated position width)) := by
  rw [number, take_eq]
  split <;> rfl

theorem text_of_le {data : Bytes} {position width : Nat} (h : position + width ≤ data.length) :
    text data position width = .ok (View.textField data position width) := by
  rw [text, take_eq, if_pos h]
  rfl

theorem number_of_le {data : Bytes} {position width : Nat} (h : position + width ≤ data.length) :
    number data position width = .ok (View.numberField data position width) := by
  rw [number_eq, if_pos h]

/-- The reader that stands at a position. -/
def readerAt (bytes : Bytes) (position : Nat) : Reader :=
  ⟨position, bytes.drop position⟩

theorem split?_drop {bytes : Bytes} {position width : Nat} (hposition : position ≤ bytes.length) :
    Bytes.split? width (bytes.drop position) =
      if position + width ≤ bytes.length then
        some (View.field bytes position width, bytes.drop (position + width))
      else none := by
  rw [View.field, Bytes.split?_drop hposition]

theorem number_readerAt {width : Nat} (hwidth : 0 < width) (bytes : Bytes) (position : Nat) :
    (readerAt bytes position).number width =
      if position + width ≤ bytes.length then
        .ok (View.numberField bytes position width, readerAt bytes (position + width))
      else .error (.truncated position width) := by
  rw [Reader.number, readerAt]
  by_cases hposition : position ≤ bytes.length
  · dsimp only
    rw [split?_drop hposition]
    by_cases h : position + width ≤ bytes.length
    · rw [if_pos h, if_pos h]
      rfl
    · rw [if_neg h, if_neg h]
  · have hnone : Bytes.split? width (bytes.drop position) = none :=
      Bytes.split?_eq_none_iff.2 (by rw [List.length_drop]; omega)
    dsimp only
    rw [hnone, if_neg (by omega)]

/-- An indexing program and one with a reader agree from a number on if they do behind it. -/
theorem number_bind {α : Type} {width : Nat} (hwidth : 0 < width) {bytes : Bytes} {position : Nat}
    {indexed : Nat → Except Stop α} {read : Nat × Reader → Except RhctError α}
    (h : position + width ≤ bytes.length → ∀ n,
      indexed n = (read (n, readerAt bytes (position + width))).mapError .refused) :
    number bytes position width >>= indexed =
      ((readerAt bytes position).number width >>= read).mapError .refused := by
  rw [number_eq, number_readerAt hwidth]
  split
  next hle => exact h hle _
  next => rfl

theorem numbers_eq {width : Nat} (hwidth : 0 < width) (bytes : Bytes) (count position : Nat) :
    numbers bytes width count position =
      ((readerAt bytes position).numbers width count).mapError .refused := by
  induction count generalizing position with
  | zero => rfl
  | succ count ih =>
    rw [numbers, Reader.numbers]
    refine number_bind hwidth fun _ n => ?_
    dsimp only
    rw [ih]
    cases (readerAt bytes (position + width)).numbers width count <;> rfl

/-! ## Nodes

A body reads one number after the other, so its equation is `number_bind` once for each of them.
The three known bodies and the unknown one are then the four branches of `body_eq`.  A refusal for
an ISA string that runs over the end of its node is the one place where the program changes a
cause. -/

theorem isaString_eq (bytes : Bytes) (offset : Nat) :
    isaString bytes offset =
      (Node.readIsaString offset (readerAt bytes (offset + 6))).mapError .refused := by
  rw [isaString, Node.readIsaString]
  refine number_bind Nat.zero_lt_two fun hle length => ?_
  dsimp only [readerAt]
  rw [take_eq, split?_drop hle]
  by_cases h : offset + 8 + length ≤ bytes.length
  · rw [if_pos h, if_pos h]
    rfl
  · rw [if_neg h, if_neg h]
    rfl

theorem cacheBlocks_eq (bytes : Bytes) (offset : Nat) :
    cacheBlocks bytes offset =
      (Node.readCacheBlocks (readerAt bytes (offset + 6))).mapError .refused := by
  rw [cacheBlocks, Node.readCacheBlocks]
  refine number_bind Nat.one_pos fun _ _ => ?_
  refine number_bind Nat.one_pos fun _ cbom => ?_
  refine number_bind Nat.one_pos fun _ cbop => ?_
  exact number_bind Nat.one_pos fun _ cboz => rfl

theorem hartInfo_eq (bytes : Bytes) (offset length : Nat) :
    hartInfo bytes offset length =
      (Node.readHartInfo offset length (readerAt bytes (offset + 6))).mapError .refused := by
  rw [hartInfo, Node.readHartInfo]
  refine number_bind Nat.zero_lt_two fun _ count => ?_
  refine number_bind (Nat.succ_pos 3) fun _ processorUid => ?_
  dsimp only
  split
  next => rfl
  next =>
    rw [numbers_eq (Nat.succ_pos 3)]
    cases (readerAt bytes (offset + 6 + 2 + 4)).numbers 4 count <;> rfl

theorem body_eq (bytes : Bytes) (nodeType : UInt16) (offset length : Nat) :
    body bytes nodeType offset length =
      (Node.readBody nodeType offset length
        (readerAt bytes (offset + nodeHeaderSize))).mapError .refused := by
  rw [body, Node.readBody]
  split
  next => exact isaString_eq bytes offset
  split
  next => exact cacheBlocks_eq bytes offset
  split
  next => exact hartInfo_eq bytes offset length
  next => rfl

/-- What a node's bytes are behind its header. -/
theorem readerAt_take {data : Bytes} {offset length : Nat} :
    readerAt (data.take (offset + length)) (offset + nodeHeaderSize) =
      ⟨offset + nodeHeaderSize, (View.field data offset length).drop nodeHeaderSize⟩ := by
  rw [readerAt, View.field, List.drop_take, List.drop_take, List.drop_drop, Nat.add_sub_add_left]

theorem node_eq (data : Bytes) (offset : Nat) :
    (fun (node, length) => (node, readerAt data (offset + length))) <$> node data offset =
      (Node.read (readerAt data offset)).mapError .refused := by
  rw [node, Node.read]
  simp only [map_bind]
  refine number_bind Nat.zero_lt_two fun _ nodeType => ?_
  refine number_bind Nat.zero_lt_two fun _ length => ?_
  refine number_bind Nat.zero_lt_two fun hle revision => ?_
  dsimp only
  split
  next => rfl
  have hstart : offset ≤ data.length := by omega
  rw [show (readerAt data offset).rest = data.drop offset from rfl,
    show (readerAt data offset).offset = offset from rfl, split?_drop hstart]
  by_cases hend : offset + length ≤ data.length
  · rw [if_neg (Nat.not_lt.2 hend), if_pos hend, slice, if_pos ⟨Nat.zero_le _, hend⟩,
      List.drop_zero]
    dsimp only
    rw [← readerAt_take]
    simp only [bind, Except.bind, body_eq]
    cases Node.readBody (UInt16.ofNat nodeType) offset length
      (readerAt (data.take (offset + length)) (offset + nodeHeaderSize)) <;> rfl
  · rw [if_pos (Nat.not_le.1 hend), if_neg hend]
    rfl

theorem nodes_eq (data : Bytes) (count offset : Nat) :
    (nodes data count offset).2 =
      (Node.readAll count (readerAt data offset)).mapError .refused := by
  induction count generalizing offset with
  | zero => rfl
  | succ count ih =>
    have hread := node_eq data offset
    rw [nodes, Node.readAll]
    cases hnode : node data offset with
    | error stop =>
      rw [hnode] at hread
      cases hreader : Node.read (readerAt data offset) with
      | error cause =>
        rw [hreader] at hread
        obtain rfl : stop = .refused cause := Except.error.inj hread
        rfl
      | ok next => rw [hreader] at hread; cases hread
    | ok found =>
      rw [hnode] at hread
      cases hreader : Node.read (readerAt data offset) with
      | error cause => rw [hreader] at hread; cases hread
      | ok next =>
        rw [hreader] at hread
        obtain rfl := Except.ok.inj hread
        dsimp only
        rw [ih]
        simp only [bind, Except.bind]
        cases Node.readAll count (readerAt data (offset + found.2)) <;> rfl

/-! ## Tables

The header can be read once the table is known to be long enough for it, and not before: the first
check of `front` is the reason why `header_eq` has a hypothesis. -/

theorem header_eq {data : Bytes} (h : ¬ data.length < tableHeaderSize) :
    header data = .ok (View.readHeader data) := by
  have hlarge : 56 ≤ data.length := Nat.not_lt.1 h
  rw [header, if_neg h]
  simp (disch := omega) only [text_of_le, number_of_le]
  rfl

/-- The table around no nodes yet. -/
theorem front_eq (data : Bytes) :
    front data =
      match View.headerFault? data with
      | some error => .error (.refused error)
      | none => .ok (View.around data [], View.numberField data 48 4) := by
  rw [front, View.headerFault?]
  by_cases hshort : data.length < tableHeaderSize
  · rw [header, if_pos hshort, if_pos hshort]
    rfl
  have hlarge : 56 ≤ data.length := Nat.not_lt.1 hshort
  have hstart : slice data 0 4 = .ok (View.field data 0 4) := by
    rw [slice, if_pos ⟨Nat.zero_le _, by omega⟩]
    rfl
  rw [header_eq hshort, hstart, if_neg hshort]
  simp (disch := omega) only [number_of_le, bind, Except.bind]
  by_cases hsignature : View.field data 0 4 ≠ signature.toList
  · rw [if_pos hsignature, if_pos hsignature]
    rfl
  by_cases hlength : (View.readHeader data).length.toNat ≠ data.length
  · rw [if_neg hsignature, if_neg hsignature, if_pos hlength, if_pos hlength]
    rfl
  rw [if_neg hsignature, if_neg hsignature, if_neg hlength, if_neg hlength]
  by_cases hsum : data.byteSum ≠ 0
  · rw [if_pos hsum, if_pos hsum]
    rfl
  · rw [if_neg hsum, if_neg hsum]
    rfl

theorem toNat_nodeOffset_around {data : Bytes} (h : View.headerFault? data = none)
    (nodes : List Node) :
    (View.around data nodes).nodeOffset.toNat = View.numberField data 52 4 := by
  have hlarge : 56 ≤ data.length := (View.headerFault?_eq_none_iff.1 h).1
  have hlt := LittleEndian.decode_lt (View.field data 52 4)
  rw [View.length_field (by omega)] at hlt
  exact UInt32.toNat_ofNat_of_lt' hlt

/-- **The indexing program has the outcome of the reader**, so no slice of it is out of range. -/
theorem outcome_parse (data : Bytes) : (parse data).2 = (View.parse data).mapError .refused := by
  rw [parse, front_eq, View.parse_eq]
  cases hfault : View.headerFault? data with
  | some error => rfl
  | none =>
    dsimp only
    rw [toNat_nodeOffset_around hfault, nodes_eq, Option.elim_none, View.readNodes]
    simp only [bind, Except.bind]
    have hreader : readerAt data (View.numberField data 52 4) = View.nodeReader data := rfl
    rw [hreader]
    cases Node.readAll (View.numberField data 48 4) (View.nodeReader data) with
    | error cause => rfl
    | ok nodes =>
      dsimp only [Except.mapError, checkReferences]
      cases View.badReference? nodes <;> rfl

end Indexed
end Rhct
end RiscvTables
