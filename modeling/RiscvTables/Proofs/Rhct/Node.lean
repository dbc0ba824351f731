import RiscvTables.Proofs.Text.Utf8
import RiscvTables.Rhct.Node

/-!
# Nodes that are written are read back

`Node.read` stands at the first byte of a node and knows nothing of what follows it, so the round
trip is stated with arbitrary bytes behind the node.  `read_encode` is the case of one node and
`readAll_encode` that of a list of nodes, each of which starts where the one before it ends.

Not every node survives: the length of a node has 16 bits, and the reader takes an ISA string to
end at its first zero byte.  `NodeBody.Writable` says which do.
-/

set_option autoImplicit false

namespace RiscvTables

theorem LittleEndian.length_flatMap_encode {α : Type} (width : Nat) (f : α → Nat) (xs : List α) :
    (xs.flatMap fun x => encode width (f x)).length = width * xs.length := by
  induction xs with
  | nil => rfl
  | cons x xs ih =>
    rw [List.flatMap_cons, List.length_append, ih, length_encode, List.length_cons, Nat.mul_succ,
      Nat.add_comm]

namespace Rhct

/-! ## Numbers -/

namespace Reader

theorem number_encode {width n : Nat} (offset : Nat) (rest : Bytes)
    (h : n < Bytes.capacity width) :
    number width { offset, rest := LittleEndian.encode width n ++ rest } =
      .ok (n, { offset := offset + width, rest }) := by
  have hsplit : (LittleEndian.encode width n ++ rest).split? width =
      some (LittleEndian.encode width n, rest) :=
    Bytes.split?_eq_some_iff.2 ⟨rfl, LittleEndian.length_encode width n⟩
  simp only [number, hsplit, LittleEndian.decode_encode h]

/-- The single byte as a number of width 1. -/
theorem number_byte (b : UInt8) (offset : Nat) (rest : Bytes) :
    number 1 { offset, rest := b :: rest } = .ok (b.toNat, { offset := offset + 1, rest }) := by
  have hsplit : Bytes.split? 1 (b :: rest) = some ([b], rest) :=
    Bytes.split?_eq_some_iff.2 ⟨rfl, rfl⟩
  simp only [number, hsplit, LittleEndian.decode, Nat.mul_zero, Nat.add_zero]

theorem numbers_encode {width : Nat} (ns : List Nat) (offset : Nat) (rest : Bytes)
    (h : ∀ n ∈ ns, n < Bytes.capacity width) :
    numbers width ns.length
      { offset, rest := ns.flatMap (LittleEndian.encode width) ++ rest } = .ok ns := by
  induction ns generalizing offset with
  | nil => rfl
  | cons n ns ih =>
    have hn := h n List.mem_cons_self
    have hns := ih (offset + width) fun m hm => h m (List.mem_cons_of_mem n hm)
    rw [List.length_cons, numbers, List.flatMap_cons, List.append_assoc, number_encode _ _ hn]
    simp only [bind, Except.bind, hns]
    rfl

end Reader

/-! ## Sizes -/

namespace NodeBody

/-- The bodies that survive being written: the length of the node fits 16 bits, and an ISA string
has no zero byte.  A node of another type survives if it has a type of its own and a header. -/
def Writable : NodeBody → Prop
  | .isaString isa => isaStringSize isa ≤ 0xffff ∧ 0 ∉ Utf8.encode isa
  | .cacheBlocks .. => True
  | .hartInfo _ offsets => hartInfoSize offsets.length ≤ 0xffff
  | .unknown type length =>
    type ≠ 0 ∧ type ≠ 1 ∧ type ≠ 0xffff ∧ nodeHeaderSize ≤ length.toNat

/-- Only a node of another type can claim to be shorter than its own header. -/
theorem length_payload {body : NodeBody} (h : nodeHeaderSize ≤ body.size) :
    body.payload.length + nodeHeaderSize = body.size := by
  cases body with
  | isaString isa =>
    simp only [payload, size, isaStringSize, nodeHeaderSize, List.length_append,
      LittleEndian.length_encode, Bytes.length_padTo _ (Nat.zero_lt_two), List.length_singleton]
    omega
  | cacheBlocks cbom cbop cboz => rfl
  | hartInfo uid offsets =>
    simp only [payload, size, hartInfoSize, nodeHeaderSize, List.length_append,
      LittleEndian.length_encode, LittleEndian.length_flatMap_encode]
    omega
  | unknown type length =>
    simp only [size, payload, List.length_replicate] at h ⊢
    omega

theorem length_encode {body : NodeBody} (h : nodeHeaderSize ≤ body.size) :
    body.encode.length = body.size := by
  have := length_payload h
  simp only [encode, List.length_append, LittleEndian.length_encode]
  simp only [nodeHeaderSize] at this
  omega

theorem Writable.nodeHeaderSize_le {body : NodeBody} (h : body.Writable) :
    nodeHeaderSize ≤ body.size := by
  cases body with
  | isaString isa => exact Nat.le_add_right_of_le (by decide)
  | cacheBlocks cbom cbop cboz => exact Nat.le_of_sub_eq_zero rfl
  | hartInfo uid offsets => exact Nat.le_add_right_of_le (by decide)
  | unknown type length => exact h.2.2.2

theorem Writable.size_lt {body : NodeBody} (h : body.Writable) : body.size < Bytes.capacity 2 := by
  show body.size < 65536
  cases body with
  | isaString isa => exact Nat.lt_succ_of_le h.1
  | cacheBlocks cbom cbop cboz => exact Nat.lt_of_sub_eq_succ rfl
  | hartInfo uid offsets => exact Nat.lt_succ_of_le h
  | unknown type length => exact length.toNat_lt

end NodeBody

/-! ## Bodies -/

namespace Node

theorem readIsaString_payload {isa : String} (start offset : Nat)
    (h : (NodeBody.isaString isa).Writable) :
    readIsaString start { offset, rest := (NodeBody.isaString isa).payload } =
      .ok (.isaString isa) := by
  obtain ⟨hsize, hzero⟩ := h
  have hlength : (Utf8.encode isa).length + 1 < Bytes.capacity 2 := by
    have := Bytes.le_roundUp ((Utf8.encode isa).length + 1) Nat.zero_lt_two
    show _ < 65536
    simp only [isaStringSize] at hsize
    omega
  have hsplit : (Bytes.padTo 2 (Utf8.encode isa ++ [0])).split? ((Utf8.encode isa).length + 1) =
      some (Utf8.encode isa ++ [0],
        List.replicate (Bytes.gap 2 (Utf8.encode isa ++ [0]).length) 0) :=
    Bytes.split?_eq_some_iff.2 ⟨rfl, by simp⟩
  rw [readIsaString, NodeBody.payload, Reader.number_encode _ _ hlength]
  simp only [bind, Except.bind, hsplit, Bytes.takeWhile_ne_zero hzero, Utf8.decodeLossy_encode]
  rfl

theorem readCacheBlocks_payload (cbom cbop cboz : UInt8) (offset : Nat) :
    readCacheBlocks { offset, rest := (NodeBody.cacheBlocks cbom cbop cboz).payload } =
      .ok (.cacheBlocks cbom cbop cboz) := by
  simp only [readCacheBlocks, NodeBody.payload, Reader.number_byte, bind, Except.bind,
    UInt8.ofNat_toNat]
  rfl

theorem readHartInfo_payload {uid : UInt32} {offsets : List UInt32} (start offset : Nat)
    (h : (NodeBody.hartInfo uid offsets).Writable) :
    readHartInfo start (hartInfoSize offsets.length)
      { offset, rest := (NodeBody.hartInfo uid offsets).payload } =
        .ok (.hartInfo uid offsets) := by
  have hcount : offsets.length < Bytes.capacity 2 := by
    have : hartInfoSize offsets.length ≤ 0xffff := h
    show _ < 65536
    simp only [hartInfoSize] at this
    omega
  have huid : uid.toNat < Bytes.capacity 4 := uid.toNat_lt
  have hoffsets : ∀ n ∈ offsets.map UInt32.toNat, n < Bytes.capacity 4 := by
    intro n hn
    obtain ⟨target, -, rfl⟩ := List.mem_map.1 hn
    exact target.toNat_lt
  have hnumbers := Reader.numbers_encode _ (offset + 2 + 4) [] hoffsets
  rw [List.length_map, List.flatMap_map, List.append_nil] at hnumbers
  rw [readHartInfo, NodeBody.payload, List.append_assoc, Reader.number_encode _ _ hcount]
  simp only [bind, Except.bind, Reader.number_encode _ _ huid, Nat.lt_irrefl, if_false, pure,
    Except.pure, hnumbers, UInt32.ofNat_toNat, List.map_map]
  simp [Function.comp_def]

/-- Every body is read back from its payload. -/
theorem readBody_payload {body : NodeBody} (start offset : Nat) (h : body.Writable) :
    readBody body.nodeType start body.size { offset, rest := body.payload } = .ok body := by
  cases body with
  | isaString isa => exact readIsaString_payload start offset h
  | cacheBlocks cbom cbop cboz => exact readCacheBlocks_payload cbom cbop cboz offset
  | hartInfo uid offsets => exact readHartInfo_payload start offset h
  | unknown type length =>
    obtain ⟨hisa, hcmo, hhart, -⟩ := h
    simp [readBody, NodeBody.nodeType, NodeBody.size, hisa, hcmo, hhart]

/-! ## Nodes -/

/-- The node with a body that starts at an offset. -/
def ofBody (offset : Nat) (body : NodeBody) : Node where
  offset := UInt32.ofNat offset
  nodeType := body.nodeType
  revision := 1
  body

/-- The nodes with the given bodies, one behind the other from an offset on. -/
def placed (offset : Nat) : List NodeBody → List Node
  | [] => []
  | body :: rest => ofBody offset body :: placed (offset + body.size) rest

/-- **A node is read back**, and the reader stands behind it. -/
theorem read_encode {body : NodeBody} (offset : Nat) (rest : Bytes) (h : body.Writable) :
    read { offset, rest := body.encode ++ rest } =
      .ok (ofBody offset body, { offset := offset + body.size, rest }) := by
  have htype : body.nodeType.toNat < Bytes.capacity 2 := body.nodeType.toNat_lt
  have hone : 1 < Bytes.capacity 2 := by decide
  have hshort : ¬ body.size < nodeHeaderSize := Nat.not_lt.2 h.nodeHeaderSize_le
  have hsplit : (body.encode ++ rest).split? body.size = some (body.encode, rest) :=
    Bytes.split?_eq_some_iff.2 ⟨rfl, NodeBody.length_encode h.nodeHeaderSize_le⟩
  have hdrop : body.encode.drop nodeHeaderSize = body.payload := by
    rw [NodeBody.encode, List.drop_append_of_le_length (by simp [nodeHeaderSize]),
      List.drop_of_length_le (by simp [nodeHeaderSize]), List.nil_append]
  have hheader : body.encode ++ rest =
      LittleEndian.encode 2 body.nodeType.toNat ++ (LittleEndian.encode 2 body.size ++
        (LittleEndian.encode 2 1 ++ (body.payload ++ rest))) := by
    simp only [NodeBody.encode, List.append_assoc]
  have hnumber : Reader.number 2 { offset, rest := body.encode ++ rest } =
      .ok (body.nodeType.toNat, ⟨offset + 2,
        LittleEndian.encode 2 body.size ++
          (LittleEndian.encode 2 1 ++ (body.payload ++ rest))⟩) := by
    rw [hheader, Reader.number_encode _ _ htype]
  simp only [read, bind, Except.bind, hnumber, Reader.number_encode _ _ h.size_lt,
    Reader.number_encode _ _ hone, hshort, if_false, pure, Except.pure, hsplit, hdrop,
    UInt16.ofNat_toNat, readBody_payload _ _ h]
  rfl

/-- **Nodes that were written one behind the other are read back**, whatever follows them. -/
theorem readAll_encode (bodies : List NodeBody) (offset : Nat) (rest : Bytes)
    (h : ∀ body ∈ bodies, body.Writable) :
    readAll bodies.length { offset, rest := bodies.flatMap NodeBody.encode ++ rest } =
      .ok (placed offset bodies) := by
  induction bodies generalizing offset with
  | nil => rfl
  | cons body bodies ih =>
    have htail := ih (offset + body.size) fun b hb => h b (List.mem_cons_of_mem body hb)
    rw [List.length_cons, readAll, List.flatMap_cons, List.append_assoc,
      read_encode _ _ (h body List.mem_cons_self)]
    simp only [bind, Except.bind, htail]
    rfl

/-! ## What is placed -/

@[simp] theorem map_body_placed (offset : Nat) (bodies : List NodeBody) :
    (placed offset bodies).map (·.body) = bodies := by
  induction bodies generalizing offset with
  | nil => rfl
  | cons body bodies ih => simp [placed, ofBody, ih]

end Node
end Rhct
end RiscvTables
