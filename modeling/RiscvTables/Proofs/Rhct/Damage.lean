import Mathlib.Tactic.SplitIfs
import RiscvTables.Proofs.Rhct.RoundTrip

/-!
# Damage to a table is noticed

`View.parse` makes four checks before it looks at any node: the size of the header, the signature,
the length and the sum of the bytes (`headerFault?`).  They are enough to notice every change of
one byte and every change of length, and which of them does so depends only on where the damage is
(`Damage.finding`): a byte of the signature or of the length is noticed as such, any other byte by
the sum, and a change of length by the length, or by the size if not even the header is left.

The sum alone would not do.  A suffix that sums to zero can be cut off or put on without changing
it, so it takes the length field, which such damage leaves as it was.
-/

set_option autoImplicit false

namespace RiscvTables

/-- Byte strings of one length that spell the same number are the same. -/
theorem LittleEndian.decode_inj {a b : Bytes} (hlength : a.length = b.length)
    (h : decode a = decode b) : a = b := by
  rw [← encode_decode a, ← encode_decode b, hlength, h]

/-- With another byte in one place, the sum is another. -/
theorem Bytes.byteSum_set_ne {bytes : Bytes} {i : Nat} {old b : UInt8} (hold : bytes[i]? = some old)
    (hne : old ≠ b) : Bytes.byteSum (bytes.set i b) ≠ Bytes.byteSum bytes := by
  obtain ⟨hlt, rfl⟩ := List.getElem?_eq_some_iff.1 hold
  have hbytes := byteSum_set hlt bytes[i]
  rw [List.set_getElem_self] at hbytes
  rw [byteSum_set hlt b, hbytes]
  exact fun hsum => hne (by grind)

namespace Rhct

/-- What can happen to a table on its way. -/
inductive Damage where
  /-- One byte is another. -/
  | byte (position : Nat) (value : UInt8)
  /-- Only so many bytes are left. -/
  | cut (length : Nat)
  /-- Something follows the table. -/
  | extension (more : Bytes)

namespace Damage

/-- The damaged table. -/
def apply (data : Bytes) : Damage → Bytes
  | .byte position value => data.set position value
  | .cut length => data.take length
  | .extension more => data ++ more

/-- Whether there is any difference. -/
def Changes (data : Bytes) : Damage → Prop
  | .byte position value => ∃ old, data[position]? = some old ∧ old ≠ value
  | .cut length => length < data.length
  | .extension more => more ≠ []

/-- As what the damage is noticed. -/
def finding (data : Bytes) : Damage → RhctError
  | .byte position value =>
    let damaged : Bytes := data.set position value
    if position < 4 then .badSignature (View.field damaged 0 4)
    else if position < 8 then .lengthMismatch (View.readHeader damaged).length data.length
    else .badChecksum damaged.byteSum
  | .cut length =>
    if length < tableHeaderSize then .truncated length tableHeaderSize
    else .lengthMismatch (View.readHeader data).length length
  | .extension more =>
    .lengthMismatch (View.readHeader data).length (data.length + more.length)

end Damage

namespace View

variable {data : Bytes} {view : View}

/-! ## The checks before the nodes -/

/-- What the checks before the nodes find wrong. -/
def headerFault? (data : Bytes) : Option RhctError :=
  if data.length < tableHeaderSize then some (.truncated data.length tableHeaderSize)
  else if field data 0 4 ≠ signature.toList then some (.badSignature (field data 0 4))
  else if (readHeader data).length.toNat ≠ data.length then
    some (.lengthMismatch (readHeader data).length data.length)
  else if data.byteSum ≠ 0 then some (.badChecksum data.byteSum)
  else none

/-- Where the first node is read. -/
def nodeReader (data : Bytes) : Reader where
  offset := numberField data 52 4
  rest := data.drop (numberField data 52 4)

/-- The table around its nodes. -/
def around (data : Bytes) (nodes : List Node) : View where
  header := readHeader data
  flags := UInt32.ofNat (numberField data 36 4)
  timebaseFrequency := UInt64.ofNat (numberField data 40 8)
  nodeOffset := UInt32.ofNat (numberField data 52 4)
  nodes

/-- What is read once the checks have found nothing wrong. -/
def readNodes (data : Bytes) : Except RhctError View := do
  let nodes ← Node.readAll (numberField data 48 4) (nodeReader data)
  match badReference? nodes with
  | some (node, target) => throw (.badNode node.offset.toNat (.badReference target))
  | none => return around data nodes

/-- **First the checks, then the nodes.** -/
theorem parse_eq (data : Bytes) :
    parse data = (headerFault? data).elim (readNodes data) .error := by
  rw [parse, headerFault?]
  split
  · rfl
  dsimp only
  split
  · rfl
  split
  · rfl
  split <;> rfl

theorem parse_eq_ok_iff :
    parse data = .ok view ↔
      headerFault? data = none ∧ ∃ nodes,
        Node.readAll (numberField data 48 4) (nodeReader data) = .ok nodes ∧
          badReference? nodes = none ∧ view = around data nodes := by
  rw [parse_eq]
  cases headerFault? data with
  | some error => simp
  | none =>
    rw [Option.elim_none, readNodes, Except.bind_eq_ok_iff, and_iff_right rfl]
    refine exists_congr fun nodes => and_congr_right fun _ => ?_
    cases badReference? nodes with
    | some found => simp [Except.throw_ne_ok]
    | none => exact (Except.pure_eq_ok_iff.trans eq_comm).trans (and_iff_right rfl).symm

theorem headerFault?_eq_none_iff :
    headerFault? data = none ↔
      tableHeaderSize ≤ data.length ∧ field data 0 4 = signature.toList ∧
        (readHeader data).length.toNat = data.length ∧ data.byteSum = 0 := by
  rw [headerFault?]
  split_ifs with hsize hsignature hlength hsum <;> simp_all

/-! ## Fields of a damaged table -/

theorem field_append {start width : Nat} (more : Bytes) (h : start + width ≤ data.length) :
    field (data ++ more) start width = field data start width := by
  rw [field, List.drop_append_of_le_length (by omega),
    List.take_append_of_le_length (by rw [List.length_drop]; omega), field]

theorem field_take {start width n : Nat} (h : start + width ≤ n) :
    field (data.take n) start width = field data start width := by
  rw [field, List.drop_take, List.take_take, Nat.min_eq_left (by omega), field]

theorem field_set_of_lt {start width i : Nat} (value : UInt8) (h : start + width ≤ i) :
    field (data.set i value) start width = field data start width := by
  rw [field, List.drop_set, if_neg (by omega), List.take_set_of_le (by omega), field]

/-- A field with another byte in it is another. -/
theorem field_set_ne {start width i : Nat} {old value : UInt8} (hstart : start ≤ i)
    (hi : i < start + width) (hold : data[i]? = some old) (hne : old ≠ value) :
    field (data.set i value) start width ≠ field data start width := by
  intro heq
  have hlt := (List.getElem?_eq_some_iff.1 hold).1
  have hbyte := congrArg (·[i - start]?) heq
  simp only [field, List.getElem?_take_of_lt (show i - start < width by omega),
    List.getElem?_drop, Nat.add_sub_cancel' hstart, hold, List.getElem?_set_self hlt] at hbyte
  exact hne (Option.some.inj hbyte).symm

theorem length_field {start width : Nat} (h : start + width ≤ data.length) :
    (field data start width).length = width := by
  rw [field, List.length_take_of_le (by rw [List.length_drop]; omega)]

theorem toNat_length_readHeader (h : 8 ≤ data.length) :
    (readHeader data).length.toNat = numberField data 4 4 := by
  have hlt := LittleEndian.decode_lt (field data 4 4)
  rw [length_field h] at hlt
  exact UInt32.toNat_ofNat_of_lt' hlt

/-! ## What each damage is noticed as -/

section Findings

variable (hsignature : field data 0 4 = signature.toList)
  (hlength : (readHeader data).length.toNat = data.length)
include hsignature hlength

theorem headerFault?_set (hsize : tableHeaderSize ≤ data.length) (hsum : data.byteSum = 0)
    {i : Nat} {old value : UInt8} (hold : data[i]? = some old) (hne : old ≠ value) :
    headerFault? (data.set i value) = some (Damage.finding data (.byte i value)) := by
  have hheader : 56 ≤ data.length := hsize
  rw [headerFault?, List.length_set, if_neg (Nat.not_lt.2 hsize), Damage.finding]
  by_cases hfirst : i < 4
  · have hother : field (data.set i value) 0 4 ≠ field data 0 4 :=
      field_set_ne (Nat.zero_le i) (by omega) hold hne
    rw [hsignature] at hother
    rw [if_pos hother, if_pos hfirst]
  have hsame : field (data.set i value) 0 4 = signature.toList := by
    rw [field_set_of_lt value (by omega), hsignature]
  rw [if_neg (not_ne_iff.2 hsame), if_neg hfirst]
  have hfield : (readHeader (data.set i value)).length.toNat =
      numberField (data.set i value) 4 4 :=
    toNat_length_readHeader (by rw [List.length_set]; omega)
  have hold' : numberField data 4 4 = data.length := by
    rw [← toNat_length_readHeader (by omega), hlength]
  by_cases hsecond : i < 8
  · have hother : numberField (data.set i value) 4 4 ≠ data.length := by
      intro heq
      have hfield' : field (data.set i value) 4 4 ≠ field data 4 4 :=
        field_set_ne (Nat.not_lt.1 hfirst) (by omega) hold hne
      refine hfield' (LittleEndian.decode_inj ?_ (heq.trans hold'.symm))
      rw [length_field (by rw [List.length_set]; omega), length_field (by omega)]
    rw [if_pos (hfield ▸ hother), if_pos hsecond]
  · have hsame' : (readHeader (data.set i value)).length.toNat = data.length := by
      rw [hfield, numberField, field_set_of_lt value (by omega)]
      exact hold'
    have hother := Bytes.byteSum_set_ne hold hne
    rw [hsum] at hother
    rw [if_neg (not_ne_iff.2 hsame'), if_neg hsecond, if_pos hother]

theorem headerFault?_take {n : Nat} (h : n < data.length) :
    headerFault? (data.take n) = some (Damage.finding data (.cut n)) := by
  rw [headerFault?, List.length_take_of_le (Nat.le_of_lt h), Damage.finding]
  by_cases hheader : n < tableHeaderSize
  · rw [if_pos hheader, if_pos hheader]
  have hlarge : 56 ≤ n := Nat.not_lt.1 hheader
  have hsame : (readHeader (data.take n)).length = (readHeader data).length := by
    simp only [readHeader, numberField, field_take (show 4 + 4 ≤ n by omega)]
  rw [if_neg hheader, field_take (by omega), if_neg (not_ne_iff.2 hsignature), hsame, hlength,
    if_pos (Nat.ne_of_gt h), if_neg hheader]

theorem headerFault?_append (hsize : tableHeaderSize ≤ data.length) {more : Bytes}
    (h : more ≠ []) :
    headerFault? (data ++ more) = some (Damage.finding data (.extension more)) := by
  have hheader : 56 ≤ data.length := hsize
  have hmore := List.length_pos_iff.2 h
  have hsame : (readHeader (data ++ more)).length = (readHeader data).length := by
    simp only [readHeader, numberField, field_append more (show 4 + 4 ≤ data.length by omega)]
  rw [headerFault?, List.length_append, if_neg (by rw [tableHeaderSize, sdtHeaderSize]; omega),
    field_append more (by omega), if_neg (not_ne_iff.2 hsignature), hsame, hlength,
    if_pos (by omega), Damage.finding]

end Findings

/-- Every damage to the bytes is noticed, and as what. -/
def NoticesDamage (data : Bytes) : Prop :=
  ∀ damage, Damage.Changes data damage → parse (damage.apply data) = .error (damage.finding data)

theorem noticesDamage_of_parse (h : parse data = .ok view) : NoticesDamage data := by
  obtain ⟨hnone, -⟩ := parse_eq_ok_iff.1 h
  obtain ⟨hsize, hsignature, hlength, hsum⟩ := headerFault?_eq_none_iff.1 hnone
  intro damage hchanges
  have hfault : headerFault? (damage.apply data) = some (damage.finding data) := by
    cases damage with
    | byte i value =>
      obtain ⟨old, hold, hne⟩ := hchanges
      exact headerFault?_set hsignature hlength hsize hsum hold hne
    | cut n => exact headerFault?_take hsignature hlength hchanges
    | extension more => exact headerFault?_append hsignature hlength hsize hchanges
  rw [parse_eq, hfault, Option.elim_some]

/-- **Damage is noticed.**  One byte that is another, a suffix that is missing and bytes that are
too many: an accepted table with any of them is refused, and so is a table from the generator. -/
theorem noticesDamage :
    (∀ data view, parse data = .ok view → NoticesDamage data) ∧
      ∀ info store previous table,
        (Generator.buildTable ⟨stampIdentity, previous⟩ info store).1 = .ok table →
        (∀ record ∈ store.fetchAll IsaRecord, 0 ∉ Utf8.encode record.isa) →
          NoticesDamage table := by
  refine ⟨fun data view => noticesDamage_of_parse, fun info store previous table hbuild hisa => ?_⟩
  rw [Generator.buildTable] at hbuild
  split at hbuild
  next => cases hbuild
  next built index hbuilt =>
    obtain rfl := Except.ok.inj hbuild
    obtain ⟨inputs, -, hparse, -⟩ := parse_of_build hbuilt hisa
    exact noticesDamage_of_parse hparse

/-! ## A sample table -/

theorem isa_sampleStore :
    ∀ record ∈ sampleStore.fetchAll IsaRecord, 0 ∉ Utf8.encode record.isa := by
  decide +kernel

theorem exists_sampleTable :
    ∃ table index, build stampIdentity sampleInfo sampleStore = .ok (table, index) := by
  have hok : (build stampIdentity sampleInfo sampleStore).isOk := by decide +kernel
  cases hbuild : build stampIdentity sampleInfo sampleStore with
  | error error => rw [hbuild] at hok; cases hok
  | ok built => exact ⟨built.1, built.2, rfl⟩

/-- Not even zeros behind the sample table go unnoticed, though they leave its sum as it is. -/
theorem noticesDamage_sampleStore :
    ∃ table, (Generator.buildTable ⟨stampIdentity, none⟩ sampleInfo sampleStore).1 = .ok table ∧
      NoticesDamage table ∧ (∃ view, parse table = .ok view) ∧
      parse (table ++ [0, 0, 0, 0]) =
        .error (.lengthMismatch (readHeader table).length (table.length + 4)) := by
  obtain ⟨table, index, hbuild⟩ := exists_sampleTable
  obtain ⟨inputs, -, hparse, -⟩ := parse_of_build hbuild isa_sampleStore
  have hgenerator :
      (Generator.buildTable ⟨stampIdentity, none⟩ sampleInfo sampleStore).1 = .ok table := by
    rw [Generator.buildTable, hbuild]
  refine ⟨table, hgenerator, noticesDamage.2 _ _ none table hgenerator isa_sampleStore,
    ⟨_, hparse⟩, ?_⟩
  exact noticesDamage.1 table _ hparse (.extension [0, 0, 0, 0]) (List.cons_ne_nil 0 _)

end View
end Rhct
end RiscvTables
