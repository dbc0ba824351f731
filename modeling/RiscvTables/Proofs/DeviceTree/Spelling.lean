import RiscvTables.DeviceTree.Blob
import RiscvTables.Proofs.Outcome
import RiscvTables.Proofs.Text.Utf8

/-!
# How tokens are spelled

`Token.Spells` says which bytes a token may be.  It leaves open what a writer is free to choose:
the bytes that fill a token up to a boundary, and where in the strings block the name of a property
stands.

Reading is the other side of it.  What is spelled is read, whatever follows
(`Token.read_of_spells`), and what is read was spelled, unless the block is cut off before the
boundary (`Token.spells_of_read`).  For a builder that reads up to the end of the block these are
`Blob.Builder.run_of_spells` and `Blob.Builder.exists_spells_of_run`, so what is left to prove
about a block is about lists of tokens and not about bytes.
-/

set_option autoImplicit false

namespace RiscvTables
namespace Token

/-! ## Spellings -/

/-- Bytes are some content, filled up to a multiple of four by fewer than four bytes. -/
def Padded (content bytes : Bytes) : Prop :=
  ∃ padding : Bytes, bytes = content ++ padding ∧ padding.length < 4 ∧ bytes.length % 4 = 0

/-- A name stands at a position of the strings block, and a zero byte behind it. -/
def NameAt (strings : Bytes) (position : Nat) (name : String) : Prop :=
  0 ∉ Utf8.encode name ∧ ∃ before after : Bytes,
    strings = before ++ (Utf8.encode name ++ 0 :: after) ∧ before.length = position

/-- The bytes of a token, beside a strings block. -/
def Spells (strings : Bytes) : Token → Bytes → Prop
  | .beginNode name, bytes =>
    0 ∉ Utf8.encode name ∧ Padded (BigEndian.encode 4 1 ++ Utf8.encode name ++ [0]) bytes
  | .endNode, bytes => bytes = BigEndian.encode 4 2
  | .property name value, bytes =>
    ∃ position, NameAt strings position name ∧ position < UInt32.size ∧
      value.length < UInt32.size ∧
        Padded (BigEndian.encode 4 3 ++ BigEndian.encode 4 value.length ++
          BigEndian.encode 4 position ++ value) bytes
  | .nop, bytes => bytes = BigEndian.encode 4 4
  | .finish, bytes => bytes = BigEndian.encode 4 9

/-! ## Names and numbers -/

theorem cString?_encode {name : String} (rest : Bytes) (h : 0 ∉ Utf8.encode name) :
    cString? (Utf8.encode name ++ 0 :: rest) = some (name, rest) := by
  rw [cString?]
  simp only [Bytes.takeWhile_ne_zero h, List.drop_left, Utf8.decode?_encode, Option.map_some]

theorem cString?_eq_some_iff {bytes rest : Bytes} {name : String} :
    cString? bytes = some (name, rest) ↔
      0 ∉ Utf8.encode name ∧ bytes = Utf8.encode name ++ 0 :: rest := by
  constructor
  · intro h
    have hsplit : bytes.takeWhile (· ≠ 0) ++ bytes.dropWhile (· ≠ 0) = bytes :=
      List.takeWhile_append_dropWhile
    have hdrop : bytes.drop (bytes.takeWhile (· ≠ 0)).length = bytes.dropWhile (· ≠ 0) :=
      calc bytes.drop (bytes.takeWhile (· ≠ 0)).length
        _ = (bytes.takeWhile (· ≠ 0) ++ bytes.dropWhile (· ≠ 0)).drop
              (bytes.takeWhile (· ≠ 0)).length := by rw [hsplit]
        _ = bytes.dropWhile (· ≠ 0) := List.drop_left
    have hhead := List.head?_dropWhile_not (· ≠ (0 : UInt8)) bytes
    rw [cString?] at h
    simp only [hdrop] at h
    cases hend : bytes.dropWhile (· ≠ 0) with
    | nil => rw [hend] at h; cases h
    | cons b after =>
      rw [hend] at h hhead
      obtain rfl : b = 0 := by simpa using hhead
      obtain ⟨text, htext, heq⟩ := Option.map_eq_some_iff.1 h
      obtain ⟨rfl, rfl⟩ := Prod.mk.inj heq
      rw [Utf8.decode?_eq_some_iff] at htext
      refine ⟨fun hzero => ?_, by rw [← htext, ← hend, hsplit]⟩
      rw [← htext] at hzero
      simpa using List.all_eq_true.1 List.all_takeWhile _ hzero
  · rintro ⟨hname, rfl⟩
    exact cString?_encode rest hname

variable {blocks : Blocks} {cursor next : Cursor}

theorem Blocks.nameAt_eq_ok_iff {position : Nat} {name : String} :
    blocks.nameAt position = .ok name ↔ NameAt blocks.strings position name := by
  rw [Blocks.nameAt]
  constructor
  · intro h
    split at h
    next => cases h
    next found rest hfound =>
      obtain rfl := Except.ok.inj h
      obtain ⟨⟨before, tail⟩, hsplit, htail⟩ := Option.bind_eq_some_iff.1 hfound
      obtain ⟨hstrings, hlength⟩ := Bytes.split?_eq_some_iff.1 hsplit
      obtain ⟨hname, rfl⟩ := cString?_eq_some_iff.1 htail
      exact ⟨hname, before, rest, hstrings, hlength⟩
  · rintro ⟨hname, before, after, hstrings, hlength⟩
    have hsplit : blocks.strings.split? position = some (before, Utf8.encode name ++ 0 :: after) :=
      Bytes.split?_eq_some_iff.2 ⟨hstrings, hlength⟩
    simp only [hsplit, Option.bind_some, cString?_eq_some_iff.2 ⟨hname, rfl⟩]

theorem Cursor.take?_eq_some_iff {n : Nat} {bytes : Bytes} :
    cursor.take? n = some (bytes, next) ↔
      cursor.rest = bytes ++ next.rest ∧ bytes.length = n ∧ next.offset = cursor.offset + n := by
  rw [take?, Option.map_eq_some_iff]
  constructor
  · rintro ⟨⟨head, rest⟩, hsplit, heq⟩
    obtain ⟨rfl, rfl⟩ := Prod.mk.inj heq
    obtain ⟨hrest, hlength⟩ := Bytes.split?_eq_some_iff.1 hsplit
    exact ⟨hrest, hlength, rfl⟩
  · rintro ⟨hrest, hlength, hoffset⟩
    exact ⟨(bytes, next.rest), Bytes.split?_eq_some_iff.2 ⟨hrest, hlength⟩, by rw [← hoffset]⟩

theorem Blocks.word_eq_ok_iff {n : UInt32} :
    blocks.word cursor = .ok (n, next) ↔
      cursor.rest = BigEndian.encode 4 n.toNat ++ next.rest ∧
        next.offset = cursor.offset + 4 := by
  rw [Blocks.word]
  constructor
  · intro h
    split at h
    next => cases h
    next bytes found hfound =>
      obtain ⟨rfl, rfl⟩ := Prod.mk.inj (Except.ok.inj h)
      obtain ⟨hrest, hlength, hoffset⟩ := Cursor.take?_eq_some_iff.1 hfound
      have hlt := BigEndian.decode_lt bytes
      rw [hlength] at hlt
      have hencode := BigEndian.encode_decode bytes
      rw [hlength] at hencode
      rw [UInt32.toNat_ofNat_of_lt' hlt, hencode]
      exact ⟨hrest, hoffset⟩
  · rintro ⟨hrest, hoffset⟩
    rw [Cursor.take?_eq_some_iff.2 ⟨hrest, BigEndian.length_encode _ _, hoffset⟩]
    dsimp only
    rw [BigEndian.decode_encode n.toNat_lt, UInt32.ofNat_toNat]

theorem Blocks.word_encode (blocks : Blocks) {n : Nat} (offset : Nat) (rest : Bytes)
    (h : n < UInt32.size) :
    blocks.word ⟨offset, BigEndian.encode 4 n ++ rest⟩ =
      .ok (UInt32.ofNat n, ⟨offset + 4, rest⟩) :=
  word_eq_ok_iff.2 ⟨by rw [UInt32.toNat_ofNat_of_lt' h], rfl⟩

/-! ## Boundaries

A cursor fills up its offset in the block, and a spelling its own length.  That is the same, since
a token starts at a boundary. -/

theorem add_gap (n : Nat) :
    Bytes.roundUp 4 n = n + Bytes.gap 4 n ∧ Bytes.gap 4 n < 4 ∧ (n + Bytes.gap 4 n) % 4 = 0 := by
  simp only [Bytes.gap, Bytes.roundUp]
  omega

theorem Cursor.align_of_padded {offset : Nat} {content bytes : Bytes} (hoffset : offset % 4 = 0)
    (h : Padded content bytes) (rest : Bytes) :
    ∃ padding, bytes = content ++ padding ∧
      Cursor.align ⟨offset + content.length, padding ++ rest⟩ = ⟨offset + bytes.length, rest⟩ := by
  obtain ⟨padding, rfl, hlt, hmod⟩ := h
  refine ⟨padding, rfl, ?_⟩
  rw [List.length_append] at hmod ⊢
  obtain ⟨hround, hgap, hgapmod⟩ := add_gap (offset + content.length)
  have hpadding : Bytes.gap 4 (offset + content.length) = padding.length := by omega
  rw [Cursor.align, hround]
  simp only [hpadding, List.drop_left, Nat.add_assoc]

/-- If anything is left behind the boundary, then the bytes up to it were all there. -/
theorem Cursor.padded_of_align {offset : Nat} {content tail : Bytes} (hoffset : offset % 4 = 0)
    (h : Cursor.align ⟨offset + content.length, tail⟩ = next) (hmore : next.rest ≠ []) :
    ∃ padding, Padded content (content ++ padding) ∧ tail = padding ++ next.rest ∧
      next.offset = offset + (content ++ padding).length := by
  subst h
  obtain ⟨hround, hgap, hgapmod⟩ := add_gap (offset + content.length)
  have hlength : (tail.take (Bytes.gap 4 (offset + content.length))).length =
      Bytes.gap 4 (offset + content.length) := by
    refine List.length_take_of_le (Nat.le_of_lt ?_)
    rw [← Nat.not_le]
    exact fun hle => hmore (List.drop_of_length_le hle)
  refine ⟨_, ⟨_, rfl, by rw [hlength]; exact hgap, ?_⟩, (List.take_append_drop _ tail).symm, ?_⟩
  · rw [List.length_append, hlength]
    omega
  · rw [List.length_append, hlength, ← Nat.add_assoc]
    exact hround

/-! ## Tokens -/

theorem length_spelled {strings bytes : Bytes} {token : Token} (h : Spells strings token bytes) :
    4 ≤ bytes.length ∧ bytes.length % 4 = 0 := by
  cases token with
  | beginNode name =>
    obtain ⟨-, padding, rfl, -, hmod⟩ := h
    refine ⟨?_, hmod⟩
    simp only [List.length_append, BigEndian.length_encode]
    omega
  | property name value =>
    obtain ⟨position, -, -, -, padding, rfl, -, hmod⟩ := h
    refine ⟨?_, hmod⟩
    simp only [List.length_append, BigEndian.length_encode]
    omega
  | endNode => rw [show bytes = _ from h, BigEndian.length_encode]; decide
  | nop => rw [show bytes = _ from h, BigEndian.length_encode]; decide
  | finish => rw [show bytes = _ from h, BigEndian.length_encode]; decide

theorem length_flatten_of_spells {strings : Bytes} {tokens : List Token} {pieces : List Bytes}
    (h : List.Forall₂ (Spells strings) tokens pieces) :
    4 * tokens.length ≤ pieces.flatten.length := by
  induction h with
  | nil => exact Nat.le_refl 0
  | cons htoken hrest ih =>
    have := (length_spelled htoken).1
    rw [List.flatten_cons, List.length_append, List.length_cons]
    omega

theorem length_beginNode (offset : Nat) (name : String) :
    offset + (BigEndian.encode 4 1 ++ Utf8.encode name ++ [0]).length =
      offset + 4 + (Utf8.encode name).length + 1 := by
  simp only [List.length_append, BigEndian.length_encode, List.length_singleton, Nat.add_assoc]

theorem length_property (offset position : Nat) (value : Bytes) :
    offset + (BigEndian.encode 4 3 ++ BigEndian.encode 4 value.length ++
        BigEndian.encode 4 position ++ value).length =
      offset + 4 + 4 + 4 + value.length := by
  simp only [List.length_append, BigEndian.length_encode, Nat.add_assoc]

theorem readBeginNode_eq_ok_iff {token : Token} :
    readBeginNode blocks cursor = .ok (token, next) ↔
      ∃ name tail, token = .beginNode name ∧ 0 ∉ Utf8.encode name ∧
        cursor.rest = Utf8.encode name ++ 0 :: tail ∧
          Cursor.align ⟨cursor.offset + (Utf8.encode name).length + 1, tail⟩ = next := by
  rw [readBeginNode]
  constructor
  · intro h
    split at h
    next => cases h
    next name tail hname =>
      obtain ⟨rfl, hnext⟩ := Prod.mk.inj (Except.ok.inj h)
      obtain ⟨hzero, hrest⟩ := cString?_eq_some_iff.1 hname
      exact ⟨name, tail, rfl, hzero, hrest, hnext⟩
  · rintro ⟨name, tail, rfl, hzero, hrest, rfl⟩
    rw [cString?_eq_some_iff.2 ⟨hzero, hrest⟩]

theorem readProperty_eq_ok_iff {token : Token} :
    readProperty blocks cursor = .ok (token, next) ↔
      ∃ name value position tail, token = .property name value ∧
        NameAt blocks.strings position name ∧ position < UInt32.size ∧
        value.length < UInt32.size ∧
        cursor.rest = BigEndian.encode 4 value.length ++
          (BigEndian.encode 4 position ++ (value ++ tail)) ∧
        Cursor.align ⟨cursor.offset + 4 + 4 + value.length, tail⟩ = next := by
  rw [readProperty]
  constructor
  · intro h
    obtain ⟨⟨length, first⟩, hlength, h⟩ := Except.bind_eq_ok_iff.1 h
    obtain ⟨⟨position, second⟩, hposition, h⟩ := Except.bind_eq_ok_iff.1 h
    obtain ⟨hrest, hfirst⟩ := Blocks.word_eq_ok_iff.1 hlength
    obtain ⟨hrest', hsecond⟩ := Blocks.word_eq_ok_iff.1 hposition
    dsimp only at h
    split at h
    next => cases h
    next value third hvalue =>
      obtain ⟨name, hname, h⟩ := Except.bind_eq_ok_iff.1 h
      obtain ⟨rfl, hnext⟩ := Prod.mk.inj (Except.ok.inj h)
      obtain ⟨hrest'', hvalue, hthird⟩ := Cursor.take?_eq_some_iff.1 hvalue
      refine ⟨name, value, position.toNat, third.rest, rfl, Blocks.nameAt_eq_ok_iff.1 hname,
        position.toNat_lt, hvalue ▸ length.toNat_lt, ?_, ?_⟩
      · rw [hrest, hrest', hrest'', hvalue]
      · rw [← hnext, hvalue, ← hfirst, ← hsecond, ← hthird]
  · rintro ⟨name, value, position, tail, rfl, hname, hposition, hvalue, hrest, rfl⟩
    have hcursor : cursor = ⟨cursor.offset, BigEndian.encode 4 value.length ++
        (BigEndian.encode 4 position ++ (value ++ tail))⟩ := by rw [← hrest]
    have htake : Cursor.take? ⟨cursor.offset + 4 + 4, value ++ tail⟩ value.length =
        some (value, ⟨cursor.offset + 4 + 4 + value.length, tail⟩) :=
      Cursor.take?_eq_some_iff.2 ⟨rfl, rfl, rfl⟩
    rw [hcursor, blocks.word_encode _ _ hvalue]
    simp only [bind, Except.bind]
    rw [blocks.word_encode _ _ hposition]
    simp only [UInt32.toNat_ofNat_of_lt' hvalue, UInt32.toNat_ofNat_of_lt' hposition, htake,
      Blocks.nameAt_eq_ok_iff.2 hname]
    rfl

/-- **A spelled token is read**, whatever fills it up and whatever follows it. -/
theorem read_of_spells {bytes : Bytes} {token : Token} {offset : Nat} (hoffset : offset % 4 = 0)
    (h : Spells blocks.strings token bytes) (rest : Bytes) :
    read blocks ⟨offset, bytes ++ rest⟩ = .ok (token, ⟨offset + bytes.length, rest⟩) := by
  have hnumber : ∀ n : Nat, n < UInt32.size → ∀ rest : Bytes,
      blocks.word ⟨offset, BigEndian.encode 4 n ++ rest⟩ =
        .ok (UInt32.ofNat n, ⟨offset + 4, rest⟩) :=
    fun n hn rest => blocks.word_encode offset rest hn
  cases token with
  | beginNode name =>
    obtain ⟨hname, hpadded⟩ := h
    obtain ⟨padding, hbytes, halign⟩ := Cursor.align_of_padded hoffset hpadded rest
    rw [length_beginNode] at halign
    have hread : readBeginNode blocks ⟨offset + 4, Utf8.encode name ++ 0 :: (padding ++ rest)⟩ =
        .ok (.beginNode name, ⟨offset + bytes.length, rest⟩) :=
      readBeginNode_eq_ok_iff.2 ⟨name, padding ++ rest, rfl, hname, rfl, halign⟩
    rw [hbytes] at hread ⊢
    simp only [List.append_assoc, List.cons_append, List.nil_append] at hread ⊢
    rw [read, hnumber 1 (by decide)]
    exact hread
  | property name value =>
    obtain ⟨position, hname, hposition, hvalue, hpadded⟩ := h
    obtain ⟨padding, hbytes, halign⟩ := Cursor.align_of_padded hoffset hpadded rest
    rw [length_property] at halign
    have hread : readProperty blocks ⟨offset + 4, BigEndian.encode 4 value.length ++
          (BigEndian.encode 4 position ++ (value ++ (padding ++ rest)))⟩ =
        .ok (.property name value, ⟨offset + bytes.length, rest⟩) :=
      readProperty_eq_ok_iff.2
        ⟨name, value, position, padding ++ rest, rfl, hname, hposition, hvalue, rfl, halign⟩
    rw [hbytes] at hread ⊢
    simp only [List.append_assoc] at hread ⊢
    rw [read, hnumber 3 (by decide)]
    exact hread
  | endNode =>
    obtain rfl : bytes = _ := h
    rw [read, hnumber 2 (by decide)]
    rfl
  | nop =>
    obtain rfl : bytes = _ := h
    rw [read, hnumber 4 (by decide)]
    rfl
  | finish =>
    obtain rfl : bytes = _ := h
    rw [read, hnumber 9 (by decide)]
    rfl

/-- **What is read was spelled there**, unless the block is cut off in the bytes that fill the
token up. -/
theorem spells_of_read {token : Token} (hoffset : cursor.offset % 4 = 0)
    (h : read blocks cursor = .ok (token, next)) (hmore : token = .finish ∨ next.rest ≠ []) :
    ∃ bytes, Spells blocks.strings token bytes ∧ cursor.rest = bytes ++ next.rest ∧
      next.offset = cursor.offset + bytes.length := by
  obtain ⟨⟨number, behind⟩, hword, h⟩ := Except.bind_eq_ok_iff.1 h
  obtain ⟨hrest, hbehind⟩ := Blocks.word_eq_ok_iff.1 hword
  dsimp only at h
  split_ifs at h with hbegin hend hproperty hnop hfinish
  -- only a token that is filled up can be cut off
  · obtain ⟨name, tail, rfl, hname, htail, halign⟩ := readBeginNode_eq_ok_iff.1 h
    rw [hbehind, ← length_beginNode] at halign
    obtain ⟨padding, hpadded, rfl, hnext⟩ :=
      Cursor.padded_of_align hoffset halign (hmore.resolve_left nofun)
    refine ⟨_, ⟨hname, hpadded⟩, ?_, hnext⟩
    rw [hrest, htail, hbegin]
    simp only [List.append_assoc, List.cons_append, List.nil_append]
    rfl
  · obtain ⟨rfl, rfl⟩ := Prod.mk.inj (Except.ok.inj h)
    subst hend
    exact ⟨_, rfl, hrest, hbehind⟩
  · obtain ⟨name, value, position, tail, rfl, hname, hposition, hvalue, htail, halign⟩ :=
      readProperty_eq_ok_iff.1 h
    rw [hbehind, ← length_property _ position] at halign
    obtain ⟨padding, hpadded, rfl, hnext⟩ :=
      Cursor.padded_of_align hoffset halign (hmore.resolve_left nofun)
    refine ⟨_, ⟨position, hname, hposition, hvalue, hpadded⟩, ?_, hnext⟩
    rw [hrest, htail, hproperty]
    simp only [List.append_assoc]
    rfl
  · obtain ⟨rfl, rfl⟩ := Prod.mk.inj (Except.ok.inj h)
    subst hnop
    exact ⟨_, rfl, hrest, hbehind⟩
  · obtain ⟨rfl, rfl⟩ := Prod.mk.inj (Except.ok.inj h)
    subst hfinish
    exact ⟨_, rfl, hrest, hbehind⟩

end Token

/-! ## Runs -/

namespace Blob
namespace Builder

variable {blocks : Token.Blocks}

/-- **A builder that is run on spelled tokens sees these tokens**, whatever follows them. -/
theorem run_of_spells {tokens : List Token} {pieces : List Bytes}
    (hspells : List.Forall₂ (Token.Spells blocks.strings) (tokens ++ [.finish]) pieces)
    (hfinish : Token.finish ∉ tokens) {offset steps : Nat} (hoffset : offset % 4 = 0)
    (hsteps : tokens.length < steps) (rest : Bytes) (builder : Builder) :
    run blocks steps ⟨offset, pieces.flatten ++ rest⟩ builder =
      tokens.foldlM accept builder >>= finish := by
  obtain ⟨steps, rfl⟩ := Nat.exists_eq_add_one_of_ne_zero (Nat.ne_zero_of_lt hsteps)
  induction tokens generalizing pieces offset steps builder with
  | nil =>
    obtain ⟨piece, others, hpiece, -, rfl⟩ := List.forall₂_cons_left_iff.1 hspells
    rw [run, if_neg (Decidable.not_not.2 hoffset), List.flatten_cons, List.append_assoc,
      Token.read_of_spells hoffset hpiece]
    rfl
  | cons token tokens ih =>
    obtain ⟨piece, others, hpiece, hothers, rfl⟩ := List.forall₂_cons_left_iff.1 hspells
    rw [List.mem_cons, not_or] at hfinish
    obtain ⟨steps, rfl⟩ := Nat.exists_eq_add_one_of_ne_zero (Nat.ne_zero_of_lt
      (Nat.lt_of_succ_lt_succ hsteps))
    have hnext : (offset + piece.length) % 4 = 0 := by
      rw [Nat.add_mod, hoffset, (Token.length_spelled hpiece).2]
    rw [run, if_neg (Decidable.not_not.2 hoffset), List.flatten_cons, List.append_assoc,
      Token.read_of_spells hoffset hpiece]
    simp only [bind, Except.bind, if_neg (Ne.symm hfinish.1), List.foldlM_cons]
    cases builder.accept token with
    | error error => rfl
    | ok next => exact ih hothers hfinish.2 hnext next steps (Nat.lt_of_succ_lt_succ hsteps)

/-- **Whatever a builder has read was spelled**, up to the token that ends the block. -/
theorem exists_spells_of_run {steps : Nat} {cursor : Token.Cursor} {builder : Builder}
    {tree : DeviceTree} (h : run blocks steps cursor builder = .ok tree) :
    ∃ tokens pieces after,
      List.Forall₂ (Token.Spells blocks.strings) (tokens ++ [.finish]) pieces ∧
        Token.finish ∉ tokens ∧ cursor.rest = pieces.flatten ++ after ∧
        tokens.foldlM accept builder >>= finish = .ok tree := by
  induction steps generalizing cursor builder with
  | zero =>
    rw [run] at h
    split at h <;> cases h
  | succ steps ih =>
    rw [run] at h
    split at h
    next => cases h
    next hoffset =>
      have hoffset := Decidable.not_not.1 hoffset
      obtain ⟨⟨token, next⟩, hread, h⟩ := Except.bind_eq_ok_iff.1 h
      by_cases hfinish : token = .finish
      all_goals simp only [hfinish, if_true, if_false] at h
      · subst hfinish
        obtain ⟨piece, hpiece, hrest, -⟩ := Token.spells_of_read hoffset hread (Or.inl rfl)
        exact ⟨[], [piece], next.rest, .cons hpiece .nil, List.not_mem_nil, by simpa using hrest, h⟩
      · obtain ⟨accepted, haccept, h⟩ := Except.bind_eq_ok_iff.1 h
        obtain ⟨tokens, pieces, after, hpieces, hnotMem, hnext, hfold⟩ := ih h
        -- the block goes on behind the token, with at least the token that ends it
        have hmore : next.rest ≠ [] := by
          intro hnil
          have hlength := Token.length_flatten_of_spells hpieces
          rw [hnil, eq_comm, List.append_eq_nil_iff] at hnext
          rw [hnext.1, List.length_append, List.length_singleton, List.length_nil] at hlength
          omega
        obtain ⟨piece, hpiece, hrest, -⟩ := Token.spells_of_read hoffset hread (Or.inr hmore)
        refine ⟨token :: tokens, piece :: pieces, after, .cons hpiece hpieces, ?_, ?_, ?_⟩
        · rw [List.mem_cons, not_or]
          exact ⟨Ne.symm hfinish, hnotMem⟩
        · rw [hrest, hnext, List.flatten_cons, List.append_assoc]
        · rw [List.foldlM_cons, haccept]
          exact hfold

end Builder
end Blob
end RiscvTables
