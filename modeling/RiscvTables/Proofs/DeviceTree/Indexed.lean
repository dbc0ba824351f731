import RiscvTables.Proofs.DeviceTree.Header

/-!
# Reading a blob by position

`DeviceTree.ofBlob` reads a blob as a chain of pieces: it cuts off what it reads and goes on with
the rest, for at most as many steps as it is given.  In that form it cannot leave the blob and
cannot run for ever, and a theorem that it does neither would say nothing about a program that
keeps the whole blob, indexes it, and loops until it sees the last token.

This file is that program.  Two things set it apart from `ofBlob`.

* **Bounds.**  Every access is a `slice`, and a slice with bad bounds is an outcome of its own,
  `Stop.outOfRange`, where the program would have crashed.  Nothing turns that outcome into a
  refusal.  Where the program first asks whether the bytes are there it uses `range`, and a missing
  range is a refusal with its cause.  Two slices are taken without asking: the blob up to its total
  size, and the bytes in front of a zero byte that has been found.
* **The end.**  The loop has no bound.  `Runs` is an inductive relation: it says of one state, turn
  by turn, that the loop from there ends, in which states it has read the number of a token, and how
  it ends.  That every state has a run is a theorem and not part of the definition.

`Decodes` is the whole program: the header, the two blocks (`front`), and the loop over the first.

What is proved here is that the two readers are the same step for step, with the cursor of the one
kept as a position of the other (`cursorAt`).

* The header is the same one (`header_eq`), and so are the blocks, so that what `ofBlob` makes of a
  blob is what a bounded loop makes of the blocks (`refuse_ofBlob`).
* From each position the same token is read, or refused for the same cause (`read_cursorAt`).
* One step of the bounded loop is one turn of the program (`run_succ`).

None of the three needs an invariant: they hold at every position, on a boundary or off it, in the
block or beyond its end.  That the loop ends, and that no slice of it is ever out of range, is what
`RiscvTables.Proofs.DeviceTree.Positions` derives from them.
-/

set_option autoImplicit false

namespace RiscvTables
namespace Blob

/-! ## The program

The names of the steps are those of the pieces of `ofBlob` that they stand for.  Each step is
written with the positions that the program computes, so `block` is always the whole structure
block, and a `base` is only there for the positions in messages. -/

/-- Why an indexing program comes to an end without a tree. -/
inductive Stop where
  /-- There is no slice with these bounds. -/
  | outOfRange (first last length : Nat)
  /-- The bytes are not a tree. -/
  | refused (cause : BlobError)

/-- The refusal of a step as that of the whole program. -/
def refuse {α : Type} (outcome : Except BlobError α) : Except Stop α :=
  outcome.mapError .refused

namespace Indexed

/-- The bytes from `first` up to `last`. -/
def slice (bytes : Bytes) (first last : Nat) : Except Stop Bytes :=
  if first ≤ last ∧ last ≤ bytes.length then .ok ((bytes.take last).drop first)
  else .error (.outOfRange first last bytes.length)

/-- The bytes from `first` up to `last`, once it is sure that they are there. -/
def range (bytes : Bytes) (first last : Nat) (cause : BlobError) : Except Stop Bytes :=
  if first ≤ last ∧ last ≤ bytes.length then slice bytes first last else .error (.refused cause)

/-- The number in the next four bytes at a position of a block that starts at `base`. -/
def word (block : Bytes) (base position : Nat) : Except Stop UInt32 :=
  return UInt32.ofNat (BigEndian.decode
    (← range block position (position + 4) (.truncated (base + position))))

/-- The text from a position up to the next zero byte. -/
def text (block : Bytes) (position : Nat) (cause : BlobError) : Except Stop String := do
  let tail ← range block position block.length cause
  match tail.findIdx? (· = 0) with
  | none => throw (.refused cause)
  | some length =>
    match Utf8.decode? (← slice tail 0 length) with
    | none => throw (.refused cause)
    | some text => return text

/-! ### The header

The header is read from the whole input, before the total size of the blob is known.  Its ten words
are all there once the length of the input has been checked, so none of them counts as zero. -/

/-- A word of the header.  One that is not there counts as zero. -/
def field (data : Bytes) (i : Nat) : Except Stop UInt32 :=
  if 4 * i + 4 ≤ data.length then
    return UInt32.ofNat (BigEndian.decode (← slice data (4 * i) (4 * i + 4)))
  else return 0

/-- The header, if the blob is whole and of a readable version. -/
def header (data : Bytes) : Except Stop Header := do
  if data.length < headerSize then throw (.refused (.truncated data.length))
  let first ← field data 0
  if first.toNat ≠ magic then throw (.refused (.invalidMagic first))
  let totalSize ← field data 1
  let structureStart ← field data 2
  let stringsStart ← field data 3
  let version ← field data 5
  let lastCompatible ← field data 6
  let bootCpu ← field data 7
  let stringsSize ← field data 8
  let structureSize ← field data 9
  if version < 16 ∨ lastCompatible > 17 then
    throw (.refused (.unsupportedVersion version lastCompatible))
  if totalSize.toNat > data.length then throw (.refused (.truncated data.length))
  return {
    bootCpu
    totalSize := totalSize.toNat
    structureStart := structureStart.toNat
    stringsStart := stringsStart.toNat
    version := version.toNat
    stringsSize := stringsSize.toNat
    structureSize := structureSize.toNat }

/-- What the loop is about: where the blocks start, what they hold, and the boot cpu. -/
structure Front where
  blocks : Token.Blocks
  block : Bytes
  bootCpu : UInt32

/-- The header and the two blocks. -/
def front (data : Bytes) : Except Stop Front := do
  let header ← header data
  let blob ← slice data 0 header.totalSize
  let block ← range blob header.structureStart header.structureEnd (.truncated header.structureEnd)
  let stringsEnd := header.stringsStart + header.stringsSize
  let strings ← range blob header.stringsStart stringsEnd (.truncated stringsEnd)
  return {
    block
    blocks := ⟨header.structureStart, header.stringsStart, strings⟩
    bootCpu := header.bootCpu }

/-! ### The loop

A turn reads the number of a token, the rest of that token, and hands the token to the builder.
The state between two turns is where the next token starts and what has been built so far; the
open nodes are part of the builder.  A number that cannot be read ends the loop before its turn,
which is why `Runs` does not count that state among those it has read a token in. -/

/-- What changes from turn to turn. -/
structure State where
  offset : Nat
  builder : Builder

/-- What a turn leads to. -/
inductive Turn where
  | more (next : State)
  | done (tree : DeviceTree)

section Loop

variable (blocks : Token.Blocks) (block : Bytes)

/-- The number of the token at an offset, which must be a boundary. -/
def number (offset : Nat) : Except Stop UInt32 :=
  if offset % 4 ≠ 0 then .error (.refused (.tokenUnaligned (blocks.structureStart + offset)))
  else word block blocks.structureStart offset

/-- The rest of a property token, and where the next token is. -/
def property (position : Nat) : Except Stop (Token × Nat) := do
  let length ← word block blocks.structureStart position
  let nameOffset ← word block blocks.structureStart (position + 4)
  let value ← range block (position + 8) (position + 8 + length.toNat)
    (.truncated (blocks.structureStart + (position + 8) + length.toNat))
  let name ← text blocks.strings nameOffset.toNat
    (.badString (blocks.stringsStart + nameOffset.toNat))
  return (.property name value, Bytes.roundUp 4 (position + 8 + length.toNat))

/-- The token of the given number at an offset, and where the next token is. -/
def token (offset : Nat) (number : UInt32) : Except Stop (Token × Nat) :=
  if number = 1 then do
    let name ← text block (offset + 4) (.badString (blocks.structureStart + (offset + 4)))
    return (.beginNode name, Bytes.roundUp 4 (offset + 4 + (Utf8.encode name).length + 1))
  else if number = 2 then .ok (.endNode, offset + 4)
  else if number = 3 then property blocks block (offset + 4)
  else if number = 4 then .ok (.nop, offset + 4)
  else if number = 9 then .ok (.finish, offset + 4)
  else .error (.refused (.badToken number (blocks.structureStart + offset)))

/-- Takes in the token of the given number. -/
def turn (state : State) (number : UInt32) : Except Stop Turn := do
  let (token, offset) ← token blocks block state.offset number
  if token = .finish then return .done (← refuse state.builder.finish)
  else return .more { offset, builder := ← refuse (state.builder.accept token) }

/-- The loop ends: the states in which it has read the number of a token, and how it ends. -/
inductive Runs : State → List State → Except Stop DeviceTree → Prop
  | unread {state : State} {stop : Stop} :
    number blocks block state.offset = .error stop → Runs state [] (.error stop)
  | stopped {state : State} {n : UInt32} {stop : Stop} :
    number blocks block state.offset = .ok n → turn blocks block state n = .error stop →
      Runs state [state] (.error stop)
  | done {state : State} {n : UInt32} {tree : DeviceTree} :
    number blocks block state.offset = .ok n → turn blocks block state n = .ok (.done tree) →
      Runs state [state] (.ok tree)
  | more {state next : State} {n : UInt32} {states : List State}
    {outcome : Except Stop DeviceTree} :
    number blocks block state.offset = .ok n → turn blocks block state n = .ok (.more next) →
      Runs next states outcome → Runs state (state :: states) outcome

end Loop

/-- The program ends: the states in which it has read the number of a token, and how it ends. -/
inductive Decodes (data : Bytes) : List State → Except Stop DeviceTree → Prop
  | refused {stop : Stop} : front data = .error stop → Decodes data [] (.error stop)
  | looped {found : Front} {states : List State} {outcome : Except Stop DeviceTree} :
    front data = .ok found →
      Runs found.blocks found.block ⟨0, Builder.start found.bootCpu⟩ states outcome →
        Decodes data states outcome

/-! ## Steps

Each step is given a form that mentions no slice: it fails with the cause of its check, or it
returns the bytes that `List.take` and `List.drop` give.  In these equations `Stop.outOfRange` no
longer occurs, so whatever is built from them cannot end in it. -/

theorem range_eq (bytes : Bytes) (first last : Nat) (cause : BlobError) :
    range bytes first last cause =
      if first ≤ last ∧ last ≤ bytes.length then .ok ((bytes.take last).drop first)
      else .error (.refused cause) := by
  rw [range, slice]
  split
  · rfl
  · rfl

theorem word_eq (block : Bytes) (base position : Nat) :
    word block base position =
      if position + 4 ≤ block.length then
        .ok (UInt32.ofNat (BigEndian.decode ((block.drop position).take 4)))
      else .error (.refused (.truncated (base + position))) := by
  rw [word, range_eq, List.drop_take, Nat.add_sub_cancel_left]
  by_cases h : position + 4 ≤ block.length
  · rw [if_pos ⟨Nat.le_add_right _ _, h⟩, if_pos h]
    rfl
  · rw [if_neg fun hbounds => h hbounds.2, if_neg h]
    rfl

theorem field_eq (data : Bytes) (i : Nat) :
    field data i = .ok ((PropertyValue.cellAt? data i).getD 0) := by
  rw [field, PropertyValue.cellAt?_eq, slice]
  split
  next h =>
    rw [if_pos ⟨Nat.le_add_right _ _, h⟩, List.drop_take, Nat.add_sub_cancel_left]
    rfl
  next => rfl

theorem header_eq (data : Bytes) : header data = refuse (Header.read data) := by
  simp only [header, field_eq, Header.read]
  by_cases hsize : data.length < headerSize
  · rw [if_pos hsize, if_pos hsize]
    rfl
  · rw [if_neg hsize, if_neg hsize]
    simp only [bind, Except.bind, pure, Except.pure]
    by_cases hmagic : ((PropertyValue.cellAt? data 0).getD 0).toNat ≠ magic
    · rw [if_pos hmagic, if_pos hmagic]
      rfl
    · rw [if_neg hmagic, if_neg hmagic]
      split_ifs <;> rfl

/-! ### Tokens

A cursor of `ofBlob` is a position and the bytes behind it.  `cursorAt` makes one of a position, and
what a cursor can do, cutting off bytes and going on to a boundary, is an addition to the position.
So a token that one reader reads is read by the other, and behind it both stand at the same
place. -/

section Loop

variable {blocks : Token.Blocks} {block : Bytes}

/-- The cursor at an offset of a block. -/
def cursorAt (block : Bytes) (offset : Nat) : Token.Cursor :=
  ⟨offset, block.drop offset⟩

theorem offset_cursorAt (block : Bytes) (offset : Nat) :
    (cursorAt block offset).offset = offset := rfl

theorem align_cursorAt (block : Bytes) (offset : Nat) :
    (cursorAt block offset).align = cursorAt block (Bytes.roundUp 4 offset) := by
  rw [cursorAt, cursorAt, Token.Cursor.align, List.drop_drop, ← (Token.add_gap offset).1]

theorem take?_cursorAt {n offset : Nat} (h : offset ≤ block.length) :
    (cursorAt block offset).take? n =
      if offset + n ≤ block.length then
        some ((block.drop offset).take n, cursorAt block (offset + n))
      else none := by
  rw [Token.Cursor.take?, cursorAt, Bytes.split?_drop h]
  split <;> rfl

theorem word_cursorAt (blocks : Token.Blocks) (block : Bytes) (offset : Nat) :
    blocks.word (cursorAt block offset) =
      if offset + 4 ≤ block.length then
        .ok (UInt32.ofNat (BigEndian.decode ((block.drop offset).take 4)),
          cursorAt block (offset + 4))
      else .error (.truncated (blocks.structureStart + offset)) := by
  rw [Token.Blocks.word]
  by_cases h : offset ≤ block.length
  · rw [take?_cursorAt h]
    split
    next hword => rw [if_neg (by split at hword <;> simp_all)]; rfl
    next bytes next hword =>
      split at hword
      next hle =>
        obtain ⟨rfl, rfl⟩ := Prod.mk.inj (Option.some.inj hword)
        rw [if_pos hle]
      next => cases hword
  · have hnone : (cursorAt block offset).take? 4 = none := by
      rw [Token.Cursor.take?, Bytes.split?_eq_none_iff.2, Option.map_none]
      rw [cursorAt, List.length_drop]
      omega
    rw [hnone, if_neg (by omega)]
    rfl

/-- An indexing program and one with a cursor agree from a number on if they do behind it. -/
theorem word_bind {α : Type} {offset : Nat} {indexed : UInt32 → Except Stop α}
    {read : UInt32 × Token.Cursor → Except BlobError α}
    (h : offset + 4 ≤ block.length → ∀ n,
      indexed n = refuse (read (n, cursorAt block (offset + 4)))) :
    word block blocks.structureStart offset >>= indexed =
      refuse (blocks.word (cursorAt block offset) >>= read) := by
  rw [word_eq, word_cursorAt]
  split
  next hle => exact h hle _
  next => rfl

theorem text_eq (block : Bytes) (position : Nat) (cause : BlobError) :
    text block position cause =
      if position ≤ block.length then
        match Token.cString? (block.drop position) with
        | none => .error (.refused cause)
        | some (text, _) => .ok text
      else .error (.refused cause) := by
  rw [text, range_eq, List.take_length]
  by_cases hposition : position ≤ block.length
  · rw [if_pos ⟨hposition, Nat.le_refl _⟩, if_pos hposition]
    generalize block.drop position = tail
    -- the zero byte is found by its position here, and by what stands before it there
    have hbody : tail.takeWhile (· ≠ 0) = tail.take (tail.findIdx (· = 0)) := by
      rw [List.takeWhile_eq_take_findIdx_not]
      simp
    show (match tail.findIdx? (· = 0) with | none => _ | some length => _) = _
    rw [Token.cString?]
    cases hfind : tail.findIdx? (· = 0) with
    | none =>
      have hall := List.findIdx?_eq_none_iff.1 hfind
      have hlength : tail.findIdx (· = 0) = tail.length :=
        List.findIdx_eq_length.2 fun x hx => by simpa using hall x hx
      simp only [hbody, hlength, List.take_length, List.drop_length]
      rfl
    | some length =>
      obtain ⟨hlt, rfl⟩ := List.findIdx?_eq_some_iff_findIdx_eq.1 hfind
      have hle := Nat.le_of_lt hlt
      simp only [hbody, List.length_take_of_le hle, List.drop_eq_getElem_cons hlt, slice,
        if_pos (And.intro (Nat.zero_le _) hle), List.drop_zero, bind, Except.bind]
      cases Utf8.decode? (tail.take (tail.findIdx (· = 0))) <;> rfl
  · rw [if_neg fun hbounds => hposition hbounds.1, if_neg hposition]
    rfl

theorem text_eq_nameAt (position : Nat) :
    text blocks.strings position (.badString (blocks.stringsStart + position)) =
      refuse (blocks.nameAt position) := by
  rw [text_eq, Token.Blocks.nameAt]
  by_cases hposition : position ≤ blocks.strings.length
  · have hsplit : blocks.strings.split? position =
        some (blocks.strings.take position, blocks.strings.drop position) :=
      Bytes.split?_eq_some_iff.2
        ⟨(List.take_append_drop _ _).symm, List.length_take_of_le hposition⟩
    rw [if_pos hposition, hsplit, Option.bind_some]
    dsimp only
    cases Token.cString? (blocks.strings.drop position) <;> rfl
  · have hsplit : blocks.strings.split? position = none :=
      Bytes.split?_eq_none_iff.2 (Nat.not_le.1 hposition)
    rw [if_neg hposition, hsplit]
    rfl

/-- A token and the cursor behind it. -/
def place (block : Bytes) (found : Token × Nat) : Token × Token.Cursor :=
  (found.1, cursorAt block found.2)

theorem property_eq (position : Nat) :
    place block <$> property blocks block position =
      refuse (Token.readProperty blocks (cursorAt block position)) := by
  rw [property, Token.readProperty]
  simp only [map_bind]
  refine word_bind fun _ length => ?_
  refine word_bind fun hle nameOffset => ?_
  dsimp only
  rw [take?_cursorAt hle, range_eq, text_eq_nameAt, List.drop_take, Nat.add_sub_cancel_left]
  by_cases hvalue : position + 8 + length.toNat ≤ block.length
  · rw [if_pos ⟨Nat.le_add_right _ _, hvalue⟩, if_pos hvalue]
    simp only [bind, Except.bind]
    cases blocks.nameAt nameOffset.toNat with
    | error cause => rfl
    | ok name =>
      simp only [align_cursorAt]
      rfl
  · rw [if_neg fun hbounds => hvalue hbounds.2, if_neg hvalue]
    rfl

theorem beginNode_eq {offset : Nat} (h : offset + 4 ≤ block.length) :
    place block <$> token blocks block offset 1 =
      refuse (Token.readBeginNode blocks (cursorAt block (offset + 4))) := by
  rw [token, if_pos rfl, Token.readBeginNode, text_eq, if_pos h]
  cases hname : Token.cString? (block.drop (offset + 4)) with
  | none =>
    simp only [cursorAt, hname]
    rfl
  | some found =>
    obtain ⟨name, rest⟩ := found
    obtain ⟨-, hrest⟩ := Token.cString?_eq_some_iff.1 hname
    have hnext : rest = block.drop (offset + 4 + (Utf8.encode name).length + 1) := by
      rw [Nat.add_assoc, ← List.drop_drop, hrest, ← List.drop_drop, List.drop_left]
      rfl
    simp only [cursorAt, hname, hnext]
    rw [← cursorAt, align_cursorAt]
    rfl

/-- **The two readers read the same token.** -/
theorem read_cursorAt (blocks : Token.Blocks) (block : Bytes) (offset : Nat) :
    refuse (Token.read blocks (cursorAt block offset)) =
      word block blocks.structureStart offset >>= fun n =>
        place block <$> token blocks block offset n := by
  rw [Token.read]
  refine (word_bind fun hle n => ?_).symm
  dsimp only
  split
  next hbegin => exact hbegin ▸ beginNode_eq hle
  next hbegin =>
    rw [token, if_neg hbegin]
    split
    next => rfl
    split
    next => exact property_eq (offset + 4)
    split
    next => rfl
    split
    next => rfl
    next => rfl

/-! ### Turns

The bounded loop of `ofBlob` and the loop of the program differ in when they stop.  `settle` is what
the bounded loop would still do after a turn, and with it one step of the one is one turn of the
other.  A bounded loop that has no steps left fails for want of bytes; `run_zero` is the case where
the program fails in the same way, as it stands too near to the end of the block. -/

theorem refuse_bind {α β : Type} (first : Except BlobError α) (next : α → Except BlobError β) :
    refuse (first >>= next) = refuse first >>= fun a => refuse (next a) := by
  cases first <;> rfl

/-- What the program makes of a turn, if it goes on like a builder with a bound. -/
def settle (blocks : Token.Blocks) (block : Bytes) (steps : Nat) : Turn → Except Stop DeviceTree
  | .done tree => .ok tree
  | .more next =>
    refuse (Builder.run blocks steps (cursorAt block next.offset) next.builder)

/-- **A bounded step is a turn of the loop.** -/
theorem run_succ (blocks : Token.Blocks) (block : Bytes) (steps : Nat) (state : State) :
    refuse (Builder.run blocks (steps + 1) (cursorAt block state.offset) state.builder) =
      number blocks block state.offset >>= fun n =>
        turn blocks block state n >>= settle blocks block steps := by
  rw [Builder.run, number, offset_cursorAt]
  by_cases haligned : state.offset % 4 ≠ 0
  · rw [if_pos haligned, if_pos haligned]
    rfl
  · rw [if_neg haligned, if_neg haligned]
    dsimp only
    rw [refuse_bind, read_cursorAt, bind_assoc]
    refine bind_congr fun n => ?_
    rw [turn]
    cases token blocks block state.offset n with
    | error stop => rfl
    | ok found =>
      obtain ⟨token, offset⟩ := found
      show refuse (if token = .finish then _ else _) = (if token = .finish then _ else _) >>= _
      by_cases hfinish : token = .finish
      · rw [if_pos hfinish, if_pos hfinish]
        cases state.builder.finish <;> rfl
      · rw [if_neg hfinish, if_neg hfinish]
        dsimp only [place]
        cases state.builder.accept token <;> rfl

theorem run_zero (blocks : Token.Blocks) {block : Bytes} {state : State}
    (h : block.length < state.offset + 4) :
    ∃ stop, number blocks block state.offset = .error stop ∧
      refuse (Builder.run blocks 0 (cursorAt block state.offset) state.builder) = .error stop := by
  rw [Builder.run, number, offset_cursorAt, word_eq, if_neg (Nat.not_le.2 h)]
  by_cases haligned : state.offset % 4 ≠ 0
  · rw [if_pos haligned, if_pos haligned]
    exact ⟨_, rfl, rfl⟩
  · rw [if_neg haligned, if_neg haligned]
    exact ⟨_, rfl, rfl⟩

end Loop

/-! ## Whole blobs -/

theorem range_eq_refuse (bytes : Bytes) (first last : Nat) :
    range bytes first last (.truncated last) = refuse (Blob.range bytes first last) := by
  rw [range_eq, Blob.range]
  by_cases hle : first ≤ last
  · rw [if_pos hle, Bytes.slice?_eq, Nat.add_sub_cancel' hle, List.drop_take]
    by_cases hlast : last ≤ bytes.length
    · rw [if_pos ⟨hle, hlast⟩, if_pos hlast]
      rfl
    · rw [if_neg fun hbounds => hlast hbounds.2, if_neg hlast]
      rfl
  · rw [if_neg fun hbounds => hle hbounds.1, if_neg hle]
    rfl

/-- **What is read from a blob is what a builder makes of its blocks.** -/
theorem refuse_ofBlob (data : Bytes) :
    refuse (DeviceTree.ofBlob data) = front data >>= fun found =>
      refuse (Builder.run found.blocks (found.block.length / 4) (cursorAt found.block 0)
        (Builder.start found.bootCpu)) := by
  rw [DeviceTree.ofBlob, front, header_eq, refuse_bind, bind_assoc]
  cases hheader : Header.read data with
  | error cause => rfl
  | ok header =>
    obtain ⟨-, -, -, -, htotal, hwords⟩ := Header.read_eq_ok_iff.1 hheader
    have hblob : slice data 0 header.totalSize = .ok (data.take header.totalSize) := by
      rw [slice, if_pos ⟨Nat.zero_le _, by rw [hwords]; exact htotal⟩, List.drop_zero]
    show refuse (Blob.range _ _ _ >>= _) = slice data 0 header.totalSize >>= _ >>= _
    simp only [hblob, range_eq_refuse, bind, Except.bind]
    cases Blob.range (data.take header.totalSize) header.structureStart header.structureEnd with
    | error cause => rfl
    | ok block =>
      cases Blob.range (data.take header.totalSize) header.stringsStart
          (header.stringsStart + header.stringsSize) with
      | error cause => rfl
      | ok strings => rfl

end Indexed
end Blob
end RiscvTables
