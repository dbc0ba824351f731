import RiscvTables.Proofs.DeviceTree.Acceptance

/-!
# The two versions of a blob

A header of version 16 does not say where the structure block ends, so the block is taken to run on
to the end of the blob.  What follows the token that ends it is never looked at.  So one would
think that a blob reads alike in both versions; but nothing keeps a block away from the header, and
a name that is read from the bytes of the version is another in the other version
(`DeviceTree.not_versions_agree`).

What reading looks at beside the header are the bytes of the tokens, up to the one that ends the
block, and those of the names that they refer to (`Blob.readSpans`).  A description that stands in
a blob stands in every blob that has them (`Description.StandsIn.of_agree`), and the payoff
for the two versions is `DeviceTree.ofBlob_withVersion_sixteen`.
-/

set_option autoImplicit false

namespace RiscvTables

/-! ## Bytes that agree -/

namespace Bytes

/-- Two byte strings have the same bytes from one position up to another. -/
def AgreeOn (data other : Bytes) (span : Nat × Nat) : Prop :=
  ∀ i, span.1 ≤ i → i < span.2 → other[i]? = data[i]?

variable {data other : Bytes} {first stop stop' : Nat}

theorem AgreeOn.slice_eq {length : Nat} (h : AgreeOn data other (first, first + length)) :
    (other.drop first).take length = (data.drop first).take length := by
  refine List.ext_getElem? fun i => ?_
  rw [List.getElem?_take, List.getElem?_take]
  split
  next hi =>
    rw [List.getElem?_drop, List.getElem?_drop]
    exact h _ (Nat.le_add_right _ _) (Nat.add_lt_add_left hi _)
  next => rfl

theorem take_drop_take {length : Nat} (bytes : Bytes) (h : length ≤ stop - first) :
    ((bytes.take stop).drop first).take length = (bytes.drop first).take length := by
  rw [List.drop_take, List.take_take, Nat.min_eq_left h]

theorem length_le_of_block {bytes content after : Bytes}
    (hblock : (bytes.take stop).drop first = content ++ after) : content.length ≤ stop - first := by
  have hlength := congrArg List.length hblock
  rw [List.length_append, List.length_drop, List.length_take] at hlength
  omega

theorem take_drop_of_block {bytes content after : Bytes}
    (hblock : (bytes.take stop).drop first = content ++ after) :
    (bytes.drop first).take content.length = content := by
  rw [← take_drop_take bytes (length_le_of_block hblock), hblock, List.take_left]

/-- What stands in a part of the one stands in any part of the other that goes at least as far. -/
theorem AgreeOn.drop_take_eq {content after : Bytes}
    (h : AgreeOn data other (first, first + content.length))
    (hblock : (data.take stop).drop first = content ++ after) (hstop : stop ≤ stop') :
    (other.take stop').drop first =
      content ++ (other.take stop').drop (first + content.length) := by
  have hlength : content.length ≤ stop' - first :=
    Nat.le_trans (length_le_of_block hblock) (Nat.sub_le_sub_right hstop first)
  have hcontent : ((other.take stop').drop first).take content.length = content := by
    rw [take_drop_take other hlength, h.slice_eq, take_drop_of_block hblock]
  rw [← List.drop_drop]
  conv_lhs => rw [← List.take_append_drop content.length ((other.take stop').drop first), hcontent]

end Bytes

open Bytes (AgreeOn)

/-! ## What reading looks at -/

namespace Blob

/-- The tokens that are read from the cursor on, up to the one that ends the block, each with the
place in the block where it starts. -/
def readTokens (blocks : Token.Blocks) : Nat → Token.Cursor → List (Nat × Token)
  | 0, _ => []
  | steps + 1, cursor =>
    match Token.read blocks cursor with
    | .error _ => []
    | .ok (token, next) =>
      (cursor.offset, token) :: if token = .finish then [] else readTokens blocks steps next

/-- Where in a blob the bytes stand that make up a token: its own, but for those that fill it up,
and for a property those of its name and of the zero byte behind it. -/
def tokenSpans (data : Bytes) (offset : Nat) : Token → List (Nat × Nat)
  | .beginNode name =>
    let first := headerWord data 2 + offset
    [(first, first + (4 + (Utf8.encode name).length + 1))]
  | .property name value =>
    let first := headerWord data 2 + offset
    let nameFirst := headerWord data 3 + BigEndian.decode ((data.drop (first + 8)).take 4)
    [(first, first + (12 + value.length)), (nameFirst, nameFirst + ((Utf8.encode name).length + 1))]
  | .endNode | .nop | .finish =>
    let first := headerWord data 2 + offset
    [(first, first + 4)]

/-- The parts of a blob that reading looks at, beside the header. -/
def readSpans (data : Bytes) : List (Nat × Nat) :=
  (readTokens ⟨headerWord data 2, headerWord data 3, stringsBytes data⟩
    ((structureBytes data).length / 4) ⟨0, structureBytes data⟩).flatMap
      fun (offset, token) => tokenSpans data offset token

/-- The other blob has both blocks in the same places, and neither of them is shorter. -/
structure SamePlaces (data other : Bytes) : Prop where
  structureStart_eq : headerWord other 2 = headerWord data 2
  structureStop_le : structureStop data ≤ structureStop other
  structureStop_le_length : structureStop other ≤ other.length
  stringsStart_eq : headerWord other 3 = headerWord data 3
  stringsSize_le : headerWord data 8 ≤ headerWord other 8

variable {data other : Bytes}

theorem drop_structureBytes (data : Bytes) (offset : Nat) :
    (structureBytes data).drop offset =
      (data.take (structureStop data)).drop (headerWord data 2 + offset) := by
  rw [structureBytes, List.drop_drop]

theorem SamePlaces.drop_structureBytes (h : SamePlaces data other) (offset : Nat) :
    (structureBytes other).drop offset =
      (other.take (structureStop other)).drop (headerWord data 2 + offset) := by
  rw [Blob.drop_structureBytes, h.structureStart_eq]

end Blob

/-! ## The same tokens in two blobs -/

namespace Token

variable {data other : Bytes} {first stop stop' position : Nat} {name : String}

theorem nameAt_iff_drop {strings : Bytes} :
    NameAt strings position name ↔ 0 ∉ Utf8.encode name ∧
      ∃ after, strings.drop position = Utf8.encode name ++ [0] ++ after := by
  refine and_congr_right fun _ => ⟨?_, ?_⟩
  · rintro ⟨before, after, rfl, rfl⟩
    exact ⟨after, by rw [List.drop_left, List.append_cons]⟩
  · rintro ⟨after, hafter⟩
    refine ⟨strings.take position, after, ?_, List.length_take_of_le ?_⟩
    · rw [List.append_cons, ← hafter, List.take_append_drop]
    · -- behind the end there would be no zero byte
      have hlength := congrArg List.length hafter
      simp only [List.length_drop, List.length_append, List.length_singleton] at hlength
      omega

theorem NameAt.of_agree (h : NameAt ((data.take stop).drop first) position name)
    (hagree : AgreeOn data other
      (first + position, first + position + ((Utf8.encode name).length + 1)))
    (hstop : stop ≤ stop') : NameAt ((other.take stop').drop first) position name := by
  obtain ⟨hname, after, hafter⟩ := nameAt_iff_drop.1 h
  rw [List.drop_drop] at hafter
  have hother := AgreeOn.drop_take_eq
    (by rwa [List.length_append, List.length_singleton]) hafter hstop
  exact nameAt_iff_drop.2 ⟨hname, _, by rw [List.drop_drop, hother]⟩

/-- What fills a token up may differ. -/
theorem Padded.of_agree {content piece after : Bytes} (h : Padded content piece)
    (hblock : (data.take stop).drop first = piece ++ after)
    (hagree : AgreeOn data other (first, first + content.length))
    (hstop : stop ≤ stop') (hlength : stop' ≤ other.length) :
    ∃ piece', Padded content piece' ∧ piece'.length = piece.length ∧
      (other.take stop').drop first = piece' ++ (other.take stop').drop (first + piece.length) := by
  obtain ⟨padding, rfl, hlt, hmod⟩ := h
  have hle := congrArg List.length hblock
  rw [List.append_assoc] at hblock
  have hother := hagree.drop_take_eq hblock hstop
  have hpadding : (((other.take stop').drop (first + content.length)).take
      padding.length).length = padding.length := by
    simp only [List.length_append, List.length_drop, List.length_take] at hle ⊢
    omega
  have hsame : (content ++ ((other.take stop').drop (first + content.length)).take
      padding.length).length = (content ++ padding).length := by
    rw [List.length_append, List.length_append, hpadding]
  refine ⟨_, ⟨_, rfl, by rwa [hpadding], by rwa [hsame]⟩, hsame, ?_⟩
  rw [hother, List.append_assoc, List.length_append, ← Nat.add_assoc,
    ← List.drop_drop (i := padding.length), List.take_append_drop]

/-- The position of a property's name stands behind the number of the token and the length of the
value. -/
theorem decode_position {length : Nat} {behind : Bytes}
    (hblock : (data.take stop).drop first = BigEndian.encode 4 3 ++ BigEndian.encode 4 length ++
      BigEndian.encode 4 position ++ behind) (hposition : position < UInt32.size) :
    BigEndian.decode ((data.drop (first + 8)).take 4) = position := by
  have hnumber : (data.take stop).drop (first + 8) = BigEndian.encode 4 position ++ behind := by
    rw [← List.drop_drop, hblock, List.append_assoc (_ ++ _)]
    exact List.drop_left' (by simp only [List.length_append, BigEndian.length_encode])
  have hslice := Bytes.take_drop_of_block hnumber
  rw [BigEndian.length_encode] at hslice
  rw [hslice, BigEndian.decode_encode hposition]

/-- **A token whose bytes are in both blobs is spelled in both.** -/
theorem Spells.of_agree {token : Token} {piece after : Bytes} {offset : Nat}
    (h : Spells (Blob.stringsBytes data) token piece) (hplaces : Blob.SamePlaces data other)
    (hblock : (Blob.structureBytes data).drop offset = piece ++ after)
    (hagree : ∀ span ∈ Blob.tokenSpans data offset token, AgreeOn data other span) :
    ∃ piece', Spells (Blob.stringsBytes other) token piece' ∧ piece'.length = piece.length ∧
      (Blob.structureBytes other).drop offset =
        piece' ++ (Blob.structureBytes other).drop (offset + piece.length) := by
  rw [Blob.drop_structureBytes] at hblock
  rw [hplaces.drop_structureBytes, hplaces.drop_structureBytes, ← Nat.add_assoc]
  have hstop := hplaces.structureStop_le
  cases token with
  | beginNode name =>
    obtain ⟨hname, hpadded⟩ := h
    have hcontent := hagree _ List.mem_cons_self
    obtain ⟨piece', hpadded', hsame, hblock'⟩ :=
      hpadded.of_agree hblock (by simpa [Nat.add_assoc] using hcontent) hstop
        hplaces.structureStop_le_length
    exact ⟨piece', ⟨hname, hpadded'⟩, hsame, hblock'⟩
  | property name value =>
    obtain ⟨position, hname, hposition, hvalue, hpadded⟩ := h
    have hnumber : BigEndian.decode
        ((data.drop (Blob.headerWord data 2 + offset + 8)).take 4) = position := by
      obtain ⟨padding, rfl, -, -⟩ := hpadded
      rw [List.append_assoc, List.append_assoc] at hblock
      exact decode_position hblock hposition
    have hcontent := hagree _ List.mem_cons_self
    have hnameSpan := hagree _ (List.mem_cons_of_mem _ List.mem_cons_self)
    rw [← Nat.add_assoc, hnumber] at hnameSpan
    have hlength : (BigEndian.encode 4 3 ++ BigEndian.encode 4 value.length ++
        BigEndian.encode 4 position ++ value).length = 12 + value.length := by
      simp only [List.length_append, BigEndian.length_encode]
    obtain ⟨piece', hpadded', hsame, hblock'⟩ :=
      hpadded.of_agree hblock (by rwa [hlength]) hstop hplaces.structureStop_le_length
    refine ⟨piece', ⟨position, ?_, hposition, hvalue, hpadded'⟩, hsame, hblock'⟩
    rw [Blob.stringsBytes, hplaces.stringsStart_eq]
    exact hname.of_agree hnameSpan (Nat.add_le_add_left hplaces.stringsSize_le _)
  | endNode | nop | finish =>
    obtain rfl := h
    have hcontent := hagree _ List.mem_cons_self
    exact ⟨_, rfl, rfl, AgreeOn.drop_take_eq hcontent hblock hstop⟩

end Token

namespace Blob

variable {data other : Bytes}

/-- **The tokens of the one block stand in the other**, up to the one that ends the block.  What
stands behind that one does not matter, so the step bound of the reader does not either. -/
theorem exists_spells_of_agree (hplaces : SamePlaces data other) {tokens : List Token}
    {pieces : List Bytes} {after : Bytes} {offset steps : Nat}
    (hpieces : List.Forall₂ (Token.Spells (stringsBytes data)) (tokens ++ [.finish]) pieces)
    (hfinish : Token.finish ∉ tokens) (hoffset : offset % 4 = 0) (hsteps : tokens.length < steps)
    (hblock : (structureBytes data).drop offset = pieces.flatten ++ after)
    (hagree : ∀ located ∈ readTokens ⟨headerWord data 2, headerWord data 3, stringsBytes data⟩
        steps ⟨offset, pieces.flatten ++ after⟩,
      ∀ span ∈ tokenSpans data located.1 located.2, AgreeOn data other span) :
    ∃ pieces' after',
      List.Forall₂ (Token.Spells (stringsBytes other)) (tokens ++ [.finish]) pieces' ∧
        (structureBytes other).drop offset = pieces'.flatten ++ after' := by
  obtain ⟨steps, rfl⟩ := Nat.exists_eq_add_one_of_ne_zero (Nat.ne_zero_of_lt hsteps)
  induction tokens generalizing pieces offset steps with
  | nil =>
    obtain ⟨piece, others, hpiece, hothers, rfl⟩ := List.forall₂_cons_left_iff.1 hpieces
    obtain rfl := List.forall₂_nil_left_iff.1 hothers
    rw [List.flatten_cons, List.append_assoc] at hblock hagree
    rw [readTokens, Token.read_of_spells hoffset hpiece] at hagree
    obtain ⟨piece', hpiece', -, hblock'⟩ :=
      hpiece.of_agree hplaces hblock (hagree _ List.mem_cons_self)
    exact ⟨[piece'], _, .cons hpiece' .nil, by rw [List.flatten_singleton, hblock']⟩
  | cons token tokens ih =>
    obtain ⟨piece, others, hpiece, hothers, rfl⟩ := List.forall₂_cons_left_iff.1 hpieces
    rw [List.mem_cons, not_or] at hfinish
    obtain ⟨steps, rfl⟩ := Nat.exists_eq_add_one_of_ne_zero (Nat.ne_zero_of_lt
      (Nat.lt_of_succ_lt_succ hsteps))
    have hnext : (offset + piece.length) % 4 = 0 := by
      rw [Nat.add_mod, hoffset, (Token.length_spelled hpiece).2]
    rw [List.flatten_cons, List.append_assoc] at hblock hagree
    rw [readTokens, Token.read_of_spells hoffset hpiece] at hagree
    simp only [if_neg (Ne.symm hfinish.1)] at hagree
    obtain ⟨piece', hpiece', -, hblock'⟩ :=
      hpiece.of_agree hplaces hblock (hagree _ List.mem_cons_self)
    have hrest : (structureBytes data).drop (offset + piece.length) =
        others.flatten ++ after := by
      rw [← List.drop_drop, hblock, List.drop_left]
    obtain ⟨pieces', after', hpieces', hblock''⟩ := ih hothers hfinish.2 hnext hrest
      steps (Nat.lt_of_succ_lt_succ hsteps)
      fun located hlocated => hagree located (List.mem_cons_of_mem _ hlocated)
    refine ⟨piece' :: pieces', after', .cons hpiece' hpieces', ?_⟩
    rw [hblock', hblock'', List.flatten_cons, List.append_assoc]

/-- **A description that stands in a blob stands in every blob that has the bytes it is read
from.** -/
theorem Description.StandsIn.of_agree {description : Description} (h : description.StandsIn data)
    (hplaces : SamePlaces data other)
    (hagree : ∀ span ∈ readSpans data, AgreeOn data other span) : description.StandsIn other := by
  obtain ⟨pieces, after, hpieces, hblock⟩ := h
  obtain ⟨pieces', after', hpieces', hblock'⟩ :=
    exists_spells_of_agree hplaces hpieces description.finish_notMem_tokens (Nat.zero_mod 4)
      (Description.length_tokens_lt hpieces hblock) hblock
      fun located hlocated span hspan => hagree span
        (List.mem_flatMap.2 ⟨located, by rwa [← hblock] at hlocated, hspan⟩)
  exact ⟨pieces', after', hpieces', hblock'⟩

/-! ## Blobs with another version -/

/-- The blob with another version in its header. -/
def withVersion (version : Nat) (data : Bytes) : Bytes :=
  data.take 20 ++ BigEndian.encode 4 version ++ data.drop 24

/-- Reading looks at no byte that the other version would change, but for the version itself. -/
def VersionUnread (version : Nat) (data : Bytes) : Prop :=
  ∀ span ∈ readSpans data, AgreeOn data (withVersion version data) span

variable {version : Nat}

theorem length_withVersion (h : 24 ≤ data.length) :
    (withVersion version data).length = data.length := by
  simp only [withVersion, List.length_append, List.length_take, List.length_drop,
    BigEndian.length_encode]
  omega

theorem agreeOn_withVersion (h : 24 ≤ data.length) {span : Nat × Nat}
    (hspan : span.2 ≤ 20 ∨ 24 ≤ span.1) : AgreeOn data (withVersion version data) span := by
  have hfront : (data.take 20).length = 20 := List.length_take_of_le (by omega)
  intro i hfirst hlast
  rw [withVersion]
  rcases hspan with hbefore | hbehind
  · rw [List.append_assoc, List.getElem?_append_left (by omega), List.getElem?_take,
      if_pos (by omega)]
  · have hlength : (data.take 20 ++ BigEndian.encode 4 version).length = 24 := by
      rw [List.length_append, hfront, BigEndian.length_encode]
    rw [List.getElem?_append_right (by omega), hlength, List.getElem?_drop,
      Nat.add_sub_cancel' (by omega)]

theorem headerWord_withVersion (h : 24 ≤ data.length) {i : Nat} (hi : i ≠ 5) :
    headerWord (withVersion version data) i = headerWord data i := by
  have hagree : AgreeOn data (withVersion version data) (4 * i, 4 * i + 4) :=
    agreeOn_withVersion h (by simp only; omega)
  rw [headerWord, headerWord, hagree.slice_eq]

theorem headerWord_withVersion_self (h : 24 ≤ data.length) (hversion : version < UInt32.size) :
    headerWord (withVersion version data) 5 = version := by
  have hfront : (data.take 20).length = 4 * 5 := List.length_take_of_le (by omega)
  rw [headerWord, withVersion, List.append_assoc, List.drop_left' hfront,
    List.take_left' (BigEndian.length_encode 4 version), BigEndian.decode_encode hversion]

theorem structureStop_withVersion_sixteen (h : 24 ≤ data.length) :
    structureStop (withVersion 16 data) = headerWord data 1 := by
  rw [structureStop, headerWord_withVersion_self h (by decide), if_neg (by decide),
    headerWord_withVersion h (by decide)]

/-- As one of version 16 a blob has a valid header too. -/
theorem ValidHeader.withVersion_sixteen (h : ValidHeader data) :
    ValidHeader (withVersion 16 data) := by
  have hlength : 24 ≤ data.length := Nat.le_trans (by decide) h.length_ge
  have hword : ∀ i, i ≠ 5 → headerWord (withVersion 16 data) i = headerWord data i :=
    fun _ hi => headerWord_withVersion hlength hi
  constructor
  · rw [length_withVersion hlength]; exact h.length_ge
  · rw [hword 0 (by decide)]; exact h.magic
  · rw [headerWord_withVersion_self hlength (by decide)]
  · rw [hword 6 (by decide)]; exact h.lastCompatible_le
  · rw [hword 1 (by decide), length_withVersion hlength]; exact h.totalSize_le
  · rw [hword 2 (by decide), structureStop_withVersion_sixteen hlength]
    exact Nat.le_trans h.structureStart_le h.structureStop_le
  · rw [structureStop_withVersion_sixteen hlength, hword 1 (by decide)]
  · rw [hword 3 (by decide), hword 8 (by decide), hword 1 (by decide)]; exact h.stringsStop_le

theorem ValidHeader.samePlaces_withVersion_sixteen (h : ValidHeader data) :
    SamePlaces data (withVersion 16 data) := by
  have hlength : 24 ≤ data.length := Nat.le_trans (by decide) h.length_ge
  refine ⟨headerWord_withVersion hlength (by decide), ?_, ?_,
    headerWord_withVersion hlength (by decide),
    Nat.le_of_eq (headerWord_withVersion hlength (by decide)).symm⟩
  · rw [structureStop_withVersion_sixteen hlength]
    exact h.structureStop_le
  · rw [structureStop_withVersion_sixteen hlength, length_withVersion hlength]
    exact h.totalSize_le

/-- From blocks that start behind the version it is not read. -/
theorem versionUnread_of_le (h : 24 ≤ data.length) (hstructure : 24 ≤ headerWord data 2)
    (hstrings : 24 ≤ headerWord data 3) : VersionUnread version data := by
  intro span hspan
  obtain ⟨⟨offset, token⟩, -, hspan⟩ := List.mem_flatMap.1 hspan
  refine agreeOn_withVersion h (Or.inr ?_)
  cases token with
  | property name value =>
    rcases List.mem_cons.1 hspan with rfl | hspan
    · exact Nat.le_add_right_of_le hstructure
    · obtain rfl := List.mem_singleton.1 hspan
      exact Nat.le_add_right_of_le hstrings
  | beginNode name | endNode | nop | finish =>
    obtain rfl := List.mem_singleton.1 hspan
    exact Nat.le_add_right_of_le hstructure

end Blob

/-! ## The two versions -/

namespace DeviceTree

open Blob

variable {data : Bytes}

/-- **Reading depends on nothing but what it looks at**: the places of the blocks, the boot cpu, and
the bytes of the tokens and of the names that they refer to. -/
theorem ofBlob_eq_of_agree {other : Bytes} {tree : DeviceTree} (h : ofBlob data = .ok tree)
    (hother : ValidHeader other) (hplaces : SamePlaces data other)
    (hagree : ∀ span ∈ readSpans data, AgreeOn data other span)
    (hcpu : headerWord other 7 = headerWord data 7) : ofBlob other = .ok tree := by
  obtain ⟨description, hstands⟩ := exists_standsIn_of_ofBlob h
  rw [ofBlob_eq_replay hother (hstands.of_agree hplaces hagree), headerCpu, hcpu, ← headerCpu,
    ← ofBlob_eq_replay (validHeader_of_ofBlob h) hstands, h]

/-- **A blob is read alike as one of version 16**, unless reading looks at a byte of the version for
something else.  It does not if both blocks start behind the version, wherever the structure block
is said to end. -/
theorem ofBlob_withVersion_sixteen {data : Bytes} {tree : DeviceTree}
    (h : ofBlob data = .ok tree) :
    (VersionUnread 16 data → ofBlob (withVersion 16 data) = .ok tree) ∧
      (24 ≤ headerWord data 2 → 24 ≤ headerWord data 3 → VersionUnread 16 data) := by
  have hheader := validHeader_of_ofBlob h
  have hlength : 24 ≤ data.length := Nat.le_trans (by decide) hheader.length_ge
  refine ⟨fun hunread => ?_, versionUnread_of_le hlength⟩
  exact ofBlob_eq_of_agree h hheader.withVersion_sixteen hheader.samePlaces_withVersion_sixteen
    hunread (headerWord_withVersion hlength (by decide))

/-- As one of version 16 `foreignBlob` has a structure block that runs on into the names. -/
theorem ofBlob_withVersion_sixteen_foreignBlob :
    ∃ tree, ofBlob foreignBlob = .ok tree ∧ headerWord foreignBlob 5 = 17 ∧
      structureStop foreignBlob = 118 ∧ structureStop (withVersion 16 foreignBlob) = 121 ∧
      ofBlob (withVersion 16 foreignBlob) = .ok tree := by
  have hread : (ofBlob foreignBlob).toOption.isSome := by decide +kernel
  obtain ⟨tree, htree⟩ := Option.isSome_iff_exists.1 hread
  have htree := Except.toOption_eq_some_iff.1 htree
  obtain ⟨halike, hunread⟩ := ofBlob_withVersion_sixteen htree
  exact ⟨tree, htree, by decide +kernel, by decide +kernel, by decide +kernel,
    halike (hunread (by decide +kernel) (by decide +kernel))⟩

/-- A blob whose strings block starts with the last byte of the version, so that the one name in it
is read from there. -/
def namedByVersionBlob : Bytes :=
  [0xd00dfeed, 68, 40, 23, 40, 17, 16, 0, 2, 28].flatMap (BigEndian.encode 4) ++
    [1, 0, 3, 0, 0, 2, 9].flatMap (BigEndian.encode 4)

/-- **Versions may differ in more than the end of the structure block.**  With another version the
property of `namedByVersionBlob` has another name. -/
theorem not_versions_agree :
    ¬ ∀ (data : Bytes) (tree : DeviceTree), ofBlob data = .ok tree → 17 ≤ headerWord data 5 →
      ofBlob (withVersion 16 data) = .ok tree := by
  intro hagree
  have hread : (ofBlob namedByVersionBlob).toOption.any fun tree =>
      decide (tree.properties NodeId.root = [("\x11", [])]) := by decide +kernel
  have hother : (ofBlob (withVersion 16 namedByVersionBlob)).toOption.any fun tree =>
      decide (tree.properties NodeId.root = [("\x10", [])]) := by decide +kernel
  obtain ⟨tree, htree, hname⟩ := (Option.any_eq_true _ _).1 hread
  have hsame := hagree _ tree (Except.toOption_eq_some_iff.1 htree) (by decide +kernel)
  rw [hsame] at hother
  have hname' : tree.properties NodeId.root = [("\x10", [])] := of_decide_eq_true hother
  rw [of_decide_eq_true hname] at hname'
  exact absurd hname' (by decide)

end DeviceTree
end RiscvTables
