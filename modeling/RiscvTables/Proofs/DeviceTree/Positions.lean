import RiscvTables.Proofs.DeviceTree.InOrder
import RiscvTables.Proofs.DeviceTree.Indexed
import RiscvTables.Proofs.DeviceTree.Session

/-!
# Blobs are only read inside their blocks

`DeviceTree.ofBlob_safe` is the payoff: any bytes whatsoever can be given to the program of
`RiscvTables.Proofs.DeviceTree.Indexed`, which indexes the blob and loops until it sees the last
token.  It ends, and in one way; no slice that it takes is out of range; it reads no more tokens
than the structure block has words; and two refusals that its code provides for, a token off a
boundary and a node that is not there, never happen.

That the program does what `ofBlob` does is known from there step by step.  What is left is about
the state between two turns, and everything follows from one invariant, `State.Sound`.

* **Boundaries.**  The loop stands at a multiple of four.  A token that is read from a boundary ends
  at one, at least four bytes further on (`next_of_token`).  The first half is why no token is ever
  found off a boundary, the second why the loop ends.
* **Open nodes.**  The nodes that are open are nodes of the tree, and so is the root
  (`Builder.Anchored`).  A builder adds to the innermost open node only, so the edits that it makes
  are never refused because the node is missing.

Turns keep the invariant (`State.Sound.turn`), and a turn from a sound state that stops the loop
does so for a fault of the blob (`State.Sound.isFault_of_turn`).  `Runs.sound` carries both through
a run by induction on it, and counts the tokens on the way: each takes up four bytes of what is left
of the block.

`exists_runs` is the other half.  The number of steps that `ofBlob` is given, one for each word of
the block, is enough: by the time it has used them up, the loop stands at the end of the block, and
the program would stop there as well.  So the program has a run, with the outcome of `ofBlob`, and
`Runs.unique` says that it is the only one.
-/

set_option autoImplicit false

namespace RiscvTables
namespace Blob

/-! ## Open nodes

Nothing but the builder touches the tree while a blob is read, and it keeps a stack of open nodes.
A node is pushed when it has been added, and nothing is ever removed from the tree, so the stack
stays inside it. -/

/-- The program stops for a fault of the blob: it is not out of range, no token stands off a
boundary, and no node is missing. -/
def Stop.IsFault : Stop → Prop
  | .outOfRange .. | .refused (.tokenUnaligned _) | .refused (.edit (.unknownNode _)) => False
  | .refused _ => True

/-- The open nodes of a builder are in its tree, and so is the root, which may be opened next. -/
structure Builder.Anchored (builder : Builder) : Prop where
  root_lt : NodeId.root < builder.tree.size
  open_lt : ∀ id ∈ builder.openNodes, id < builder.tree.size

/-- **Every token keeps the open nodes in the tree.** -/
theorem Builder.Anchored.accept {builder builder' : Builder} {token : Token} (h : builder.Anchored)
    (haccept : builder.accept token = .ok builder') : builder'.Anchored := by
  rcases Builder.accept_cases haccept with ⟨_, _, _, _, rfl⟩ |
    ⟨name, parent, outer, tree, id, _, hopen, hedit, rfl⟩ | ⟨inner, outer, _, hopen, rfl⟩ |
    ⟨name, value, id, outer, tree, _, _, hedit, rfl⟩ | ⟨_, rfl⟩
  · refine ⟨h.root_lt, fun id hid => ?_⟩
    rw [List.mem_singleton.1 hid]
    exact h.root_lt
  · obtain ⟨-, -, -, rfl, rfl⟩ := DeviceTree.addNode_eq_ok_iff.1 hedit
    have hsize : (builder.tree.appendChild parent name).size = builder.tree.size + 1 :=
      DeviceTree.size_appendChild
    refine ⟨hsize ▸ Nat.lt_succ_of_lt h.root_lt, fun id hid => ?_⟩
    show id < DeviceTree.size _
    rw [hsize]
    rcases List.mem_cons.1 hid with rfl | hid
    · exact Nat.lt_succ_self _
    · exact Nat.lt_succ_of_lt (h.open_lt id (hopen ▸ hid))
  · exact ⟨h.root_lt, fun id hid => h.open_lt id (hopen ▸ List.mem_cons_of_mem inner hid)⟩
  · have hsize := (DeviceTree.links_of_setProperty hedit).1
    exact ⟨hsize ▸ h.root_lt, fun id hid => hsize ▸ h.open_lt id hid⟩
  · exact h

namespace Indexed

section Loop

variable {blocks : Token.Blocks} {block : Bytes}

/-! ## Every turn goes on

Three of the five tokens are a word and nothing else.  The other two end with padding, and rounding
up takes a position to a boundary without taking it back. -/

/-- The token behind a boundary ends at one, further on. -/
theorem next_of_token {offset next : Nat} {n : UInt32} {found : Token} (hoffset : offset % 4 = 0)
    (h : token blocks block offset n = .ok (found, next)) : offset + 4 ≤ next ∧ next % 4 = 0 := by
  have hround : ∀ m, m ≤ Bytes.roundUp 4 m ∧ Bytes.roundUp 4 m % 4 = 0 := fun m =>
    ⟨Bytes.le_roundUp m (by decide), Bytes.roundUp_mod 4 m⟩
  have hword : offset + 4 ≤ offset + 4 ∧ (offset + 4) % 4 = 0 := ⟨Nat.le_refl _, by omega⟩
  rw [token] at h
  split_ifs at h
  · obtain ⟨name, -, h⟩ := Except.bind_eq_ok_iff.1 h
    obtain ⟨-, rfl⟩ := Prod.mk.inj (Except.ok.inj h)
    obtain ⟨hle, hmod⟩ := hround (offset + 4 + (Utf8.encode name).length + 1)
    exact ⟨by omega, hmod⟩
  · exact (Prod.mk.inj (Except.ok.inj h)).2 ▸ hword
  · obtain ⟨length, -, h⟩ := Except.bind_eq_ok_iff.1 h
    obtain ⟨nameOffset, -, h⟩ := Except.bind_eq_ok_iff.1 h
    obtain ⟨value, -, h⟩ := Except.bind_eq_ok_iff.1 h
    obtain ⟨name, -, h⟩ := Except.bind_eq_ok_iff.1 h
    obtain ⟨-, rfl⟩ := Prod.mk.inj (Except.ok.inj h)
    obtain ⟨hle, hmod⟩ := hround (offset + 4 + 8 + length.toNat)
    exact ⟨by omega, hmod⟩
  · exact (Prod.mk.inj (Except.ok.inj h)).2 ▸ hword
  · exact (Prod.mk.inj (Except.ok.inj h)).2 ▸ hword

/-- What holds whenever the loop begins a turn: it stands on a boundary, and the open nodes are in
the tree. -/
structure State.Sound (state : State) : Prop where
  aligned : state.offset % 4 = 0
  builder : state.builder.Anchored

theorem turn_eq_more_iff {state next : State} {n : UInt32} :
    turn blocks block state n = .ok (.more next) ↔
      ∃ found, token blocks block state.offset n = .ok (found, next.offset) ∧ found ≠ .finish ∧
        state.builder.accept found = .ok next.builder := by
  rw [turn, Except.bind_eq_ok_iff]
  constructor
  · rintro ⟨⟨found, offset⟩, hfound, h⟩
    dsimp only at h
    split at h
    next =>
      obtain ⟨tree, -, h⟩ := Except.bind_eq_ok_iff.1 h
      cases h
    next hfinish =>
      obtain ⟨builder, haccept, h⟩ := Except.bind_eq_ok_iff.1 h
      cases h
      exact ⟨found, hfound, hfinish, Except.mapError_eq_ok_iff.1 haccept⟩
  · rintro ⟨found, hfound, hfinish, haccept⟩
    refine ⟨(found, next.offset), hfound, ?_⟩
    dsimp only
    rw [if_neg hfinish, haccept]
    rfl

/-- **A turn that goes on takes the loop further, and keeps it sound.** -/
theorem State.Sound.turn {state next : State} {n : UInt32} (h : state.Sound)
    (hturn : turn blocks block state n = .ok (.more next)) :
    next.Sound ∧ state.offset + 4 ≤ next.offset := by
  obtain ⟨found, hfound, -, haccept⟩ := turn_eq_more_iff.1 hturn
  obtain ⟨hle, hmod⟩ := next_of_token h.aligned hfound
  exact ⟨⟨hmod, h.builder.accept haccept⟩, hle⟩

/-! ## What a blob is not refused for

A step of the program names its cause when it fails, so it is known of each failure which one it
is.  That leaves the edits of the builder: `DeviceTree.addNode` and `DeviceTree.setProperty` refuse
a node that is not there, and the invariant says that the one they are given is. -/

theorem eq_refused_of_range {bytes : Bytes} {first last : Nat} {cause : BlobError} {stop : Stop}
    (h : range bytes first last cause = .error stop) : stop = .refused cause := by
  rw [range_eq] at h
  split at h
  next => cases h
  next => exact (Except.error.inj h).symm

theorem eq_refused_of_word {base position : Nat} {stop : Stop}
    (h : word block base position = .error stop) :
    stop = .refused (.truncated (base + position)) := by
  rw [word_eq] at h
  split at h
  next => cases h
  next => exact (Except.error.inj h).symm

theorem eq_refused_of_text {position : Nat} {cause : BlobError} {stop : Stop}
    (h : text block position cause = .error stop) : stop = .refused cause := by
  rw [text_eq] at h
  split at h
  next =>
    split at h
    next => exact (Except.error.inj h).symm
    next => cases h
  next => exact (Except.error.inj h).symm

theorem isFault_of_token {offset : Nat} {n : UInt32} {stop : Stop}
    (h : token blocks block offset n = .error stop) : stop.IsFault := by
  rw [token] at h
  split_ifs at h
  · rcases Except.bind_eq_error_iff.1 h with hname | ⟨_, -, h⟩
    · exact eq_refused_of_text hname ▸ trivial
    · cases h
  · rcases Except.bind_eq_error_iff.1 h with hlength | ⟨_, -, h⟩
    · exact eq_refused_of_word hlength ▸ trivial
    rcases Except.bind_eq_error_iff.1 h with hoffset | ⟨_, -, h⟩
    · exact eq_refused_of_word hoffset ▸ trivial
    rcases Except.bind_eq_error_iff.1 h with hvalue | ⟨_, -, h⟩
    · exact eq_refused_of_range hvalue ▸ trivial
    rcases Except.bind_eq_error_iff.1 h with hname | ⟨_, -, h⟩
    · exact eq_refused_of_text hname ▸ trivial
    · cases h
  · exact (Except.error.inj h) ▸ trivial

theorem eq_refused_of_refuse {α : Type} {outcome : Except BlobError α} {stop : Stop}
    (h : refuse outcome = .error stop) :
    ∃ cause, outcome = .error cause ∧ stop = .refused cause := by
  cases outcome with
  | error cause => exact ⟨cause, rfl, (Except.error.inj h).symm⟩
  | ok a => cases h

/-- **A turn of a sound loop stops for a fault of the blob only.** -/
theorem State.Sound.isFault_of_turn {state : State} {n : UInt32} {stop : Stop} (h : state.Sound)
    (hturn : Indexed.turn blocks block state n = .error stop) : stop.IsFault := by
  rcases Except.bind_eq_error_iff.1 hturn with htoken | ⟨⟨found, offset⟩, -, hturn⟩
  · exact isFault_of_token htoken
  dsimp only at hturn
  split at hturn
  next =>
    rcases Except.bind_eq_error_iff.1 hturn with hfinish | ⟨_, -, hturn⟩
    · obtain ⟨cause, hcause, rfl⟩ := eq_refused_of_refuse hfinish
      rw [Builder.finish] at hcause
      split at hcause
      next => exact (Except.error.inj hcause) ▸ trivial
      next => cases hcause
    · cases hturn
  next =>
    rcases Except.bind_eq_error_iff.1 hturn with haccept | ⟨_, -, hturn⟩
    · obtain ⟨cause, hcause, rfl⟩ := eq_refused_of_refuse haccept
      rcases Builder.accept_error_cases hcause with rfl | ⟨id, outer, edit, hopen, rfl, hedit⟩
      · trivial
      have hid := h.builder.open_lt id (hopen ▸ List.mem_cons_self)
      rcases hedit with ⟨name, hadd⟩ | ⟨name, value, hset⟩
      · exact DeviceTree.error_of_addNode hid hadd ▸ trivial
      · rcases DeviceTree.error_of_setProperty hid hset with rfl | ⟨_, _, rfl⟩
        · trivial
        · trivial
    · cases hturn

theorem State.Sound.number_eq {state : State} (h : state.Sound) :
    number blocks block state.offset = word block blocks.structureStart state.offset :=
  if_neg (Decidable.not_not.2 h.aligned)

/-- A number that can be read is in the block. -/
theorem State.Sound.add_four_le {state : State} {n : UInt32} (h : state.Sound)
    (hnumber : number blocks block state.offset = .ok n) : state.offset + 4 ≤ block.length := by
  rw [h.number_eq, word_eq] at hnumber
  split at hnumber
  next hle => exact hle
  next => cases hnumber

theorem State.Sound.isFault_of_number {state : State} {stop : Stop} (h : state.Sound)
    (hnumber : number blocks block state.offset = .error stop) : stop.IsFault := by
  rw [h.number_eq] at hnumber
  exact eq_refused_of_word hnumber ▸ trivial

/-! ## Runs

A run is determined by the state that it starts from, since each turn is a function of its state.
Along a run from a sound state all states are sound. -/

namespace Runs

variable {state : State} {states states' : List State} {outcome outcome' : Except Stop DeviceTree}

/-- The loop ends in one way. -/
theorem unique (h : Runs blocks block state states outcome)
    (h' : Runs blocks block state states' outcome') : states' = states ∧ outcome' = outcome := by
  induction h generalizing states' outcome' with
  | unread herror =>
    cases h' with
    | unread herror' =>
      obtain rfl := Except.error.inj (herror.symm.trans herror')
      exact ⟨rfl, rfl⟩
    | stopped hok _ | done hok _ | more hok _ _ => cases herror.symm.trans hok
  | stopped hok hturn =>
    cases h' with
    | unread herror => cases hok.symm.trans herror
    | stopped hok' hturn' =>
      obtain rfl := Except.ok.inj (hok.symm.trans hok')
      obtain rfl := Except.error.inj (hturn.symm.trans hturn')
      exact ⟨rfl, rfl⟩
    | done hok' hturn' | more hok' hturn' _ =>
      obtain rfl := Except.ok.inj (hok.symm.trans hok')
      cases hturn.symm.trans hturn'
  | done hok hturn =>
    cases h' with
    | unread herror => cases hok.symm.trans herror
    | done hok' hturn' =>
      obtain rfl := Except.ok.inj (hok.symm.trans hok')
      cases hturn.symm.trans hturn'
      exact ⟨rfl, rfl⟩
    | stopped hok' hturn' | more hok' hturn' _ =>
      obtain rfl := Except.ok.inj (hok.symm.trans hok')
      cases hturn.symm.trans hturn'
  | more hok hturn _ ih =>
    cases h' with
    | unread herror => cases hok.symm.trans herror
    | more hok' hturn' hrest =>
      obtain rfl := Except.ok.inj (hok.symm.trans hok')
      cases hturn.symm.trans hturn'
      obtain ⟨rfl, rfl⟩ := ih hrest
      exact ⟨rfl, rfl⟩
    | stopped hok' hturn' | done hok' hturn' =>
      obtain rfl := Except.ok.inj (hok.symm.trans hok')
      cases hturn.symm.trans hturn'

/-- **From a sound state the loop never gets out of its block**, and each token that it reads takes
up four bytes of what is left of the block. -/
theorem sound (h : Runs blocks block state states outcome) (hstate : state.Sound) :
    (∀ visited ∈ states, visited.Sound ∧ visited.offset + 4 ≤ block.length) ∧
      4 * states.length ≤ block.length - state.offset ∧
      ∀ stop, outcome = .error stop → stop.IsFault := by
  induction h with
  | unread hnumber =>
    refine ⟨nofun, Nat.zero_le _, fun stop hstop => ?_⟩
    exact Except.error.inj hstop ▸ hstate.isFault_of_number hnumber
  | stopped hnumber hturn =>
    have hle := hstate.add_four_le hnumber
    refine ⟨List.forall_mem_singleton.2 ⟨hstate, hle⟩, ?_, fun stop hstop => ?_⟩
    · rw [List.length_singleton]
      omega
    · exact Except.error.inj hstop ▸ hstate.isFault_of_turn hturn
  | done hnumber hturn =>
    have hle := hstate.add_four_le hnumber
    refine ⟨List.forall_mem_singleton.2 ⟨hstate, hle⟩, ?_, nofun⟩
    rw [List.length_singleton]
    omega
  | more hnumber hturn _ ih =>
    have hle := hstate.add_four_le hnumber
    obtain ⟨hnext, hfurther⟩ := hstate.turn hturn
    obtain ⟨hvisited, hlength, hfault⟩ := ih hnext
    refine ⟨List.forall_mem_cons.2 ⟨⟨hstate, hle⟩, hvisited⟩, ?_, hfault⟩
    rw [List.length_cons]
    omega

end Runs

/-- **The loop ends as the builder does**, if that is given enough steps. -/
theorem exists_runs (blocks : Token.Blocks) {steps : Nat} {state : State} (h : state.Sound)
    (hsteps : block.length < state.offset + 4 * (steps + 1)) :
    ∃ states, Runs blocks block state states
      (refuse (Builder.run blocks steps (cursorAt block state.offset) state.builder)) := by
  induction steps generalizing state with
  | zero =>
    obtain ⟨stop, hnumber, hrun⟩ := run_zero blocks hsteps
    exact ⟨[], hrun ▸ Runs.unread hnumber⟩
  | succ steps ih =>
    rw [run_succ]
    cases hnumber : number blocks block state.offset with
    | error stop => exact ⟨[], Runs.unread hnumber⟩
    | ok n =>
      show ∃ states, Runs blocks block state states (turn blocks block state n >>= _)
      cases hturn : turn blocks block state n with
      | error stop => exact ⟨[state], Runs.stopped hnumber hturn⟩
      | ok led =>
        cases led with
        | done tree => exact ⟨[state], Runs.done hnumber hturn⟩
        | more next =>
          obtain ⟨hnext, hfurther⟩ := h.turn hturn
          obtain ⟨states, hruns⟩ := ih hnext (by omega)
          exact ⟨state :: states, Runs.more hnumber hturn hruns⟩

end Loop

/-! ## The blocks

What comes before the loop is a matter of bounds that the header names.  They are checked against
the input, and the two blocks against what the header calls the blob. -/

theorem block_of_front {data : Bytes} {found : Front} (h : front data = .ok found) :
    found.block = structureBytes data := by
  rw [front, header_eq] at h
  obtain ⟨header, hheader, h⟩ := Except.bind_eq_ok_iff.1 h
  obtain ⟨-, -, -, -, htotal, rfl⟩ := Header.read_eq_ok_iff.1 (Except.mapError_eq_ok_iff.1 hheader)
  rw [slice, if_pos ⟨Nat.zero_le _, htotal⟩, List.drop_zero] at h
  obtain ⟨blob, hblob, h⟩ := Except.bind_eq_ok_iff.1 h
  obtain rfl := Except.ok.inj hblob
  obtain ⟨block, hblock, h⟩ := Except.bind_eq_ok_iff.1 h
  obtain ⟨strings, -, h⟩ := Except.bind_eq_ok_iff.1 h
  obtain rfl := Except.ok.inj h
  rw [range_eq_refuse] at hblock
  obtain ⟨-, hstop, rfl⟩ := range_eq_ok_iff.1 (Except.mapError_eq_ok_iff.1 hblock)
  rw [List.length_take_of_le htotal] at hstop
  show ((data.take _).take _).drop _ = _
  rw [List.take_take, Nat.min_eq_left hstop]
  rfl

theorem isFault_of_front {data : Bytes} {stop : Stop} (h : front data = .error stop) :
    stop.IsFault := by
  rcases Except.bind_eq_error_iff.1 h with herror | ⟨header, hheader, h⟩
  · obtain ⟨cause, hcause, rfl⟩ := eq_refused_of_refuse (header_eq data ▸ herror)
    rw [Header.read] at hcause
    dsimp only at hcause
    split_ifs at hcause
    all_goals exact (Except.error.inj hcause) ▸ trivial
  obtain ⟨-, -, -, -, htotal, rfl⟩ :=
    Header.read_eq_ok_iff.1 (Except.mapError_eq_ok_iff.1 (header_eq data ▸ hheader))
  rw [slice, if_pos ⟨Nat.zero_le _, htotal⟩] at h
  rcases Except.bind_eq_error_iff.1 h with herror | ⟨blob, -, h⟩
  · cases herror
  rcases Except.bind_eq_error_iff.1 h with herror | ⟨block, -, h⟩
  · exact eq_refused_of_range herror ▸ trivial
  rcases Except.bind_eq_error_iff.1 h with herror | ⟨strings, -, h⟩
  · exact eq_refused_of_range herror ▸ trivial
  · cases h

/-! ## Whole programs -/

theorem sound_start (cpu : UInt32) : State.Sound ⟨0, Builder.start cpu⟩ :=
  ⟨Nat.zero_mod 4, Nat.one_pos, nofun⟩

namespace Decodes

variable {data : Bytes} {states states' : List State} {outcome outcome' : Except Stop DeviceTree}

theorem unique (h : Decodes data states outcome) (h' : Decodes data states' outcome') :
    states' = states ∧ outcome' = outcome := by
  cases h with
  | refused herror =>
    cases h' with
    | refused herror' =>
      obtain rfl := Except.error.inj (herror.symm.trans herror')
      exact ⟨rfl, rfl⟩
    | looped hok _ => cases herror.symm.trans hok
  | looped hok hruns =>
    cases h' with
    | refused herror => cases hok.symm.trans herror
    | looped hok' hruns' =>
      obtain rfl := Except.ok.inj (hok.symm.trans hok')
      exact hruns.unique hruns'

theorem sound (h : Decodes data states outcome) :
    (∀ state ∈ states, state.Sound ∧ state.offset + 4 ≤ (structureBytes data).length) ∧
      4 * states.length ≤ (structureBytes data).length ∧
      ∀ stop, outcome = .error stop → stop.IsFault := by
  cases h with
  | refused herror =>
    exact ⟨nofun, Nat.zero_le _, fun stop hstop => Except.error.inj hstop ▸ isFault_of_front herror⟩
  | looped hok hruns => exact block_of_front hok ▸ hruns.sound (sound_start _)

end Decodes

/-- **The program ends as `ofBlob` does.** -/
theorem exists_decodes (data : Bytes) :
    ∃ states, Decodes data states (refuse (DeviceTree.ofBlob data)) := by
  rw [refuse_ofBlob]
  cases hfront : front data with
  | error stop => exact ⟨[], Decodes.refused hfront⟩
  | ok found =>
    have hsteps : found.block.length < 0 + 4 * (found.block.length / 4 + 1) := by omega
    obtain ⟨states, hruns⟩ := exists_runs found.blocks (sound_start found.bootCpu) hsteps
    exact ⟨states, Decodes.looped hfront hruns⟩

end Indexed
end Blob

namespace DeviceTree

open Blob

/-- **Any bytes can be read.**  The indexing program ends, and in one way, which is that of
`ofBlob`.  It has read no more tokens than the structure block has words, each at a boundary inside
of the block, with open nodes that are there.  No blob is refused because a token stands off a
boundary or because a node is missing, and a tree that is read is an arena in pre-order. -/
theorem ofBlob_safe (data : Bytes) :
    (∃ states, Indexed.Decodes data states (refuse (ofBlob data)) ∧
      (∀ states' outcome, Indexed.Decodes data states' outcome →
        states' = states ∧ outcome = refuse (ofBlob data)) ∧
      states.length ≤ (structureBytes data).length / 4 ∧
      ∀ state ∈ states, state.offset % 4 = 0 ∧
        state.offset + 4 ≤ (structureBytes data).length ∧
        ∀ id ∈ state.builder.openNodes, id < state.builder.tree.size) ∧
    (∀ states first last length,
      ¬ Indexed.Decodes data states (.error (.outOfRange first last length))) ∧
    (∀ offset, ofBlob data ≠ .error (.tokenUnaligned offset)) ∧
    (∀ id, ofBlob data ≠ .error (.edit (.unknownNode id))) ∧
    ∀ tree, ofBlob data = .ok tree → tree.Arena ∧ tree.preorder = List.range tree.size := by
  obtain ⟨states, hdecodes⟩ := Indexed.exists_decodes data
  obtain ⟨hvisited, hlength, hfault⟩ := hdecodes.sound
  refine ⟨⟨states, hdecodes, fun states' outcome h => hdecodes.unique h, by omega,
    fun state hstate => ?_⟩, fun states' first last length h => ?_, fun offset h => ?_,
    fun id h => ?_, fun tree h => ⟨(Reachable.ofBlob h).wellFormed.arena, preorder_of_ofBlob h⟩⟩
  · obtain ⟨hsound, hle⟩ := hvisited state hstate
    exact ⟨hsound.aligned, hle, hsound.builder.open_lt⟩
  · exact h.sound.2.2 _ rfl
  · exact hfault _ (by rw [h]; rfl)
  · exact hfault _ (by rw [h]; rfl)

/-- A blob of a root with one child and, behind it, a property that claims to be so long. -/
def latePropertyBlob (length : Nat) : Bytes :=
  [magic, 86, 40, 84, 40, 17, 16, 0, 2, 44, 1, 0, 1, 0x6e000000, 2, 3, length, 0, 7, 2, 9].flatMap
    (BigEndian.encode 4) ++ [97, 0]

theorem ofBlob_safe_latePropertyBlob :
    (∃ tree states, ofBlob (latePropertyBlob 4) = .ok tree ∧
      Indexed.Decodes (latePropertyBlob 4) states (.ok tree) ∧ states.length ≤ 11 ∧
      tree.properties NodeId.root = [("a", [0, 0, 0, 7])] ∧ tree.Arena ∧
      tree.preorder = [0, 1]) ∧
    ∃ states, states.length ≤ 11 ∧ Indexed.Decodes (latePropertyBlob 0xffffffff) states
      (.error (.refused (.truncated (40 + 32 + 0xffffffff)))) := by
  have hblock : ∀ length, (structureBytes (latePropertyBlob length)).length = 44 := fun _ => rfl
  constructor
  · have hruns : (ofBlob (latePropertyBlob 4)).toOption.any fun tree =>
        decide (tree.size = 2 ∧ tree.properties NodeId.root = [("a", [0, 0, 0, 7])]) := by
      decide +kernel
    obtain ⟨⟨states, hdecodes, -, hlength, -⟩, -, -, -, htrees⟩ := ofBlob_safe (latePropertyBlob 4)
    rw [hblock] at hlength
    obtain ⟨tree, hread, hruns⟩ := Except.exists_ok_of_any hruns
    obtain ⟨hsize, hproperties⟩ := of_decide_eq_true hruns
    obtain ⟨harena, hpreorder⟩ := htrees tree hread
    rw [hread] at hdecodes
    rw [hsize] at hpreorder
    exact ⟨tree, states, hread, hdecodes, hlength, hproperties, harena, hpreorder⟩
  · have hruns : (match ofBlob (latePropertyBlob 0xffffffff) with
        | .ok _ => false
        | .error error => decide (error = .truncated (40 + 32 + 0xffffffff))) = true := by
      decide +kernel
    obtain ⟨⟨states, hdecodes, -, hlength, -⟩, -⟩ := ofBlob_safe (latePropertyBlob 0xffffffff)
    rw [hblock] at hlength
    cases hread : ofBlob (latePropertyBlob 0xffffffff) with
    | ok tree =>
      rw [hread] at hruns
      cases hruns
    | error error =>
      rw [hread] at hruns hdecodes
      obtain rfl := of_decide_eq_true hruns
      exact ⟨states, hlength, hdecodes⟩

end DeviceTree
end RiscvTables
