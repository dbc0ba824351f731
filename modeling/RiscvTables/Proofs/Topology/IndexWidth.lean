import Mathlib.Order.Monotone.Defs
import RiscvTables.Proofs.Topology.Pages

/-!
# How wide a hart index is

The receiver numbers its interrupt files by hart index, and a tree need not say how many bits an
index has.  It then has just as many as the positions of the wires need: the base-2 logarithm of
the number of wires, rounded up.

`hartIndexBits_le_iff` says that the width and the powers of two are adjoint, for all numbers.
That the width is wide enough, that none less is, and that it grows with the number of wires are
three readings of this one equivalence.
-/

set_option autoImplicit false

namespace RiscvTables

/-! ## The width -/

/-- **A width is enough for some wires if it is the least one or more.** -/
theorem hartIndexBits_le_iff {count width : Nat} :
    hartIndexBits count ≤ width ↔ count ≤ 2 ^ width := by
  rw [hartIndexBits]
  split
  next hfew => exact iff_of_true (Nat.zero_le _) (hfew.trans Nat.one_le_two_pow)
  next hmany =>
    have hpred : count - 1 ≠ 0 := by omega
    rw [Nat.succ_le_iff, Nat.log2_lt hpred]
    omega

theorem le_two_pow_hartIndexBits (count : Nat) : count ≤ 2 ^ hartIndexBits count :=
  hartIndexBits_le_iff.1 (Nat.le_refl _)

theorem hartIndexBits_mono : Monotone hartIndexBits := fun _ count hle =>
  hartIndexBits_le_iff.2 (hle.trans (le_two_pow_hartIndexBits count))

/-- The width of a number of 64 bits is a number of 32 bits. -/
theorem toNat_hartIndexBits {count : Nat} (h : count < UInt64.size) :
    (UInt32.ofNat (hartIndexBits count)).toNat = hartIndexBits count := by
  have hwidth : hartIndexBits count ≤ 64 := hartIndexBits_le_iff.2 (Nat.le_of_lt h)
  exact UInt32.toNat_ofNat_of_lt' (Nat.lt_of_le_of_lt hwidth (by decide))

/-! ## The width in a tree -/

namespace DeviceTree

variable {tree : DeviceTree}

variable (tree) in
/-- The node does not say how wide a hart index is, or says that it has no bits. -/
def LeavesIndexWidth (node : NodeId) : Prop :=
  tree.optionalCell node "riscv,hart-index-bits" = .ok none ∨
    tree.optionalCell node "riscv,hart-index-bits" = .ok (some 0)

theorem hartIndexBits_of_receiverRecord {node : NodeId} {count : Nat} {record : ReceiverRecord}
    (hleaves : tree.LeavesIndexWidth node) (h : tree.receiverRecord node count = .ok record) :
    record.hartIndexBits = UInt32.ofNat (hartIndexBits count) := by
  rw [receiverRecord] at h
  obtain ⟨ids, -, h⟩ := Except.bind_eq_ok_iff.1 h
  cases ids with
  | none => exact absurd h Except.throw_ne_ok
  | some ids =>
    obtain ⟨declared, hdeclared, h⟩ := Except.bind_eq_ok_iff.1 h
    obtain ⟨guestIds, -, h⟩ := Except.bind_eq_ok_iff.1 h
    obtain ⟨guestIndexBits, -, h⟩ := Except.bind_eq_ok_iff.1 h
    obtain ⟨groupIndexBits, -, h⟩ := Except.bind_eq_ok_iff.1 h
    obtain ⟨groupIndexShift, -, h⟩ := Except.bind_eq_ok_iff.1 h
    obtain rfl := Except.pure_eq_ok_iff.1 h
    have hzero : declared.getD 0 = 0 := by
      rcases hleaves with hnone | hzero
      · rw [Except.ok.inj (hdeclared.symm.trans hnone), Option.getD_none]
      · rw [Except.ok.inj (hdeclared.symm.trans hzero), Option.getD_some]
    exact if_pos hzero

theorem describes_of_resolveReceiver {table table' : HartTable} {receiver : Receiver}
    (h : tree.resolveReceiver table = (table', .ok (some receiver))) :
    ∃ wires regions, tree.Describes receiver wires regions := by
  obtain ⟨houtcome, -⟩ := Journal.carryOut_eq_ok_iff.1 h
  obtain ⟨entries, hplan⟩ := Journal.outcome_eq_ok_iff.1 houtcome
  rcases receiverAmong_eq_ok_iff.1 hplan with
    ⟨-, -, hnone⟩ | ⟨found, wires, regions, -, hdescribes, -, hfound⟩
  · cases hnone
  · obtain rfl := Option.some.inj hfound
    exact ⟨wires, regions, hdescribes⟩

end DeviceTree

/-- **The width of a hart index is the base-2 logarithm of the number of wires, rounded up**, and
a wider one for more wires.  A receiver whose node leaves the width open has this one in its record,
and every wire's position fits it. -/
theorem hartIndexBits_isCeilLog :
    (∀ count, count ≤ 2 ^ hartIndexBits count ∧
      ∀ width, count ≤ 2 ^ width → hartIndexBits count ≤ width) ∧
    (∀ count count', count ≤ count' → hartIndexBits count ≤ hartIndexBits count') ∧
    (∀ count < UInt64.size, (UInt32.ofNat (hartIndexBits count)).toNat = hartIndexBits count) ∧
    ∀ tree table table' receiver,
      DeviceTree.resolveReceiver tree table = (table', .ok (some receiver)) →
      tree.LeavesIndexWidth receiver.node →
      ∃ wires, tree.wires? receiver.node = .ok (some wires) ∧
        (wires.length < UInt64.size →
          receiver.record.hartIndexBits.toNat = hartIndexBits wires.length ∧
          ∀ position < wires.length, position < 2 ^ receiver.record.hartIndexBits.toNat) := by
  refine ⟨fun count => ⟨le_two_pow_hartIndexBits count, fun _ => hartIndexBits_le_iff.2⟩,
    hartIndexBits_mono, fun count => toNat_hartIndexBits, ?_⟩
  intro tree table table' receiver hresolved hleaves
  obtain ⟨wires, regions, hdescribes⟩ := DeviceTree.describes_of_resolveReceiver hresolved
  refine ⟨wires, hdescribes.wires?_eq, fun hfew => ?_⟩
  have hwidth : receiver.record.hartIndexBits.toNat = hartIndexBits wires.length := by
    rw [DeviceTree.hartIndexBits_of_receiverRecord hleaves hdescribes.record_eq,
      toNat_hartIndexBits hfew]
  refine ⟨hwidth, fun position hposition => ?_⟩
  rw [hwidth]
  exact Nat.lt_of_lt_of_le hposition (le_two_pow_hartIndexBits wires.length)

/-- The five wires of a receiver have an index of three bits, and so do any up to eight. -/
theorem hartIndexBits_crowdedBoardEdits :
    (∃ tree table' receiver wires, DeviceTree.ofEdits? DeviceTree.crowdedBoardEdits = some tree ∧
      tree.resolveReceiver DeviceTree.crowdedHarts = (table', .ok (some receiver)) ∧
      tree.LeavesIndexWidth receiver.node ∧ tree.wires? receiver.node = .ok (some wires) ∧
      wires.length = 5 ∧ receiver.record.hartIndexBits.toNat = hartIndexBits wires.length ∧
      receiver.record.hartIndexBits = 3 ∧ 4 < 2 ^ receiver.record.hartIndexBits.toNat) ∧
    hartIndexBits 5 ≤ hartIndexBits 8 ∧ hartIndexBits 8 ≤ 3 ∧
      (UInt32.ofNat (hartIndexBits (2 ^ 64 - 1))).toNat = 64 := by
  obtain ⟨hleast, hmono, hfits, hreceiver⟩ := hartIndexBits_isCeilLog
  refine ⟨?_, hmono 5 8 (by decide), (hleast 8).2 3 (by decide), ?_⟩
  · have hruns : (DeviceTree.ofEdits? DeviceTree.crowdedBoardEdits).any fun tree =>
        decide ((tree.resolveReceiver DeviceTree.crowdedHarts).2.map (Option.map fun receiver =>
          (receiver.node, receiver.record.hartIndexBits)) = .ok (some (7, 3))) &&
        decide (tree.optionalCell 7 "riscv,hart-index-bits" = .ok none) &&
        decide ((tree.wires? 7).map (Option.map List.length) = .ok (some 5)) := by
      decide +kernel
    obtain ⟨tree, htree, hruns⟩ := (Option.any_eq_true _ _).1 hruns
    simp only [Bool.and_eq_true, decide_eq_true_eq] at hruns
    obtain ⟨⟨hrecord, hleaves⟩, hcount⟩ := hruns
    obtain ⟨result, hresult, hfound⟩ := Except.map_eq_ok_iff.1 hrecord
    obtain ⟨receiver, rfl, hreceived⟩ := Option.map_eq_some_iff.1 hfound
    obtain ⟨hnode, hthree⟩ := Prod.mk.inj hreceived
    rw [← hnode] at hleaves hcount
    have hresolved : tree.resolveReceiver DeviceTree.crowdedHarts =
        ((tree.resolveReceiver DeviceTree.crowdedHarts).1, .ok (some receiver)) := by rw [← hresult]
    obtain ⟨wires, hwires, hwidth⟩ := hreceiver tree _ _ receiver hresolved (.inl hleaves)
    have hfive : wires.length = 5 := by
      rw [hwires] at hcount
      exact Option.some.inj (Except.ok.inj hcount)
    obtain ⟨hbits, hpositions⟩ := hwidth (by rw [hfive]; decide)
    exact ⟨tree, _, receiver, wires, htree, hresolved, .inl hleaves, hwires, hfive, hbits, hthree,
      hpositions 4 (by rw [hfive]; decide)⟩
  · rw [hfits _ (by decide)]
    decide

end RiscvTables
