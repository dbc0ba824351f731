import RiscvTables.Proofs.DeviceTree.Compatible
import RiscvTables.Proofs.Outcome
import RiscvTables.Proofs.Record.Platform
import RiscvTables.Proofs.Text.Utf8
import RiscvTables.Topology.Capabilities

/-!
# What a tree tells of its cpus

`TellsTimer`, `TellsIsa` and `TellsCacheBlocks` say what the properties of a tree mean, without
saying how they are read; the readers succeed with exactly that.

The timer's word on whether it can wake a cpu is that of the first timer node in pre-order.
-/

set_option autoImplicit false

namespace RiscvTables
namespace DeviceTree

variable {tree : DeviceTree}

/-! ## The timer -/

variable (tree) in
/-- The timer that a tree tells of: its frequency is a number of one or two cells, and it cannot
wake a cpu if the first timer node says so. -/
structure TellsTimer (cpus : NodeId) (timer : TimerRecord) : Prop where
  frequency : ∃ value cells, tree.property? cpus "timebase-frequency" = some value ∧
    PropertyValue.cells? value = some cells ∧ cells ≠ [] ∧
    PropertyValue.numberOfCells? cells = some timer.frequency.toNat
  cannotWakeCpu : timer.cannotWakeCpu =
    (tree.preorder.find? fun node => tree.isCompatible node "riscv,timer").any fun node =>
      (tree.property? node "riscv,timer-cannot-wake-cpu").isSome

theorem numberOfCells?_lt {cells : List UInt32} {n : Nat}
    (h : PropertyValue.numberOfCells? cells = some n) : n < UInt64.size := by
  match cells with
  | [] =>
    obtain rfl := Option.some.inj h
    decide
  | [low] =>
    obtain rfl := Option.some.inj h
    exact Nat.lt_trans low.toNat_lt (by decide)
  | [high, low] =>
    obtain rfl := Option.some.inj h
    have hhigh := high.toNat_lt
    have hlow := low.toNat_lt
    simp only [UInt32.size, UInt64.size]
    omega
  | _ :: _ :: _ :: _ => cases h

theorem tellsTimer_of_readTimer (h : tree.WellFormed) {cpus : NodeId} {timer : TimerRecord}
    (hread : tree.readTimer cpus = .ok (some timer)) : tree.TellsTimer cpus timer := by
  rw [readTimer] at hread
  split at hread
  next => cases hread
  next value hvalue =>
    split at hread
    next => cases hread
    next => cases hread
    next cells hne hcells =>
      split at hread
      next => cases hread
      next frequency hfrequency =>
        obtain rfl := Option.some.inj (Except.ok.inj hread)
        have htoNat : (UInt64.ofNat frequency).toNat = frequency :=
          UInt64.toNat_ofNat_of_lt' (numberOfCells?_lt hfrequency)
        exact ⟨⟨value, cells, hvalue, hcells, hne, htoNat.symm ▸ hfrequency⟩,
          by rw [h.nextCompatible?_none]⟩

/-! ## The ISA string -/

variable (tree) in
/-- The ISA string of a cpu: some text without a zero byte, which one zero byte may follow. -/
def TellsIsa (cpu : NodeId) : Option String → Prop
  | none => tree.property? cpu "riscv,isa" = none
  | some isa => isa ≠ "" ∧ '\x00' ∉ isa.toList ∧
    (tree.property? cpu "riscv,isa" = some (Utf8.encode isa) ∨
      tree.property? cpu "riscv,isa" = some (Utf8.encode isa ++ [0]))

theorem eq_or_eq_append_dropFinalZero (bytes : Bytes) :
    bytes = dropFinalZero bytes ∨ bytes = dropFinalZero bytes ++ [0] := by
  rw [dropFinalZero]
  split
  next h =>
    have hne : bytes ≠ [] := by rintro rfl; cases h
    rw [List.getLast?_eq_getLast_of_ne_nil hne, Option.some.injEq] at h
    exact Or.inr (by rw [← h, List.dropLast_append_getLast])
  next => exact Or.inl rfl

theorem tellsIsa_of_readIsa {cpu : NodeId} {isa : Option IsaRecord}
    (hread : tree.readIsa cpu = .ok isa) : tree.TellsIsa cpu (isa.map (·.isa)) := by
  rw [readIsa] at hread
  split at hread
  next hnone =>
    obtain rfl := Except.ok.inj hread
    exact hnone
  next value hvalue =>
    dsimp only at hread
    split at hread
    next => cases hread
    next text hdecode =>
      have hencode := Utf8.decode?_eq_some_iff.1 hdecode
      split at hread
      next => cases hread
      next hgood =>
        obtain rfl := Except.ok.inj hread
        obtain ⟨hne, hzero⟩ := not_or.1 hgood
        refine ⟨?_, ?_, ?_⟩
        · rintro rfl
          exact hne (by rw [hencode]; rfl)
        · rwa [hencode, Utf8.zero_mem_encode_iff] at hzero
        · rw [hvalue, Option.some.injEq, Option.some.injEq, ← hencode]
          exact eq_or_eq_append_dropFinalZero value

/-! ## The cache blocks -/

variable (tree) in
/-- A block size of a cpu, as a logarithm. -/
def TellsBlockSize (cpu : NodeId) (property : String) : Option UInt8 → Prop
  | none => tree.property? cpu property = none
  | some log => ∃ value bytes, tree.property? cpu property = some value ∧
    PropertyValue.cellAt? value 0 = some bytes ∧ IsBlockSizeLog bytes.toNat log

variable (tree) in
/-- The cache blocks of a cpu: one record if it has a size for any operation, with 0 for an
operation that it has no size for. -/
def TellsCacheBlocks (cpu : NodeId) (records : List CacheBlockRecord) : Prop :=
  ∃ cbom cbop cboz, tree.TellsBlockSize cpu "riscv,cbom-block-size" cbom ∧
    tree.TellsBlockSize cpu "riscv,cbop-block-size" cbop ∧
    tree.TellsBlockSize cpu "riscv,cboz-block-size" cboz ∧
    records = if cbom = none ∧ cbop = none ∧ cboz = none then []
      else [⟨cbom.getD 0, cbop.getD 0, cboz.getD 0⟩]

theorem tellsBlockSize_of_readBlockSize {cpu : NodeId} {property : String} {log : Option UInt8}
    (hread : tree.readBlockSize cpu property = .ok log) :
    tree.TellsBlockSize cpu property log := by
  rw [readBlockSize] at hread
  obtain ⟨cell, hcell, hread⟩ := Except.bind_eq_ok_iff.1 hread
  rw [optionalCell] at hcell
  split at hcell
  next hnone =>
    obtain rfl := Except.ok.inj hcell
    obtain rfl := Except.pure_eq_ok_iff.1 hread
    exact hnone
  next value hvalue =>
    split at hcell
    next => cases hcell
    next bytes hbytes =>
      obtain rfl := Except.ok.inj hcell
      dsimp only at hread
      split at hread
      next => exact absurd hread Except.throw_ne_ok
      next size hsize =>
        obtain rfl := Except.pure_eq_ok_iff.1 hread
        have htoNat : (UInt64.ofNat bytes.toNat).toNat = bytes.toNat :=
          UInt64.toNat_ofNat_of_lt' (Nat.lt_trans bytes.toNat_lt (by decide))
        exact ⟨value, bytes, hvalue, hbytes, htoNat ▸ blockSizeLog2?_eq_some_iff.1 hsize⟩

theorem tellsCacheBlocks_of_readCacheBlocks {cpu : NodeId} {record : Option CacheBlockRecord}
    (hread : tree.readCacheBlocks cpu = .ok record) :
    tree.TellsCacheBlocks cpu record.toList := by
  rw [readCacheBlocks] at hread
  obtain ⟨cbom, hcbom, hread⟩ := Except.bind_eq_ok_iff.1 hread
  obtain ⟨cbop, hcbop, hread⟩ := Except.bind_eq_ok_iff.1 hread
  obtain ⟨cboz, hcboz, hread⟩ := Except.bind_eq_ok_iff.1 hread
  refine ⟨cbom, cbop, cboz, tellsBlockSize_of_readBlockSize hcbom,
    tellsBlockSize_of_readBlockSize hcbop, tellsBlockSize_of_readBlockSize hcboz, ?_⟩
  simp only [Bool.and_eq_true, Option.isNone_iff_eq_none, and_assoc] at hread
  split at hread
  next habsent =>
    obtain rfl := Except.pure_eq_ok_iff.1 hread
    rw [if_pos habsent]
    rfl
  next hpresent =>
    obtain rfl := Except.pure_eq_ok_iff.1 hread
    rw [if_neg hpresent]
    rfl

/-! ## All of them -/

/-- The capabilities are read from the node of the cpus and from the first cpu. -/
theorem capabilities_eq_ok {cpus cpu : NodeId} {rest : List NodeId} {found : PlatformRecords}
    (hcpus : tree.cpuNodes cpus = cpu :: rest) (h : tree.capabilities cpus = .ok found) :
    tree.readTimer cpus = .ok found.timer ∧ tree.readIsa cpu = .ok found.isa ∧
      tree.TellsCacheBlocks cpu found.cacheBlocks := by
  rw [capabilities] at h
  obtain ⟨timer, htimer, h⟩ := Except.bind_eq_ok_iff.1 h
  simp only [hcpus] at h
  obtain ⟨isa, hisa, h⟩ := Except.bind_eq_ok_iff.1 h
  obtain ⟨cacheBlocks, hcacheBlocks, h⟩ := Except.bind_eq_ok_iff.1 h
  obtain rfl := Except.pure_eq_ok_iff.1 h
  exact ⟨htimer, hisa, tellsCacheBlocks_of_readCacheBlocks hcacheBlocks⟩

end DeviceTree
end RiscvTables
