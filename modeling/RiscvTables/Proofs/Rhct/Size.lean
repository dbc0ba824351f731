import Mathlib.Algebra.BigOperators.Group.List.Basic
import RiscvTables.Proofs.Rhct.Layout

/-!
# How large a table is, and which are too large

The size of a table depends on its ISA string and on how many other nodes it has (`sizeWith`).  A
layout that fails does so for one of two reasons: the ISA string does not fit its node, or the nodes
do not fit the table.  With the records at hand and the right revision, a build ends just as its
layout does (`build_of_fetch`).
-/

set_option autoImplicit false

namespace RiscvTables
namespace Rhct

/-! ## The size of a table -/

/-- The size of a table with some ISA string, and with so many cache-block nodes and harts. -/
def sizeWith (isa : Option String) (cacheBlocks harts : Nat) : Nat :=
  tableHeaderSize + isa.elim 0 isaStringSize + cacheBlocksSize * cacheBlocks +
    hartInfoSize ((if isa.isSome then 1 else 0) + if cacheBlocks = 0 then 0 else 1) * harts

/-- The longest ISA string that a node has room for. -/
def maxIsaLength : Nat := 65525

theorem isaStringSize_le_iff (isa : String) :
    isaStringSize isa ≤ 0xffff ↔ (Utf8.encode isa).length ≤ maxIsaLength := by
  rw [isaStringSize, Bytes.roundUp, maxIsaLength]
  omega

theorem totalSize_eq_sum (nodes : List (NodeSource × Nat)) :
    totalSize nodes = (nodes.map Prod.snd).sum := by
  induction nodes with
  | nil => rfl
  | cons node rest ih => rw [totalSize, ih, List.map_cons, List.sum_cons]

theorem totalSize_append (first second : List (NodeSource × Nat)) :
    totalSize (first ++ second) = totalSize first + totalSize second := by
  induction first with
  | nil => exact (Nat.zero_add _).symm
  | cons node rest ih => rw [List.cons_append, totalSize, totalSize, ih, Nat.add_assoc]

theorem totalSize_map_const {α : Type} (source : α → NodeSource) (size : Nat) (xs : List α) :
    totalSize (xs.map fun x => (source x, size)) = size * xs.length := by
  induction xs with
  | nil => rfl
  | cons x rest ih =>
    rw [List.map_cons, totalSize, ih, List.length_cons, Nat.mul_succ, Nat.add_comm]

/-- The first offset, that of a node or of the end of the nodes, which does not fit 32 bits. -/
def firstTooLarge? (offset : Nat) (lengths : List Nat) : Option Nat :=
  (lengths.scanl (· + ·) offset).find? fun reached => UInt32.size ≤ reached

theorem firstTooLarge?_cons (offset length : Nat) (rest : List Nat) :
    firstTooLarge? offset (length :: rest) =
      if UInt32.size ≤ offset then some offset else firstTooLarge? (offset + length) rest := by
  rw [firstTooLarge?, List.scanl_cons, List.find?_cons]
  split
  next h => rw [if_pos (of_decide_eq_true h)]
  next h => rw [if_neg (of_decide_eq_false h), firstTooLarge?]

theorem exists_firstTooLarge? {offset : Nat} {lengths : List Nat}
    (h : UInt32.size ≤ offset + lengths.sum) :
    ∃ size, UInt32.size ≤ size ∧ firstTooLarge? offset lengths = some size := by
  have hsome : (firstTooLarge? offset lengths).isSome := by
    induction lengths generalizing offset with
    | nil => simpa [firstTooLarge?] using h
    | cons length rest ih =>
      rw [firstTooLarge?_cons]
      split
      next => rfl
      next => exact ih (by rwa [List.sum_cons, ← Nat.add_assoc] at h)
  obtain ⟨size, hsize⟩ := Option.isSome_iff_exists.1 hsome
  have hlarge := hsize
  rw [firstTooLarge?] at hlarge
  exact ⟨size, by simpa using List.find?_some hlarge, hsize⟩

namespace Inputs

variable {inputs : Inputs}

theorem tableSize_eq (inputs : Inputs) :
    inputs.tableSize =
      sizeWith (inputs.isa.map (·.isa)) inputs.cacheBlocks.length inputs.harts.length := by
  have hisa : totalSize (inputs.isa.toList.map fun record =>
      (NodeSource.isaString, isaStringSize record.isa)) =
        (inputs.isa.map (·.isa)).elim 0 isaStringSize := by
    cases inputs.isa <;> rfl
  rw [tableSize, nodeSizes, totalSize_append, totalSize_append, hisa,
    totalSize_map_const (fun p : CacheBlockRecord × Nat => NodeSource.cacheBlock p.2),
    totalSize_map_const (fun p : HartRecord × Nat => NodeSource.hartInfo p.2 p.1.processorUid),
    List.length_zipIdx, List.length_zipIdx, sizeWith, referenceCount, Option.isSome_map]
  simp only [List.length_eq_zero_iff, Nat.add_assoc]

/-! ## What cannot be laid out -/

/-- Nodes cannot be placed if one of the offsets does not fit, and the first of those is named. -/
theorem place_eq_error {offset size : Nat} {nodes : List (NodeSource × Nat)}
    (h : firstTooLarge? offset (nodes.map Prod.snd) = some size) :
    place offset nodes = .error (.tableTooLarge size) := by
  induction nodes generalizing offset with
  | nil =>
    have hlarge : UInt32.size ≤ offset ∧ offset = size := by simpa [firstTooLarge?] using h
    rw [place, tableOffset, if_neg (Nat.not_lt.2 hlarge.1), ← hlarge.2]
    rfl
  | cons node rest ih =>
    rw [List.map_cons, firstTooLarge?_cons] at h
    rw [place, tableOffset]
    split at h
    next hlarge =>
      rw [if_neg (Nat.not_lt.2 hlarge), Option.some.inj h]
      rfl
    next hfits =>
      rw [if_pos (Nat.not_le.1 hfits), ih h]
      rfl

theorem layOut_of_isa_too_long {record : IsaRecord} (hisa : inputs.isa = some record)
    (h : 0xffff < isaStringSize record.isa) :
    inputs.layOut = .error (.nodeTooLarge "ISA string" (isaStringSize record.isa)) := by
  rw [layOut, hisa]
  simp only [if_pos h]
  rfl

/-- A layout whose ISA string fits its node ends as the placing of the nodes does. -/
theorem layOut_eq_place
    (hisa : ∀ record, inputs.isa = some record → isaStringSize record.isa ≤ 0xffff) :
    inputs.layOut = place tableHeaderSize inputs.nodeSizes := by
  rw [layOut]
  cases hrecord : inputs.isa with
  | none => rfl
  | some record => simp only [if_neg (Nat.not_lt.2 (hisa record hrecord))]

theorem layOut_of_table_too_large
    (hisa : ∀ record, inputs.isa = some record → isaStringSize record.isa ≤ 0xffff)
    (h : UInt32.size ≤ inputs.tableSize) :
    ∃ size, UInt32.size ≤ size ∧ inputs.layOut = .error (.tableTooLarge size) := by
  rw [tableSize, totalSize_eq_sum] at h
  obtain ⟨size, hsize, hfirst⟩ := exists_firstTooLarge? h
  exact ⟨size, hsize, (layOut_eq_place hisa).trans (place_eq_error hfirst)⟩

end Inputs

theorem build_of_revision_ne {stamper : Stamper} {info : TableInfo} {store : Store}
    (h : info.revision ≠ tableRevision) :
    build stamper info store =
      .error (.unsupportedRevision info.revision tableRevision tableRevision) := by
  rw [build, if_pos h]
  rfl

/-- A build for which the records are there ends as the layout does. -/
theorem build_of_fetch {info : TableInfo} {store : Store} {inputs : Inputs}
    (hrevision : info.revision = tableRevision) (hfetch : Inputs.fetch store = .ok inputs) :
    build stampIdentity info store =
      inputs.layOut.map fun layout => (finalizeChecksum (inputs.draft info), layout.index) := by
  rw [build, if_neg (not_not.2 hrevision), hfetch]
  show (inputs.layOut >>= fun layout => inputs.write stampIdentity info layout >>= fun table =>
    pure (table, layout.index)) = _
  cases hlayout : inputs.layOut with
  | error error => rfl
  | ok layout =>
    show (inputs.write stampIdentity info layout >>= fun table => pure (table, layout.index)) = _
    rw [Inputs.write_eq_ok info hlayout]
    rfl

end Rhct
end RiscvTables
