import RiscvTables.DeviceTree.Property

/-!
# Values made of cells

`cells?` reads exactly what `ofCells` writes (`cells?_eq_some_iff`), and it reads a value that is
a whole number of cells, whatever the cells are (`exists_cells?_iff`).  A number in one or two
cells is the number that their bytes spell.
-/

set_option autoImplicit false

namespace RiscvTables

namespace PropertyValue

/-! ## Cells and their bytes -/

theorem ofCells_cons (cell : UInt32) (rest : List UInt32) :
    ofCells (cell :: rest) = BigEndian.encode 4 cell.toNat ++ ofCells rest :=
  List.flatMap_cons

theorem length_ofCells (cells : List UInt32) : (ofCells cells).length = 4 * cells.length := by
  induction cells with
  | nil => rfl
  | cons cell rest ih =>
    rw [ofCells_cons, List.length_append, BigEndian.length_encode, ih, List.length_cons]
    omega

theorem take_ofCells (n : Nat) (cells : List UInt32) :
    (ofCells cells).take (4 * n) = ofCells (cells.take n) := by
  induction cells generalizing n with
  | nil => simp [ofCells]
  | cons cell rest ih =>
    cases n with
    | zero => rfl
    | succ n =>
      have hlength : 4 * (n + 1) = (BigEndian.encode 4 cell.toNat).length + 4 * n := by
        rw [BigEndian.length_encode]
        omega
      rw [List.take_succ_cons, ofCells_cons, ofCells_cons, hlength, List.take_length_add_append, ih]

theorem drop_ofCells (n : Nat) (cells : List UInt32) :
    (ofCells cells).drop (4 * n) = ofCells (cells.drop n) := by
  have hcells : ofCells cells = ofCells (cells.take n) ++ ofCells (cells.drop n) := by
    rw [ofCells, ofCells, ofCells, ← List.flatMap_append, List.take_append_drop]
  rw [← List.take_append_drop (4 * n) (ofCells cells), take_ofCells] at hcells
  exact List.append_cancel_left hcells

/-! ## Reading cells -/

theorem cellAt?_eq (value : Bytes) (index : Nat) :
    cellAt? value index =
      if 4 * index + 4 ≤ value.length then
        some (UInt32.ofNat (BigEndian.decode ((value.drop (4 * index)).take 4)))
      else none := by
  rw [cellAt?, Bytes.slice?_eq]
  split <;> rfl

/-- The cell that four bytes spell is written as these bytes. -/
theorem encode_decode_cell (a b c d : UInt8) :
    BigEndian.encode 4 (UInt32.ofNat (BigEndian.decode [a, b, c, d])).toNat = [a, b, c, d] := by
  rw [UInt32.toNat_ofNat_of_lt' (BigEndian.decode_lt [a, b, c, d])]
  exact BigEndian.encode_decode [a, b, c, d]

theorem cells?_eq_some_iff {value : Bytes} {cells : List UInt32} :
    cells? value = some cells ↔ ofCells cells = value := by
  constructor
  · intro h
    induction value using cells?.induct generalizing cells with
    | case1 =>
      rw [cells?, Option.some.injEq] at h
      subst h
      rfl
    | case2 a b c d rest ih =>
      rw [cells?] at h
      obtain ⟨others, hothers, rfl⟩ := Option.map_eq_some_iff.1 h
      rw [ofCells_cons, encode_decode_cell, ih hothers]
      rfl
    | case3 value hnil hcons =>
      rw [cells?] at h
      · cases h
      · exact hnil
      · exact hcons
  · rintro rfl
    induction cells with
    | nil => rfl
    | cons cell rest ih =>
      obtain ⟨a, b, c, d, hcell⟩ : ∃ a b c d, BigEndian.encode 4 cell.toNat = [a, b, c, d] :=
        ⟨_, _, _, _, rfl⟩
      have hdecode : UInt32.ofNat (BigEndian.decode [a, b, c, d]) = cell := by
        rw [← hcell, BigEndian.decode_encode cell.toNat_lt, UInt32.ofNat_toNat]
      rw [ofCells_cons, hcell]
      simp only [List.cons_append, List.nil_append, cells?, ih, Option.map_some, hdecode]

theorem exists_cells?_iff {value : Bytes} :
    (∃ cells, cells? value = some cells) ↔ value.length % 4 = 0 := by
  constructor
  · rintro ⟨cells, h⟩
    rw [← cells?_eq_some_iff.1 h, length_ofCells]
    exact Nat.mul_mod_right 4 _
  · intro h
    induction value using cells?.induct with
    | case1 => exact ⟨[], rfl⟩
    | case2 a b c d rest ih =>
      have hrest : rest.length % 4 = 0 := by
        simp only [List.length_cons] at h
        omega
      obtain ⟨cells, hcells⟩ := ih hrest
      exact ⟨_, by rw [cells?, hcells, Option.map_some]⟩
    | case3 value hnil hcons =>
      exfalso
      rcases value with _ | ⟨a, _ | ⟨b, _ | ⟨c, _ | ⟨d, rest⟩⟩⟩⟩
      · exact hnil rfl
      · cases h
      · cases h
      · cases h
      · exact hcons a b c d rest rfl

/-- The number in at most two cells is the number that their bytes spell. -/
theorem numberOfCells?_eq_decode {cells : List UInt32} (h : cells.length ≤ 2) :
    numberOfCells? cells = some (BigEndian.decode (ofCells cells)) := by
  match cells with
  | [] => rfl
  | [low] =>
    rw [numberOfCells?, ofCells, List.flatMap_singleton, BigEndian.decode_encode low.toNat_lt]
  | [high, low] =>
    have hcapacity : Bytes.capacity 4 = UInt32.size := rfl
    rw [numberOfCells?, ofCells_cons, ofCells, List.flatMap_singleton, BigEndian.decode_append,
      BigEndian.length_encode, BigEndian.decode_encode high.toNat_lt,
      BigEndian.decode_encode low.toNat_lt, hcapacity]
  | _ :: _ :: _ :: _ => simp at h

end PropertyValue
end RiscvTables
