import RiscvTables.Proofs.DeviceTree.Cells

/-!
# Regions and their bytes

A `reg` value is a sequence of entries of one length, and an entry is the cells of an address and
then those of a size, none, one or two of each.  `Region.decode?` cuts the value into cells and the
cells into entries; `Region.encode` writes an entry straight as bytes, and loses what does not fit
its cells.

`decode?_eq_some_iff` says that the two are one format: regions are read from a value just if they
fit their cells and the value is what they are written as.  Which values can be read is then a
question of length (`exists_decode?_iff`), since any bytes of the length of an entry are some
region.  `decode?_exact` puts the two together.
-/

set_option autoImplicit false

namespace RiscvTables
namespace Region

/-- How many cells the two numbers of an entry may have: at most two each, and not none at all. -/
structure Admits (addressCells sizeCells : Nat) : Prop where
  addressCells_le : addressCells ≤ 2
  sizeCells_le : sizeCells ≤ 2
  pos : 0 < addressCells + sizeCells

/-- The numbers of a region fit their cells. -/
structure Fits (addressCells sizeCells : Nat) (region : Region) : Prop where
  address_lt : region.address < Bytes.capacity (4 * addressCells)
  size_lt : region.size < Bytes.capacity (4 * sizeCells)

/-- The region that the bytes of an entry spell. -/
def ofEntry (addressCells : Nat) (bytes : Bytes) : Region where
  address := BigEndian.decode (bytes.take (4 * addressCells))
  size := BigEndian.decode (bytes.drop (4 * addressCells))

variable {addressCells sizeCells : Nat} {region : Region} {regions : List Region} {value : Bytes}

/-! ## One entry -/

theorem length_encode (addressCells sizeCells : Nat) (region : Region) :
    (encode addressCells sizeCells region).length = 4 * (addressCells + sizeCells) := by
  rw [encode, List.length_append, BigEndian.length_encode, BigEndian.length_encode, Nat.mul_add]

/-- **The bytes of an entry spell the one region that fits and is written as them.** -/
theorem ofEntry_eq_iff {bytes : Bytes} (h : bytes.length = 4 * (addressCells + sizeCells)) :
    ofEntry addressCells bytes = region ↔
      region.Fits addressCells sizeCells ∧ encode addressCells sizeCells region = bytes := by
  constructor
  · rintro rfl
    have haddress : (bytes.take (4 * addressCells)).length = 4 * addressCells :=
      List.length_take_of_le (by omega)
    have hsize : (bytes.drop (4 * addressCells)).length = 4 * sizeCells := by
      rw [List.length_drop]
      omega
    have haddress' := BigEndian.encode_decode (bytes.take (4 * addressCells))
    have hsize' := BigEndian.encode_decode (bytes.drop (4 * addressCells))
    have haddressLt := BigEndian.decode_lt (bytes.take (4 * addressCells))
    have hsizeLt := BigEndian.decode_lt (bytes.drop (4 * addressCells))
    rw [haddress] at haddress' haddressLt
    rw [hsize] at hsize' hsizeLt
    refine ⟨⟨haddressLt, hsizeLt⟩, ?_⟩
    rw [encode, ofEntry, haddress', hsize', List.take_append_drop]
  · rintro ⟨hfits, rfl⟩
    have hlength : (BigEndian.encode (4 * addressCells) region.address).length =
        4 * addressCells := BigEndian.length_encode _ _
    rw [ofEntry, encode, List.take_left' hlength, List.drop_left' hlength,
      BigEndian.decode_encode hfits.address_lt, BigEndian.decode_encode hfits.size_lt]

/-- The cells of an entry are the region that their bytes spell. -/
theorem ofCells?_eq {entry : List UInt32} (h : Admits addressCells sizeCells)
    (hlength : entry.length = addressCells + sizeCells) :
    ofCells? addressCells entry =
      some (ofEntry addressCells (PropertyValue.ofCells entry)) := by
  have haddress : (entry.take addressCells).length ≤ 2 := by
    rw [List.length_take]
    exact Nat.le_trans (Nat.min_le_left _ _) h.addressCells_le
  have hsize : (entry.drop addressCells).length ≤ 2 := by
    rw [List.length_drop, hlength, Nat.add_sub_cancel_left]
    exact h.sizeCells_le
  rw [ofCells?, PropertyValue.numberOfCells?_eq_decode haddress,
    PropertyValue.numberOfCells?_eq_decode hsize, ofEntry, PropertyValue.take_ofCells,
    PropertyValue.drop_ofCells]
  rfl

/-! ## Many entries -/

/-- Entries are read one after the other, and written in the same order. -/
theorem mapM_chunks_eq_some_iff (h : Admits addressCells sizeCells) {count : Nat}
    {cells : List UInt32} (hlength : cells.length = (addressCells + sizeCells) * count) :
    (chunks (addressCells + sizeCells) count cells).mapM (ofCells? addressCells) = some regions ↔
      regions.length = count ∧ (∀ region ∈ regions, region.Fits addressCells sizeCells) ∧
        regions.flatMap (encode addressCells sizeCells) = PropertyValue.ofCells cells := by
  induction count generalizing cells regions with
  | zero =>
    obtain rfl := List.length_eq_zero_iff.1 hlength
    rw [chunks, List.mapM_nil, List.length_eq_zero_iff]
    constructor
    · intro hread
      obtain rfl := Option.some.inj hread
      exact ⟨rfl, nofun, rfl⟩
    · rintro ⟨rfl, -⟩
      rfl
  | succ count ih =>
    rw [Nat.mul_succ] at hlength
    have hentry : (cells.take (addressCells + sizeCells)).length = addressCells + sizeCells :=
      List.length_take_of_le (by omega)
    have hrest : (cells.drop (addressCells + sizeCells)).length =
        (addressCells + sizeCells) * count := by
      rw [List.length_drop]
      omega
    have hbytes : (PropertyValue.ofCells (cells.take (addressCells + sizeCells))).length =
        4 * (addressCells + sizeCells) := by
      rw [PropertyValue.length_ofCells, hentry]
    have hcells : PropertyValue.ofCells cells =
        PropertyValue.ofCells (cells.take (addressCells + sizeCells)) ++
          PropertyValue.ofCells (cells.drop (addressCells + sizeCells)) := by
      rw [← PropertyValue.take_ofCells, ← PropertyValue.drop_ofCells, List.take_append_drop]
    rw [chunks, List.mapM_cons, ofCells?_eq h hentry, hcells]
    simp only [Option.bind_eq_bind, Option.bind_some, Option.pure_def, Option.bind_eq_some_iff,
      Option.some.injEq]
    constructor
    · rintro ⟨others, hothers, rfl⟩
      obtain ⟨hcount, hfits, hwritten⟩ := (ih hrest).1 hothers
      obtain ⟨hfirst, hspelled⟩ := (ofEntry_eq_iff hbytes).1 rfl
      refine ⟨congrArg Nat.succ hcount, List.forall_mem_cons.2 ⟨hfirst, hfits⟩, ?_⟩
      rw [List.flatMap_cons, hspelled, hwritten]
    · rintro ⟨hcount, hfits, hwritten⟩
      cases regions with
      | nil => cases hcount
      | cons first others =>
        rw [List.flatMap_cons] at hwritten
        obtain ⟨hspelled, hwritten⟩ :=
          List.append_inj hwritten ((length_encode _ _ first).trans hbytes.symm)
        obtain ⟨hfirst, hfits⟩ := List.forall_mem_cons.1 hfits
        have hothers := (ih hrest).2 ⟨Nat.succ.inj hcount, hfits, hwritten⟩
        rw [(ofEntry_eq_iff hbytes).2 ⟨hfirst, hspelled⟩]
        exact ⟨others, hothers, rfl⟩

theorem length_flatMap_encode (addressCells sizeCells : Nat) (regions : List Region) :
    (regions.flatMap (encode addressCells sizeCells)).length =
      4 * ((addressCells + sizeCells) * regions.length) := by
  induction regions with
  | nil => rfl
  | cons first rest ih =>
    rw [List.flatMap_cons, List.length_append, length_encode, ih, List.length_cons, Nat.mul_succ]
    omega

/-- Any bytes of the length of some entries are regions. -/
theorem exists_flatMap_encode_eq {count : Nat} {bytes : Bytes}
    (h : bytes.length = 4 * (addressCells + sizeCells) * count) :
    ∃ regions : List Region, regions.length = count ∧
      (∀ region ∈ regions, region.Fits addressCells sizeCells) ∧
        regions.flatMap (encode addressCells sizeCells) = bytes := by
  induction count generalizing bytes with
  | zero => exact ⟨[], rfl, nofun, (List.length_eq_zero_iff.1 h).symm⟩
  | succ count ih =>
    rw [Nat.mul_succ] at h
    have hentry : (bytes.take (4 * (addressCells + sizeCells))).length =
        4 * (addressCells + sizeCells) := List.length_take_of_le (by omega)
    have hothers : (bytes.drop (4 * (addressCells + sizeCells))).length =
        4 * (addressCells + sizeCells) * count := by
      rw [List.length_drop]
      omega
    obtain ⟨rest, hcount, hfits, hrest⟩ := ih hothers
    obtain ⟨hfirst, hspelled⟩ := (ofEntry_eq_iff hentry).1 rfl
    refine ⟨_ :: rest, congrArg Nat.succ hcount, List.forall_mem_cons.2 ⟨hfirst, hfits⟩, ?_⟩
    rw [List.flatMap_cons, hspelled, hrest, List.take_append_drop]

/-! ## Values -/

/-- **What is read is what is written.**  Regions are read from a value if they fit their cells,
there is one at least, and the value is what they are written as. -/
theorem decode?_eq_some_iff :
    decode? value addressCells sizeCells = some regions ↔
      Admits addressCells sizeCells ∧ regions ≠ [] ∧
        (∀ region ∈ regions, region.Fits addressCells sizeCells) ∧
          regions.flatMap (encode addressCells sizeCells) = value := by
  by_cases hwidths : addressCells > 2 ∨ sizeCells > 2 ∨ addressCells + sizeCells = 0
  · rw [decode?, if_pos hwidths]
    refine iff_of_false nofun fun h => ?_
    have := h.1.addressCells_le
    have := h.1.sizeCells_le
    have := h.1.pos
    omega
  · have hadmits : Admits addressCells sizeCells := ⟨by omega, by omega, by omega⟩
    rw [decode?, if_neg hwidths]
    constructor
    · intro h
      obtain ⟨cells, hcells, h⟩ := Option.bind_eq_some_iff.1 h
      split at h
      next => cases h
      next hwhole =>
        rw [not_or, Decidable.not_not] at hwhole
        have hlength := (Nat.mul_div_cancel' (Nat.dvd_of_mod_eq_zero hwhole.2)).symm
        obtain ⟨hcount, hfits, hwritten⟩ := (mapM_chunks_eq_some_iff hadmits hlength).1 h
        refine ⟨hadmits, ?_, hfits, hwritten.trans (PropertyValue.cells?_eq_some_iff.1 hcells)⟩
        rintro rfl
        rw [← hcount, List.length_nil, Nat.mul_zero] at hlength
        exact hwhole.1 (List.length_eq_zero_iff.1 hlength)
    · rintro ⟨-, hne, hfits, rfl⟩
      have hbytes := length_flatMap_encode addressCells sizeCells regions
      obtain ⟨cells, hcells⟩ := PropertyValue.exists_cells?_iff.2
        (show (regions.flatMap (encode addressCells sizeCells)).length % 4 = 0 by omega)
      have hwritten := PropertyValue.cells?_eq_some_iff.1 hcells
      have hlength : cells.length = (addressCells + sizeCells) * regions.length := by
        rw [← hwritten, PropertyValue.length_ofCells] at hbytes
        omega
      have hcount : cells.length / (addressCells + sizeCells) = regions.length := by
        rw [hlength, Nat.mul_div_cancel_left _ hadmits.pos]
      refine Option.bind_eq_some_iff.2 ⟨cells, hcells, ?_⟩
      rw [if_neg, hcount]
      · exact (mapM_chunks_eq_some_iff hadmits hlength).2 ⟨rfl, hfits, hwritten.symm⟩
      · rw [not_or, Decidable.not_not, hlength, Nat.mul_mod_right]
        refine ⟨?_, rfl⟩
        rintro rfl
        exact Nat.mul_ne_zero (Nat.ne_of_gt hadmits.pos) (mt List.length_eq_zero_iff.1 hne)
          hlength.symm

/-- **Which values are regions** is a question of their length. -/
theorem exists_decode?_iff :
    (∃ regions, decode? value addressCells sizeCells = some regions) ↔
      Admits addressCells sizeCells ∧ value.length ≠ 0 ∧
        4 * (addressCells + sizeCells) ∣ value.length := by
  constructor
  · rintro ⟨regions, h⟩
    obtain ⟨hadmits, hne, -, rfl⟩ := decode?_eq_some_iff.1 h
    have hpos := hadmits.pos
    rw [length_flatMap_encode, ← Nat.mul_assoc]
    exact ⟨hadmits, Nat.mul_ne_zero (by omega) (mt List.length_eq_zero_iff.1 hne),
      Nat.dvd_mul_right _ _⟩
  · rintro ⟨hadmits, hne, count, hlength⟩
    obtain ⟨regions, hcount, hfits, hwritten⟩ := exists_flatMap_encode_eq hlength
    refine ⟨regions, decode?_eq_some_iff.2 ⟨hadmits, ?_, hfits, hwritten⟩⟩
    rintro rfl
    rw [hlength, ← hcount, List.length_nil, Nat.mul_zero] at hne
    exact hne rfl

/-- **Regions are read exactly, and nothing is lost.**  A value is read if its entries have cells,
not more than two for a number, and the value is a number of whole entries, not zero.  There are as
many regions as entries then, and writing them gives the value back.  Whatever regions fit such
cells are read back when they are written. -/
theorem decode?_exact (addressCells sizeCells : Nat) :
    (∀ value, (∃ regions, decode? value addressCells sizeCells = some regions) ↔
      addressCells ≤ 2 ∧ sizeCells ≤ 2 ∧ 0 < addressCells + sizeCells ∧
        value.length ≠ 0 ∧ 4 * (addressCells + sizeCells) ∣ value.length) ∧
    (∀ value regions, decode? value addressCells sizeCells = some regions →
      regions.length = value.length / (4 * (addressCells + sizeCells)) ∧
        (∀ region ∈ regions, region.Fits addressCells sizeCells) ∧
          regions.flatMap (encode addressCells sizeCells) = value) ∧
    (addressCells ≤ 2 → sizeCells ≤ 2 → 0 < addressCells + sizeCells →
      ∀ regions, regions ≠ [] → (∀ region ∈ regions, region.Fits addressCells sizeCells) →
        decode? (regions.flatMap (encode addressCells sizeCells)) addressCells sizeCells =
          some regions) := by
  refine ⟨fun value => exists_decode?_iff.trans ⟨?_, ?_⟩, fun value regions h => ?_,
    fun haddress hsize hpos regions hne hfits => ?_⟩
  · rintro ⟨hadmits, hlength⟩
    exact ⟨hadmits.addressCells_le, hadmits.sizeCells_le, hadmits.pos, hlength⟩
  · rintro ⟨haddress, hsize, hpos, hlength⟩
    exact ⟨⟨haddress, hsize, hpos⟩, hlength⟩
  · obtain ⟨hadmits, -, hfits, rfl⟩ := decode?_eq_some_iff.1 h
    have hpos := hadmits.pos
    refine ⟨?_, hfits, rfl⟩
    rw [length_flatMap_encode, ← Nat.mul_assoc, Nat.mul_div_cancel_left _ (by omega)]
  · exact decode?_eq_some_iff.2 ⟨⟨haddress, hsize, hpos⟩, hne, hfits, rfl⟩

/-- Two regions whose numbers take up all of their cells, if the size has but one. -/
def wideRegions : List Region :=
  [⟨0x280000000, 0x1000⟩, ⟨0xffffffffffffffff, 0xffffffff⟩]

/-- The regions are read back.  Cut off in an entry, their value is none, and without an address
only regions at zero are written whole. -/
theorem decode?_exact_wideRegions :
    decode? (wideRegions.flatMap (encode 2 1)) 2 1 = some wideRegions ∧
      ¬ (∃ regions, decode? ((wideRegions.flatMap (encode 2 1)).drop 4) 2 1 = some regions) ∧
      decode? (wideRegions.flatMap (encode 0 2)) 0 2 = some [⟨0, 0x1000⟩, ⟨0, 0xffffffff⟩] := by
  refine ⟨?_, fun h => ?_, ?_⟩
  · refine (decode?_exact 2 1).2.2 (by decide) (by decide) (by decide) _ (List.cons_ne_nil _ _) ?_
    exact List.forall_mem_cons.2 ⟨⟨by decide, by decide⟩,
      List.forall_mem_singleton.2 ⟨by decide, by decide⟩⟩
  · exact absurd (((decode?_exact 2 1).1 _).1 h).2.2.2.2 (by decide)
  · have hsame : wideRegions.flatMap (encode 0 2) =
        [⟨0, 0x1000⟩, ⟨0, 0xffffffff⟩].flatMap (encode 0 2) := by decide
    rw [hsame]
    refine (decode?_exact 0 2).2.2 (by decide) (by decide) (by decide) _ (List.cons_ne_nil _ _) ?_
    exact List.forall_mem_cons.2 ⟨⟨by decide, by decide⟩,
      List.forall_mem_singleton.2 ⟨by decide, by decide⟩⟩

end Region
end RiscvTables
