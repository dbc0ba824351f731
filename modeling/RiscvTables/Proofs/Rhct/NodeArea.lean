import RiscvTables.Proofs.Rhct.Positions

/-!
# The bytes that are read as nodes

A table says in its header where its nodes start.  From there on the nodes leave out no byte up to
the end of the last one (`Node.StandFrom.exists_covers_iff`), so it hangs on that one number
whether the header stays out of them.

The reader checks that a node ends inside the bytes, but not that it starts behind the header: a
table whose node offset points into its own header is accepted, and header bytes are read as a
node (`View.not_nodes_behind_header`).  What holds is that the nodes keep to their area exactly if
the node offset does, and that it does in every table from the generator
(`View.nodes_behind_header_iff`).
-/

set_option autoImplicit false

namespace RiscvTables
namespace Rhct

/-! ## The bytes of nodes -/

namespace Node

/-- A byte belongs to a node that starts at it or before it and ends behind it. -/
def Covers (data : Bytes) (node : Node) (i : Nat) : Prop :=
  node.offset.toNat ≤ i ∧ i < node.offset.toNat + node.lengthIn data

/-- The end of nodes that stand one behind the other from an offset on. -/
def areaEnd (data : Bytes) : Nat → List Node → Nat
  | start, [] => start
  | start, node :: rest => areaEnd data (start + node.lengthIn data) rest

theorem le_areaEnd (data : Bytes) (start : Nat) (nodes : List Node) :
    start ≤ areaEnd data start nodes := by
  induction nodes generalizing start with
  | nil => exact Nat.le_refl start
  | cons node rest ih => exact Nat.le_trans (Nat.le_add_right _ _) (ih _)

namespace StandFrom

variable {data : Bytes} {start : Nat} {nodes : List Node}

theorem areaEnd_le (h : StandFrom data start nodes) (hne : nodes ≠ []) :
    areaEnd data start nodes ≤ data.length := by
  induction nodes generalizing start with
  | nil => exact absurd rfl hne
  | cons first rest ih =>
    obtain ⟨hfirst, hrest⟩ := h
    rw [areaEnd]
    cases rest with
    | nil => exact hfirst.inside
    | cons second others => exact ih hrest (List.cons_ne_nil second others)

/-- **Nodes leave out no byte between the first of them and their end.** -/
theorem exists_covers_iff (h : StandFrom data start nodes) {i : Nat} :
    (∃ node ∈ nodes, node.Covers data i) ↔ start ≤ i ∧ i < areaEnd data start nodes := by
  induction nodes generalizing start with
  | nil => simp [areaEnd]
  | cons first rest ih =>
    obtain ⟨hfirst, hrest⟩ := h
    have hstop := le_areaEnd data (start + first.lengthIn data) rest
    rw [List.exists_mem_cons_iff, ih hrest, Covers, hfirst.offset, areaEnd]
    omega

/-- The first of some nodes covers the offset they start at. -/
theorem exists_covers_start (h : StandFrom data start nodes) (hne : nodes ≠ []) :
    ∃ node ∈ nodes, node.offset.toNat = start ∧ node.Covers data start := by
  cases nodes with
  | nil => exact absurd rfl hne
  | cons first rest =>
    have hoffset := h.1.offset
    have hheader := h.1.header
    rw [nodeHeaderSize] at hheader
    exact ⟨first, List.mem_cons_self, hoffset, by rw [Covers, hoffset]; omega⟩

end StandFrom
end Node

/-! ## Nodes and the header -/

namespace View

/-- No node starts in the header. -/
def StartBehindHeader (view : View) : Prop :=
  ∀ node ∈ view.nodes, tableHeaderSize ≤ node.offset.toNat

/-- No byte of the header is read as part of a node. -/
def SpareHeader (view : View) (data : Bytes) : Prop :=
  ∀ i < tableHeaderSize, ¬ ∃ node ∈ view.nodes, node.Covers data i

section Sound

variable {view : View} {data : Bytes}

theorem Sound.startBehindHeader (h : view.Sound data)
    (hoffset : tableHeaderSize ≤ view.nodeOffset.toNat) : view.StartBehindHeader :=
  fun _ hnode => Nat.le_trans hoffset (h.nodes.standsAt_of_mem hnode).1

theorem Sound.spareHeader (h : view.Sound data)
    (hoffset : tableHeaderSize ≤ view.nodeOffset.toNat) : view.SpareHeader data := by
  intro i hi hcovered
  have hstart := (h.nodes.exists_covers_iff.1 hcovered).1
  omega

theorem Sound.startBehindHeader_iff (h : view.Sound data) (hne : view.nodes ≠ []) :
    view.StartBehindHeader ↔ tableHeaderSize ≤ view.nodeOffset.toNat := by
  refine ⟨fun hbehind => ?_, h.startBehindHeader⟩
  obtain ⟨first, hfirst, hoffset, -⟩ := h.nodes.exists_covers_start hne
  exact hoffset ▸ hbehind first hfirst

theorem Sound.spareHeader_iff (h : view.Sound data) (hne : view.nodes ≠ []) :
    view.SpareHeader data ↔ tableHeaderSize ≤ view.nodeOffset.toNat := by
  refine ⟨fun hspare => ?_, h.spareHeader⟩
  by_contra hlt
  obtain ⟨first, hfirst, -, hcovers⟩ := h.nodes.exists_covers_start hne
  exact hspare _ (Nat.not_le.1 hlt) ⟨first, hfirst, hcovers⟩

end Sound

/-- **Where the nodes of an accepted table are.**  They take up the bytes from the node offset on
without a gap, and end inside the table; so they keep out of the header exactly if the node offset
does.  In a table from the generator it does. -/
theorem nodes_behind_header_iff {data : Bytes} {view : View} (hparse : parse data = .ok view)
    (hne : view.nodes ≠ []) :
    (∀ i, (∃ node ∈ view.nodes, node.Covers data i) ↔ view.nodeOffset.toNat ≤ i ∧
      i < Node.areaEnd data view.nodeOffset.toNat view.nodes) ∧
    Node.areaEnd data view.nodeOffset.toNat view.nodes ≤ data.length ∧
    (view.StartBehindHeader ↔ tableHeaderSize ≤ view.nodeOffset.toNat) ∧
    (view.SpareHeader data ↔ tableHeaderSize ≤ view.nodeOffset.toNat) ∧
    ∀ info store previous,
      (Generator.buildTable ⟨stampIdentity, previous⟩ info store).1 = .ok data →
      (∀ record ∈ store.fetchAll IsaRecord, 0 ∉ Utf8.encode record.isa) →
        view.StartBehindHeader ∧ view.SpareHeader data := by
  have hsound := sound_of_parse hparse
  refine ⟨fun i => hsound.nodes.exists_covers_iff, hsound.nodes.areaEnd_le hne,
    hsound.startBehindHeader_iff hne, hsound.spareHeader_iff hne, ?_⟩
  intro info store previous hbuild hisa
  rw [Generator.buildTable] at hbuild
  split at hbuild
  next => cases hbuild
  next built index hbuilt =>
    obtain rfl := Except.ok.inj hbuild
    obtain ⟨inputs, -, hbuiltView, -⟩ := parse_of_build hbuilt hisa
    obtain rfl := Except.ok.inj (hparse.symm.trans hbuiltView)
    have hoffset : tableHeaderSize ≤ (inputs.view info).nodeOffset.toNat := by
      rw [(inputs.describes_view info).nodeOffset]
      decide
    exact ⟨hsound.startBehindHeader hoffset, hsound.spareHeader hoffset⟩

/-! ## A table that is read into its header -/

/-- A table of no more than its header.  Its node offset is 36, where its flags spell the type and
the length of a cache-block node. -/
def headerOnlyTable : Bytes :=
  finalizeChecksum <|
    signature.toList ++ LittleEndian.encode 4 56 ++ [1, 0] ++ Utf8.encode "HARTCPHARTCAP " ++
      LittleEndian.encode 4 1 ++ Utf8.encode "HCAP" ++ LittleEndian.encode 4 1 ++
      LittleEndian.encode 4 0x140001 ++ LittleEndian.encode 8 10000000 ++
      LittleEndian.encode 4 1 ++ LittleEndian.encode 4 36

theorem exists_parse_headerOnlyTable :
    ∃ view, parse headerOnlyTable = .ok view ∧ view.nodeOffset = 36 ∧
      view.nodes = [⟨36, 1, 0x9680, .cacheBlocks 0 0 0⟩] := by
  have hread : (parse headerOnlyTable).toOption.any fun view =>
      decide (view.nodeOffset = 36 ∧ view.nodes = [⟨36, 1, 0x9680, .cacheBlocks 0 0 0⟩]) := by
    decide +kernel
  obtain ⟨view, hparse, hview⟩ := Except.exists_ok_of_any hread
  exact ⟨view, hparse, of_decide_eq_true hview⟩

/-- The nodes of an accepted table need not start behind its header. -/
theorem not_nodes_behind_header :
    ¬ ∀ data view, parse data = .ok view → view.nodes ≠ [] → view.StartBehindHeader := by
  intro hall
  obtain ⟨view, hparse, -, hnodes⟩ := exists_parse_headerOnlyTable
  have hne : view.nodes ≠ [] := hnodes ▸ List.cons_ne_nil _ _
  have hbehind := hall _ view hparse hne ⟨36, 1, 0x9680, .cacheBlocks 0 0 0⟩
    (hnodes ▸ List.mem_cons_self)
  exact absurd hbehind (by decide)

/-- In the one table bytes of the header are read as a node, in the other they are not. -/
theorem nodes_behind_header_headerOnlyTable :
    (∃ view, parse headerOnlyTable = .ok view ∧ view.nodes ≠ [] ∧
      ¬ view.StartBehindHeader ∧ ¬ view.SpareHeader headerOnlyTable) ∧
    ∃ table view, (Generator.buildTable ⟨stampIdentity, none⟩ sampleInfo sampleStore).1 =
      .ok table ∧ parse table = .ok view ∧ view.nodes ≠ [] ∧
      view.StartBehindHeader ∧ view.SpareHeader table := by
  constructor
  · obtain ⟨view, hparse, hoffset, hnodes⟩ := exists_parse_headerOnlyTable
    have hne : view.nodes ≠ [] := hnodes ▸ List.cons_ne_nil _ _
    have hinside : ¬ tableHeaderSize ≤ view.nodeOffset.toNat := by
      rw [hoffset]
      decide
    obtain ⟨-, -, hstart, hspare, -⟩ := nodes_behind_header_iff hparse hne
    exact ⟨view, hparse, hne, hstart.not.2 hinside, hspare.not.2 hinside⟩
  · obtain ⟨table, index, hbuild⟩ := exists_sampleTable
    obtain ⟨inputs, hfetch, hparse, -⟩ := parse_of_build hbuild isa_sampleStore
    have hne : (inputs.view sampleInfo).nodes ≠ [] := by
      intro hnil
      have hbodies := (inputs.describes_view sampleInfo).bodies
      rw [hnil, List.map_nil, eq_comm, List.append_eq_nil_iff, List.map_eq_nil_iff] at hbodies
      exact (Inputs.fetch_eq_ok_iff.1 hfetch).2.2.2.2 hbodies.2
    have hgenerator :
        (Generator.buildTable ⟨stampIdentity, none⟩ sampleInfo sampleStore).1 = .ok table := by
      rw [Generator.buildTable, hbuild]
    obtain ⟨-, -, -, -, hbehind⟩ := nodes_behind_header_iff hparse hne
    obtain ⟨hstart, hspare⟩ := hbehind sampleInfo sampleStore none hgenerator isa_sampleStore
    exact ⟨table, _, hgenerator, hparse, hne, hstart, hspare⟩

end View
end Rhct
end RiscvTables
