import RiscvTables.Proofs.Topology.Controllers
import RiscvTables.Proofs.Topology.Independence
import RiscvTables.Proofs.Topology.Rewiring

/-!
# Which page a hart gets

The pages of an IMSIC are those of its regions, one region after the other (`pagesOf`), and the
n-th page goes to the hart that the n-th wire leads to (`PageGoesTo`).  There may be more pages
than wires or more wires than pages, and wires that lead to one hart: of the pages that go to a
hart the last one counts, and a hart that no page goes to keeps its interrupt file.

`Assigns` says what that makes of a hart table, and `Reachable.assigns_of_resolveReceiver` that
the receiver does this and nothing else.  The wires behind the last page are not followed, so they
may lead nowhere (`ReadsFirst`).  Pages never share an address if the regions do not, whatever the
wires say.
-/

set_option autoImplicit false

namespace RiscvTables

/-! ## Regions -/

namespace Region

/-- The addresses of a region. -/
def Holds (region : Region) (address : Nat) : Prop :=
  region.address ≤ address ∧ address < region.address + region.size

/-- Every address of the first region is one of the second. -/
def Within (inner outer : Region) : Prop :=
  ∀ address, inner.Holds address → outer.Holds address

/-- No address of the first region is one of the second. -/
def Disjoint (first second : Region) : Prop :=
  ∀ address, first.Holds address → ¬ second.Holds address

/-- The region of the page at an address. -/
def page (address : Nat) : Region := ⟨address, 4096⟩

/-- Where the pages of a region start.  What is left behind the last whole page is no page. -/
def pages (region : Region) : List Nat :=
  (List.range (region.size / 4096)).map fun k => region.address + 4096 * k

variable {first second first' second' region : Region} {address : Nat}

theorem Disjoint.symm (h : first.Disjoint second) : second.Disjoint first :=
  fun address hsecond hfirst => h address hfirst hsecond

theorem Disjoint.of_within (h : first.Disjoint second) (hfirst : first'.Within first)
    (hsecond : second'.Within second) : first'.Disjoint second' :=
  fun address hin hin' => h address (hfirst address hin) (hsecond address hin')

theorem page_within (h : address ∈ region.pages) : (page address).Within region := by
  obtain ⟨k, hk, rfl⟩ := List.mem_map.1 h
  rw [List.mem_range] at hk
  rintro other ⟨hlow, hhigh⟩
  simp only [page] at hlow hhigh
  exact ⟨by omega, by omega⟩

/-- The pages of one region lie one behind the other. -/
theorem pairwise_pages (region : Region) :
    region.pages.Pairwise fun a b => (page a).Disjoint (page b) := by
  refine List.pairwise_map.2 (List.pairwise_lt_range.imp fun {k k'} hlt => ?_)
  rintro address ⟨-, hhigh⟩ ⟨hlow, -⟩
  simp only [page] at hlow hhigh
  omega

end Region

/-- Where the pages of some regions start, one region after the other. -/
def pagesOf (regions : List Region) : List Nat :=
  regions.flatMap Region.pages

variable {regions : List Region} {wires : List Wire}

theorem pageAddresses_eq_take (count : Nat) (regions : List Region) :
    pageAddresses count regions = (pagesOf regions).take count := by
  induction regions generalizing count with
  | nil => rw [pageAddresses, pagesOf, List.flatMap_nil, List.take_nil]
  | cons region rest ih =>
    have hhere : (List.range (min count (region.size / interruptFileSize))).map
        (fun page => region.address + page * interruptFileSize) = region.pages.take count := by
      rw [Region.pages, ← List.map_take, List.take_range]
      exact List.map_congr_left fun k _ => by rw [Nat.mul_comm]; rfl
    -- the count that is left behaves like the one that `take` has left behind the first region
    have hrest : count - min count (region.size / interruptFileSize) =
        count - region.pages.length := by
      rw [Region.pages, List.length_map, List.length_range, interruptFileSize]
      omega
    rw [pageAddresses, hhere, hrest, ih, pagesOf, pagesOf, List.flatMap_cons, List.take_append]

/-- Beside the wires, only as many pages as there are wires count anyway. -/
theorem zip_pageAddresses (wires : List Wire) (regions : List Region) :
    wires.zip (pageAddresses wires.length regions) = wires.zip (pagesOf regions) := by
  have hmin : min wires.length (min wires.length (pagesOf regions).length) =
      min wires.length (pagesOf regions).length := by omega
  rw [pageAddresses_eq_take, List.zip_eq_zip_take_min, List.length_take, hmin, List.take_take,
    Nat.min_eq_left (Nat.min_le_left _ _), ← List.zip_eq_zip_take_min]

theorem exists_region_of_mem_pagesOf {address : Nat} (h : address ∈ pagesOf regions) :
    ∃ region ∈ regions, (Region.page address).Within region := by
  obtain ⟨region, hregion, haddress⟩ := List.mem_flatMap.1 h
  exact ⟨region, hregion, Region.page_within haddress⟩

/-- **Pages of disjoint regions are disjoint.** -/
theorem pairwise_pagesOf (h : regions.Pairwise Region.Disjoint) :
    (pagesOf regions).Pairwise fun a b => (Region.page a).Disjoint (Region.page b) := by
  refine List.pairwise_flatMap.2 ⟨fun region _ => region.pairwise_pages, h.imp ?_⟩
  intro first second hdisjoint a ha b hb
  exact hdisjoint.of_within (Region.page_within ha) (Region.page_within hb)

theorem disjoint_page_of_lt (h : regions.Pairwise Region.Disjoint) {k k' page page' : Nat}
    (hpage : (pagesOf regions)[k]? = some page) (hpage' : (pagesOf regions)[k']? = some page')
    (hlt : k < k') : (Region.page page).Disjoint (Region.page page') := by
  obtain ⟨hk, rfl⟩ := List.getElem?_eq_some_iff.1 hpage
  obtain ⟨hk', rfl⟩ := List.getElem?_eq_some_iff.1 hpage'
  exact List.pairwise_iff_getElem.1 (pairwise_pagesOf h) k k' hk hk' hlt

/-! ## Pages and harts -/

/-- Lists that are related element by element are related at each position. -/
theorem exists_getElem?_of_forall₂ {α β : Type} {R : α → β → Prop} {xs : List α} {ys : List β}
    (h : List.Forall₂ R xs ys) {k : Nat} {x : α} (hx : xs[k]? = some x) :
    ∃ y, ys[k]? = some y ∧ R x y := by
  induction h generalizing k with
  | nil => cases hx
  | cons hfirst _ ih =>
    cases k with
    | zero => exact ⟨_, rfl, Option.some.inj hx ▸ hfirst⟩
    | succ k => exact ih hx

/-- After a run of pages each hart has the last one. -/
theorem PageWrite.eq_of_foldlM_apply {writes : List PageWrite} {table table' : HartTable}
    (h : writes.foldlM PageWrite.apply table = .ok table') :
    table' = ⟨table.entries.map (HartTable.afterWrites (·.hartId) PageWrite.assign writes)⟩ := by
  refine HartTable.eq_afterWrites_of_foldlM (·.hartId) PageWrite.assign
    (fun table write next hnext => ?_) (fun _ _ => rfl) (fun _ _ _ => rfl) h
  exact (HartTable.setInterruptFile_eq_ok_iff.1 hnext).2

namespace DeviceTree

variable (tree : DeviceTree)

/-- The page at a position goes to the hart that the wire at this position leads to. -/
structure PageGoesTo (wires : List Wire) (regions : List Region) (k page : Nat) (hartId : UInt64) :
    Prop where
  page_eq : (pagesOf regions)[k]? = some page
  leads : ∃ wire node, wires[k]? = some wire ∧ tree.LeadsTo wire.phandle node hartId

/-- The last page that goes to a hart becomes its interrupt file.  A hart that none goes to keeps
what it has. -/
def TakesLastPage (wires : List Wire) (regions : List Region) (entry entry' : HartEntry) : Prop :=
  (∃ (k page : Nat) (base : UInt64), tree.PageGoesTo wires regions k page entry.record.hartId ∧
    (∀ k' page', tree.PageGoesTo wires regions k' page' entry.record.hartId → k' ≤ k) ∧
      base.toNat = page ∧ entry' = entry.withInterruptFile base 4096) ∨
  (∀ k page, ¬ tree.PageGoesTo wires regions k page entry.record.hartId) ∧ entry' = entry

/-- The pages of an IMSIC with these wires and regions turn the first table into the second. -/
structure Assigns (wires : List Wire) (regions : List Region) (table table' : HartTable) :
    Prop where
  /-- Every wire that has a page leads to a hart of the table. -/
  known : ∀ k < min (pagesOf regions).length wires.length, ∃ page hartId,
    tree.PageGoesTo wires regions k page hartId ∧ hartId ∈ table.records.map (·.hartId)
  entries : List.Forall₂ (tree.TakesLastPage wires regions) table.entries table'.entries
  within : ∀ k page hartId, tree.PageGoesTo wires regions k page hartId →
    ∃ region ∈ regions, (Region.page page).Within region
  disjoint : regions.Pairwise Region.Disjoint → ∀ k page hartId k' page' hartId',
    tree.PageGoesTo wires regions k page hartId →
    tree.PageGoesTo wires regions k' page' hartId' →
    hartId ≠ hartId' → (Region.page page).Disjoint (Region.page page')

/-- The receiver at a node reads its first `count` wires, and of the others only how many there
are, and the first level: whatever wires stand behind instead, its run is the same. -/
def ReadsFirst (count : Nat) (node : NodeId) (wires : List Wire) (table : HartTable) : Prop :=
  ∀ value tree' wires', tree.setProperty node "interrupts-extended" value = .ok tree' →
    tree'.wires? node = .ok (some wires') →
    wires'.length = wires.length →
    wires'.head?.map (·.level) = wires.head?.map (·.level) →
    wires'.take count = wires.take count →
    tree'.resolveReceiver table = tree.resolveReceiver table

variable {tree} {table table' : HartTable} {entries : List PageWrite}

theorem LeadsTo.hartId_eq_of_phandle {phandle : UInt32} {node node' : NodeId}
    {hartId hartId' : UInt64} (h : tree.LeadsTo phandle node hartId)
    (h' : tree.LeadsTo phandle node' hartId') : hartId = hartId' := by
  obtain ⟨⟨controller, howner, hparent⟩, -, hid⟩ := h
  obtain rfl := h'.node_eq howner hparent
  exact Except.ok.inj (hid.symm.trans h'.hartId_eq)

theorem PageGoesTo.hartId_eq {k page page' : Nat} {hartId hartId' : UInt64}
    (h : tree.PageGoesTo wires regions k page hartId)
    (h' : tree.PageGoesTo wires regions k page' hartId') : hartId = hartId' := by
  obtain ⟨wire, node, hwire, hleads⟩ := h.leads
  obtain ⟨wire', node', hwire', hleads'⟩ := h'.leads
  obtain rfl := Option.some.inj (hwire.symm.trans hwire')
  exact hleads.hartId_eq_of_phandle hleads'

theorem PageGoesTo.mem_take {k page : Nat} {hartId : UInt64}
    (h : tree.PageGoesTo wires regions k page hartId) :
    page ∈ (pagesOf regions).take wires.length := by
  obtain ⟨wire, node, hwire, -⟩ := h.leads
  refine List.mem_of_getElem? (i := k) ?_
  rw [List.getElem?_take_of_lt (List.getElem?_eq_some_iff.1 hwire).1, h.page_eq]

/-! ### From the wires to the writes -/

section Writes

variable (h : List.Forall₂ tree.GivenTo (wires.zip (pagesOf regions)) entries)
include h

theorem exists_write_of_pageGoesTo {k page : Nat} {hartId : UInt64}
    (hgoes : tree.PageGoesTo wires regions k page hartId) :
    ∃ write, entries[k]? = some write ∧ write.hartId = hartId ∧
      write.base = UInt64.ofNat page := by
  obtain ⟨wire, node, hwire, hleads⟩ := hgoes.leads
  have hzip : (wires.zip (pagesOf regions))[k]? = some (wire, page) :=
    List.getElem?_zip_eq_some.2 ⟨hwire, hgoes.page_eq⟩
  obtain ⟨write, hwrite, hgiven⟩ := exists_getElem?_of_forall₂ h hzip
  obtain ⟨above, habove⟩ := hgiven.leads
  rw [hgiven.phandle_eq] at habove
  exact ⟨write, hwrite, habove.hartId_eq_of_phandle hleads, hgiven.base_eq⟩

theorem exists_pageGoesTo_of_write {k : Nat} {write : PageWrite}
    (hwrite : entries[k]? = some write) :
    ∃ page, tree.PageGoesTo wires regions k page write.hartId ∧
      write.base = UInt64.ofNat page := by
  obtain ⟨⟨wire, page⟩, hzip, hgiven⟩ := exists_getElem?_of_forall₂ h.flip hwrite
  obtain ⟨hwire, hpage⟩ := List.getElem?_zip_eq_some.1 hzip
  obtain ⟨node, hnode⟩ := hgiven.leads
  rw [hgiven.phandle_eq] at hnode
  exact ⟨page, ⟨hpage, wire, node, hwire, hnode⟩, hgiven.base_eq⟩

/-- What the writes leave of an entry, in terms of the pages. -/
theorem takesLastPage_afterWrites
    (hfits : ∀ page ∈ (pagesOf regions).take wires.length, page < UInt64.size)
    (entry : HartEntry) :
    tree.TakesLastPage wires regions entry
      (HartTable.afterWrites (·.hartId) PageWrite.assign entries entry) := by
  rcases HartTable.afterWrites_eq (·.hartId) PageWrite.assign entries entry with
    ⟨k, write, hwrite, hhart, hlast, hafter⟩ | ⟨hnone, hafter⟩
  · obtain ⟨page, hgoes, hbase⟩ := exists_pageGoesTo_of_write h hwrite
    rw [hhart] at hgoes
    refine .inl ⟨k, page, write.base, hgoes, fun k' page' hgoes' => ?_, ?_, hafter⟩
    -- another page for the hart is another write to it, and so not behind the one that counts
    · obtain ⟨later, hlater, hsame, -⟩ := exists_write_of_pageGoesTo h hgoes'
      exact hlast k' later hlater hsame
    · rw [hbase, UInt64.toNat_ofNat_of_lt' (hfits page hgoes.mem_take)]
  · refine .inr ⟨fun k page hgoes => ?_, hafter⟩
    obtain ⟨write, hwrite, hhart, -⟩ := exists_write_of_pageGoesTo h hgoes
    exact hnone write (List.mem_of_getElem? hwrite) hhart

/-- **What a run of pages does to a table that takes all of them.** -/
theorem assigns_of_foldlM (hrun : entries.foldlM PageWrite.apply table = .ok table')
    (hfits : ∀ page ∈ (pagesOf regions).take wires.length, page < UInt64.size) :
    tree.Assigns wires regions table table' where
  known := by
    intro k hk
    have hwrites : k < entries.length := by
      rw [← h.length_eq, List.length_zip]
      omega
    obtain ⟨page, hgoes, -⟩ := exists_pageGoesTo_of_write h (List.getElem?_eq_getElem hwrites)
    exact ⟨page, _, hgoes, hartId_mem_of_foldlM_apply hrun _ (List.getElem_mem hwrites)⟩
  entries := by
    rw [PageWrite.eq_of_foldlM_apply hrun, List.forall₂_map_right_iff, List.forall₂_same]
    exact fun entry _ => takesLastPage_afterWrites h hfits entry
  within := by
    intro k page hartId hgoes
    exact exists_region_of_mem_pagesOf (List.mem_of_getElem? hgoes.page_eq)
  disjoint := by
    intro hregions k page hartId k' page' hartId' hgoes hgoes' hne
    rcases Nat.lt_trichotomy k k' with hlt | rfl | hlt
    · exact disjoint_page_of_lt hregions hgoes.page_eq hgoes'.page_eq hlt
    · exact absurd (hgoes.hartId_eq hgoes') hne
    · exact (disjoint_page_of_lt hregions hgoes'.page_eq hgoes.page_eq hlt).symm

end Writes

/-! ## Wires that are not read -/

variable {tree' : DeviceTree} {receiver : Receiver} {nodes : List NodeId} {wires' : List Wire}

/-- A node that delivers elsewhere is not the receiver, and says the same after this one has been
rewired. -/
theorem Rewired.deliversElsewhere (h : Rewired receiver.node tree tree')
    (hdescribes : tree.Describes receiver wires regions) {node : NodeId}
    (hnode : tree.DeliversElsewhere node) : tree'.DeliversElsewhere node := by
  obtain ⟨first, rest, hread, hlevel⟩ := hnode
  have hne : node ≠ receiver.node := by
    rintro rfl
    have hwires : some (first :: rest) = some wires :=
      Except.ok.inj (hread.symm.trans hdescribes.wires?_eq)
    obtain rfl := Option.some.inj hwires
    exact hlevel (Option.some.inj hdescribes.level_eq)
  exact ⟨first, rest, (h.wires? hne).trans hread, hlevel⟩

/-- **The wires behind the last page are not read.** -/
theorem readsFirst_of_receiverAmong
    (hfirst : tree.IsFirstAmong (tree.compatibleNodes "riscv,imsics") receiver.node)
    (hdescribes : tree.Describes receiver wires regions)
    (hpages : tree.emitPages receiver wires regions = ⟨entries, .ok ()⟩) (table : HartTable) :
    tree.ReadsFirst (min (pagesOf regions).length wires.length) receiver.node wires table := by
  intro value tree' wires' hset hread hlength hlevel htake
  have hrewired := rewired_of_setProperty hset
  have hfirst' : tree'.IsFirstAmong (tree'.compatibleNodes "riscv,imsics") receiver.node := by
    obtain ⟨before, after, hnodes, hbefore⟩ := hfirst
    rw [hrewired.compatibleNodes]
    exact ⟨before, after, hnodes, fun node hnode =>
      hrewired.deliversElsewhere hdescribes (hbefore node hnode)⟩
  have hdescribes' : tree'.Describes receiver wires' regions := by
    refine ⟨hread, hlevel.trans hdescribes.level_eq, ?_, ?_⟩
    · rw [hlength, hrewired.receiverRecord, hdescribes.record_eq]
    · rw [hrewired.regions?, hdescribes.regions?_eq]
  -- both trees put the same wires beside the same pages, so their plans are one journal
  have hpages' : tree'.emitPages receiver wires' regions = ⟨entries, .ok ()⟩ := by
    have hzip : wires'.zip (pagesOf regions) = wires.zip (pagesOf regions) := by
      rw [List.zip_eq_zip_take_min, hlength, Nat.min_comm, htake, Nat.min_comm,
        ← List.zip_eq_zip_take_min]
    rw [← hpages, emitPages, emitPages, hrewired.assignPages, zip_pageAddresses,
      zip_pageAddresses, hzip]
  have hplan : tree.planReceiver = ⟨entries, .ok (some receiver)⟩ :=
    receiverAmong_eq_ok_iff.2 (.inr ⟨receiver, wires, regions, hfirst, hdescribes, hpages, rfl⟩)
  have hplan' : tree'.planReceiver = ⟨entries, .ok (some receiver)⟩ :=
    receiverAmong_eq_ok_iff.2
      (.inr ⟨receiver, wires', regions, hfirst', hdescribes', hpages', rfl⟩)
  rw [resolveReceiver, resolveReceiver, hplan, hplan']

/-! ## The receiver of a tree -/

/-- **What the receiver makes of a hart table.**  It is the first IMSIC in pre-order that delivers
to supervisor mode, those before it deliver elsewhere, and each hart takes the last page that goes
to it; the wires without a page are not read.  If there is none, all deliver elsewhere, and the
table is as it was. -/
theorem Reachable.assigns_of_resolveReceiver (hreachable : tree.Reachable)
    {result : Option Receiver} (h : tree.resolveReceiver table = (table', .ok result)) :
    (result = none → table' = table ∧ ∀ node ∈ tree.preorder,
      tree.isCompatible node "riscv,imsics" → tree.DeliversElsewhere node) ∧
    ∀ receiver, result = some receiver → ∃ wires regions,
      tree.IsFirstAmong (tree.preorder.filter (tree.isCompatible · "riscv,imsics"))
        receiver.node ∧
      tree.Describes receiver wires regions ∧
      ((∀ page ∈ (pagesOf regions).take wires.length, page < UInt64.size) →
        tree.Assigns wires regions table table') ∧
      tree.ReadsFirst (min (pagesOf regions).length wires.length) receiver.node wires table := by
  obtain ⟨houtcome, hrun⟩ := Journal.carryOut_eq_ok_iff.1 h
  obtain ⟨entries, hplan⟩ := Journal.outcome_eq_ok_iff.1 houtcome
  rw [hplan] at hrun
  rw [← hreachable.wellFormed.nodeList_eq_preorder]
  rcases receiverAmong_eq_ok_iff.1 hplan with
    ⟨hall, rfl, rfl⟩ | ⟨receiver, wires, regions, hfirst, hdescribes, hpages, rfl⟩
  · refine ⟨fun _ => ⟨(Except.pure_eq_ok_iff.1 hrun).symm, fun node hnode hmodel => ?_⟩, nofun⟩
    exact hall node (List.mem_filter.2 ⟨hnode, hmodel⟩)
  · refine ⟨nofun, fun _ hsome => ?_⟩
    obtain rfl := Option.some.inj hsome
    have hgiven : List.Forall₂ tree.GivenTo (wires.zip (pagesOf regions)) entries := by
      rw [← zip_pageAddresses]
      exact assignPages_eq_ok_iff.1 hpages
    exact ⟨wires, regions, hfirst, hdescribes, assigns_of_foldlM hgiven hrun,
      readsFirst_of_receiverAmong hfirst hdescribes hpages table⟩

/-! ## A board with too few pages -/

/-- The edits of a board with two cpus and two IMSICs, the first of them for machine mode.  The
second has three pages in two regions, one of which ends with half a page, and five wires.  The
third wire leads to the cpu of the first, and the fourth leads nowhere. -/
def crowdedBoardEdits : List Edit :=
  [.addNode NodeId.root "cpus", .setProperty 1 "#address-cells" (PropertyValue.ofCells [1]),
    .addNode 1 "cpu@0", .addNode 2 "interrupt-controller",
    .setProperty 2 "reg" (PropertyValue.ofCells [0]),
    .setProperty 3 "phandle" (PropertyValue.ofCells [1]),
    .addNode 1 "cpu@1", .addNode 4 "interrupt-controller",
    .setProperty 4 "reg" (PropertyValue.ofCells [1]),
    .setProperty 5 "phandle" (PropertyValue.ofCells [2]),
    .addNode NodeId.root "imsics@24000000",
    .setProperty 6 "compatible" (PropertyValue.ofStrings ["riscv,imsics"]),
    .setProperty 6 "interrupts-extended" (PropertyValue.ofCells [1, 11, 2, 11]),
    .addNode NodeId.root "imsics@28000000",
    .setProperty 7 "compatible" (PropertyValue.ofStrings ["riscv,imsics"]),
    .setProperty 7 "riscv,num-ids" (PropertyValue.ofCells [255]),
    .setProperty 7 "reg"
      (PropertyValue.ofCells [0, 0x28000000, 0x1800, 0, 0x29000000, 0x2000]),
    .setProperty 7 "interrupts-extended"
      (PropertyValue.ofCells [1, 9, 2, 9, 1, 9, 7, 9, 2, 9])]

/-- The regions of the second IMSIC. -/
def crowdedRegions : List Region :=
  [⟨0x28000000, 0x1800⟩, ⟨0x29000000, 0x2000⟩]

example : pagesOf crowdedRegions = [0x28000000, 0x29000000, 0x29001000] := by decide +kernel

/-- The harts of the board. -/
def crowdedHarts : HartTable :=
  ⟨HartTable.freshEntries 0 [0, 1]⟩

/-- The first cpu takes the third page, and the second cpu the second. -/
theorem assigns_crowdedBoardEdits :
    ∃ tree table' receiver wires, ofEdits? crowdedBoardEdits = some tree ∧
      tree.resolveReceiver crowdedHarts = (table', .ok (some receiver)) ∧
      tree.Describes receiver wires crowdedRegions ∧
      tree.Assigns wires crowdedRegions crowdedHarts table' ∧
      table'.entries = [(HartRecord.fresh 0 0, 0x29001000), (HartRecord.fresh 1 1, 0x29000000)].map
        fun p => HartEntry.withInterruptFile p.2 4096 ⟨p.1, none⟩ := by
  have hruns : (ofEdits? crowdedBoardEdits).any fun tree =>
      decide ((tree.resolveReceiver crowdedHarts).2.map (Option.map (·.node)) = .ok (some 7)) &&
        decide (tree.regions? 7 = some crowdedRegions) &&
        decide ((tree.resolveReceiver crowdedHarts).1.entries =
          [(HartRecord.fresh 0 0, 0x29001000), (HartRecord.fresh 1 1, 0x29000000)].map
            fun p => HartEntry.withInterruptFile p.2 4096 ⟨p.1, none⟩) := by decide +kernel
  obtain ⟨tree, htree, hruns⟩ := (Option.any_eq_true _ _).1 hruns
  simp only [Bool.and_eq_true, decide_eq_true_eq] at hruns
  obtain ⟨⟨hnode, hregions⟩, hentries⟩ := hruns
  obtain ⟨result, hresult, hreceiver⟩ := Except.map_eq_ok_iff.1 hnode
  obtain ⟨receiver, rfl, hseven⟩ := Option.map_eq_some_iff.1 hreceiver
  have hresolved : tree.resolveReceiver crowdedHarts =
      ((tree.resolveReceiver crowdedHarts).1, .ok (some receiver)) := by rw [← hresult]
  obtain ⟨wires, regions, -, hdescribes, hassigns, -⟩ :=
    ((reachable_of_ofEdits? htree).assigns_of_resolveReceiver hresolved).2 receiver rfl
  have hsame : regions = crowdedRegions := by
    rw [← hseven] at hregions
    exact Option.some.inj (hdescribes.regions?_eq.symm.trans hregions)
  subst hsame
  refine ⟨tree, _, receiver, wires, htree, hresolved, hdescribes, hassigns ?_, hentries⟩
  have hfits : ∀ page ∈ pagesOf crowdedRegions, page < UInt64.size := by decide +kernel
  exact fun page hpage => hfits page (List.mem_of_mem_take hpage)

end DeviceTree
end RiscvTables
