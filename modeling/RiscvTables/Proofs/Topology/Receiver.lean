import RiscvTables.Proofs.DeviceTree.Compatible
import RiscvTables.Proofs.Topology.Capabilities
import RiscvTables.Proofs.Topology.Journal
import RiscvTables.Topology.Receiver

/-!
# Which node is the receiver

The receiver is the first of the IMSIC nodes that delivers to supervisor mode, by the level of its
first wire.  The nodes before it have to list wires, or there is no receiver at all; whatever else
they say is not looked at.

`receiverAmong_eq_ok_iff` takes a search that ends well apart: either all nodes deliver elsewhere,
or the nodes stop at the receiver (`IsReceiver`) and what has been emitted are its pages.  The
nodes are given as a list there, and that list is what going from one IMSIC to the next gives
(`WellFormed.yields_compatibleNodes`).
-/

set_option autoImplicit false

namespace RiscvTables
namespace DeviceTree

variable (tree : DeviceTree)

/-- The node lists wires, and the first of them has another level than that of external
interrupts to supervisor mode. -/
def DeliversElsewhere (node : NodeId) : Prop :=
  ∃ first rest, tree.wires? node = .ok (some (first :: rest)) ∧ first.level ≠ 9

/-- The first of some nodes that does not deliver elsewhere. -/
def IsFirstAmong (nodes : List NodeId) (node : NodeId) : Prop :=
  ∃ before after, nodes = before ++ node :: after ∧
    ∀ earlier ∈ before, tree.DeliversElsewhere earlier

/-- The node of a receiver delivers to supervisor mode, and has these wires and regions. -/
structure Describes (receiver : Receiver) (wires : List Wire) (regions : List Region) : Prop where
  wires?_eq : tree.wires? receiver.node = .ok (some wires)
  level_eq : wires.head?.map (·.level) = some 9
  record_eq : tree.receiverRecord receiver.node wires.length = .ok receiver.record
  regions?_eq : tree.regions? receiver.node = some regions

/-- What the receiver emits: the pages of its regions, beside the wires. -/
def emitPages (receiver : Receiver) (wires : List Wire) (regions : List Region) :
    Journal PageWrite Unit :=
  tree.assignPages receiver.node (wires.zip (pageAddresses wires.length regions))

variable {tree} {node : NodeId} {rest nodes : List NodeId} {entries : List PageWrite}
  {result : Option Receiver} {wires : List Wire}

/-! ## One node -/

theorem receiverWires_eq_ok_iff :
    tree.receiverWires node = .ok wires ↔ tree.wires? node = .ok (some wires) ∧ wires ≠ [] := by
  rw [receiverWires, Except.bind_eq_ok_iff]
  constructor
  · rintro ⟨listed, hread, h⟩
    split at h
    next => cases Except.throw_ne_ok h
    next => cases Except.throw_ne_ok h
    next hne =>
      obtain rfl := Except.pure_eq_ok_iff.1 h
      exact ⟨hread, hne⟩
  · rintro ⟨hread, hne⟩
    refine ⟨some wires, hread, ?_⟩
    split
    next heq => cases heq
    next heq => exact absurd (Option.some.inj heq) hne
    next heq => exact congrArg Except.ok (Option.some.inj heq).symm

theorem Describes.receiverWires_eq {receiver : Receiver} {regions : List Region}
    (h : tree.Describes receiver wires regions) :
    tree.receiverWires receiver.node = .ok wires := by
  refine receiverWires_eq_ok_iff.2 ⟨h.wires?_eq, ?_⟩
  rintro rfl
  cases h.level_eq

theorem deliversElsewhere_iff :
    tree.DeliversElsewhere node ↔ ∃ wires, tree.receiverWires node = .ok wires ∧
      wires.head?.map (·.level) ≠ some supervisorExternal := by
  simp only [receiverWires_eq_ok_iff]
  constructor
  · rintro ⟨first, rest, hread, hlevel⟩
    exact ⟨first :: rest, ⟨hread, List.cons_ne_nil _ _⟩, fun h => hlevel (Option.some.inj h)⟩
  · rintro ⟨wires, ⟨hread, hne⟩, hlevel⟩
    cases wires with
    | nil => exact absurd rfl hne
    | cons first rest => exact ⟨first, rest, hread, fun h => hlevel (congrArg some h)⟩

/-- A node is passed over, or it is the receiver and ends the search. -/
theorem receiverAmong_cons_eq_ok_iff :
    tree.receiverAmong (node :: rest) = ⟨entries, .ok result⟩ ↔
      tree.DeliversElsewhere node ∧ tree.receiverAmong rest = ⟨entries, .ok result⟩ ∨
        ∃ receiver wires regions, receiver.node = node ∧ tree.Describes receiver wires regions ∧
          tree.emitPages receiver wires regions = ⟨entries, .ok ()⟩ ∧ some receiver = result := by
  rw [receiverAmong, Journal.liftM_bind_eq_ok_iff]
  constructor
  · rintro ⟨wires, hwires, h⟩
    split at h
    next hlevel => exact .inl ⟨deliversElsewhere_iff.2 ⟨wires, hwires, hlevel⟩, h⟩
    next hlevel =>
      obtain ⟨record, hrecord, h⟩ := Journal.liftM_bind_eq_ok_iff.1 h
      split at h
      next regions hregions =>
        obtain ⟨⟨⟩, hpages, hresult⟩ := Journal.bind_pure_eq_ok_iff.1 h
        exact .inr ⟨⟨node, record⟩, wires, regions, rfl,
          ⟨(receiverWires_eq_ok_iff.1 hwires).1, not_not.1 hlevel, hrecord, hregions⟩, hpages,
          hresult⟩
      next => cases (Journal.ofExcept_eq_ok_iff.1 h).2
  · rintro (⟨helsewhere, hrest⟩ | ⟨receiver, wires, regions, rfl, hdescribes, hpages, hresult⟩)
    · obtain ⟨wires, hwires, hlevel⟩ := deliversElsewhere_iff.1 helsewhere
      exact ⟨wires, hwires, by rwa [if_pos hlevel]⟩
    · have hlevel : wires.head?.map (·.level) = some supervisorExternal := hdescribes.level_eq
      refine ⟨wires, hdescribes.receiverWires_eq, ?_⟩
      rw [if_neg (not_not.2 hlevel), Journal.liftM_bind_eq_ok_iff]
      refine ⟨receiver.record, hdescribes.record_eq, ?_⟩
      simp only [hdescribes.regions?_eq]
      exact Journal.bind_pure_eq_ok_iff.2 ⟨(), hpages, hresult⟩

/-! ## The first of several -/

/-- **The search ends well if all nodes deliver elsewhere, or those before the receiver do.** -/
theorem receiverAmong_eq_ok_iff :
    tree.receiverAmong nodes = ⟨entries, .ok result⟩ ↔
      (∀ node ∈ nodes, tree.DeliversElsewhere node) ∧ entries = [] ∧ none = result ∨
        ∃ receiver wires regions, tree.IsFirstAmong nodes receiver.node ∧
          tree.Describes receiver wires regions ∧
          tree.emitPages receiver wires regions = ⟨entries, .ok ()⟩ ∧ some receiver = result := by
  induction nodes with
  | nil =>
    rw [receiverAmong, Journal.pure_eq_ok_iff]
    constructor
    · rintro ⟨hentries, hresult⟩
      exact .inl ⟨nofun, hentries, hresult⟩
    · rintro (⟨-, hentries, hresult⟩ | ⟨receiver, _, _, ⟨before, after, hnodes, -⟩, -⟩)
      · exact ⟨hentries, hresult⟩
      · cases before <;> cases hnodes
  | cons node rest ih =>
    rw [receiverAmong_cons_eq_ok_iff, ih]
    constructor
    · rintro (⟨hnode, ⟨hrest, hnone⟩ | ⟨receiver, wires, regions, hfirst, hfound⟩⟩ | hfound)
      · exact .inl ⟨List.forall_mem_cons.2 ⟨hnode, hrest⟩, hnone⟩
      · obtain ⟨before, after, rfl, hbefore⟩ := hfirst
        exact .inr ⟨receiver, wires, regions,
          ⟨node :: before, after, rfl, List.forall_mem_cons.2 ⟨hnode, hbefore⟩⟩, hfound⟩
      · obtain ⟨receiver, wires, regions, rfl, hfound⟩ := hfound
        exact .inr ⟨receiver, wires, regions, ⟨[], rest, rfl, nofun⟩, hfound⟩
    · rintro (⟨hall, hnone⟩ | ⟨receiver, wires, regions, ⟨before, after, hnodes, hbefore⟩, hfound⟩)
      · obtain ⟨hnode, hrest⟩ := List.forall_mem_cons.1 hall
        exact .inl ⟨hnode, .inl ⟨hrest, hnone⟩⟩
      · cases before with
        | nil =>
          obtain ⟨rfl, rfl⟩ := List.cons.inj hnodes
          exact .inr ⟨receiver, wires, regions, rfl, hfound⟩
        | cons earlier before =>
          obtain ⟨rfl, rfl⟩ := List.cons.inj hnodes
          obtain ⟨hnode, hbefore⟩ := List.forall_mem_cons.1 hbefore
          exact .inl ⟨hnode, .inr ⟨receiver, wires, regions, ⟨before, after, rfl, hbefore⟩, hfound⟩⟩

/-! ## From one node of a model to the next -/

/-- **Going from one node of a model to the next gives all of them, in pre-order, and ends.** -/
theorem WellFormed.yields_compatibleNodes (h : tree.WellFormed) (model : String) :
    Yields (tree.matchStep model) none (tree.compatibleNodes model) := by
  refine yields_filter h.yields_nodeList ?_ model
  rw [h.nodeList_eq_preorder, h.length_preorder]

end DeviceTree
end RiscvTables
