import RiscvTables.Proofs.DeviceTree.Preorder
import RiscvTables.Proofs.DeviceTree.Reachable
import RiscvTables.Proofs.Topology.Contexts
import RiscvTables.Proofs.Topology.Journal

/-!
# Which bank serves which hart

`DeviceTree.bankWiring_of_resolveBanks` is the payoff: when the banks of a tree are resolved, the
harts of the table are wired exactly as the tree says.  `BankWiring` is what the tree says, and the
resolution does not occur in it.

* The banks are the nodes of a bank family in pre-order, numbered from 0 on, each recorded with its
  family, its hardware id and its number of contexts (`BankAt`).
* A bank offers contexts to harts (`contextsOf`).  A hart gets the *last* context that any bank
  offers it, and nothing else about it changes (`wiredEntry`); that there may be several is no
  error, as long as all come from one family.
* The external id of a hart tells bank and context without truncation.

## How the proof goes

The resolution reads the tree and writes to the table in turns, bank after bank and wire after wire.
In this library that is a journal, which keeps what is to be written apart from the writing, so the
proof is in two halves that never meet before the end.

The first half is about the tree alone.  `bankNodes` and `contextsAmong` say what the banks among
some nodes are and which contexts they offer, by `filterMap` and `flatMap` over the nodes; and
`banksAmong_spec` says that a plan that succeeds has found these banks and lists these contexts, in
this order.  It is an induction over the nodes on top of one lemma for a bank (`planBank_eq_ok`),
which is on top of one for a list of wires (`wireContexts_eq_ok_iff`).  On the way the conditions
come out under which a context can be given away at all (`Gives`): the wire leads to a hart, and
bank and context fit into an external id.

The second half is about the table alone, and is in `RiscvTables.Proofs.Topology.Contexts`: what a
list of writes makes of a table, whatever the list comes from.  `settle_writeOf` joins the two, by
showing that the last write to a hart is that of the last context offered to it.

Global interrupt numbers are planned in the same pass, but they are a matter of the banks and not of
the harts; `RiscvTables.Proofs.Topology.Gsi` is about them.
-/

set_option autoImplicit false

namespace RiscvTables

/-! ## Contexts

An external id has one byte for the bank and three for the context.  Put together by shifting they
can be taken apart again if they fit, and the resolution refuses them if they do not. -/

/-- A context of the bank at a node, offered to the hart behind a phandle. -/
structure BankContext where
  node : NodeId
  family : BankFamily
  bank : Nat
  phandle : UInt32
  context : Nat

namespace BankContext

/-- The external id: the bank in the top byte, the context in the other three. -/
def externalId (c : BankContext) : UInt32 :=
  UInt32.ofNat c.bank <<< 24 ||| UInt32.ofNat c.context

/-- Bank and context fit their places in an external id. -/
def Fits (c : BankContext) : Prop :=
  c.bank ≤ 0xff ∧ c.context ≤ 0xffffff

variable {c : BankContext}

theorem Fits.toNat_externalId (h : c.Fits) :
    c.externalId.toNat = c.bank * 0x1000000 + c.context := by
  obtain ⟨hbank, hcontext⟩ := h
  have hor : c.bank <<< 24 ||| c.context = c.bank * 0x1000000 + c.context := by
    rw [← Nat.shiftLeft_add_eq_or_of_lt (show c.context < 2 ^ 24 by omega),
      Nat.shiftLeft_eq]
  have hbankNat : (UInt32.ofNat c.bank).toNat = c.bank :=
    UInt32.toNat_ofNat_of_lt' (by simp only [UInt32.size]; omega)
  have hcontextNat : (UInt32.ofNat c.context).toNat = c.context :=
    UInt32.toNat_ofNat_of_lt' (by simp only [UInt32.size]; omega)
  have hshift : (UInt32.ofNat c.bank <<< 24).toNat = c.bank <<< 24 := by
    rw [UInt32.toNat_shiftLeft, hbankNat]
    exact Nat.mod_eq_of_lt (by rw [Nat.shiftLeft_eq]; simp; omega)
  rw [externalId, UInt32.toNat_or, hshift, hcontextNat, hor]

/-- The external id is made without truncation. -/
theorem Fits.parts (h : c.Fits) :
    (c.externalId >>> 24).toNat = c.bank ∧ (c.externalId &&& 0xffffff).toNat = c.context := by
  have hnat := h.toNat_externalId
  obtain ⟨hbank, hcontext⟩ := h
  constructor
  · rw [UInt32.toNat_shiftRight, hnat]
    show (c.bank * 0x1000000 + c.context) >>> 24 = c.bank
    rw [Nat.shiftRight_eq_div_pow]
    omega
  · rw [UInt32.toNat_and, hnat]
    show (c.bank * 0x1000000 + c.context) &&& (2 ^ 24 - 1) = c.context
    rw [Nat.and_two_pow_sub_one_eq_mod]
    omega

theorem externalId_eq_ok_iff {value : UInt32} :
    RiscvTables.externalId c.bank c.context = .ok value ↔ c.Fits ∧ value = c.externalId := by
  rw [RiscvTables.externalId, Fits]
  split
  next h =>
    constructor
    · intro hvalue
      cases hvalue
    · rintro ⟨hfits, -⟩
      omega
  next h =>
    have hfits : c.Fits := ⟨by omega, by omega⟩
    have hvalue : UInt32.ofNat (c.bank * 0x1000000 + c.context) = c.externalId := by
      rw [← hfits.toNat_externalId, UInt32.ofNat_toNat]
    rw [hvalue, Except.ok.injEq, eq_comm]
    exact (and_iff_right hfits).symm

end BankContext

/-! ## What the tree says

Two conventions of the hardware are in `contextsOf`.  A PLIC has two contexts for each hart, and the
second of the pair is the supervisor's; the wires at level 9 are those of supervisors.  An APLIC has
one context for each wire.  Nodes that list no wires, or whose list makes no sense, offer nothing
here; whether a resolution accepts them is another question, which `BankAt` answers. -/

namespace DeviceTree

variable (tree : DeviceTree)

/-- The banks among some nodes, with their families. -/
def bankNodes (nodes : List NodeId) : List (NodeId × BankFamily) :=
  nodes.filterMap fun node => (tree.bankFamily? node).map fun family => (node, family)

/-- The wires that a node lists. -/
def wiresOf (node : NodeId) : List Wire :=
  match tree.wires? node with
  | .ok (some wires) => wires
  | _ => []

/-- The contexts that a bank offers.  A PLIC has a pair of contexts for every two wires, and offers
the second of the pair for each wire at level 9; an APLIC offers a context for every wire. -/
def contextsOf (node : NodeId) (family : BankFamily) (bank : Nat) : List BankContext :=
  match family with
  | .plic => ((tree.wiresOf node).zipIdx.filter fun p => p.1.level = 9).map fun p =>
      ⟨node, .plic, bank, p.1.phandle, 2 * (p.2 / 2) + 1⟩
  | .aplic => (tree.wiresOf node).zipIdx.map fun p => ⟨node, .aplic, bank, p.1.phandle, p.2⟩

/-- The contexts that the banks among some nodes offer, when the first of them is number `id`. -/
def contextsAmong (id : Nat) (nodes : List NodeId) : List BankContext :=
  ((tree.bankNodes nodes).zipIdx id).flatMap fun p => tree.contextsOf p.1.1 p.1.2 p.2

/-- The number of contexts that a bank's record tells: none for a PLIC. -/
def idcsOf (node : NodeId) : BankFamily → Nat
  | .plic => 0
  | .aplic => (tree.wiresOf node).length

/-- The hart that a context is offered to. -/
def hartOf? (c : BankContext) : Option UInt64 :=
  (tree.hartOfController c.node c.phandle).toOption

/-- The write that gives a context away. -/
def writeOf (c : BankContext) : ContextWrite where
  phandle := c.phandle
  hartId := (tree.hartOf? c).getD 0
  family := c.family
  externalId := c.externalId

/-- A context that can be given away. -/
def Gives (c : BankContext) : Prop :=
  (tree.hartOf? c).isSome ∧ c.Fits

variable {tree} {node : NodeId} {family : BankFamily} {bank : Nat} {entries : List ContextWrite}

theorem contextsAmong_cons (id : Nat) (node : NodeId) (rest : List NodeId) :
    tree.contextsAmong id (node :: rest) =
      match tree.bankFamily? node with
      | none => tree.contextsAmong id rest
      | some family => tree.contextsOf node family id ++ tree.contextsAmong (id + 1) rest := by
  rw [contextsAmong, bankNodes, List.filterMap_cons]
  cases tree.bankFamily? node <;> rfl

theorem map_fst_bankNodes (nodes : List NodeId) :
    (tree.bankNodes nodes).map Prod.fst =
      nodes.filter fun node => (tree.bankFamily? node).isSome := by
  induction nodes with
  | nil => rfl
  | cons node rest ih =>
    rw [bankNodes, List.filterMap_cons]
    cases hfamily : tree.bankFamily? node with
    | none => rwa [List.filter_cons_of_neg (by simp [hfamily])]
    | some family =>
      rw [List.filter_cons_of_pos (by simp [hfamily]), ← ih]
      rfl

/-- No node is two banks. -/
theorem nodup_bankNodes {nodes : List NodeId} (h : nodes.Nodup) :
    ((tree.bankNodes nodes).map Prod.fst).Nodup := by
  rw [map_fst_bankNodes]
  exact h.filter _

/-! ## Wiring

A list of wires is written one context after the other, and the first that cannot be given away ends
the resolution.  So a list that is written to its end has only contexts that can. -/

/-- The context of a bank that a wire and a number stand for. -/
def contextAt (node : NodeId) (family : BankFamily) (bank : Nat) (p : Wire × Nat) : BankContext :=
  ⟨node, family, bank, p.1.phandle, p.2⟩

theorem hartOf?_eq_some_iff {c : BankContext} {hartId : UInt64} :
    tree.hartOf? c = some hartId ↔ tree.hartOfController c.node c.phandle = .ok hartId := by
  rw [hartOf?]
  cases tree.hartOfController c.node c.phandle <;> simp [Except.toOption]

/-- The first context is written if there is a hart to take it and the number fits. -/
theorem wireContexts_cons_eq_ok_iff {p : Wire × Nat} {rest : List (Wire × Nat)} :
    tree.wireContexts node family bank (p :: rest) = ⟨entries, .ok ()⟩ ↔
      tree.Gives (contextAt node family bank p) ∧
        ∃ after, tree.wireContexts node family bank rest = ⟨after, .ok ()⟩ ∧
          entries = tree.writeOf (contextAt node family bank p) :: after := by
  obtain ⟨wire, context⟩ := p
  have hfits : ∀ value, externalId bank context = .ok value ↔
      (contextAt node family bank (wire, context)).Fits ∧
        value = (contextAt node family bank (wire, context)).externalId :=
    fun _ => BankContext.externalId_eq_ok_iff (c := contextAt node family bank (wire, context))
  rw [wireContexts]
  simp only [Journal.bind_eq_ok_iff, Journal.liftM_eq_ok_iff, Journal.emit_eq_ok_iff, hfits]
  constructor
  · rintro ⟨hartId, _, _, ⟨rfl, hhart⟩, ⟨value, _, _, ⟨rfl, hfit, rfl⟩, ⟨_, _, after, rfl, hrest,
      rfl⟩, rfl⟩, rfl⟩
    have hhart' : tree.hartOf? (contextAt node family bank (wire, context)) = some hartId :=
      hartOf?_eq_some_iff.2 hhart
    refine ⟨⟨Option.isSome_of_eq_some hhart', hfit⟩, after, hrest, ?_⟩
    rw [writeOf, hhart']
    rfl
  · rintro ⟨⟨hhart, hfit⟩, after, hrest, rfl⟩
    obtain ⟨hartId, hhart⟩ := Option.isSome_iff_exists.1 hhart
    refine ⟨hartId, [], _, ⟨rfl, hartOf?_eq_some_iff.1 hhart⟩,
      ⟨_, [], _, ⟨rfl, hfit, rfl⟩, ⟨(), _, after, rfl, hrest, rfl⟩, rfl⟩, ?_⟩
    rw [writeOf, hhart]
    rfl

/-- **A bank writes all the contexts it offers, if each of them can be given away.** -/
theorem wireContexts_eq_ok_iff {list : List (Wire × Nat)} :
    tree.wireContexts node family bank list = ⟨entries, .ok ()⟩ ↔
      (∀ c ∈ list.map (contextAt node family bank), tree.Gives c) ∧
        entries = (list.map (contextAt node family bank)).map tree.writeOf := by
  induction list generalizing entries with
  | nil =>
    rw [wireContexts, Journal.pure_eq_ok_iff]
    simp
  | cons p rest ih =>
    rw [wireContexts_cons_eq_ok_iff, List.map_cons, List.forall_mem_cons, List.map_cons]
    constructor
    · rintro ⟨hfirst, after, hrest, rfl⟩
      obtain ⟨hall, rfl⟩ := ih.1 hrest
      exact ⟨⟨hfirst, hall⟩, rfl⟩
    · rintro ⟨⟨hfirst, hall⟩, rfl⟩
      exact ⟨hfirst, _, ih.2 ⟨hall, rfl⟩, rfl⟩

/-! ## One bank

The two families are wired by functions of their own, which differ in what they make of a node
without wires: a PLIC is refused, an APLIC has no contexts.  `Wired` is what both leave behind. -/

variable (tree) in
/-- A bank has written the contexts it offers. -/
structure Wired (node : NodeId) (family : BankFamily) (bank : Nat) (entries : List ContextWrite) :
    Prop where
  readable : ∃ wires, tree.wires? node = .ok wires
  gives : ∀ c ∈ tree.contextsOf node family bank, tree.Gives c
  entries_eq : entries = (tree.contextsOf node family bank).map tree.writeOf

theorem wired_of_wirePlic (h : tree.wirePlic node bank = ⟨entries, .ok ()⟩) :
    tree.Wired node .plic bank entries := by
  rw [wirePlic, Journal.liftM_bind_eq_ok_iff] at h
  obtain ⟨listed, hread, hwrite⟩ := h
  split at hwrite
  next => cases (Journal.ofExcept_eq_ok_iff.1 hwrite).2
  next => cases (Journal.ofExcept_eq_ok_iff.1 hwrite).2
  next wires hne =>
    have hcontexts : tree.contextsOf node .plic bank =
        (plicContexts wires).map (contextAt node .plic bank) := by
      rw [contextsOf, wiresOf, hread, plicContexts, List.map_map]
      rfl
    obtain ⟨hall, rfl⟩ := wireContexts_eq_ok_iff.1 hwrite
    rw [← hcontexts] at hall ⊢
    exact ⟨⟨_, hread⟩, hall, rfl⟩

theorem wired_of_wireAplic {idcs : Nat} (h : tree.wireAplic node bank = ⟨entries, .ok idcs⟩) :
    tree.Wired node .aplic bank entries ∧ idcs = (tree.wiresOf node).length := by
  rw [wireAplic, Journal.liftM_bind_eq_ok_iff] at h
  obtain ⟨listed, hread, hwrite⟩ := h
  have hcontexts : tree.contextsOf node .aplic bank =
      (tree.wiresOf node).zipIdx.map (contextAt node .aplic bank) := rfl
  split at hwrite
  next =>
    obtain ⟨rfl, rfl⟩ := Journal.pure_eq_ok_iff.1 hwrite
    have hnone : tree.wiresOf node = [] := by rw [wiresOf, hread]
    rw [hnone] at hcontexts ⊢
    exact ⟨⟨⟨_, hread⟩, by simp [hcontexts], by simp [hcontexts]⟩, rfl⟩
  next wires =>
    have hwires : tree.wiresOf node = wires := by rw [wiresOf, hread]
    obtain ⟨⟨⟩, hwritten, rfl⟩ := Journal.bind_pure_eq_ok_iff.1 hwrite
    obtain ⟨hall, rfl⟩ := wireContexts_eq_ok_iff.1 hwritten
    rw [hwires] at hcontexts ⊢
    rw [← hcontexts] at hall ⊢
    exact ⟨⟨⟨_, hread⟩, hall, rfl⟩, rfl⟩

/-- **A planned bank has its family, its number and the contexts it offers.** -/
theorem planBank_eq_ok {gsiBase : Nat} {record : BankRecord}
    (h : tree.planBank node family bank gsiBase = ⟨entries, .ok record⟩) :
    ∃ sources region, tree.bankSources node = .ok sources ∧ tree.bankRegion node = .ok region ∧
      gsiBase + sources.toNat < UInt32.size ∧ tree.Wired node family bank entries ∧
      record = { BankRecord.fresh family (UInt32.ofNat bank) with
        sources
        idcs := UInt32.ofNat (tree.idcsOf node family)
        base := UInt64.ofNat region.address
        size := UInt32.ofNat region.size
        gsiBase := UInt32.ofNat gsiBase } := by
  rw [planBank, Journal.liftM_bind_eq_ok_iff] at h
  obtain ⟨sources, hsources, h⟩ := h
  obtain ⟨region, hregion, h⟩ := Journal.liftM_bind_eq_ok_iff.1 h
  obtain ⟨hgsi, h⟩ := Journal.guard_eq_ok_iff.1 h
  refine ⟨sources, region, hsources, hregion, Nat.lt_of_not_le hgsi, ?_⟩
  cases family with
  | plic =>
    obtain ⟨⟨⟩, hwritten, rfl⟩ := Journal.bind_pure_eq_ok_iff.1 h
    exact ⟨wired_of_wirePlic hwritten, rfl⟩
  | aplic =>
    obtain ⟨idcs, hwritten, rfl⟩ := Journal.bind_pure_eq_ok_iff.1 h
    obtain ⟨hwired, rfl⟩ := wired_of_wireAplic hwritten
    exact ⟨hwired, rfl⟩

/-- An APLIC does not offer more contexts than fit, so their number is told as it is. -/
theorem Wired.toNat_idcs (h : tree.Wired node family bank entries) :
    (UInt32.ofNat (tree.idcsOf node family)).toNat = tree.idcsOf node family := by
  refine UInt32.toNat_ofNat_of_lt' ?_
  cases family with
  | plic => exact Nat.zero_lt_of_lt (show 0 < UInt32.size by decide)
  | aplic =>
    rw [idcsOf]
    by_cases hzero : (tree.wiresOf node).length = 0
    · rw [hzero]
      decide
    -- the last wire has the largest context, and it was given away
    · have hlast : (tree.wiresOf node).length - 1 < (tree.wiresOf node).length := by omega
      have hmem := List.mem_map_of_mem (f := contextAt node .aplic bank)
        (List.mk_mem_zipIdx_iff_getElem?.2 (List.getElem?_eq_getElem hlast))
      have hcontext : (tree.wiresOf node).length - 1 ≤ 0xffffff := (h.gives _ hmem).2.2
      simp only [UInt32.size]
      omega

/-! ## All banks

Nodes that are no banks are passed over and use up no number.  The inductions below all have the
same two cases for a node, and what differs is what they say about the list behind it. -/

variable (tree) in
/-- The record of the bank with a number at a node. -/
structure BankAt (p : (NodeId × BankFamily) × Nat) (record : BankRecord) : Prop where
  id : record.id.toNat = p.2
  family : record.family = p.1.2
  hardwareId : record.hardwareId = p.1.2.hardwareId
  idcs : record.idcs.toNat = tree.idcsOf p.1.1 p.1.2
  /-- The node's list of wires makes sense, if there is one. -/
  readable : ∃ wires, tree.wires? p.1.1 = .ok wires

theorem banksAmong_cons {id gsiBase : Nat} {rest : List NodeId} {banks : List (NodeId × BankRecord)}
    (hfamily : tree.bankFamily? node = some family)
    (h : tree.banksAmong id gsiBase (node :: rest) = ⟨entries, .ok banks⟩) :
    ∃ record others before after, tree.planBank node family id gsiBase = ⟨before, .ok record⟩ ∧
      tree.banksAmong (id + 1) (gsiBase + record.sources.toNat) rest = ⟨after, .ok others⟩ ∧
      entries = before ++ after ∧ banks = (node, record) :: others := by
  rw [banksAmong, hfamily] at h
  obtain ⟨record, before, after, hplan, hrest, rfl⟩ := Journal.bind_eq_ok_iff.1 h
  obtain ⟨others, hothers, rfl⟩ := Journal.bind_pure_eq_ok_iff.1 hrest
  exact ⟨record, others, before, after, hplan, hothers, rfl, rfl⟩

/-- The banks among some nodes write the contexts they offer. -/
theorem banksAmong_contexts {nodes : List NodeId} {id gsiBase : Nat}
    {banks : List (NodeId × BankRecord)}
    (h : tree.banksAmong id gsiBase nodes = ⟨entries, .ok banks⟩) :
    (∀ c ∈ tree.contextsAmong id nodes, tree.Gives c) ∧
      entries = (tree.contextsAmong id nodes).map tree.writeOf := by
  induction nodes generalizing id gsiBase entries banks with
  | nil =>
    obtain ⟨rfl, rfl⟩ := Journal.pure_eq_ok_iff.1 h
    exact ⟨by simp [contextsAmong, bankNodes], rfl⟩
  | cons node rest ih =>
    rw [contextsAmong_cons]
    cases hfamily : tree.bankFamily? node with
    | none =>
      rw [banksAmong, hfamily] at h
      exact ih h
    | some family =>
      obtain ⟨record, others, before, after, hplan, hrest, rfl, rfl⟩ := banksAmong_cons hfamily h
      obtain ⟨_, _, -, -, -, hwired, rfl⟩ := planBank_eq_ok hplan
      obtain ⟨hgives, rfl⟩ := ih hrest
      refine ⟨fun c hc => ?_, ?_⟩
      · rcases List.mem_append.1 hc with hc | hc
        · exact hwired.gives c hc
        · exact hgives c hc
      · rw [hwired.entries_eq, List.map_append]

/-- The banks among some nodes are recorded in order. -/
theorem banksAmong_records {nodes : List NodeId} {id gsiBase : Nat}
    {banks : List (NodeId × BankRecord)} (hsize : id + nodes.length ≤ UInt32.size)
    (h : tree.banksAmong id gsiBase nodes = ⟨entries, .ok banks⟩) :
    List.Forall₂ tree.BankAt ((tree.bankNodes nodes).zipIdx id) (banks.map Prod.snd) := by
  induction nodes generalizing id gsiBase entries banks with
  | nil =>
    obtain ⟨-, rfl⟩ := Journal.pure_eq_ok_iff.1 h
    exact List.Forall₂.nil
  | cons node rest ih =>
    rw [List.length_cons] at hsize
    rw [bankNodes, List.filterMap_cons]
    cases hfamily : tree.bankFamily? node with
    | none =>
      rw [banksAmong, hfamily] at h
      exact ih (by omega) h
    | some family =>
      -- only a bank uses up a number, so the rest starts one further on
      obtain ⟨record, others, before, after, hplan, hrest, rfl, rfl⟩ := banksAmong_cons hfamily h
      obtain ⟨_, _, -, -, -, hwired, rfl⟩ := planBank_eq_ok hplan
      refine List.Forall₂.cons ⟨?_, rfl, rfl, hwired.toNat_idcs, hwired.readable⟩
        (ih (by omega) hrest)
      exact UInt32.toNat_ofNat_of_lt' (by omega)

/-- **The banks among some nodes are found in order, and write the contexts they offer.** -/
theorem banksAmong_spec {nodes : List NodeId} {id gsiBase : Nat}
    {banks : List (NodeId × BankRecord)} (hsize : id + nodes.length ≤ UInt32.size)
    (h : tree.banksAmong id gsiBase nodes = ⟨entries, .ok banks⟩) :
    List.Forall₂ tree.BankAt ((tree.bankNodes nodes).zipIdx id) (banks.map Prod.snd) ∧
      (∀ c ∈ tree.contextsAmong id nodes, tree.Gives c) ∧
      entries = (tree.contextsAmong id nodes).map tree.writeOf :=
  ⟨banksAmong_records hsize h, banksAmong_contexts h⟩

/-- The banks among some nodes are in the order of the nodes. -/
theorem banksAmong_inOrder {nodes : List NodeId} {id gsiBase : Nat}
    {banks : List (NodeId × BankRecord)}
    (h : tree.banksAmong id gsiBase nodes = ⟨entries, .ok banks⟩) :
    (banks.map fun p => (p.1, p.2.family, p.2.id)) =
      ((tree.bankNodes nodes).zipIdx id).map fun p => (p.1.1, p.1.2, UInt32.ofNat p.2) := by
  induction nodes generalizing id gsiBase entries banks with
  | nil =>
    obtain ⟨-, rfl⟩ := Journal.pure_eq_ok_iff.1 h
    rfl
  | cons node rest ih =>
    rw [bankNodes, List.filterMap_cons]
    cases hfamily : tree.bankFamily? node with
    | none =>
      rw [banksAmong, hfamily] at h
      exact ih h
    | some family =>
      obtain ⟨record, others, before, after, hplan, hrest, -, rfl⟩ := banksAmong_cons hfamily h
      obtain ⟨sources, region, -, -, -, -, rfl⟩ := planBank_eq_ok hplan
      exact congrArg ((node, family, UInt32.ofNat id) :: ·) (ih hrest)

theorem map_fst_banksAmong {nodes : List NodeId} {id gsiBase : Nat}
    {banks : List (NodeId × BankRecord)}
    (h : tree.banksAmong id gsiBase nodes = ⟨entries, .ok banks⟩) :
    banks.map Prod.fst = (tree.bankNodes nodes).map Prod.fst := by
  have hnodes := congrArg (List.map Prod.fst) (banksAmong_inOrder h)
  rw [List.map_map, List.map_map] at hnodes
  rw [← List.zipIdx_map_fst id (tree.bankNodes nodes), List.map_map]
  exact hnodes

/-- Banks that are resolved are the banks among the nodes, and what these write is written. -/
theorem resolveBanks_eq_ok {table table' : HartTable} {resolution : BankResolution}
    (h : tree.resolveBanks table = (table', .ok resolution)) :
    ∃ entries banks, tree.banksAmong 0 0 tree.nodeList = ⟨entries, .ok banks⟩ ∧
      entries.foldlM ContextWrite.apply table = .ok table' ∧
      resolution = {
        banks := banks.map Prod.snd
        gsi := banks.foldl (fun map p => map.register p.1 p.2.gsiBase) GsiMap.empty } := by
  obtain ⟨houtcome, hrun⟩ := Journal.carryOut_eq_ok_iff.1 h
  obtain ⟨entries, hplan⟩ := Journal.outcome_eq_ok_iff.1 houtcome
  rw [hplan] at hrun
  obtain ⟨banks, hbanks, rfl⟩ := Journal.bind_pure_eq_ok_iff.1 hplan
  exact ⟨entries, banks, hbanks, hrun, rfl⟩

/-! ## The wiring of a table

Here the two halves meet.  The writes of the plan come in the order of the contexts, so the last
write that names a hart is the one for the last context offered to it. -/

section Wiring

variable (tree)

/-- All contexts that the banks of a tree offer, bank after bank in pre-order. -/
def bankContexts : List BankContext :=
  tree.contextsAmong 0 tree.preorder

/-- The last context that is offered to a hart. -/
def lastContext? (hartId : UInt64) : Option BankContext :=
  (tree.bankContexts.filter fun c => tree.hartOf? c = some hartId).getLast?

/-- A hart that has got the last context offered to it.  All else about the hart stays. -/
def wiredEntry (entry : HartEntry) : HartEntry :=
  match tree.lastContext? entry.record.hartId with
  | none => entry
  | some c =>
    { record := { entry.record with externalId := c.externalId }, wiredBy := some c.family }

/-- What the banks of a tree are, and what they make of a table of harts. -/
structure BankWiring (table table' : HartTable) (banks : List BankRecord) : Prop where
  /-- The banks are the bank nodes in pre-order, numbered from 0 on. -/
  banks : List.Forall₂ tree.BankAt (tree.bankNodes tree.preorder).zipIdx banks
  /-- Each context is offered to a hart of the table. -/
  known : ∀ c ∈ tree.bankContexts, ∃ hartId, tree.hartOf? c = some hartId ∧
    hartId ∈ table.records.map (·.hartId)
  /-- Bank and context are told by the external id without truncation. -/
  parts : ∀ c ∈ tree.bankContexts,
    (c.externalId >>> 24).toNat = c.bank ∧ (c.externalId &&& 0xffffff).toNat = c.context
  /-- No hart is served by both families. -/
  oneFamily : ∀ c ∈ tree.bankContexts, ∀ d ∈ tree.bankContexts,
    tree.hartOf? c = tree.hartOf? d → c.family = d.family
  entries : table'.entries = table.entries.map tree.wiredEntry

end Wiring

/-- The last write to a hart is the write of the last context offered to it. -/
theorem settle_writeOf (h : ∀ c ∈ tree.bankContexts, tree.Gives c) (entry : HartEntry) :
    ContextWrite.settle (tree.bankContexts.map tree.writeOf) entry = tree.wiredEntry entry := by
  have hfilter : (tree.bankContexts.map tree.writeOf).filter
      (fun write => write.hartId = entry.record.hartId) =
        (tree.bankContexts.filter fun c => tree.hartOf? c = some entry.record.hartId).map
          tree.writeOf := by
    rw [List.filter_map]
    refine congrArg _ (List.filter_congr fun c hc => ?_)
    obtain ⟨hartId, hhart⟩ := Option.isSome_iff_exists.1 (h c hc).1
    simp [writeOf, hhart]
  rw [ContextWrite.settle, hfilter, List.getLast?_map, wiredEntry, lastContext?]
  cases (tree.bankContexts.filter fun c =>
    tree.hartOf? c = some entry.record.hartId).getLast? <;> rfl

/-- **The harts are wired exactly as the banks of the tree say.** -/
theorem bankWiring_of_resolveBanks {table table' : HartTable} {resolution : BankResolution}
    (hreachable : tree.Reachable) (hsize : tree.size < UInt32.size)
    (h : tree.resolveBanks table = (table', .ok resolution)) :
    tree.BankWiring table table' resolution.banks := by
  have hwf := hreachable.wellFormed
  obtain ⟨houtcome, hrun⟩ := Journal.carryOut_eq_ok_iff.1 h
  obtain ⟨entries, hplan⟩ := Journal.outcome_eq_ok_iff.1 houtcome
  rw [hplan] at hrun
  obtain ⟨banks, hbanks, rfl⟩ := Journal.bind_pure_eq_ok_iff.1 hplan
  rw [hwf.nodeList_eq_preorder] at hbanks
  have hlength : 0 + tree.preorder.length ≤ UInt32.size := by
    rw [hwf.length_preorder, Nat.zero_add]
    exact Nat.le_of_lt hsize
  obtain ⟨hrecords, hgives, rfl⟩ := banksAmong_spec hlength hbanks
  obtain ⟨htaken, hagree, rfl⟩ := ContextWrite.foldlM_apply_eq_ok_iff.1 hrun
  refine ⟨hrecords, fun c hc => ?_, fun c hc => (hgives c hc).2.parts, ?_, ?_⟩
  · obtain ⟨hartId, hhart⟩ := Option.isSome_iff_exists.1 (hgives c hc).1
    have hmem := (htaken _ (List.mem_map_of_mem hc)).hartId_mem
    rw [writeOf, hhart] at hmem
    exact ⟨hartId, hhart, hmem⟩
  · intro c hc d hd hsame
    refine ContextWrite.agree_of_pairwise hagree (List.mem_map_of_mem hc)
      (List.mem_map_of_mem hd) ?_
    rw [writeOf, writeOf, hsame]
  · exact List.map_congr_left fun entry _ => settle_writeOf hgives entry

/-- The edits of a board with three cpus, two PLICs and an APLIC.  The second PLIC serves a hart
that the first one serves too. -/
def sampleBankEdits : List Edit :=
  [.addNode NodeId.root "cpus", .setProperty 1 "#address-cells" [0, 0, 0, 1],
    .addNode 1 "cpu@0", .addNode 2 "interrupt-controller",
    .setProperty 2 "reg" (PropertyValue.ofCells [0]), .setProperty 3 "phandle" [0, 0, 0, 1],
    .addNode 1 "cpu@1", .addNode 4 "interrupt-controller",
    .setProperty 4 "reg" (PropertyValue.ofCells [1]), .setProperty 5 "phandle" [0, 0, 0, 2],
    .addNode 1 "cpu@2", .addNode 6 "interrupt-controller",
    .setProperty 6 "reg" (PropertyValue.ofCells [2]), .setProperty 7 "phandle" [0, 0, 0, 3],
    .addNode NodeId.root "plic@0", .addNode NodeId.root "plic@1", .addNode NodeId.root "aplic",
    .setProperty 8 "compatible" (PropertyValue.ofStrings ["riscv,plic0"]),
    .setProperty 8 "riscv,num-sources" (PropertyValue.ofCells [8]),
    .setProperty 8 "reg" (PropertyValue.ofCells [0, 0x1000, 0x100]),
    .setProperty 8 "interrupts-extended" (PropertyValue.ofCells [1, 11, 1, 9, 2, 11, 2, 9]),
    .setProperty 9 "compatible" (PropertyValue.ofStrings ["riscv,plic0"]),
    .setProperty 9 "riscv,ndev" (PropertyValue.ofCells [4]),
    .setProperty 9 "reg" (PropertyValue.ofCells [0, 0x2000, 0x100]),
    .setProperty 9 "interrupts-extended" (PropertyValue.ofCells [2, 9]),
    .setProperty 10 "compatible" (PropertyValue.ofStrings ["riscv,aplic"]),
    .setProperty 10 "riscv,num-sources" (PropertyValue.ofCells [16]),
    .setProperty 10 "reg" (PropertyValue.ofCells [0, 0x3000, 0x100]),
    .setProperty 10 "interrupts-extended" (PropertyValue.ofCells [3, 9])]

/-- The harts of this board, not wired. -/
def sampleHarts : HartTable :=
  ⟨[⟨HartRecord.fresh 0 0, none⟩, ⟨HartRecord.fresh 1 1, none⟩, ⟨HartRecord.fresh 2 2, none⟩]⟩

theorem bankWiring_sampleHarts :
    ∃ tree table resolution, ofEdits? sampleBankEdits = some tree ∧ tree.size < UInt32.size ∧
      tree.resolveBanks sampleHarts = (table, .ok resolution) ∧
      table.records.map (·.externalId) = [0x00000001, 0x01000001, 0x02000000] ∧
      tree.BankWiring sampleHarts table resolution.banks := by
  have hruns : (ofEdits? sampleBankEdits).any fun tree =>
      decide (tree.size < UInt32.size) && (tree.resolveBanks sampleHarts).2.isOk &&
        decide ((tree.resolveBanks sampleHarts).1.records.map (·.externalId) =
          [0x00000001, 0x01000001, 0x02000000]) := by
    decide +kernel
  obtain ⟨tree, htree, hruns⟩ := (Option.any_eq_true _ _).1 hruns
  simp only [Bool.and_eq_true, decide_eq_true_eq] at hruns
  obtain ⟨⟨hsize, hok⟩, hids⟩ := hruns
  rcases hresolve : tree.resolveBanks sampleHarts with ⟨table, error | resolution⟩
  · rw [hresolve] at hok
    cases hok
  · rw [hresolve] at hids
    exact ⟨tree, table, resolution, htree, hsize, hresolve, hids,
      bankWiring_of_resolveBanks (reachable_of_ofEdits? htree) hsize hresolve⟩

end DeviceTree
end RiscvTables
