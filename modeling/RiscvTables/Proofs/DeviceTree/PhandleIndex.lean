import Mathlib.Data.List.Nodup
import RiscvTables.Proofs.DeviceTree.Acceptance
import RiscvTables.Proofs.DeviceTree.Rebuild
import RiscvTables.Proofs.DeviceTree.Session

/-!
# Which node a phandle names

Two properties can give a node its phandle, and one index answers for both.  It knows of a node
only what was set last, under whichever of the two names, so it does not follow from the properties
of a tree but from its history.  `lastPhandle?` reads the answer off the history, and the index
says just that, for every tree that a program has come to (`Session.phandleIndex_of_calls`).  A tree
that was read from a blob has a history too, which the blob tells (`Blob.Description.edits`).

The check for duplicates asks the index and nothing else.  When a node's phandle is set anew under
the other name, the property with the old one stays but the index forgets it, and another node may
take it.  So different nodes can come to carry one phandle (`not_phandles_distinct`), and
`Session.phandles_apart` says when they do.
-/

set_option autoImplicit false

namespace RiscvTables

/-! ## The edits that a blob tells

Replaying a description makes edits, and `Description.edits` lists them.  So a session that begins
with a tree that was read is one that begins with the empty tree and has some calls behind it, and
one induction over the calls serves both (`Begun.calls_preserves`). -/

namespace Blob

/-- The edits of the items of node `id`, if the next node to begin is number `next`. -/
def Items.edits : Items → (id next : NodeId) → List DeviceTree.Edit
  | none, _, _ => []
  | nop rest, id, next => rest.edits id next
  | property name value rest, id, next => .setProperty id name value :: rest.edits id next
  | node name items rest, id, next =>
    .addNode id name :: items.edits next (next + 1) ++ rest.edits id (next + 1 + items.count)

/-- The edits that a description stands for, in order. -/
def Description.edits (description : Description) : List DeviceTree.Edit :=
  description.items.edits NodeId.root 1

open DeviceTree in
theorem Items.foldlM_edits {items : Items} {id : NodeId} {tree tree' : DeviceTree}
    (h : items.replay id tree = .ok tree') :
    (items.edits id tree.size).foldlM edit tree = .ok tree' := by
  induction items generalizing id tree tree' with
  | none => exact h
  | nop rest ih => exact ih h
  | property name value rest ih =>
    obtain ⟨next, hset, h⟩ := replay_property_eq_ok_iff.1 h
    rw [edits, List.foldlM_cons, Except.bind_eq_ok_iff]
    exact ⟨next, hset, (links_of_setProperty hset).1 ▸ ih h⟩
  | node name items rest ihitems ihrest =>
    obtain ⟨made, child, inner, hadd, hitems, h⟩ := replay_node_eq_ok_iff.1 h
    obtain ⟨-, -, -, rfl, rfl⟩ := addNode_eq_ok_iff.1 hadd
    have hitems' := ihitems hitems
    have hrest := ihrest h
    rw [(size_of_replay hitems).1] at hrest
    rw [size_appendChild] at hitems' hrest
    rw [edits, List.cons_append, List.foldlM_cons, Except.bind_eq_ok_iff]
    refine ⟨_, Except.map_eq_ok_iff.2 ⟨_, hadd, rfl⟩, ?_⟩
    rw [List.foldlM_append, Except.bind_eq_ok_iff]
    exact ⟨inner, hitems', hrest⟩

end Blob

namespace DeviceTree

open Blob

/-- **A tree that is read is made by the edits of what stands in the blob.** -/
theorem foldlM_edits_of_ofBlob {data : Bytes} {tree : DeviceTree} {description : Description}
    (h : ofBlob data = .ok tree) (hstands : description.StandsIn data) :
    description.edits.foldlM edit (DeviceTree.empty.setBootCpu (headerCpu data)) = .ok tree := by
  rw [ofBlob_eq_replay (validHeader_of_ofBlob h) hstands, ofEdit, Except.mapError_eq_ok_iff] at h
  exact Items.foldlM_edits h

namespace Session

/-- A session begins with the empty tree, or with a tree that was read from a blob. -/
inductive Begun : Session → Prop
  | empty : Begun ⟨DeviceTree.empty, []⟩
  | ofBlob {data : Bytes} {tree : DeviceTree} {description : Description} :
    DeviceTree.ofBlob data = .ok tree → description.StandsIn data →
      Begun ⟨tree, description.edits⟩

/-- **What a tree has before its history and every edit keeps, a session always has.** -/
theorem Begun.calls_preserves {P : Session → Prop} {session : Session} (h : session.Begun)
    (hempty : ∀ cpu, P ⟨DeviceTree.empty.setBootCpu cpu, []⟩)
    (hedit : ∀ session e tree, P session → session.tree.edit e = .ok tree →
      P ⟨tree, session.history ++ [e]⟩)
    (edits : List Edit) : P (session.calls edits) := by
  refine Session.calls_preserves hedit ?_ edits
  cases h with
  | empty => exact hempty 0
  | @ofBlob data tree description hread hstands =>
    have hmade := @calls_of_foldlM ⟨_, []⟩ _ _ (foldlM_edits_of_ofBlob hread hstands)
    rw [List.nil_append] at hmade
    rw [← hmade]
    exact Session.calls_preserves hedit (hempty (headerCpu data)) description.edits

end Session

/-! ## What was set last

`Tracked` is the invariant.  An edit that gives no node its phandle changes neither the index nor
what was set last; one that does drops the entry of the node and puts the new one in front. -/

/-- The name and the value under which an edit gives a node its phandle, if it does. -/
def Edit.phandle? (id : NodeId) : Edit → Option (String × Bytes)
  | .addNode _ _ => none
  | .setProperty node name value =>
    if node = id ∧ name ∈ phandleNames then some (name, value) else none

/-- The name and the value under which a history last gives a node its phandle. -/
def lastPhandle? (history : List Edit) (id : NodeId) : Option (String × Bytes) :=
  (history.filterMap (Edit.phandle? id)).getLast?

/-- The edit that gives a node a phandle under the name that is used first. -/
def Edit.setPhandle (id : NodeId) (phandle : UInt32) : Edit :=
  .setProperty id "phandle" (PropertyValue.ofCells [phandle])

theorem lastPhandle?_append (history : List Edit) (e : Edit) (id : NodeId) :
    lastPhandle? (history ++ [e]) id = (e.phandle? id).or (lastPhandle? history id) := by
  rw [lastPhandle?, List.filterMap_append, List.filterMap_cons, List.filterMap_nil]
  cases e.phandle? id with
  | none => rw [List.append_nil, Option.none_or, lastPhandle?]
  | some set =>
    rw [List.getLast?_append, List.getLast?_singleton, Option.some_or]
    rfl

/-- A value that holds a phandle is its one cell. -/
theorem phandleOfValue?_eq_some_iff {value : Bytes} {phandle : UInt32} :
    phandleOfValue? value = some phandle ↔
      value = BigEndian.encode 4 phandle.toNat ∧ phandle ≠ 0 ∧ phandle ≠ 0xffffffff := by
  rw [phandleOfValue?]
  constructor
  · intro h
    split at h
    next hvalid =>
      obtain ⟨hlength, hzero, hmax⟩ := hvalid
      obtain rfl := Option.some.inj h
      have hlt : BigEndian.decode value < UInt32.size := by
        have hbound := BigEndian.decode_lt value
        rwa [hlength] at hbound
      have hback := BigEndian.encode_decode value
      rw [hlength] at hback
      rw [UInt32.toNat_ofNat_of_lt' hlt, hback]
      exact ⟨rfl, hzero, hmax⟩
    next => cases h
  · rintro ⟨rfl, hzero, hmax⟩
    have hback : UInt32.ofNat (BigEndian.decode (BigEndian.encode 4 phandle.toNat)) = phandle := by
      rw [BigEndian.decode_encode phandle.toNat_lt, UInt32.ofNat_toNat]
    simp only [hback, BigEndian.length_encode]
    rw [if_pos ⟨trivial, hzero, hmax⟩]

/-- A node owns the phandle that a value holds. -/
def Owns (tree : DeviceTree) (id : NodeId) (value : Bytes) : Prop :=
  ∃ phandle, phandleOfValue? value = some phandle ∧ (phandle, id) ∈ tree.phandles

/-- A phandle has one owner. -/
theorem Owns.eq {tree : DeviceTree} {first second : NodeId} {value : Bytes} (h : tree.Indexed)
    (hfirst : tree.Owns first value) (hsecond : tree.Owns second value) : first = second := by
  obtain ⟨phandle, hvalue, howner⟩ := hfirst
  obtain ⟨phandle', hvalue', howner'⟩ := hsecond
  obtain rfl := Option.some.inj (hvalue.symm.trans hvalue')
  rw [← h.phandleOwner?_eq_some_iff] at howner howner'
  exact Option.some.inj (howner.symm.trans howner')

namespace Session

/-- The index of a session's tree says what its history does. -/
structure Tracked (session : Session) : Prop where
  wellFormed : session.tree.WellFormed
  indexed : session.tree.Indexed
  /-- What was set last is still there, and the index knows it. -/
  of_last : ∀ id name value, lastPhandle? session.history id = some (name, value) →
    name ∈ phandleNames ∧ (name, value) ∈ session.tree.properties id ∧ session.tree.Owns id value
  /-- A node carries no phandle that was not set. -/
  last_isSome : ∀ id name value, (name, value) ∈ session.tree.properties id →
    name ∈ phandleNames → (lastPhandle? session.history id).isSome

namespace Tracked

variable {session : Session}

theorem empty (cpu : UInt32) : Tracked ⟨DeviceTree.empty.setBootCpu cpu, []⟩ where
  wellFormed := WellFormed.keptByEdits.setBootCpu cpu WellFormed.empty
  indexed := (Indexed.keptByEdits.setBootCpu cpu ⟨WellFormed.empty, Indexed.empty⟩).2
  of_last := nofun
  last_isSome := by
    intro id name value hmem hname
    obtain ⟨-, phandle, hentry⟩ := Indexed.empty.exists_phandle id name value hmem hname
    cases hentry

/-- An edit that gives no node its phandle. -/
theorem edit_of_phandle?_eq_none {e : Edit} {tree : DeviceTree} (h : session.Tracked)
    (hmade : session.tree.edit e = .ok tree) (hnone : ∀ id, e.phandle? id = none)
    (hphandles : tree.phandles = session.tree.phandles)
    (hproperties : ∀ id name value, name ∈ phandleNames →
      ((name, value) ∈ tree.properties id ↔ (name, value) ∈ session.tree.properties id)) :
    Tracked ⟨tree, session.history ++ [e]⟩ where
  wellFormed := WellFormed.keptByEdits.of_edit h.wellFormed hmade
  indexed := (Indexed.keptByEdits.of_edit ⟨h.wellFormed, h.indexed⟩ hmade).2
  of_last := by
    intro id name value hlast
    rw [lastPhandle?_append, hnone, Option.none_or] at hlast
    obtain ⟨hname, hmem, phandle, hvalue, hentry⟩ := h.of_last id name value hlast
    exact ⟨hname, (hproperties id name value hname).2 hmem, phandle, hvalue, hphandles ▸ hentry⟩
  last_isSome := by
    intro id name value hmem hname
    rw [lastPhandle?_append, hnone, Option.none_or]
    exact h.last_isSome id name value ((hproperties id name value hname).1 hmem) hname

/-- An edit that gives a node its phandle.  The index forgets what the node had before. -/
theorem edit_of_phandle {node : NodeId} {name : String} {value : Bytes} {phandle : UInt32}
    (h : session.Tracked) (hnode : node < session.tree.size) (hname : name ∈ phandleNames)
    (hvalue : phandleOfValue? value = some phandle)
    (hmade : session.tree.edit (.setProperty node name value) =
      .ok ((claimPhandle.reindex session.tree node phandle).putValue node name value)) :
    Tracked ⟨(claimPhandle.reindex session.tree node phandle).putValue node name value,
      session.history ++ [.setProperty node name value]⟩ := by
  have hset : ∀ id, (Edit.setProperty node name value).phandle? id =
      if id = node then some (name, value) else none := by
    intro id
    simp only [Edit.phandle?, hname, and_true, eq_comm]
  have hproperties : ∀ id,
      ((claimPhandle.reindex session.tree node phandle).putValue node name value).properties id =
        if id = node then putProperty name value (session.tree.properties node)
        else session.tree.properties id := fun _ => properties_putValue hnode
  refine ⟨WellFormed.keptByEdits.of_edit h.wellFormed hmade,
    (Indexed.keptByEdits.of_edit ⟨h.wellFormed, h.indexed⟩ hmade).2, ?_, ?_⟩
  · intro id key old hlast
    rw [lastPhandle?_append, hset] at hlast
    rw [hproperties]
    by_cases hid : id = node
    · rw [if_pos hid, Option.some_or, Option.some.injEq, Prod.mk.injEq] at hlast
      obtain ⟨rfl, rfl⟩ := hlast
      rw [if_pos hid, mem_putProperty_iff (h.wellFormed.nodup_properties node), if_pos rfl]
      exact ⟨hname, rfl, phandle, hvalue, hid ▸ List.mem_cons_self⟩
    · rw [if_neg hid, Option.none_or] at hlast
      rw [if_neg hid]
      obtain ⟨hkey, hmem, owned, howned, hentry⟩ := h.of_last id key old hlast
      refine ⟨hkey, hmem, owned, howned, List.mem_cons_of_mem _ ?_⟩
      exact List.mem_filter.2 ⟨hentry, decide_eq_true hid⟩
  · intro id key old hmem hkey
    rw [lastPhandle?_append, hset]
    rw [hproperties] at hmem
    by_cases hid : id = node
    · rw [if_pos hid]
      rfl
    · rw [if_neg hid, Option.none_or]
      rw [if_neg hid] at hmem
      exact h.last_isSome id key old hmem hkey

/-- **Every edit keeps the index in step with the history.** -/
theorem edit {e : Edit} {tree : DeviceTree} (h : session.Tracked)
    (hmade : session.tree.edit e = .ok tree) : Tracked ⟨tree, session.history ++ [e]⟩ := by
  cases e with
  | addNode parent name =>
    obtain ⟨⟨made, id⟩, hadd, rfl⟩ := Except.map_eq_ok_iff.1 hmade
    obtain ⟨-, -, -, rfl, rfl⟩ := addNode_eq_ok_iff.1 hadd
    refine h.edit_of_phandle?_eq_none hmade (fun _ => rfl) rfl fun _ _ _ _ => ?_
    rw [properties_appendChild]
  | setProperty node name value =>
    obtain ⟨hnode, ⟨hname, rfl⟩ | ⟨hname, phandle, hvalue, -, rfl⟩⟩ :=
      setProperty_eq_ok_iff.1 hmade
    · refine h.edit_of_phandle?_eq_none hmade (fun _ => if_neg fun hset => hname hset.2) rfl ?_
      intro id key old hkey
      rw [properties_putValue hnode]
      split
      next hid =>
        have hne : key ≠ name := fun heq => hname (heq ▸ hkey)
        rw [mem_putProperty_iff (h.wellFormed.nodup_properties node), if_neg hne, hid]
      next => exact Iff.rfl
    · exact h.edit_of_phandle hnode hname hvalue hmade

/-- **The owner of a phandle is the node that was given it last.** -/
theorem phandleOwner?_eq_some_iff (h : session.Tracked) {phandle : UInt32} {id : NodeId} :
    session.tree.phandleOwner? phandle = some id ↔
      ∃ name value, lastPhandle? session.history id = some (name, value) ∧
        phandleOfValue? value = some phandle := by
  rw [h.indexed.phandleOwner?_eq_some_iff]
  constructor
  · intro hentry
    obtain ⟨key, hkey, old, hmem, -⟩ := h.indexed.exists_property phandle id hentry
    obtain ⟨⟨name, value⟩, hlast⟩ := Option.isSome_iff_exists.1 (h.last_isSome id key old hmem hkey)
    obtain ⟨-, -, owned, hvalue, howned⟩ := h.of_last id name value hlast
    have hsame := List.inj_on_of_nodup_map h.indexed.nodup_owners howned hentry rfl
    exact ⟨name, value, hlast, (Prod.mk.inj hsame).1 ▸ hvalue⟩
  · rintro ⟨name, value, hlast, hvalue⟩
    obtain ⟨-, -, owned, hvalue', hentry⟩ := h.of_last id name value hlast
    rw [hvalue, Option.some.injEq] at hvalue'
    exact hvalue' ▸ hentry

end Tracked

theorem tracked_calls {session : Session} (h : session.Begun) (edits : List Edit) :
    (session.calls edits).Tracked :=
  h.calls_preserves Tracked.empty (fun _ _ _ htracked hmade => htracked.edit hmade) edits

/-! ## The index

This is what the invariant comes to for whoever looks at a tree, entry by entry and node by node. -/

/-- What the index of a session's tree holds. -/
structure PhandleIndex (session : Session) : Prop where
  nodup_phandles : (session.tree.phandles.map Prod.fst).Nodup
  nodup_owners : (session.tree.phandles.map Prod.snd).Nodup
  /-- An entry is the phandle of a node that is there, as one of its two properties has it. -/
  of_entry : ∀ phandle owner, (phandle, owner) ∈ session.tree.phandles →
    phandle ≠ 0 ∧ phandle ≠ 0xffffffff ∧ owner < session.tree.size ∧
      ∃ name ∈ phandleNames,
        session.tree.property? owner name = some (BigEndian.encode 4 phandle.toNat)
  /-- A node with either property has one entry, for what was set last. -/
  of_property : ∀ id, ∀ name ∈ phandleNames, (session.tree.property? id name).isSome →
    ∃ phandle, session.tree.phandles.filter (fun p => p.2 = id) = [(phandle, id)] ∧
      ∃ last, lastPhandle? session.history id = some (last, BigEndian.encode 4 phandle.toNat) ∧
        session.tree.property? id last = some (BigEndian.encode 4 phandle.toNat)

/-- Of the entries of different owners, one is left for an owner. -/
theorem filter_owner_eq_singleton {phandles : List (UInt32 × NodeId)} {phandle : UInt32}
    {id : NodeId} (hnodup : (phandles.map Prod.snd).Nodup) (hmem : (phandle, id) ∈ phandles) :
    phandles.filter (fun p => p.2 = id) = [(phandle, id)] := by
  induction phandles with
  | nil => cases hmem
  | cons entry rest ih =>
    obtain ⟨hnew, hrest⟩ := List.nodup_cons.1 hnodup
    rcases List.mem_cons.1 hmem with rfl | hmem
    · rw [List.filter_cons, if_pos (decide_eq_true rfl), List.filter_eq_nil_iff.2]
      intro other hother howner
      exact hnew (List.mem_map.2 ⟨other, hother, of_decide_eq_true howner⟩)
    · have hne : ¬ entry.2 = id := by
        rintro rfl
        exact hnew (List.mem_map.2 ⟨_, hmem, rfl⟩)
      rw [List.filter_cons, decide_eq_false hne, if_neg Bool.false_ne_true, ih hrest hmem]

theorem Tracked.phandleIndex {session : Session} (h : session.Tracked) : session.PhandleIndex where
  nodup_phandles := h.indexed.nodup_phandles
  nodup_owners := h.indexed.nodup_owners
  of_entry := by
    intro phandle owner hentry
    obtain ⟨name, hname, value, hmem, hvalue⟩ := h.indexed.exists_property phandle owner hentry
    obtain ⟨rfl, hzero, hmax⟩ := phandleOfValue?_eq_some_iff.1 hvalue
    refine ⟨hzero, hmax, lt_size_of_mem_properties hmem, name, hname, ?_⟩
    exact h.wellFormed.property?_eq_some_iff.2 hmem
  of_property := by
    intro id name hname hset
    obtain ⟨value, hvalue⟩ := Option.isSome_iff_exists.1 hset
    obtain ⟨⟨last, new⟩, hlast⟩ := Option.isSome_iff_exists.1
      (h.last_isSome id name value (h.wellFormed.property?_eq_some_iff.1 hvalue) hname)
    obtain ⟨-, hmem, phandle, hphandle, hentry⟩ := h.of_last id last new hlast
    obtain ⟨rfl, -, -⟩ := phandleOfValue?_eq_some_iff.1 hphandle
    exact ⟨phandle, filter_owner_eq_singleton h.indexed.nodup_owners hentry, last, hlast,
      h.wellFormed.property?_eq_some_iff.2 hmem⟩

/-- **The index of phandles is what was set last.**  Every tree that is read begins a session, and
after any calls, refused ones among them, each node with a phandle has the one entry that its
history tells. -/
theorem phandleIndex_of_calls :
    (∀ data tree, DeviceTree.ofBlob data = .ok tree →
      ∃ description : Description, description.StandsIn data ∧
        Begun ⟨tree, description.edits⟩) ∧
    ∀ session : Session, session.Begun → ∀ edits, (session.calls edits).PhandleIndex := by
  refine ⟨fun data tree hread => ?_, fun session h edits => (tracked_calls h edits).phandleIndex⟩
  obtain ⟨description, hstands⟩ := exists_standsIn_of_ofBlob hread
  exact ⟨description, hstands, .ofBlob hread hstands⟩

/-- Calls that give the first node a phandle under one name and then another under the other, and
the second node one and then another.  In between it asks for the first node's and for none. -/
def repointingCalls : List Edit :=
  [.addNode NodeId.root "a", .addNode NodeId.root "b", .setPhandle 1 1,
    .setProperty 1 "linux,phandle" (PropertyValue.ofCells [2]), .setPhandle 2 2,
    .setPhandle 2 0xffffffff, .setPhandle 2 3, .setPhandle 2 4]

theorem phandleIndex_repointingCalls :
    Begun ⟨DeviceTree.empty, []⟩ ∧
      (calls ⟨DeviceTree.empty, []⟩ repointingCalls).PhandleIndex ∧
      (calls ⟨DeviceTree.empty, []⟩ repointingCalls).tree.phandles = [(4, 2), (2, 1)] ∧
      (calls ⟨DeviceTree.empty, []⟩ repointingCalls).history.length = 6 ∧
      (calls ⟨DeviceTree.empty, []⟩ repointingCalls).tree.property? 1 "phandle" =
        some [0, 0, 0, 1] ∧
      lastPhandle? (calls ⟨DeviceTree.empty, []⟩ repointingCalls).history 1 =
        some ("linux,phandle", [0, 0, 0, 2]) :=
  ⟨.empty, phandleIndex_of_calls.2 _ .empty repointingCalls, by decide +kernel, by decide +kernel,
    by decide +kernel, by decide +kernel⟩

/-! ## Duplicates

The index has one entry for a node.  So of two phandles that a node carries one is not in it, and
that is the one that the check for duplicates lets another node have. -/

/-- A value that a node carries was superseded: the node was given another later, under its other
name. -/
def Superseded (session : Session) (id : NodeId) (name : String) (value : Bytes) : Prop :=
  ∃ last new, lastPhandle? session.history id = some (last, new) ∧ last ≠ name ∧ new ≠ value

/-- A node owns the phandle that it carries, or was given another later. -/
theorem Tracked.owns_or_superseded {session : Session} (h : session.Tracked) {id : NodeId}
    {name : String} {value : Bytes} (hname : name ∈ phandleNames)
    (hvalue : session.tree.property? id name = some value) :
    session.tree.Owns id value ∨ session.Superseded id name value := by
  obtain ⟨⟨last, new⟩, hlast⟩ := Option.isSome_iff_exists.1
    (h.last_isSome id name value (h.wellFormed.property?_eq_some_iff.1 hvalue) hname)
  obtain ⟨-, hmem, howned⟩ := h.of_last id last new hlast
  by_cases hnew : new = value
  · exact Or.inl (hnew ▸ howned)
  · refine Or.inr ⟨last, new, hlast, ?_, hnew⟩
    rintro rfl
    rw [h.wellFormed.property?_eq_some_iff.2 hmem, Option.some.injEq] at hvalue
    exact hnew hvalue

/-- **When different nodes carry one phandle, one of them was given another later.**  A node is
refused a phandle just when it is what another node was given last, so in a tree whose nodes carry
one phandle each, different nodes carry different ones. -/
theorem phandles_apart {session : Session} (h : session.Begun) (edits : List Edit) :
    (∀ first second, first ≠ second → ∀ name ∈ phandleNames, ∀ name' ∈ phandleNames, ∀ value,
      (session.calls edits).tree.property? first name = some value →
      (session.calls edits).tree.property? second name' = some value →
        (session.calls edits).Superseded first name value ∨
          (session.calls edits).Superseded second name' value) ∧
    (∀ id name value phandle first second,
      (session.calls edits).tree.setProperty id name value =
          .error (.duplicatePhandle phandle first second) ↔
        id < (session.calls edits).tree.size ∧ name ∈ phandleNames ∧
          phandleOfValue? value = some phandle ∧ first ≠ id ∧ second = id ∧
            ∃ last, lastPhandle? (session.calls edits).history first = some (last, value)) ∧
    ((session.calls edits).tree.OnePhandle →
      ∀ first second, first ≠ second → ∀ name ∈ phandleNames, ∀ name' ∈ phandleNames, ∀ value,
        (session.calls edits).tree.property? first name = some value →
          (session.calls edits).tree.property? second name' ≠ some value) := by
  have htracked := tracked_calls h edits
  generalize session.calls edits = session at htracked
  refine ⟨?_, fun id name value phandle first second => ?_, ?_⟩
  · intro first second hne name hname name' hname' value hfirst hsecond
    rcases htracked.owns_or_superseded hname hfirst with howns | hold
    · rcases htracked.owns_or_superseded hname' hsecond with howns' | hold
      · exact absurd (howns.eq htracked.indexed howns') hne
      · exact Or.inr hold
    · exact Or.inl hold
  · rw [setProperty_eq_duplicatePhandle_iff]
    refine and_congr_right fun _ => and_congr_right fun _ => and_congr_right fun hvalue => ?_
    rw [htracked.phandleOwner?_eq_some_iff]
    constructor
    · rintro ⟨⟨last, new, hlast, hnew⟩, hne, hsecond⟩
      obtain ⟨rfl, -⟩ := phandleOfValue?_eq_some_iff.1 hvalue
      obtain ⟨rfl, -⟩ := phandleOfValue?_eq_some_iff.1 hnew
      exact ⟨hne, hsecond, last, hlast⟩
    · rintro ⟨hne, hsecond, last, hlast⟩
      exact ⟨⟨last, value, hlast, hvalue⟩, hne, hsecond⟩
  · intro hone first second hne name hname name' hname' value hfirst hsecond
    -- what a node carries is then what it owns
    have howns : ∀ id, ∀ name ∈ phandleNames, session.tree.property? id name = some value →
        session.tree.Owns id value := by
      intro id name hname hcarried
      rw [htracked.wellFormed.property?_eq_some_iff] at hcarried
      exact htracked.wellFormed.mem_phandles_of_mem_properties htracked.indexed hone hcarried hname
    exact hne ((howns first name hname hfirst).eq htracked.indexed
      (howns second name' hname' hsecond))

/-- Calls that leave two nodes with one phandle: the first is given another under its other name,
and the second takes the old one. -/
def doubledCalls : List Edit :=
  [.addNode NodeId.root "a", .addNode NodeId.root "b", .setPhandle 1 1,
    .setProperty 1 "linux,phandle" (PropertyValue.ofCells [2]), .setPhandle 2 1]

end Session

/-- **Different nodes of one tree can carry one phandle.** -/
theorem not_phandles_distinct :
    ¬ ∀ tree : DeviceTree, tree.Reachable → ∀ first second, first ≠ second →
      ∀ name ∈ phandleNames, ∀ name' ∈ phandleNames, ∀ value,
        tree.property? first name = some value → tree.property? second name' ≠ some value := by
  intro h
  have hmade : (Session.calls ⟨DeviceTree.empty, []⟩ Session.doubledCalls).tree.Reachable :=
    Session.reachable_calls Reachable.empty Session.doubledCalls
  have hfirst : (Session.calls ⟨DeviceTree.empty, []⟩ Session.doubledCalls).tree.property? 1
      "phandle" = some [0, 0, 0, 1] := by decide +kernel
  have hsecond : (Session.calls ⟨DeviceTree.empty, []⟩ Session.doubledCalls).tree.property? 2
      "phandle" = some [0, 0, 0, 1] := by decide +kernel
  exact h _ hmade 1 2 (by decide) "phandle" (by decide) "phandle" (by decide) _ hfirst hsecond

/-- Of the two nodes that carry one phandle, the first was given another later.  It is that other
which is refused to the second node now. -/
theorem Session.phandles_apart_doubledCalls :
    Begun ⟨DeviceTree.empty, []⟩ ∧
      ∃ session, session = calls ⟨DeviceTree.empty, []⟩ doubledCalls ∧
        session.history.length = 5 ∧
        session.Superseded 1 "phandle" [0, 0, 0, 1] ∧
        ¬ session.Superseded 2 "phandle" [0, 0, 0, 1] ∧
        session.tree.setProperty 2 "phandle" [0, 0, 0, 2] =
          .error (.duplicatePhandle 2 1 2) := by
  refine ⟨.empty, _, rfl, by decide +kernel, ?_⟩
  obtain ⟨hshared, hrefused, -⟩ := phandles_apart .empty doubledCalls
  have hlatest : ¬ (calls ⟨DeviceTree.empty, []⟩ doubledCalls).Superseded 2 "phandle"
      [0, 0, 0, 1] := by
    rintro ⟨last, new, hlast, hne, -⟩
    have hsame : lastPhandle? (calls ⟨DeviceTree.empty, []⟩ doubledCalls).history 2 =
        some ("phandle", [0, 0, 0, 1]) := by decide +kernel
    rw [hsame, Option.some.injEq, Prod.mk.injEq] at hlast
    exact hne hlast.1.symm
  refine ⟨?_, hlatest, ?_⟩
  · exact (hshared 1 2 (by decide) "phandle" (by decide) "phandle" (by decide) [0, 0, 0, 1]
      (by decide +kernel) (by decide +kernel)).resolve_right hlatest
  · exact (hrefused 2 "phandle" [0, 0, 0, 2] 2 1 2).2 ⟨by decide +kernel, by decide,
      by decide +kernel, by decide, rfl, "linux,phandle", by decide +kernel⟩

end DeviceTree
end RiscvTables
