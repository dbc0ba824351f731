import Mathlib.Data.List.Induction
import RiscvTables.Proofs.DeviceTree.Blob

/-!
# Writing in one pass

`toBlob` lists the tokens of a tree and the names of its properties, and then encodes the tokens
beside the names.  A writer that goes through the tree once has neither list: it fills up two
blocks, and remembers where in the second one it has put a name (`Writer.node`).  What it has
written after some tokens is these tokens, encoded beside the names that they have brought
(`Writer.Wrote`), and names that come later do not change a byte of it.  So it writes the same blob
(`Writer.write_eq_toBlob`).

That blob says in its header where everything is, and its strings block holds every name once
(`Reachable.toBlob_consistent`).
-/

set_option autoImplicit false

namespace RiscvTables

/-! ## First occurrences

`toBlob` lists the names of all properties and then leaves out those that it has listed already.  A
writer adds one name at a time, if it is new.  The two make the same list (`eraseDups_concat`). -/

/-- The members of a list, each of them once, in the order in which they first occur. -/
structure FirstOccurrences (occurrences firsts : List String) : Prop where
  mem_iff : ∀ name, name ∈ firsts ↔ name ∈ occurrences
  nodup : firsts.Nodup
  ordered : firsts.Pairwise fun first second =>
    occurrences.idxOf first < occurrences.idxOf second

/-- A list with a name at its end, unless it has the name already. -/
def addName (names : List String) (name : String) : List String :=
  if name ∈ names then names else names ++ [name]

theorem mem_addName (names : List String) (name : String) : name ∈ addName names name := by
  rw [addName]
  split
  next h => exact h
  next => exact List.mem_concat_self

theorem eraseDups_concat (names : List String) (name : String) :
    (names ++ [name]).eraseDups = addName names.eraseDups name := by
  rw [List.eraseDups_append, List.removeAll, addName]
  by_cases h : name ∈ names <;> simp [h, List.eraseDups_cons]

theorem idxOf_lt_of_concat {names : List String} {old new : String} (hold : old ∈ names)
    (hnew : new ∉ names) : (names ++ [new]).idxOf old < (names ++ [new]).idxOf new := by
  rw [List.idxOf_append_of_mem hold, List.idxOf_append_of_notMem hnew, List.idxOf_cons_self,
    Nat.add_zero]
  exact List.idxOf_lt_length_of_mem hold

theorem firstOccurrences_eraseDups (names : List String) :
    FirstOccurrences names names.eraseDups := by
  suffices hordered : names.eraseDups.Pairwise fun first second =>
      names.idxOf first < names.idxOf second by
    refine ⟨fun name => List.mem_eraseDups, hordered.imp fun hlt heq => ?_, hordered⟩
    exact Nat.lt_irrefl _ (heq ▸ hlt)
  induction names using List.reverseRecOn with
  | nil => exact List.Pairwise.nil
  | append_singleton names name ih =>
    have hold : names.eraseDups.Pairwise fun first second =>
        (names ++ [name]).idxOf first < (names ++ [name]).idxOf second := by
      refine ih.imp_of_mem fun hfirst hsecond hlt => ?_
      rwa [List.idxOf_append_of_mem (List.mem_eraseDups.1 hfirst),
        List.idxOf_append_of_mem (List.mem_eraseDups.1 hsecond)]
    rw [eraseDups_concat, addName]
    split
    next => exact hold
    next hnew =>
      rw [List.mem_eraseDups] at hnew
      refine List.pairwise_append.2 ⟨hold, List.pairwise_singleton _ _, ?_⟩
      intro first hfirst last hlast
      rw [List.mem_singleton.1 hlast]
      exact idxOf_lt_of_concat (List.mem_eraseDups.1 hfirst) hnew

/-! ## The names that tokens bring

Only a property has its name in the strings block.  The tokens of a tree bring the names in
pre-order, since that is the order in which the tokens come. -/

namespace Token

/-- The name of a property. -/
def propertyName? : Token → Option String
  | .property name _ => some name
  | .beginNode _ | .endNode | .nop | .finish => none

theorem length_encode_mod (names : List String) (token : Token) :
    (token.encode names).length % 4 = 0 := by
  cases token with
  | beginNode name =>
    have := Bytes.roundUp_mod 4 (Utf8.encode name ++ [0]).length
    rw [encode, List.length_append, BigEndian.length_encode, Bytes.length_padTo _ (by decide)]
    omega
  | property name value =>
    have := Bytes.roundUp_mod 4 value.length
    simp only [encode, List.length_append, BigEndian.length_encode,
      Bytes.length_padTo value (show 0 < 4 by decide)]
    omega
  | endNode | nop | finish => rw [encode, BigEndian.length_encode]

theorem length_flatMap_encode_mod (names : List String) (tokens : List Token) :
    (tokens.flatMap (encode names)).length % 4 = 0 := by
  induction tokens with
  | nil => rfl
  | cons token tokens ih =>
    have := length_encode_mod names token
    rw [List.flatMap_cons, List.length_append]
    omega

/-- The names that tokens bring, each once. -/
def names (tokens : List Token) : List String :=
  (tokens.filterMap propertyName?).eraseDups

theorem names_append (tokens more : List Token) :
    ∃ new, names (tokens ++ more) = names tokens ++ new := by
  rw [names, List.filterMap_append, List.eraseDups_append]
  exact ⟨_, rfl⟩

theorem names_concat {token : Token} (tokens : List Token) (h : token.propertyName? = none) :
    names (tokens ++ [token]) = names tokens := by
  rw [names, List.filterMap_append, List.filterMap_cons, h, List.filterMap_nil, List.append_nil,
    names]

theorem names_concat_property (tokens : List Token) (name : String) (value : Bytes) :
    names (tokens ++ [.property name value]) = addName (names tokens) name := by
  rw [names, List.filterMap_append, names, ← eraseDups_concat]
  rfl

end Token

namespace DeviceTree

variable {tree : DeviceTree}

theorem filterMap_propertyName?_nodeTokens (levels : Nat) (id : NodeId) :
    (tree.nodeTokens levels id).filterMap Token.propertyName? =
      (tree.subtree levels id).flatMap fun id => (tree.properties id).map Prod.fst := by
  induction levels generalizing id with
  | zero => rfl
  | succ levels ih =>
    rw [subtree, List.flatMap_cons, List.flatMap_assoc]
    cases hname : tree.name? id with
    | none =>
      rw [name?, Option.map_eq_none_iff] at hname
      rw [nodeTokens, properties, children, hname]
      rfl
    | some name =>
      have hproperties : ((tree.properties id).map fun p => Token.property p.1 p.2).filterMap
          Token.propertyName? = (tree.properties id).map Prod.fst := by
        rw [List.filterMap_map]
        exact congrFun (List.filterMap_eq_map (f := Prod.fst)) _
      rw [nodeTokens_succ levels hname]
      simp only [List.cons_append, List.filterMap_cons, List.filterMap_append, hproperties,
        List.filterMap_flatMap, ih, Token.propertyName?, List.filterMap_nil, List.append_nil]

theorem WellFormed.names_tokens (h : tree.WellFormed) :
    Token.names tree.tokens = tree.propertyNames := by
  rw [Token.names, tokens, List.filterMap_append, filterMap_propertyName?_nodeTokens,
    propertyNames_eq, h.preorder_eq_subtree]
  exact congrArg List.eraseDups (List.append_nil _)

end DeviceTree

/-! ## The writer

The writer calls itself for the children of a node.  `node_eq_foldl` turns that into a run over the
tokens of the tree, so that all the rest is proved one token at a time. -/

/-- What is written so far: the structure block, the strings block, and where in it names are. -/
structure Writer where
  block : Bytes
  strings : Bytes
  offsets : List (String × Nat)

namespace Writer

/-- Nothing is written yet. -/
def empty : Writer where
  block := []
  strings := []
  offsets := []

/-- Adds bytes to the structure block. -/
def put (writer : Writer) (bytes : Bytes) : Writer :=
  { writer with block := writer.block ++ bytes }

/-- Fills the structure block up to the next boundary. -/
def pad (writer : Writer) : Writer :=
  { writer with block := Bytes.padTo 4 writer.block }

/-- Where a name is.  A name that is not there yet is added to the strings block. -/
def intern (writer : Writer) (name : String) : Nat × Writer :=
  match writer.offsets.lookup name with
  | some offset => (offset, writer)
  | none =>
    (writer.strings.length,
      { writer with
        strings := writer.strings ++ (Utf8.encode name ++ [0])
        offsets := (name, writer.strings.length) :: writer.offsets })

/-- Writes a token behind what is written so far. -/
def token (writer : Writer) : Token → Writer
  | .beginNode name =>
    (((writer.put (BigEndian.encode 4 1)).put (Utf8.encode name)).put [0]).pad
  | .property name value =>
    let (offset, writer) := writer.intern name
    ((((writer.put (BigEndian.encode 4 3)).put (BigEndian.encode 4 value.length)).put
      (BigEndian.encode 4 offset)).put value).pad
  | .endNode => writer.put (BigEndian.encode 4 2)
  | .nop => writer.put (BigEndian.encode 4 4)
  | .finish => writer.put (BigEndian.encode 4 9)

/-- Writes a node and `levels - 1` generations below it. -/
def node (tree : DeviceTree) : Nat → NodeId → Writer → Writer
  | 0, _, writer => writer
  | levels + 1, id, writer =>
    match tree.node? id with
    | none => writer
    | some found =>
      let writer := writer.token (.beginNode found.name)
      let writer := found.properties.foldl (fun writer p => writer.token (.property p.1 p.2)) writer
      let writer := found.children.foldl (fun writer child => node tree levels child writer) writer
      writer.token .endNode

/-- The blob that a writer makes of so many generations of a tree. -/
def write (levels : Nat) (tree : DeviceTree) : Bytes :=
  let writer := (node tree levels NodeId.root empty).token .finish
  let stringsStart := 56 + writer.block.length
  [Blob.magic, stringsStart + writer.strings.length, 56, stringsStart, 40, 17, 16,
      tree.bootCpu.toNat, writer.strings.length, writer.block.length].flatMap
    (BigEndian.encode 4) ++ List.replicate 16 0 ++ writer.block ++ writer.strings

variable {writer : Writer} {tokens : List Token} {names : List String}

theorem node_eq_foldl (tree : DeviceTree) (levels : Nat) (id : NodeId) (writer : Writer) :
    node tree levels id writer = (tree.nodeTokens levels id).foldl token writer := by
  induction levels generalizing id writer with
  | zero => rfl
  | succ levels ih =>
    rw [node, DeviceTree.nodeTokens]
    cases tree.node? id with
    | none => rfl
    | some found =>
      simp only [List.foldl_cons, List.foldl_append, List.foldl_map, List.foldl_flatMap, ih,
        List.foldl_nil]

/-! ### Names

The strings block only grows at its end, so a name that has a place keeps it. -/

/-- The strings block holds names, and the writer knows where. -/
structure Interned (names : List String) (writer : Writer) : Prop where
  strings : writer.strings = PropertyValue.ofStrings names
  lookup : ∀ name, writer.offsets.lookup name =
    if name ∈ names then some (Token.nameOffset name names) else none

theorem Interned.intern_of_mem (h : Interned names writer) {name : String} (hname : name ∈ names) :
    writer.intern name = (Token.nameOffset name names, writer) := by
  rw [intern, h.lookup, if_pos hname]

theorem Interned.intern_of_notMem (h : Interned names writer) {name : String}
    (hname : name ∉ names) :
    Interned (names ++ [name]) (writer.intern name).2 ∧
      (writer.intern name).1 = Token.nameOffset name (names ++ [name]) := by
  have hoffset : Token.nameOffset name (names ++ [name]) = writer.strings.length := by
    rw [Token.nameOffset_append_of_notMem hname, Token.nameOffset_cons_self, Nat.add_zero,
      h.strings]
  rw [intern, h.lookup, if_neg hname]
  refine ⟨⟨?_, fun other => ?_⟩, hoffset.symm⟩
  · simp only [h.strings, PropertyValue.ofStrings, List.flatMap_append, List.flatMap_singleton]
  · by_cases hother : other = name
    · subst hother
      simp [hoffset]
    · have hlookup := h.lookup other
      have hbeq : (other == name) = false := beq_eq_false_iff_ne.2 hother
      simp only [List.lookup_cons, hbeq, hlookup, List.mem_append, List.mem_singleton, hother,
        or_false]
      split
      next hmem => rw [Token.nameOffset_append_of_mem hmem]
      next => rfl

/-- **Asking for a name leaves it in the strings block**, and the answer is where. -/
theorem Interned.intern (h : Interned names writer) (name : String) :
    Interned (addName names name) (writer.intern name).2 ∧
      (writer.intern name).1 = Token.nameOffset name (addName names name) := by
  rw [addName]
  split
  next hname =>
    rw [h.intern_of_mem hname]
    exact ⟨h, rfl⟩
  next hname => exact h.intern_of_notMem hname

theorem block_intern (writer : Writer) (name : String) :
    (writer.intern name).2.block = writer.block := by
  rw [intern]
  split <;> rfl

/-! ### Tokens

What is said of a writer has to survive the names that are still to come, so `Wrote` speaks of every
list of names that may stand behind those of the tokens so far. -/

/-- The writer has written these tokens, and would have written the same bytes if more names had
been there. -/
structure Wrote (tokens : List Token) (writer : Writer) : Prop where
  interned : Interned (Token.names tokens) writer
  block : ∀ more, writer.block = tokens.flatMap (Token.encode (Token.names tokens ++ more))

theorem wrote_empty : Wrote [] empty where
  interned := ⟨rfl, fun _ => rfl⟩
  block := fun _ => rfl

namespace Wrote

/-- A step of the writer adds a token, if it knows the names that there are then and adds the bytes
of the token to the structure block. -/
theorem concat {writer' : Writer} {token : Token} (h : Wrote tokens writer)
    (hinterned : Interned (Token.names (tokens ++ [token])) writer')
    (hblock : ∀ more, writer'.block =
      writer.block ++ token.encode (Token.names (tokens ++ [token]) ++ more)) :
    Wrote (tokens ++ [token]) writer' := by
  refine ⟨hinterned, fun more => ?_⟩
  obtain ⟨new, hnew⟩ := Token.names_append tokens [token]
  rw [hblock more, List.flatMap_append, List.flatMap_singleton, hnew, List.append_assoc,
    ← h.block]

/-- The structure block ends at a boundary, so that only the end of a token needs to be filled. -/
theorem padTo_block (h : Wrote tokens writer) (words bytes : Bytes)
    (hwords : words.length % 4 = 0) :
    Bytes.padTo 4 (writer.block ++ (words ++ bytes)) =
      writer.block ++ (words ++ Bytes.padTo 4 bytes) := by
  have hblock : writer.block.length % 4 = 0 := by
    rw [h.block []]
    exact Token.length_flatMap_encode_mod _ _
  rw [Bytes.padTo_append _ (by decide) hblock, Bytes.padTo_append _ (by decide) hwords]

theorem concat_of_put {token : Token} (h : Wrote tokens writer) (hname : token.propertyName? = none)
    {block : Bytes} (hblock : ∀ names, block = writer.block ++ token.encode names) :
    Wrote (tokens ++ [token]) { writer with block } := by
  refine h.concat ?_ fun _ => hblock _
  rw [Token.names_concat tokens hname]
  exact ⟨h.interned.strings, h.interned.lookup⟩

/-- **A token is written behind the tokens before it.** -/
theorem token (h : Wrote tokens writer) (token : Token) :
    Wrote (tokens ++ [token]) (writer.token token) := by
  cases token with
  | beginNode name =>
    refine h.concat_of_put rfl fun _ => ?_
    have hpad := h.padTo_block (BigEndian.encode 4 1) (Utf8.encode name ++ [0])
      (by rw [BigEndian.length_encode])
    rw [Token.encode, ← hpad, ← List.append_assoc, ← List.append_assoc]
    rfl
  | property name value =>
    obtain ⟨hinterned, hoffset⟩ := h.interned.intern name
    have hmem := mem_addName (Token.names tokens) name
    refine h.concat ?_ fun more => ?_
    · rw [Token.names_concat_property]
      exact ⟨hinterned.strings, hinterned.lookup⟩
    · have hpad := h.padTo_block (BigEndian.encode 4 3 ++ BigEndian.encode 4 value.length ++
        BigEndian.encode 4 (writer.intern name).1) value
        (by simp only [List.length_append, BigEndian.length_encode])
      rw [Token.names_concat_property, Token.encode, Token.nameOffset_append_of_mem hmem,
        ← hoffset, ← hpad, ← block_intern writer name]
      simp only [← List.append_assoc]
      rfl
  | endNode | nop | finish => exact h.concat_of_put rfl fun _ => rfl

end Wrote

/-- **A writer that is fed with tokens has written them.** -/
theorem wrote_foldl (tokens : List Token) : Wrote tokens (tokens.foldl token empty) := by
  induction tokens using List.reverseRecOn with
  | nil => exact wrote_empty
  | append_singleton tokens last ih =>
    rw [List.foldl_concat]
    exact ih.token last

/-- **One pass writes the same blob**, if it goes down far enough. -/
theorem write_eq_toBlob {tree : DeviceTree} (h : tree.WellFormed) {levels : Nat}
    (hlevels : tree.size ≤ levels) : write levels tree = tree.toBlob := by
  have hwriter : (node tree levels NodeId.root empty).token .finish =
      tree.tokens.foldl token empty := by
    rw [DeviceTree.tokens, List.foldl_concat, node_eq_foldl,
      h.nodeTokens_eq_of_le h.root_lt_size (Nat.le_add_left_of_le hlevels) (Nat.le_add_left _ _)]
  have hwrote := wrote_foldl tree.tokens
  have hblock : (tree.tokens.foldl token empty).block = tree.structureBlock := by
    rw [hwrote.block [], h.names_tokens, List.append_nil, DeviceTree.structureBlock]
  have hstrings : (tree.tokens.foldl token empty).strings = tree.stringsBlock := by
    rw [hwrote.interned.strings, h.names_tokens, DeviceTree.stringsBlock]
  rw [write, hwriter, hblock, hstrings]
  rfl

end Writer

/-! ## What a written blob is like

`Blob.Consistent` and `Token.Placed` speak of bytes and of tokens, and not of how these were
written. -/

/-- The bytes of a token beside a strings block of these names.  A property has the place where
its own name starts, which is behind the names before it. -/
def Token.Placed (names : List String) : Token → Bytes → Prop
  | .beginNode name, bytes =>
    bytes = Bytes.padTo 4 (BigEndian.encode 4 1 ++ Utf8.encode name ++ [0])
  | .endNode, bytes => bytes = BigEndian.encode 4 2
  | .property name value, bytes =>
    ∃ before after, names = before ++ name :: after ∧
      (PropertyValue.ofStrings before).length < UInt32.size ∧ value.length < UInt32.size ∧
      bytes = Bytes.padTo 4 (BigEndian.encode 4 3 ++ BigEndian.encode 4 value.length ++
        BigEndian.encode 4 (PropertyValue.ofStrings before).length ++ value)
  | .nop, bytes => bytes = BigEndian.encode 4 4
  | .finish, bytes => bytes = BigEndian.encode 4 9

theorem Token.placed_encode {names : List String} {token : Token}
    (hsize : (PropertyValue.ofStrings names).length < UInt32.size)
    (htoken : ∀ name value, token = .property name value →
      name ∈ names ∧ value.length < UInt32.size) :
    token.Placed names (token.encode names) := by
  cases token with
  | beginNode name =>
    show _ = Bytes.padTo 4 _
    rw [List.append_assoc, Bytes.padTo_append _ (by decide) (by rw [BigEndian.length_encode])]
    rfl
  | property name value =>
    obtain ⟨hname, hvalue⟩ := htoken name value rfl
    have hoffset := nameOffset_le hname
    obtain ⟨before, after, hnames, hbefore⟩ := exists_append_of_mem hname
    rw [hbefore] at hoffset
    refine ⟨before, after, hnames, Nat.lt_of_le_of_lt hoffset hsize, hvalue, ?_⟩
    rw [Bytes.padTo_append _ (by decide)
      (by simp only [List.length_append, BigEndian.length_encode]), ← hbefore, encode]
  | endNode | nop | finish => rfl

/-- The header of a blob gives the places and the sizes of what is there: an empty reservation map,
the structure block with the token that ends it, and the strings block, with nothing in between. -/
structure Blob.Consistent (data : Bytes) : Prop where
  valid : ValidHeader data
  totalSize_eq : headerWord data 1 = data.length
  structureStart_eq : headerWord data 2 = 56
  stringsStart_eq : headerWord data 3 = headerWord data 2 + headerWord data 9
  stringsStop_eq : headerWord data 3 + headerWord data 8 = data.length
  structureSize_mod : headerWord data 9 % 4 = 0
  length_structureBytes : (structureBytes data).length = headerWord data 9
  length_stringsBytes : (stringsBytes data).length = headerWord data 8
  reservation_eq : (data.take 56).drop (headerWord data 4) = List.replicate 16 0
  eq_append : data = data.take 56 ++ (structureBytes data ++ stringsBytes data)
  exists_finish : ∃ front, structureBytes data = front ++ BigEndian.encode 4 9

namespace DeviceTree

variable {tree : DeviceTree}

theorem consistent_toBlob (hsize : tree.toBlob.length < UInt32.size) :
    Blob.Consistent tree.toBlob := by
  have hstart : Blob.headerWord tree.toBlob 2 = 56 := headerWord_toBlob hsize rfl
  have hstrings : Blob.headerWord tree.toBlob 3 = 56 + tree.structureBlock.length :=
    headerWord_toBlob hsize rfl
  have hreservation : Blob.headerWord tree.toBlob 4 = 40 := headerWord_toBlob hsize rfl
  have hstringsSize : Blob.headerWord tree.toBlob 8 = tree.stringsBlock.length :=
    headerWord_toBlob hsize rfl
  have hstructureSize : Blob.headerWord tree.toBlob 9 = tree.structureBlock.length :=
    headerWord_toBlob hsize rfl
  have hfront : tree.toBlob.take 56 = tree.headerWords.flatMap (BigEndian.encode 4) ++
      List.replicate Blob.reservationEnd 0 := by
    rw [toBlob_eq_append, ← List.append_assoc, List.take_left' length_front]
  exact {
    valid := validHeader_toBlob hsize
    totalSize_eq := (headerWord_toBlob hsize rfl).trans length_toBlob.symm
    structureStart_eq := hstart
    stringsStart_eq := by rw [hstrings, hstart, hstructureSize]
    stringsStop_eq := by rw [hstrings, hstringsSize, length_toBlob]
    structureSize_mod := by
      rw [hstructureSize]
      exact Token.length_flatMap_encode_mod _ _
    length_structureBytes := by rw [structureBytes_toBlob hsize, hstructureSize]
    length_stringsBytes := by rw [stringsBytes_toBlob hsize, hstringsSize]
    reservation_eq := by
      rw [hreservation, hfront, List.drop_left' (by simp [headerWords])]
      rfl
    eq_append := by
      rw [hfront, structureBytes_toBlob hsize, stringsBytes_toBlob hsize, toBlob_eq_append,
        List.append_assoc]
    exists_finish := by
      rw [structureBytes_toBlob hsize, structureBlock, tokens, List.flatMap_append,
        List.flatMap_singleton]
      exact ⟨_, rfl⟩ }

/-- **A blob is consistent and holds every name once.**  It is what one pass writes, however many
generations it is ready for beyond those that there are.  Its header agrees with its blocks, its
strings block is the property names of the tree in the order in which a pre-order walk meets them
first, and its structure block is the tokens of the tree, where a property has the place of its own
name. -/
theorem Reachable.toBlob_consistent (h : tree.Reachable)
    (hsize : tree.toBlob.length < UInt32.size) :
    (∀ levels, tree.size ≤ levels → Writer.write levels tree = tree.toBlob) ∧
      Blob.Consistent tree.toBlob ∧
      ∃ names,
        FirstOccurrences (tree.preorder.flatMap fun id => (tree.properties id).map Prod.fst) names ∧
        Blob.stringsBytes tree.toBlob = PropertyValue.ofStrings names ∧
        ∃ pieces, List.Forall₂ (Token.Placed names) tree.tokens pieces ∧
          Blob.structureBytes tree.toBlob = pieces.flatten := by
  have hwf := h.wellFormed
  have hstrings : (PropertyValue.ofStrings tree.propertyNames).length < UInt32.size := by
    rw [length_toBlob, stringsBlock] at hsize
    omega
  refine ⟨fun _ => Writer.write_eq_toBlob hwf, consistent_toBlob hsize, tree.propertyNames, ?_,
    stringsBytes_toBlob hsize, tree.tokens.map (Token.encode tree.propertyNames), ?_, ?_⟩
  · rw [propertyNames_eq]
    exact firstOccurrences_eraseDups _
  · rw [List.forall₂_map_right_iff, List.forall₂_same]
    refine fun token htoken => Token.placed_encode hstrings ?_
    rintro name value rfl
    refine ⟨?_, length_lt_of_property_mem_tokens hsize htoken⟩
    rw [← hwf.names_tokens, Token.names, List.mem_eraseDups]
    exact List.mem_filterMap.2 ⟨_, htoken, rfl⟩
  · rw [structureBytes_toBlob hsize, structureBlock, List.flatMap_def]

/-- A tree that is not in pre-order, with names that several of its nodes have. -/
def sharedNameEdits : List Edit :=
  [.addNode NodeId.root "a", .addNode NodeId.root "b", .addNode 1 "c",
    .setProperty 2 "status" [], .setProperty 3 "status" [1, 2, 3, 4, 5], .setProperty 3 "reg" [6],
    .setProperty 1 "é" [7, 8], .setProperty NodeId.root "reg" [9], .setProperty 2 "é" [10]]

theorem toBlob_consistent_sharedNameEdits :
    ∃ tree, ofEdits? sharedNameEdits = some tree ∧ tree.toBlob.length < UInt32.size ∧
      (tree.preorder.flatMap fun id => (tree.properties id).map Prod.fst) =
        ["reg", "é", "status", "reg", "status", "é"] ∧
      Blob.stringsBytes tree.toBlob = PropertyValue.ofStrings ["reg", "é", "status"] ∧
      Writer.write 4 tree = tree.toBlob ∧ Blob.Consistent tree.toBlob ∧
      ∃ names, FirstOccurrences ["reg", "é", "status", "reg", "status", "é"] names ∧
        Blob.stringsBytes tree.toBlob = PropertyValue.ofStrings names ∧
        ∃ pieces, List.Forall₂ (Token.Placed names) tree.tokens pieces ∧
          Blob.structureBytes tree.toBlob = pieces.flatten := by
  have hruns : (ofEdits? sharedNameEdits).any fun tree =>
      decide (tree.size ≤ 4) && decide (tree.toBlob.length < UInt32.size) &&
      decide ((tree.preorder.flatMap fun id => (tree.properties id).map Prod.fst) =
        ["reg", "é", "status", "reg", "status", "é"]) &&
      decide (Blob.stringsBytes tree.toBlob =
        PropertyValue.ofStrings ["reg", "é", "status"]) := by
    decide +kernel
  obtain ⟨tree, htree, hruns⟩ := (Option.any_eq_true _ _).1 hruns
  simp only [Bool.and_eq_true, decide_eq_true_eq] at hruns
  obtain ⟨⟨⟨hlevels, hsize⟩, hoccurrences⟩, hbytes⟩ := hruns
  obtain ⟨hwrite, hconsistent, names, hnames, hstrings, hpieces⟩ :=
    (reachable_of_ofEdits? htree).toBlob_consistent hsize
  rw [hoccurrences] at hnames
  exact ⟨tree, htree, hsize, hoccurrences, hbytes, hwrite 4 hlevels, hconsistent, names, hnames,
    hstrings, hpieces⟩

end DeviceTree
end RiscvTables
