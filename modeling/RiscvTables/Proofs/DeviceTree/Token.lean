import RiscvTables.Proofs.DeviceTree.Spelling

/-!
# Tokens that are written are read back

A writer spells each token, fills it up with zeros and gives each name of a property the place
where the strings block holds it first (`Token.spells_encode`).  A builder that is run on written
tokens therefore sees just these tokens (`Blob.Builder.run_encode`).

`Token.Writable` says which tokens survive: a name of a node must have no zero byte, and a
property must have its name in the strings block.
-/

set_option autoImplicit false

namespace RiscvTables
namespace Token

/-! ## Names -/

theorem nameOffset_append_of_notMem {name : String} {before : List String} (h : name ∉ before)
    (after : List String) :
    nameOffset name (before ++ after) =
      (PropertyValue.ofStrings before).length + nameOffset name after := by
  induction before with
  | nil => exact (Nat.zero_add _).symm
  | cons first before ih =>
    obtain ⟨hfirst, hbefore⟩ := List.ne_and_not_mem_of_not_mem_cons h
    rw [PropertyValue.ofStrings, List.flatMap_cons, ← PropertyValue.ofStrings, List.cons_append,
      nameOffset, if_neg (Ne.symm hfirst), ih hbefore]
    simp only [List.length_append, List.length_singleton, Nat.add_assoc]

theorem nameOffset_cons_self (name : String) (names : List String) :
    nameOffset name (name :: names) = 0 := by
  rw [nameOffset, if_pos rfl]

/-- The offset of a name is what the names before it take. -/
theorem exists_append_of_mem {name : String} {names : List String} (h : name ∈ names) :
    ∃ before after, names = before ++ name :: after ∧
      nameOffset name names = (PropertyValue.ofStrings before).length := by
  obtain ⟨before, after, rfl, hbefore⟩ := List.eq_append_cons_of_mem h
  refine ⟨before, after, rfl, ?_⟩
  rw [nameOffset_append_of_notMem hbefore, nameOffset_cons_self, Nat.add_zero]

/-- What is added behind a name does not move it. -/
theorem nameOffset_append_of_mem {name : String} {names : List String} (h : name ∈ names)
    (more : List String) : nameOffset name (names ++ more) = nameOffset name names := by
  obtain ⟨before, after, rfl, hbefore⟩ := List.eq_append_cons_of_mem h
  rw [List.append_assoc, List.cons_append, nameOffset_append_of_notMem hbefore,
    nameOffset_append_of_notMem hbefore, nameOffset_cons_self, nameOffset_cons_self]

/-- A name of the strings block stands at its offset. -/
theorem exists_append_ofStrings {name : String} {names : List String} (h : name ∈ names) :
    ∃ before after, PropertyValue.ofStrings names = before ++ (Utf8.encode name ++ 0 :: after) ∧
      before.length = nameOffset name names := by
  obtain ⟨before, after, rfl, hoffset⟩ := exists_append_of_mem h
  refine ⟨PropertyValue.ofStrings before, PropertyValue.ofStrings after, ?_, hoffset.symm⟩
  simp only [PropertyValue.ofStrings, List.flatMap_append, List.flatMap_cons, List.append_assoc,
    List.singleton_append]

theorem nameOffset_le {name : String} {names : List String} (h : name ∈ names) :
    nameOffset name names ≤ (PropertyValue.ofStrings names).length := by
  obtain ⟨before, after, hstrings, hlength⟩ := exists_append_ofStrings h
  rw [hstrings, List.length_append, hlength]
  exact Nat.le_add_right _ _

/-! ## Tokens -/

/-- The tokens that survive being written for a strings block that holds `names`. -/
def Writable (names : List String) : Token → Prop
  | .beginNode name => 0 ∉ Utf8.encode name
  | .property name value => name ∈ names ∧ value.length < UInt32.size
  | .endNode | .nop | .finish => True

theorem four_le_length_encode (names : List String) (token : Token) :
    4 ≤ (token.encode names).length := by
  cases token <;> simp only [encode, List.length_append, BigEndian.length_encode] <;> omega

theorem padded_padTo (content : Bytes) : Padded content (Bytes.padTo 4 content) := by
  obtain ⟨-, hgap, hmod⟩ := add_gap content.length
  refine ⟨_, rfl, by rwa [List.length_replicate], ?_⟩
  rwa [Bytes.padTo, List.length_append, List.length_replicate]

/-- What stands in front of a number of words does not matter for its boundary. -/
theorem Padded.append {before content bytes : Bytes} (hbefore : before.length % 4 = 0)
    (h : Padded content bytes) : Padded (before ++ content) (before ++ bytes) := by
  obtain ⟨padding, rfl, hlt, hmod⟩ := h
  refine ⟨padding, (List.append_assoc _ _ _).symm, hlt, ?_⟩
  rw [List.length_append, Nat.add_mod, hbefore, hmod]

variable {blocks : Blocks} {names : List String}

/-- **A written token is spelled.** -/
theorem spells_encode (hnames : ∀ name ∈ names, 0 ∉ Utf8.encode name)
    (hsize : (PropertyValue.ofStrings names).length < UInt32.size) {token : Token}
    (htoken : token.Writable names) :
    Spells (PropertyValue.ofStrings names) token (token.encode names) := by
  cases token with
  | beginNode name =>
    refine ⟨htoken, ?_⟩
    rw [List.append_assoc]
    exact (padded_padTo _).append (by rw [BigEndian.length_encode])
  | property name value =>
    obtain ⟨hname, hvalue⟩ := htoken
    refine ⟨nameOffset name names, ?_, Nat.lt_of_le_of_lt (nameOffset_le hname) hsize, hvalue,
      (padded_padTo _).append (by simp only [List.length_append, BigEndian.length_encode])⟩
    obtain ⟨before, after, hstrings, hlength⟩ := exists_append_ofStrings hname
    exact ⟨hnames name hname, before, after, hstrings, hlength⟩
  | endNode | nop | finish => rfl

end Token

namespace Blob
namespace Builder

variable {blocks : Token.Blocks} {names : List String}

/-- **A builder that is run on written tokens sees these tokens.** -/
theorem run_encode (hstrings : blocks.strings = PropertyValue.ofStrings names)
    (hnames : ∀ name ∈ names, 0 ∉ Utf8.encode name)
    (hsize : (PropertyValue.ofStrings names).length < UInt32.size) {tokens : List Token}
    (htokens : ∀ token ∈ tokens, token.Writable names ∧ token ≠ .finish) {offset steps : Nat}
    (hoffset : offset % 4 = 0) (hsteps : tokens.length < steps) (rest : Bytes)
    (builder : Builder) :
    run blocks steps
        { offset, rest := (tokens ++ [Token.finish]).flatMap (Token.encode names) ++ rest }
        builder =
      tokens.foldlM accept builder >>= finish := by
  have hwritable : ∀ token ∈ tokens ++ [Token.finish], token.Writable names := by
    intro token htoken
    rcases List.mem_append.1 htoken with htoken | htoken
    · exact (htokens token htoken).1
    · obtain rfl := List.mem_singleton.1 htoken
      trivial
  have hspells : List.Forall₂ (Token.Spells blocks.strings) (tokens ++ [.finish])
      ((tokens ++ [Token.finish]).map (Token.encode names)) := by
    rw [hstrings, List.forall₂_map_right_iff, List.forall₂_same]
    exact fun token htoken => Token.spells_encode hnames hsize (hwritable token htoken)
  exact run_of_spells hspells (fun hmem => (htokens _ hmem).2 rfl) hoffset hsteps rest builder

end Builder
end Blob
end RiscvTables
