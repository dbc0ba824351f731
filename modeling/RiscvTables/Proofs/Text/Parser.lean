import Mathlib.Data.List.TakeDrop
import RiscvTables.Text.Parser

/-!
# What parsers read back

A parser reads a word as a value if it takes just that word from the front of a text, whatever
follows it.  A loop reads a text as some values if it takes them before anything else that it takes
(`ReadsAll`); texts that are read so can be put together.

A loop is bounded by the length of its text.  `Takes` is the same loop without the bound, and every
round of it takes a character at least, so that the bound is never felt (`Takes.many_eq`).
-/

set_option autoImplicit false

namespace RiscvTables
namespace Parser

variable {α : Type} {parser : Parser α} {isMember : Char → Bool}

/-- The parser takes the word for the value, whatever stands behind it. -/
def Reads (parser : Parser α) (word : List Char) (value : α) : Prop :=
  ∀ rest, parser (word ++ rest) = some (value, rest)

/-! ## Single words -/

theorem literal_append (word rest : List Char) : literal word (word ++ rest) = some ((), rest) := by
  induction word with
  | nil => rfl
  | cons c word ih => rw [List.cons_append, literal, if_pos rfl, ih]

theorem literal_eq_none_of_head? {c : Char} {word text : List Char} (h : text.head? ≠ some c) :
    literal (c :: word) text = none := by
  cases text with
  | nil => rfl
  | cons d text => rw [literal, if_neg (by rintro rfl; exact h rfl)]

theorem orElse_eq_left {first second : Parser α} {text rest : List Char} {value : α}
    (h : first text = some (value, rest)) : orElse first second text = some (value, rest) := by
  rw [orElse, h, Option.some_or]

theorem orElse_eq_right {first second : Parser α} {text : List Char} (h : first text = none) :
    orElse first second text = second text := by
  rw [orElse, h, Option.none_or]

theorem optional_eq_none {text : List Char} (h : parser text = none) :
    optional parser text = some (none, text) := by
  rw [optional, h]

/-! ## Runs of a class -/

theorem ne_of_class {c d : Char} (hc : isMember c = true) (hd : isMember d = false) : c ≠ d := by
  rintro rfl
  exact Bool.noConfusion (hc.symm.trans hd)

theorem span_append {word rest : List Char} (hword : ∀ c ∈ word, isMember c = true)
    (hrest : ∀ c ∈ rest.head?, isMember c = false) :
    (word ++ rest).span isMember = (word, rest) := by
  rw [List.span_eq_takeWhile_dropWhile, List.takeWhile_append_of_pos hword,
    List.dropWhile_append_of_pos hword]
  cases rest with
  | nil => simp
  | cons c rest => simp [hrest c rfl]

theorem run_append {word rest : List Char} (hword : ∀ c ∈ word, isMember c = true)
    (hrest : ∀ c ∈ rest.head?, isMember c = false) :
    run isMember (word ++ rest) = some (word, rest) := by
  rw [run, span_append hword hrest]

theorem run1_append {word rest : List Char} (hne : word ≠ [])
    (hword : ∀ c ∈ word, isMember c = true) (hrest : ∀ c ∈ rest.head?, isMember c = false) :
    run1 isMember (word ++ rest) = some (word, rest) := by
  rw [run1, span_append hword hrest]
  cases word with
  | nil => exact absurd rfl hne
  | cons c word => rfl

/-- A count of characters is taken from the run at the front of a text, or there are too few. -/
theorem exactly_append {word rest : List Char} (hword : ∀ c ∈ word, isMember c = true)
    (hrest : ∀ c ∈ rest.head?, isMember c = false) (count : Nat) :
    exactly isMember count (word ++ rest) =
      if count ≤ word.length then some (word.take count, word.drop count ++ rest) else none := by
  induction count generalizing word with
  | zero => simp [exactly]
  | succ count ih =>
    cases word with
    | nil =>
      cases rest with
      | nil => rfl
      | cons c rest => simp [exactly, hrest c rfl]
    | cons c word =>
      obtain ⟨hc, hword⟩ := List.forall_mem_cons.1 hword
      rw [List.cons_append, exactly, if_pos hc, ih hword]
      by_cases hle : count ≤ word.length <;> simp [hle]

theorem reads_exactly {word : List Char} (hword : ∀ c ∈ word, isMember c = true) :
    Reads (exactly isMember word.length) word word := by
  intro rest
  induction word with
  | nil => rfl
  | cons c word ih =>
    obtain ⟨hc, hword⟩ := List.forall_mem_cons.1 hword
    simp [exactly, hc, ih hword]

/-! ## Loops -/

/-- The parser takes values from the front of a text one by one until it takes nothing more. -/
inductive Takes (parser : Parser α) : List Char → List α → List Char → Prop
  | stop {text : List Char} : parser text = none → Takes parser text [] text
  | more {text next rest : List Char} {value : α} {values : List α} :
    parser text = some (value, next) → next.length < text.length →
      Takes parser next values rest → Takes parser text (value :: values) rest

theorem Takes.repeatUpTo_eq {text rest : List Char} {values : List α}
    (h : Takes parser text values rest) {rounds : Nat} (hrounds : text.length ≤ rounds) :
    repeatUpTo parser rounds text = some (values, rest) := by
  induction h generalizing rounds with
  | @stop text hstop =>
    cases rounds with
    | zero => rfl
    | succ rounds => rw [repeatUpTo, hstop]
  | @more text next rest value values hmore hlt _ ih =>
    cases rounds with
    | zero => omega
    | succ rounds =>
      rw [repeatUpTo, hmore]
      simp only
      rw [ih (by omega), Option.map_some]

/-- **The bound of a loop is never felt.** -/
theorem Takes.many_eq {text rest : List Char} {values : List α}
    (h : Takes parser text values rest) : many parser text = some (values, rest) :=
  h.repeatUpTo_eq (Nat.le_refl _)

/-- A loop takes the text for the values, whatever it takes behind it. -/
def ReadsAll (parser : Parser α) (text : List Char) (values : List α) : Prop :=
  ∀ ⦃next rest : List Char⦄ ⦃others : List α⦄,
    Takes parser next others rest → Takes parser (text ++ next) (values ++ others) rest

/-- A parser that needs a character to read anything may be looped. -/
theorem Reads.readsAll {word : List Char} {value : α} (h : Reads parser word value)
    (hnil : parser [] = none) : ReadsAll parser word [value] := by
  intro next rest others hothers
  refine .more (h next) ?_ hothers
  have hne : word ≠ [] := by
    rintro rfl
    cases hnil.symm.trans (h [])
  have := List.length_pos_iff.2 hne
  rw [List.length_append]
  omega

theorem readsAll_nil : ReadsAll parser [] [] := fun _ _ _ h => h

theorem ReadsAll.append {text text' : List Char} {values values' : List α}
    (h : ReadsAll parser text values) (h' : ReadsAll parser text' values') :
    ReadsAll parser (text ++ text') (values ++ values') := by
  intro next rest others hothers
  rw [List.append_assoc, List.append_assoc]
  exact h (h' hothers)

theorem readsAll_flatMap {write : α → List Char} {values : List α} (hnil : parser [] = none)
    (h : ∀ value ∈ values, Reads parser (write value) value) :
    ReadsAll parser (values.flatMap write) values := by
  induction values with
  | nil => exact readsAll_nil
  | cons value values ih =>
    obtain ⟨hvalue, hvalues⟩ := List.forall_mem_cons.1 h
    exact (hvalue.readsAll hnil).append (ih hvalues)

/-- What a printer writes for a list, piece by piece, a loop reads piece by piece. -/
theorem readsAll_of_mapM {β : Type} {write : β → Option (List Char)} {values : β → List α}
    {sources : List β} {words : List (List Char)} (hwords : sources.mapM write = some words)
    (h : ∀ source ∈ sources, ∀ word, write source = some word →
      ReadsAll parser word (values source)) :
    ReadsAll parser words.flatten (sources.flatMap values) := by
  induction sources generalizing words with
  | nil =>
    cases hwords
    exact readsAll_nil
  | cons source sources ih =>
    obtain ⟨hsource, hsources⟩ := List.forall_mem_cons.1 h
    rw [List.mapM_cons] at hwords
    obtain ⟨word, hword, hwords⟩ := Option.bind_eq_some_iff.1 hwords
    obtain ⟨others, hothers, hwords⟩ := Option.bind_eq_some_iff.1 hwords
    cases hwords
    exact (hsource word hword).append (ih hothers hsources)

/-- **A loop that can read a text reads all of it**, up to where its parser stops. -/
theorem ReadsAll.many_eq {text rest : List Char} {values : List α}
    (h : ReadsAll parser text values) (hrest : parser rest = none) :
    many parser (text ++ rest) = some (values, rest) := by
  have htakes := h (.stop hrest)
  rw [List.append_nil] at htakes
  exact htakes.many_eq

theorem many_eq_nil {text : List Char} (h : parser text = none) :
    many parser text = some ([], text) :=
  (Takes.stop h).many_eq

/-- A loop over single characters takes the longest run of those that it can read. -/
theorem many_append {parser : Parser Char} {word rest : List Char} (hnil : parser [] = none)
    (hword : ∀ c ∈ word, Reads parser [c] c) (hrest : parser rest = none) :
    many parser (word ++ rest) = some (word, rest) := by
  have hmany := (readsAll_flatMap hnil hword).many_eq hrest
  rwa [List.flatMap_singleton'] at hmany

theorem separated1_eq_of_one {β : Type} {separator : Parser β} {text rest : List Char} {value : α}
    (hvalue : parser text = some (value, rest)) (hrest : separator rest = none) :
    separated1 separator parser text = some ([value], rest) := by
  rw [separated1, hvalue]
  simp only [bind, Option.bind]
  rw [many_eq_nil (by rw [hrest])]
  rfl

end Parser
end RiscvTables
