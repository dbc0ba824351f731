import Mathlib.Data.List.Basic
import RiscvTables.Proofs.Format
import RiscvTables.Proofs.Toml.Strings
import RiscvTables.Toml.Reader

/-!
# Lines of TOML

Each line that the printer writes is read as what it says: a key and its value
(`reads_line_entry`), or the header of a table (`reads_line_table`, `reads_line_element`).

What stands on a line ends where the line does, so most of what its parts are read as holds in
front of a line feed only (`ReadsAtLineEnd`).  A number needs that: the reader tries dates and
fractions first, which start with digits as well.
-/

set_option autoImplicit false

namespace RiscvTables
namespace Toml

open RiscvTables.Document (IsBare)
open RiscvTables.Parser (Reads)

variable {word rest : List Char}

/-- The parser takes the word for the value where the line ends behind it. -/
def ReadsAtLineEnd {α : Type} (parser : Parser α) (word : List Char) (value : α) : Prop :=
  ∀ rest, parser (word ++ '\n' :: rest) = some (value, '\n' :: rest)

/-! ## Digits -/

theorem numberOfDigits_eq_ofDigitChars {digits : List Char} (h : ∀ c ∈ digits, c.isDigit = true) :
    numberOfDigits 10 digits = Nat.ofDigitChars 10 digits 0 := by
  rw [numberOfDigits, Nat.ofDigitChars_eq_foldl]
  refine List.foldl_ext _ _ _ fun n c hc => ?_
  have hle : c ≤ '9' := by
    have := h c hc
    simp only [Char.isDigit, Bool.and_eq_true, decide_eq_true_eq] at this
    exact this.2
  rw [digitValue, if_pos hle, Nat.mul_comm]

theorem isDigit_toDigits (n : Nat) : ∀ c ∈ Nat.toDigits 10 n, c.isDigit = true :=
  fun _ => Nat.isDigit_of_mem_toDigits (by decide) (by decide)

theorem numberOfDigits_toDigits (n : Nat) : numberOfDigits 10 (Nat.toDigits 10 n) = n := by
  rw [numberOfDigits_eq_ofDigitChars (isDigit_toDigits n), Nat.ofDigitChars_ten_toDigits]

theorem toDigits_eq_cons (n : Nat) :
    ∃ first tail, Nat.toDigits 10 n = first :: tail ∧ first.isDigit = true := by
  cases h : Nat.toDigits 10 n with
  | nil => exact absurd h Nat.toDigits_ne_nil
  | cons first tail => exact ⟨first, tail, rfl, isDigit_toDigits n _ (h ▸ List.mem_cons_self)⟩

/-- No zero stands in front of other digits. -/
theorem toDigits_eq_of_head? {n : Nat} (h : (Nat.toDigits 10 n).head? = some '0') :
    Nat.toDigits 10 n = ['0'] := by
  induction n using Nat.strongRecOn with
  | ind n ih =>
    by_cases hlt : n < 10
    · rw [Nat.toDigits_of_lt_base hlt] at h ⊢
      rw [Option.some.inj h]
    · -- Here the zero would stand in front of the digits of `n / 10`, which is not zero.
      have hle : 10 ≤ n := Nat.le_of_not_lt hlt
      rw [Nat.toDigits_of_base_le (by decide) hle] at h
      have hhead : (Nat.toDigits 10 (n / 10)).head? = some '0' := by
        rwa [List.head?_append_of_ne_nil _ Nat.toDigits_ne_nil] at h
      have hzero := congrArg (numberOfDigits 10) (ih (n / 10) (by omega) hhead)
      rw [numberOfDigits_toDigits] at hzero
      have hzero' : n / 10 = 0 := hzero
      omega

theorem digits_append {isMember : Char → Bool} (hne : word ≠ [])
    (hword : ∀ c ∈ word, isMember c = true)
    (hrest : ∀ c ∈ rest.head?, isMember c = false ∧ c ≠ '_') :
    digits isMember (word ++ rest) = some (word, rest) := by
  obtain ⟨first, others, rfl⟩ := List.exists_cons_of_ne_nil hne
  obtain ⟨hfirst, hothers⟩ := List.forall_mem_cons.1 hword
  have hread : charOf isMember (first :: (others ++ rest)) = some (first, others ++ rest) :=
    reads_charOf hfirst _
  rw [List.cons_append, digits, hread]
  simp only [bind, Option.bind]
  rw [Parser.many_append rfl]
  · rfl
  · exact fun c hc rest => Parser.orElse_eq_left (reads_charOf (hothers c hc) rest)
  · cases rest with
    | nil => rfl
    | cons c rest =>
      obtain ⟨hmember, hunderscore⟩ := hrest c rfl
      refine (Parser.orElse_eq_right (by simp [charOf, hmember])).trans ?_
      rw [Parser.literal_eq_none_of_head? (by simpa using hunderscore)]

/-! ## Numbers -/

section Number

variable {number : List Char} (hnumber : ∀ c ∈ number, c.isDigit = true)

include hnumber

theorem head?_ne_of_digits {c : Char} (hdigit : c.isDigit = false) (hline : c ≠ '\n') :
    (number ++ '\n' :: rest).head? ≠ some c := by
  cases number with
  | nil => simpa using hline.symm
  | cons d number =>
    rintro ⟨⟩
    rw [hnumber c List.mem_cons_self] at hdigit
    exact absurd hdigit (by decide)

theorem literal_eq_none_of_digits {c : Char} {others : List Char} (hdigit : c.isDigit = false)
    (hline : c ≠ '\n') : Parser.literal (c :: others) (number ++ '\n' :: rest) = none :=
  Parser.literal_eq_none_of_head? (head?_ne_of_digits hnumber hdigit hline)

/-- A number of some width takes that many digits, if it takes anything. -/
theorem numeral_digits (width low high : Nat) :
    numeral width low high (number ++ '\n' :: rest) = none ∨
      ∃ n, numeral width low high (number ++ '\n' :: rest) =
        some (n, number.drop width ++ '\n' :: rest) := by
  have hexactly : Parser.exactly Char.isDigit width (number ++ '\n' :: rest) = _ :=
    Parser.exactly_append hnumber (by simp) width
  by_cases hwidth : width ≤ number.length
  · rw [if_pos hwidth] at hexactly
    simp only [numeral, hexactly, bind, Option.bind]
    split_ifs
    · exact .inr ⟨_, rfl⟩
    · exact .inl rfl
  · rw [if_neg hwidth] at hexactly
    exact .inl (by rw [numeral, hexactly]; rfl)

/-- Digits alone are no date: there is no dash behind the year. -/
theorem date_digits : date (number ++ '\n' :: rest) = none := by
  have hdash : Parser.literal ['-'] (number.drop 4 ++ '\n' :: rest) = none :=
    literal_eq_none_of_digits (fun c hc => hnumber c (List.mem_of_mem_drop hc)) (by decide)
      (by decide)
  rcases numeral_digits hnumber 4 0 9999 with h | ⟨year, h⟩
  · rw [date, h]; rfl
  · rw [date, h]
    exact congrArg (Option.bind · _) hdash

/-- Digits alone are no time: there is no colon behind the hour. -/
theorem time_digits : time (number ++ '\n' :: rest) = none := by
  have hcolon : Parser.literal [':'] (number.drop 2 ++ '\n' :: rest) = none :=
    literal_eq_none_of_digits (fun c hc => hnumber c (List.mem_of_mem_drop hc)) (by decide)
      (by decide)
  rcases numeral_digits hnumber 2 0 23 with h | ⟨hour, h⟩
  · rw [time, h]; rfl
  · rw [time, h]
    exact congrArg (Option.bind · _) hcolon

theorem moment_digits : moment (number ++ '\n' :: rest) = none := by
  simp [moment, written, Parser.orElse, date_digits hnumber, time_digits hnumber, bind,
    Option.bind]

theorem optional_sign_digits :
    Parser.optional sign (number ++ '\n' :: rest) = some (none, number ++ '\n' :: rest) := by
  refine Parser.optional_eq_none ?_
  have hminus : (number ++ '\n' :: rest).head? ≠ some '-' :=
    head?_ne_of_digits hnumber (by decide) (by decide)
  have hplus : (number ++ '\n' :: rest).head? ≠ some '+' :=
    head?_ne_of_digits hnumber (by decide) (by decide)
  unfold sign
  split
  · next h => exact absurd (congrArg List.head? h) hminus
  · next h => exact absurd (congrArg List.head? h) hplus
  · rfl

end Number

section Decimal

variable (n : Nat)

theorem readsAtLineEnd_decimalInteger :
    ReadsAtLineEnd decimalInteger (Nat.toDigits 10 n) (false, Nat.toDigits 10 n) := by
  intro rest
  rw [decimalInteger, optional_sign_digits (isDigit_toDigits n)]
  simp only [bind, Option.bind]
  split
  · next tail hzero =>
    have hhead : (Nat.toDigits 10 n).head? = some '0' := by
      rw [← List.head?_append_of_ne_nil _ Nat.toDigits_ne_nil, hzero]
      rfl
    rw [toDigits_eq_of_head? hhead] at hzero ⊢
    rw [← (List.cons.inj hzero).2]
    rfl
  · rw [digits_append Nat.toDigits_ne_nil (isDigit_toDigits n) (by simp)]
    rfl

/-- Digits alone are no fraction: there is neither a point nor an exponent behind them. -/
theorem fraction_toDigits : fraction (Nat.toDigits 10 n ++ '\n' :: rest) = none := by
  have hdecimal : decimalFraction (Nat.toDigits 10 n ++ '\n' :: rest) = none := by
    rw [decimalFraction, readsAtLineEnd_decimalInteger]
    rfl
  have hspecial : specialFraction (Nat.toDigits 10 n ++ '\n' :: rest) = none := by
    rw [specialFraction, optional_sign_digits (isDigit_toDigits n)]
    refine (Parser.orElse_eq_right ?_).trans ?_ <;>
      exact literal_eq_none_of_digits (isDigit_toDigits n) (by decide) (by decide)
  simp [fraction, written, Parser.orElse, hdecimal, hspecial]

/-- Digits alone have no mark of another base: a zero in front of it ends the line. -/
theorem toDigits_append_ne {mark : Char} (hmark : mark ≠ '\n') (tail : List Char) :
    Nat.toDigits 10 n ++ '\n' :: rest ≠ '0' :: mark :: tail := by
  intro h
  have hhead : (Nat.toDigits 10 n).head? = some '0' := by
    rw [← List.head?_append_of_ne_nil _ Nat.toDigits_ne_nil, h]
    rfl
  rw [toDigits_eq_of_head? hhead] at h
  exact hmark (List.cons.inj (List.cons.inj h).2).1.symm

theorem readsAtLineEnd_integer (h : n < integerBound) :
    ReadsAtLineEnd integer (Nat.toDigits 10 n) (.natural n) := by
  intro rest
  rw [integer.eq_4 _ (toDigits_append_ne n (by decide)) (toDigits_append_ne n (by decide))
    (toDigits_append_ne n (by decide)), readsAtLineEnd_decimalInteger]
  have hbounded : boundedInteger false n = some (.natural n) := if_pos h
  simp only [bind, Option.bind, numberOfDigits_toDigits, hbounded, pure]

end Decimal

/-! ## Values -/

/-- The document that a value is read as. -/
def Scalar.toDocument : Scalar → Document
  | .text value => .text value
  | .natural value => .natural value
  | .boolean value => .boolean value

theorem isBlank_eq_false {isMember : Char → Bool} {c : Char} (h : isMember c = true)
    (hspace : isMember ' ' = false) (htab : isMember '\t' = false) : isBlank c = false := by
  simp [isBlank, Parser.ne_of_class h hspace, Parser.ne_of_class h htab]

theorem Scalar.render?_natural {n : Nat} (h : (Scalar.natural n).render? = some word) :
    n < integerBound ∧ Nat.toDigits 10 n = word := by
  rw [Scalar.render?, Option.ite_none_right_eq_some] at h
  exact ⟨h.1, Nat.toList_repr.symm.trans (Option.some.inj h.2)⟩

/-- What is written for a value starts with no blank, and opens no array or inline table. -/
theorem Scalar.eq_cons_of_render? {scalar : Scalar} (h : scalar.render? = some word) :
    ∃ first tail, word = first :: tail ∧ isBlank first = false ∧ first ≠ '[' ∧ first ≠ '\x7b' := by
  cases scalar with
  | text value =>
    obtain ⟨first, tail, hword, hfirst⟩ := quote_eq_cons value.toList
    refine ⟨first, tail, (Option.some.inj h).symm.trans hword, ?_⟩
    rcases hfirst with rfl | rfl <;> decide
  | natural n =>
    obtain ⟨-, rfl⟩ := Scalar.render?_natural h
    obtain ⟨first, tail, hdigits, hfirst⟩ := toDigits_eq_cons n
    exact ⟨first, tail, hdigits, isBlank_eq_false hfirst rfl rfl, Parser.ne_of_class hfirst rfl,
      Parser.ne_of_class hfirst rfl⟩
  | boolean value =>
    cases value <;> cases Option.some.inj h <;> exact ⟨_, _, rfl, by decide, by decide, by decide⟩

theorem readsAtLineEnd_scalar {entry : Scalar} (h : entry.render? = some word) :
    ReadsAtLineEnd scalar word entry.toDocument := by
  intro rest
  cases entry with
  | text value =>
    cases Option.some.inj h
    have hstring : string (quote value.toList ++ '\n' :: rest) = _ :=
      string_quote value.toList (by simp) (by simp)
    obtain ⟨first, tail, hword, hfirst⟩ := quote_eq_cons value.toList
    rw [hword] at hstring ⊢
    simp only [scalar, List.cons_append, if_pos hfirst]
    rw [List.cons_append] at hstring
    rw [hstring, Option.map_some, String.ofList_toList]
    rfl
  | natural n =>
    obtain ⟨hlt, rfl⟩ := Scalar.render?_natural h
    have hnumber : Parser.orElse moment (Parser.orElse fraction integer)
        (Nat.toDigits 10 n ++ '\n' :: rest) = some (.natural n, '\n' :: rest) :=
      (Parser.orElse_eq_right (moment_digits (isDigit_toDigits n))).trans <|
        (Parser.orElse_eq_right (fraction_toDigits n)).trans (readsAtLineEnd_integer n hlt rest)
    obtain ⟨first, tail, hfirst, hdigit⟩ := toDigits_eq_cons n
    have hquotation : first ≠ '"' := Parser.ne_of_class hdigit rfl
    have hapostrophe : first ≠ '\'' := Parser.ne_of_class hdigit rfl
    have ht : first ≠ 't' := Parser.ne_of_class hdigit rfl
    have hf : first ≠ 'f' := Parser.ne_of_class hdigit rfl
    rw [hfirst, List.cons_append] at hnumber ⊢
    simp only [scalar, hquotation, hapostrophe, ht, hf, or_self, if_false]
    exact hnumber
  | boolean value =>
    cases value <;> cases Option.some.inj h <;> rfl

theorem skipBlanks_cons {c : Char} (h : isBlank c = false) :
    skipBlanks (c :: rest) = c :: rest := by
  simp [skipBlanks, h]

theorem readsAtLineEnd_value {entry : Scalar} (h : entry.render? = some word) (depth : Nat) :
    ReadsAtLineEnd (value collectInline depth) word entry.toDocument := by
  intro rest
  have hscalar := readsAtLineEnd_scalar h rest
  obtain ⟨first, tail, rfl, -, hbracket, hbrace⟩ := Scalar.eq_cons_of_render? h
  cases depth with
  | zero => exact hscalar
  | succ depth =>
    rw [List.cons_append] at hscalar ⊢
    unfold value
    split
    · next heq => exact absurd (List.cons.inj heq).1 hbracket
    · next heq => exact absurd (List.cons.inj heq).1 hbrace
    · exact hscalar

/-! ## Keys -/

theorem eq_cons_of_isBare {name : String} (h : IsBare name) :
    ∃ first tail, name.toList = first :: tail ∧ isBareKeyChar first = true := by
  obtain ⟨first, tail, hname⟩ := List.exists_cons_of_ne_nil h.1
  exact ⟨first, tail, hname, List.all_eq_true.1 h.2 first (hname ▸ List.mem_cons_self)⟩

theorem keyPart_append {name : String} (h : IsBare name)
    (hrest : ∀ c ∈ rest.head?, isBareKeyChar c = false) :
    keyPart (name.toList ++ rest) = some (name, skipBlanks rest) := by
  have hrun := Parser.run1_append h.1 (List.all_eq_true.1 h.2) hrest
  obtain ⟨first, tail, hname, hfirst⟩ := eq_cons_of_isBare h
  rw [hname, List.cons_append] at hrun ⊢
  rw [keyPart, skipBlanks_cons (isBlank_eq_false hfirst rfl rfl)]
  have hmap := congrArg
    (Option.map fun part : List Char × List Char => (String.ofList part.1, skipBlanks part.2)) hrun
  rw [Option.map_some, ← hname, String.ofList_toList] at hmap
  refine Eq.trans (congrArg (Option.map _) (congrFun ?_ _)) hmap
  split
  · next heq => exact absurd (List.cons.inj heq).1 (Parser.ne_of_class hfirst rfl)
  · next heq => exact absurd (List.cons.inj heq).1 (Parser.ne_of_class hfirst rfl)
  · rfl

theorem key_append {name : String} (h : IsBare name)
    (hrest : ∀ c ∈ rest.head?, isBareKeyChar c = false)
    (hpoint : (skipBlanks rest).head? ≠ some '.') :
    key (name.toList ++ rest) = some ([name], skipBlanks rest) := by
  have hseparator : Parser.literal ['.'] (skipBlanks rest) = none :=
    Parser.literal_eq_none_of_head? hpoint
  rw [key, Parser.separated1_eq_of_one (keyPart_append h hrest) hseparator]
  rfl

/-! ## Lines -/

theorem reads_line_blank : Reads line ['\n'] .blank := fun _ => rfl

/-- The header of a name, alone on its line. -/
theorem header_append {name : String} (h : IsBare name) (opening closing : List Char)
    (make : List String → Line) (rest : List Char) :
    header opening (']' :: closing) make
        (opening ++ (name.toList ++ (']' :: closing ++ '\n' :: rest))) =
      some (make [name], rest) := by
  have hkey : key (name.toList ++ (']' :: closing ++ '\n' :: rest)) =
      some ([name], ']' :: closing ++ '\n' :: rest) :=
    key_append h (by simp [isBareKeyChar]) (by simp [skipBlanks, isBlank])
  have hend : lineEnd ('\n' :: rest) = some ((), rest) := rfl
  simp only [header, Parser.literal_append, hkey, hend, bind, Option.bind, pure]

theorem line_bracket {first : Char} (h : first ≠ '[') (text : List Char) :
    line ('[' :: first :: text) = header ['['] [']'] .table ('[' :: first :: text) := by
  unfold line
  rw [skipBlanks_cons (by decide)]
  dsimp only
  split
  case h_5 => rfl
  case h_4 heq => exact absurd (List.cons.inj (List.cons.inj heq).2).1 h
  case h_6 hbracket => exact absurd rfl (hbracket _)
  all_goals next heq => exact absurd (List.cons.inj heq).1 (by decide)

theorem reads_line_table {name : String} (h : IsBare name) :
    Reads line ("[".toList ++ name.toList ++ "]".toList ++ ['\n']) (.table [name]) := by
  intro rest
  have hheader := header_append h ['['] [] .table rest
  obtain ⟨first, tail, hname, hfirst⟩ := eq_cons_of_isBare h
  rw [List.append_assoc, List.append_assoc, List.append_assoc]
  rw [hname] at hheader ⊢
  exact (line_bracket (Parser.ne_of_class hfirst rfl) _).trans hheader

theorem reads_line_element {name : String} (h : IsBare name) :
    Reads line ("[[".toList ++ name.toList ++ "]]".toList ++ ['\n']) (.element [name]) := by
  intro rest
  have hheader := header_append h ['[', '['] [']'] .element rest
  rw [List.append_assoc, List.append_assoc, List.append_assoc]
  exact hheader

theorem line_bare {first : Char} (h : isBareKeyChar first = true) (text : List Char) :
    line (first :: text) = (do
      let ((path, document), rest) ← assignment (value collectInline maxDepth) (first :: text)
      let (_, rest) ← lineEnd rest
      return (.assignment path document, rest)) := by
  unfold line
  rw [skipBlanks_cons (isBlank_eq_false h rfl rfl)]
  dsimp only
  split
  case h_6 => rfl
  -- None of the characters that other lines start with belongs to a key.
  all_goals next heq => exact absurd (List.cons.inj heq).1 (Parser.ne_of_class h rfl)

theorem reads_line_entry {name : String} {entry : Scalar} (hname : IsBare name)
    (h : renderEntry? (name, entry) = some word) :
    Reads line word (.assignment [name] entry.toDocument) := by
  intro rest
  obtain ⟨form, hform, hword⟩ := Option.bind_eq_some_iff.1 h
  rw [← Option.some.inj hword]
  have hkey : key (name.toList ++ (' ' :: '=' :: ' ' :: (form ++ '\n' :: rest))) =
      some ([name], '=' :: ' ' :: (form ++ '\n' :: rest)) :=
    key_append hname (by simp [isBareKeyChar]) (by simp [skipBlanks, isBlank])
  have hskip : skipBlanks (' ' :: (form ++ '\n' :: rest)) = form ++ '\n' :: rest := by
    obtain ⟨first, tail, rfl, hblank, -⟩ := Scalar.eq_cons_of_render? hform
    exact skipBlanks_cons hblank
  have hassignment : assignment (value collectInline maxDepth)
      (name.toList ++ (' ' :: '=' :: ' ' :: (form ++ '\n' :: rest))) =
        some (([name], entry.toDocument), '\n' :: rest) := by
    rw [assignment, hkey]
    simp only [bind, Option.bind, Parser.literal, if_pos, hskip,
      readsAtLineEnd_value hform maxDepth rest, pure]
  have hend : lineEnd ('\n' :: rest) = some ((), rest) := rfl
  have htext : name.toList ++ " = ".toList ++ form ++ ['\n'] ++ rest =
      name.toList ++ (' ' :: '=' :: ' ' :: (form ++ '\n' :: rest)) := by simp
  rw [htext]
  obtain ⟨first, tail, hfirst, hbare⟩ := eq_cons_of_isBare hname
  rw [hfirst, List.cons_append] at hassignment ⊢
  rw [line_bare hbare, hassignment]
  simp only [bind, Option.bind, hend, pure]

end Toml
end RiscvTables
