import RiscvTables.Proofs.Text.Parser
import RiscvTables.Toml.Printer
import RiscvTables.Toml.Value

/-!
# Strings in TOML

A string that is written is read back, whatever its characters are (`string_quote`).

The printer chooses between four forms, and the reader tells them apart by their first characters.
Between quotation marks each character has a `Spelling` that is read by itself.  Between triple
delimiters the delimiter needs no escape where at most two stand together, so that what a delimiter
means depends on its neighbours: `BlockBody` describes such a text run by run, and is all that the
reader of both multi-line forms has to know.
-/

set_option autoImplicit false

namespace RiscvTables
namespace Toml

open RiscvTables.Parser (Reads ReadsAll Takes)

variable {c delimiter : Char} {word text body rest : List Char}

/-! ## Escapes -/

theorem charOfCode?_toNat (c : Char) : charOfCode? c.toNat = some c := by
  have hvalid : c.toNat.isValidChar := c.valid
  rw [charOfCode?, if_pos hvalid, Char.ofNat_toNat]

/-- Four hexadecimal digits hold every code that an escape is written for. -/
theorem hexDigitsPadded_ascii : ∀ n < 128,
    let digits := (Numeral.hexDigitsPadded 4 n).map Char.toUpper
    digits.length = 4 ∧ digits.all isHexDigit = true ∧ numberOfDigits 16 digits = n := by
  decide +kernel

theorem reads_unicodeEscape (h : c.toNat < 128) :
    Reads (unicodeEscape 4) ((Numeral.hexDigitsPadded 4 c.toNat).map Char.toUpper) c := by
  obtain ⟨hlength, hdigits, hnumber⟩ := hexDigitsPadded_ascii c.toNat h
  intro rest
  have hexactly := Parser.reads_exactly (List.all_eq_true.1 hdigits) rest
  rw [hlength] at hexactly
  simp only [unicodeEscape, hexactly, hnumber, charOfCode?_toNat, bind, Option.bind, pure]

/-- A word for a character between quotation marks: the character itself, or a backslash and
something that is neither a blank nor a line end. -/
inductive Spelling (c : Char) : List Char → Prop
  | plain : isBasicChar c = true → Spelling c [c]
  | escaped {letter : Char} {tail : List Char} :
    ' ' < letter → Reads escape ('\\' :: letter :: tail) c → Spelling c ('\\' :: letter :: tail)

/-- Every character is written as a word for it, apart from a quotation mark and a line feed that
may stand for themselves. -/
theorem spelling_escapeChar {multiline : Bool} {allowed run : Nat}
    (hquote : c = '"' → allowed ≤ run) (hline : c = '\n' → multiline = false) :
    Spelling c (escapeChar multiline allowed run c) := by
  unfold escapeChar
  split_ifs with hb ht hf hr hbackslash hn hmultiline hq hallowed hcontrol
  · subst hb; exact .escaped (by decide) fun _ => rfl
  · subst ht; exact .escaped (by decide) fun _ => rfl
  · subst hf; exact .escaped (by decide) fun _ => rfl
  · subst hr; exact .escaped (by decide) fun _ => rfl
  · subst hbackslash; exact .escaped (by decide) fun _ => rfl
  · exact absurd (hline hn) (by simp [hmultiline])
  · subst hn; exact .escaped (by decide) fun _ => rfl
  · subst hq; exact .escaped (by decide) fun _ => rfl
  · exact absurd (hquote hq) hallowed
  · have hcode : c.toNat < 128 := by
      rcases hcontrol with hlt | rfl
      · exact Nat.lt_trans hlt (by decide)
      · decide
    exact .escaped (by decide) fun rest => reads_unicodeEscape hcode rest
  · obtain ⟨hspace, hdelete⟩ := not_or.1 hcontrol
    exact .plain (by simp [isBasicChar, hq, hbackslash, hdelete, Char.not_lt.1 hspace])

theorem spelling_escapeChar_singleLine (c : Char) : Spelling c (escapeChar false 0 0 c) :=
  spelling_escapeChar (fun _ => Nat.le_refl _) fun _ => rfl

theorem reads_charOf {isMember : Char → Bool} (h : isMember c = true) :
    Reads (charOf isMember) [c] c := fun rest => by simp [charOf, h]

theorem Spelling.reads (h : Spelling c word) :
    Reads (Parser.orElse (charOf isBasicChar) escape) word c := by
  intro rest
  cases h with
  | plain hc => exact Parser.orElse_eq_left (reads_charOf hc rest)
  | escaped _ hreads => exact (Parser.orElse_eq_right rfl).trans (hreads rest)

/-- A word for a character starts neither with a quotation mark nor with a line end. -/
theorem Spelling.eq_cons (h : Spelling c word) :
    ∃ first tail, word = first :: tail ∧ first ≠ '"' ∧ first ≠ '\n' ∧ first ≠ '\r' := by
  cases h with
  | plain hc =>
    exact ⟨c, [], rfl, Parser.ne_of_class hc rfl, Parser.ne_of_class hc rfl,
      Parser.ne_of_class hc rfl⟩
  | escaped => exact ⟨'\\', _, rfl, by decide, by decide, by decide⟩

/-! ## Strings on one line -/

/-- Where no quotation mark may stand for itself, each character is written by itself. -/
theorem escapeText_singleLine (run : Nat) (text : List Char) :
    escapeText false 0 run text = text.flatMap (escapeChar false 0 0) := by
  induction text generalizing run with
  | nil => rfl
  | cons c text ih =>
    rw [escapeText, ih, List.flatMap_cons]
    simp [escapeChar]

theorem reads_basicString (text : List Char) :
    Reads basicString (inline '"' (escapeText false 0 0 text)) text := by
  intro rest
  have hchars : ReadsAll (Parser.orElse (charOf isBasicChar) escape)
      (escapeText false 0 0 text) text := by
    rw [escapeText_singleLine]
    exact Parser.readsAll_flatMap rfl fun c _ => (spelling_escapeChar_singleLine c).reads
  have hstop : Parser.orElse (charOf isBasicChar) escape ('"' :: rest) = none := rfl
  simp only [basicString, inline, List.cons_append, List.append_assoc, Parser.literal, if_pos, bind,
    Option.bind, hchars.many_eq hstop, List.nil_append, pure]

theorem reads_literalString (h : ∀ c ∈ text, isLiteralChar c = true) :
    Reads literalString (inline '\'' text) text := by
  intro rest
  have hrun : Parser.run isLiteralChar (text ++ '\'' :: rest) = some (text, '\'' :: rest) :=
    Parser.run_append h (by simp [isLiteralChar])
  simp only [literalString, inline, List.cons_append, List.append_assoc, Parser.literal, if_pos,
    bind, Option.bind, hrun, List.nil_append, pure]

/-! ## Strings over several lines -/

/-- A text between triple delimiters: at most two delimiters together, and behind them a word for
one character that does not start with a delimiter.  Only a line feed may start with a line end. -/
inductive BlockBody (delimiter : Char) (piece : Parser Piece) : List Char → List Char → Prop
  | last {run : Nat} : run ≤ 2 →
    BlockBody delimiter piece (List.replicate run delimiter) (List.replicate run delimiter)
  | more {run : Nat} {c first : Char} {tail text body : List Char} :
    run ≤ 2 → first ≠ delimiter → (c ≠ '\n' → first ≠ '\n' ∧ first ≠ '\r') →
      Reads piece (first :: tail) [c] → BlockBody delimiter piece text body →
        BlockBody delimiter piece (List.replicate run delimiter ++ c :: text)
          (List.replicate run delimiter ++ (first :: tail ++ body))

variable {piece : Parser Piece} {pieces : List Piece} {tail : List Char}

theorem span_replicate (run : Nat) (htail : tail.head? ≠ some delimiter) :
    (List.replicate run delimiter ++ tail).span (· = delimiter) =
      (List.replicate run delimiter, tail) := by
  refine Parser.span_append (fun d hd => by simp [List.eq_of_mem_replicate hd]) fun d hd => ?_
  rw [decide_eq_false_iff_not]
  rintro rfl
  exact htail hd

theorem innerQuotes_replicate (run : Nat) (htail : tail.head? ≠ some delimiter) :
    innerQuotes delimiter (List.replicate run delimiter ++ tail) =
      if 1 ≤ run ∧ run ≤ 2 then some (List.replicate run delimiter, tail) else none := by
  rw [innerQuotes, span_replicate run htail]
  match run with
  | 0 | 1 | 2 | _ + 3 => simp [List.replicate]

/-- One or two delimiters are a piece of their own. -/
theorem takes_innerQuotes {run : Nat} (hrun : run ≤ 2) (hbody : body.head? ≠ some delimiter)
    (hpiece : ∀ rest, piece (delimiter :: rest) = none)
    (h : Takes (Parser.orElse piece (innerQuotes delimiter)) body pieces tail) :
    ∃ pieces', Takes (Parser.orElse piece (innerQuotes delimiter))
        (List.replicate run delimiter ++ body) pieces' tail ∧
      pieces'.flatten = List.replicate run delimiter ++ pieces.flatten := by
  cases run with
  | zero => exact ⟨pieces, h, rfl⟩
  | succ run =>
    have hquotes := innerQuotes_replicate (run + 1) hbody
    rw [if_pos ⟨by omega, hrun⟩] at hquotes
    have htaken := (Parser.orElse_eq_right (hpiece _)).trans hquotes
    exact ⟨_, .more htaken (by simp) h, rfl⟩

/-- Three delimiters or more end the pieces; two more than three still belong to the text. -/
theorem closing_replicate {run : Nat} (hrun : run ≤ 2) (hrest : rest.head? ≠ some delimiter)
    (hpiece : ∀ rest, piece (delimiter :: rest) = none) :
    Parser.orElse piece (innerQuotes delimiter) (List.replicate (run + 3) delimiter ++ rest) =
        none ∧
      closingQuotes delimiter (List.replicate (run + 3) delimiter ++ rest) =
        some (List.replicate run delimiter, rest) := by
  constructor
  · have hquotes := innerQuotes_replicate (run + 3) hrest
    rw [if_neg (by omega)] at hquotes
    exact (Parser.orElse_eq_right (hpiece _)).trans hquotes
  · have hspan := span_replicate (run + 3) hrest
    rw [List.span_eq_takeWhile_dropWhile] at hspan
    have hcount : min 5 (run + 3) = run + 3 := by omega
    rw [closingQuotes, (Prod.mk.inj hspan).1, List.length_replicate, hcount]
    simp

theorem BlockBody.takes (h : BlockBody delimiter piece text body)
    (hpiece : ∀ rest, piece (delimiter :: rest) = none) (hrest : rest.head? ≠ some delimiter) :
    ∃ pieces tail last,
      Takes (Parser.orElse piece (innerQuotes delimiter))
        (body ++ (List.replicate 3 delimiter ++ rest)) pieces tail ∧
      closingQuotes delimiter tail = some (last, rest) ∧ pieces.flatten ++ last = text := by
  induction h with
  | @last run hrun =>
    obtain ⟨hstop, hclosing⟩ := closing_replicate hrun hrest hpiece
    refine ⟨[], _, _, .stop ?_, ?_, rfl⟩
    · rwa [← List.append_assoc, List.replicate_append_replicate]
    · rwa [← List.append_assoc, List.replicate_append_replicate]
  | @more run c first word text body hrun hfirst _ hreads _ ih =>
    obtain ⟨pieces, tail, last, htakes, hclosing, htext⟩ := ih
    have hword := Takes.more (Parser.orElse_eq_left (hreads _))
      (by simp only [List.length_append, List.length_cons]; omega) htakes
    obtain ⟨pieces', htakes', hpieces'⟩ := takes_innerQuotes hrun (by simpa using hfirst) hpiece
      hword
    refine ⟨pieces', tail, last, ?_, hclosing, ?_⟩
    · rwa [List.append_assoc, List.append_assoc]
    · rw [hpieces', ← htext]
      simp

theorem newline_cons (h : c ≠ '\n') (h' : c ≠ '\r') : newline (c :: rest) = none := by
  simp [newline, h, h']

/-- Without a line feed in it, a text does not start on a new line. -/
theorem BlockBody.newline_eq_none (h : BlockBody delimiter piece text body)
    (hdelimiter : delimiter ≠ '\n' ∧ delimiter ≠ '\r') (hline : '\n' ∉ text) :
    newline (body ++ (List.replicate 3 delimiter ++ rest)) = none := by
  cases h with
  | @last run =>
    rw [← List.append_assoc, List.replicate_append_replicate]
    exact newline_cons hdelimiter.1 hdelimiter.2
  | @more run c first word text body _ _ hfirst =>
    cases run with
    | zero =>
      obtain ⟨hn, hr⟩ := hfirst (by rintro rfl; simp at hline)
      exact newline_cons hn hr
    | succ run => exact newline_cons hdelimiter.1 hdelimiter.2

/-- **A text between triple delimiters is read back.** -/
theorem BlockBody.multilineString_block (h : BlockBody delimiter piece text body)
    (hdelimiter : delimiter ≠ '\n' ∧ delimiter ≠ '\r')
    (hpiece : ∀ rest, piece (delimiter :: rest) = none) (hrest : rest.head? ≠ some delimiter) :
    multilineString delimiter piece (block delimiter text body ++ rest) = some (text, rest) := by
  obtain ⟨pieces, tail, last, htakes, hclosing, htext⟩ := h.takes hpiece hrest
  have hnewline : ∃ line, Parser.optional newline
      ((if '\n' ∈ text then ['\n'] else []) ++ (body ++ (List.replicate 3 delimiter ++ rest))) =
        some (line, body ++ (List.replicate 3 delimiter ++ rest)) := by
    by_cases hline : '\n' ∈ text
    · rw [if_pos hline]
      exact ⟨_, rfl⟩
    · rw [if_neg hline]
      exact ⟨_, Parser.optional_eq_none (h.newline_eq_none hdelimiter hline)⟩
  obtain ⟨line, hnewline⟩ := hnewline
  have hfence : [delimiter, delimiter, delimiter] = List.replicate 3 delimiter := rfl
  simp only [multilineString, block, List.append_assoc, hfence, Parser.literal_append, hnewline,
    htakes.many_eq, hclosing, htext, bind, Option.bind, pure]

/-! ## Quotation marks in runs

The printer counts how many quotation marks it has written in a row, so the induction is over the
text behind a run of that many. -/

/-- What stands between three quotation marks. -/
def basicPiece : Parser Piece :=
  Parser.orElse (single (charOf isBasicChar)) <|
    Parser.orElse lineContinuation <| Parser.orElse (single escape) innerNewline

theorem lineContinuation_eq_none (h : ' ' < c) : lineContinuation ('\\' :: c :: rest) = none := by
  have hclass : ∀ d, ¬ ' ' < d → c ≠ d := fun d hd heq => hd (heq ▸ h)
  have hblank : isBlank c = false := by
    simp [isBlank, hclass ' ' (by decide), hclass '\t' (by decide)]
  have hnewline : newline (c :: rest) = none :=
    newline_cons (hclass _ (by decide)) (hclass _ (by decide))
  simp [lineContinuation, skipBlanks, hblank, hnewline, bind, Option.bind]

theorem reads_single {parser : Parser Char} (h : Reads parser word c) :
    Reads (single parser) word [c] :=
  fun rest => congrArg (Option.map _) (h rest)

theorem Spelling.reads_piece (h : Spelling c word) : Reads basicPiece word [c] := by
  intro rest
  cases h with
  | plain hc => exact Parser.orElse_eq_left (reads_single (reads_charOf hc) rest)
  | escaped hletter hreads =>
    refine (Parser.orElse_eq_right rfl).trans ?_
    refine (Parser.orElse_eq_right (lineContinuation_eq_none hletter)).trans ?_
    exact Parser.orElse_eq_left (reads_single hreads rest)

/-- What is written for a text behind a run of quotation marks.  The third mark in a row is the
first that is escaped. -/
theorem blockBody_escapeText {run : Nat} (hrun : run ≤ 2) (text : List Char) :
    BlockBody '"' basicPiece (List.replicate run '"' ++ text)
      (List.replicate run '"' ++ escapeText true 2 run text) := by
  -- A mark that stands for itself joins the run, and nothing is read yet.
  induction text generalizing run with
  | nil => simpa [escapeText] using BlockBody.last hrun
  | cons c text ih =>
    rw [escapeText]
    by_cases hn : c = '\n'
    · subst hn
      exact .more hrun (by decide) (absurd rfl) (fun _ => rfl) (ih (Nat.zero_le 2))
    · by_cases hq : c = '"' ∧ run < 2
      · obtain ⟨rfl, hlt⟩ := hq
        have hwritten : escapeChar true 2 run '"' = ['"'] := by simp [escapeChar, hlt]
        have hlonger := ih hlt
        rw [hwritten]
        simpa [List.replicate_succ'] using hlonger
      · have hspelling : Spelling c (escapeChar true 2 run c) :=
          spelling_escapeChar (fun hc => Nat.not_lt.1 fun hlt => hq ⟨hc, hlt⟩)
            fun hc => absurd hc hn
        obtain ⟨first, tail, hword, hquote, hline⟩ := hspelling.eq_cons
        have hnext : escapeChar true 2 run c ≠ ['"'] := by
          rw [hword]
          simp [hquote]
        have hreads := hspelling.reads_piece
        rw [hword] at hreads hnext
        simp only [hword, if_neg hnext]
        exact .more hrun hquote (fun _ => hline) hreads (ih (Nat.zero_le 2))

/-! ## Apostrophes in runs

Nothing is escaped here.  The printer has looked beforehand whether the longest run is short enough,
with one pass over the text, and `longestRunFrom` is that pass from any character on. -/

/-- What stands between three apostrophes. -/
def literalPiece : Parser Piece :=
  Parser.orElse (single (charOf isLiteralChar)) innerNewline

/-- The length of the longest run where a run of `current` characters stands in front, and the
longest so far is `longest`. -/
def longestRunFrom (c : Char) (longest current : Nat) (text : List Char) : Nat :=
  (text.foldl (fun (longest, current) d =>
    if d = c then (max longest (current + 1), current + 1) else (longest, 0))
    (longest, current)).1

theorem longestRun_eq_longestRunFrom (c : Char) (text : List Char) :
    longestRun c text = longestRunFrom c 0 0 text := rfl

theorem longestRunFrom_cons (c d : Char) (longest current : Nat) (text : List Char) :
    longestRunFrom c longest current (d :: text) =
      if d = c then longestRunFrom c (max longest (current + 1)) (current + 1) text
      else longestRunFrom c longest 0 text := by
  by_cases h : d = c <;> simp [longestRunFrom, h]

theorem le_longestRunFrom (c : Char) (longest current : Nat) (text : List Char) :
    longest ≤ longestRunFrom c longest current text := by
  induction text generalizing longest current with
  | nil => exact Nat.le_refl _
  | cons d text ih =>
    rw [longestRunFrom_cons]
    split_ifs
    · exact Nat.le_trans (Nat.le_max_left _ _) (ih _ _)
    · exact ih _ _

/-- Between apostrophes a text is written as it is, if no three of them stand together. -/
theorem blockBody_literal {longest run : Nat} (hrun : run ≤ 2)
    (hchars : ∀ c ∈ text, c = '\n' ∨ c = '\'' ∨ isLiteralChar c = true)
    (hlongest : longestRunFrom '\'' longest run text < 3) :
    BlockBody '\'' literalPiece (List.replicate run '\'' ++ text)
      (List.replicate run '\'' ++ text) := by
  induction text generalizing longest run with
  | nil => simpa using BlockBody.last hrun
  | cons c text ih =>
    obtain ⟨hc, htext⟩ := List.forall_mem_cons.1 hchars
    rw [longestRunFrom_cons] at hlongest
    by_cases hq : c = '\''
    · subst hq
      rw [if_pos rfl] at hlongest
      have hle := le_longestRunFrom '\'' (max longest (run + 1)) (run + 1) text
      have hlonger := ih (by omega) htext hlongest
      simpa [List.replicate_succ'] using hlonger
    · rw [if_neg hq] at hlongest
      have hrest : BlockBody '\'' literalPiece text text := by
        simpa using ih (Nat.zero_le 2) htext hlongest
      rcases hc with rfl | hc | hc
      · have hreads : Reads literalPiece ['\n'] ['\n'] := fun _ => rfl
        exact .more hrun hq (absurd rfl) hreads hrest
      · exact absurd hc hq
      · have hreturn : c ≠ '\r' := Parser.ne_of_class hc rfl
        have hreads : Reads literalPiece [c] [c] := fun rest =>
          Parser.orElse_eq_left (reads_single (reads_charOf hc) rest)
        exact .more hrun hq (fun hn => ⟨hn, hreturn⟩) hreads hrest

/-! ## The form of a string -/

theorem string_quotation (h : ∀ tail, text ≠ '"' :: '"' :: tail) :
    string ('"' :: text) = basicString ('"' :: text) :=
  string.eq_2 text h

theorem string_apostrophe (h : ∀ tail, text ≠ '\'' :: '\'' :: tail) :
    string ('\'' :: text) = literalString ('\'' :: text) :=
  string.eq_4 _ nofun nofun fun tail heq => h tail (List.cons.inj heq).2

/-- A string on one line does not look like one over several lines. -/
theorem append_delimiter_ne (hbody : body.head? ≠ some delimiter)
    (hrest : rest.head? ≠ some delimiter) (tail : List Char) :
    body ++ delimiter :: rest ≠ delimiter :: delimiter :: tail := by
  intro h
  cases body with
  | nil =>
    obtain ⟨-, rfl⟩ := List.cons.inj h
    exact hrest rfl
  | cons c body =>
    obtain ⟨rfl, -⟩ := List.cons.inj h
    exact hbody rfl

theorem string_inline_basic (text : List Char) (hrest : rest.head? ≠ some '"') :
    string (inline '"' (escapeText false 0 0 text) ++ rest) = some (text, rest) := by
  have hbody : (escapeText false 0 0 text).head? ≠ some '"' := by
    cases text with
    | nil => exact nofun
    | cons c text =>
      obtain ⟨first, tail, hword, hquote, -⟩ := (spelling_escapeChar_singleLine c).eq_cons
      simpa [escapeText, hword] using hquote
  have hstring := string_quotation (append_delimiter_ne hbody hrest)
  have hreads := reads_basicString text rest
  rw [inline, List.append_assoc, List.append_assoc] at hreads ⊢
  exact hstring.trans hreads

theorem string_inline_literal (hchars : ∀ c ∈ text, isLiteralChar c = true)
    (hrest : rest.head? ≠ some '\'') :
    string (inline '\'' text ++ rest) = some (text, rest) := by
  have hbody : text.head? ≠ some '\'' := fun h =>
    absurd (hchars _ (List.mem_of_mem_head? h)) (by decide)
  have hstring := string_apostrophe (append_delimiter_ne hbody hrest)
  have hreads := reads_literalString hchars rest
  rw [inline, List.append_assoc, List.append_assoc] at hreads ⊢
  exact hstring.trans hreads

theorem string_block_basic (text : List Char) (hrest : rest.head? ≠ some '"') :
    string (block '"' text (escapeText true 2 0 text) ++ rest) = some (text, rest) :=
  (blockBody_escapeText (Nat.zero_le 2) text).multilineString_block (by decide) (fun _ => rfl) hrest

theorem string_block_literal (hchars : ∀ c ∈ text, c = '\n' ∨ c = '\'' ∨ isLiteralChar c = true)
    (hlongest : longestRun '\'' text < 3) (hrest : rest.head? ≠ some '\'') :
    string (block '\'' text text ++ rest) = some (text, rest) := by
  rw [longestRun_eq_longestRunFrom] at hlongest
  exact (blockBody_literal (Nat.zero_le 2) hchars hlongest).multilineString_block (by decide)
    (fun _ => rfl) hrest

theorem isLiteralChar_of_not_isControl (h : isControl c = false) (hline : c ≠ '\n')
    (hquote : c ≠ '\'') : isLiteralChar c = true := by
  by_cases ht : c = '\t'
  · simp [isLiteralChar, ht]
  · simp_all [isControl, isLiteralChar]

theorem quote_eq_cons (text : List Char) :
    ∃ first tail, quote text = first :: tail ∧ (first = '"' ∨ first = '\'') := by
  unfold quote
  dsimp only
  split_ifs
  · exact ⟨_, _, rfl, .inl rfl⟩
  · exact ⟨_, _, rfl, .inr rfl⟩
  · exact ⟨_, _, rfl, .inl rfl⟩
  · exact ⟨_, _, rfl, .inr rfl⟩
  · exact ⟨_, _, rfl, .inl rfl⟩
  · exact ⟨_, _, rfl, .inl rfl⟩

/-- **A string that is written is read back.** -/
theorem string_quote (text : List Char) (hquotation : rest.head? ≠ some '"')
    (hapostrophe : rest.head? ≠ some '\'') :
    string (quote text ++ rest) = some (text, rest) := by
  have hliteral : (!hasAny isControl text) = true → ∀ c ∈ text, c ≠ '\n' → c ≠ '\'' →
      isLiteralChar c = true := fun h c hc => by
    rw [Bool.not_eq_true', hasAny, List.any_eq_false] at h
    exact isLiteralChar_of_not_isControl (Bool.eq_false_iff.2 (h c hc))
  unfold quote
  dsimp only
  split_ifs with hplain hinline hblock hliteralBlock
  · exact string_inline_basic text hquotation
  · obtain ⟨hcontrol, hquote, hline⟩ := hinline
    rw [Bool.not_eq_true', decide_eq_false_iff_not] at hline
    refine string_inline_literal (fun c hc => hliteral hcontrol c hc ?_ ?_) hapostrophe
    · exact fun h => hline (h ▸ hc)
    · exact fun h => hquote (h ▸ hc)
  · exact string_block_basic text hquotation
  · obtain ⟨hcontrol, hlongest⟩ := hliteralBlock
    refine string_block_literal (fun c hc => ?_) hlongest hapostrophe
    by_contra! hspecial
    exact hspecial.2.2 (hliteral hcontrol c hc hspecial.1 hspecial.2.1)
  · exact string_block_basic text hquotation
  · exact string_inline_basic text hquotation

end Toml
end RiscvTables
