/-
# Written texts read back

A text is written in one of four forms, whichever shows it best, and each of them is read
back to the text (`Toml.readText_writeText`).  Between single quotes a text is read character
by character.  Between triple quotes or apostrophes at most two marks in a row stand for
themselves, so what is carried along is the number of marks that came last: together with the
three closing ones they are read as the end of the text.
-/

import Reconciliation.Settings.Toml.Written

namespace Reconciliation
namespace Toml

/-! ## Escapes -/

/-- A short escape is read as the character that it stands for. -/
theorem shortEscaped?_of_shortEscape? {c e : Char} (h : shortEscape? c = some e) :
    shortEscaped? e = some c := by
  unfold shortEscape? at h
  repeat' split at h
  all_goals first
    | (subst_vars; cases h; decide)
    | cases h

/-- The digits of a control character are read as its code point. -/
theorem hexNumber?_control {n : Nat} (h : n < 256) :
    hexNumber? ['0', '0', upperDigit (n / 16), upperDigit (n % 16)] = some n := by
  have hdigit : ∀ d < 16, hexDigit? (upperDigit d) = some d := by decide
  have hzero : hexDigit? '0' = some 0 := by decide
  simp only [hexNumber?, List.foldl_cons, List.foldl_nil, hzero, hdigit (n / 16) (by omega),
    hdigit (n % 16) (by omega), Option.bind_eq_bind, Option.bind_some]
  exact congrArg some (by omega)

/-- The code point of a character is read as this character. -/
theorem scalar?_toNat (c : Char) : scalar? c.toNat = some c := by
  have hvalid : c.toNat.isValidChar := c.valid
  have hself := Char.ofNat_toNat c
  rw [Char.ofNat, dif_pos hvalid] at hself
  rw [scalar?, dif_pos hvalid, hself]

/-- The code points of control characters have two hexadecimal digits. -/
theorem toNat_lt_of_isControl {c : Char} (h : isControl c = true) : c.toNat < 256 := by
  simp only [isControl, Bool.or_eq_true, Bool.and_eq_true, decide_eq_true_eq] at h
  rcases h with ⟨h, -⟩ | rfl
  · omega
  · decide

/-- A control character is read back from its four digits. -/
theorem readCodePoint_control {c : Char} (h : isControl c = true) (rest : List Char) :
    readCodePoint 4
        ('0' :: '0' :: upperDigit (c.toNat / 16) :: upperDigit (c.toNat % 16) :: rest) =
      some (c, rest) := by
  have hnumber := hexNumber?_control (toNat_lt_of_isControl h)
  simp [readCodePoint, hnumber, scalar?_toNat]

/-- A character other than a quote is spelled by an escape that is read as this character, and
that a line end cannot be taken for, or stands for itself. -/
theorem escapeChar_cases {c : Char} (hquote : c ≠ '"') :
    (∃ e spelling, escapeChar c = '\\' :: e :: spelling ∧ isBlank e = false ∧
      e ≠ '\n' ∧ e ≠ '\r' ∧ ∀ rest, readEscape (e :: (spelling ++ rest)) = some (c, rest)) ∨
    (escapeChar c = [c] ∧ c ≠ '\\' ∧ isControl c = false) := by
  unfold escapeChar
  cases hshort : shortEscape? c with
  | some e =>
    have hplain := shortEscaped?_of_shortEscape? hshort
    have hother : ∀ d, shortEscaped? d = none → e ≠ d := by
      rintro d hnone rfl
      rw [hplain] at hnone
      cases hnone
    refine .inl ⟨e, [], rfl, ?_, hother '\n' (by decide), hother '\r' (by decide), fun rest => ?_⟩
    · simp [isBlank, hother ' ' (by decide), hother '\t' (by decide)]
    · simp [readEscape, hplain]
  | none =>
    by_cases hcontrol : isControl c = true
    · have hu : shortEscaped? 'u' = none := by decide
      refine .inl ⟨'u', _, if_pos hcontrol, by decide, by decide, by decide, fun rest => ?_⟩
      simp [readEscape, hu, readCodePoint_control hcontrol]
    · refine .inr ⟨if_neg hcontrol, ?_, by simpa using hcontrol⟩
      rintro rfl
      exact absurd hshort (by decide)

/-! ## Texts on one line -/

/-- What was read goes before the rest of the content. -/
theorem before_some (chars content rest : List Char) :
    before chars (some (content, rest)) = some (chars ++ content, rest) := rfl

/-- A quote ends the text. -/
theorem readBasic_quote (rest : List Char) : readBasic ('"' :: rest) = some ([], rest) := by
  rw [readBasic, if_pos rfl]

/-- An escape is read as its character, and reading goes on behind it. -/
theorem readBasic_escape {text rest : List Char} {c : Char}
    (h : readEscape text = some (c, rest)) :
    readBasic ('\\' :: text) = before [c] (readBasic rest) := by
  rw [readBasic, if_neg (by decide), if_pos rfl]
  split
  · rename_i hnone
    rw [h] at hnone
    cases hnone
  · rename_i hsome
    obtain ⟨rfl, rfl⟩ := Prod.mk.inj (Option.some.inj (h.symm.trans hsome))
    rfl

/-- A character that needs no escape is read as itself. -/
theorem readBasic_plain {c : Char} (hquote : c ≠ '"') (hescape : c ≠ '\\')
    (hcontrol : isControl c = false) (rest : List Char) :
    readBasic (c :: rest) = before [c] (readBasic rest) := by
  rw [readBasic, if_neg hquote, if_neg hescape, hcontrol]
  rfl

/-- **Between quotes** a text is read back. -/
theorem readBasic_escapeText (text rest : List Char) (seen : Nat) :
    readBasic (escapeText false 0 seen text ++ '"' :: rest) = some (text, rest) := by
  induction text generalizing seen with
  | nil => exact readBasic_quote rest
  | cons c text ih =>
    by_cases hquote : c = '"'
    · subst c
      have hescape : readEscape ('"' :: (escapeText false 0 0 text ++ '"' :: rest)) =
          some ('"', escapeText false 0 0 text ++ '"' :: rest) := rfl
      rw [escapeText, if_pos rfl, if_neg (Nat.not_lt_zero seen), List.cons_append,
        List.cons_append, readBasic_escape hescape, ih, before_some]
      rfl
    · rw [escapeText, if_neg hquote, if_neg (fun h => Bool.false_ne_true h.1), List.append_assoc]
      rcases escapeChar_cases hquote with ⟨e, spelling, hspelled, -, -, -, hescape⟩ |
        ⟨hplain, hbackslash, hcontrol⟩
      · rw [hspelled, List.cons_append, List.cons_append, readBasic_escape (hescape _), ih,
          before_some]
        rfl
      · rw [hplain, List.singleton_append, readBasic_plain hquote hbackslash hcontrol, ih,
          before_some]
        rfl

/-- **Between apostrophes** a text is read back. -/
theorem readLiteral_append {text : List Char} (hmark : ∀ c ∈ text, c ≠ '\'')
    (hcontrol : ∀ c ∈ text, isControl c = false) (rest : List Char) :
    readLiteral (text ++ '\'' :: rest) = some (text, rest) := by
  induction text with
  | nil => rfl
  | cons c text ih =>
    have hread := ih (fun d hd => hmark d (List.mem_cons_of_mem c hd)) fun d hd =>
      hcontrol d (List.mem_cons_of_mem c hd)
    rw [List.cons_append, readLiteral, if_neg (hmark c List.mem_cons_self),
      hcontrol c List.mem_cons_self, hread]
    rfl

/-! ## Marks at the end -/

/-- Three marks close a text. -/
theorem closing?_marks {mark : Char} {seen : Nat} (hseen : seen ≤ 2) {rest : List Char}
    (hrest : ∀ c ∈ rest.head?, c ≠ mark) :
    closing? mark (List.replicate seen mark ++ mark :: mark :: mark :: rest) =
      some (List.replicate seen mark, rest) := by
  have hstop : rest.takeWhile (· = mark) = [] := by
    cases rest with
    | nil => rfl
    | cons c rest => exact List.takeWhile_cons_of_neg (by simpa using hrest c rfl)
  have hmarks : List.replicate seen mark ++ mark :: mark :: mark :: rest =
      mark :: mark :: mark :: (List.replicate seen mark ++ rest) := by
    have hfew : seen = 0 ∨ seen = 1 ∨ seen = 2 := by omega
    rcases hfew with rfl | rfl | rfl <;> rfl
  have hthree : expectWord [mark, mark, mark]
      (mark :: mark :: mark :: (List.replicate seen mark ++ rest)) =
        some (List.replicate seen mark ++ rest) := by
    simp [expectWord]
  have hextra : ((List.replicate seen mark ++ rest).takeWhile (· = mark)).take 2 =
      List.replicate seen mark := by
    rw [List.takeWhile_append_of_pos (by simp), hstop, List.append_nil,
      List.take_of_length_le (by simpa using hseen)]
  rw [hmarks, closing?, hthree]
  simp only [hextra, List.length_replicate]
  exact congrArg (fun after => some (_, after)) (by simp)

/-- Fewer than three marks in a row close nothing. -/
theorem closing?_few {mark c : Char} {seen : Nat} (hseen : seen ≤ 2) (hmark : c ≠ mark)
    (rest : List Char) : closing? mark (List.replicate seen mark ++ c :: rest) = none := by
  have hfew : seen = 0 ∨ seen = 1 ∨ seen = 2 := by omega
  rcases hfew with rfl | rfl | rfl <;> simp [closing?, expectWord, List.replicate, hmark]

/-- A reader that takes a mark for itself where no text is closed does so with all marks that
close nothing. -/
theorem read_few {read : Reader (List Char)} {mark : Char}
    (hread : ∀ rest, closing? mark (mark :: rest) = none →
      read (mark :: rest) = before [mark] (read rest))
    {c : Char} {seen : Nat} (hseen : seen ≤ 2) (hmark : c ≠ mark) (rest : List Char) :
    read (List.replicate seen mark ++ c :: rest) =
      before (List.replicate seen mark) (read (c :: rest)) := by
  induction seen with
  | zero =>
    rw [List.replicate_zero, List.nil_append]
    cases read (c :: rest) <;> rfl
  | succ seen ih =>
    have hopen := closing?_few hseen hmark rest
    rw [List.replicate_succ, List.cons_append] at hopen ⊢
    rw [hread _ hopen, ih (by omega)]
    cases read (c :: rest) <;> rfl

/-! ## Texts on several lines -/

/-- Line ends are control characters. -/
theorem lineEnd?_of_not_isControl {c : Char} (h : isControl c = false) (rest : List Char) :
    lineEnd? (c :: rest) = none := by
  have hfeed : c ≠ '\n' := by
    rintro rfl
    cases h
  have hreturn : c ≠ '\r' := by
    rintro rfl
    cases h
  simp [lineEnd?, hfeed, hreturn]

/-- The closing marks end the text, with the marks before them. -/
theorem readBasicLines_closing {text content rest : List Char}
    (h : closing? '"' text = some (content, rest)) :
    readBasicLines text = some (content, rest) := by
  rw [readBasicLines, h]

/-- A line feed stands for itself. -/
theorem readBasicLines_lineFeed (rest : List Char) :
    readBasicLines ('\n' :: rest) = before ['\n'] (readBasicLines rest) := by
  have hopen : closing? '"' ('\n' :: rest) = none := closing?_few (Nat.zero_le 2) (by decide) rest
  rw [readBasicLines, hopen]
  rfl

/-- An escape that is not one of a line end is read as its character. -/
theorem readBasicLines_escape {e c : Char} {text rest : List Char} (hblank : isBlank e = false)
    (hfeed : e ≠ '\n') (hreturn : e ≠ '\r') (h : readEscape (e :: text) = some (c, rest)) :
    readBasicLines ('\\' :: e :: text) = before [c] (readBasicLines rest) := by
  have hopen : closing? '"' ('\\' :: e :: text) = none :=
    closing?_few (Nat.zero_le 2) (by decide) _
  have hend : escapedLineEnd? (e :: text) = none := by
    simp [escapedLineEnd?, skipBlanks, hblank, lineEnd?, hfeed, hreturn]
  rw [readBasicLines, hopen]
  dsimp only
  split
  · rename_i hline
    cases hline
  · rw [if_pos rfl]
    split
    · rename_i hsome
      rw [hend] at hsome
      cases hsome
    · split
      · rename_i hnone
        rw [h] at hnone
        cases hnone
      · rename_i hsome
        obtain ⟨rfl, rfl⟩ := Prod.mk.inj (Option.some.inj (h.symm.trans hsome))
        rfl

/-- A character that needs no escape, a quote that closes nothing too, is read as itself. -/
theorem readBasicLines_plain {c : Char} {rest : List Char}
    (hopen : closing? '"' (c :: rest) = none) (hescape : c ≠ '\\')
    (hcontrol : isControl c = false) :
    readBasicLines (c :: rest) = before [c] (readBasicLines rest) := by
  rw [readBasicLines, hopen]
  dsimp only
  split
  · rename_i hsome
    rw [lineEnd?_of_not_isControl hcontrol] at hsome
    cases hsome
  · rw [if_neg hescape, hcontrol]
    rfl

/-- One or two quotes in a row stand for themselves. -/
theorem readBasicLines_few {c : Char} {seen : Nat} (hseen : seen ≤ 2) (hquote : c ≠ '"')
    (rest : List Char) :
    readBasicLines (List.replicate seen '"' ++ c :: rest) =
      before (List.replicate seen '"') (readBasicLines (c :: rest)) :=
  read_few (fun _ hopen => readBasicLines_plain hopen (by decide) (by decide)) hseen hquote rest

/-- **Between triple quotes** a text is read back, with the quotes before it of which `seen`
are still open. -/
theorem readBasicLines_escapeText (text : List Char) {rest : List Char}
    (hrest : ∀ c ∈ rest.head?, c ≠ '"') {seen : Nat} (hseen : seen ≤ 2) :
    readBasicLines
        (List.replicate seen '"' ++ (escapeText true 2 seen text ++ '"' :: '"' :: '"' :: rest)) =
      some (List.replicate seen '"' ++ text, rest) := by
  induction text generalizing seen with
  | nil =>
    rw [List.append_nil]
    exact readBasicLines_closing (closing?_marks hseen hrest)
  | cons c text ih =>
    -- A quote that stands for itself joins those before it; anything else, an escaped quote too,
    -- lets them go, and the rest is read from no open quotes on.
    have hnone := ih (Nat.zero_le 2)
    rw [List.replicate_zero, List.nil_append, List.nil_append] at hnone
    by_cases hquote : c = '"'
    · subst c
      by_cases hmore : seen < 2
      · have hone := ih (Nat.succ_le_of_lt hmore)
        rw [escapeText, if_pos rfl, if_pos hmore]
        rw [List.replicate_succ'] at hone
        simpa using hone
      · have hescape : readEscape ('"' :: (escapeText true 2 0 text ++ '"' :: '"' :: '"' :: rest)) =
            some ('"', escapeText true 2 0 text ++ '"' :: '"' :: '"' :: rest) := rfl
        rw [escapeText, if_pos rfl, if_neg hmore, List.cons_append, List.cons_append,
          readBasicLines_few hseen (by decide),
          readBasicLines_escape (by decide) (by decide) (by decide) hescape, hnone, before_some,
          before_some]
        rfl
    · rw [escapeText, if_neg hquote]
      split
      · rename_i hfeed
        obtain ⟨-, rfl⟩ := hfeed
        rw [List.cons_append, readBasicLines_few hseen (by decide), readBasicLines_lineFeed, hnone,
          before_some, before_some]
        rfl
      · rw [List.append_assoc]
        rcases escapeChar_cases hquote with
          ⟨e, spelling, hspelled, hblank, hfeed, hreturn, hescape⟩ |
          ⟨hplain, hbackslash, hcontrol⟩
        · rw [hspelled, List.cons_append, List.cons_append, readBasicLines_few hseen (by decide),
            readBasicLines_escape hblank hfeed hreturn (hescape _), hnone, before_some, before_some]
          rfl
        · have hopen := closing?_few (Nat.zero_le 2) hquote
            (escapeText true 2 0 text ++ '"' :: '"' :: '"' :: rest)
          rw [hplain, List.singleton_append, readBasicLines_few hseen hquote,
            readBasicLines_plain hopen hbackslash hcontrol, hnone, before_some, before_some]
          rfl

/-- The closing marks end the text, with the marks before them. -/
theorem readLiteralLines_closing {text content rest : List Char}
    (h : closing? '\'' text = some (content, rest)) :
    readLiteralLines text = some (content, rest) := by
  rw [readLiteralLines, h]

/-- A line feed stands for itself. -/
theorem readLiteralLines_lineFeed (rest : List Char) :
    readLiteralLines ('\n' :: rest) = before ['\n'] (readLiteralLines rest) := by
  have hopen : closing? '\'' ('\n' :: rest) = none :=
    closing?_few (Nat.zero_le 2) (by decide) rest
  rw [readLiteralLines, hopen]
  rfl

/-- Nothing is escaped: every other character, an apostrophe that closes nothing too, is read as
itself. -/
theorem readLiteralLines_plain {c : Char} {rest : List Char}
    (hopen : closing? '\'' (c :: rest) = none) (hcontrol : isControl c = false) :
    readLiteralLines (c :: rest) = before [c] (readLiteralLines rest) := by
  rw [readLiteralLines, hopen]
  dsimp only
  split
  · rename_i hsome
    rw [lineEnd?_of_not_isControl hcontrol] at hsome
    cases hsome
  · rw [hcontrol]
    rfl

/-- One or two apostrophes in a row stand for themselves. -/
theorem readLiteralLines_few {c : Char} {seen : Nat} (hseen : seen ≤ 2) (hmark : c ≠ '\'')
    (rest : List Char) :
    readLiteralLines (List.replicate seen '\'' ++ c :: rest) =
      before (List.replicate seen '\'') (readLiteralLines (c :: rest)) :=
  read_few (fun _ hopen => readLiteralLines_plain hopen (by decide)) hseen hmark rest

/-- The marks before a text are in a row. -/
theorem le_longestRun (mark : Char) (seen : Nat) (text : List Char) :
    seen ≤ longestRun mark seen text := by
  induction text generalizing seen with
  | nil => exact Nat.le_refl seen
  | cons c text ih =>
    rw [longestRun]
    split
    · exact Nat.le_of_succ_le (ih (seen + 1))
    · exact Nat.le_max_left ..

/-- **Between triple apostrophes** a text is read back whose apostrophes are never three in a
row, with the apostrophes before it of which `seen` are still open. -/
theorem readLiteralLines_append {text rest : List Char}
    (hcontrol : ∀ c ∈ text, c ≠ '\n' → isControl c = false)
    (hrest : ∀ c ∈ rest.head?, c ≠ '\'') {seen : Nat} (hrun : longestRun '\'' seen text ≤ 2) :
    readLiteralLines
        (List.replicate seen '\'' ++ (text ++ '\'' :: '\'' :: '\'' :: rest)) =
      some (List.replicate seen '\'' ++ text, rest) := by
  induction text generalizing seen with
  | nil =>
    rw [List.append_nil]
    exact readLiteralLines_closing (closing?_marks hrun hrest)
  | cons c text ih =>
    have hseen := Nat.le_trans (le_longestRun '\'' seen (c :: text)) hrun
    have htail : ∀ {n : Nat}, longestRun '\'' n text ≤ 2 → _ :=
      fun {_} => ih fun d hd => hcontrol d (List.mem_cons_of_mem c hd)
    rw [longestRun] at hrun
    by_cases hmark : c = '\''
    · subst c
      rw [if_pos rfl] at hrun
      have hone := htail hrun
      rw [List.replicate_succ'] at hone
      simpa using hone
    · rw [if_neg hmark] at hrun
      have hnone := htail (Nat.le_trans (Nat.le_max_right ..) hrun)
      rw [List.replicate_zero, List.nil_append, List.nil_append] at hnone
      rw [List.cons_append, readLiteralLines_few hseen hmark]
      by_cases hfeed : c = '\n'
      · subst c
        rw [readLiteralLines_lineFeed, hnone, before_some, before_some]
        rfl
      · have hopen := closing?_few (Nat.zero_le 2) hmark (text ++ '\'' :: '\'' :: '\'' :: rest)
        rw [readLiteralLines_plain hopen (hcontrol c List.mem_cons_self hfeed), hnone, before_some,
          before_some]
        rfl

/-! ## Texts of any form -/

/-- What comes after a text begins with no mark. -/
def Unmarked (rest : List Char) : Prop := ∀ c ∈ rest.head?, c ≠ '"' ∧ c ≠ '\''

/-- A text that needs no escapes has no control characters but line feeds. -/
theorem not_isControl_of_needsEscapes {text : List Char} (h : needsEscapes text = false) :
    ∀ c ∈ text, c ≠ '\n' → isControl c = false := by
  intro c hc hfeed
  have hneeds := List.any_eq_false.1 h c hc
  simpa [hfeed] using hneeds

/-- A text without a run of marks has no mark. -/
theorem ne_of_longestRun {mark : Char} {text : List Char} (h : longestRun mark 0 text = 0) :
    ∀ c ∈ text, c ≠ mark := by
  induction text with
  | nil => nofun
  | cons c text ih =>
    rw [longestRun] at h
    by_cases hmark : c = mark
    · rw [if_pos hmark] at h
      have hone := le_longestRun mark (0 + 1) text
      omega
    · rw [if_neg hmark, Nat.zero_max] at h
      intro d hd
      rcases List.mem_cons.1 hd with rfl | hd
      · exact hmark
      · exact ih h d hd

/-- A text is written between apostrophes when it has none, is one line and needs no escapes. -/
theorem formOf_literal {text : List Char} (h : formOf text = .literal) :
    needsEscapes text = false ∧ longestRun '\'' 0 text = 0 ∧ '\n' ∉ text := by
  unfold formOf at h
  grind

/-- A text is written between triple apostrophes when it has at most two in a row and needs no
escapes. -/
theorem formOf_literalLines {text : List Char} (h : formOf text = .literalLines) :
    needsEscapes text = false ∧ longestRun '\'' 0 text ≤ 2 := by
  unfold formOf at h
  grind

/-- The opening line is dropped, and nothing else. -/
theorem dropLineEnd_openingLine {text body : List Char}
    (h : '\n' ∉ text → lineEnd? body = none) : dropLineEnd (openingLine text ++ body) = body := by
  by_cases hlines : '\n' ∈ text
  · simp [openingLine, hlines, dropLineEnd, lineEnd?]
  · simp [openingLine, hlines, dropLineEnd, h hlines]

/-- What is written of a text on one line begins with no line end. -/
theorem lineEnd?_escapeText {text : List Char} (h : '\n' ∉ text) (rest : List Char) :
    lineEnd? (escapeText true 2 0 text ++ '"' :: rest) = none := by
  cases text with
  | nil => rfl
  | cons c text =>
    have hfeed : c ≠ '\n' := fun hc => h (hc ▸ List.mem_cons_self)
    by_cases hquote : c = '"'
    · subst c
      rfl
    · rw [escapeText, if_neg hquote, if_neg fun hline => hfeed hline.2]
      rcases escapeChar_cases hquote with ⟨e, spelling, hspelled, -⟩ | ⟨hplain, -, hcontrol⟩
      · rw [hspelled]
        rfl
      · rw [hplain]
        exact lineEnd?_of_not_isControl hcontrol _

/-- One mark closes a text on one line when it is followed by none. -/
theorem expectWord_pair {mark : Char} {text rest : List Char}
    (htext : ∀ c ∈ text.head?, c ≠ mark) (hrest : ∀ c ∈ rest.head?, c ≠ mark) :
    expectWord [mark, mark] (text ++ mark :: rest) = none := by
  cases text with
  | nil =>
    cases rest with
    | nil => simp [expectWord]
    | cons c rest => simp [expectWord, hrest c rfl]
  | cons c text => simp [expectWord, htext c rfl]

/-- Between single quotes no text begins with a quote. -/
theorem ne_quote_of_mem_escapeText (text : List Char) :
    ∀ c ∈ (escapeText false 0 0 text).head?, c ≠ '"' := by
  intro c hc
  cases text with
  | nil => cases hc
  | cons d text =>
    by_cases hquote : d = '"'
    · subst d
      obtain rfl := Option.some.inj hc
      decide
    · rw [escapeText, if_neg hquote, if_neg fun hline => Bool.false_ne_true hline.1] at hc
      rcases escapeChar_cases hquote with ⟨e, spelling, hspelled, -⟩ | ⟨hplain, -⟩
      · rw [hspelled] at hc
        obtain rfl := Option.some.inj hc
        decide
      · rw [hplain] at hc
        obtain rfl := Option.some.inj hc
        exact hquote

/-- A single quote opens a text on one line. -/
theorem readText_basic {body : List Char} (h : expectWord ['"', '"'] body = none) :
    readText ('"' :: body) =
      (readBasic body).map fun read => (String.ofList read.1, read.2) := by
  simp [readText, expectWord, h]

/-- A single apostrophe opens one that has no escapes. -/
theorem readText_literal {body : List Char} (h : expectWord ['\'', '\''] body = none) :
    readText ('\'' :: body) =
      (readLiteral body).map fun read => (String.ofList read.1, read.2) := by
  simp [readText, expectWord, h]

/-- Three quotes open a text on several lines; a line end right behind them is dropped. -/
theorem readText_basicLines (body : List Char) :
    readText ('"' :: '"' :: '"' :: body) =
      (readBasicLines (dropLineEnd body)).map fun read => (String.ofList read.1, read.2) := by
  simp [readText, expectWord]

/-- Three apostrophes do the same for a text that has no escapes. -/
theorem readText_literalLines (body : List Char) :
    readText ('\'' :: '\'' :: '\'' :: body) =
      (readLiteralLines (dropLineEnd body)).map fun read => (String.ofList read.1, read.2) := by
  simp [readText, expectWord]

/-- **A written text is read back.** -/
theorem readText_writeText (s : String) {rest : List Char} (hrest : Unmarked rest) :
    readText (writeText s ++ rest) = some (s, rest) := by
  have hquote : ∀ c ∈ rest.head?, c ≠ '"' := fun c hc => (hrest c hc).1
  have hmark : ∀ c ∈ rest.head?, c ≠ '\'' := fun c hc => (hrest c hc).2
  have hself : ∀ read, read = some (s.toList, rest) →
      read.map (fun read : List Char × List Char => (String.ofList read.1, read.2)) =
        some (s, rest) := by
    rintro _ rfl
    rw [Option.map_some, String.ofList_toList]
  rw [writeText]
  cases hform : formOf s.toList with
  | basic =>
    have hopen := expectWord_pair (ne_quote_of_mem_escapeText s.toList) hquote
    rw [writeAs, List.cons_append, List.append_assoc, List.singleton_append, readText_basic hopen]
    exact hself _ (readBasic_escapeText s.toList rest 0)
  | literal =>
    obtain ⟨hescapes, hrun, hlines⟩ := formOf_literal hform
    have hnone := ne_of_longestRun hrun
    have hplain : ∀ c ∈ s.toList, isControl c = false := fun c hc =>
      not_isControl_of_needsEscapes hescapes c hc fun hfeed => hlines (hfeed ▸ hc)
    have hopen := expectWord_pair (fun c hc => hnone c (List.mem_of_mem_head? hc)) hmark
    rw [writeAs, List.cons_append, List.append_assoc, List.singleton_append, readText_literal hopen]
    exact hself _ (readLiteral_append hnone hplain rest)
  | basicLines =>
    have hopening := dropLineEnd_openingLine fun hlines : '\n' ∉ s.toList =>
      lineEnd?_escapeText hlines ('"' :: '"' :: rest)
    simp only [writeAs, List.cons_append, List.append_assoc, List.nil_append, readText_basicLines,
      hopening]
    exact hself _ (readBasicLines_escapeText s.toList hquote (Nat.zero_le 2))
  | literalLines =>
    obtain ⟨hescapes, hrun⟩ := formOf_literalLines hform
    have hplain := not_isControl_of_needsEscapes hescapes
    have hopening : dropLineEnd
          (openingLine s.toList ++ (s.toList ++ '\'' :: '\'' :: '\'' :: rest)) =
        s.toList ++ '\'' :: '\'' :: '\'' :: rest := by
      refine dropLineEnd_openingLine fun hlines => ?_
      cases htext : s.toList with
      | nil => rfl
      | cons c text =>
        rw [htext] at hplain hlines
        exact lineEnd?_of_not_isControl (hplain c List.mem_cons_self fun hfeed =>
          hlines (hfeed ▸ List.mem_cons_self)) _
    simp only [writeAs, List.cons_append, List.append_assoc, List.nil_append,
      readText_literalLines, hopening]
    exact hself _ (readLiteralLines_append hplain hmark hrun)

end Toml
end Reconciliation
