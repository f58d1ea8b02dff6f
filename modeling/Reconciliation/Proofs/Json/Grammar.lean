/-
# The grammar of JSON text

`Value.Spelled` says which texts spell a document, without blanks before or after
it: a string in any mixture of plain characters, short escapes and escaped code
points, a number in any spelling, the items of a list and the members of an object
with blanks wherever they may stand.  It is written along the document, not along a
reader, and knows no limit on nesting, on the length of a text or on the range of a
number.

What the tokens of the grammar are for the scanners of `Reconciliation.Json.Scan` is
proved here in both directions: a scanner takes exactly the token that stands before
it, and what a scanner takes is a token.
-/

import Reconciliation.Proofs.Json.ReadBack
import Reconciliation.Json.Document

namespace Reconciliation
namespace Json

/-! ## Blanks -/

/-- A run of blanks. -/
def Blank (text : List Char) : Prop := ∀ c ∈ text, isBlank c = true

theorem blank_nil : Blank [] := by
  intro c hc
  cases hc

theorem blank_cons {c : Char} {text : List Char} (hc : isBlank c = true) (h : Blank text) :
    Blank (c :: text) := by
  intro d hd
  rcases List.mem_cons.1 hd with rfl | hd
  · exact hc
  · exact h d hd

/-- A run of blanks is passed over. -/
theorem skipBlanks_blank {lead : List Char} (h : Blank lead) (rest : List Char) :
    skipBlanks (lead ++ rest) = skipBlanks rest := by
  induction lead with
  | nil => rfl
  | cons c lead ih =>
    have hc := h c List.mem_cons_self
    rw [List.cons_append, skipBlanks, if_pos hc]
    exact ih fun d hd => h d (List.mem_cons_of_mem c hd)

/-- Passing over blanks stops at anything else. -/
theorem skipBlanks_cons {c : Char} (h : isBlank c = false) (rest : List Char) :
    skipBlanks (c :: rest) = c :: rest := by
  simp [skipBlanks, h]

/-- What is passed over is a run of blanks, and no blank follows it. -/
theorem exists_blank (text : List Char) :
    ∃ lead, Blank lead ∧ text = lead ++ skipBlanks text ∧
      ∀ c ∈ (skipBlanks text).head?, isBlank c = false := by
  induction text with
  | nil => exact ⟨[], blank_nil, rfl, fun _ hc => nomatch hc⟩
  | cons c text ih =>
    cases hc : isBlank c with
    | true =>
      obtain ⟨lead, hlead, htext, hhead⟩ := ih
      refine ⟨c :: lead, blank_cons hc hlead, ?_, ?_⟩
      · simp only [skipBlanks, hc, if_true, List.cons_append]
        exact congrArg (c :: ·) htext
      · simpa [skipBlanks, hc] using hhead
    | false =>
      refine ⟨[], blank_nil, by rw [skipBlanks_cons hc, List.nil_append], ?_⟩
      rw [skipBlanks_cons hc]
      rintro d hd
      obtain rfl := Option.some.inj hd
      exact hc

/-- What stands before the first character that is not passed over is a run of blanks. -/
theorem exists_blank_of_skipBlanks {text rest : List Char} {c : Char}
    (h : skipBlanks text = c :: rest) :
    ∃ lead, Blank lead ∧ text = lead ++ c :: rest ∧ isBlank c = false := by
  obtain ⟨lead, hlead, htext, hhead⟩ := exists_blank text
  rw [h] at htext hhead
  exact ⟨lead, hlead, htext, hhead c rfl⟩

/-- A text of which nothing is left is a run of blanks. -/
theorem blank_of_skipBlanks {text : List Char} (h : skipBlanks text = []) : Blank text := by
  obtain ⟨lead, hlead, htext, -⟩ := exists_blank text
  rw [h, List.append_nil] at htext
  exact htext ▸ hlead

theorem skipBlanks_eq_nil {text : List Char} (h : Blank text) : skipBlanks text = [] := by
  have hskip := skipBlanks_blank h []
  rwa [List.append_nil] at hskip

/-! ## Strings -/

/-- The texts that spell the content of a string between its quotes. -/
inductive Escapes : List Char → List Char → Prop where
  | nil : Escapes [] []
  | plain {c content text} (hquote : c ≠ '"') (hbackslash : c ≠ '\\') (hcontrol : ¬ c.toNat < 0x20)
      (more : Escapes content text) : Escapes (c :: content) (c :: text)
  | short {e c content text} (hshort : shortEscaped? e = some c)
      (more : Escapes content text) : Escapes (c :: content) ('\\' :: e :: text)
  | quad {h₁ h₂ h₃ h₄ n content text} (hquad : hexQuad? h₁ h₂ h₃ h₄ = some n)
      (hlow : isLowSurrogate n = false) (hhigh : isHighSurrogate n = false)
      (more : Escapes content text) :
      Escapes (Char.ofNat n :: content) ('\\' :: 'u' :: h₁ :: h₂ :: h₃ :: h₄ :: text)
  | pair {h₁ h₂ h₃ h₄ l₁ l₂ l₃ l₄ high low content text}
      (hhigh : hexQuad? h₁ h₂ h₃ h₄ = some high) (ishigh : isHighSurrogate high = true)
      (hlow : hexQuad? l₁ l₂ l₃ l₄ = some low) (islow : isLowSurrogate low = true)
      (more : Escapes content text) :
      Escapes (Char.ofNat (pairedCodePoint high low) :: content)
        ('\\' :: 'u' :: h₁ :: h₂ :: h₃ :: h₄ :: '\\' :: 'u' :: l₁ :: l₂ :: l₃ :: l₄ :: text)

/-- No code unit is both halves of a pair. -/
theorem isLowSurrogate_of_isHighSurrogate {n : Nat} (h : isHighSurrogate n = true) :
    isLowSurrogate n = false := by
  simp only [isHighSurrogate, Bool.and_eq_true, decide_eq_true_eq] at h
  simp only [isLowSurrogate, Bool.and_eq_false_iff, decide_eq_false_iff_not]
  omega

theorem shortEscaped?_u : shortEscaped? 'u' = none := by decide

/-- **A string is scanned to its content.** -/
theorem Escapes.scanText {content text : List Char} (h : Escapes content text)
    (rest : List Char) : scanText (text ++ '"' :: rest) = .ok (content, rest) := by
  induction h with
  | nil => rw [List.nil_append, scanText.eq_def]; rfl
  | plain hquote hbackslash hcontrol _ ih =>
    rw [List.cons_append, scanText.eq_def]
    simp [hquote, hbackslash, hcontrol, ih, consChar]
  | short hshort _ ih =>
    rw [List.cons_append, List.cons_append, scanText.eq_def]
    simp [hshort, ih, consChar]
  | quad hquad hlow hhigh _ ih =>
    simp only [List.cons_append]
    rw [scanText.eq_def]
    simp [shortEscaped?_u, hquad, hlow, hhigh, ih, consChar]
  | pair hhigh ishigh hlow islow _ ih =>
    simp only [List.cons_append]
    rw [scanText.eq_def]
    simp [shortEscaped?_u, hhigh, ishigh, isLowSurrogate_of_isHighSurrogate ishigh, hlow, islow,
      ih, consChar]

/-- An escaped code unit is passed over. -/
theorem skipText_quad {h₁ h₂ h₃ h₄ : Char} {n : Nat} (h : hexQuad? h₁ h₂ h₃ h₄ = some n)
    (rest : List Char) :
    skipText ('\\' :: 'u' :: h₁ :: h₂ :: h₃ :: h₄ :: rest) = skipText rest := by
  rw [skipText.eq_def]
  simp [shortEscaped?_u, h]

/-- A string nobody asked for is passed over. -/
theorem Escapes.skipText {content text : List Char} (h : Escapes content text)
    (rest : List Char) : skipText (text ++ '"' :: rest) = .ok rest := by
  induction h with
  | nil => rw [List.nil_append, skipText.eq_def]; rfl
  | plain hquote hbackslash hcontrol _ ih =>
    rw [List.cons_append, skipText.eq_def]
    simp [hquote, hbackslash, hcontrol, ih]
  | short hshort _ ih =>
    rw [List.cons_append, List.cons_append, skipText.eq_def]
    simp [hshort, ih]
  | quad hquad _ _ _ ih =>
    simp only [List.cons_append]
    rw [skipText_quad hquad, ih]
  | pair hhigh _ hlow _ _ ih =>
    simp only [List.cons_append]
    rw [skipText_quad hhigh, skipText_quad hlow, ih]

theorem consChar_eq_ok {c : Char} {scanned : Except Fault (List Char × List Char)}
    {content rest : List Char} (h : consChar c scanned = .ok (content, rest)) :
    ∃ tail, content = c :: tail ∧ scanned = .ok (tail, rest) := by
  cases scanned with
  | error fault => cases h
  | ok scanned =>
    cases h
    exact ⟨_, rfl, rfl⟩

/-- **Whatever is scanned as a string is one.** -/
theorem exists_escapes {text content rest : List Char} (h : scanText text = .ok (content, rest)) :
    ∃ body, text = body ++ '"' :: rest ∧ Escapes content body := by
  -- Every other branch of the scanner ends in a fault.
  fun_induction scanText text generalizing content <;> try contradiction
  case case2 =>
    cases h
    exact ⟨[], rfl, .nil⟩
  case case4 hshort _ ih =>
    obtain ⟨tail, rfl, hscan⟩ := consChar_eq_ok h
    obtain ⟨body, rfl, hbody⟩ := ih hscan
    exact ⟨_ :: _ :: body, rfl, .short hshort hbody⟩
  case case13 _ hu h₁ h₂ h₃ h₄ high hhigh _ ishigh _ hbackslash _ hu' l₁ l₂ l₃ l₄ _ low hlow islow
      _ ih =>
    obtain rfl := Decidable.not_not.1 hu
    obtain rfl := Decidable.not_not.1 hbackslash
    obtain rfl := Decidable.not_not.1 hu'
    obtain ⟨tail, rfl, hscan⟩ := consChar_eq_ok h
    obtain ⟨body, rfl, hbody⟩ := ih hscan
    exact ⟨_ :: _ :: _ :: _ :: _ :: _ :: _ :: _ :: _ :: _ :: _ :: _ :: body, rfl,
      .pair hhigh ishigh hlow islow hbody⟩
  case case16 _ hu h₁ h₂ h₃ h₄ _ n hquad hlow hhigh _ ih =>
    obtain rfl := Decidable.not_not.1 hu
    obtain ⟨tail, rfl, hscan⟩ := consChar_eq_ok h
    obtain ⟨body, rfl, hbody⟩ := ih hscan
    exact ⟨_ :: _ :: _ :: _ :: _ :: _ :: body, rfl,
      .quad hquad (Bool.eq_false_iff.2 hlow) (Bool.eq_false_iff.2 hhigh) hbody⟩
  case case19 hquote hbackslash hcontrol ih =>
    obtain ⟨tail, rfl, hscan⟩ := consChar_eq_ok h
    obtain ⟨body, rfl, hbody⟩ := ih hscan
    exact ⟨_ :: body, rfl, .plain hquote hbackslash hcontrol hbody⟩

/-! ## Numbers -/

/-- A run of at least one digit. -/
def Digits (digits : List Char) : Prop := digits ≠ [] ∧ ∀ c ∈ digits, c.isDigit = true

/-- The digits of a number before its point: no other digit follows a leading zero. -/
def WholeDigits (digits : List Char) : Prop :=
  Digits digits ∧ ∀ rest, digits = '0' :: rest → rest = []

/-- The texts that spell what follows a number's point, with the point. -/
def FractionSpelled : Option (List Char) → List Char → Prop
  | none, text => text = []
  | some digits, text => Digits digits ∧ text = '.' :: digits

/-- The signs an exponent may be given. -/
def signsOf (negative : Bool) : List (List Char) := if negative then [['-']] else [[], ['+']]

/-- The texts that spell a number's exponent, with its letter. -/
def ExponentSpelled : Option (Bool × List Char) → List Char → Prop
  | none, text => text = []
  | some (negative, digits), text =>
    Digits digits ∧ ∃ e sign, (e = 'e' ∨ e = 'E') ∧ sign ∈ signsOf negative ∧
      text = e :: (sign ++ digits)

/-- The texts that spell a number without its sign. -/
def Numeral.Spelled (numeral : Numeral) (text : List Char) : Prop :=
  WholeDigits numeral.whole ∧ ∃ fraction exponent,
    FractionSpelled numeral.fraction fraction ∧ ExponentSpelled numeral.exponent exponent ∧
      text = numeral.whole ++ (fraction ++ exponent)

/-- What may follow a document: blanks, what closes or goes on with a list or an
object, or nothing. -/
def Ended (rest : List Char) : Prop :=
  ∀ c ∈ rest.head?, isBlank c = true ∨ c = ',' ∨ c = ']' ∨ c = '\x7d'

theorem ended_nil : Ended [] := by
  intro c hc
  cases hc

theorem ended_cons {c : Char} (h : isBlank c = true ∨ c = ',' ∨ c = ']' ∨ c = '\x7d')
    (rest : List Char) : Ended (c :: rest) := by
  intro d hd
  obtain rfl := Option.some.inj hd
  exact h

theorem Ended.blank_append {lead rest : List Char} (hlead : Blank lead) (h : Ended rest) :
    Ended (lead ++ rest) := by
  cases lead with
  | nil => exact h
  | cons c lead => exact ended_cons (.inl (hlead c List.mem_cons_self)) _

/-- A character that ends a number does not go on with it. -/
theorem Ended.head {c : Char} {rest : List Char} (h : Ended (c :: rest)) :
    c.isDigit = false ∧ c ≠ '.' ∧ c ≠ 'e' ∧ c ≠ 'E' := by
  have hc := h c rfl
  simp only [isBlank, Bool.or_eq_true, decide_eq_true_eq] at hc
  rcases hc with (((rfl | rfl) | rfl) | rfl) | rfl | rfl | rfl <;> decide

/-- An exponent is scanned to its sign and digits. -/
theorem scanExponent_spelled (endFault : Fault) {negative : Bool} {digits sign rest : List Char}
    (hdigits : Digits digits) (hsign : sign ∈ signsOf negative) (hrest : Ended rest) :
    scanExponent endFault (sign ++ digits ++ rest) = .ok ((negative, digits), rest) := by
  obtain ⟨d, more, rfl⟩ := List.exists_cons_of_ne_nil hdigits.1
  have hd := hdigits.2 d List.mem_cons_self
  have hplus : d ≠ '+' := by rintro rfl; exact absurd hd (by decide)
  have hminus : d ≠ '-' := by rintro rfl; exact absurd hd (by decide)
  have htake : takeDigits (d :: (more ++ rest)) = (d :: more, rest) :=
    takeDigits_digits hdigits.2 (by
      intro c hc
      cases rest with
      | nil => cases hc
      | cons e rest =>
        obtain rfl := Option.some.inj hc
        exact hrest.head.1)
  cases negative with
  | true =>
    obtain rfl := List.mem_singleton.1 hsign
    simp [scanExponent, hd, htake]
  | false =>
    simp only [signsOf, Bool.false_eq_true, if_false, List.mem_cons, List.not_mem_nil, or_false]
      at hsign
    rcases hsign with rfl | rfl
    · simp [scanExponent, hd, htake, hplus, hminus]
    · simp [scanExponent, hd, htake]

/-- Neither an exponent nor what ends a number goes on with digits. -/
theorem ExponentSpelled.head {exponentOf : Option (Bool × List Char)} {exponent rest : List Char}
    (h : ExponentSpelled exponentOf exponent) (hrest : Ended rest) :
    ∀ c ∈ (exponent ++ rest).head?, c.isDigit = false := by
  intro c hc
  cases exponentOf with
  | none =>
    obtain rfl := h
    cases rest with
    | nil => cases hc
    | cons d rest =>
      obtain rfl := Option.some.inj hc
      exact hrest.head.1
  | some parts =>
    obtain ⟨-, e, sign, he, -, rfl⟩ := h
    obtain rfl := Option.some.inj hc
    rcases he with rfl | rfl <;> decide

/-- What follows the digits before a number's point does not go on with them. -/
theorem FractionSpelled.head {fractionOf : Option (List Char)} {fraction rest : List Char}
    (h : FractionSpelled fractionOf fraction) (hrest : ∀ c ∈ rest.head?, c.isDigit = false) :
    ∀ c ∈ (fraction ++ rest).head?, c.isDigit = false := by
  cases fractionOf with
  | none =>
    obtain rfl := h
    exact hrest
  | some digits =>
    obtain ⟨-, rfl⟩ := h
    rintro _ ⟨⟩
    decide

/-- What follows a number's digits is scanned to its fraction and its exponent. -/
theorem scanNumeralTail_spelled (endFault : Fault) (whole : List Char)
    {fraction exponent rest : List Char}
    {fractionOf : Option (List Char)} {exponentOf : Option (Bool × List Char)}
    (hfraction : FractionSpelled fractionOf fraction)
    (hexponent : ExponentSpelled exponentOf exponent) (hrest : Ended rest) :
    scanNumeralTail endFault whole (fraction ++ (exponent ++ rest)) =
      .ok (⟨whole, fractionOf, exponentOf⟩, rest) := by
  have hhead := hexponent.head hrest
  cases fractionOf with
  | none =>
    obtain rfl := hfraction
    cases exponentOf with
    | none =>
      obtain rfl := hexponent
      cases rest with
      | nil => rfl
      | cons c rest =>
        obtain ⟨-, hpoint, he, hE⟩ := hrest.head
        simp [scanNumeralTail, he, hE]
    | some exponentOf =>
      obtain ⟨negative, digits⟩ := exponentOf
      obtain ⟨hdigits, e, sign, he, hsign, rfl⟩ := hexponent
      have hscan := scanExponent_spelled endFault hdigits hsign hrest
      rw [List.append_assoc] at hscan
      rcases he with rfl | rfl <;> simp [scanNumeralTail, hscan, bind, Except.bind]
  | some digits =>
    obtain ⟨hdigits, rfl⟩ := hfraction
    obtain ⟨d, more, rfl⟩ := List.exists_cons_of_ne_nil hdigits.1
    have htake := takeDigits_digits hdigits.2 hhead
    rw [List.cons_append] at htake
    cases exponentOf with
    | none =>
      obtain rfl := hexponent
      rw [List.nil_append] at htake
      cases rest with
      | nil => simp only [scanNumeralTail, List.cons_append, List.nil_append, htake]
      | cons c rest =>
        obtain ⟨-, -, he, hE⟩ := hrest.head
        simp [scanNumeralTail, htake, he, hE]
    | some exponentOf =>
      obtain ⟨negative, exponentDigits⟩ := exponentOf
      obtain ⟨hexponentDigits, e, sign, he, hsign, rfl⟩ := hexponent
      have hscan := scanExponent_spelled endFault hexponentDigits hsign hrest
      simp only [List.append_assoc, List.cons_append] at htake hscan
      simp [scanNumeralTail, htake, he, hscan, bind, Except.bind]

/-- **A number is scanned to its parts.** -/
theorem Numeral.Spelled.scanNumeral {numeral : Numeral} {text : List Char}
    (h : numeral.Spelled text) {rest : List Char} (hrest : Ended rest) (endFault : Fault) :
    scanNumeral endFault (text ++ rest) = .ok (numeral, rest) := by
  obtain ⟨whole, fractionOf, exponentOf⟩ := numeral
  obtain ⟨⟨hdigits, hzero⟩, fraction, exponent, hfraction, hexponent, rfl⟩ := h
  dsimp only at hdigits hzero hfraction hexponent
  have htail := scanNumeralTail_spelled endFault whole hfraction hexponent hrest
  have hhead := hfraction.head (hexponent.head hrest)
  obtain ⟨d, more, rfl⟩ := List.exists_cons_of_ne_nil hdigits.1
  have hdigit : d.isDigit = true := hdigits.2 d List.mem_cons_self
  have htake := takeDigits_digits hdigits.2 hhead
  simp only [List.append_assoc, List.cons_append] at htake ⊢
  by_cases hd : d = '0'
  · subst hd
    obtain rfl := hzero more rfl
    generalize fraction ++ (exponent ++ rest) = after at htail hhead
    cases after with
    | nil => simpa [Json.scanNumeral] using htail
    | cons e after => simpa [Json.scanNumeral, hhead e rfl] using htail
  · simp only [Json.scanNumeral, hd, hdigit, htake, if_true, if_false]
    exact htail

/-! ### What is scanned as a number is one -/

theorem digits_of_takeDigits {c : Char} {text digits rest : List Char} (hc : c.isDigit = true)
    (h : takeDigits (c :: text) = (digits, rest)) : Digits digits ∧ c :: text = digits ++ rest := by
  have hmem : ∀ d ∈ (takeDigits (c :: text)).1, d.isDigit = true := fun d =>
    isDigit_of_mem_takeDigits
  have happend := takeDigits_append (c :: text)
  rw [h] at hmem happend
  refine ⟨⟨?_, hmem⟩, happend.symm⟩
  rintro rfl
  simp [takeDigits, hc] at h

/-- What is scanned as an exponent is a sign and digits. -/
theorem exists_of_scanExponent {endFault : Fault} {text rest digits : List Char} {negative : Bool}
    (h : scanExponent endFault text = .ok ((negative, digits), rest)) :
    Digits digits ∧ ∃ sign ∈ signsOf negative, text = sign ++ (digits ++ rest) := by
  unfold scanExponent at h
  split at h
  rename_i negative' after hsigned
  obtain ⟨sign, hsign, htext⟩ : ∃ sign ∈ signsOf negative', text = sign ++ after := by
    split at hsigned <;> cases hsigned
    · exact ⟨['+'], by decide, rfl⟩
    · exact ⟨['-'], by decide, rfl⟩
    · exact ⟨[], by decide, rfl⟩
  split at h
  · cases h
  · rename_i c after
    split at h
    · rename_i hc
      split at h
      rename_i digits' rest' htake
      cases h
      obtain ⟨hdigits, happend⟩ := digits_of_takeDigits hc htake
      exact ⟨hdigits, sign, hsign, by rw [htext, happend]⟩
    · cases h

/-- What is scanned after a number's digits is an exponent, or nothing. -/
theorem exists_of_scanExponent? {endFault : Fault} {c : Char} {after rest : List Char}
    {numeral : Numeral} (build : Option (Bool × List Char) → Numeral)
    (h : (if c = 'e' ∨ c = 'E' then do
        let (exponent, rest) ← scanExponent endFault after
        .ok (build (some exponent), rest)
      else .ok (build none, c :: after)) = (.ok (numeral, rest) : Except Fault _)) :
    ∃ exponentOf exponent, numeral = build exponentOf ∧ ExponentSpelled exponentOf exponent ∧
      c :: after = exponent ++ rest := by
  split at h
  · rename_i he
    cases hscan : scanExponent endFault after with
    | error fault =>
      rw [hscan] at h
      cases h
    | ok scanned =>
      obtain ⟨⟨negative, digits⟩, rest'⟩ := scanned
      rw [hscan] at h
      cases h
      obtain ⟨hdigits, sign, hsign, rfl⟩ := exists_of_scanExponent hscan
      exact ⟨_, c :: (sign ++ digits), rfl, ⟨hdigits, c, sign, he, hsign, rfl⟩, by simp⟩
  · cases h
    exact ⟨none, [], rfl, rfl, rfl⟩

/-- What is scanned after the digits before a number's point is a fraction and an
exponent. -/
theorem exists_of_scanNumeralTail {endFault : Fault} {whole text rest : List Char}
    {numeral : Numeral} (h : scanNumeralTail endFault whole text = .ok (numeral, rest)) :
    numeral.whole = whole ∧ ∃ fraction exponent, FractionSpelled numeral.fraction fraction ∧
      ExponentSpelled numeral.exponent exponent ∧ text = fraction ++ (exponent ++ rest) := by
  unfold scanNumeralTail at h
  split at h
  · rename_i after
    split at h
    · cases h
    · cases h
    · rename_i digits afterDigits hnil hcons htake
      have hdigits : Digits digits ∧ after = digits ++ afterDigits := by
        cases after with
        | nil =>
          cases htake
          exact absurd rfl (hnil rfl)
        | cons c after =>
          by_cases hc : c.isDigit = true
          · exact digits_of_takeDigits hc htake
          · rw [takeDigits, if_neg hc] at htake
            cases htake
            exact absurd rfl (hcons c after rfl)
      obtain ⟨hdigits, rfl⟩ := hdigits
      split at h
      · obtain ⟨exponentOf, exponent, rfl, hexponent, htext⟩ :=
          exists_of_scanExponent? (fun e => ⟨whole, some digits, e⟩) h
        exact ⟨rfl, '.' :: digits, exponent, ⟨hdigits, rfl⟩, hexponent, by simp [htext]⟩
      · cases h
        exact ⟨rfl, '.' :: digits, [], ⟨hdigits, rfl⟩, rfl, by simp⟩
  · obtain ⟨exponentOf, exponent, rfl, hexponent, htext⟩ :=
      exists_of_scanExponent? (fun e => ⟨whole, none, e⟩) h
    exact ⟨rfl, [], exponent, rfl, hexponent, htext⟩
  · cases h
    exact ⟨rfl, [], [], rfl, rfl, rfl⟩

/-- **Whatever is scanned as a number is one.** -/
theorem exists_numeral {endFault : Fault} {text rest : List Char} {numeral : Numeral}
    (h : scanNumeral endFault text = .ok (numeral, rest)) :
    ∃ body, text = body ++ rest ∧ numeral.Spelled body := by
  unfold scanNumeral at h
  split at h
  · cases h
  · rename_i c after
    split at h
    · rename_i hzero
      subst hzero
      have htail : scanNumeralTail endFault ['0'] after = .ok (numeral, rest) := by
        split at h
        · split at h
          · cases h
          · exact h
        · exact h
      obtain ⟨hwhole, fraction, exponent, hfraction, hexponent, rfl⟩ :=
        exists_of_scanNumeralTail htail
      refine ⟨'0' :: (fraction ++ exponent), by simp,
        ⟨?_, fraction, exponent, hfraction, hexponent, by simp [hwhole]⟩⟩
      rw [hwhole]
      refine ⟨⟨by simp, ?_⟩, by simp⟩
      intro c hc
      obtain rfl := List.mem_singleton.1 hc
      rfl
    · rename_i hzero
      split at h
      · rename_i hdigit
        split at h
        rename_i digits afterDigits htake
        obtain ⟨hdigits, htext⟩ := digits_of_takeDigits hdigit htake
        obtain ⟨hwhole, fraction, exponent, hfraction, hexponent, rfl⟩ :=
          exists_of_scanNumeralTail h
        refine ⟨digits ++ (fraction ++ exponent), by simp [htext],
          ⟨?_, fraction, exponent, hfraction, hexponent, by simp [hwhole]⟩⟩
        rw [hwhole]
        refine ⟨hdigits, ?_⟩
        rintro more rfl
        exact absurd (List.cons.inj htext).1 hzero
      · cases h

/-! ## Documents -/

/-- The texts that spell a number, with its sign. -/
def NumberSpelled (value : Value) (text : List Char) : Prop :=
  ∃ negative numeral body, Numeral.Spelled numeral body ∧
    text = (if negative then '-' :: body else body) ∧ value = numberValue negative numeral body

/-- What stands before an item or a member: blanks, around a comma when it is not
the first. -/
def Lead (first : Bool) (text : List Char) : Prop :=
  if first then Blank text
  else ∃ before after, Blank before ∧ Blank after ∧ text = before ++ ',' :: after

/-- What stands between a key and its value. -/
def Colon (text : List Char) : Prop :=
  ∃ before after, Blank before ∧ Blank after ∧ text = before ++ ':' :: after

mutual
/-- The texts that spell a document, without blanks before or after it. -/
def Value.Spelled : Value → List Char → Prop
  | .null, text => text = "null".toList
  | .bool true, text => text = "true".toList
  | .bool false, text => text = "false".toList
  | .natural n, text => NumberSpelled (.natural n) text
  | .number spelling, text => NumberSpelled (.number spelling) text
  | .text s, text => ∃ body, Escapes s.toList body ∧ text = '"' :: (body ++ ['"'])
  | .list items, text => ∃ body, ItemsSpelled items true body ∧ text = '[' :: (body ++ [']'])
  | .object members, text =>
    ∃ body, MembersSpelled members true body ∧ text = '\x7b' :: (body ++ ['\x7d'])
termination_by structural value => value

/-- The texts that spell the items of a list, from the opening bracket or an earlier
item up to the closing bracket. -/
def ItemsSpelled : List Value → Bool → List Char → Prop
  | [], _, text => Blank text
  | item :: items, first, text =>
    ∃ lead body more, Lead first lead ∧ item.Spelled body ∧ ItemsSpelled items false more ∧
      text = lead ++ (body ++ more)
termination_by structural items => items

/-- The texts that spell the members of an object, from the opening brace or an
earlier member up to the closing brace. -/
def MembersSpelled : List (String × Value) → Bool → List Char → Prop
  | [], _, text => Blank text
  | (key, value) :: members, first, text =>
    ∃ lead name colon body more, Lead first lead ∧ Escapes key.toList name ∧ Colon colon ∧
      value.Spelled body ∧ MembersSpelled members false more ∧
      text = lead ++ '"' :: (name ++ '"' :: (colon ++ (body ++ more)))
termination_by structural members => members
end

/-- The whole texts that denote a document: it may stand between blanks. -/
def Denotes (text : List Char) (value : Value) : Prop :=
  ∃ lead body trail, Blank lead ∧ value.Spelled body ∧ Blank trail ∧ text = lead ++ (body ++ trail)

/-- The characters with which the texts of a document begin. -/
def Value.beginsWith : Value → Char → Bool
  | .null, c => c = 'n'
  | .bool true, c => c = 't'
  | .bool false, c => c = 'f'
  | .natural _, c => c.isDigit
  | .number _, c => c = '-' || c.isDigit
  | .text _, c => c = '"'
  | .list _, c => c = '['
  | .object _, c => c = '\x7b'

theorem Numeral.Spelled.eq_cons {numeral : Numeral} {text : List Char} (h : numeral.Spelled text) :
    ∃ c tail, text = c :: tail ∧ c.isDigit = true := by
  obtain ⟨⟨⟨hne, hdigits⟩, -⟩, fraction, exponent, -, -, rfl⟩ := h
  obtain ⟨c, more, hc⟩ := List.exists_cons_of_ne_nil hne
  exact ⟨c, more ++ (fraction ++ exponent), by rw [hc, List.cons_append],
    hdigits c (by simp [hc])⟩

/-- **The first character tells what kind of document follows.** -/
theorem Value.Spelled.eq_cons {value : Value} {text : List Char} (h : value.Spelled text) :
    ∃ c tail, text = c :: tail ∧ value.beginsWith c = true := by
  cases value with
  | null => exact ⟨'n', "ull".toList, h, rfl⟩
  | bool b =>
    cases b with
    | true => exact ⟨'t', "rue".toList, h, rfl⟩
    | false => exact ⟨'f', "alse".toList, h, rfl⟩
  | natural n =>
    obtain ⟨negative, numeral, body, hbody, rfl, hvalue⟩ := h
    obtain ⟨c, tail, rfl, hc⟩ := hbody.eq_cons
    cases negative with
    | true => simp [numberValue] at hvalue
    | false => exact ⟨c, tail, rfl, hc⟩
  | number spelling =>
    obtain ⟨negative, numeral, body, hbody, rfl, -⟩ := h
    obtain ⟨c, tail, rfl, hc⟩ := hbody.eq_cons
    cases negative with
    | true => exact ⟨'-', c :: tail, rfl, rfl⟩
    | false => exact ⟨c, tail, rfl, by simp [Value.beginsWith, hc]⟩
  | text s =>
    obtain ⟨body, -, rfl⟩ := h
    exact ⟨'"', _, rfl, rfl⟩
  | list items =>
    obtain ⟨body, -, rfl⟩ := h
    exact ⟨'[', _, rfl, rfl⟩
  | object members =>
    obtain ⟨body, -, rfl⟩ := h
    exact ⟨'\x7b', _, rfl, rfl⟩

/-- A document begins with a character that is not passed over and closes no list. -/
theorem Value.isOpening_of_beginsWith {value : Value} {c : Char}
    (h : value.beginsWith c = true) : isOpening c = true := by
  cases value with
  | bool b =>
    cases b <;>
    · obtain rfl := of_decide_eq_true h
      decide
  | natural n => exact isOpening_of_isDigit h
  | number spelling =>
    rcases Bool.or_eq_true_iff.1 h with h | h
    · obtain rfl := of_decide_eq_true h
      decide
    · exact isOpening_of_isDigit h
  | _ =>
    obtain rfl := of_decide_eq_true h
    decide

/-- What stands in a list or an object after a document ends it. -/
theorem Lead.ended {lead : List Char} (h : Lead false lead) (rest : List Char) :
    Ended (lead ++ rest) := by
  obtain ⟨before, after, hbefore, -, rfl⟩ := h
  rw [List.append_assoc, List.cons_append]
  exact Ended.blank_append hbefore (ended_cons (.inr (.inl rfl)) _)

theorem ItemsSpelled.ended {items : List Value} {more : List Char}
    (h : ItemsSpelled items false more) (rest : List Char) : Ended (more ++ ']' :: rest) := by
  cases items with
  | nil => exact Ended.blank_append h (ended_cons (.inr (.inr (.inl rfl))) rest)
  | cons item items =>
    obtain ⟨lead, body, tail, hlead, -, -, rfl⟩ := h
    rw [List.append_assoc]
    exact hlead.ended _

theorem MembersSpelled.ended {members : List (String × Value)} {more : List Char}
    (h : MembersSpelled members false more) (rest : List Char) :
    Ended (more ++ '\x7d' :: rest) := by
  cases members with
  | nil => exact Ended.blank_append h (ended_cons (.inr (.inr (.inr rfl))) rest)
  | cons member members =>
    obtain ⟨lead, name, colon, body, tail, hlead, -, -, -, -, rfl⟩ := h
    rw [List.append_assoc]
    exact hlead.ended _

/-- No text of a document is empty. -/
theorem Value.Spelled.length_pos {value : Value} {text : List Char} (h : value.Spelled text) :
    0 < text.length := by
  obtain ⟨c, tail, rfl, -⟩ := h.eq_cons
  exact Nat.succ_pos _

theorem Lead.length_pos {lead : List Char} (h : Lead false lead) : 0 < lead.length := by
  obtain ⟨before, after, -, -, rfl⟩ := h
  simp only [List.length_append, List.length_cons]
  omega

/-! ### Separators -/

/-- The closing bracket of a list is found behind blanks. -/
theorem nextElement_close_blank (first : Bool) {trail : List Char} (h : Blank trail)
    (rest : List Char) : nextElement first (trail ++ ']' :: rest) = .ok (.close rest) := by
  have hskip : skipBlanks (trail ++ ']' :: rest) = ']' :: rest := skipBlanks_blank h _
  simp [nextElement, hskip]

/-- The next item of a list is found behind what stands before it. -/
theorem nextElement_lead {first : Bool} {lead : List Char} (h : Lead first lead) {c : Char}
    (hc : isOpening c = true) (rest : List Char) :
    nextElement first (lead ++ c :: rest) = .ok (.item (c :: rest)) := by
  have hopen := skipBlanks_of_isOpening hc rest
  have hclose : c ≠ ']' := by
    rintro rfl
    exact absurd hc (by decide)
  cases first with
  | true =>
    have hskip : skipBlanks (lead ++ c :: rest) = c :: rest := (skipBlanks_blank h _).trans hopen
    simp [nextElement, hskip, hclose]
  | false =>
    obtain ⟨before, after, hbefore, hafter, rfl⟩ := h
    have hcomma : skipBlanks (before ++ (',' :: (after ++ c :: rest))) =
        ',' :: (after ++ c :: rest) := skipBlanks_blank hbefore _
    have hskip := (skipBlanks_blank hafter (c :: rest)).trans hopen
    simp [nextElement, hcomma, hskip, hclose]

/-- The closing brace of an object is found behind blanks. -/
theorem nextMember_close_blank (first : Bool) {trail : List Char} (h : Blank trail)
    (rest : List Char) : nextMember first (trail ++ '\x7d' :: rest) = .ok (.close rest) := by
  have hskip : skipBlanks (trail ++ '\x7d' :: rest) = '\x7d' :: rest := skipBlanks_blank h _
  simp [nextMember, hskip]

/-- The next key of an object is found behind what stands before it. -/
theorem nextMember_lead {first : Bool} {lead : List Char} (h : Lead first lead)
    (rest : List Char) : nextMember first (lead ++ '"' :: rest) = .ok (.item rest) := by
  cases first with
  | true =>
    have hskip : skipBlanks (lead ++ '"' :: rest) = '"' :: rest := skipBlanks_blank h _
    simp [nextMember, hskip]
  | false =>
    obtain ⟨before, after, hbefore, hafter, rfl⟩ := h
    have hcomma : skipBlanks (before ++ (',' :: (after ++ '"' :: rest))) =
        ',' :: (after ++ '"' :: rest) := skipBlanks_blank hbefore _
    have hskip : skipBlanks (after ++ '"' :: rest) = '"' :: rest := skipBlanks_blank hafter _
    simp [nextMember, hcomma, hskip]

/-- The value of a member stands behind its colon, after blanks. -/
theorem Colon.expectColon {colon : List Char} (h : Colon colon) :
    ∃ after, Blank after ∧ ∀ rest, expectColon (colon ++ rest) = .ok (after ++ rest) := by
  obtain ⟨before, after, hbefore, hafter, rfl⟩ := h
  refine ⟨after, hafter, fun rest => ?_⟩
  have hskip : skipBlanks (before ++ (':' :: (after ++ rest))) = ':' :: (after ++ rest) :=
    skipBlanks_blank hbefore _
  simp [Json.expectColon, hskip]

end Json
end Reconciliation
