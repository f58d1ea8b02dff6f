/-
# Printed tokens read back

The scanners of `Reconciliation.Json.Scan` against the spelling of
`Reconciliation.Json.Value`: the content of a quoted string is scanned to the
string itself, and a number that is written in decimal is scanned to that number,
whatever text follows that does not go on with the number.
-/

import Reconciliation.Json.Shape

namespace Reconciliation
namespace Json

/-! ## Strings -/

/-- A short escape stands for the character it was written for. -/
theorem shortEscaped?_of_shortEscape? {c e : Char} (h : shortEscape? c = some e) :
    shortEscaped? e = some c := by
  unfold shortEscape? at h
  repeat' split at h
  all_goals first
    | (subst_vars; cases h; decide)
    | cases h

/-- The digits of a number below sixteen are read back. -/
theorem hexDigit?_digitChar : ∀ n < 16, hexDigit? (Nat.digitChar n) = some n := by decide

/-- The four digits in which a control character is spelled. -/
theorem hexQuad?_control {n : Nat} (h : n < 0x20) :
    hexQuad? '0' '0' (Nat.digitChar (n / 16)) (Nat.digitChar (n % 16)) = some n := by
  have hzero : hexDigit? '0' = some 0 := by decide
  simp only [hexQuad?, hzero, hexDigit?_digitChar (n / 16) (by omega),
    hexDigit?_digitChar (n % 16) (by omega)]
  exact congrArg some (by omega)

/-- One spelled character is scanned to itself. -/
theorem scanText_escapeChar (c : Char) (rest : List Char) :
    scanText (escapeChar c ++ rest) = consChar c (scanText rest) := by
  unfold escapeChar
  split
  · rename_i e he
    have hplain := shortEscaped?_of_shortEscape? he
    rw [List.cons_append, List.cons_append, List.nil_append, scanText.eq_def]
    simp [hplain]
  · rename_i hnone
    have hquote : c ≠ '"' := by
      rintro rfl
      exact absurd hnone (by decide)
    have hbackslash : c ≠ '\\' := by
      rintro rfl
      exact absurd hnone (by decide)
    split
    · rename_i hcontrol
      have hlow : isLowSurrogate c.toNat = false := by
        simp only [isLowSurrogate, Bool.and_eq_false_iff, decide_eq_false_iff_not]
        omega
      have hhigh : isHighSurrogate c.toNat = false := by
        simp only [isHighSurrogate, Bool.and_eq_false_iff, decide_eq_false_iff_not]
        omega
      have hu : shortEscaped? 'u' = none := by decide
      simp only [List.cons_append, List.nil_append]
      rw [scanText.eq_def]
      simp [hu, hexQuad?_control hcontrol, hlow, hhigh]
    · rename_i hcontrol
      simp only [List.cons_append, List.nil_append]
      rw [scanText.eq_def]
      simp [hquote, hbackslash, hcontrol]

/-- **The content of a quoted string is scanned to the string.** -/
theorem scanText_flatMap (content rest : List Char) :
    scanText (content.flatMap escapeChar ++ '"' :: rest) = .ok (content, rest) := by
  induction content with
  | nil => rw [List.flatMap_nil, List.nil_append, scanText.eq_def]; rfl
  | cons c content ih =>
    rw [List.flatMap_cons, List.append_assoc, scanText_escapeChar, ih]
    rfl

/-- A quoted string is read to itself. -/
theorem readString_quote (s : String) (rest : List Char) :
    readString (quote s ++ rest) = .ok (s, rest) := by
  have hscan := scanText_flatMap s.toList rest
  simp only [quote, List.cons_append, List.append_assoc, List.nil_append, readString, skipBlanks]
  rw [if_neg (by decide)]
  simp [hscan, bind, Except.bind]

/-! ## Numbers -/

/-- What follows a document inside another one, or nothing. -/
def Delimited (rest : List Char) : Prop := ∀ c ∈ rest.head?, c = ',' ∨ c = ']' ∨ c = '}'

theorem delimited_nil : Delimited [] := by
  intro c hc
  cases hc

theorem delimited_cons {c : Char} (h : c = ',' ∨ c = ']' ∨ c = '}') (rest : List Char) :
    Delimited (c :: rest) := by
  intro d hd
  obtain rfl := Option.some.inj hd
  exact h

/-- Digits are split off what does not begin with one. -/
theorem takeDigits_digits {digits rest : List Char} (hdigits : ∀ c ∈ digits, c.isDigit = true)
    (hrest : ∀ c ∈ rest.head?, c.isDigit = false) :
    takeDigits (digits ++ rest) = (digits, rest) := by
  induction digits with
  | nil =>
    cases rest with
    | nil => rfl
    | cons c rest => simp [takeDigits, hrest c rfl]
  | cons c digits ih =>
    have hc := hdigits c List.mem_cons_self
    have htail := ih fun d hd => hdigits d (List.mem_cons_of_mem c hd)
    simp [takeDigits, hc, htail]

/-- Digits in front of something else are split off. -/
theorem takeDigits_append_of_delimited {digits rest : List Char}
    (hdigits : ∀ c ∈ digits, c.isDigit = true) (hrest : Delimited rest) :
    takeDigits (digits ++ rest) = (digits, rest) := by
  refine takeDigits_digits hdigits fun c hc => ?_
  rcases hrest c hc with rfl | rfl | rfl <;> decide

/-- The decimal spelling of a number is made of digits. -/
theorem isDigit_of_mem_decimal {n : Nat} {c : Char} (h : c ∈ decimal n) : c.isDigit = true :=
  Nat.isDigit_of_mem_toDigits (by decide) (by decide) h

/-- The decimal spelling of a number spells it. -/
@[simp] theorem digitsValue_decimal (n : Nat) : digitsValue (decimal n) = n := by
  have h := Nat.ofDigitChars_ten_toDigits (n := n)
  rw [Nat.ofDigitChars_eq_foldl] at h
  exact h

/-- Only zero is spelled with a zero in front. -/
theorem decimal_eq_zero_cons {n : Nat} {rest : List Char} (h : decimal n = '0' :: rest) :
    rest = [] := by
  induction n using Nat.strongRecOn generalizing rest with
  | ind n ih =>
    rcases Nat.lt_or_ge n 10 with hn | hn
    · rw [decimal, Nat.toDigits_of_lt_base hn] at h
      exact (List.cons.inj h).2.symm
    · have hsplit := Nat.toDigits_of_base_le (by decide : 1 < 10) hn
      rw [decimal, hsplit] at h
      have hne : decimal (n / 10) ≠ [] := Nat.toDigits_ne_nil
      obtain ⟨d, digits, hd⟩ := List.exists_cons_of_ne_nil hne
      rw [← decimal, hd, List.cons_append] at h
      obtain ⟨rfl, -⟩ := List.cons.inj h
      have hnil := ih (n / 10) (by omega) hd
      have hvalue := digitsValue_decimal (n / 10)
      rw [hd, hnil] at hvalue
      have hzero : digitsValue ['0'] = 0 := by decide
      omega

/-- What follows a number does not go on with it. -/
theorem scanNumeralTail_of_delimited (endFault : Fault) (whole : List Char) {rest : List Char}
    (h : Delimited rest) :
    scanNumeralTail endFault whole rest = .ok (⟨whole, none, none⟩, rest) := by
  cases rest with
  | nil => rfl
  | cons c rest =>
    rcases h c rfl with rfl | rfl | rfl <;> rfl

/-- A number in decimal is scanned to its digits. -/
theorem scanNumeral_decimal {endFault : Fault} (n : Nat) {rest : List Char} (h : Delimited rest) :
    scanNumeral endFault (decimal n ++ rest) = .ok (⟨decimal n, none, none⟩, rest) := by
  obtain ⟨d, digits, hd⟩ := List.exists_cons_of_ne_nil (Nat.toDigits_ne_nil (n := n) (b := 10))
  have hdigit : d.isDigit = true := isDigit_of_mem_decimal (n := n) (by simp [decimal, hd])
  have htake := takeDigits_append_of_delimited (fun c => isDigit_of_mem_decimal (n := n)) h
  have htail := scanNumeralTail_of_delimited endFault (decimal n) h
  rw [← decimal] at hd
  rw [hd, List.cons_append] at htake ⊢
  by_cases hzero : d = '0'
  · subst hzero
    obtain rfl := decimal_eq_zero_cons hd
    rw [hd] at htail
    cases rest with
    | nil => exact htail
    | cons c rest =>
      have hc : c.isDigit = false := by
        rcases h c rfl with rfl | rfl | rfl <;> decide
      simpa [scanNumeral, hc] using htail
  · rw [scanNumeral.eq_def]
    simp only [hzero, hdigit, htake, if_true, if_false, ← hd]
    exact htail

/-- **A number in decimal is read to itself.** -/
theorem readNatural_decimal {bound n : Nat} {rest : List Char} (hbound : n < bound)
    (hsize : n < significandBound) (h : Delimited rest) :
    readNatural bound (decimal n ++ rest) = .ok (n, rest) := by
  obtain ⟨d, digits, hd⟩ := List.exists_cons_of_ne_nil (Nat.toDigits_ne_nil (n := n) (b := 10))
  have hdigit : d.isDigit = true := isDigit_of_mem_decimal (n := n) (by simp [decimal, hd])
  have hblank : isBlank d = false := by
    cases hb : isBlank d with
    | false => rfl
    | true =>
      simp only [isBlank, Bool.or_eq_true, decide_eq_true_eq] at hb
      rcases hb with ((rfl | rfl) | rfl) | rfl <;> exact absurd hdigit (by decide)
  have hscan : scanNumber (decimal n ++ rest) = .ok (some n, rest) := by
    simp [scanNumber, scanNumeral_decimal n h, bind, Except.bind, Numeral.isWhole, hsize]
  rw [← decimal] at hd
  rw [hd, List.cons_append] at hscan ⊢
  simp [readNatural, skipBlanks, hblank, hdigit, hscan, bind, Except.bind, hbound]

end Json
end Reconciliation
