/-
# An instant is read back from its text

The reader of timestamps is lenient, but what the writer writes it takes piece by piece as
it was written: every number is padded to its width and is followed by a mark that is no
digit, so there is one way to read it.  At offset zero the date and the time of day stay
as they are.
-/

import Mathlib.Data.Option.Basic
import Reconciliation.Proofs.Json.Tokens
import Reconciliation.Time.Rfc3339

namespace Reconciliation

open Json (takeDigits_digits isDigit_of_mem_decimal digitsValue_decimal)

/-! ## Padded numbers -/

section Padded

variable {width n : Nat}

/-- A padded number is written in digits. -/
theorem isDigit_of_mem_paddedDecimal {c : Char} (h : c ∈ paddedDecimal width n) :
    c.isDigit = true := by
  rcases List.mem_append.1 h with hzero | hdigit
  · rw [List.eq_of_mem_replicate hzero]
    decide
  · exact isDigit_of_mem_decimal hdigit

/-- Leading zeros do not count. -/
@[simp] theorem digitsValue_paddedDecimal (width n : Nat) :
    digitsValue (paddedDecimal width n) = n := by
  have hzeros : ∀ k, (List.replicate k '0').foldl (fun n c => 10 * n + digitValue c) 0 = 0 := by
    intro k
    induction k with
    | zero => rfl
    | succ k ih => exact ih
  rw [digitsValue, paddedDecimal, List.foldl_append, hzeros]
  exact digitsValue_decimal n

/-- It has as many of them as its field is wide. -/
theorem length_paddedDecimal (h : (decimal n).length ≤ width) :
    (paddedDecimal width n).length = width := by
  rw [paddedDecimal, List.length_append, List.length_replicate]
  omega

/-- It has at least one digit, also in a field without width. -/
theorem exists_paddedDecimal_eq_cons (width n : Nat) :
    ∃ c rest, paddedDecimal width n = c :: rest ∧ c.isDigit = true := by
  have hpos : 0 < (paddedDecimal width n).length := by
    have hdecimal : 0 < (decimal n).length := Nat.length_toDigits_pos
    rw [paddedDecimal, List.length_append]
    omega
  obtain ⟨c, rest, hc⟩ := List.exists_cons_of_length_pos hpos
  exact ⟨c, rest, hc, isDigit_of_mem_paddedDecimal (hc ▸ List.mem_cons_self)⟩

end Padded

/-- The month and the day of a date have at most two digits. -/
theorem Date.lt_of_isValid {date : Date} (h : date.isValid = true) :
    date.month < 100 ∧ date.day < 100 := by
  have hdays : daysInMonth date.year date.month ≤ 31 := by
    unfold daysInMonth
    repeat' split
    all_goals decide
  simp only [Date.isValid, Bool.and_eq_true, decide_eq_true_eq] at h
  omega

namespace Timestamp

/-! ## Numbers and marks -/

/-- A text in front of which a number ends. -/
def EndsNumber (rest : List Char) : Prop := ∀ c ∈ rest.head?, c.isDigit = false

/-- A number ends before anything but a digit. -/
theorem endsNumber_cons {c : Char} (h : c.isDigit = false) (rest : List Char) :
    EndsNumber (c :: rest) := by
  rintro d hd
  rwa [← Option.some.inj hd]

/-- No digit is a space. -/
theorem isSpace_of_isDigit {c : Char} (h : c.isDigit = true) : isSpace c = false := by
  obtain ⟨hlow, hhigh⟩ := Char.isDigit_iff_toNat.1 h
  have hzero : '0'.toNat = 48 := rfl
  have hnine : '9'.toNat = 57 := rfl
  simp only [isSpace, Bool.or_eq_false_iff, Bool.and_eq_false_iff, decide_eq_false_iff_not]
  omega

/-- Nothing is passed over before what is no blank. -/
theorem trimStart_cons {c : Char} (h : isSpace c = false) (rest : List Char) :
    trimStart (c :: rest) = c :: rest :=
  List.dropWhile_cons_of_neg (by simp [h])

/-- A mark is passed over where it stands. -/
theorem expectMark_cons {mark : Char} (h : isSpace mark = false) (rest : List Char) :
    expectMark mark (mark :: rest) = some rest := by
  simp [expectMark, trimStart_cons h]

section Numbers

variable {width n : Nat} {rest : List Char}

/-- A number is taken whole if it has no more digits than are taken, and no digit follows. -/
theorem takeNumber_paddedDecimal {most : Nat} (hmost : (paddedDecimal width n).length ≤ most)
    (hrest : EndsNumber rest) :
    takeNumber most (paddedDecimal width n ++ rest) = some (n, rest) := by
  have htake : takeDigits (paddedDecimal width n ++ rest) = (paddedDecimal width n, rest) :=
    takeDigits_digits (fun _ => isDigit_of_mem_paddedDecimal) hrest
  obtain ⟨c, digits, hc, -⟩ := exists_paddedDecimal_eq_cons width n
  have hfull : (paddedDecimal width n).take most = paddedDecimal width n :=
    List.take_of_length_le hmost
  have hsome : (paddedDecimal width n).isEmpty = false := by rw [hc]; rfl
  simp [takeNumber, htake, hfull, hsome]

/-- There are no spaces before a padded number. -/
theorem trimStart_paddedDecimal : trimStart (paddedDecimal width n ++ rest) =
    paddedDecimal width n ++ rest := by
  obtain ⟨c, digits, hc, hdigit⟩ := exists_paddedDecimal_eq_cons width n
  rw [hc, List.cons_append]
  exact trimStart_cons (isSpace_of_isDigit hdigit) _

/-- A field is read back as the number that was written. -/
theorem takeField_paddedDecimal (hn : (decimal n).length ≤ width) (hrest : EndsNumber rest) :
    takeField width (paddedDecimal width n ++ rest) = some (n, rest) := by
  rw [takeField, trimStart_paddedDecimal]
  exact takeNumber_paddedDecimal (Nat.le_of_eq (length_paddedDecimal hn)) hrest

end Numbers

/-! ## Years and fractions -/

/-- A year is signed exactly when it needs to be. -/
theorem takeYear_yearText (year : Int) {rest : List Char}
    (hrest : EndsNumber rest) :
    takeYear (yearText year ++ rest) = some (year, rest) := by
  have hsigned : ∀ n, takeNumber (paddedDecimal 4 n ++ rest).length (paddedDecimal 4 n ++ rest) =
      some (n, rest) := fun n =>
    takeNumber_paddedDecimal (by rw [List.length_append]; omega) hrest
  unfold yearText
  split
  · rename_i hyear
    have hlength : (paddedDecimal 4 year.toNat).length = 4 :=
      length_paddedDecimal ((Nat.length_toDigits_le_iff (by decide) (by decide)).2 (by omega))
    have hnumber : takeNumber 4 (paddedDecimal 4 year.toNat ++ rest) = some (year.toNat, rest) :=
      takeNumber_paddedDecimal (Nat.le_of_eq hlength) hrest
    obtain ⟨c, digits, hc, hdigit⟩ := exists_paddedDecimal_eq_cons 4 year.toNat
    rw [hc, List.cons_append] at hnumber ⊢
    have hspace := trimStart_cons (isSpace_of_isDigit hdigit) (digits ++ rest)
    have hminus : c ≠ '-' := by
      rintro rfl
      exact absurd hdigit (by decide)
    have hplus : c ≠ '+' := by
      rintro rfl
      exact absurd hdigit (by decide)
    have hvalue : (year.toNat : Int) = year := Int.toNat_of_nonneg hyear.1
    simp [takeYear, hspace, hminus, hplus, hnumber, hvalue]
  · have hspace : ∀ c, c = '+' ∨ c = '-' → ∀ text, trimStart (c :: text) = c :: text := by
      rintro c (rfl | rfl) text <;> exact trimStart_cons (by decide) text
    split
    · rename_i hyear
      have hvalue : (year.toNat : Int) = year := Int.toNat_of_nonneg hyear
      simp only [takeYear, List.cons_append, hspace '+' (.inl rfl), hsigned, Option.map_some,
        hvalue]
    · have hvalue : -((-year).toNat : Int) = year := by omega
      simp only [takeYear, List.cons_append, hspace '-' (.inr rfl), hsigned, Option.map_some,
        hvalue]

/-- A fraction is read in nanoseconds, however many digits it was written with. -/
theorem takeFraction_fractionText {nanosecond : Nat} (h : nanosecond < 1000000000)
    {rest : List Char} (hrest : EndsNumber rest)
    (hpoint : ∀ c ∈ rest.head?, c ≠ '.') :
    takeFraction (fractionText nanosecond ++ rest) = some (nanosecond, rest) := by
  have hdigits : ∀ width n, 0 < width → width ≤ 9 → n < 10 ^ width →
      takeFraction ('.' :: (paddedDecimal width n ++ rest)) =
        some (n * Nat.pow 10 (9 - width), rest) := by
    intro width n hwidth hmost hn
    have htake : takeDigits (paddedDecimal width n ++ rest) = (paddedDecimal width n, rest) :=
      takeDigits_digits (fun _ => isDigit_of_mem_paddedDecimal) hrest
    have hlength : (paddedDecimal width n).length = width :=
      length_paddedDecimal ((Nat.length_toDigits_le_iff (by decide) hwidth).2 hn)
    have hfull : (paddedDecimal width n).take 9 = paddedDecimal width n :=
      List.take_of_length_le (by omega)
    have hsome : (paddedDecimal width n).isEmpty = false := by
      rw [List.isEmpty_eq_false_iff, ← List.length_pos_iff]
      omega
    simp [takeFraction, htake, hsome, hfull, hlength]
  unfold fractionText
  split
  · rename_i hzero
    subst hzero
    cases rest with
    | nil => rfl
    | cons c rest =>
      rw [List.nil_append, takeFraction.eq_2 _ fun after heq =>
        hpoint c rfl (List.cons.inj heq).1]
  · split
    · rename_i hmillis
      rw [List.cons_append, hdigits 3 _ (by decide) (by decide) (by omega)]
      exact congrArg (fun n => some (n, rest)) (Nat.div_mul_cancel (Nat.dvd_of_mod_eq_zero hmillis))
    · split
      · rename_i hmicros
        rw [List.cons_append, hdigits 6 _ (by decide) (by decide) (by omega)]
        exact congrArg (fun n => some (n, rest))
          (Nat.div_mul_cancel (Nat.dvd_of_mod_eq_zero hmicros))
      · rw [List.cons_append, hdigits 9 _ (by decide) (by decide) (by omega)]
        exact congrArg (fun n => some (n, rest)) (Nat.mul_one _)

/-! ## Whole timestamps -/

/-- At offset zero nothing moves. -/
theorem ofLocal?_zero (t : Timestamp) :
    ofLocal? t.date t.hour t.minute t.second t.nanosecond 0 = some t := by
  obtain ⟨date, hour, minute, second, nanosecond, hdate, hhour, hminute, hsecond, hnano⟩ := t
  have hlow : ¬ ((hour * 60 + minute : Int) - 0 < 0) := by omega
  have hhigh : ¬ (1440 ≤ (hour * 60 + minute : Int) - 0) := by omega
  have hhours : ((hour * 60 + minute : Int) - 0).toNat / 60 = hour := by omega
  have hminutes : ((hour * 60 + minute : Int) - 0).toNat % 60 = minute := by omega
  simp only [ofLocal?, hdate, hlow, hhigh, if_false, hhours, hminutes, hhour, hminute, hsecond,
    hnano]
  simp

/-- **What is written of an instant is read as the instant.** -/
theorem ofChars?_toChars (t : Timestamp) : ofChars? t.toChars = some t := by
  obtain ⟨hmonth, hday⟩ := Date.lt_of_isValid t.dateValid
  have hfield : ∀ {n : Nat} {rest : List Char}, n < 100 → EndsNumber rest →
      takeField 2 (paddedDecimal 2 n ++ rest) = some (n, rest) :=
    fun hn => takeField_paddedDecimal
      ((Nat.length_toDigits_le_iff (by decide) (by decide)).2 hn)
  have hfraction : EndsNumber (fractionText t.nanosecond ++ ['Z']) := by
    unfold fractionText
    repeat' split
    all_goals exact endsNumber_cons (by decide) _
  have hyear := fun rest => takeYear_yearText t.date.year (endsNumber_cons (c := '-') rfl rest)
  have hmonth := fun rest => hfield hmonth (endsNumber_cons (c := '-') rfl rest)
  have hday := fun rest => hfield hday (endsNumber_cons (c := 'T') rfl rest)
  have hhour := fun rest => hfield (Nat.lt_trans t.hourValid (by decide))
    (endsNumber_cons (c := ':') rfl rest)
  have hminute := fun rest => hfield (Nat.lt_trans t.minuteValid (by decide))
    (endsNumber_cons (c := ':') rfl rest)
  have hsecond := hfield (Nat.lt_of_le_of_lt t.secondValid (by decide)) hfraction
  have hnano : takeFraction (fractionText t.nanosecond ++ ['Z']) = some (t.nanosecond, ['Z']) := by
    refine takeFraction_fractionText t.nanosecondValid (endsNumber_cons rfl []) ?_
    rintro _ ⟨⟩
    decide
  have hoffset : takeOffset (trimStart ['Z']) = some (0, []) := by decide
  have hend : (trimStart []).isEmpty = true := rfl
  have hdateEnd : isDateEnd 'T' = true := by decide
  have hhyphen : ∀ rest, expectMark '-' ('-' :: rest) = some rest := expectMark_cons (by decide)
  have hcolon : ∀ rest, expectMark ':' (':' :: rest) = some rest := expectMark_cons (by decide)
  have htime : t.hour < 24 ∧ t.minute < 60 := ⟨t.hourValid, t.minuteValid⟩
  simp only [toChars, List.append_assoc, List.cons_append, ofChars?, hyear, hhyphen, hmonth, hday,
    hdateEnd, hhour, hcolon, hminute, hsecond, hnano, hoffset, hend, htime, guard,
    Option.bind_eq_bind, Option.bind_some, if_true, Option.pure_def, and_self]
  exact ofLocal?_zero t

@[simp] theorem ofText?_toText (t : Timestamp) : ofText? t.toText = some t := by
  rw [ofText?, toText, String.toList_ofList, ofChars?_toChars]

end Timestamp
end Reconciliation
