/-
# Decimal digits

Reading and writing natural numbers in decimal, one character at a time.  The
readers of JSON, of timestamps and of settings files share these.
-/

namespace Reconciliation

/-- The value of an ASCII decimal digit. -/
def digitValue (c : Char) : Nat := c.toNat - '0'.toNat

/-- The number that a run of ASCII digits spells; the empty run spells zero. -/
def digitsValue (digits : List Char) : Nat :=
  digits.foldl (fun n c => 10 * n + digitValue c) 0

/-- Splits a text after its leading run of ASCII digits. -/
def takeDigits : List Char → List Char × List Char
  | [] => ([], [])
  | c :: rest =>
    if c.isDigit then
      let (digits, after) := takeDigits rest
      (c :: digits, after)
    else ([], c :: rest)

/-- Nothing is lost between the digits and the rest. -/
theorem takeDigits_append (text : List Char) :
    (takeDigits text).1 ++ (takeDigits text).2 = text := by
  induction text with
  | nil => rfl
  | cons c rest ih =>
    unfold takeDigits
    split
    · simpa using ih
    · rfl

/-- The first part holds digits only. -/
theorem isDigit_of_mem_takeDigits {text : List Char} {c : Char}
    (h : c ∈ (takeDigits text).1) : c.isDigit = true := by
  induction text with
  | nil => simp [takeDigits] at h
  | cons d rest ih =>
    unfold takeDigits at h
    split at h
    · rename_i hd
      rcases List.mem_cons.1 h with rfl | h
      · exact hd
      · exact ih h
    · simp at h

/-- The rest does not begin with a digit. -/
theorem not_isDigit_of_takeDigits {text after : List Char} {c : Char}
    (h : (takeDigits text).2 = c :: after) : c.isDigit = false := by
  induction text with
  | nil => simp [takeDigits] at h
  | cons d rest ih =>
    unfold takeDigits at h
    split at h
    · exact ih h
    · rename_i hd
      obtain ⟨rfl, -⟩ := List.cons.inj h
      simpa using hd

/-- The decimal spelling of `n`. -/
def decimal (n : Nat) : List Char := Nat.toDigits 10 n

/-- The decimal spelling of `n`, filled up with leading zeros to `width`
characters; a longer spelling is kept whole. -/
def paddedDecimal (width n : Nat) : List Char :=
  List.replicate (width - (decimal n).length) '0' ++ decimal n

/-- The value of an ASCII hexadecimal digit of either case. -/
def hexDigit? (c : Char) : Option Nat :=
  if '0' ≤ c ∧ c ≤ '9' then some (c.toNat - '0'.toNat)
  else if 'a' ≤ c ∧ c ≤ 'f' then some (c.toNat - 'a'.toNat + 10)
  else if 'A' ≤ c ∧ c ≤ 'F' then some (c.toNat - 'A'.toNat + 10)
  else none

/-- The lower-case hexadecimal spelling of `n`. -/
def hexadecimal (n : Nat) : List Char := Nat.toDigits 16 n

end Reconciliation
