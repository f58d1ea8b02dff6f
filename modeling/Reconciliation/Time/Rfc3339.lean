/-
# Reading RFC 3339 timestamps

The reader is lenient where writers differ: a number may have fewer digits than
the form prescribes, blanks may stand before every number, around the hyphens and
colons and at both ends, the date and the time may be parted by `T`, `t` or a
blank, further digits after the ninth of a fraction are dropped, and the offset
may be `Z`, `UTC` or signed hours and minutes with any number of colons and
blanks between them.
-/

import Reconciliation.Time.Timestamp

namespace Reconciliation
namespace Timestamp

/-- The characters that count as blanks: those with the Unicode property
`White_Space`. -/
def isSpace (c : Char) : Bool :=
  let n := c.toNat
  (0x09 ≤ n && n ≤ 0x0D) || n = 0x20 || n = 0x85 || n = 0xA0 || n = 0x1680 ||
    (0x2000 ≤ n && n ≤ 0x200A) || n = 0x2028 || n = 0x2029 || n = 0x202F || n = 0x205F ||
    n = 0x3000

/-- The text after its leading blanks. -/
def trimStart (text : List Char) : List Char := text.dropWhile isSpace

/-- Reads a number of one to `width` digits. -/
def takeNumber (width : Nat) (text : List Char) : Option (Nat × List Char) :=
  let digits := (takeDigits text).1.take width
  if digits.isEmpty then none else some (digitsValue digits, text.drop digits.length)

/-- Reads a number of one to `width` digits after blanks. -/
def takeField (width : Nat) (text : List Char) : Option (Nat × List Char) :=
  takeNumber width (trimStart text)

/-- Reads a year: after a sign any number of digits, without a sign at most four. -/
def takeYear (text : List Char) : Option (Int × List Char) :=
  match trimStart text with
  | '-' :: rest => (takeNumber rest.length rest).map fun (n, rest) => (-(n : Int), rest)
  | '+' :: rest => (takeNumber rest.length rest).map fun (n, rest) => ((n : Int), rest)
  | text => (takeNumber 4 text).map fun (n, rest) => ((n : Int), rest)

/-- Passes over `mark`, with blanks before it. -/
def expectMark (mark : Char) (text : List Char) : Option (List Char) :=
  match trimStart text with
  | [] => none
  | c :: rest => if c = mark then some rest else none

/-- Reads the fraction of a second, if there is one, as nanoseconds. -/
def takeFraction : List Char → Option (Nat × List Char)
  | '.' :: rest =>
    let (digits, after) := takeDigits rest
    if digits.isEmpty then none
    else
      let kept := digits.take 9
      some (digitsValue kept * Nat.pow 10 (9 - kept.length), after)
  | text => some (0, text)

/-- Passes over colons and blanks. -/
def skipColons (text : List Char) : List Char :=
  text.dropWhile fun c => c = ':' || isSpace c

/-- Reads the hours and minutes of an offset as minutes. -/
def takeOffsetMinutes : List Char → Option (Nat × List Char)
  | h₁ :: h₂ :: rest =>
    if h₁.isDigit && h₂.isDigit then
      match skipColons rest with
      | m₁ :: m₂ :: rest =>
        if m₁.isDigit && digitValue m₁ < 6 && m₂.isDigit then
          some (digitsValue [h₁, h₂] * 60 + digitsValue [m₁, m₂], rest)
        else none
      | _ => none
    else none
  | _ => none

/-- Reads the offset from UTC, in minutes. -/
def takeOffset (text : List Char) : Option (Int × List Char) :=
  match text with
  | 'Z' :: rest => some (0, rest)
  | 'z' :: rest => some (0, rest)
  | c :: rest =>
    if c = '+' then (takeOffsetMinutes rest).map fun (n, rest) => ((n : Int), rest)
    else if c = '-' ∨ c = '\u2212' then
      (takeOffsetMinutes rest).map fun (n, rest) => (-(n : Int), rest)
    else match rest with
    | d :: e :: rest =>
      if c.toUpper = 'U' ∧ d.toUpper = 'T' ∧ e.toUpper = 'C' then some (0, rest) else none
    | _ => none
  | [] => none

/-- Whether a letter stands between the date and the time. -/
def isDateEnd (c : Char) : Bool := c = 'T' || c = 't' || c = ' '

/-- The instant whose local date and time at `offset` minutes from UTC are given.
An offset is less than a day, so the date moves by at most one. -/
def ofLocal? (date : Date) (hour minute second nanosecond : Nat) (offset : Int) :
    Option Timestamp :=
  if ¬ date.isValid ∨ offset ≤ -1440 ∨ 1440 ≤ offset then none
  else
    let minutes : Int := (hour * 60 + minute : Int) - offset
    let (date, minutes) :=
      if minutes < 0 then (date.previous, minutes + 1440)
      else if 1440 ≤ minutes then (date.next, minutes - 1440)
      else (date, minutes)
    let hour := minutes.toNat / 60
    let minute := minutes.toNat % 60
    if h : date.isValid = true ∧ hour < 24 ∧ minute < 60 ∧ second ≤ 60 ∧
        nanosecond < 1000000000 then
      some ⟨date, hour, minute, second, nanosecond, h.1, h.2.1, h.2.2.1, h.2.2.2.1, h.2.2.2.2⟩
    else none

/-- Reads a timestamp. -/
def ofChars? (text : List Char) : Option Timestamp := do
  let (year, text) ← takeYear text
  let text ← expectMark '-' text
  let (month, text) ← takeField 2 text
  let text ← expectMark '-' text
  let (day, text) ← takeField 2 text
  match text with
  | [] => none
  | c :: text => do
    guard (isDateEnd c)
    let (hour, text) ← takeField 2 text
    let text ← expectMark ':' text
    let (minute, text) ← takeField 2 text
    let text ← expectMark ':' text
    let (second, text) ← takeField 2 text
    let (nanosecond, text) ← takeFraction text
    let (offset, text) ← takeOffset (trimStart text)
    guard ((trimStart text).isEmpty)
    guard (hour < 24 ∧ minute < 60)
    ofLocal? ⟨year, month, day⟩ hour minute second nanosecond offset

/-- Reads a timestamp from a string. -/
def ofText? (text : String) : Option Timestamp := ofChars? text.toList

end Timestamp
end Reconciliation
