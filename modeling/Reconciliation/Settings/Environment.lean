/-
# Settings in the environment

A variable `RECONCILER__SECTION__KEY`, in letters of either case, sets a key of a
section.  Its value is taken as a flag, an integer or a number if it reads as one,
and otherwise as a text.
-/

import Reconciliation.Settings.Coercion

namespace Reconciliation

/-- How the names of variables with settings begin. -/
def variablePrefix : List Char := "reconciler__".toList

/-- The text with double underscores written as dots. -/
def underscoresToDots : List Char → List Char
  | '_' :: '_' :: rest => '.' :: underscoresToDots rest
  | c :: rest => c :: underscoresToDots rest
  | [] => []

/-- The key that a variable sets, if it sets one. -/
def variableKey? (name : String) : Option String :=
  let name := (lowerKey name).toList
  if variablePrefix.isPrefixOf name then
    some (String.ofList (underscoresToDots (name.drop variablePrefix.length)))
  else none

/-- A sign and the text after it. -/
def splitSign : List Char → Bool × List Char
  | '-' :: rest => (true, rest)
  | '+' :: rest => (false, rest)
  | text => (false, text)

/-- The integer that a text spells, if it fits into 64 bits with its sign. -/
def integerOfChars? (text : List Char) : Option Int :=
  let (negative, digits) := splitSign text
  if digits.isEmpty ∨ ¬ digits.all Char.isDigit then none
  else
    let n := digitsValue digits
    if negative then (if n ≤ Nat.pow 2 63 then some (-(n : Int)) else none)
    else if n < Nat.pow 2 63 then some n else none

/-- The exponent at the end of a number; nothing else may stand there. -/
def exponentOfChars? : List Char → Option Int
  | [] => some 0
  | c :: rest =>
    if c = 'e' ∨ c = 'E' then
      let (negative, digits) := splitSign rest
      if digits.isEmpty ∨ ¬ digits.all Char.isDigit then none
      else some (if negative then -(digitsValue digits : Int) else digitsValue digits)
    else none

/-- The value of digits, perhaps with a point and an exponent.  Digits may be
missing on one side of the point. -/
def unsignedReal? (negative : Bool) (text : List Char) : Option Binary64 := do
  let (whole, rest) := takeDigits text
  let (fraction, rest) := match rest with
    | '.' :: after => takeDigits after
    | rest => ([], rest)
  if whole.isEmpty ∧ fraction.isEmpty then none
  else do
    let exponent ← exponentOfChars? rest
    let digits := whole ++ fraction
    some (.ofDecimal negative (digitsValue digits) digits.length (exponent - fraction.length))

/-- The binary64 value that a text spells. -/
def realOfChars? (text : List Char) : Option Binary64 :=
  let (negative, rest) := splitSign text
  let word := String.ofList (rest.map Char.toLower)
  if word = "inf" ∨ word = "infinity" then some (.infinite negative)
  else if word = "nan" then some .undefined
  else unsignedReal? negative rest

/-- The setting that the value of a variable stands for. -/
def variableSetting (value : String) : Setting :=
  if value.toLower = "true" then .flag true
  else if value.toLower = "false" then .flag false
  else match integerOfChars? value.toList with
    | some n => .integer n
    | none =>
      match realOfChars? value.toList with
      | some x => .real x
      | none => .text value

end Reconciliation
