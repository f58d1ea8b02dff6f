/-
# What a setting may stand for

The environment knows only text, and a file may be written carelessly, so a
setting is accepted in more forms than its own: numbers may be given as text, a
flag as a number or a word, a text as a number.
-/

import Reconciliation.Settings.Tree
import Reconciliation.Text.Shortest

namespace Reconciliation

/-- The words for yes. -/
def isYes (word : String) : Bool := word = "true" || word = "on" || word = "yes"

/-- The words for no. -/
def isNo (word : String) : Bool := word = "false" || word = "off" || word = "no"

/-- The number that a text of decimal digits spells; a plus may stand before it. -/
def naturalOfChars? (text : List Char) : Option Nat :=
  let digits := match text with
    | '+' :: rest => rest
    | text => text
  if digits.isEmpty ∨ ¬ digits.all Char.isDigit then none else some (digitsValue digits)

/-- The bound of the numbers that a setting can hold. -/
def naturalBound : Nat := UInt64.size

namespace Setting

/-- The setting as a natural number.  A fraction is rounded, and what is beyond the
bound after rounding is cut off there. -/
def natural? : Setting → Option Nat
  | flag b => some (if b then 1 else 0)
  | integer n => if 0 ≤ n ∧ n.toNat < naturalBound then some n.toNat else none
  | real x => some (x.toNatBelow naturalBound)
  | text s =>
    if isYes s.toLower then some 1
    else if isNo s.toLower then some 0
    else (naturalOfChars? s.toList).filter (· < naturalBound)
  | _ => none

/-- The setting as a natural number below a smaller bound. -/
def naturalBelow? (bound : Nat) (setting : Setting) : Option Nat :=
  setting.natural?.filter (· < bound)

/-- The setting as a flag. -/
def flag? : Setting → Option Bool
  | flag b => some b
  | integer n => some (n ≠ 0)
  | real x => some x.isNonzero
  | text s =>
    if isYes s.toLower ∨ s = "1" then some true
    else if isNo s.toLower ∨ s = "0" then some false
    else none
  | _ => none

/-- The decimal spelling of an integer. -/
def integerChars (n : Int) : List Char :=
  if n < 0 then '-' :: decimal (-n).toNat else decimal n.toNat

/-- The setting as a text. -/
def text? : Setting → Option String
  | flag b => some (if b then "true" else "false")
  | integer n => some (String.ofList (integerChars n))
  | real x => some (String.ofList x.toChars)
  | text s => some s
  | instant spelling => some spelling
  | _ => none

end Setting
end Reconciliation
