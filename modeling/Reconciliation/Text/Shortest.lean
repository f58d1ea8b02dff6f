/-
# The shortest decimal of a binary64 value

A binary64 value is written with the fewest significant digits that still read
back as that value, and of those with the decimal nearest to it; of two that are
equally near the greater one is taken.  The point is always written in its place,
never moved by an exponent.

The decimals with `k` significant digits form a grid.  If some point of a grid
reads back as the value, one of the two grid points around the value does, so only
these are tried, for 1, 2, … 17 digits.  Seventeen digits always suffice.
-/

import Reconciliation.Text.Binary64
import Reconciliation.Text.Decimal

namespace Reconciliation
namespace Binary64

/-- A positive decimal: `digits × 10 ^ exponent`. -/
structure Scientific where
  digits : Nat
  exponent : Int
deriving DecidableEq, Repr

/-- The exact value of a binary fraction and the ends of the interval of numbers
that round to it, all times `4 / 2 ^ exponent`.  At the least significand of an
exponent the values below lie twice as close. -/
structure Neighbourhood where
  low : Nat
  value : Nat
  high : Nat
  /-- Whether the ends round to the value as well. -/
  closed : Bool

/-- The neighbourhood of a positive value. -/
def neighbourhood (significand : Nat) (exponent : Int) : Neighbourhood where
  low :=
    if significand = Nat.pow 2 52 ∧ exponent > leastExponent then 4 * significand - 1
    else 4 * significand - 2
  value := 4 * significand
  high := 4 * significand + 2
  closed := significand % 2 = 0

/-- `n × 2 ^ e / 10 ^ s` as numerator and denominator. -/
def onGrid (n : Nat) (e s : Int) : Nat × Nat :=
  let (num, den) := if 0 ≤ e then (n * Nat.pow 2 e.toNat, 1) else (n, Nat.pow 2 (-e).toNat)
  if 0 ≤ s then (num, den * Nat.pow 10 s.toNat) else (num * Nat.pow 10 (-s).toNat, den)

/-- Whether the grid point `point × 10 ^ s` lies in a neighbourhood whose numbers
are to be multiplied by `2 ^ e`. -/
def Neighbourhood.contains (hood : Neighbourhood) (e s : Int) (point : Nat) : Bool :=
  let (low, d) := onGrid hood.low e s
  let (high, _) := onGrid hood.high e s
  if hood.closed then low ≤ point * d && point * d ≤ high
  else low < point * d && point * d < high

/-- The number of decimal digits before the point of `n × 2 ^ e`; below one, minus
the number of zeros after the point.  No positive value is below `10 ^ -400`. -/
def magnitude (n : Nat) (e : Int) : Int :=
  let (num, den) := onGrid n e (-400)
  (decimal (num / den)).length - 400

/-- The decimal with `count` digits that reads back and is nearest. -/
def withDigits? (hood : Neighbourhood) (e : Int) (count : Nat) : Option Scientific :=
  let s := magnitude hood.value e - count
  let (num, den) := onGrid hood.value e s
  let below := num / den
  match hood.contains e s below, hood.contains e s (below + 1) with
  | true, true =>
    if 2 * (num % den) < den then some ⟨below, s⟩ else some ⟨below + 1, s⟩
  | true, false => some ⟨below, s⟩
  | false, true => some ⟨below + 1, s⟩
  | false, false => none

/-- The shortest decimal of a positive value. -/
def shortest (significand : Nat) (exponent : Int) : Scientific :=
  let hood := neighbourhood significand exponent
  ((List.range 17).findSome? fun count => withDigits? hood (exponent - 2) (count + 1)).getD ⟨0, 0⟩

/-- The same decimal without zeros at the end of its digits. -/
def Scientific.trim (d : Scientific) : Scientific :=
  let zeros := ((decimal d.digits).reverse.takeWhile (· = '0')).length
  ⟨d.digits / Nat.pow 10 zeros, d.exponent + zeros⟩

/-- A decimal with its point in place. -/
def Scientific.toChars (d : Scientific) : List Char :=
  let digits := decimal d.digits
  if 0 ≤ d.exponent then digits ++ List.replicate d.exponent.toNat '0'
  else
    let places := (-d.exponent).toNat
    if places < digits.length then
      digits.take (digits.length - places) ++ '.' :: digits.drop (digits.length - places)
    else '0' :: '.' :: (List.replicate (places - digits.length) '0' ++ digits)

/-- The sign of a negative value. -/
def signChars (negative : Bool) : List Char := if negative then ['-'] else []

/-- The text of a value. -/
def toChars : Binary64 → List Char
  | finite negative 0 _ => signChars negative ++ ['0']
  | finite negative significand exponent =>
    signChars negative ++ (shortest significand exponent).trim.toChars
  | infinite negative => signChars negative ++ "inf".toList
  | undefined => "NaN".toList

end Binary64
end Reconciliation
