/-
# Binary64: 64-bit binary floating point

A `Binary64` is a 64-bit binary floating-point number: a sign and a significand of
at most 53 binary digits times a power of two, an infinity, or not a number.
Everything here is integer arithmetic on exact values.

A number that is read from text is rounded to the nearest value, ties to the even
significand.
-/

namespace Reconciliation

/-- A 64-bit binary floating-point number.  A finite one stands for
`significand * 2 ^ exponent`, with its sign. -/
inductive Binary64 where
  | finite (negative : Bool) (significand : Nat) (exponent : Int)
  | infinite (negative : Bool)
  | undefined
deriving DecidableEq, Repr

namespace Binary64

/-- The number of binary digits of `n`. -/
def bitLength (n : Nat) : Nat := if n = 0 then 0 else n.log2 + 1

/-- `n / d` rounded to the nearest integer, ties to even. -/
def roundQuotient (n d : Nat) : Nat :=
  let quotient := n / d
  let remainder := n % d
  if 2 * remainder > d ∨ (2 * remainder = d ∧ quotient % 2 = 1) then quotient + 1
  else quotient

/-! ## Integers -/

/-- The binary64 value nearest to the integer `n`, the exponent range aside. -/
def roundNat (n : Nat) : Nat :=
  let excess := bitLength n - 53
  roundQuotient n (Nat.pow 2 excess) * Nat.pow 2 excess

/-- The least integer that rounds to infinity: half a unit in the last place
above the greatest finite value. -/
def overflowBound : Nat := Nat.pow 2 1024 - Nat.pow 2 970

/-- Whether `significand × 10 ^ exponent` leaves the range of binary64 when both
factors are rounded first and then multiplied. -/
def overflows (significand : Nat) (exponent : Int) : Bool :=
  significand ≠ 0 && exponent > 0 &&
    (exponent > 308 || roundNat significand * roundNat (Nat.pow 10 exponent.toNat) ≥ overflowBound)

/-! ## Fractions -/

/-- The exponent of the least positive value, which is also the spacing of the
values around zero. -/
def leastExponent : Int := -1074

/-- The exponent of the greatest finite values. -/
def greatestExponent : Int := 971

/-- The fraction `(n / d) / 2 ^ e` as numerator and denominator. -/
def shifted (n d : Nat) (e : Int) : Nat × Nat :=
  if 0 ≤ e then (n, d * Nat.pow 2 e.toNat) else (n * Nat.pow 2 (-e).toNat, d)

/-- The exponent under which a positive fraction is rounded: the one that leaves
53 binary digits before the point, or the least one. -/
def exponentOf (n d : Nat) : Int :=
  let guess := max leastExponent ((bitLength n : Int) - bitLength d - 53)
  let (n, d) := shifted n d guess
  if n < Nat.pow 2 53 * d then guess else guess + 1

/-- The value nearest to `n / d`. -/
def ofFraction (negative : Bool) (n d : Nat) : Binary64 :=
  if n = 0 then .finite negative 0 leastExponent
  else
    let exponent := exponentOf n d
    let (n, d) := shifted n d exponent
    let significand := roundQuotient n d
    let (significand, exponent) :=
      if significand = Nat.pow 2 53 then (Nat.pow 2 52, exponent + 1) else (significand, exponent)
    if exponent > greatestExponent then .infinite negative
    else .finite negative significand exponent

/-- The value nearest to `digits × 10 ^ exponent`, where `digits` has `count`
decimal digits.  Far outside of the range the power of ten is not formed. -/
def ofDecimal (negative : Bool) (digits count : Nat) (exponent : Int) : Binary64 :=
  if digits = 0 ∨ count + exponent < -400 then .finite negative 0 leastExponent
  else if exponent > 400 then .infinite negative
  else if 0 ≤ exponent then ofFraction negative (digits * Nat.pow 10 exponent.toNat) 1
  else ofFraction negative digits (Nat.pow 10 (-exponent).toNat)

/-! ## What becomes of a value -/

/-- Whether the value differs from zero; what is undefined does. -/
def isNonzero : Binary64 → Bool
  | finite _ significand _ => significand ≠ 0
  | infinite _ => true
  | undefined => true

/-- The nearest natural number below `bound`, a half being rounded up; what is
negative or undefined becomes zero. -/
def toNatBelow (bound : Nat) : Binary64 → Nat
  | finite true _ _ => 0
  | finite false significand exponent =>
    let n := if 0 ≤ exponent then significand * Nat.pow 2 exponent.toNat
      else (2 * significand + Nat.pow 2 (-exponent).toNat) / Nat.pow 2 ((-exponent).toNat + 1)
    min n (bound - 1)
  | infinite false => bound - 1
  | infinite true => 0
  | undefined => 0

end Binary64
end Reconciliation
