/-
# Numbers in a TOML document

Underscores may part the digits of a number, one at a time.  An integer has no
needless zero in front and must fit into 64 bits with its sign; without a sign it
may also be given in base 16, 8 or 2.  A number with a point or an exponent is a
binary64 value; one that is too great is refused.
-/

import Reconciliation.Settings.Toml.Instant

namespace Reconciliation
namespace Toml

/-! ## Digits -/

/-- The digits that a text begins with and the text after them.  An underscore may
stand between two digits. -/
def takeRun (isDigit : Char → Bool) : List Char → List Char × List Char
  | [] => ([], [])
  | c :: rest =>
    if isDigit c then
      let (digits, after) := takeRun isDigit rest
      (c :: digits, after)
    else if c = '_' ∧ rest.head?.any isDigit then takeRun isDigit rest
    else ([], c :: rest)

/-- Reads at least one digit. -/
def readRun (isDigit : Char → Bool) : Reader (List Char) := fun text =>
  if text.head?.any isDigit then some (takeRun isDigit text) else none

/-- Reads the digits before a point: a zero, or digits that do not begin with
one. -/
def readWhole : Reader (List Char)
  | '0' :: rest => some (['0'], rest)
  | text => readRun Char.isDigit text

/-- Reads an optional sign; whether it is a minus. -/
def readSign : List Char → Bool × List Char
  | '-' :: rest => (true, rest)
  | '+' :: rest => (false, rest)
  | text => (false, text)

/-! ## Integers -/

/-- The bound of the integers without their sign. -/
def integerBound : Nat := Nat.pow 2 63

/-- The number that digits spell in a base. -/
def valueIn (base : Nat) (digits : List Char) : Nat :=
  digits.foldl (fun n c => base * n + (hexDigit? c).getD 0) 0

/-- Reads the digits of an integer in a base. -/
def readIn (base : Nat) : Reader Setting := fun text => do
  let (digits, rest) ← readRun (fun c => (hexDigit? c).any (· < base)) text
  if valueIn base digits < integerBound then some (.integer (valueIn base digits), rest)
  else none

/-- An integer with its sign, if it is in range. -/
def signedInteger? (negative : Bool) (n : Nat) : Option Int :=
  if negative then (if n ≤ integerBound then some (-(n : Int)) else none)
  else if n < integerBound then some n else none

/-- Reads an integer. -/
def readInteger : Reader Setting
  | '0' :: 'x' :: rest => readIn 16 rest
  | '0' :: 'o' :: rest => readIn 8 rest
  | '0' :: 'b' :: rest => readIn 2 rest
  | text => do
    let (negative, rest) := readSign text
    let (digits, rest) ← readWhole rest
    let n ← signedInteger? negative (digitsValue digits)
    some (.integer n, rest)

/-! ## Numbers with a point or an exponent -/

/-- Reads an exponent, if there is one. -/
def readExponent : List Char → Option (Option Int × List Char)
  | c :: rest =>
    if c = 'e' ∨ c = 'E' then do
      let (negative, rest) := readSign rest
      let (digits, rest) ← readRun Char.isDigit rest
      let n := digitsValue digits
      some (some (if negative then -(n : Int) else n), rest)
    else some (none, c :: rest)
  | [] => some (none, [])

/-- Reads the digits after a point, if there is one. -/
def readFraction : List Char → Option (Option (List Char) × List Char)
  | '.' :: rest => do
    let (digits, rest) ← readRun Char.isDigit rest
    some (some digits, rest)
  | text => some (none, text)

/-- Reads the name of an infinity or of what is undefined. -/
def readSpecial (negative : Bool) (text : List Char) : Option (Binary64 × List Char) :=
  match expectWord "inf".toList text, expectWord "nan".toList text with
  | some rest, _ => some (.infinite negative, rest)
  | _, some rest => some (.undefined, rest)
  | none, none => none

/-- The value of a number given by its digits. -/
def decimalValue (negative : Bool) (whole fraction : List Char) (exponent : Int) : Binary64 :=
  let digits := whole ++ fraction
  .ofDecimal negative (digitsValue digits) digits.length (exponent - fraction.length)

/-- Reads a number with a point, an exponent or both. -/
def readReal : Reader Setting := fun text =>
  let (negative, unsigned) := readSign text
  match readSpecial negative unsigned with
  | some (x, rest) => some (.real x, rest)
  | none => do
    let (whole, rest) ← readWhole unsigned
    let (fraction, rest) ← readFraction rest
    let (exponent, rest) ← readExponent rest
    if fraction.isNone ∧ exponent.isNone then none
    else
      let x := decimalValue negative whole (fraction.getD []) (exponent.getD 0)
      if x = .infinite false then none else some (.real x, rest)

/-! ## Single values -/

/-- Reads a number, a date or a time. -/
def readNumber : Reader Setting := fun text =>
  ((readInstant text).or (readReal text)).or (readInteger text)

/-- Reads a value that holds no others. -/
def readScalar : Reader Setting
  | [] => none
  | c :: rest =>
    if c = '"' ∨ c = '\'' then
      (readText (c :: rest)).map fun (content, rest) => (.text content, rest)
    else if c = 't' then (expectWord "rue".toList rest).map (.flag true, ·)
    else if c = 'f' then (expectWord "alse".toList rest).map (.flag false, ·)
    else readNumber (c :: rest)

end Toml
end Reconciliation
