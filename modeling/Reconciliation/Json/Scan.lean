/-
# Scanning the tokens of JSON text

A text is read from left to right, and the first problem met decides the fault,
so each scanner says exactly what it looks at and in which order.

Two scanners exist for strings.  `scanText` reads a string whose content
matters: an escaped surrogate must be followed by its partner.  `skipText` passes
over a string nobody asked for and only wants its escapes to be well formed.  The
same holds for numbers: `scanNumber` refuses a number beyond the range of
binary64, `skipNumber` does not look.
-/

import Reconciliation.Json.Value
import Reconciliation.Text.Binary64

namespace Reconciliation
namespace Json

/-- A reader takes a text and gives what it read with the text that is left. -/
abbrev Reader (α : Type) := List Char → Except Fault (α × List Char)

/-- The four blanks of JSON. -/
def isBlank (c : Char) : Bool := c = ' ' || c = '\n' || c = '\t' || c = '\r'

/-- The text from its first non-blank character on. -/
def skipBlanks : List Char → List Char
  | [] => []
  | c :: rest => if isBlank c then skipBlanks rest else c :: rest

/-- Passes over exactly the characters of `word`. -/
def expectWord : List Char → List Char → Except Fault (List Char)
  | [], text => .ok text
  | _ :: _, [] => .error .cutShort
  | w :: word, c :: rest => if c = w then expectWord word rest else .error .malformed

/-! ## Strings -/

/-- The character that a short escape stands for. -/
def shortEscaped? (c : Char) : Option Char :=
  if c = '"' then some '"'
  else if c = '\\' then some '\\'
  else if c = '/' then some '/'
  else if c = 'b' then some '\x08'
  else if c = 'f' then some '\x0c'
  else if c = 'n' then some '\n'
  else if c = 'r' then some '\r'
  else if c = 't' then some '\t'
  else none

/-- The number that four hexadecimal digits spell. -/
def hexQuad? (a b c d : Char) : Option Nat :=
  match hexDigit? a, hexDigit? b, hexDigit? c, hexDigit? d with
  | some a, some b, some c, some d => some (((a * 16 + b) * 16 + c) * 16 + d)
  | _, _, _, _ => none

/-- The fault of a text that does not begin with four hexadecimal digits: four
bytes are taken before they are looked at, so only a text of fewer than four
bytes is cut short. -/
def quadFault (text : List Char) : Fault :=
  if ((text.take 4).map Char.utf8Size).foldl (· + ·) 0 < 4 then .cutShort else .malformed

/-- The first halves of surrogate pairs. -/
def isHighSurrogate (n : Nat) : Bool := 0xD800 ≤ n && n ≤ 0xDBFF

/-- The second halves of surrogate pairs. -/
def isLowSurrogate (n : Nat) : Bool := 0xDC00 ≤ n && n ≤ 0xDFFF

/-- The code point of a surrogate pair. -/
def pairedCodePoint (high low : Nat) : Nat :=
  (high - 0xD800) * 0x400 + (low - 0xDC00) + 0x10000

/-- Puts a character before what was read. -/
def consChar (c : Char) : Except Fault (List Char × List Char) →
    Except Fault (List Char × List Char)
  | .ok (content, rest) => .ok (c :: content, rest)
  | .error fault => .error fault

/-- Reads the content of a string, the opening quote being already taken. -/
def scanText : Reader (List Char)
  | [] => .error .cutShort
  | c :: rest =>
    if c = '"' then .ok ([], rest)
    else if c = '\\' then
      match rest with
      | [] => .error .cutShort
      | e :: rest =>
        match shortEscaped? e with
        | some plain => consChar plain (scanText rest)
        | none =>
          if e ≠ 'u' then .error .malformed
          else match rest with
          | h₁ :: h₂ :: h₃ :: h₄ :: rest =>
            match hexQuad? h₁ h₂ h₃ h₄ with
            | none => .error (quadFault (h₁ :: h₂ :: h₃ :: h₄ :: rest))
            | some high =>
              if isLowSurrogate high then .error .malformed
              else if isHighSurrogate high then
                match rest with
                | [] => .error .cutShort
                | backslash :: rest =>
                  if backslash ≠ '\\' then .error .malformed
                  else match rest with
                  | [] => .error .cutShort
                  | u :: rest =>
                    if u ≠ 'u' then .error .malformed
                    else match rest with
                    | l₁ :: l₂ :: l₃ :: l₄ :: rest =>
                      match hexQuad? l₁ l₂ l₃ l₄ with
                      | none => .error (quadFault (l₁ :: l₂ :: l₃ :: l₄ :: rest))
                      | some low =>
                        if isLowSurrogate low then
                          consChar (Char.ofNat (pairedCodePoint high low)) (scanText rest)
                        else .error .malformed
                    | short => .error (quadFault short)
              else consChar (Char.ofNat high) (scanText rest)
          | short => .error (quadFault short)
    else if c.toNat < 0x20 then .error .malformed
    else consChar c (scanText rest)

/-- Passes over the content of a string, the opening quote being already taken. -/
def skipText : List Char → Except Fault (List Char)
  | [] => .error .cutShort
  | c :: rest =>
    if c = '"' then .ok rest
    else if c = '\\' then
      match rest with
      | [] => .error .cutShort
      | e :: rest =>
        if (shortEscaped? e).isSome then skipText rest
        else if e ≠ 'u' then .error .malformed
        else match rest with
        | h₁ :: h₂ :: h₃ :: h₄ :: rest =>
          if (hexQuad? h₁ h₂ h₃ h₄).isSome then skipText rest
          else .error (quadFault (h₁ :: h₂ :: h₃ :: h₄ :: rest))
        | short => .error (quadFault short)
    else if c.toNat < 0x20 then .error .malformed
    else skipText rest

/-! ## Numbers -/

/-- The spelling of a number without its sign: the digits before the point, the
digits after it, and the exponent. -/
structure Numeral where
  whole : List Char
  fraction : Option (List Char)
  exponent : Option (Bool × List Char)
deriving DecidableEq

/-- Whether the number is a plain run of digits. -/
def Numeral.isWhole (n : Numeral) : Bool := n.fraction.isNone && n.exponent.isNone

/-- Reads the exponent after its `e`; `endFault` is the fault of a text that ends
before the first digit. -/
def scanExponent (endFault : Fault) (text : List Char) :
    Except Fault ((Bool × List Char) × List Char) :=
  let (negative, text) := match text with
    | '+' :: rest => (false, rest)
    | '-' :: rest => (true, rest)
    | text => (false, text)
  match text with
  | [] => .error endFault
  | c :: _ =>
    if c.isDigit then
      let (digits, rest) := takeDigits text
      .ok ((negative, digits), rest)
    else .error .malformed

/-- Reads what follows the digits before the point. -/
def scanNumeralTail (endFault : Fault) (whole text : List Char) :
    Except Fault (Numeral × List Char) :=
  match text with
  | '.' :: rest =>
    match takeDigits rest with
    | ([], []) => .error endFault
    | ([], _ :: _) => .error .malformed
    | (fraction, rest) =>
      match rest with
      | c :: after =>
        if c = 'e' ∨ c = 'E' then do
          let (exponent, rest) ← scanExponent endFault after
          .ok (⟨whole, some fraction, some exponent⟩, rest)
        else .ok (⟨whole, some fraction, none⟩, rest)
      | [] => .ok (⟨whole, some fraction, none⟩, [])
  | c :: after =>
    if c = 'e' ∨ c = 'E' then do
      let (exponent, rest) ← scanExponent endFault after
      .ok (⟨whole, none, some exponent⟩, rest)
    else .ok (⟨whole, none, none⟩, text)
  | [] => .ok (⟨whole, none, none⟩, [])

/-- Reads the spelling of a number after its sign.  No other digit may follow a
leading zero. -/
def scanNumeral (endFault : Fault) (text : List Char) : Except Fault (Numeral × List Char) :=
  match text with
  | [] => .error endFault
  | c :: rest =>
    if c = '0' then
      match rest with
      | d :: _ => if d.isDigit then .error .malformed else scanNumeralTail endFault ['0'] rest
      | [] => scanNumeralTail endFault ['0'] []
    else if c.isDigit then
      let (whole, rest) := takeDigits text
      scanNumeralTail endFault whole rest
    else .error .malformed

/-- The greatest significand that is kept exactly. -/
def significandBound : Nat := Nat.pow 2 64

/-- Digits taken into a significand as long as it stays below the bound; the rest
are only counted. -/
def takeSignificand : Nat → List Char → Nat × Nat
  | significand, [] => (significand, 0)
  | significand, c :: rest =>
    if significand * 10 + digitValue c < significandBound then
      takeSignificand (significand * 10 + digitValue c) rest
    else (significand, rest.length + 1)

/-- The significand and decimal exponent that stand for a numeral when its range
is judged. -/
def Numeral.approximation (n : Numeral) : Nat × Int :=
  let (whole, dropped) := takeSignificand 0 n.whole
  let fraction := n.fraction.getD []
  let (significand, ignored) := takeSignificand whole fraction
  let exponent : Int := match n.exponent with
    | none => 0
    | some (false, digits) => digitsValue digits
    | some (true, digits) => -(digitsValue digits : Int)
  (significand, (dropped : Int) - ((fraction.length : Int) - ignored) + exponent)

/-- Reads a number after its sign.  A plain run of digits below 2⁶⁴ is given as
that number, any other number as `none`; a number beyond the range of binary64 is
malformed. -/
def scanNumber : Reader (Option Nat) := fun text => do
  let (numeral, rest) ← scanNumeral .cutShort text
  if numeral.isWhole ∧ digitsValue numeral.whole < significandBound then
    .ok (some (digitsValue numeral.whole), rest)
  else
    let (significand, exponent) := numeral.approximation
    if Binary64.overflows significand exponent then .error .malformed
    else .ok (none, rest)

/-- Passes over a number after its sign.  A text that ends inside the number is
malformed here, not cut short. -/
def skipNumber (text : List Char) : Except Fault (List Char) := do
  let (_, rest) ← scanNumeral .malformed text
  .ok rest

/-! ## Separators -/

/-- What comes next inside a list or an object: its closing bracket, or another
item. -/
inductive Next where
  | close (rest : List Char)
  | item (rest : List Char)

/-- Looks for the next key of an object; the text of an item begins after the
key's opening quote. -/
def nextMember (first : Bool) (text : List Char) : Except Fault Next :=
  match skipBlanks text with
  | [] => .error .cutShort
  | c :: rest =>
    if c = '}' then .ok (.close rest)
    else if first then
      if c = '"' then .ok (.item rest) else .error .malformed
    else if c = ',' then
      match skipBlanks rest with
      | [] => .error .cutShort
      | c :: rest => if c = '"' then .ok (.item rest) else .error .malformed
    else .error .malformed

/-- Looks for the next item of a list. -/
def nextElement (first : Bool) (text : List Char) : Except Fault Next :=
  match skipBlanks text with
  | [] => .error .cutShort
  | c :: rest =>
    if c = ']' then .ok (.close rest)
    else if first then .ok (.item (c :: rest))
    else if c = ',' then
      match skipBlanks rest with
      | [] => .error .cutShort
      | c :: rest => if c = ']' then .error .malformed else .ok (.item (c :: rest))
    else .error .malformed

/-- Passes over the colon between a key and its value. -/
def expectColon (text : List Char) : Except Fault (List Char) :=
  match skipBlanks text with
  | [] => .error .cutShort
  | c :: rest => if c = ':' then .ok rest else .error .malformed

/-! ## Values nobody asked for -/

/-- An opening bracket that is still to be closed. -/
inductive Bracket where
  | square
  | curly
deriving DecidableEq

/-- Passes over a key and its colon. -/
def skipKey (text : List Char) : Except Fault (List Char) :=
  match skipBlanks text with
  | [] => .error .cutShort
  | c :: rest => if c = '"' then do expectColon (← skipText rest) else .error .malformed

mutual
/-- Passes over one value standing inside the open brackets `outer`, and over
what closes them.  Brackets are kept in a list, so nesting has no limit. -/
def skipNested : Nat → List Bracket → List Char → Except Fault (List Char)
  | 0, _, _ => .error .cutShort
  | fuel + 1, outer, text =>
    match skipBlanks text with
    | [] => .error .cutShort
    | c :: rest =>
      if c = 'n' then do skipAfter fuel outer (← expectWord "ull".toList rest)
      else if c = 't' then do skipAfter fuel outer (← expectWord "rue".toList rest)
      else if c = 'f' then do skipAfter fuel outer (← expectWord "alse".toList rest)
      else if c = '-' then do skipAfter fuel outer (← skipNumber rest)
      else if c.isDigit then do skipAfter fuel outer (← skipNumber (c :: rest))
      else if c = '"' then do skipAfter fuel outer (← skipText rest)
      else if c = '[' then
        match skipBlanks rest with
        | [] => .error .cutShort
        | d :: after =>
          if d = ']' then skipAfter fuel outer after
          else skipNested fuel (.square :: outer) (d :: after)
      else if c = '{' then
        match skipBlanks rest with
        | [] => .error .cutShort
        | d :: after =>
          if d = '}' then skipAfter fuel outer after
          else do skipNested fuel (.curly :: outer) (← skipKey (d :: after))
      else .error .malformed
termination_by structural fuel => fuel

/-- Goes on after a value standing inside the open brackets. -/
def skipAfter : Nat → List Bracket → List Char → Except Fault (List Char)
  | 0, _, _ => .error .cutShort
  | _ + 1, [], text => .ok text
  | fuel + 1, bracket :: outer, text =>
    match skipBlanks text with
    | [] => .error .cutShort
    | c :: rest =>
      match bracket with
      | .square =>
        if c = ',' then skipNested fuel (.square :: outer) rest
        else if c = ']' then skipAfter fuel outer rest
        else .error .malformed
      | .curly =>
        if c = ',' then do skipNested fuel (.curly :: outer) (← skipKey rest)
        else if c = '}' then skipAfter fuel outer rest
        else .error .malformed
termination_by structural fuel => fuel
end

/-- Passes over one value.  Every step takes at least one character or closes a
bracket that was opened before, so twice the length of the text is enough. -/
def skipValue (text : List Char) : Except Fault (List Char) :=
  skipNested (2 * text.length + 2) [] text

end Json
end Reconciliation
