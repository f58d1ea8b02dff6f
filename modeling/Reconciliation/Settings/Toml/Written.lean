/-
# How a text is written into a TOML document

Of the four forms the plainest that shows the text as it is gets chosen: between
quotes, between apostrophes, between triple quotes, between triple apostrophes.  A
text that none of them can show as it is gets escapes, between triple quotes when it
has several lines.  A text with a line feed begins on a line of its own.
-/

import Reconciliation.Settings.Toml.Text

namespace Reconciliation
namespace Toml

/-- The forms of a text. -/
inductive Form where
  | basic
  | literal
  | basicLines
  | literalLines
deriving DecidableEq, Repr

/-- The greatest number of marks in a row, of which `seen` come before the text. -/
def longestRun (mark : Char) (seen : Nat) : List Char → Nat
  | [] => seen
  | c :: rest =>
    if c = mark then longestRun mark (seen + 1) rest
    else max seen (longestRun mark 0 rest)

/-- Whether a text has a control character that only an escape can show. -/
def needsEscapes (text : List Char) : Bool := text.any fun c => isControl c && c ≠ '\n'

/-- The form in which a text is written. -/
def formOf (text : List Char) : Form :=
  let escapes := needsEscapes text
  let lines := text.contains '\n'
  let backslash := text.contains '\\'
  let quotes := longestRun '"' 0 text
  let apostrophes := longestRun '\'' 0 text
  if ¬ escapes ∧ ¬ backslash ∧ quotes = 0 ∧ ¬ lines then .basic
  else if ¬ escapes ∧ apostrophes = 0 ∧ ¬ lines then .literal
  else if ¬ escapes ∧ ¬ backslash ∧ quotes ≤ 2 then .basicLines
  else if ¬ escapes ∧ apostrophes ≤ 2 then .literalLines
  else if lines then .basicLines
  else .basic

/-- The short escape of a character, where there is one. -/
def shortEscape? (c : Char) : Option Char :=
  if c = '\x08' then some 'b'
  else if c = '\t' then some 't'
  else if c = '\n' then some 'n'
  else if c = '\x0c' then some 'f'
  else if c = '\r' then some 'r'
  else if c = '\\' then some '\\'
  else none

/-- An upper-case hexadecimal digit. -/
def upperDigit (n : Nat) : Char := (Nat.digitChar n).toUpper

/-- A character other than a quote between quotes. -/
def escapeChar (c : Char) : List Char :=
  match shortEscape? c with
  | some e => ['\\', e]
  | none =>
    if isControl c then
      ['\\', 'u', '0', '0', upperDigit (c.toNat / 16), upperDigit (c.toNat % 16)]
    else [c]

/-- A text between quotes.  Of the quotes in a row, `seen` of them before the text,
only the first `allowed` stand for themselves. -/
def escapeText (lines : Bool) (allowed seen : Nat) : List Char → List Char
  | [] => []
  | c :: rest =>
    if c = '"' then
      if seen < allowed then '"' :: escapeText lines allowed (seen + 1) rest
      else '\\' :: '"' :: escapeText lines allowed 0 rest
    else if lines ∧ c = '\n' then '\n' :: escapeText lines allowed 0 rest
    else escapeChar c ++ escapeText lines allowed 0 rest

/-- The line feed after the opening of a text that has several lines. -/
def openingLine (text : List Char) : List Char := if text.contains '\n' then ['\n'] else []

/-- A text in a form. -/
def writeAs (text : List Char) : Form → List Char
  | .basic => '"' :: (escapeText false 0 0 text ++ ['"'])
  | .literal => '\'' :: (text ++ ['\''])
  | .basicLines => '"' :: '"' :: '"' :: (openingLine text ++ escapeText true 2 0 text ++
      ['"', '"', '"'])
  | .literalLines => '\'' :: '\'' :: '\'' :: (openingLine text ++ text ++ ['\'', '\'', '\''])

/-- A text as it stands in a document. -/
def writeText (text : String) : List Char := writeAs text.toList (formOf text.toList)

end Toml
end Reconciliation
