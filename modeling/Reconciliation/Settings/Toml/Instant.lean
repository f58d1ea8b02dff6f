/-
# Dates and times in a TOML document

Dates, times and both together have no meaning here.  They are checked against the
calendar and kept in one spelling: with `T` between the date and the time, at most nine
digits and no needless zeros in the fraction of the second, and `Z` or `+00:00` for UTC.

A table may also spell one: its first key is then `instantKey`, which holds the
spelling as a text, by the same rules.  Nothing else in such a table counts.
-/

import Reconciliation.Settings.Toml.Text
import Reconciliation.Settings.Tree
import Reconciliation.Time.Timestamp

namespace Reconciliation
namespace Toml

/-! ## Parts -/

/-- Reads exactly `width` digits as a number from `low` to `high`; gives their
spelling. -/
def readField (width low high : Nat) : Reader (List Char) := fun text =>
  let digits := text.take width
  if digits.length = width ∧ digits.all Char.isDigit ∧ low ≤ digitsValue digits ∧
      digitsValue digits ≤ high then
    some (digits, text.drop width)
  else none

/-- Reads a date of the calendar. -/
def readDate : Reader (List Char) := fun text => do
  let (year, rest) ← readField 4 0 9999 text
  let rest ← expectWord ['-'] rest
  let (month, rest) ← readField 2 1 12 rest
  let rest ← expectWord ['-'] rest
  let (day, rest) ← readField 2 1 (daysInMonth (digitsValue year) (digitsValue month)) rest
  some (year ++ '-' :: month ++ '-' :: day, rest)

/-- Reads the fraction of a second, if there is one.  Digits after the ninth and
zeros at the end are dropped. -/
def readSecondFraction : Reader (List Char)
  | '.' :: rest => do
    let (digits, rest) := takeDigits rest
    if digits.isEmpty then none
    else
      let kept := ((digits.take 9).reverse.dropWhile (· = '0')).reverse
      some (if kept.isEmpty then [] else '.' :: kept, rest)
  | text => some ([], text)

/-- Reads the time of a day; the sixtieth second of a minute is a leap second. -/
def readTime : Reader (List Char) := fun text => do
  let (hour, rest) ← readField 2 0 23 text
  let rest ← expectWord [':'] rest
  let (minute, rest) ← readField 2 0 59 rest
  let rest ← expectWord [':'] rest
  let (second, rest) ← readField 2 0 60 rest
  let (fraction, rest) ← readSecondFraction rest
  some (hour ++ ':' :: minute ++ ':' :: second ++ fraction, rest)

/-- Reads the hours and minutes of an offset after its sign; none at all is written
with a plus. -/
def readOffsetAfter (sign : Char) : Reader (List Char) := fun text => do
  let (hour, rest) ← readField 2 0 23 text
  let rest ← expectWord [':'] rest
  let (minute, rest) ← readField 2 0 59 rest
  let sign := if digitsValue hour = 0 ∧ digitsValue minute = 0 then '+' else sign
  some (sign :: hour ++ ':' :: minute, rest)

/-- Reads an offset from UTC, if there is one. -/
def readOffset (text : List Char) : List Char × List Char :=
  match text with
  | [] => ([], text)
  | c :: rest =>
    if c = 'Z' ∨ c = 'z' then (['Z'], rest)
    else if c = '+' ∨ c = '-' then (readOffsetAfter c rest).getD ([], text)
    else ([], text)

/-! ## Instants among the values -/

/-- Reads a time after a date, if there is one. -/
def readTimeOfDate (text : List Char) : List Char × List Char :=
  match text with
  | [] => ([], text)
  | c :: rest =>
    if c = 'T' ∨ c = 't' ∨ c = ' ' then
      match readTime rest with
      | some (time, rest) =>
        let (offset, rest) := readOffset rest
        ('T' :: time ++ offset, rest)
      | none => ([], text)
    else ([], text)

/-- Reads a date, a time or both. -/
def readInstant : Reader Setting := fun text =>
  match readDate text with
  | some (date, rest) =>
    let (time, rest) := readTimeOfDate rest
    some (.instant (String.ofList (date ++ time)), rest)
  | none => (readTime text).map fun (time, rest) => (.instant (String.ofList time), rest)

/-! ## Instants in tables -/

/-- The first key of a table that spells a date, a time or both. -/
def instantKey : String := "$__toml_private_datetime"

/-- What a table stands for whose instant key holds a setting: the date, the time or
both that the whole of a text spells. -/
def instantOf? : Setting → Option Setting
  | .text spelling => do
    let (instant, rest) ← readInstant spelling.toList
    if rest.isEmpty then some instant else none
  | _ => none

mutual
/-- The setting with an instant for every table that has to spell one. -/
def withInstants? : Setting → Option Setting
  | .table entries => do
    match entries.head?.filter (fun entry => entry.1 = instantKey) with
    | some entry => instantOf? entry.2
    | none => some (.table (← entriesWithInstants? entries))
  | .list items => do some (.list (← itemsWithInstants? items))
  | setting => some setting
termination_by structural setting => setting

/-- The items of a list, each with its instants. -/
def itemsWithInstants? : List Setting → Option (List Setting)
  | [] => some []
  | item :: rest => do some ((← withInstants? item) :: (← itemsWithInstants? rest))
termination_by structural items => items

/-- The entries of a table, each with its instants. -/
def entriesWithInstants? : List (String × Setting) → Option (List (String × Setting))
  | [] => some []
  | (key, setting) :: rest => do
    some ((key, ← withInstants? setting) :: (← entriesWithInstants? rest))
termination_by structural entries => entries
end

end Toml
end Reconciliation
