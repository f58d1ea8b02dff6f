/-
# Timestamps

A `Timestamp` is an instant given by its calendar date and time of day in UTC,
with nanoseconds.  The sixtieth second of a minute is a leap second.

Years run from -262143 to 262142.  Days follow the proleptic Gregorian calendar,
so going one day forward or back only needs the lengths of the months.
-/

import Reconciliation.Text.Decimal

namespace Reconciliation

/-- Whether `year` has 366 days. -/
def isLeapYear (year : Int) : Bool :=
  year % 4 = 0 && (year % 100 ≠ 0 || year % 400 = 0)

/-- The number of days of a month. -/
def daysInMonth (year : Int) (month : Nat) : Nat :=
  if month = 2 then (if isLeapYear year then 29 else 28)
  else if month = 4 ∨ month = 6 ∨ month = 9 ∨ month = 11 then 30
  else 31

/-- A day of the calendar. -/
structure Date where
  year : Int
  month : Nat
  day : Nat
deriving DecidableEq

namespace Date

/-- Whether the month and the day exist and the year is in range. -/
def isValid (date : Date) : Bool :=
  -262143 ≤ date.year && date.year ≤ 262142 && 1 ≤ date.month && date.month ≤ 12 &&
    1 ≤ date.day && date.day ≤ daysInMonth date.year date.month

/-- The day after. -/
def next (date : Date) : Date :=
  if date.day < daysInMonth date.year date.month then { date with day := date.day + 1 }
  else if date.month < 12 then ⟨date.year, date.month + 1, 1⟩
  else ⟨date.year + 1, 1, 1⟩

/-- The day before. -/
def previous (date : Date) : Date :=
  if 1 < date.day then { date with day := date.day - 1 }
  else if 1 < date.month then
    ⟨date.year, date.month - 1, daysInMonth date.year (date.month - 1)⟩
  else ⟨date.year - 1, 12, 31⟩

end Date

/-- An instant in UTC. -/
structure Timestamp where
  date : Date
  hour : Nat
  minute : Nat
  second : Nat
  nanosecond : Nat
  dateValid : date.isValid = true
  hourValid : hour < 24
  minuteValid : minute < 60
  secondValid : second ≤ 60
  nanosecondValid : nanosecond < 1000000000
deriving DecidableEq

namespace Timestamp

/-- The first instant of the range. -/
def earliest : Timestamp :=
  ⟨⟨-262143, 1, 1⟩, 0, 0, 0, 0, by decide, by decide, by decide, by decide, by decide⟩

instance : Inhabited Timestamp := ⟨earliest⟩

/-- The spelling of a year: four digits from 0 to 9999, else a sign and at least
four digits. -/
def yearText (year : Int) : List Char :=
  if 0 ≤ year ∧ year ≤ 9999 then paddedDecimal 4 year.toNat
  else if 0 ≤ year then '+' :: paddedDecimal 4 year.toNat
  else '-' :: paddedDecimal 4 (-year).toNat

/-- The fraction of a second, with the fewest of 0, 3, 6 or 9 digits that lose
nothing. -/
def fractionText (nanosecond : Nat) : List Char :=
  if nanosecond = 0 then []
  else if nanosecond % 1000000 = 0 then '.' :: paddedDecimal 3 (nanosecond / 1000000)
  else if nanosecond % 1000 = 0 then '.' :: paddedDecimal 6 (nanosecond / 1000)
  else '.' :: paddedDecimal 9 nanosecond

/-- The RFC 3339 spelling in UTC. -/
def toChars (t : Timestamp) : List Char :=
  yearText t.date.year ++ '-' :: paddedDecimal 2 t.date.month ++ '-' ::
    paddedDecimal 2 t.date.day ++ 'T' :: paddedDecimal 2 t.hour ++ ':' ::
    paddedDecimal 2 t.minute ++ ':' :: paddedDecimal 2 t.second ++
    fractionText t.nanosecond ++ ['Z']

/-- The RFC 3339 spelling in UTC, as a string. -/
def toText (t : Timestamp) : String := String.ofList t.toChars

end Timestamp
end Reconciliation
