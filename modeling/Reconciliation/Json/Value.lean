/-
# JSON values and their compact text

A `Value` is a JSON document after its text has been read.  Numbers that are
plain runs of digits are kept as natural numbers; every other number (with a
sign, a fraction or an exponent) is kept as it was spelled, because nothing that
is stored here has such a number.

The compact text has no blanks, and a string escapes exactly `"`, `\` and the
control characters below U+0020.
-/

import Reconciliation.Text.Decimal

namespace Reconciliation
namespace Json

/-- A JSON document. -/
inductive Value where
  | null
  | bool (b : Bool)
  | natural (n : Nat)
  | number (spelling : String)
  | text (s : String)
  | list (items : List Value)
  | object (members : List (String × Value))
deriving Inhabited

/-- Why a text is not the JSON document that was asked for: it ends too early,
it is not JSON, or it is JSON of another form. -/
inductive Fault where
  | cutShort
  | malformed
  | mismatch
deriving DecidableEq, Repr

/-- The short escape of a character, where there is one. -/
def shortEscape? (c : Char) : Option Char :=
  if c = '"' then some '"'
  else if c = '\\' then some '\\'
  else if c = '\x08' then some 'b'
  else if c = '\x0c' then some 'f'
  else if c = '\n' then some 'n'
  else if c = '\r' then some 'r'
  else if c = '\t' then some 't'
  else none

/-- The spelling of one character inside a string. -/
def escapeChar (c : Char) : List Char :=
  match shortEscape? c with
  | some e => ['\\', e]
  | none =>
    if c.toNat < 0x20 then
      ['\\', 'u', '0', '0', Nat.digitChar (c.toNat / 16), Nat.digitChar (c.toNat % 16)]
    else [c]

/-- A string in quotes. -/
def quote (s : String) : List Char :=
  '"' :: (s.toList.flatMap escapeChar ++ ['"'])

mutual
/-- The compact text of a value. -/
def Value.print : Value → List Char
  | .null => "null".toList
  | .bool true => "true".toList
  | .bool false => "false".toList
  | .natural n => decimal n
  | .number spelling => spelling.toList
  | .text s => quote s
  | .list items => '[' :: (printItems items ++ [']'])
  | .object members => '{' :: (printMembers members ++ ['}'])
termination_by structural value => value

/-- The items of a list, separated by commas. -/
def printItems : List Value → List Char
  | [] => []
  | item :: rest => item.print ++ printMoreItems rest
termination_by structural items => items

/-- The items after the first, each with the comma before it. -/
def printMoreItems : List Value → List Char
  | [] => []
  | item :: rest => ',' :: (item.print ++ printMoreItems rest)
termination_by structural items => items

/-- The members of an object, separated by commas. -/
def printMembers : List (String × Value) → List Char
  | [] => []
  | (key, value) :: rest => quote key ++ ':' :: (value.print ++ printMoreMembers rest)
termination_by structural members => members

/-- The members after the first, each with the comma before it. -/
def printMoreMembers : List (String × Value) → List Char
  | [] => []
  | (key, value) :: rest => ',' :: (quote key ++ ':' :: (value.print ++ printMoreMembers rest))
termination_by structural members => members
end

/-- The compact text of a value, as a string. -/
def Value.compact (value : Value) : String := String.ofList value.print

end Json
end Reconciliation
