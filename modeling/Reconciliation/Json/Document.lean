/-
# Reading any document

`parse` reads a text into the document it spells, whatever its form: the reader
of every JSON text that is not read under a shape.  Strings are read with
`scanText` and numbers keep their spelling, so nothing is lost that a later look
under a shape could ask for.
-/

import Reconciliation.Json.Scan

namespace Reconciliation
namespace Json

/-- The document of a number whose digits take the text up to `rest`. -/
def numberValue (negative : Bool) (numeral : Numeral) (spelled : List Char) : Value :=
  if negative = false ∧ numeral.isWhole then .natural (digitsValue numeral.whole)
  else .number (String.ofList (if negative then '-' :: spelled else spelled))

/-- Reads a number after its sign, keeping its spelling. -/
def parseNumber (negative : Bool) : Reader Value := fun text => do
  let (numeral, rest) ← scanNumeral .cutShort text
  .ok (numberValue negative numeral (text.take (text.length - rest.length)), rest)

mutual
/-- Reads one document. -/
def parseValue : Nat → Reader Value
  | 0, _ => .error .cutShort
  | fuel + 1, text =>
    match skipBlanks text with
    | [] => .error .cutShort
    | c :: rest =>
      if c = 'n' then do .ok (.null, ← expectWord "ull".toList rest)
      else if c = 't' then do .ok (.bool true, ← expectWord "rue".toList rest)
      else if c = 'f' then do .ok (.bool false, ← expectWord "alse".toList rest)
      else if c = '-' then parseNumber true rest
      else if c.isDigit then parseNumber false (c :: rest)
      else if c = '"' then do
        let (content, rest) ← scanText rest
        .ok (.text (String.ofList content), rest)
      else if c = '[' then do
        let (items, rest) ← parseItems fuel true rest
        .ok (.list items, rest)
      else if c = '{' then do
        let (members, rest) ← parseMembers fuel true rest
        .ok (.object members, rest)
      else .error .malformed
termination_by structural fuel => fuel

/-- Reads the items of a list up to its closing bracket. -/
def parseItems : Nat → Bool → Reader (List Value)
  | 0, _, _ => .error .cutShort
  | fuel + 1, first, text => do
    match ← nextElement first text with
    | .close rest => .ok ([], rest)
    | .item rest => do
      let (item, rest) ← parseValue fuel rest
      let (items, rest) ← parseItems fuel false rest
      .ok (item :: items, rest)
termination_by structural fuel => fuel

/-- Reads the members of an object up to its closing brace. -/
def parseMembers : Nat → Bool → Reader (List (String × Value))
  | 0, _, _ => .error .cutShort
  | fuel + 1, first, text => do
    match ← nextMember first text with
    | .close rest => .ok ([], rest)
    | .item rest => do
      let (key, rest) ← scanText rest
      let (value, rest) ← parseValue fuel (← expectColon rest)
      let (members, rest) ← parseMembers fuel false rest
      .ok ((String.ofList key, value) :: members, rest)
termination_by structural fuel => fuel
end

/-- Reads a whole text as one document. -/
def parse (text : List Char) : Except Fault Value := do
  let (value, rest) ← parseValue (2 * text.length + 1) text
  match skipBlanks rest with
  | [] => .ok value
  | _ :: _ => .error .malformed

/-- The last value given for `key`. -/
def memberOf (members : List (String × Value)) (key : String) : Option Value :=
  members.foldl (fun found member => if member.1 = key then some member.2 else found) none

/-- The value of a member of an object; anything else has no members. -/
def Value.get? (value : Value) (key : String) : Option Value :=
  match value with
  | .object members => memberOf members key
  | _ => none

end Json
end Reconciliation
