/-
# Shapes: what a document is expected to look like

A `Shape` describes the documents of one type.  Reading under a shape gives the
*canonical* document: the fields of a record in the order of its description with
absent ones filled in, the members of a table sorted by key, an instant in its
canonical spelling.  Two texts that mean the same read to the same document, and
a document that a type prints reads to itself.

A record may be written as an object, its members in any order, or as a list of
its fields in order; unknown members are passed over.  A member that is given
twice is a mismatch in a record, while in a table the last one counts.
-/

import Reconciliation.Json.Scan
import Reconciliation.Table
import Reconciliation.Time.Rfc3339

namespace Reconciliation
namespace Json

/-- What stands in for a field that a record leaves out: nothing, or a value. -/
inductive Absent where
  | required
  | filled (value : Value)

/-- The documents of one type. -/
inductive Shape where
  /-- Any string. -/
  | text
  /-- `true` or `false`. -/
  | flag
  /-- A whole number below the bound, written without sign, fraction or exponent. -/
  | natural (bound : Nat)
  /-- A string that holds an RFC 3339 instant. -/
  | instant
  /-- One of the variants, as a string or as an object from the variant to `null`. -/
  | choice (variants : List String)
  /-- The inner shape, or `null` standing for `whenNull`. -/
  | nullable (whenNull : Value) (inner : Shape)
  /-- A list of documents of the inner shape. -/
  | list (inner : Shape)
  /-- An object from strings to strings. -/
  | table
  /-- An object with these fields. -/
  | record (fields : List (String × Absent × Shape))

/-- The document of a table. -/
def ofTable (table : Table) : Value :=
  .object (table.entries.map fun entry => (entry.1, .text entry.2))

/-- What a record's object form takes for a field that it leaves out.  A field
that may be `null` may also be left out. -/
def Absent.orMissing (absent : Absent) (shape : Shape) : Option Value :=
  match absent, shape with
  | .filled value, _ => some value
  | .required, .nullable whenNull _ => some whenNull
  | .required, _ => none

/-- What a record's list form takes for a field beyond its end. -/
def Absent.orTrailing : Absent → Option Value
  | .filled value => some value
  | .required => none

/-- A field ready to be read. -/
structure Slot where
  name : String
  read : Reader Value
  missing : Option Value
  trailing : Option Value

/-! ## Reading single documents -/

/-- The fault of a text that does not begin with the kind of document that was
asked for.  Whatever stands there is still read, so that a text which is not JSON
is reported as such. -/
def refusal (text : List Char) : Fault :=
  match skipBlanks text with
  | [] => .cutShort
  | c :: rest =>
    let faultOf (r : Except Fault (List Char)) : Fault := match r with
      | .error fault => fault
      | .ok _ => .mismatch
    if c = 'n' then faultOf (expectWord "ull".toList rest)
    else if c = 't' then faultOf (expectWord "rue".toList rest)
    else if c = 'f' then faultOf (expectWord "alse".toList rest)
    else if c = '-' then faultOf ((scanNumber rest).map Prod.snd)
    else if c.isDigit then faultOf ((scanNumber (c :: rest)).map Prod.snd)
    else if c = '"' then faultOf ((scanText rest).map Prod.snd)
    else if c = '[' ∨ c = '{' then .mismatch
    else .malformed

/-- Reads a string. -/
def readString : Reader String := fun text =>
  match skipBlanks text with
  | '"' :: rest => do
    let (content, rest) ← scanText rest
    .ok (String.ofList content, rest)
  | text => .error (refusal text)

/-- Reads `true` or `false`. -/
def readFlag : Reader Bool := fun text =>
  match skipBlanks text with
  | 't' :: rest => do .ok (true, ← expectWord "rue".toList rest)
  | 'f' :: rest => do .ok (false, ← expectWord "alse".toList rest)
  | text => .error (refusal text)

/-- Reads a whole number below `bound`. -/
def readNatural (bound : Nat) : Reader Nat := fun text =>
  match skipBlanks text with
  | [] => .error .cutShort
  | c :: rest =>
    if c.isDigit then do
      let (number, rest) ← scanNumber (c :: rest)
      match number with
      | some n => if n < bound then .ok (n, rest) else .error .mismatch
      | none => .error .mismatch
    else .error (refusal (c :: rest))

/-- Reads an instant; gives its canonical spelling. -/
def readInstant : Reader Value := fun text => do
  let (spelling, rest) ← readString text
  match Timestamp.ofText? spelling with
  | some instant => .ok (.text instant.toText, rest)
  | none => .error .mismatch

/-- Reads `null`. -/
def readNull : Reader Unit := fun text =>
  match skipBlanks text with
  | 'n' :: rest => do .ok ((), ← expectWord "ull".toList rest)
  | text => .error (refusal text)

/-- Reads the name of a variant. -/
def readVariantName (variants : List String) : Reader Value := fun text => do
  let (name, rest) ← readString text
  if name ∈ variants then .ok (.text name, rest) else .error .mismatch

/-- Reads a variant as the key of an object, where nothing but a string may stand. -/
def readVariantKey (variants : List String) : Reader Value := fun text =>
  match skipBlanks text with
  | [] => .error .cutShort
  | c :: rest => if c = '"' then readVariantName variants (c :: rest) else .error .malformed

/-- Reads a variant, as a string or as an object from its name to `null`. -/
def readChoice (variants : List String) : Reader Value := fun text =>
  match skipBlanks text with
  | [] => .error .cutShort
  | c :: rest =>
    if c = '"' then readVariantName variants (c :: rest)
    else if c = '{' then do
      let (variant, rest) ← readVariantKey variants rest
      let ((), rest) ← readNull (← expectColon rest)
      match skipBlanks rest with
      | [] => .error .cutShort
      | c :: rest => if c = '}' then .ok (variant, rest) else .error .malformed
    else .error .malformed

/-- Reads `null` as `whenNull`, and anything else with `inner`. -/
def readNullable (whenNull : Value) (inner : Reader Value) : Reader Value := fun text =>
  match skipBlanks text with
  | 'n' :: rest => do .ok (whenNull, ← expectWord "ull".toList rest)
  | text => inner text

/-! ## Reading lists, tables and records -/

/-- Reads the items of a list up to its closing bracket. -/
def readItems (inner : Reader Value) : Nat → Bool → Reader (List Value)
  | 0, _, _ => .error .cutShort
  | fuel + 1, first, text => do
    match ← nextElement first text with
    | .close rest => .ok ([], rest)
    | .item rest => do
      let (item, rest) ← inner rest
      let (items, rest) ← readItems inner fuel false rest
      .ok (item :: items, rest)

/-- Reads a list. -/
def readList (inner : Reader Value) : Reader Value := fun text =>
  match skipBlanks text with
  | '[' :: rest => do
    let (items, rest) ← readItems inner (rest.length + 1) true rest
    .ok (.list items, rest)
  | text => .error (refusal text)

/-- Reads the members of a table up to its closing brace, on top of the bindings
read before. -/
def readEntries : Nat → Bool → Table → Reader Table
  | 0, _, _, _ => .error .cutShort
  | fuel + 1, first, table, text => do
    match ← nextMember first text with
    | .close rest => .ok (table, rest)
    | .item rest => do
      let (key, rest) ← scanText rest
      let (value, rest) ← readString (← expectColon rest)
      readEntries fuel false (table.insert (String.ofList key) value) rest

/-- Reads a table. -/
def readTable : Reader Table := fun text =>
  match skipBlanks text with
  | '{' :: rest => readEntries (rest.length + 1) true .empty rest
  | text => .error (refusal text)

/-- The place of the field called `key`. -/
def findSlot (key : String) : List Slot → Option (Nat × Slot)
  | [] => none
  | slot :: slots =>
    if slot.name = key then some (0, slot)
    else (findSlot key slots).map fun (place, found) => (place + 1, found)

/-- The fields of a record that was given as an object. -/
def fillMissing : List Slot → List (Option Value) → Option (List (String × Value))
  | [], _ => some []
  | slot :: slots, found => do
    let value ← (found.head?.join).orElse fun _ => slot.missing
    let rest ← fillMissing slots found.tail
    some ((slot.name, value) :: rest)

/-- Reads the members of a record's object form up to its closing brace; `found`
holds the fields read before, one place for each slot. -/
def readMembers (slots : List Slot) :
    Nat → Bool → List (Option Value) → Reader (List (String × Value))
  | 0, _, _, _ => .error .cutShort
  | fuel + 1, first, found, text => do
    match ← nextMember first text with
    | .close rest =>
      match fillMissing slots found with
      | some fields => .ok (fields, rest)
      | none => .error .mismatch
    | .item rest => do
      let (key, rest) ← scanText rest
      match findSlot (String.ofList key) slots with
      | none => do
        let rest ← skipValue (← expectColon rest)
        readMembers slots fuel false found rest
      | some (place, slot) =>
        if (found[place]?.join).isSome then .error .mismatch
        else do
          let (value, rest) ← slot.read (← expectColon rest)
          readMembers slots fuel false (found.set place (some value)) rest

/-- Closes a list that has no room for further items. -/
def closeList (text : List Char) : Except Fault (List Char) :=
  match skipBlanks text with
  | [] => .error .cutShort
  | c :: rest => if c = ']' then .ok rest else .error .malformed

/-- The fields that a record's list form leaves out. -/
def fillTrailing : List Slot → Option (List (String × Value))
  | [] => some []
  | slot :: slots => do
    let value ← slot.trailing
    let rest ← fillTrailing slots
    some ((slot.name, value) :: rest)

/-- Reads the items of a record's list form up to its closing bracket. -/
def readFields : List Slot → Bool → Reader (List (String × Value))
  | [], _, text => do .ok ([], ← closeList text)
  | slot :: slots, first, text => do
    match ← nextElement first text with
    | .close rest =>
      match fillTrailing (slot :: slots) with
      | some fields => .ok (fields, rest)
      | none => .error .mismatch
    | .item rest => do
      let (value, rest) ← slot.read rest
      let (fields, rest) ← readFields slots false rest
      .ok ((slot.name, value) :: fields, rest)

/-- Reads a record, as an object or as a list. -/
def readRecord (slots : List Slot) : Reader Value := fun text =>
  match skipBlanks text with
  | '{' :: rest => do
    let (fields, rest) ←
      readMembers slots (rest.length + 1) true (List.replicate slots.length none) rest
    .ok (.object fields, rest)
  | '[' :: rest => do
    let (fields, rest) ← readFields slots true rest
    .ok (.object fields, rest)
  | text => .error (refusal text)

mutual
/-- Reads a document of a shape into its canonical form. -/
def Shape.read : Shape → Reader Value
  | .text => fun text => (readString text).map fun (s, rest) => (.text s, rest)
  | .flag => fun text => (readFlag text).map fun (b, rest) => (.bool b, rest)
  | .natural bound => fun text => (readNatural bound text).map fun (n, rest) => (.natural n, rest)
  | .instant => readInstant
  | .choice variants => readChoice variants
  | .nullable whenNull inner => readNullable whenNull inner.read
  | .list inner => readList inner.read
  | .table => fun text => (readTable text).map fun (table, rest) => (ofTable table, rest)
  | .record fields => readRecord (slotsOf fields)
termination_by structural shape => shape

/-- The slots of a record's fields. -/
def slotsOf : List (String × Absent × Shape) → List Slot
  | [] => []
  | (name, absent, shape) :: fields =>
    ⟨name, shape.read, absent.orMissing shape, absent.orTrailing⟩ :: slotsOf fields
termination_by structural fields => fields
end

/-- Reads a whole text as one document of a shape. -/
def Shape.readAll (shape : Shape) (text : List Char) : Except Fault Value := do
  let (value, rest) ← shape.read text
  match skipBlanks rest with
  | [] => .ok value
  | _ :: _ => .error .malformed

end Json
end Reconciliation
