/-
# Types that are stored as JSON

A `Codec` says how the values of a type are written as documents and how they are
recovered from canonical documents.  `encode` gives the compact text, `decode`
reads a text under the type's shape, and `fromValue?` looks at a document that
was read before.
-/

import Reconciliation.Json.Shape
import Reconciliation.Json.Document

namespace Reconciliation
namespace Json

/-! ## Documents under a shape -/

/-- The bindings that members from strings to strings spell. -/
def bindingsOf : List (String × Value) → Option (List (String × String))
  | [] => some []
  | (key, .text value) :: members => (bindingsOf members).map ((key, value) :: ·)
  | _ :: _ => none

/-- The table of an object's members, the last member of a key winning. -/
def tableOfMembers (members : List (String × Value)) : Option Table :=
  (bindingsOf members).map Table.ofEntries

/-- Whether some key is given twice among those that name a field. -/
def givenTwice (names : List String) (members : List (String × Value)) : Bool :=
  names.any fun name => (members.filter fun member => member.1 = name).length > 1

mutual
/-- The canonical form of a document under a shape, if it has that shape. -/
def Shape.canonical? : Shape → Value → Option Value
  | .text, .text s => some (.text s)
  | .flag, .bool b => some (.bool b)
  | .natural bound, .natural n => if n < bound then some (.natural n) else none
  | .instant, .text s => (Timestamp.ofText? s).map fun instant => .text instant.toText
  | .choice variants, .text s => if s ∈ variants then some (.text s) else none
  | .choice variants, .object [(s, .null)] => if s ∈ variants then some (.text s) else none
  | .nullable whenNull _, .null => some whenNull
  | .nullable _ inner, value => inner.canonical? value
  | .list inner, .list items => (items.mapM inner.canonical?).map .list
  | .table, .object members => (tableOfMembers members).map ofTable
  | .record fields, .object members =>
    if givenTwice (fields.map Prod.fst) members then none
    else (canonicalMembers? fields members).map .object
  | .record fields, .list items => (canonicalItems? fields items).map .object
  | _, _ => none
termination_by structural shape => shape

/-- The fields of a record that is given as an object. -/
def canonicalMembers? :
    List (String × Absent × Shape) → List (String × Value) → Option (List (String × Value))
  | [], _ => some []
  | (name, absent, shape) :: fields, members => do
    let value ← match memberOf members name with
      | some value => shape.canonical? value
      | none => absent.orMissing shape
    let rest ← canonicalMembers? fields members
    some ((name, value) :: rest)
termination_by structural fields => fields

/-- The fields of a record that is given as a list. -/
def canonicalItems? :
    List (String × Absent × Shape) → List Value → Option (List (String × Value))
  | [], [] => some []
  | [], _ :: _ => none
  | (name, absent, _) :: fields, [] => do
    let value ← absent.orTrailing
    let rest ← canonicalItems? fields []
    some ((name, value) :: rest)
  | (name, _, shape) :: fields, item :: items => do
    let value ← shape.canonical? item
    let rest ← canonicalItems? fields items
    some ((name, value) :: rest)
termination_by structural fields => fields
end

/-! ## Codecs -/

/-- A type whose values are stored as JSON. -/
class Codec (α : Type) where
  /-- What the documents of the type look like. -/
  shape : Shape
  /-- The document of a value. -/
  toValue : α → Value
  /-- The value of a canonical document. -/
  ofValue : Value → Option α

export Codec (toValue ofValue)

/-- The compact text of a value. -/
def encode {α : Type} [Codec α] (a : α) : String := (toValue a).compact

/-- Reads a text as a value. -/
def decode {α : Type} [Codec α] (text : String) : Except Fault α := do
  let value ← (Codec.shape α).readAll text.toList
  match ofValue value with
  | some a => .ok a
  | none => .error .mismatch

/-- Reads a document as a value. -/
def fromValue? {α : Type} [Codec α] (value : Value) : Option α :=
  ((Codec.shape α).canonical? value).bind ofValue

instance : Codec String where
  shape := .text
  toValue := .text
  ofValue
    | .text s => some s
    | _ => none

instance : Codec Bool where
  shape := .flag
  toValue := .bool
  ofValue
    | .bool b => some b
    | _ => none

instance : Codec UInt16 where
  shape := .natural UInt16.size
  toValue n := .natural n.toNat
  ofValue
    | .natural n => some (UInt16.ofNat n)
    | _ => none

instance : Codec UInt32 where
  shape := .natural UInt32.size
  toValue n := .natural n.toNat
  ofValue
    | .natural n => some (UInt32.ofNat n)
    | _ => none

instance : Codec UInt64 where
  shape := .natural UInt64.size
  toValue n := .natural n.toNat
  ofValue
    | .natural n => some (UInt64.ofNat n)
    | _ => none

instance : Codec Timestamp where
  shape := .instant
  toValue t := .text t.toText
  ofValue
    | .text s => Timestamp.ofText? s
    | _ => none

instance : Codec Table where
  shape := .table
  toValue := ofTable
  ofValue
    | .object members => tableOfMembers members
    | _ => none

instance {α : Type} [Codec α] : Codec (Option α) where
  shape := .nullable .null (Codec.shape α)
  toValue
    | some a => toValue a
    | none => .null
  ofValue
    | .null => some none
    | value => (ofValue value).map some

instance {α : Type} [Codec α] : Codec (List α) where
  shape := .list (Codec.shape α)
  toValue items := .list (items.map toValue)
  ofValue
    | .list items => items.mapM ofValue
    | _ => none

/-- A field that must be given. -/
def required (α : Type) [Codec α] (name : String) : String × Absent × Shape :=
  (name, .required, Codec.shape α)

/-- A field that may be left out. -/
def optional {α : Type} [Codec α] (name : String) (default : α) : String × Absent × Shape :=
  (name, .filled (toValue default), Codec.shape α)

end Json
end Reconciliation
