/-
# Paths into a tree of settings

A key may stand for a path: names and places, such as `pacing.before_persist_ms` or
`pacing[0]`.  A name leads into a table, a place into a list.  Whatever stands in the
way of a path gives way to a table or a list, as its next step needs.
-/

import Reconciliation.Settings.Tree
import Reconciliation.Text.Decimal

namespace Reconciliation

/-- A step of a path. -/
inductive Step where
  /-- To what a key of a table holds. -/
  | key (name : String)
  /-- To an item of a list; places below zero count from its end. -/
  | place (n : Int)
deriving DecidableEq

/-! ## Reading a path -/

/-- Whether a character may stand in a name. -/
def isNameChar (c : Char) : Bool := c.isAlphanum || c = '_' || c = '-' || c = ' '

/-- The name that a text begins with and the text after it. -/
def takeName (text : List Char) : Option (String × List Char) :=
  let name := text.takeWhile isNameChar
  if name.isEmpty then none else some (String.ofList name, text.dropWhile isNameChar)

/-- The text without the spaces and tabs that it begins with. -/
def dropGap (text : List Char) : List Char := text.dropWhile fun c => c = ' ' || c = '\t'

/-- The bound of the places of a list. -/
def placeBound : Nat := Nat.pow 2 63

/-- The place that a text begins with, after an opening bracket, and the text after the
closing one. -/
def takePlace (text : List Char) : Option (Int × List Char) :=
  let (negative, text) := match dropGap text with
    | '-' :: rest => (true, rest)
    | text => (false, text)
  let (digits, rest) := takeDigits text
  match dropGap rest with
  | ']' :: rest =>
    if digits.isEmpty then none
    else
      let n := digitsValue digits
      if negative then (if n ≤ placeBound then some (-(n : Int), rest) else none)
      else if n < placeBound then some (n, rest) else none
  | _ => none

/-- Reads the steps after the first one up to the end of the text. -/
def readSteps : Nat → List Char → Option (List Step)
  | _, [] => some []
  | fuel + 1, '.' :: text => do
    let (name, rest) ← takeName text
    some (.key name :: (← readSteps fuel rest))
  | fuel + 1, '[' :: text => do
    let (n, rest) ← takePlace text
    some (.place n :: (← readSteps fuel rest))
  | _, _ => none

/-- The path that a key spells, which begins with a name. -/
def spelledPath? (key : String) : Option (List Step) := do
  let (name, rest) ← takeName key.toList
  some (.key name :: (← readSteps rest.length rest))

/-- The path that a key stands for; a key that spells none is a name as a whole. -/
def keyPath (key : String) : List Step := (spelledPath? key).getD [.key key]

/-! ## Following a path -/

/-- A place of a list, counted from its start. -/
def placeIn (length : Nat) (n : Int) : Nat := if n < 0 then (length + n).toNat else n.toNat

namespace Setting

/-- The items of a list; nothing else has items. -/
def items : Setting → List Setting
  | list items => items
  | _ => []

/-- The item at a place. -/
def item? (tree : Setting) (place : Nat) : Option Setting := tree.items[place]?

/-- The list with `item` at a place; a shorter list is filled up.  What is not a list
gives way to one. -/
def putItem (tree : Setting) (place : Nat) (item : Setting) : Setting :=
  list ((tree.items ++ List.replicate (place + 1 - tree.items.length) unset).set place item)

/-- Sets what stands at the end of a path.  There a table is joined with what a key
held, while the item of a list is replaced. -/
def assign (later : Setting) : List Step → Setting → Setting
  | [], tree => tree
  | [.key name], tree => tree.put name (later.laidOver (tree.get? name))
  | .key name :: path, tree => tree.put name (later.assign path ((tree.get? name).getD unset))
  | [.place n], tree => tree.putItem (placeIn tree.items.length n) later
  | .place n :: path, tree =>
    let place := placeIn tree.items.length n
    tree.putItem place (later.assign path ((tree.item? place).getD unset))

/-- A place holds what was put there last. -/
@[simp] theorem item?_putItem (tree : Setting) (place : Nat) (item : Setting) :
    (tree.putItem place item).item? place = some item := by
  change ((tree.items ++ List.replicate _ unset).set place item)[place]? = some item
  exact List.getElem?_set_self (by rw [List.length_append, List.length_replicate]; omega)

/-- The other items of a list are kept. -/
theorem item?_putItem_of_ne {tree : Setting} {place other : Nat} (item : Setting)
    (h : other ≠ place) (hlt : other < tree.items.length) :
    (tree.putItem place item).item? other = tree.item? other := by
  change ((tree.items ++ List.replicate _ unset).set place item)[other]? = tree.items[other]?
  rw [List.getElem?_set_ne (Ne.symm h), List.getElem?_append_left hlt]

end Setting
end Reconciliation
