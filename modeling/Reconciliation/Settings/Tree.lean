/-
# Trees of settings

Each source of settings (the standard ones, a file, the environment) is a tree
before anything is known about the settings it holds.  Sources are laid over each
other key by key: where both have a table, the tables are joined, and otherwise the
later source replaces the earlier one.  Keys that differ only in the case of their
letters are the same.
-/

import Reconciliation.Text.Binary64

namespace Reconciliation

/-- A tree of settings. -/
inductive Setting where
  /-- A setting that is known but has no value. -/
  | unset
  | flag (b : Bool)
  | integer (n : Int)
  | real (x : Binary64)
  | text (s : String)
  /-- A date, a time or both, in its spelling. -/
  | instant (spelling : String)
  | list (items : List Setting)
  | table (entries : List (String × Setting))
deriving Inhabited

/-- The entry of a key. -/
def findEntry {α : Type} (key : String) : List (String × α) → Option α
  | [] => none
  | entry :: rest => if entry.1 = key then some entry.2 else findEntry key rest

/-- The entries with `value` under `key`; a new key comes last. -/
def putEntry {α : Type} (key : String) (value : α) : List (String × α) → List (String × α)
  | [] => [(key, value)]
  | entry :: rest =>
    if entry.1 = key then (key, value) :: rest else entry :: putEntry key value rest

/-- The small letter of a capital one; other characters stay as they are.  Besides the
ASCII letters only the sign of the unit kelvin has a small letter in ASCII, and every
known key is ASCII. -/
def smallLetter (c : Char) : Char := if c = '\u212A' then 'k' else c.toLower

/-- A key in small letters. -/
def lowerKey (key : String) : String := String.ofList (key.toList.map smallLetter)

namespace Setting

/-- The entries of a table; nothing else has entries. -/
def entries : Setting → List (String × Setting)
  | table entries => entries
  | _ => []

/-- The setting under a key. -/
def get? (tree : Setting) (key : String) : Option Setting :=
  findEntry (lowerKey key) tree.entries

/-- The table with `value` under `key`.  What is not a table gives way to one. -/
def put (tree : Setting) (key : String) (value : Setting) : Setting :=
  table (putEntry (lowerKey key) value tree.entries)

mutual
/-- What a key holds after a later source has set it: a table is joined with what
was there, anything else replaces it. -/
def laidOver : Setting → Option Setting → Setting
  | table later, earlier => overlay later (earlier.getD (table []))
  | later, _ => later
termination_by structural later => later

/-- Lays entries over a tree, one after the other. -/
def overlay : List (String × Setting) → Setting → Setting
  | [], tree => tree
  | (key, later) :: rest, tree => overlay rest (tree.put key (later.laidOver (tree.get? key)))
termination_by structural entries => entries
end

end Setting

@[simp] theorem findEntry_putEntry {α : Type} (key other : String) (value : α)
    (entries : List (String × α)) :
    findEntry other (putEntry key value entries) =
      if key = other then some value else findEntry other entries := by
  induction entries with
  | nil => simp [putEntry, findEntry]
  | cons entry rest ih =>
    unfold putEntry
    split
    · rename_i h
      by_cases hk : key = other <;> simp_all [findEntry]
    · rename_i h
      by_cases hk : key = other
      · subst hk
        simp_all [findEntry]
      · simp [findEntry, ih, hk]

/-- A key holds what was put under it last. -/
@[simp] theorem Setting.get?_put (tree : Setting) (key other : String) (value : Setting) :
    (tree.put key value).get? other =
      if lowerKey key = lowerKey other then some value else tree.get? other := by
  simp [Setting.put, Setting.get?, Setting.entries]

end Reconciliation
