/-
# Tables: finite maps from text to text

Annotations, label selectors, secret contents and the completion notes of a
progress record are all the same thing: a finite map from text to text that is
written out in key order.  A `Table` keeps its entries strictly sorted by key,
so two tables with the same bindings are the same table and the entries are at
once the canonical listing.

Keys are compared code point by code point, which is also the order of their
UTF-8 bytes.
-/

namespace Reconciliation

/-- Adds the binding `key ↦ value` to a sorted listing, replacing an earlier
binding of the same key. -/
def insertEntry (key value : String) : List (String × String) → List (String × String)
  | [] => [(key, value)]
  | entry :: rest =>
    if key < entry.1 then (key, value) :: entry :: rest
    else if key = entry.1 then (key, value) :: rest
    else entry :: insertEntry key value rest

theorem mem_insertEntry {key value : String} {entries : List (String × String)}
    {e : String × String} (h : e ∈ insertEntry key value entries) :
    e = (key, value) ∨ e ∈ entries := by
  induction entries with
  | nil => simpa [insertEntry] using h
  | cons entry rest ih =>
    unfold insertEntry at h
    split at h
    · simpa using h
    · split at h
      · rcases List.mem_cons.1 h with h | h
        · exact .inl h
        · exact .inr (List.mem_cons_of_mem _ h)
      · rcases List.mem_cons.1 h with h | h
        · exact .inr (h ▸ List.mem_cons_self)
        · rcases ih h with h | h
          · exact .inl h
          · exact .inr (List.mem_cons_of_mem _ h)

theorem lt_of_not_lt_of_ne {a b : String} (h : ¬ a < b) (hne : a ≠ b) : b < a := by
  rcases Decidable.em (b < a) with h' | h'
  · exact h'
  · exact absurd (String.le_antisymm (String.not_lt.1 h') (String.not_lt.1 h)) hne

theorem insertEntry_sorted {key value : String} {entries : List (String × String)}
    (h : entries.Pairwise (fun a b => a.1 < b.1)) :
    (insertEntry key value entries).Pairwise (fun a b => a.1 < b.1) := by
  induction entries with
  | nil => simp [insertEntry]
  | cons entry rest ih =>
    have hrest := (List.pairwise_cons.1 h).2
    have hhead := (List.pairwise_cons.1 h).1
    unfold insertEntry
    split
    · rename_i hlt
      refine List.pairwise_cons.2 ⟨fun e he => ?_, h⟩
      rcases List.mem_cons.1 he with rfl | he
      · exact hlt
      · exact String.lt_trans hlt (hhead e he)
    · rename_i hnot
      split
      · rename_i heq
        exact List.pairwise_cons.2 ⟨fun e he => heq ▸ hhead e he, hrest⟩
      · rename_i hne
        refine List.pairwise_cons.2 ⟨fun e he => ?_, ih hrest⟩
        rcases mem_insertEntry he with rfl | he
        · exact lt_of_not_lt_of_ne hnot hne
        · exact hhead e he

/-- A finite map from text to text, listed in strictly increasing key order. -/
structure Table where
  entries : List (String × String)
  sorted : entries.Pairwise (fun a b => a.1 < b.1)
deriving DecidableEq

namespace Table

/-- The table without bindings. -/
def empty : Table := ⟨[], .nil⟩

instance : Inhabited Table := ⟨empty⟩

/-- The text bound to `key`, if there is one. -/
def get? (table : Table) (key : String) : Option String :=
  (table.entries.find? (fun entry => entry.1 = key)).map Prod.snd

/-- Whether `key` is bound. -/
def contains (table : Table) (key : String) : Bool :=
  table.entries.any (fun entry => entry.1 = key)

/-- Binds `key` to `value`, whatever it was bound to before. -/
def insert (table : Table) (key value : String) : Table :=
  ⟨insertEntry key value table.entries, insertEntry_sorted table.sorted⟩

/-- Removes the binding of `key`, if there is one. -/
def erase (table : Table) (key : String) : Table :=
  ⟨table.entries.filter (fun entry => entry.1 ≠ key), table.sorted.filter _⟩

/-- The table of a list of bindings; the last binding of a key wins. -/
def ofEntries (entries : List (String × String)) : Table :=
  entries.foldl (fun table entry => table.insert entry.1 entry.2) empty

@[simp] theorem get?_empty (key : String) : empty.get? key = none := rfl

/-- Looking a key up in a listing after a binding was added. -/
theorem find?_insertEntry (key value other : String) (entries : List (String × String)) :
    ((insertEntry key value entries).find? fun entry => entry.1 = other).map Prod.snd =
      if key = other then some value
      else (entries.find? fun entry => entry.1 = other).map Prod.snd := by
  induction entries with
  | nil => by_cases h : key = other <;> simp [insertEntry, h]
  | cons entry rest ih =>
    unfold insertEntry
    split
    · by_cases h : key = other <;> simp [h]
    · split
      · rename_i heq
        by_cases h : key = other
        · simp [h]
        · simp [h, ← heq]
      · rename_i hne
        by_cases he : entry.1 = other
        · simp [he, show key ≠ other from fun h => hne (h.trans he.symm)]
        · simpa [he] using ih

/-- A key is bound to what was inserted under it last. -/
@[simp] theorem get?_insert (table : Table) (key value other : String) :
    (table.insert key value).get? other = if key = other then some value else table.get? other :=
  find?_insertEntry key value other table.entries

/-- An erased key is not bound any more; the others are as before. -/
@[simp] theorem get?_erase (table : Table) (key other : String) :
    (table.erase key).get? other = if key = other then none else table.get? other := by
  unfold get? erase
  by_cases h : key = other
  · subst h
    simp [List.find?_filter]
  · have same : (fun entry : String × String =>
        !decide (entry.1 = key) && decide (entry.1 = other)) =
          fun entry => decide (entry.1 = other) := by
      funext entry
      by_cases he : entry.1 = other
      · simp [he, show other ≠ key from fun e => h e.symm]
      · simp [he]
    simp [List.find?_filter, same, h]

/-- A key is bound exactly when looking it up gives something. -/
theorem contains_eq_isSome (table : Table) (key : String) :
    table.contains key = (table.get? key).isSome := by
  unfold contains get?
  rw [Option.isSome_map, Bool.eq_iff_iff, List.any_eq_true, List.find?_isSome]

@[ext] theorem ext {a b : Table} (h : a.entries = b.entries) : a = b := by
  cases a; cases b; cases h; rfl

end Table
end Reconciliation
