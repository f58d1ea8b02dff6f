/-
# A printed document reads to itself

`Shape.Fits` says which documents are canonical under a shape.  The compact text of
such a document is read under that shape to the document again
(`Shape.read_print`), whatever delimiter follows.  `Lawful` carries this to the types
that are stored as JSON: what `encode` writes, `decode` reads back.
-/

import Mathlib.Data.List.Forall2
import Reconciliation.Proofs.Json.Tokens
import Reconciliation.Json.Codec

namespace Reconciliation

/-! ## Sorted listings -/

/-- A key beyond all others is added at the end. -/
theorem insertEntry_of_forall_lt {key value : String} {entries : List (String × String)}
    (h : ∀ entry ∈ entries, entry.1 < key) :
    insertEntry key value entries = entries ++ [(key, value)] := by
  induction entries with
  | nil => rfl
  | cons entry entries ih =>
    have hlt := h entry List.mem_cons_self
    have hnot : ¬ key < entry.1 := fun hkey => String.lt_irrefl key (String.lt_trans hkey hlt)
    have hne : key ≠ entry.1 := by
      rintro rfl
      exact String.lt_irrefl _ hlt
    rw [insertEntry, if_neg hnot, if_neg hne,
      ih fun e he => h e (List.mem_cons_of_mem entry he), List.cons_append]

/-- Adding the entries of a sorted listing one by one gives the listing. -/
theorem Table.foldl_insert_entries (todo : List (String × String)) (table result : Table)
    (h : result.entries = table.entries ++ todo) :
    todo.foldl (fun table entry => table.insert entry.1 entry.2) table = result := by
  induction todo generalizing table with
  | nil => exact Table.ext (by simpa using h.symm)
  | cons entry todo ih =>
    have hsorted := result.sorted
    rw [h, List.pairwise_append] at hsorted
    have hlt : ∀ e ∈ table.entries, e.1 < entry.1 := fun e he =>
      hsorted.2.2 e he entry List.mem_cons_self
    refine ih (table.insert entry.1 entry.2) ?_
    show result.entries = insertEntry entry.1 entry.2 table.entries ++ todo
    rw [h, insertEntry_of_forall_lt hlt, List.append_assoc, List.singleton_append]

/-- A table is the table of its entries. -/
@[simp] theorem Table.ofEntries_entries (table : Table) : Table.ofEntries table.entries = table :=
  Table.foldl_insert_entries table.entries .empty table rfl

namespace Json

/-! ## Canonical documents -/

mutual
/-- The canonical documents of a shape: those that reading under it can give. -/
def Shape.Fits : Shape → Value → Prop
  | .text, value => ∃ s, value = .text s
  | .flag, value => ∃ b, value = .bool b
  | .natural bound, value => ∃ n < bound, n < significandBound ∧ value = .natural n
  | .instant, value =>
    ∃ s, (Timestamp.ofText? s).map Timestamp.toText = some s ∧ value = .text s
  | .choice variants, value => ∃ s ∈ variants, value = .text s
  | .nullable whenNull inner, value =>
    (value = .null ∧ whenNull = .null) ∨ (value ≠ .null ∧ inner.Fits value)
  | .list inner, value => ∃ items, value = .list items ∧ ∀ item ∈ items, inner.Fits item
  | .table, value => ∃ table : Table, value = ofTable table
  | .record fields, value =>
    (fields.map Prod.fst).Nodup ∧ ∃ members, value = .object members ∧ FitFields fields members
termination_by structural shape => shape

/-- The canonical members of a record: one for each field, in order. -/
def FitFields : List (String × Absent × Shape) → List (String × Value) → Prop
  | [], members => members = []
  | (name, _, shape) :: fields, members =>
    ∃ value rest, members = (name, value) :: rest ∧ shape.Fits value ∧ FitFields fields rest
termination_by structural fields => fields
end

/-- Canonical documents hold no number that is kept as it was spelled. -/
theorem Shape.Fits.ne_number {shape : Shape} {value : Value} (h : shape.Fits value)
    (spelling : String) : value ≠ .number spelling := by
  rintro rfl
  match shape, h with
  | .text, ⟨_, h⟩ => cases h
  | .flag, ⟨_, h⟩ => cases h
  | .natural _, ⟨_, _, _, h⟩ => cases h
  | .instant, ⟨_, _, h⟩ => cases h
  | .choice _, ⟨_, _, h⟩ => cases h
  | .nullable _ inner, .inl ⟨h, _⟩ => cases h
  | .nullable _ inner, .inr ⟨_, h⟩ => exact h.ne_number spelling rfl
  | .list _, ⟨_, h, _⟩ => cases h
  | .table, ⟨_, h⟩ => cases h
  | .record _, ⟨_, _, h, _⟩ => cases h

/-- A character with which a document may begin. -/
def isOpening (c : Char) : Bool := !isBlank c && c != ']'

theorem isOpening_of_isDigit {c : Char} (h : c.isDigit = true) : isOpening c = true := by
  cases ho : isOpening c with
  | true => rfl
  | false =>
    simp only [isOpening, Bool.and_eq_false_iff, Bool.not_eq_false', isBlank, Bool.or_eq_true,
      decide_eq_true_eq, bne_eq_false_iff_eq] at ho
    rcases ho with (((rfl | rfl) | rfl) | rfl) | rfl <;> exact absurd h (by decide)

/-- The text of a canonical document begins with a character that is not passed
over, and with an `n` only when the document is `null`. -/
theorem Shape.Fits.print_eq_cons {shape : Shape} {value : Value} (h : shape.Fits value) :
    ∃ c tail, value.print = c :: tail ∧ isOpening c = true ∧ (c = 'n' → value = .null) := by
  cases value with
  | null => exact ⟨'n', _, rfl, by decide, fun _ => rfl⟩
  | bool b => cases b <;> exact ⟨_, _, rfl, by decide, fun hc => absurd hc (by decide)⟩
  | natural n =>
    obtain ⟨c, digits, hc⟩ := List.exists_cons_of_ne_nil (Nat.toDigits_ne_nil (n := n) (b := 10))
    have hdigit : c.isDigit = true := isDigit_of_mem_decimal (n := n) (by simp [decimal, hc])
    refine ⟨c, digits, hc, isOpening_of_isDigit hdigit, ?_⟩
    rintro rfl
    exact absurd hdigit (by decide)
  | number spelling => exact absurd rfl (h.ne_number spelling)
  | text s => exact ⟨'"', _, rfl, by decide, fun hc => absurd hc (by decide)⟩
  | list items => exact ⟨'[', _, rfl, by decide, fun hc => absurd hc (by decide)⟩
  | object members => exact ⟨'\x7b', _, rfl, by decide, fun hc => absurd hc (by decide)⟩

/-- Nothing is passed over before a document. -/
theorem skipBlanks_of_isOpening {c : Char} (h : isOpening c = true) (rest : List Char) :
    skipBlanks (c :: rest) = c :: rest := by
  simp only [isOpening, Bool.and_eq_true, Bool.not_eq_true'] at h
  simp [skipBlanks, h.1]

/-! ## Lists -/

/-- The items of a list as they follow its bracket or an earlier item. -/
def itemsText (first : Bool) (items : List Value) : List Char :=
  if first then printItems items else printMoreItems items

theorem length_le_printMoreItems (items : List Value) :
    items.length ≤ (printMoreItems items).length := by
  induction items with
  | nil => exact Nat.le_refl _
  | cons item items ih =>
    simp only [printMoreItems, List.length_cons, List.length_append]
    omega

/-- Printed items are read to themselves. -/
theorem readItems_print {inner : Shape}
    (hread : ∀ value rest, inner.Fits value → Delimited rest →
      inner.read (value.print ++ rest) = .ok (value, rest))
    (items : List Value) (hfits : ∀ item ∈ items, inner.Fits item) (fuel : Nat) (first : Bool)
    (hfuel : items.length < fuel) (rest : List Char) :
    readItems inner.read fuel first (itemsText first items ++ ']' :: rest) = .ok (items, rest) := by
  induction items generalizing fuel first with
  | nil =>
    obtain ⟨fuel, rfl⟩ : ∃ n, fuel = n + 1 := ⟨fuel - 1, by simp at hfuel; omega⟩
    cases first <;> rfl
  | cons item items ih =>
    obtain ⟨fuel, rfl⟩ : ∃ n, fuel = n + 1 := ⟨fuel - 1, by simp at hfuel; omega⟩
    obtain ⟨c, tail, hc, hopen, -⟩ := (hfits item List.mem_cons_self).print_eq_cons
    have hdelimited : Delimited (printMoreItems items ++ ']' :: rest) := by
      cases items with
      | nil => exact delimited_cons (.inr (.inl rfl)) rest
      | cons _ _ => exact delimited_cons (.inl rfl) _
    have hitem := hread item _ (hfits item List.mem_cons_self) hdelimited
    have hmore := ih (fun i hi => hfits i (List.mem_cons_of_mem item hi)) fuel false
      (by simp at hfuel; omega)
    have hnext : nextElement first (itemsText first (item :: items) ++ ']' :: rest) =
        .ok (.item (item.print ++ (printMoreItems items ++ ']' :: rest))) := by
      have hblanks := skipBlanks_of_isOpening hopen
      simp only [isOpening, Bool.and_eq_true, bne_iff_ne] at hopen
      cases first with
      | true =>
        simp [itemsText, printItems, hc, nextElement, hblanks, hopen.2]
      | false =>
        have hcomma : ∀ text, skipBlanks (',' :: text) = ',' :: text := fun _ => rfl
        simp [itemsText, printMoreItems, hc, nextElement, hcomma, hblanks, hopen.2]
    have htext : itemsText false items = printMoreItems items := rfl
    rw [htext] at hmore
    simp [readItems, hnext, hitem, hmore, bind, Except.bind]

/-! ## Objects -/

/-- The members of an object as they follow its brace or an earlier member. -/
def membersText (first : Bool) (members : List (String × Value)) : List Char :=
  if first then printMembers members else printMoreMembers members

theorem length_le_printMoreMembers (members : List (String × Value)) :
    members.length ≤ (printMoreMembers members).length := by
  induction members with
  | nil => exact Nat.le_refl _
  | cons member members ih =>
    obtain ⟨key, value⟩ := member
    simp only [printMoreMembers, List.length_cons, List.length_append]
    omega

theorem length_le_printMembers (members : List (String × Value)) :
    members.length ≤ (printMembers members).length := by
  cases members with
  | nil => exact Nat.le_refl _
  | cons member members =>
    obtain ⟨key, value⟩ := member
    have h := length_le_printMoreMembers members
    simp only [printMembers, List.length_cons, List.length_append]
    omega

theorem length_le_printItems (items : List Value) :
    items.length ≤ (printItems items).length + 1 := by
  cases items with
  | nil => exact Nat.zero_le _
  | cons item items =>
    have h := length_le_printMoreItems items
    simp only [printItems, List.length_cons, List.length_append]
    omega

/-- Behind the members comes the closing brace. -/
theorem nextMember_close (first : Bool) (rest : List Char) :
    nextMember first (membersText first [] ++ '}' :: rest) = .ok (.close rest) := by
  cases first <;> rfl

/-- A further member is recognised by the quote of its key. -/
theorem nextMember_item (first : Bool) (key : String) (value : Value)
    (members : List (String × Value)) (rest : List Char) :
    nextMember first (membersText first ((key, value) :: members) ++ rest) =
      .ok (.item (key.toList.flatMap escapeChar ++
        '"' :: ':' :: (value.print ++ (printMoreMembers members ++ rest)))) := by
  have hquote : ∀ text, skipBlanks ('"' :: text) = '"' :: text := fun _ => rfl
  have hcomma : ∀ text, skipBlanks (',' :: text) = ',' :: text := fun _ => rfl
  cases first <;>
    simp [membersText, printMembers, printMoreMembers, quote, nextMember, hquote, hcomma]

/-- The members that follow begin with a delimiter. -/
theorem delimited_printMoreMembers (members : List (String × Value)) (rest : List Char) :
    Delimited (printMoreMembers members ++ '}' :: rest) := by
  cases members with
  | nil => exact delimited_cons (.inr (.inr rfl)) rest
  | cons _ _ => exact delimited_cons (.inl rfl) _

@[simp] theorem expectColon_cons (rest : List Char) : expectColon (':' :: rest) = .ok rest := rfl

/-! ## Tables -/

/-- Printed entries are read on top of the bindings before them. -/
theorem readEntries_print (entries : List (String × String)) (fuel : Nat) (first : Bool)
    (table : Table) (hfuel : entries.length < fuel) (rest : List Char) :
    readEntries fuel first table
        (membersText first (entries.map fun entry => (entry.1, .text entry.2)) ++ '}' :: rest) =
      .ok (entries.foldl (fun table entry => table.insert entry.1 entry.2) table, rest) := by
  induction entries generalizing fuel first table with
  | nil =>
    obtain ⟨fuel, rfl⟩ : ∃ n, fuel = n + 1 := ⟨fuel - 1, by simp at hfuel; omega⟩
    simp [readEntries, nextMember_close first rest, bind, Except.bind]
  | cons entry entries ih =>
    obtain ⟨fuel, rfl⟩ : ∃ n, fuel = n + 1 := ⟨fuel - 1, by simp at hfuel; omega⟩
    obtain ⟨key, value⟩ := entry
    have hmore := ih fuel false (table.insert key value) (by simp at hfuel; omega)
    have htext : ∀ members, membersText false members = printMoreMembers members := fun _ => rfl
    rw [htext] at hmore
    simp [readEntries, nextMember_item, scanText_flatMap, Value.print, readString_quote, hmore,
      bind, Except.bind]

/-- A printed table is read to itself. -/
theorem readTable_print (table : Table) (rest : List Char) :
    readTable ((ofTable table).print ++ rest) = .ok (table, rest) := by
  have hlength := length_le_printMembers
    (table.entries.map fun entry => (entry.1, Value.text entry.2))
  have hread := readEntries_print table.entries
    ((printMembers (table.entries.map fun entry => (entry.1, Value.text entry.2)) ++
      '}' :: rest).length + 1) true .empty
    (by simp only [List.length_map] at hlength; simp only [List.length_append]; omega) rest
  rw [Table.foldl_insert_entries table.entries .empty table rfl] at hread
  have hbrace : ∀ text, skipBlanks ('\x7b' :: text) = '\x7b' :: text := fun _ => rfl
  simpa [ofTable, Value.print, readTable, hbrace, membersText] using hread

/-! ## Records -/

/-- A field is found behind fields of other names. -/
theorem findSlot_append {before after : List Slot} {slot : Slot}
    (h : ∀ other ∈ before, other.name ≠ slot.name) :
    findSlot slot.name (before ++ slot :: after) = some (before.length, slot) := by
  induction before with
  | nil => simp [findSlot]
  | cons other before ih =>
    have hne := h other List.mem_cons_self
    have hrest := ih fun s hs => h s (List.mem_cons_of_mem other hs)
    simp [findSlot, hne, hrest]

/-- When every field was given, nothing is filled in. -/
theorem fillMissing_of_forall {slots : List Slot} {members : List (String × Value)}
    (h : slots.map Slot.name = members.map Prod.fst) :
    fillMissing slots (members.map fun member => some member.2) = some members := by
  induction slots generalizing members with
  | nil =>
    obtain rfl := List.map_eq_nil_iff.1 h.symm
    rfl
  | cons slot slots ih =>
    obtain ⟨member, members, rfl⟩ : ∃ m ms, members = m :: ms := by
      cases members with
      | nil => cases h
      | cons m ms => exact ⟨m, ms, rfl⟩
    obtain ⟨hname, hrest⟩ := List.cons.inj h
    have hmore := ih hrest
    have hhead : (slot.name, member.2) = member := Prod.ext hname rfl
    simp [fillMissing, hmore, hhead]

/-- A member that is read to itself by a field of its name. -/
def Slot.Reads (slot : Slot) (member : String × Value) : Prop :=
  slot.name = member.1 ∧
    ∀ rest, Delimited rest → slot.read (member.2.print ++ rest) = .ok (member.2, rest)

/-- Printed members are read to themselves, after those that were read before. -/
theorem readMembers_print {todo : List Slot} {members : List (String × Value)} (done : List Slot)
    (given : List (String × Value)) (hnodup : ((done ++ todo).map Slot.name).Nodup)
    (hgiven : done.map Slot.name = given.map Prod.fst)
    (hreads : List.Forall₂ Slot.Reads todo members) (fuel : Nat) (first : Bool)
    (hfuel : members.length < fuel) (rest : List Char) :
    readMembers (done ++ todo) fuel first
        ((given.map fun member => some member.2) ++ List.replicate todo.length none)
        (membersText first members ++ '}' :: rest) = .ok (given ++ members, rest) := by
  induction hreads generalizing done given fuel first with
  | nil =>
    obtain ⟨fuel, rfl⟩ : ∃ n, fuel = n + 1 := ⟨fuel - 1, by simp at hfuel; omega⟩
    have hfill := fillMissing_of_forall hgiven
    simp [readMembers, nextMember_close first rest, hfill, bind, Except.bind]
  | @cons slot member todo members hslot hreads ih =>
    obtain ⟨fuel, rfl⟩ : ∃ n, fuel = n + 1 := ⟨fuel - 1, by simp at hfuel; omega⟩
    obtain ⟨key, value⟩ := member
    obtain ⟨hname, hread⟩ := hslot
    have hlength : done.length = given.length := by
      simpa using congrArg List.length hgiven
    have hother : ∀ other ∈ done, other.name ≠ slot.name := by
      intro other hmem heq
      rw [List.map_append, List.nodup_append] at hnodup
      exact hnodup.2.2 other.name (List.mem_map_of_mem hmem) slot.name
        (by simp) heq
    have hfind : findSlot slot.name (done ++ slot :: todo) = some (done.length, slot) :=
      findSlot_append hother
    have hmore := ih (done ++ [slot]) (given ++ [(key, value)])
      (by simpa using hnodup) (by simp [hgiven, hname]) fuel false
      (by simp at hfuel; omega)
    have htext : ∀ members, membersText false members = printMoreMembers members := fun _ => rfl
    rw [htext] at hmore
    have hvalue := hread _ (delimited_printMoreMembers members rest)
    have hset : ((given.map fun member : String × Value => some member.2) ++
        List.replicate (todo.length + 1) none).set done.length (some value) =
          ((given ++ [(key, value)]).map fun member => some member.2) ++
            List.replicate todo.length none := by
      rw [hlength, List.set_append_right _ _ (by simp)]
      simp [List.replicate_succ]
    have hempty : (((given.map fun member : String × Value => some member.2) ++
        List.replicate (todo.length + 1) none)[done.length]?.join).isSome = false := by
      rw [hlength, List.getElem?_append_right (by simp)]
      simp [List.replicate_succ]
    rw [hname] at hfind
    simp only [List.append_assoc, List.singleton_append, List.map_append, List.map_cons,
      List.map_nil] at hmore
    simp [readMembers, nextMember_item, scanText_flatMap, hfind, hempty, hvalue, hset, hmore,
      bind, Except.bind]

/-- A printed record is read to itself. -/
theorem readRecord_print {slots : List Slot} {members : List (String × Value)}
    (hnodup : (slots.map Slot.name).Nodup) (hreads : List.Forall₂ Slot.Reads slots members)
    (rest : List Char) :
    readRecord slots ((Value.object members).print ++ rest) = .ok (.object members, rest) := by
  have hlength := length_le_printMembers members
  have hread := readMembers_print [] [] hnodup rfl hreads
    ((printMembers members ++ '}' :: rest).length + 1) true
    (by simp only [List.length_append]; omega) rest
  have hbrace : ∀ text, skipBlanks ('\x7b' :: text) = '\x7b' :: text := fun _ => rfl
  simp only [List.nil_append, List.map_nil, membersText, if_true, List.length_append,
    List.length_cons] at hread
  simp [Value.print, readRecord, hbrace, hread, bind, Except.bind]

/-! ## Documents of any shape -/

/-- The slots of a record are named like its fields. -/
theorem map_name_slotsOf (fields : List (String × Absent × Shape)) :
    (slotsOf fields).map Slot.name = fields.map Prod.fst := by
  induction fields with
  | nil => rfl
  | cons field fields ih =>
    obtain ⟨name, absent, shape⟩ := field
    simpa [slotsOf] using ih

mutual
/-- **The text of a canonical document is read to the document.** -/
theorem Shape.read_print (shape : Shape) {value : Value} (h : shape.Fits value)
    (rest : List Char) (hrest : Delimited rest) :
    shape.read (value.print ++ rest) = .ok (value, rest) := by
  match shape, value, h with
  | .text, _, ⟨s, rfl⟩ => simp [Shape.read, Value.print, readString_quote, Except.map]
  | .flag, _, ⟨b, rfl⟩ => cases b <;> rfl
  | .natural bound, _, ⟨n, hbound, hsize, rfl⟩ =>
    simp [Shape.read, Value.print, readNatural_decimal hbound hsize hrest, Except.map]
  | .instant, _, ⟨s, hs, rfl⟩ =>
    obtain ⟨t, ht, hts⟩ := Option.map_eq_some_iff.1 hs
    simp [Shape.read, readInstant, Value.print, readString_quote, ht, hts, bind, Except.bind]
  | .choice variants, _, ⟨s, hs, rfl⟩ =>
    have hquote : ∀ text, skipBlanks ('"' :: text) = '"' :: text := fun _ => rfl
    have hread := readString_quote s rest
    simp only [quote, List.cons_append, List.append_assoc, List.nil_append] at hread
    simp [Shape.read, readChoice, readVariantName, Value.print, quote, hquote, hread, hs, bind,
      Except.bind]
  | .nullable whenNull inner, _, .inl ⟨hnull, hwhen⟩ =>
    subst hnull hwhen
    rfl
  | .nullable whenNull inner, _, .inr ⟨hne, hfits⟩ =>
    obtain ⟨c, tail, hc, hopen, hn⟩ := hfits.print_eq_cons
    have hread := inner.read_print hfits rest hrest
    have hblanks := skipBlanks_of_isOpening hopen
    rw [hc, List.cons_append] at hread ⊢
    simp only [Shape.read, readNullable, hblanks]
    split
    · rename_i heq
      exact absurd (hn (List.cons.inj heq).1) hne
    · exact hread
  | .list inner, _, ⟨items, rfl, hitems⟩ =>
    have hlength := length_le_printItems items
    have hread := readItems_print (fun _ rest hfits => inner.read_print hfits rest) items hitems
      ((printItems items ++ ']' :: rest).length + 1) true
      (by simp only [List.length_append, List.length_cons]; omega) rest
    have hbracket : ∀ text, skipBlanks ('[' :: text) = '[' :: text := fun _ => rfl
    simp only [itemsText, if_true, List.length_append, List.length_cons] at hread
    simp [Shape.read, Value.print, readList, hbracket, hread, bind, Except.bind]
  | .table, _, ⟨table, rfl⟩ => simp [Shape.read, readTable_print, Except.map]
  | .record fields, _, ⟨hnodup, members, rfl, hfits⟩ =>
    have hnames := map_name_slotsOf fields
    exact readRecord_print (hnames ▸ hnodup) (slotsOf_reads fields hfits) rest

/-- Each field of a record reads its canonical member. -/
theorem slotsOf_reads (fields : List (String × Absent × Shape)) {members : List (String × Value)}
    (h : FitFields fields members) : List.Forall₂ Slot.Reads (slotsOf fields) members := by
  match fields, members, h with
  | [], _, rfl => exact .nil
  | (name, absent, shape) :: fields, _, ⟨value, members, rfl, hfits, hrest⟩ =>
    exact .cons ⟨rfl, fun rest => shape.read_print hfits rest⟩ (slotsOf_reads fields hrest)
end

/-- A whole text that a canonical document prints is read to the document. -/
theorem Shape.readAll_print {shape : Shape} {value : Value} (h : shape.Fits value) :
    shape.readAll value.print = .ok value := by
  have hread := shape.read_print h [] delimited_nil
  rw [List.append_nil] at hread
  simp [Shape.readAll, hread, skipBlanks, bind, Except.bind]

/-! ## Types stored as JSON -/

/-- A type whose documents are canonical and determine its values. -/
class Lawful (α : Type) [Codec α] : Prop where
  fits : ∀ a : α, (Codec.shape α).Fits (toValue a)
  ofValue_toValue : ∀ a : α, ofValue (toValue a) = some a

/-- **What was written is read back.** -/
theorem decode_encode {α : Type} [Codec α] [Lawful α] (a : α) : decode (encode a) = .ok a := by
  have hread := Shape.readAll_print (Lawful.fits a)
  simp [decode, encode, Value.compact, hread, Lawful.ofValue_toValue, bind, Except.bind]

theorem bindingsOf_map (entries : List (String × String)) :
    bindingsOf (entries.map fun entry => (entry.1, .text entry.2)) = some entries := by
  induction entries with
  | nil => rfl
  | cons entry entries ih => simp [bindingsOf, ih]

instance : Lawful String where
  fits s := ⟨s, rfl⟩
  ofValue_toValue _ := rfl

instance : Lawful Table where
  fits table := ⟨table, rfl⟩
  ofValue_toValue table := by
    show (bindingsOf _).map Table.ofEntries = some table
    rw [bindingsOf_map, Option.map_some, Table.ofEntries_entries]

end Json
end Reconciliation
