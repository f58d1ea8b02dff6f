/-
# Reading under a shape is reading and then looking

A text that denotes a document is read under a shape exactly as the document looks
under it: `Shape.read` gives what `Shape.canonical?` gives for the document, and
fails when that gives nothing (`Shape.views`).  So what is read does not depend on
how the text is spelled: on blanks, on escapes, or on what stands in members that
nobody asked for.

The proof goes along the shape.  A reader looks at the first character to tell what
kind of document follows, and by `Value.Spelled.eq_cons` the document is told by it.
-/

import Mathlib.Data.List.Induction
import Reconciliation.Proofs.Json.Documents
import Reconciliation.Json.Codec

namespace Reconciliation
namespace Json

/-! ## What a reader gives, whatever the fault -/

/-- Two readers in a row give something when both of them do. -/
theorem toOption_bind {ε α β : Type} (read : Except ε α) (next : α → Except ε β) :
    (read >>= next).toOption = read.toOption.bind fun a => (next a).toOption := by
  cases read <;> rfl

/-- What is made of a result does not matter for whether there is one. -/
theorem toOption_map {ε α β : Type} (f : α → β) (read : Except ε α) :
    (read.map f).toOption = read.toOption.map f := by
  cases read <;> rfl

@[simp] theorem toOption_ok {ε α : Type} (a : α) : (.ok a : Except ε α).toOption = some a := rfl

@[simp] theorem toOption_error {ε α : Type} (fault : ε) :
    (.error fault : Except ε α).toOption = none := rfl

/-- A reader that gives something gives no fault. -/
theorem eq_ok_of_toOption {ε α : Type} {read : Except ε α} {a : α} (h : read.toOption = some a) :
    read = .ok a := by
  cases read with
  | error fault => cases h
  | ok b => exact congrArg _ (Option.some.inj h)

/-- A reader that gives nothing gives a fault. -/
theorem exists_error_of_toOption {ε α : Type} {read : Except ε α} (h : read.toOption = none) :
    ∃ fault, read = .error fault := by
  cases read with
  | error fault => exact ⟨fault, rfl⟩
  | ok a => cases h

/-- A reader looks at documents as `view` does: before a text that spells a
document it gives what `view` gives and leaves what follows, or it fails. -/
def Views {α : Type} (read : Reader α) (view : Value → Option α) : Prop :=
  ∀ ⦃value lead text rest⦄, Blank lead → Value.Spelled value text → Ended rest →
    (read (lead ++ (text ++ rest))).toOption = (view value).map fun a => (a, rest)

/-- Nothing is left to pass over behind blanks. -/
theorem skipBlanks_skipBlanks (text : List Char) : skipBlanks (skipBlanks text) = skipBlanks text := by
  obtain ⟨lead, -, -, hhead⟩ := exists_blank text
  cases hskip : skipBlanks text with
  | nil => rfl
  | cons c rest =>
    rw [hskip] at hhead
    exact skipBlanks_cons (hhead c rfl) rest

/-- A reader that passes over blanks is looked at where the document begins. -/
theorem views_of_skipBlanks {α : Type} {read : Reader α} {view : Value → Option α}
    (hread : ∀ text, read text = read (skipBlanks text))
    (h : ∀ {value c tail rest}, Value.Spelled value (c :: tail) → value.beginsWith c = true →
      Ended rest → skipBlanks (c :: (tail ++ rest)) = c :: (tail ++ rest) →
      (read (c :: (tail ++ rest))).toOption = (view value).map fun a => (a, rest)) :
    Views read view := by
  intro value lead text rest hlead hspelled hrest
  obtain ⟨c, tail, rfl, hc⟩ := hspelled.eq_cons
  have hskip := skipBlanks_of_isOpening (Value.isOpening_of_beginsWith hc) (tail ++ rest)
  rw [hread, skipBlanks_blank hlead, List.cons_append, hskip]
  exact h hspelled hc hrest hskip

/-! ## Single documents -/

/-- The string that a document is. -/
def Value.text? : Value → Option String
  | .text s => some s
  | _ => none

/-- Whether a document is `null`. -/
def Value.null? : Value → Option Unit
  | .null => some ()
  | _ => none

/-- Only texts begin with a quote. -/
theorem Value.eq_text_of_beginsWith {value : Value} (h : value.beginsWith '"' = true) :
    ∃ s, value = .text s := by
  cases value with
  | text s => exact ⟨s, rfl⟩
  | bool b => cases b <;> cases h
  | _ => cases h

/-- Only `null` begins with this letter. -/
theorem Value.eq_null_of_beginsWith {value : Value} (h : value.beginsWith 'n' = true) :
    value = .null := by
  cases value with
  | null => rfl
  | bool b => cases b <;> cases h
  | _ => cases h

/-- Only lists begin with a bracket. -/
theorem Value.eq_list_of_beginsWith {value : Value} (h : value.beginsWith '[' = true) :
    ∃ items, value = .list items := by
  cases value with
  | list items => exact ⟨items, rfl⟩
  | bool b => cases b <;> cases h
  | _ => cases h

/-- Only objects begin with a brace. -/
theorem Value.eq_object_of_beginsWith {value : Value} (h : value.beginsWith '\x7b' = true) :
    ∃ members, value = .object members := by
  cases value with
  | object members => exact ⟨members, rfl⟩
  | bool b => cases b <;> cases h
  | _ => cases h

/-- The two flags are told apart by their first letters. -/
theorem Value.eq_true_of_beginsWith {value : Value} (h : value.beginsWith 't' = true) :
    value = .bool true := by
  cases value with
  | bool b => cases b <;> first | rfl | cases h
  | _ => cases h

theorem Value.eq_false_of_beginsWith {value : Value} (h : value.beginsWith 'f' = true) :
    value = .bool false := by
  cases value with
  | bool b => cases b <;> first | rfl | cases h
  | _ => cases h

/-- A string is read to its content. -/
theorem readString_escapes {s : String} {body : List Char} (h : Escapes s.toList body)
    (rest : List Char) : readString ('"' :: (body ++ '"' :: rest)) = .ok (s, rest) := by
  have hquote : ∀ text, skipBlanks ('"' :: text) = '"' :: text := fun _ => rfl
  simp [readString, hquote, h.scanText, bind, Except.bind]

/-- Strings are read with any spelling. -/
theorem views_readString : Views readString Value.text? := by
  refine views_of_skipBlanks (fun text => by simp only [readString, skipBlanks_skipBlanks]) ?_
  intro value c tail rest h hc _ hskip
  by_cases hquote : c = '"'
  · subst hquote
    obtain ⟨s, rfl⟩ := Value.eq_text_of_beginsWith hc
    obtain ⟨body, hbody, htext⟩ := h
    obtain rfl := (List.cons.inj htext).2
    simp only [List.append_assoc, List.singleton_append, readString_escapes hbody rest]
    rfl
  · have hnone : value.text? = none := by
      cases value with
      | text s => exact absurd (of_decide_eq_true hc) hquote
      | _ => rfl
    simp only [readString, hskip, hnone]
    split
    · rename_i heq
      exact absurd (List.cons.inj heq).1 hquote
    · rfl

/-- `null` is read, and nothing else. -/
theorem views_readNull : Views readNull Value.null? := by
  refine views_of_skipBlanks (fun text => by simp only [readNull, skipBlanks_skipBlanks]) ?_
  intro value c tail rest h hc _ hskip
  by_cases hn : c = 'n'
  · subst hn
    obtain rfl := Value.eq_null_of_beginsWith hc
    obtain rfl := (List.cons.inj h).2
    rfl
  · simp only [readNull, hskip]
    split
    · rename_i heq
      exact absurd (List.cons.inj heq).1 hn
    · cases value with
      | null => exact absurd (of_decide_eq_true hc) hn
      | _ => rfl

/-- The reader of texts sees the texts. -/
theorem views_text : Views Shape.text.read Shape.text.canonical? := by
  intro value lead text rest hlead h hrest
  have hread := views_readString hlead h hrest
  simp only [Shape.read, toOption_map, hread]
  cases value <;> rfl

/-- The reader of instants sees the texts that spell one. -/
theorem views_instant : Views Shape.instant.read Shape.instant.canonical? := by
  intro value lead text rest hlead h hrest
  have hread := views_readString hlead h hrest
  simp only [Shape.read, readInstant, toOption_bind, hread]
  cases value with
  | text s => cases hs : Timestamp.ofText? s <;> simp [Value.text?, Shape.canonical?, hs, Except.toOption]
  | _ => rfl

/-- The reader of flags sees the two words. -/
theorem views_flag : Views Shape.flag.read Shape.flag.canonical? := by
  refine views_of_skipBlanks (fun text => by
    simp only [Shape.read, readFlag, skipBlanks_skipBlanks]) ?_
  intro value c tail rest h hc _ hskip
  by_cases ht : c = 't'
  · subst ht
    obtain rfl := Value.eq_true_of_beginsWith hc
    obtain rfl := (List.cons.inj h).2
    rfl
  by_cases hf : c = 'f'
  · subst hf
    obtain rfl := Value.eq_false_of_beginsWith hc
    obtain rfl := (List.cons.inj h).2
    rfl
  · simp only [Shape.read, readFlag, hskip]
    split
    · rename_i heq
      exact absurd (List.cons.inj heq).1 ht
    · rename_i heq
      exact absurd (List.cons.inj heq).1 hf
    · cases value with
      | bool b =>
        cases b with
        | true => exact absurd (of_decide_eq_true hc) ht
        | false => exact absurd (of_decide_eq_true hc) hf
      | _ => rfl

/-- Reading a number gives it when it is a plain run of digits below the bound of
significands, and no number otherwise. -/
theorem toOption_scanNumber {numeral : Numeral} {body rest : List Char}
    (h : numeral.Spelled body) (hrest : Ended rest) :
    (scanNumber (body ++ rest)).toOption.bind (fun scanned => scanned.1.map fun n => (n, scanned.2)) =
      if numeral.isWhole ∧ digitsValue numeral.whole < significandBound then
        some (digitsValue numeral.whole, rest)
      else none := by
  have hscan := h.scanNumeral hrest .cutShort
  simp only [scanNumber, hscan, bind, Except.bind]
  split
  · rfl
  · split <;> rfl

/-- The reader of numbers sees the whole ones below its bound. -/
theorem views_natural {bound : Nat} (hbound : bound ≤ significandBound) :
    Views (Shape.natural bound).read (Shape.natural bound).canonical? := by
  refine views_of_skipBlanks (fun text => by
    simp only [Shape.read, readNatural, skipBlanks_skipBlanks]) ?_
  intro value c tail rest h hc hrest hskip
  have hread : ((Shape.natural bound).read (c :: (tail ++ rest))).toOption =
      if c.isDigit then
        ((scanNumber (c :: (tail ++ rest))).toOption.bind fun scanned =>
          scanned.1.map fun n => (n, scanned.2)).bind fun scanned =>
            if scanned.1 < bound then some (.natural scanned.1, scanned.2) else none
      else none := by
    simp only [Shape.read, readNatural, hskip, toOption_map]
    split
    · cases scanNumber (c :: (tail ++ rest)) with
      | error fault => rfl
      | ok scanned =>
        obtain ⟨number, after⟩ := scanned
        cases number with
        | none => rfl
        | some n => by_cases hn : n < bound <;> simp [hn, bind, Except.bind, Except.toOption]
    · rfl
  rw [hread]
  cases value with
  | natural n =>
    obtain ⟨negative, numeral, body, hbody, htext, hvalue⟩ := h
    unfold numberValue at hvalue
    split at hvalue
    · rename_i hnumber
      obtain ⟨rfl, hwhole⟩ := hnumber
      cases hvalue
      obtain rfl := htext
      have hscan := toOption_scanNumber hbody hrest
      rw [List.cons_append] at hscan
      have hdigit : c.isDigit = true := hc
      rw [hscan, if_pos hdigit]
      by_cases hn : digitsValue numeral.whole < bound
      · simp [hwhole, hn, Nat.lt_of_lt_of_le hn hbound, Shape.canonical?]
      · simp only [Shape.canonical?, hn, if_false]
        split <;> simp [hn]
    · cases hvalue
  | number spelling =>
    obtain ⟨negative, numeral, body, hbody, htext, hvalue⟩ := h
    unfold numberValue at hvalue
    split at hvalue
    · cases hvalue
    · rename_i hnumber
      cases negative with
      | true =>
        obtain rfl := (List.cons.inj htext).1
        rfl
      | false =>
        obtain rfl := htext
        have hscan := toOption_scanNumber hbody hrest
        have hwhole : ¬ numeral.isWhole = true := fun h => hnumber ⟨rfl, h⟩
        rw [List.cons_append] at hscan
        simp [hscan, hwhole, Shape.canonical?]
  | bool b =>
    cases b <;>
    · obtain rfl := of_decide_eq_true hc
      rfl
  | _ =>
    obtain rfl := of_decide_eq_true hc
    rfl

/-- A reader that takes `null` sees it, and otherwise what it sees without. -/
theorem views_nullable {whenNull : Value} {inner : Shape} (h : Views inner.read inner.canonical?) :
    Views (Shape.nullable whenNull inner).read (Shape.nullable whenNull inner).canonical? := by
  intro value lead text rest hlead hspelled hrest
  have hskip := skipBlanks_blank hlead (text ++ rest)
  have hinner := h blank_nil hspelled hrest
  obtain ⟨c, tail, rfl, hc⟩ := hspelled.eq_cons
  have hopen := skipBlanks_of_isOpening (Value.isOpening_of_beginsWith hc) (tail ++ rest)
  rw [List.cons_append, hopen] at hskip
  rw [List.nil_append, List.cons_append] at hinner
  simp only [Shape.read, readNullable, List.cons_append, hskip]
  split
  · rename_i after heq
    obtain ⟨rfl, rfl⟩ := List.cons.inj heq
    obtain rfl := Value.eq_null_of_beginsWith hc
    obtain rfl := (List.cons.inj hspelled).2
    rfl
  · rename_i hn
    have hvalue : (Shape.nullable whenNull inner).canonical? value = inner.canonical? value := by
      cases value with
      | null => exact absurd (congrArg (· :: (tail ++ rest)) (of_decide_eq_true hc)) (hn _)
      | _ => rfl
    rw [hvalue]
    exact hinner

/-- Behind the first member of an object stands its closing brace, or a comma. -/
theorem skipBlanks_members {members : List (String × Value)} {more : List Char}
    (h : MembersSpelled members false more) (rest : List Char) :
    if members.isEmpty then skipBlanks (more ++ '\x7d' :: rest) = '\x7d' :: rest
    else ∃ after, skipBlanks (more ++ '\x7d' :: rest) = ',' :: after := by
  cases members with
  | nil => exact skipBlanks_blank h _
  | cons member members =>
    obtain ⟨lead, name, colon, body, tail, hlead, -, -, -, -, rfl⟩ := h
    obtain ⟨before, after, hbefore, -, rfl⟩ := hlead
    exact ⟨_, by rw [List.append_assoc, List.append_assoc]; exact skipBlanks_blank hbefore _⟩

/-- The reader of a variant sees the texts that name one. -/
theorem views_variantName (variants : List String) :
    Views (readVariantName variants) fun value =>
      value.text?.bind fun s => if s ∈ variants then some (.text s) else none := by
  intro value lead text rest hlead h hrest
  have hread := views_readString hlead h hrest
  simp only [readVariantName, toOption_bind, hread]
  cases value.text? with
  | none => rfl
  | some s => by_cases hs : s ∈ variants <;> simp [hs, Except.toOption]

/-- A variant is read as the key of an object. -/
theorem readVariantKey_spelled {variants : List String} {key : String} {lead name : List Char}
    (hlead : Blank lead) (hname : Escapes key.toList name) (rest : List Char) :
    readVariantKey variants (lead ++ '"' :: (name ++ '"' :: rest)) =
      if key ∈ variants then .ok (.text key, rest) else .error .mismatch := by
  have hskip : ∀ text, skipBlanks (lead ++ '"' :: text) = '"' :: text := fun text =>
    (skipBlanks_blank hlead _).trans rfl
  simp [readVariantKey, readVariantName, hskip, readString_escapes hname, bind, Except.bind]

/-- An object is a variant when it holds nothing but the variant's name, bound to `null`. -/
theorem canonical?_choice_object (variants : List String) (key : String) (value : Value)
    (members : List (String × Value)) :
    (Shape.choice variants).canonical? (.object ((key, value) :: members)) =
      if key ∈ variants then
        if members.isEmpty then value.null?.map fun _ => .text key else none
      else none := by
  cases members with
  | nil => cases value <;> simp [Shape.canonical?, Value.null?]
  | cons member members => simp [Shape.canonical?]

/-- The reader of a choice sees a name alone, or one with `null` in an object. -/
theorem views_choice {variants : List String} :
    Views (Shape.choice variants).read (Shape.choice variants).canonical? := by
  refine views_of_skipBlanks (fun text => by
    simp only [Shape.read, readChoice, skipBlanks_skipBlanks]) ?_
  intro value c tail rest h hc hrest hskip
  by_cases hquote : c = '"'
  · subst hquote
    obtain ⟨s, rfl⟩ := Value.eq_text_of_beginsWith hc
    have hread := views_variantName variants blank_nil h hrest
    simp only [Shape.read, readChoice, hskip, if_true]
    exact hread
  by_cases hbrace : c = '\x7b'
  · subst hbrace
    obtain ⟨members, rfl⟩ := Value.eq_object_of_beginsWith hc
    obtain ⟨body, hbody, htext⟩ := h
    obtain rfl := (List.cons.inj htext).2
    simp only [List.append_assoc, List.singleton_append] at hskip ⊢
    simp only [Shape.read, readChoice, hskip, hquote, if_true, if_false]
    cases members with
    | nil =>
      have hclose : skipBlanks (body ++ '\x7d' :: rest) = '\x7d' :: rest := skipBlanks_blank hbody _
      simp only [readVariantKey, hclose]
      rfl
    | cons member members =>
      obtain ⟨key, value⟩ := member
      obtain ⟨lead, name, colon, spelled, more, hlead, hname, hcolon, hvalue, hmore, rfl⟩ := hbody
      obtain ⟨after, hafter, hexpect⟩ := hcolon.expectColon
      have hnull := views_readNull hafter hvalue (hmore.ended rest)
      have hmembers := skipBlanks_members hmore rest
      simp only [List.append_assoc, List.cons_append, readVariantKey_spelled hlead hname]
      rw [canonical?_choice_object]
      by_cases hkey : key ∈ variants
      · simp only [hkey, if_true, bind, Except.bind, hexpect]
        cases hvalue' : value.null? with
        | none =>
          rw [hvalue'] at hnull
          obtain ⟨fault, hread⟩ := exists_error_of_toOption hnull
          simp [hread, Except.toOption]
        | some found =>
          rw [hvalue'] at hnull
          have hread := eq_ok_of_toOption hnull
          simp only [hread]
          cases members with
          | nil =>
            have hclose : skipBlanks (more ++ '\x7d' :: rest) = '\x7d' :: rest := hmembers
            simp [hclose, Except.toOption]
          | cons member members =>
            obtain ⟨after', hcomma⟩ : ∃ after', skipBlanks (more ++ '\x7d' :: rest) = ',' :: after' :=
              hmembers
            simp [hcomma, Except.toOption]
      · simp [hkey, bind, Except.bind, Except.toOption]
  · have hnone : (Shape.choice variants).canonical? value = none := by
      cases value with
      | text s => exact absurd (of_decide_eq_true hc) hquote
      | object members => exact absurd (of_decide_eq_true hc) hbrace
      | _ => rfl
    rw [hnone]
    simp only [Shape.read, readChoice, hskip, hquote, hbrace, if_false]
    rfl

/-! ## Lists and tables -/

/-- Every item of a list takes a character. -/
theorem ItemsSpelled.length_le {items : List Value} {first : Bool} {text : List Char}
    (h : ItemsSpelled items first text) : items.length ≤ text.length := by
  induction items generalizing first text with
  | nil => exact Nat.zero_le _
  | cons item items ih =>
    obtain ⟨lead, body, more, -, hitem, hmore, rfl⟩ := h
    have hpos := hitem.length_pos
    have hmore' := ih hmore
    simp only [List.length_cons, List.length_append]
    omega

/-- Every member takes a character at least. -/
theorem MembersSpelled.length_le {members : List (String × Value)} {first : Bool}
    {text : List Char} (h : MembersSpelled members first text) :
    members.length ≤ text.length := by
  induction members generalizing first text with
  | nil => exact Nat.zero_le _
  | cons member members ih =>
    obtain ⟨lead, name, colon, body, more, -, -, -, -, hmore, rfl⟩ := h
    have hmore' := ih hmore
    simp only [List.length_cons, List.length_append]
    omega

/-- The items of a list are read one by one. -/
theorem views_readItems {inner : Shape} (hinner : Views inner.read inner.canonical?)
    {items : List Value} {first : Bool} {text : List Char} (h : ItemsSpelled items first text)
    (rest : List Char) (fuel : Nat) (hfuel : items.length < fuel) :
    (readItems inner.read fuel first (text ++ ']' :: rest)).toOption =
      (items.mapM inner.canonical?).map fun found => (found, rest) := by
  induction items generalizing first text fuel with
  | nil =>
    obtain ⟨fuel, rfl⟩ : ∃ n, fuel = n + 1 := ⟨fuel - 1, by simp at hfuel; omega⟩
    simp [readItems, nextElement_close_blank first h, bind, Except.bind, Except.toOption]
  | cons item items ih =>
    obtain ⟨fuel, rfl⟩ : ∃ n, fuel = n + 1 := ⟨fuel - 1, by simp at hfuel; omega⟩
    obtain ⟨lead, body, more, hlead, hitem, hmore, rfl⟩ := h
    have hread := hinner blank_nil hitem (hmore.ended rest)
    have hmore' := ih hmore fuel (by simpa using hfuel)
    obtain ⟨c, tail, rfl, hc⟩ := hitem.eq_cons
    have hnext := nextElement_lead hlead (Value.isOpening_of_beginsWith hc)
      (tail ++ (more ++ ']' :: rest))
    simp only [List.nil_append, List.append_assoc, List.cons_append] at hread hnext ⊢
    simp only [readItems, toOption_bind, hnext, toOption_ok, Option.bind_some, hread,
      List.mapM_cons]
    cases inner.canonical? item with
    | none => rfl
    | some found =>
      simp only [Option.map_some, Option.bind_some, hmore']
      cases items.mapM inner.canonical? <;> rfl

/-- The reader of a list sees what the reader of its items sees in all of them. -/
theorem views_list {inner : Shape} (hinner : Views inner.read inner.canonical?) :
    Views (Shape.list inner).read (Shape.list inner).canonical? := by
  refine views_of_skipBlanks (fun text => by
    simp only [Shape.read, readList, skipBlanks_skipBlanks]) ?_
  intro value c tail rest h hc hrest hskip
  by_cases hbracket : c = '['
  · subst hbracket
    obtain ⟨items, rfl⟩ := Value.eq_list_of_beginsWith hc
    obtain ⟨body, hbody, htext⟩ := h
    obtain rfl := (List.cons.inj htext).2
    simp only [List.append_assoc, List.singleton_append] at hskip ⊢
    have hlength := hbody.length_le
    have hitems := views_readItems hinner hbody rest ((body ++ ']' :: rest).length + 1)
      (by simp only [List.length_append]; omega)
    simp only [Shape.read, readList, hskip, toOption_bind, hitems]
    cases hfound : items.mapM inner.canonical? <;> simp [Shape.canonical?, hfound]
  · have hnone : (Shape.list inner).canonical? value = none := by
      cases value with
      | list items => exact absurd (of_decide_eq_true hc) hbracket
      | _ => rfl
    rw [hnone]
    simp only [Shape.read, readList, hskip]
    split
    · rename_i heq
      exact absurd (List.cons.inj heq).1 hbracket
    · rfl

/-- The members of a table are bound one by one, on top of what was bound before. -/
theorem toOption_readEntries {members : List (String × Value)} {first : Bool} {text : List Char}
    (h : MembersSpelled members first text) (table : Table) (rest : List Char) (fuel : Nat)
    (hfuel : members.length < fuel) :
    (readEntries fuel first table (text ++ '\x7d' :: rest)).toOption =
      (bindingsOf members).map fun entries =>
        (entries.foldl (fun table entry => table.insert entry.1 entry.2) table, rest) := by
  induction members generalizing first text table fuel with
  | nil =>
    obtain ⟨fuel, rfl⟩ : ∃ n, fuel = n + 1 := ⟨fuel - 1, by simp at hfuel; omega⟩
    simp [readEntries, nextMember_close_blank first h, bind, Except.bind, bindingsOf]
  | cons member members ih =>
    obtain ⟨fuel, rfl⟩ : ∃ n, fuel = n + 1 := ⟨fuel - 1, by simp at hfuel; omega⟩
    obtain ⟨key, value⟩ := member
    obtain ⟨lead, name, colon, body, more, hlead, hname, hcolon, hvalue, hmore, rfl⟩ := h
    obtain ⟨after, hafter, hexpect⟩ := hcolon.expectColon
    have hread := views_readString hafter hvalue (hmore.ended rest)
    have hmore' := fun table => ih hmore table fuel (by simpa using hfuel)
    simp only [List.append_assoc, List.cons_append]
    simp only [readEntries, toOption_bind, nextMember_lead hlead, hname.scanText, hexpect,
      toOption_ok, Option.bind_some, hread]
    cases value with
    | text s =>
      simp only [Value.text?, Option.map_some, Option.bind_some, hmore', bindingsOf, String.ofList_toList]
      cases bindingsOf members <;> simp
    | _ => simp [Value.text?, bindingsOf]

/-- The reader of a table sees the objects of texts. -/
theorem views_table : Views Shape.table.read Shape.table.canonical? := by
  refine views_of_skipBlanks (fun text => by
    simp only [Shape.read, readTable, skipBlanks_skipBlanks]) ?_
  intro value c tail rest h hc hrest hskip
  by_cases hbrace : c = '\x7b'
  · subst hbrace
    obtain ⟨members, rfl⟩ := Value.eq_object_of_beginsWith hc
    obtain ⟨body, hbody, htext⟩ := h
    obtain rfl := (List.cons.inj htext).2
    simp only [List.append_assoc, List.singleton_append] at hskip ⊢
    have hlength := hbody.length_le
    have hentries := toOption_readEntries hbody .empty rest ((body ++ '\x7d' :: rest).length + 1)
      (by simp only [List.length_append]; omega)
    simp only [Shape.read, readTable, hskip, toOption_map, hentries]
    cases hfound : bindingsOf members <;>
      simp [Shape.canonical?, tableOfMembers, hfound, Table.ofEntries]
  · have hnone : Shape.table.canonical? value = none := by
      cases value with
      | object members => exact absurd (of_decide_eq_true hc) hbrace
      | _ => rfl
    rw [hnone]
    simp only [Shape.read, readTable, hskip]
    split
    · rename_i heq
      exact absurd (List.cons.inj heq).1 hbrace
    · rfl

/-! ## Records -/

variable {fields : List (String × Absent × Shape)}

/-- What a record's object form is read to. -/
def recordOf (fields : List (String × Absent × Shape)) (members : List (String × Value)) :
    Option (List (String × Value)) :=
  if givenTwice (fields.map Prod.fst) members then none else canonicalMembers? fields members

/-- What is read for each field after some members. -/
def foundIn (fields : List (String × Absent × Shape)) (members : List (String × Value)) :
    List (Option Value) :=
  fields.map fun field => (memberOf members field.1).bind field.2.2.canonical?

/-- Every member that names a field has the field's shape, and none is given twice. -/
def Readable (fields : List (String × Absent × Shape)) (members : List (String × Value)) : Prop :=
  ∀ field ∈ fields, (members.filter fun member => member.1 = field.1).length ≤ 1 ∧
    ∀ value, memberOf members field.1 = some value → (field.2.2.canonical? value).isSome

/-- Nothing is wrong with no members. -/
theorem readable_nil : Readable fields [] := by
  intro field _
  simp [memberOf]

/-- The last member of a name after one more member. -/
theorem memberOf_append_singleton (members : List (String × Value)) (key name : String)
    (value : Value) : memberOf (members ++ [(key, value)]) name =
      if key = name then some value else memberOf members name := by
  simp [memberOf]

/-- When every member that names a field could be read, the missing fields are filled in. -/
theorem fillMissing_foundIn {members : List (String × Value)} (h : Readable fields members) :
    fillMissing (slotsOf fields) (foundIn fields members) = canonicalMembers? fields members := by
  induction fields with
  | nil => rfl
  | cons field fields ih =>
    obtain ⟨name, absent, shape⟩ := field
    have hrest := ih fun field hfield => h field (List.mem_cons_of_mem _ hfield)
    have hfirst := (h _ List.mem_cons_self).2
    simp only [slotsOf, foundIn, List.map_cons, fillMissing, canonicalMembers?, List.head?_cons,
      List.tail_cons] at hrest ⊢
    rw [hrest]
    cases hfound : memberOf members name with
    | none => rfl
    | some value =>
      obtain ⟨found, hread⟩ := Option.isSome_iff_exists.1 (hfirst value hfound)
      simp [hread]

/-- The last member of a name is the last of those that bear it. -/
theorem memberOf_eq_getLast? (members : List (String × Value)) (key : String) :
    memberOf members key =
      ((members.filter fun member => member.1 = key).getLast?).map Prod.snd := by
  induction members using List.reverseRecOn with
  | nil => rfl
  | append_singleton members member ih =>
    obtain ⟨name, value⟩ := member
    rw [memberOf_append_singleton, List.filter_append]
    by_cases hname : name = key <;> simp [hname, ih]

/-- A name is given twice when more than one member has it. -/
theorem givenTwice_iff (names : List String) (members : List (String × Value)) :
    givenTwice names members = true ↔
      ∃ name ∈ names, 1 < (members.filter fun member => member.1 = name).length := by
  simp [givenTwice]

/-- A record that holds no member twice is read field by field. -/
theorem recordOf_of_readable {members : List (String × Value)} (h : Readable fields members) :
    recordOf fields members = canonicalMembers? fields members := by
  refine if_neg fun htwice => ?_
  obtain ⟨name, hname, hlength⟩ := (givenTwice_iff _ _).1 htwice
  obtain ⟨field, hfield, rfl⟩ := List.mem_map.1 hname
  have hle := (h field hfield).1
  omega

/-- A member of another form than its field asks for fails the record. -/
theorem canonicalMembers?_eq_none {members : List (String × Value)} {field : String × Absent × Shape}
    (hfield : field ∈ fields) {value : Value} (hvalue : memberOf members field.1 = some value)
    (hnone : field.2.2.canonical? value = none) : canonicalMembers? fields members = none := by
  induction fields with
  | nil => cases hfield
  | cons first fields ih =>
    obtain ⟨name, absent, shape⟩ := first
    rcases List.mem_cons.1 hfield with rfl | hfield
    · simp only [canonicalMembers?, hvalue, hnone]
      rfl
    · simp only [canonicalMembers?, ih hfield]
      cases memberOf members name with
      | none => cases absent.orMissing shape <;> rfl
      | some first => cases hfirst : shape.canonical? first <;> simp [hfirst]

/-- The field of a name is found in its place. -/
theorem findSlot_slotsOf (key : String) (fields : List (String × Absent × Shape)) :
    match findSlot key (slotsOf fields) with
    | none => ∀ field ∈ fields, field.1 ≠ key
    | some (place, slot) =>
      ∃ absent shape, fields[place]? = some (key, absent, shape) ∧ slot.read = shape.read := by
  induction fields with
  | nil => intro field hfield; cases hfield
  | cons field fields ih =>
    obtain ⟨name, absent, shape⟩ := field
    simp only [slotsOf, findSlot]
    by_cases hname : name = key
    · simp [hname]
    · rw [if_neg hname]
      cases hfind : findSlot key (slotsOf fields) with
      | none =>
        rw [hfind] at ih
        intro field hfield
        rcases List.mem_cons.1 hfield with rfl | hfield
        · exact hname
        · exact ih field hfield
      | some found =>
        rw [hfind] at ih
        exact ih

/-- A member that names no field changes nothing that was read. -/
theorem foundIn_append_unknown {members : List (String × Value)} {key : String} {value : Value}
    (h : ∀ field ∈ fields, field.1 ≠ key) :
    foundIn fields (members ++ [(key, value)]) = foundIn fields members := by
  refine List.map_congr_left fun field hfield => ?_
  rw [memberOf_append_singleton, if_neg (h field hfield).symm]

/-- A member that names no field is passed over. -/
theorem Readable.append_unknown {members : List (String × Value)} {key : String}
    (hmembers : Readable fields members) (value : Value) (h : ∀ field ∈ fields, field.1 ≠ key) :
    Readable fields (members ++ [(key, value)]) := by
  intro field hfield
  have hkey := (h field hfield).symm
  have hfield' := hmembers field hfield
  rw [memberOf_append_singleton, if_neg hkey, List.filter_append]
  simpa [hkey] using hfield'

/-- A name tells the place of its field. -/
theorem place_unique (hnodup : (fields.map Prod.fst).Nodup) {i j : Nat}
    {field other : String × Absent × Shape} (hi : fields[i]? = some field)
    (hj : fields[j]? = some other) (h : field.1 = other.1) : i = j := by
  obtain ⟨hlt, -⟩ := List.getElem?_eq_some_iff.1 hi
  refine (List.getElem?_inj (by simpa using hlt) hnodup).1 ?_
  simp [hi, hj, h]

/-- A member that names a field for the first time takes the field's place. -/
theorem foundIn_append_known {members : List (String × Value)} {place : Nat} {key : String}
    {absent : Absent} {shape : Shape} {value found : Value} (hnodup : (fields.map Prod.fst).Nodup)
    (hplace : fields[place]? = some (key, absent, shape)) (hfound : shape.canonical? value = some found) :
    foundIn fields (members ++ [(key, value)]) =
      (foundIn fields members).set place (some found) := by
  refine List.ext_getElem? fun i => ?_
  obtain ⟨hlt, -⟩ := List.getElem?_eq_some_iff.1 hplace
  simp only [foundIn, List.getElem?_map, List.getElem?_set, List.length_map, hlt, if_true]
  by_cases hi : place = i
  · subst hi
    simp [hplace, memberOf_append_singleton, hfound]
  · rw [if_neg hi]
    cases hfield : fields[i]? with
    | none => rfl
    | some field =>
      have hname : key ≠ field.1 := fun h => hi (place_unique hnodup hplace hfield h)
      simp only [Option.map_some, memberOf_append_singleton, if_neg hname]

/-- A member of a new field is read as its shape says. -/
theorem Readable.append_known {members : List (String × Value)} {place : Nat} {key : String}
    {absent : Absent} {shape : Shape} {value found : Value} (hmembers : Readable fields members)
    (hnodup : (fields.map Prod.fst).Nodup)
    (hplace : fields[place]? = some (key, absent, shape)) (hnew : memberOf members key = none)
    (hfound : shape.canonical? value = some found) :
    Readable fields (members ++ [(key, value)]) := by
  intro field hfield
  have hfield' := hmembers field hfield
  rw [memberOf_append_singleton, List.filter_append]
  by_cases hkey : key = field.1
  · obtain ⟨i, hi⟩ := List.mem_iff_getElem?.1 hfield
    obtain rfl := place_unique hnodup hplace hi hkey
    obtain rfl := Option.some.inj (hplace.symm.trans hi)
    rw [memberOf_eq_getLast?, Option.map_eq_none_iff, List.getLast?_eq_none_iff] at hnew
    simp [hnew, hfound]
  · simpa [hkey] using hfield'

/-- A record fails when a member that names a field was given before. -/
theorem recordOf_eq_none_of_again {members more : List (String × Value)} {key : String}
    {value : Value} (hkey : key ∈ fields.map Prod.fst) (hold : memberOf members key ≠ none) :
    recordOf fields (members ++ (key, value) :: more) = none := by
  refine if_pos ((givenTwice_iff _ _).2 ⟨key, hkey, ?_⟩)
  rw [memberOf_eq_getLast?, Ne, Option.map_eq_none_iff, List.getLast?_eq_none_iff] at hold
  have hpos := List.length_pos_iff.2 hold
  simp only [List.filter_append, List.filter_cons, decide_true, if_true, List.length_append,
    List.length_cons]
  omega

/-- A record fails when a member that names a field does not have the field's shape. -/
theorem recordOf_eq_none_of_other {members more : List (String × Value)}
    {field : String × Absent × Shape} {value : Value} (hfield : field ∈ fields)
    (hnone : field.2.2.canonical? value = none) :
    recordOf fields (members ++ (field.1, value) :: more) = none := by
  cases htwice : givenTwice (fields.map Prod.fst) (members ++ (field.1, value) :: more) with
  | true => simp [recordOf, htwice]
  | false =>
    -- The member is the only one of its name, so it is the one that is looked at.
    have hlength : ¬ 1 < ((members ++ (field.1, value) :: more).filter
        fun member => member.1 = field.1).length := fun h =>
      absurd ((givenTwice_iff _ _).2 ⟨_, List.mem_map_of_mem hfield, h⟩) (by simp [htwice])
    simp only [List.filter_append, List.filter_cons, decide_true, if_true, List.length_append,
      List.length_cons] at hlength
    have hmember : memberOf (members ++ (field.1, value) :: more) field.1 = some value := by
      have hmembers : members.filter (fun member => member.1 = field.1) = [] :=
        List.length_eq_zero_iff.1 (by omega)
      have hmore : more.filter (fun member => member.1 = field.1) = [] :=
        List.length_eq_zero_iff.1 (by omega)
      rw [memberOf_eq_getLast?]
      simp [List.filter_append, hmembers, hmore]
    simp only [recordOf, htwice, Bool.false_eq_true, if_false]
    exact canonicalMembers?_eq_none hfield hmember hnone

/-- **The members of a record are read in any order**, after those that were read
before, and members that name no field are passed over. -/
theorem toOption_readMembers
    (hviews : ∀ field ∈ fields, Views field.2.2.read field.2.2.canonical?)
    (hnodup : (fields.map Prod.fst).Nodup) {members : List (String × Value)} {first : Bool}
    {text : List Char} (h : MembersSpelled members first text) {done : List (String × Value)}
    (hdone : Readable fields done) (rest : List Char) (fuel : Nat)
    (hfuel : members.length < fuel) :
    (readMembers (slotsOf fields) fuel first (foundIn fields done) (text ++ '\x7d' :: rest)).toOption =
      (recordOf fields (done ++ members)).map fun record => (record, rest) := by
  induction members generalizing first text done fuel with
  | nil =>
    obtain ⟨fuel, rfl⟩ : ∃ n, fuel = n + 1 := ⟨fuel - 1, by simp at hfuel; omega⟩
    simp only [readMembers, toOption_bind, nextMember_close_blank first h, toOption_ok,
      Option.bind_some, fillMissing_foundIn hdone, List.append_nil, recordOf_of_readable hdone]
    cases canonicalMembers? fields done <;> rfl
  | cons member members ih =>
    obtain ⟨fuel, rfl⟩ : ∃ n, fuel = n + 1 := ⟨fuel - 1, by simp at hfuel; omega⟩
    obtain ⟨key, value⟩ := member
    obtain ⟨lead, name, colon, body, more, hlead, hname, hcolon, hvalue, hmore, rfl⟩ := h
    obtain ⟨after, hafter, hexpect⟩ := hcolon.expectColon
    have hfuel' : members.length < fuel := by simpa using hfuel
    have happend : done ++ (key, value) :: members = (done ++ [(key, value)]) ++ members := by simp
    have hfind := findSlot_slotsOf key fields
    simp only [List.append_assoc, List.cons_append]
    simp only [readMembers, toOption_bind, nextMember_lead hlead, hname.scanText,
      toOption_ok, Option.bind_some, String.ofList_toList]
    cases hslot : findSlot key (slotsOf fields) with
    | none =>
      rw [hslot] at hfind
      have hskip := skipValue_spelled hafter hvalue (hmore.ended rest)
      have hmore' := ih hmore (hdone.append_unknown value hfind) fuel hfuel'
      rw [foundIn_append_unknown hfind] at hmore'
      simp only [toOption_bind, hexpect, toOption_ok, Option.bind_some, hskip, hmore', happend]
    | some found =>
      obtain ⟨place, slot⟩ := found
      rw [hslot] at hfind
      obtain ⟨absent, shape, hplace, hread⟩ := hfind
      have hfield := List.mem_of_getElem? hplace
      have hold : (foundIn fields done)[place]?.join = (memberOf done key).bind shape.canonical? := by
        simp [foundIn, hplace]
      cases hgiven : memberOf done key with
      | some given =>
        have hsome : ((memberOf done key).bind shape.canonical?).isSome = true := by
          rw [hgiven]
          exact (hdone _ hfield).2 given hgiven
        rw [recordOf_eq_none_of_again (List.mem_map_of_mem hfield) (by simp [hgiven])]
        simp only [hold, hsome, if_true]
        rfl
      | none =>
        have hviewed := hviews _ hfield hafter hvalue (hmore.ended rest)
        simp only [hold, hgiven, Option.bind_none, Option.isSome_none, Bool.false_eq_true, if_false,
          toOption_bind, hexpect, toOption_ok, Option.bind_some, hread, hviewed]
        cases hcanonical : shape.canonical? value with
        | none =>
          rw [recordOf_eq_none_of_other hfield hcanonical]
          rfl
        | some found =>
          have hmore' := ih hmore
            (hdone.append_known hnodup hplace hgiven hcanonical) fuel hfuel'
          rw [foundIn_append_known hnodup hplace hcanonical] at hmore'
          simp only [Option.map_some, Option.bind_some, hmore', happend]

/-- A list that has no room for further items is closed, or the reading fails. -/
theorem toOption_closeList {items : List Value} {first : Bool} {text : List Char}
    (h : ItemsSpelled items first text) (rest : List Char) :
    (closeList (text ++ ']' :: rest)).toOption = if items.isEmpty then some rest else none := by
  cases items with
  | nil =>
    have hclose : skipBlanks (text ++ ']' :: rest) = ']' :: rest := skipBlanks_blank h _
    simp [closeList, hclose]
  | cons item items =>
    obtain ⟨lead, body, more, hlead, hitem, hmore, rfl⟩ := h
    obtain ⟨c, after, hskip, hc⟩ : ∃ c after,
        skipBlanks (lead ++ (body ++ (more ++ ']' :: rest))) = c :: after ∧ c ≠ ']' := by
      cases first with
      | true =>
        obtain ⟨c, tail, rfl, hc⟩ := hitem.eq_cons
        have hopen := Value.isOpening_of_beginsWith hc
        refine ⟨c, _, (skipBlanks_blank hlead _).trans (skipBlanks_of_isOpening hopen _), ?_⟩
        rintro rfl
        exact absurd hopen (by decide)
      | false =>
        obtain ⟨before, after, hbefore, -, rfl⟩ := hlead
        refine ⟨',', after ++ (body ++ (more ++ ']' :: rest)), ?_, by decide⟩
        rw [List.append_assoc, List.cons_append]
        exact skipBlanks_blank hbefore _
    simp only [List.append_assoc, closeList, hskip, if_neg hc]
    rfl

/-- The fields that a list leaves out are filled in. -/
theorem fillTrailing_slotsOf (fields : List (String × Absent × Shape)) :
    fillTrailing (slotsOf fields) = canonicalItems? fields [] := by
  induction fields with
  | nil => rfl
  | cons field fields ih =>
    obtain ⟨name, absent, shape⟩ := field
    simp only [slotsOf, fillTrailing, canonicalItems?, ih]

/-- **The items of a record are read in the order of its fields.** -/
theorem toOption_readFields
    (hviews : ∀ field ∈ fields, Views field.2.2.read field.2.2.canonical?) {items : List Value}
    {first : Bool} {text : List Char} (h : ItemsSpelled items first text) (rest : List Char) :
    (readFields (slotsOf fields) first (text ++ ']' :: rest)).toOption =
      (canonicalItems? fields items).map fun record => (record, rest) := by
  induction fields generalizing items first text with
  | nil =>
    have hclose := toOption_closeList h rest
    simp only [slotsOf, readFields, toOption_bind, hclose]
    cases items <;> rfl
  | cons field fields ih =>
    have htrailing := fillTrailing_slotsOf (field :: fields)
    obtain ⟨name, absent, shape⟩ := field
    simp only [slotsOf] at htrailing
    cases items with
    | nil =>
      simp only [slotsOf, readFields, toOption_bind, nextElement_close_blank first h, toOption_ok,
        Option.bind_some, htrailing]
      cases canonicalItems? ((name, absent, shape) :: fields) [] <;> rfl
    | cons item items =>
      obtain ⟨lead, body, more, hlead, hitem, hmore, rfl⟩ := h
      have hread := hviews _ List.mem_cons_self blank_nil hitem (hmore.ended rest)
      have hmore' := ih (fun field hfield => hviews field (List.mem_cons_of_mem _ hfield)) hmore
      obtain ⟨c, tail, rfl, hc⟩ := hitem.eq_cons
      have hnext := nextElement_lead hlead (Value.isOpening_of_beginsWith hc)
        (tail ++ (more ++ ']' :: rest))
      simp only [List.nil_append, List.append_assoc, List.cons_append] at hread hnext ⊢
      simp only [slotsOf, readFields, toOption_bind, hnext, toOption_ok, Option.bind_some, hread,
        canonicalItems?]
      cases shape.canonical? item with
      | none => rfl
      | some found =>
        simp only [Option.map_some, Option.bind_some, hmore']
        cases canonicalItems? fields items <;> rfl

/-- The reader of a record sees what its fields see in the members, or the items, that are theirs.
-/
theorem views_record (hviews : ∀ field ∈ fields, Views field.2.2.read field.2.2.canonical?)
    (hnodup : (fields.map Prod.fst).Nodup) :
    Views (Shape.record fields).read (Shape.record fields).canonical? := by
  refine views_of_skipBlanks (fun text => by
    simp only [Shape.read, readRecord, skipBlanks_skipBlanks]) ?_
  intro value c tail rest h hc hrest hskip
  by_cases hbrace : c = '\x7b'
  · subst hbrace
    obtain ⟨members, rfl⟩ := Value.eq_object_of_beginsWith hc
    obtain ⟨body, hbody, htext⟩ := h
    obtain rfl := (List.cons.inj htext).2
    simp only [List.append_assoc, List.singleton_append] at hskip ⊢
    have hlength := hbody.length_le
    have hstart : List.replicate (slotsOf fields).length none = foundIn fields [] := by
      have hnames := congrArg List.length (map_name_slotsOf fields)
      simp only [List.length_map] at hnames
      simp [foundIn, memberOf, hnames, List.map_const']
    have hmembers := toOption_readMembers hviews hnodup hbody readable_nil rest ((body ++ '\x7d' :: rest).length + 1)
      (by simp only [List.length_append]; omega)
    simp only [Shape.read, readRecord, hskip, toOption_bind, hstart, hmembers, List.nil_append,
      Shape.canonical?]
    unfold recordOf
    cases givenTwice (fields.map Prod.fst) members <;>
      cases canonicalMembers? fields members <;> rfl
  by_cases hbracket : c = '['
  · subst hbracket
    obtain ⟨items, rfl⟩ := Value.eq_list_of_beginsWith hc
    obtain ⟨body, hbody, htext⟩ := h
    obtain rfl := (List.cons.inj htext).2
    simp only [List.append_assoc, List.singleton_append] at hskip ⊢
    have hitems := toOption_readFields hviews hbody rest
    simp only [Shape.read, readRecord, hskip, toOption_bind, hitems, Shape.canonical?]
    cases canonicalItems? fields items <;> rfl
  · have hnone : (Shape.record fields).canonical? value = none := by
      cases value with
      | object members => exact absurd (of_decide_eq_true hc) hbrace
      | list items => exact absurd (of_decide_eq_true hc) hbracket
      | _ => rfl
    rw [hnone]
    simp only [Shape.read, readRecord, hskip]
    split
    · rename_i heq
      exact absurd (List.cons.inj heq).1 hbrace
    · rename_i heq
      exact absurd (List.cons.inj heq).1 hbracket
    · rfl

/-! ## Documents of any shape -/

mutual
/-- The shapes that types have: the fields of a record bear different names, and a
bound on whole numbers is one that their reader can tell. -/
def Shape.Proper : Shape → Prop
  | .natural bound => bound ≤ significandBound
  | .nullable _ inner => inner.Proper
  | .list inner => inner.Proper
  | .record fields => (fields.map Prod.fst).Nodup ∧ FieldsProper fields
  | _ => True
termination_by structural shape => shape

/-- The shapes of a record's fields are proper. -/
def FieldsProper : List (String × Absent × Shape) → Prop
  | [] => True
  | (_, _, shape) :: fields => shape.Proper ∧ FieldsProper fields
termination_by structural fields => fields
end

mutual
/-- **Reading under a shape looks at a document as the shape does.** -/
theorem Shape.views (shape : Shape) (h : shape.Proper) : Views shape.read shape.canonical? := by
  match shape, h with
  | .text, _ => exact views_text
  | .flag, _ => exact views_flag
  | .natural bound, h => exact views_natural h
  | .instant, _ => exact views_instant
  | .choice variants, _ => exact views_choice
  | .nullable whenNull inner, h => exact views_nullable (inner.views h)
  | .list inner, h => exact views_list (inner.views h)
  | .table, _ => exact views_table
  | .record fields, h => exact views_record (fields_views fields h.2) h.1

/-- The fields of a record look at documents as their shapes do. -/
theorem fields_views (fields : List (String × Absent × Shape)) (h : FieldsProper fields) :
    ∀ field ∈ fields, Views field.2.2.read field.2.2.canonical? := by
  match fields, h with
  | [], _ =>
    intro field hfield
    cases hfield
  | (name, absent, shape) :: fields, h =>
    intro field hfield
    rcases List.mem_cons.1 hfield with rfl | hfield
    · exact shape.views h.1
    · exact fields_views fields h.2 field hfield
end

/-- A whole text is read under a shape to what its document looks like under it. -/
theorem Shape.toOption_readAll {shape : Shape} (h : shape.Proper) {text : List Char} {value : Value}
    (hdenotes : Denotes text value) : (shape.readAll text).toOption = shape.canonical? value := by
  obtain ⟨lead, body, trail, hlead, hbody, htrail, rfl⟩ := hdenotes
  have hended : Ended trail := by
    have happend := Ended.blank_append htrail ended_nil
    rwa [List.append_nil] at happend
  have hread := shape.views h hlead hbody hended
  rw [Shape.readAll, toOption_bind, hread]
  cases shape.canonical? value with
  | none => rfl
  | some found =>
    simp only [Option.map_some, Option.bind_some, skipBlanks_eq_nil htrail]
    rfl

/-- **Reading a text as a value is reading its document and looking at it.** -/
theorem toOption_decode {α : Type} [Codec α] (h : (Codec.shape α).Proper) {text : String}
    {value : Value} (hdenotes : Denotes text.toList value) :
    (decode text : Except Fault α).toOption = fromValue? value := by
  have hread := Shape.toOption_readAll h hdenotes
  rw [decode, toOption_bind, hread, fromValue?]
  cases (Codec.shape α).canonical? value with
  | none => rfl
  | some found =>
    simp only [Option.bind_some]
    cases (ofValue found : Option α) <;> rfl

end Json
end Reconciliation
