/-
# Documents that a type cannot tell apart

The object of a record may give its members in any order, and members that name no field
are passed over, at the top of a document and inside of it.  `Shape.Rearranged` says which
documents differ in nothing else, and they look the same under their shape
(`Shape.Rearranged.canonical?_eq`, along the rules of the relation).

With what is known of reading texts it follows that a type which writes canonical documents
is `Faithful`: a text that it writes denotes the document, is read back as the value, and
may be rearranged.
-/

import Mathlib.Data.List.Nodup
import Reconciliation.Proofs.Json.Shaped

namespace Reconciliation
namespace Json

/-! ## Rearranging documents -/

/-- The documents differ in the order of members, or in members that name no field, in the
objects of records.  A member and its value can be brought to the front first, so the rules
about single members look at the first one. -/
inductive Shape.Rearranged : Shape → Value → Value → Prop
  | refl (shape : Shape) (value : Value) : Rearranged shape value value
  | symm {shape value value'} (h : Rearranged shape value value') :
      Rearranged shape value' value
  | trans {shape value value' value''} (h : Rearranged shape value value')
      (h' : Rearranged shape value' value'') : Rearranged shape value value''
  /-- The members of an object stand in another order. -/
  | permuted {fields members members'} (h : List.Perm members members') :
      Rearranged (.record fields) (.object members) (.object members')
  /-- A member that names no field is added. -/
  | added {fields members key value} (h : key ∉ fields.map Prod.fst) :
      Rearranged (.record fields) (.object members) (.object ((key, value) :: members))
  /-- The value of a field is rearranged. -/
  | member {fields name absent shape value value' members}
      (hfield : (name, absent, shape) ∈ fields) (h : Rearranged shape value value') :
      Rearranged (.record fields) (.object ((name, value) :: members))
        (.object ((name, value') :: members))
  /-- The value of a field is rearranged in a record that is given as a list. -/
  | position {fields name absent shape before value value' after}
      (hfield : fields[before.length]? = some (name, absent, shape))
      (h : Rearranged shape value value') :
      Rearranged (.record fields) (.list (before ++ value :: after))
        (.list (before ++ value' :: after))
  /-- An item of a list is rearranged. -/
  | item {inner before value value' after} (h : Rearranged inner value value') :
      Rearranged (.list inner) (.list (before ++ value :: after))
        (.list (before ++ value' :: after))
  | nullable {whenNull inner value value'} (h : Rearranged inner value value') :
      Rearranged (.nullable whenNull inner) value value'

/-! ## Looking at rearranged documents -/

/-- What a record takes for a field. -/
def fieldIn (members : List (String × Value)) (field : String × Absent × Shape) : Option Value :=
  match memberOf members field.1 with
  | some value => field.2.2.canonical? value
  | none => field.2.1.orMissing field.2.2

variable {fields : List (String × Absent × Shape)} {members members' : List (String × Value)}

theorem canonicalMembers?_cons (field : String × Absent × Shape) :
    canonicalMembers? (field :: fields) members =
      (fieldIn members field).bind fun value =>
        (canonicalMembers? fields members).bind fun rest => some ((field.1, value) :: rest) := by
  obtain ⟨name, absent, shape⟩ := field
  simp only [canonicalMembers?, fieldIn]
  cases memberOf members name <;> rfl

/-- A record is made of what it takes for its fields. -/
theorem canonicalMembers?_congr
    (h : ∀ field ∈ fields, fieldIn members field = fieldIn members' field) :
    canonicalMembers? fields members = canonicalMembers? fields members' := by
  induction fields with
  | nil => rfl
  | cons field fields ih =>
    rw [canonicalMembers?_cons, canonicalMembers?_cons, h field List.mem_cons_self,
      ih fun field hfield => h field (List.mem_cons_of_mem _ hfield)]

theorem canonical?_object (fields : List (String × Absent × Shape))
    (members : List (String × Value)) :
    (Shape.record fields).canonical? (.object members) = (recordOf fields members).map .object := by
  simp only [Shape.canonical?, recordOf]
  split <;> rfl

/-- A record reads its fields only if each name is given once, and only members that bear the
name of a field count. -/
theorem recordOf_congr
    (hlength : ∀ name ∈ fields.map Prod.fst, (members.filter fun member => member.1 = name).length =
      (members'.filter fun member => member.1 = name).length)
    (hfields : ∀ field ∈ fields, (members.filter fun member => member.1 = field.1).length ≤ 1 →
      fieldIn members field = fieldIn members' field) :
    recordOf fields members = recordOf fields members' := by
  have htwice : givenTwice (fields.map Prod.fst) members' =
      givenTwice (fields.map Prod.fst) members := by
    rw [Bool.eq_iff_iff, givenTwice_iff, givenTwice_iff]
    refine exists_congr fun name => and_congr_right fun hname => ?_
    rw [hlength name hname]
  rw [recordOf, recordOf, htwice]
  cases hgiven : givenTwice (fields.map Prod.fst) members with
  | true => rfl
  | false =>
    refine canonicalMembers?_congr fun field hfield => hfields field hfield ?_
    by_contra hmore
    have hsome := (givenTwice_iff _ _).2
      ⟨field.1, List.mem_map_of_mem hfield, Nat.lt_of_not_le hmore⟩
    rw [hgiven] at hsome
    cases hsome

/-- Members of other names do not count. -/
theorem fieldIn_congr {field : String × Absent × Shape}
    (h : (members.filter fun member => member.1 = field.1) =
      members'.filter fun member => member.1 = field.1) :
    fieldIn members field = fieldIn members' field := by
  rw [fieldIn, fieldIn, memberOf_eq_getLast?, memberOf_eq_getLast?, h]

theorem eq_of_perm_of_length_le_one {α : Type} {l l' : List α} (h : l.Perm l')
    (hlength : l.length ≤ 1) : l = l' := by
  match l, hlength with
  | [], _ => exact (List.nil_perm.1 h).symm
  | [a], _ => exact List.singleton_perm.1 h

/-- A record does not look at the order of its members. -/
theorem recordOf_perm (h : members.Perm members') :
    recordOf fields members = recordOf fields members' := by
  have hfilter := fun name : String => h.filter fun member => member.1 = name
  exact recordOf_congr (fun name _ => (hfilter name).length_eq) fun field _ hlength =>
    fieldIn_congr (eq_of_perm_of_length_le_one (hfilter field.1) hlength)

/-- A record passes over members that name no field. -/
theorem recordOf_cons_unknown {key : String} (h : key ∉ fields.map Prod.fst) (value : Value) :
    recordOf fields members = recordOf fields ((key, value) :: members) := by
  have hfilter : ∀ name ∈ fields.map Prod.fst, (members.filter fun member => member.1 = name) =
      ((key, value) :: members).filter fun member => member.1 = name := by
    rintro name hname
    rw [List.filter_cons_of_neg]
    simp only [decide_eq_true_eq]
    rintro rfl
    exact h hname
  exact recordOf_congr (fun name hname => congrArg List.length (hfilter name hname))
    fun field hfield _ => fieldIn_congr (hfilter _ (List.mem_map_of_mem hfield))

/-- A record looks at the value of a field as the field's shape does. -/
theorem recordOf_cons_known (hnodup : (fields.map Prod.fst).Nodup) {name : String}
    {absent : Absent} {shape : Shape} (hfield : (name, absent, shape) ∈ fields)
    {value value' : Value} (h : shape.canonical? value = shape.canonical? value') :
    recordOf fields ((name, value) :: members) = recordOf fields ((name, value') :: members) := by
  have hlength : ∀ key : String, (((name, value) :: members).filter
      fun member => member.1 = key).length =
        (((name, value') :: members).filter fun member => member.1 = key).length := by
    intro key
    simp only [List.filter_cons]
    split <;> rfl
  refine recordOf_congr (fun key _ => hlength key) fun field hother honce => ?_
  by_cases hkey : name = field.1
  · obtain rfl : field = (name, absent, shape) := by
      exact List.inj_on_of_nodup_map hnodup hother hfield hkey.symm
    -- The name is given once, so no later member takes the place of this one.
    have hmembers : members.filter (fun member => member.1 = name) = [] := by
      simpa using honce
    have hmember : ∀ value, memberOf ((name, value) :: members) name = some value := by
      intro value
      rw [memberOf_eq_getLast?]
      simp [hmembers]
    simp only [fieldIn, hmember, h]
  · exact fieldIn_congr (by simp [hkey])

/-- A record that is given as a list looks at each item as the field's shape does. -/
theorem canonicalItems?_congr {before after : List Value} {name : String} {absent : Absent}
    {shape : Shape} (hfield : fields[before.length]? = some (name, absent, shape))
    {value value' : Value} (h : shape.canonical? value = shape.canonical? value') :
    canonicalItems? fields (before ++ value :: after) =
      canonicalItems? fields (before ++ value' :: after) := by
  induction before generalizing fields with
  | nil =>
    cases fields with
    | nil => cases hfield
    | cons field fields =>
      obtain rfl := Option.some.inj hfield
      simp only [List.nil_append, canonicalItems?, h]
  | cons item before ih =>
    cases fields with
    | nil => cases hfield
    | cons field fields =>
      obtain ⟨_, _, _⟩ := field
      simp only [List.cons_append, canonicalItems?, ih hfield]

theorem canonical?_nullable_of_ne {whenNull : Value} {inner : Shape} {value : Value}
    (h : value ≠ .null) :
    (Shape.nullable whenNull inner).canonical? value = inner.canonical? value := by
  cases value <;> first | rfl | exact absurd rfl h

/-- Only `null` is rearranged to `null`. -/
theorem Shape.Rearranged.eq_null_iff {shape : Shape} {value value' : Value}
    (h : shape.Rearranged value value') : value = .null ↔ value' = .null := by
  induction h with
  | refl => rfl
  | symm _ ih => exact ih.symm
  | trans _ _ ih ih' => exact ih.trans ih'
  | nullable _ ih => exact ih
  | permuted | added | member | position | item => exact ⟨nofun, nofun⟩

theorem FieldsProper.of_mem (h : FieldsProper fields) {name : String} {absent : Absent}
    {shape : Shape} (hfield : (name, absent, shape) ∈ fields) : shape.Proper := by
  induction fields with
  | nil => cases hfield
  | cons field fields ih =>
    rcases List.mem_cons.1 hfield with rfl | hfield
    · exact h.1
    · exact ih h.2 hfield

/-- **Rearranged documents look the same under their shape.** -/
theorem Shape.Rearranged.canonical?_eq {shape : Shape} {value value' : Value}
    (h : shape.Rearranged value value') (hproper : shape.Proper) :
    shape.canonical? value = shape.canonical? value' := by
  induction h with
  | refl => rfl
  | symm _ ih => exact (ih hproper).symm
  | trans _ _ ih ih' => exact (ih hproper).trans (ih' hproper)
  | permuted hperm => rw [canonical?_object, canonical?_object, recordOf_perm hperm]
  | added hkey =>
    rw [canonical?_object, canonical?_object, recordOf_cons_unknown hkey]
  | member hfield _ ih =>
    rw [canonical?_object, canonical?_object,
      recordOf_cons_known hproper.1 hfield (ih (hproper.2.of_mem hfield))]
  | position hfield _ ih =>
    have hmem := List.mem_of_getElem? hfield
    simp only [canonical?, canonicalItems?_congr hfield (ih (hproper.2.of_mem hmem))]
  | item _ ih =>
    simp only [canonical?, List.mapM_append, List.mapM_cons, ih hproper]
  | @nullable whenNull inner value value' h ih =>
    by_cases hnull : value = .null
    · rw [hnull, h.eq_null_iff.1 hnull]
    · rw [canonical?_nullable_of_ne hnull,
        canonical?_nullable_of_ne fun hnull' => hnull (h.eq_null_iff.2 hnull'), ih hproper]

/-! ## What is written denotes the document -/

theorem escapes_flatMap (content : List Char) : Escapes content (content.flatMap escapeChar) := by
  obtain ⟨body, hbody, hescapes⟩ := exists_escapes (scanText_flatMap content [])
  rwa [← List.append_cancel_right hbody] at hescapes

theorem numberSpelled_decimal (n : Nat) :
    NumberSpelled (.natural n) (decimal n) := by
  have hdigits : Digits (decimal n) := ⟨Nat.toDigits_ne_nil, fun _ => isDigit_of_mem_decimal⟩
  refine ⟨false, ⟨decimal n, none, none⟩, decimal n, ⟨⟨hdigits, fun _ => decimal_eq_zero_cons⟩,
    [], [], rfl, rfl, (List.append_nil _).symm⟩, rfl, ?_⟩
  simp [numberValue, Numeral.isWhole]

theorem lead_separator (first : Bool) : Lead first (if first then [] else [',']) := by
  cases first with
  | true => exact blank_nil
  | false => exact ⟨[], [], blank_nil, blank_nil, rfl⟩

theorem itemsSpelled_itemsText {items : List Value}
    (h : ∀ item ∈ items, item.Spelled item.print) (first : Bool) :
    ItemsSpelled items first (itemsText first items) := by
  induction items generalizing first with
  | nil => cases first <;> exact blank_nil
  | cons item items ih =>
    refine ⟨_, item.print, itemsText false items, lead_separator first, h item List.mem_cons_self,
      ih (fun item hitem => h item (List.mem_cons_of_mem _ hitem)) false, ?_⟩
    cases first <;> rfl

theorem membersSpelled_membersText (h : ∀ member ∈ members, member.2.Spelled member.2.print)
    (first : Bool) : MembersSpelled members first (membersText first members) := by
  induction members generalizing first with
  | nil => cases first <;> exact blank_nil
  | cons member members ih =>
    obtain ⟨key, value⟩ := member
    refine ⟨_, key.toList.flatMap escapeChar, [':'], value.print, membersText false members,
      lead_separator first, escapes_flatMap _, ⟨[], [], blank_nil, blank_nil, rfl⟩,
      h _ List.mem_cons_self, ih (fun member hmember => h member (List.mem_cons_of_mem _ hmember))
        false, ?_⟩
    cases first <;>
      simp [membersText, printMembers, printMoreMembers, quote]

mutual
/-- The text of a canonical document spells it. -/
theorem Shape.Fits.spelled (shape : Shape) {value : Value} (h : shape.Fits value) :
    value.Spelled value.print := by
  match shape, value, h with
  | .text, _, ⟨s, rfl⟩ => exact ⟨_, escapes_flatMap s.toList, rfl⟩
  | .flag, _, ⟨b, rfl⟩ => cases b <;> rfl
  | .natural _, _, ⟨n, _, _, rfl⟩ => exact numberSpelled_decimal n
  | .instant, _, ⟨s, _, rfl⟩ => exact ⟨_, escapes_flatMap s.toList, rfl⟩
  | .choice _, _, ⟨s, _, rfl⟩ => exact ⟨_, escapes_flatMap s.toList, rfl⟩
  | .nullable _ _, _, .inl ⟨hnull, _⟩ =>
    subst hnull
    rfl
  | .nullable _ inner, _, .inr ⟨_, hfits⟩ => exact Shape.Fits.spelled inner hfits
  | .list inner, _, ⟨items, rfl, hitems⟩ =>
    exact ⟨_, itemsSpelled_itemsText
      (fun item hitem => Shape.Fits.spelled inner (hitems item hitem)) true, rfl⟩
  | .table, _, ⟨table, rfl⟩ =>
    refine ⟨_, membersSpelled_membersText (fun member hmember => ?_) true, rfl⟩
    obtain ⟨entry, -, rfl⟩ := List.mem_map.1 hmember
    exact ⟨_, escapes_flatMap entry.2.toList, rfl⟩
  | .record fields, _, ⟨_, members, rfl, hfits⟩ =>
    exact ⟨_, membersSpelled_membersText (FitFields.spelled fields hfits) true, rfl⟩

/-- The values of canonical members are spelled. -/
theorem FitFields.spelled (fields : List (String × Absent × Shape))
    {members : List (String × Value)} (h : FitFields fields members) :
    ∀ member ∈ members, member.2.Spelled member.2.print := by
  match fields, members, h with
  | [], _, rfl =>
    intro member hmember
    cases hmember
  | (_, _, shape) :: fields, _, ⟨value, members, rfl, hfits, hrest⟩ =>
    intro member hmember
    rcases List.mem_cons.1 hmember with rfl | hmember
    · exact Shape.Fits.spelled shape hfits
    · exact FitFields.spelled fields hrest member hmember
end

/-! ## Types whose values survive -/

/-- A type that writes canonical documents of a proper shape. -/
class Stored (α : Type) [Codec α] : Prop extends Lawful α where
  proper : (Codec.shape α).Proper

/-- What is written of a value is read back as the value, and a text is read the same when
its document is rearranged. -/
structure Faithful (α : Type) [Codec α] : Prop where
  denotes : ∀ a : α, Denotes (encode a).toList (toValue a)
  decode_encode : ∀ a : α, decode (encode a) = .ok a
  rearranged : ∀ {text text' : String} {value value' : Value}, Denotes text.toList value →
    Denotes text'.toList value' → (Codec.shape α).Rearranged value value' →
      (decode text : Except Fault α).toOption = (decode text' : Except Fault α).toOption

variable {α : Type} [Codec α]

/-- **A type that writes canonical documents is faithful.** -/
theorem faithful (α : Type) [Codec α] [Stored α] : Faithful α where
  denotes a := by
    refine ⟨[], (toValue a).print, [], blank_nil, Shape.Fits.spelled _ (Lawful.fits a),
      blank_nil, ?_⟩
    rw [encode, Value.compact, String.toList_ofList, List.append_nil, List.nil_append]
  decode_encode := Json.decode_encode
  rearranged htext htext' hsame := by
    rw [toOption_decode Stored.proper htext, toOption_decode Stored.proper htext', fromValue?,
      fromValue?, hsame.canonical?_eq Stored.proper]

end Json
end Reconciliation
