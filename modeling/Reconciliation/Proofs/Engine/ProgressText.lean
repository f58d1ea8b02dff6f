/-
# The texts of a progress record

A progress record is written to one text and read from many: written by hand, by an
older writer that leaves fields out or writes `null`, with members of its own, in
any order and spelling.  `Progress.Describes` says which documents describe a
record, and `Progress.codec_exact` that reading a text gives a record exactly when
the document it denotes describes it.
-/

import Mathlib
import Reconciliation.Proofs.Json.Shaped
import Reconciliation.Proofs.Cluster.Progress

namespace Reconciliation

/-! ## Tables are known by their bindings -/

namespace Table

/-- In a sorted listing a key is bound to what its only entry holds. -/
theorem mem_iff_find? {entries : List (String × String)}
    (h : entries.Pairwise fun a b => a.1 < b.1) (key value : String) :
    (key, value) ∈ entries ↔
      (entries.find? fun entry => entry.1 = key).map Prod.snd = some value := by
  induction entries with
  | nil => simp
  | cons entry entries ih =>
    obtain ⟨hhead, htail⟩ := List.pairwise_cons.1 h
    obtain ⟨name, bound⟩ := entry
    by_cases hname : name = key
    · subst hname
      have hnot : (name, value) ∉ entries := fun hmem =>
        String.lt_irrefl name (hhead _ hmem)
      simp [hnot, eq_comm]
    · simp [hname, Ne.symm hname, ih htail]

/-- **Two tables with the same bindings are the same.** -/
theorem ext_get? {a b : Table} (h : ∀ key, a.get? key = b.get? key) : a = b := by
  have hirrefl : Std.Irrefl fun a b : String × String => a.1 < b.1 :=
    ⟨fun a => String.lt_irrefl a.1⟩
  have hantisymm : Std.Antisymm fun a b : String × String => a.1 < b.1 :=
    ⟨fun a b hab hba => absurd (String.lt_trans hab hba) (String.lt_irrefl a.1)⟩
  refine Table.ext (a.sorted.eq_of_mem_iff b.sorted fun entry => ?_)
  obtain ⟨key, value⟩ := entry
  rw [mem_iff_find? a.sorted, mem_iff_find? b.sorted]
  exact iff_of_eq (congrArg (· = some value) (h key))

/-- Listed bindings bind a key to the value it is given last. -/
theorem get?_ofEntries (entries : List (String × String)) (key : String) :
    (ofEntries entries).get? key =
      ((entries.filter fun entry => entry.1 = key).getLast?).map Prod.snd := by
  induction entries using List.reverseRecOn with
  | nil => rfl
  | append_singleton entries entry ih =>
    rw [ofEntries, List.foldl_append, List.filter_append]
    by_cases hkey : entry.1 = key
    · simp [hkey]
    · simpa [hkey, ofEntries] using ih

end Table

/-! ## Which documents describe a record -/

namespace Progress

open Json (Value Denotes)

/-- The values that an object gives under a name. -/
def valuesOf (members : List (String × Value)) (name : String) : List Value :=
  (members.filter fun member => member.1 = name).map Prod.snd

/-- What may stand for the completion notes: `null` when there are none, or an object
of strings, in which every key is bound to the value it is given last. -/
inductive IsCompletion : Value → Table → Prop where
  | null : IsCompletion .null .empty
  | notes {entries : List (String × String)} {table : Table}
      (h : ∀ key, table.get? key =
        ((entries.filter fun entry => entry.1 = key).getLast?).map Prod.snd) :
      IsCompletion (.object (entries.map fun entry => (entry.1, .text entry.2))) table

/-- The documents that describe a record: an object with at most one member for each
field and any others, or a list of the fields in order; a field that is left out is
empty. -/
inductive Describes : Value → Progress → Prop where
  | object {members : List (String × Value)} {record : Progress}
      (name : valuesOf members "nextState" = [] ∧ record.nextState = "" ∨
        valuesOf members "nextState" = [.text record.nextState])
      (notes : valuesOf members "stateCompletion" = [] ∧ record.completion = .empty ∨
        ∃ value, valuesOf members "stateCompletion" = [value] ∧
          IsCompletion value record.completion) :
      Describes (.object members) record
  | nothing : Describes (.list []) ⟨"", .empty⟩
  | name (s : String) : Describes (.list [.text s]) ⟨s, .empty⟩
  | both (s : String) {value : Value} {table : Table} (notes : IsCompletion value table) :
      Describes (.list [.text s, value]) ⟨s, table⟩

/-! ## What is read under the shape of a record -/

theorem bindingsOf_eq_some_iff (members : List (String × Value)) (entries : List (String × String)) :
    Json.bindingsOf members = some entries ↔
      members = entries.map fun entry => (entry.1, .text entry.2) := by
  constructor
  · intro h
    induction members generalizing entries with
    | nil =>
      cases h
      rfl
    | cons member members ih =>
      obtain ⟨key, value⟩ := member
      cases value with
      | text s =>
        obtain ⟨rest, hrest, rfl⟩ := Option.map_eq_some_iff.1 h
        rw [List.map_cons, ← ih rest hrest]
      | _ => cases h
  · rintro rfl
    exact Json.bindingsOf_map entries

/-- Notes that an object of strings gives are the table of its members. -/
theorem IsCompletion.eq_ofEntries {entries : List (String × String)} {table : Table} :
    IsCompletion (.object (entries.map fun entry => (entry.1, .text entry.2))) table ↔
      Table.ofEntries entries = table := by
  constructor
  · intro h
    generalize hvalue : Value.object (entries.map fun entry => (entry.1, .text entry.2)) = value at h
    cases h with
    | null => cases hvalue
    | @notes others _ h =>
      have hsome : some others = some entries :=
        (Json.bindingsOf_map others).symm.trans
          ((congrArg Json.bindingsOf (Value.object.inj hvalue).symm).trans
            (Json.bindingsOf_map entries))
      obtain rfl := Option.some.inj hsome
      exact Table.ext_get? fun key => (Table.get?_ofEntries _ key).trans (h key).symm
  · rintro rfl
    exact .notes (Table.get?_ofEntries entries)

/-- The notes that a document stands for. -/
def completionOf? : Value → Option Table
  | .null => some .empty
  | .object members => Json.tableOfMembers members
  | _ => none

/-- Notes are read exactly from what stands for them. -/
theorem completionOf?_eq_some_iff (value : Value) (table : Table) :
    completionOf? value = some table ↔ IsCompletion value table := by
  constructor
  · intro h
    cases value with
    | null =>
      cases h
      exact .null
    | object members =>
      obtain ⟨entries, hentries, rfl⟩ := Option.map_eq_some_iff.1 h
      obtain rfl := (bindingsOf_eq_some_iff members entries).1 hentries
      exact IsCompletion.eq_ofEntries.2 rfl
    | _ => cases h
  · intro h
    cases h with
    | null => rfl
    | @notes entries _ h =>
      have htable := IsCompletion.eq_ofEntries.1 (.notes h)
      simp [completionOf?, Json.tableOfMembers, Json.bindingsOf_map, htable]

/-- What is read for a field that is given at most once. -/
def fieldOf? {α : Type} (empty : α) (look : Value → Option α) : List Value → Option α
  | [] => some empty
  | [value] => look value
  | _ => none

/-- The shape of a record is one that types have. -/
theorem shape_proper : (Json.Codec.shape Progress).Proper :=
  ⟨by decide, trivial, trivial, trivial⟩

theorem canonical?_text (value : Value) :
    Json.Shape.text.canonical? value = value.text?.map Value.text := by
  cases value <;> rfl

theorem canonical?_completion (value : Value) :
    (Json.Shape.nullable (.object []) .table).canonical? value =
      (completionOf? value).map Json.ofTable := by
  cases value <;> rfl

/-- The fields of a canonical record are taken apart again. -/
theorem ofValue_fields (name : String) (notes : Table) :
    (Json.ofValue (.object [("nextState", .text name), ("stateCompletion", Json.ofTable notes)]) :
      Option Progress) = some ⟨name, notes⟩ :=
  Json.Lawful.ofValue_toValue (⟨name, notes⟩ : Progress)

/-- An object is read field by field. -/
theorem fromValue?_object (members : List (String × Value)) :
    Json.fromValue? (.object members) =
      (fieldOf? "" Value.text? (valuesOf members "nextState")).bind fun name =>
        (fieldOf? Table.empty completionOf? (valuesOf members "stateCompletion")).map fun notes =>
          (⟨name, notes⟩ : Progress) := by
  have hmember : ∀ key, Json.memberOf members key = (valuesOf members key).getLast? := fun key => by
    rw [Json.memberOf_eq_getLast?, valuesOf, List.getLast?_map]
  have hgiven : Json.givenTwice ["nextState", "stateCompletion"] members =
      (decide (1 < (valuesOf members "nextState").length) ||
        decide (1 < (valuesOf members "stateCompletion").length)) := by
    simp [Json.givenTwice, valuesOf]
  simp only [Json.fromValue?, Json.Codec.shape, Json.optional, Json.Shape.canonical?,
    Json.canonicalMembers?, List.map_cons, List.map_nil, hgiven, hmember]
  generalize valuesOf members "nextState" = names
  generalize valuesOf members "stateCompletion" = notes
  -- A field is not given, given once, or given too often.
  rcases names with _ | ⟨name, _ | ⟨other, names⟩⟩ <;>
    rcases notes with _ | ⟨value, _ | ⟨other', more⟩⟩ <;>
    simp only [List.getLast?_nil, List.getLast?_singleton, List.length_nil, List.length_cons,
      fieldOf?, canonical?_text, canonical?_completion]
  case nil.nil => rfl
  case nil.cons.nil =>
    cases completionOf? value with
    | none => rfl
    | some notes => exact ofValue_fields "" notes
  case cons.nil.nil => cases name.text? <;> rfl
  case cons.nil.cons.nil =>
    cases name.text? with
    | none => rfl
    | some name =>
      cases completionOf? value with
      | none => rfl
      | some notes => exact ofValue_fields name notes
  all_goals simp

/-- A list is read in the order of the fields. -/
theorem fromValue?_list (items : List Value) :
    (Json.fromValue? (.list items) : Option Progress) = match items with
      | [] => some ⟨"", .empty⟩
      | [name] => name.text?.map fun name => ⟨name, .empty⟩
      | [name, notes] => name.text?.bind fun name => (completionOf? notes).map fun notes => ⟨name, notes⟩
      | _ => none := by
  simp only [Json.fromValue?, Json.Codec.shape, Json.optional, Json.Shape.canonical?]
  rcases items with _ | ⟨name, _ | ⟨notes, _ | ⟨other, more⟩⟩⟩ <;>
    simp only [Json.canonicalItems?, canonical?_text, canonical?_completion]
  · rfl
  · cases name.text? <;> rfl
  · cases name.text? with
    | none => rfl
    | some name =>
      cases completionOf? notes with
      | none => rfl
      | some notes => exact ofValue_fields name notes
  · cases name.text? <;> cases completionOf? notes <;> rfl

/-- A field that is given at most once is read to what stands for it. -/
theorem fieldOf?_eq_some_iff {α : Type} {empty a : α} {look : Value → Option α}
    (values : List Value) :
    fieldOf? empty look values = some a ↔
      values = [] ∧ a = empty ∨ ∃ value, values = [value] ∧ look value = some a := by
  rcases values with _ | ⟨value, _ | ⟨other, more⟩⟩
  · simp [fieldOf?, eq_comm]
  · simp [fieldOf?]
  · simp [fieldOf?]

theorem text?_eq_some_iff (value : Value) (s : String) :
    value.text? = some s ↔ value = .text s := by
  cases value <;> simp [Value.text?]

/-- **A document is read to the record that it describes.** -/
theorem fromValue?_eq_some_iff (value : Value) (record : Progress) :
    Json.fromValue? value = some record ↔ Describes value record := by
  obtain ⟨name, notes⟩ := record
  cases value with
  | object members =>
    rw [fromValue?_object]
    constructor
    · intro h
      obtain ⟨name', hname, h⟩ := Option.bind_eq_some_iff.1 h
      obtain ⟨notes', hnotes, h⟩ := Option.map_eq_some_iff.1 h
      obtain ⟨rfl, rfl⟩ := Progress.mk.inj h
      refine .object ?_ ?_
      · rcases (fieldOf?_eq_some_iff _).1 hname with h | ⟨value, hvalue, hlook⟩
        · exact .inl h
        · exact .inr (hvalue.trans (by rw [(text?_eq_some_iff _ _).1 hlook]))
      · rcases (fieldOf?_eq_some_iff _).1 hnotes with h | ⟨value, hvalue, hlook⟩
        · exact .inl h
        · exact .inr ⟨value, hvalue, (completionOf?_eq_some_iff _ _).1 hlook⟩
    · rintro (⟨hname, hnotes⟩ | _ | _ | _)
      have hname' : fieldOf? "" Value.text? (valuesOf members "nextState") = some name := by
        refine (fieldOf?_eq_some_iff _).2 (hname.imp_right fun h => ⟨_, h, rfl⟩)
      have hnotes' : fieldOf? .empty completionOf? (valuesOf members "stateCompletion") =
          some notes := by
        refine (fieldOf?_eq_some_iff _).2 (hnotes.imp_right fun ⟨value, hvalue, h⟩ => ?_)
        exact ⟨value, hvalue, (completionOf?_eq_some_iff _ _).2 h⟩
      simp [hname', hnotes']
  | list items =>
    rw [fromValue?_list]
    constructor
    · intro h
      rcases items with _ | ⟨first, _ | ⟨second, _ | ⟨third, more⟩⟩⟩
      · cases h
        exact .nothing
      · obtain ⟨s, hs, h⟩ := Option.map_eq_some_iff.1 h
        cases h
        rw [(text?_eq_some_iff _ _).1 hs]
        exact .name name
      · obtain ⟨s, hs, h⟩ := Option.bind_eq_some_iff.1 h
        obtain ⟨table, htable, h⟩ := Option.map_eq_some_iff.1 h
        cases h
        rw [(text?_eq_some_iff _ _).1 hs]
        exact .both name ((completionOf?_eq_some_iff _ _).1 htable)
      · cases h
    · intro h
      cases h with
      | nothing => rfl
      | name => rfl
      | both _ hnotes =>
        have hread := (completionOf?_eq_some_iff _ _).2 hnotes
        simp [Value.text?, hread]
  | _ =>
    constructor
    · intro h
      cases h
    · intro h
      cases h

/-- **The codec of progress records is exact.**  What is written is read back, so
different records have different texts; and of every text that is JSON exactly those
are read whose document describes a record, to that record.

A text with half of a surrogate pair among its escapes denotes no document, so nothing is
said of it here; `ofJson` passes over such an escape in a member that no field reads. -/
theorem codec_exact :
    (∀ record : Progress, ofJson record.toJson = .ok record) ∧
    Function.Injective toJson ∧
    ∀ (text : String) (value : Value), Denotes text.toList value →
      ∀ record, ofJson text = .ok record ↔ Describes value record := by
  refine ⟨ofJson_toJson, fun record other h => ?_, fun text value hdenotes record => ?_⟩
  · have hread := ofJson_toJson record
    rw [h, ofJson_toJson other] at hread
    exact (Except.ok.inj hread).symm
  · have hread : (ofJson text).toOption = Json.fromValue? value :=
      Json.toOption_decode shape_proper hdenotes
    rw [← fromValue?_eq_some_iff, ← hread]
    constructor
    · intro h
      rw [h]
      rfl
    · exact Json.eq_ok_of_toOption

/-- A text with blanks, a member of no field, an escape in a name and a key that is
given twice. -/
def handwritten : String :=
  "\n\x7b \"stateCompletion\" : \x7b\"a\":\"1\", \"\\u0061\" : \"2\"\x7d," ++
    " \"x\": [1e999, \x7b\x7d], \"next\\u0053tate\":\"UpdateStatus\" \x7d"

/-- The document of the text. -/
def handwrittenValue : Value :=
  .object [("stateCompletion", .object [("a", .text "1"), ("a", .text "2")]),
    ("x", .list [.number "1e999", .object []]), ("nextState", .text "UpdateStatus")]

theorem codec_exact_handwritten :
    Denotes handwritten.toList handwrittenValue ∧
      ofJson handwritten = .ok ⟨"UpdateStatus", Table.empty.insert "a" "2"⟩ := by
  have hdenotes : Denotes handwritten.toList handwrittenValue :=
    (Json.parse_eq_ok_iff _ _).1 (by cbv)
  have hnotes : IsCompletion (.object ([("a", "1"), ("a", "2")].map fun entry =>
      (entry.1, .text entry.2))) (Table.empty.insert "a" "2") :=
    IsCompletion.eq_ofEntries.2 (by decide)
  exact ⟨hdenotes, (codec_exact.2.2 handwritten handwrittenValue hdenotes _).2
    (.object (.inr rfl) (.inr ⟨_, rfl, hnotes⟩))⟩

end Progress
end Reconciliation
