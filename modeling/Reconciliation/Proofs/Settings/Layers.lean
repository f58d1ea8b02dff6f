/-
# Layers of settings

Settings come from three layers: the standard ones, a file and the environment.  A layer is a
list of assignments, each at the path that its key spells, and keys are compared in small
letters.  An assignment gives settings to some of the known keys
(`SettingKey.givenAt`); that is all it does to them as long as it leaves the sections tables
and the known keys whole (`FitsAt`).

One assignment changes what a tree holds for exactly the keys that it gives something to
(`Setting.Holds.assign`), so a layer does, and loading the settings is a matter of each key
alone: the environment decides, then the file, then the standard (`settings_layered`).

Two things are not as they look (`not_forall_layered_as_spelled`): a key of a file that spells
a path may lead into a section without being one, and a great number in the environment is
rounded.
-/

import Reconciliation.Proofs.Json.Tokens
import Reconciliation.Proofs.Settings.Keys

namespace Reconciliation

/-! ## What an assignment gives to a key -/

namespace SettingKey

/-- The settings that the entries of a section give to a key. -/
def givenIn (key : SettingKey) (entries : List (String × Setting)) : List Setting :=
  entries.filterMap fun entry => if lowerKey entry.1 = key.name then some entry.2 else none

/-- The settings that an assignment at a path gives to a key. -/
def givenAt (key : SettingKey) : List Step → Setting → List Setting
  | [.key s], later => if lowerKey s = key.sectionName then key.givenIn later.entries else []
  | [.key s, .key n], later =>
    if lowerKey s = key.sectionName ∧ lowerKey n = key.name then [later] else []
  | _, _ => []

/-- The settings that a layer gives to a key. -/
def given (key : SettingKey) (layer : List (String × Setting)) : List Setting :=
  layer.flatMap fun entry => key.givenAt (keyPath entry.1) entry.2

end SettingKey

/-- Whether a setting is a table. -/
def Setting.isTable : Setting → Bool
  | .table _ => true
  | _ => false

theorem Setting.exists_of_isTable {setting : Setting} (h : setting.isTable = true) :
    ∃ entries, setting = .table entries := by
  cases setting with
  | table entries => exact ⟨entries, rfl⟩
  | _ => cases h

/-- The assignment makes nothing but a table of the section of a key, and leads neither to a
place of this section nor into the key. -/
def SettingKey.FitsAt (key : SettingKey) : List Step → Setting → Prop
  | [.key s], later => lowerKey s = key.sectionName → later.isTable
  | [.key _, .key _], _ => True
  | .key s :: .key n :: _, _ => lowerKey s = key.sectionName → lowerKey n ≠ key.name
  | .key s :: .place _ :: _, _ => lowerKey s ≠ key.sectionName
  | _, _ => False

instance (key : SettingKey) : (path : List Step) → (later : Setting) →
    Decidable (key.FitsAt path later)
  | [.key s], later => inferInstanceAs (Decidable (lowerKey s = key.sectionName → later.isTable))
  | [.key _, .key _], _ => .isTrue trivial
  | .key s :: .key n :: _ :: _, _ =>
    inferInstanceAs (Decidable (lowerKey s = key.sectionName → lowerKey n ≠ key.name))
  | .key s :: .place _ :: _, _ => inferInstanceAs (Decidable (lowerKey s ≠ key.sectionName))
  | [], _ | .place _ :: _, _ => .isFalse id

/-- The assignments of a layer leave the sections and the known keys in shape, and what they
give to a known key can be read. -/
structure Fits (layer : List (String × Setting)) : Prop where
  shape : ∀ (key : SettingKey), ∀ entry ∈ layer, key.FitsAt (keyPath entry.1) entry.2
  reads : ∀ (key : SettingKey), ∀ setting ∈ key.given layer, (key.read? setting).isSome

instance (layer : List (String × Setting)) : Decidable (Fits layer) :=
  decidable_of_iff (∀ key ∈ SettingKey.all,
      (∀ entry ∈ layer, key.FitsAt (keyPath entry.1) entry.2) ∧
        ∀ setting ∈ key.given layer, (key.read? setting).isSome)
    ⟨fun h => ⟨fun key => (h key key.mem_all).1, fun key => (h key key.mem_all).2⟩,
      fun h key _ => ⟨h.shape key, h.reads key⟩⟩

namespace Setting

variable {tree later held : Setting} {key : SettingKey} {s n : String}

/-! ## One assignment -/

theorem assign_section (later tree : Setting) (s : String) :
    later.assign [.key s] tree = tree.put s (later.laidOver (tree.get? s)) := by
  rw [assign]

theorem assign_inside (later tree : Setting) (s : String) (step : Step) (path : List Step) :
    later.assign (.key s :: step :: path) tree =
      tree.put s (later.assign (step :: path) ((tree.get? s).getD unset)) := by
  rw [assign]
  nofun

/-- What is put elsewhere leaves a key as it was. -/
theorem HoldsAt.put (h : tree.HoldsAt key held) (hs : lowerKey s ≠ key.sectionName)
    (x : Setting) : (tree.put s x).HoldsAt key held := by
  obtain ⟨entries, hsection, hname⟩ := h
  exact ⟨entries, by rw [get?_put, key.lowerKey_sectionName, if_neg hs, hsection], hname⟩

/-- A section that is put into the tree holds its entries. -/
theorem holdsAt_put (tree : Setting) (hs : lowerKey s = key.sectionName)
    {entries : List (String × Setting)} (hname : findEntry key.name entries = some held) :
    (tree.put s (table entries)).HoldsAt key held :=
  ⟨entries, by rw [get?_put, key.lowerKey_sectionName, if_pos hs], hname⟩

/-- The section of a key is found under all its spellings. -/
theorem HoldsAt.exists_get? (h : tree.HoldsAt key held) (hs : lowerKey s = key.sectionName) :
    ∃ entries, tree.get? s = some (table entries) ∧ findEntry key.name entries = some held := by
  obtain ⟨entries, hsection, hname⟩ := h
  rw [get?, key.lowerKey_sectionName, ← hs] at hsection
  exact ⟨entries, hsection, hname⟩

/-- What is no table replaces what a key held. -/
theorem laidOver_of_ne_table {later : Setting} (h : ∀ entries, later ≠ .table entries)
    (earlier : Option Setting) : later.laidOver earlier = later := by
  cases later with
  | table entries => exact absurd rfl (h entries)
  | _ => simp [laidOver]

/-- Entries laid over a table: each name holds what they give to it last. -/
theorem exists_overlay (key : SettingKey) {later : List (String × Setting)}
    (hlater : ∀ setting ∈ key.givenIn later, ∀ entries, setting ≠ .table entries)
    (earlier : List (String × Setting)) :
    ∃ entries, overlay later (.table earlier) = .table entries ∧
      findEntry key.name entries =
        (key.givenIn later).getLast?.or (findEntry key.name earlier) := by
  induction later generalizing earlier with
  | nil => exact ⟨earlier, by simp [overlay], rfl⟩
  | cons entry rest ih =>
    obtain ⟨name, setting⟩ := entry
    have hrest : ∀ setting ∈ key.givenIn rest, ∀ entries, setting ≠ .table entries := by
      intro other hother
      refine hlater other ?_
      unfold SettingKey.givenIn at hother ⊢
      rw [List.filterMap_cons]
      split
      · exact hother
      · exact List.mem_cons_of_mem _ hother
    obtain ⟨entries, hoverlay, hfind⟩ := ih hrest (putEntry (lowerKey name)
      (setting.laidOver (get? (.table earlier) name)) earlier)
    refine ⟨entries, by rw [overlay]; exact hoverlay, ?_⟩
    rw [hfind, findEntry_putEntry]
    by_cases hname : lowerKey name = key.name
    · have hgiven : key.givenIn ((name, setting) :: rest) = setting :: key.givenIn rest := by
        simp [SettingKey.givenIn, hname]
      have hsetting := laidOver_of_ne_table (hlater setting (hgiven ▸ List.mem_cons_self))
      rw [if_pos hname, hgiven, hsetting, List.getLast?_cons]
      cases (key.givenIn rest).getLast? <;> rfl
    · have hgiven : key.givenIn ((name, setting) :: rest) = key.givenIn rest := by
        simp [SettingKey.givenIn, hname]
      rw [if_neg hname, hgiven]

/-- A section that is assigned gives a key what its entries give to it last. -/
theorem HoldsAt.assign_section (h : tree.HoldsAt key held) {entries : List (String × Setting)}
    (hs : lowerKey s = key.sectionName)
    (htable : ∀ setting ∈ key.givenIn entries, ∀ entries, setting ≠ .table entries) :
    ((table entries).assign [.key s] tree).HoldsAt key
      ((key.givenIn entries).getLast?.getD held) := by
  obtain ⟨earlier, hsection, hname⟩ := h.exists_get? hs
  obtain ⟨joined, hjoined, hfind⟩ := exists_overlay key htable earlier
  rw [Setting.assign_section, hsection, laidOver, Option.getD_some, hjoined]
  refine holdsAt_put tree hs ?_
  rw [hfind, hname]
  cases (key.givenIn entries).getLast? <;> rfl

/-- **One assignment** changes what is held for exactly the keys that it gives something. -/
theorem HoldsAt.assign (h : tree.HoldsAt key held) {path : List Step}
    (hshape : key.FitsAt path later)
    (htable : ∀ setting ∈ key.givenAt path later, ∀ entries, setting ≠ .table entries) :
    (later.assign path tree).HoldsAt key ((key.givenAt path later).getLast?.getD held) := by
  match path, hshape with
  | [.key s], hshape =>
    by_cases hs : lowerKey s = key.sectionName
    · obtain ⟨entries, rfl⟩ := exists_of_isTable (hshape hs)
      have hgiven : key.givenAt [.key s] (.table entries) = key.givenIn entries := if_pos hs
      rw [hgiven] at htable ⊢
      exact h.assign_section hs htable
    · have hgiven : key.givenAt [.key s] later = [] := if_neg hs
      rw [Setting.assign_section, hgiven]
      exact h.put hs _
  | [.key s, .key n], _ =>
    rw [Setting.assign_inside, Setting.assign_section]
    by_cases hs : lowerKey s = key.sectionName
    · obtain ⟨earlier, hsection, hname⟩ := h.exists_get? hs
      rw [hsection]
      refine holdsAt_put tree hs ((findEntry_putEntry ..).trans ?_)
      by_cases hn : lowerKey n = key.name
      · have hgiven : key.givenAt [.key s, .key n] later = [later] := if_pos ⟨hs, hn⟩
        have hlater := htable later (hgiven ▸ List.mem_singleton_self _)
        rw [if_pos hn, laidOver_of_ne_table hlater, hgiven]
        rfl
      · have hgiven : key.givenAt [.key s, .key n] later = [] := if_neg fun h => hn h.2
        rw [if_neg hn, hgiven]
        exact hname
    · have hgiven : key.givenAt [.key s, .key n] later = [] := if_neg fun h => hs h.1
      rw [hgiven]
      exact h.put hs _
  | .key s :: .key n :: step :: rest, hshape =>
    rw [Setting.assign_inside, Setting.assign_inside]
    by_cases hs : lowerKey s = key.sectionName
    · obtain ⟨earlier, hsection, hname⟩ := h.exists_get? hs
      rw [hsection]
      exact holdsAt_put tree hs ((findEntry_putEntry ..).trans ((if_neg (hshape hs)).trans hname))
    · exact h.put hs _
  | .key s :: .place n :: rest, hshape =>
    rw [Setting.assign_inside]
    exact h.put hshape _

end Setting

/-! ## A whole layer -/

theorem Fits.of_cons {entry : String × Setting} {layer : List (String × Setting)}
    (h : Fits (entry :: layer)) : Fits layer where
  shape key other hother := h.shape key other (List.mem_cons_of_mem _ hother)
  reads key setting hsetting := by
    refine h.reads key setting ?_
    rw [SettingKey.given, List.flatMap_cons]
    exact List.mem_append_right _ hsetting

/-- What can be read is no table. -/
theorem Fits.ne_table {layer : List (String × Setting)} (h : Fits layer) {key : SettingKey}
    {setting : Setting} (hsetting : setting ∈ key.given layer) (entries : List (String × Setting)) :
    setting ≠ .table entries := by
  rintro rfl
  have hread := h.reads key _ hsetting
  rw [key.read?_table] at hread
  cases hread

/-- **A layer** changes what is held for exactly the keys that it gives something. -/
theorem Setting.HoldsAt.withEntries {tree held : Setting} {key : SettingKey}
    (h : tree.HoldsAt key held) {layer : List (String × Setting)} (hfits : Fits layer) :
    (tree.withEntries layer).HoldsAt key ((key.given layer).getLast?.getD held) := by
  induction layer generalizing tree held with
  | nil => exact h
  | cons entry layer ih =>
    have hgiven : key.given (entry :: layer) =
        key.givenAt (keyPath entry.1) entry.2 ++ key.given layer := rfl
    have hassign := h.assign (hfits.shape key entry List.mem_cons_self) fun setting hsetting =>
      hfits.ne_table (hgiven ▸ List.mem_append_left _ hsetting)
    have hlayer := ih hassign hfits.of_cons
    rw [hgiven, List.getLast?_append]
    cases hlast : (key.given layer).getLast? <;> rwa [hlast] at hlayer

/-- What a layer gives can be read, or what was there before. -/
theorem Fits.isSome_read? {layer : List (String × Setting)} (h : Fits layer) {key : SettingKey}
    {held : Setting} (hheld : (key.read? held).isSome) :
    (key.read? ((key.given layer).getLast?.getD held)).isSome := by
  cases hgiven : (key.given layer).getLast? with
  | none => exact hheld
  | some setting => exact h.reads key setting (List.mem_of_getLast? hgiven)

/-- **Settings are loaded key by key.**  A key has what the environment gives to it, and
otherwise what the file gives to it, and otherwise its standard value. -/
theorem Settings.exists_load? {file : Option String} {environment : List (String × String)}
    {entries : List (String × Setting)} (hfile : fileEntries? file = some entries)
    (hentries : Fits entries) (hvariables : Fits (environmentEntries environment)) :
    ∃ s, Settings.load? file environment = some s ∧ ∀ key : SettingKey,
      key.read? ((key.given (environmentEntries environment)).getLast?.getD
        ((key.given entries).getLast?.getD (key.literal (key.value .standard)))) =
        some (key.value s) := by
  have hholds : Setting.Holds _ _ := fun key =>
    ((Settings.standard.holds_toSetting key).withEntries hentries).withEntries hvariables
  obtain ⟨s, hload, hvalues⟩ := hholds.exists_ofSetting? fun key =>
    hvariables.isSome_read? (hentries.isSome_read? (by rw [key.read?_literal]; rfl))
  exact ⟨s, by rw [Settings.load?, hfile]; exact hload, hvalues⟩

/-- **Ordinary files fit**: those whose keys are names, whose sections are tables, and whose
known keys can be read. -/
theorem fits_of_sections {entries : List (String × Setting)}
    (hnames : ∀ entry ∈ entries, keyPath entry.1 = [.key entry.1])
    (htables : ∀ entry ∈ entries, ∀ key : SettingKey, lowerKey entry.1 = key.sectionName →
      entry.2.isTable)
    (hreads : ∀ entry ∈ entries, ∀ key : SettingKey, lowerKey entry.1 = key.sectionName →
      ∀ member ∈ entry.2.entries, lowerKey member.1 = key.name → (key.read? member.2).isSome) :
    Fits entries where
  shape key entry hentry := by
    rw [hnames entry hentry]
    exact htables entry hentry key
  reads key setting hsetting := by
    obtain ⟨entry, hentry, hgiven⟩ := List.mem_flatMap.1 hsetting
    rw [hnames entry hentry, SettingKey.givenAt] at hgiven
    split at hgiven
    · obtain ⟨member, hmember, hgives⟩ := List.mem_filterMap.1 hgiven
      obtain ⟨hname, hsetting⟩ := Option.ite_none_right_eq_some.1 hgives
      obtain rfl := Option.some.inj hsetting
      exact hreads entry hentry key ‹_› member hmember hname
    · cases hgiven

/-! ## Variables of the environment -/

namespace SettingKey

/-- The variable that sets a key, in small letters. -/
def variableName (key : SettingKey) : String :=
  "reconciler__" ++ key.sectionName ++ "__" ++ key.name

/-- A text spells a value of the type of a key: an integer of 64 bits with its sign, a flag,
or a text that reads as neither a number nor a flag. -/
def Spells (text : String) : (key : SettingKey) → key.Value → Prop
  | beforePersistMs, (n : UInt64) => integerOfChars? text.toList = some (n.toNat : Int)
  | afterPersistMs, (n : UInt64) => integerOfChars? text.toList = some (n.toNat : Int)
  | maxWritesPerMinute, (limit : Option UInt32) =>
    ∃ n : UInt32, limit = some n ∧ integerOfChars? text.toList = some (n.toNat : Int)
  | pendingRequeueSeconds, (n : UInt64) => integerOfChars? text.toList = some (n.toNat : Int)
  | logLevel, (level : String) =>
    level = text ∧ text.toLower ≠ "true" ∧ text.toLower ≠ "false" ∧
      integerOfChars? text.toList = none ∧ realOfChars? text.toList = none
  | jsonLogs, (json : Bool) => text.toLower = if json then "true" else "false"

/-- The variable of a key spells the path to it. -/
theorem variableKey?_eq {key : SettingKey} {name : String}
    (h : lowerKey name = key.variableName) :
    variableKey? name = some (key.sectionName ++ "." ++ key.name) := by
  rw [variableKey?, h]
  cases key <;> decide +kernel

theorem keyPath_eq (key : SettingKey) :
    keyPath (key.sectionName ++ "." ++ key.name) = [.key key.sectionName, .key key.name] := by
  cases key <;> decide +kernel

theorem environmentEntries_variable {key : SettingKey} {v : String × String}
    (h : lowerKey v.1 = key.variableName) :
    environmentEntries [v] = [(key.sectionName ++ "." ++ key.name, variableSetting v.2)] := by
  simp only [environmentEntries, List.filterMap_cons, variableKey?_eq h, Option.map_some,
    List.filterMap_nil]

/-- The variable of a key sets this key and no other one. -/
theorem given_variable {key : SettingKey} {v : String × String}
    (h : lowerKey v.1 = key.variableName) (other : SettingKey) :
    other.given (environmentEntries [v]) =
      if other = key then [variableSetting v.2] else [] := by
  have hplace : (key.sectionName = other.sectionName ∧ key.name = other.name) ↔ other = key := by
    cases other <;> cases key <;> decide +kernel
  rw [environmentEntries_variable h, given, List.flatMap_singleton, keyPath_eq, givenAt,
    key.lowerKey_sectionName, key.lowerKey_name]
  simp only [hplace]

end SettingKey

/-- Signs and digits come before the letters. -/
theorem toNat_lt_of_integerOfChars? {d : Char} {rest : List Char} {n : Int}
    (h : integerOfChars? (d :: rest) = some n) : d.toNat < 65 := by
  by_cases hminus : d = '-'
  · rw [hminus]
    decide
  by_cases hplus : d = '+'
  · rw [hplus]
    decide
  have hsign : splitSign (d :: rest) = (false, d :: rest) := by
    unfold splitSign
    split <;> simp_all
  rw [integerOfChars?, hsign] at h
  by_cases hdigits : (d :: rest).all Char.isDigit
  · have hdigit := List.all_eq_true.1 hdigits d List.mem_cons_self
    simp only [Char.isDigit, Bool.and_eq_true, decide_eq_true_eq] at hdigit
    exact Nat.lt_of_le_of_lt (UInt32.le_iff_toNat_le.1 hdigit.2) (by decide)
  · simp [hdigits] at h

/-- An integer does not read as a flag. -/
theorem toLower_ne_of_integerOfChars? {text : String} {n : Int}
    (h : integerOfChars? text.toList = some n) :
    text.toLower ≠ "true" ∧ text.toLower ≠ "false" := by
  have hword : ∀ c word, 65 ≤ c.toNat → text.toLower ≠ String.ofList (c :: word) := by
    intro c word hc hlower
    have hlist : text.toList.map Char.toLower = c :: word := by
      rw [← String.toList_map]
      exact (congrArg String.toList hlower).trans String.toList_ofList
    obtain ⟨d, rest, htext, hd, -⟩ := List.map_eq_cons_iff.1 hlist
    rw [htext] at h
    have hsmall := toNat_lt_of_integerOfChars? h
    have hsame : d.toLower = d := by
      refine dif_neg fun hcapital => ?_
      have hlarge : 65 ≤ d.val.toNat := UInt32.le_iff_toNat_le.1 hcapital.1
      exact absurd hsmall (Nat.not_lt.2 hlarge)
    rw [← hd, hsame] at hc
    exact absurd hsmall (Nat.not_lt.2 hc)
  exact ⟨hword 't' ['r', 'u', 'e'] (by decide), hword 'f' ['a', 'l', 's', 'e'] (by decide)⟩

theorem variableSetting_of_integer {text : String} {n : Int}
    (h : integerOfChars? text.toList = some n) : variableSetting text = .integer n := by
  obtain ⟨htrue, hfalse⟩ := toLower_ne_of_integerOfChars? h
  rw [variableSetting, if_neg htrue, if_neg hfalse, h]

theorem variableSetting_of_flag {text : String} {json : Bool}
    (h : text.toLower = if json then "true" else "false") : variableSetting text = .flag json := by
  cases json <;> simp [variableSetting, h]

/-- A variable that spells a value of the type of its key gives this value. -/
theorem SettingKey.read?_variableSetting {key : SettingKey} {text : String} {x : key.Value}
    (h : key.Spells text x) : key.read? (variableSetting text) = some x := by
  cases key with
  | beforePersistMs => exact variableSetting_of_integer h ▸ read?_literal .beforePersistMs x
  | afterPersistMs => exact variableSetting_of_integer h ▸ read?_literal .afterPersistMs x
  | pendingRequeueSeconds =>
    exact variableSetting_of_integer h ▸ read?_literal .pendingRequeueSeconds x
  | maxWritesPerMinute =>
    obtain ⟨n, rfl, hn⟩ := h
    exact variableSetting_of_integer hn ▸ read?_literal .maxWritesPerMinute (some n)
  | logLevel =>
    obtain ⟨rfl, htrue, hfalse, hnumber, hreal⟩ := h
    have htext : variableSetting x = .text x := by
      simp only [variableSetting, htrue, hfalse, hnumber, hreal, if_false]
    rw [htext]
    rfl
  | jsonLogs => exact variableSetting_of_flag h ▸ read?_literal .jsonLogs x

theorem environmentEntries_append (before after : List (String × String)) :
    environmentEntries (before ++ after) = environmentEntries before ++ environmentEntries after :=
  List.filterMap_append

theorem SettingKey.given_append (key : SettingKey) (before after : List (String × Setting)) :
    key.given (before ++ after) = key.given before ++ key.given after :=
  List.flatMap_append

/-- A variable among others gives something to its own key only. -/
theorem SettingKey.given_insert {key : SettingKey} {v : String × String}
    (h : lowerKey v.1 = key.variableName) (before after : List (String × String))
    (other : SettingKey) :
    other.given (environmentEntries (before ++ v :: after)) =
      other.given (environmentEntries before) ++
        ((if other = key then [variableSetting v.2] else []) ++
          other.given (environmentEntries after)) := by
  rw [← List.singleton_append, environmentEntries_append, environmentEntries_append,
    other.given_append, other.given_append, SettingKey.given_variable h]

/-- Variables that set nothing are not seen. -/
theorem environmentEntries_filter (environment : List (String × String)) :
    environmentEntries (environment.filter fun v => (variableKey? v.1).isSome) =
      environmentEntries environment := by
  have hsome : ∀ v : String × String,
      (if (variableKey? v.1).isSome then
        (variableKey? v.1).map fun key => (key, variableSetting v.2) else none) =
      (variableKey? v.1).map fun key => (key, variableSetting v.2) := by
    intro v
    cases variableKey? v.1 <;> rfl
  rw [environmentEntries, List.filterMap_filter, funext hsome, environmentEntries]

/-- A variable that spells a value for a key fits. -/
theorem fits_variable {key : SettingKey} {v : String × String} {x : key.Value}
    (hname : lowerKey v.1 = key.variableName) (htext : key.Spells v.2 x) :
    Fits (environmentEntries [v]) where
  shape other entry hentry := by
    rw [SettingKey.environmentEntries_variable hname, List.mem_singleton] at hentry
    rw [hentry, SettingKey.keyPath_eq]
    trivial
  reads other setting hsetting := by
    rw [SettingKey.given_variable hname] at hsetting
    split at hsetting
    · subst other
      rw [List.mem_singleton.1 hsetting, SettingKey.read?_variableSetting htext]
      rfl
    · cases hsetting

/-- A layer fits when its parts do. -/
theorem fits_append_iff {before after : List (String × Setting)} :
    Fits (before ++ after) ↔ Fits before ∧ Fits after := by
  constructor
  · intro h
    exact ⟨⟨fun key entry hentry => h.shape key entry (List.mem_append_left _ hentry),
      fun key setting hsetting => h.reads key setting
        (key.given_append before after ▸ List.mem_append_left _ hsetting)⟩,
      ⟨fun key entry hentry => h.shape key entry (List.mem_append_right _ hentry),
      fun key setting hsetting => h.reads key setting
        (key.given_append before after ▸ List.mem_append_right _ hsetting)⟩⟩
  · rintro ⟨hbefore, hafter⟩
    refine ⟨fun key entry hentry => ?_, fun key setting hsetting => ?_⟩
    · exact (List.mem_append.1 hentry).elim (hbefore.shape key entry) (hafter.shape key entry)
    · rw [key.given_append] at hsetting
      exact (List.mem_append.1 hsetting).elim (hbefore.reads key setting)
        (hafter.reads key setting)

/-! ## The layers of the settings -/

section Loading

variable {file : Option String} {environment : List (String × String)}
  {entries : List (String × Setting)} {s : Settings} {key : SettingKey}

/-- What a layer gives to a key last decides its value, the environment before the file. -/
theorem Settings.read?_of_load? (hfile : fileEntries? file = some entries) (hentries : Fits entries)
    (hvariables : Fits (environmentEntries environment))
    (hload : Settings.load? file environment = some s) (key : SettingKey) :
    key.read? ((key.given (environmentEntries environment)).getLast?.getD
        ((key.given entries).getLast?.getD (key.literal (key.value .standard)))) =
      some (key.value s) := by
  obtain ⟨t, ht, hvalues⟩ := Settings.exists_load? hfile hentries hvariables
  obtain rfl := Option.some.inj (hload.symm.trans ht)
  exact hvalues key

/-- A variable that spells a value decides the key that it sets, if it is the only one. -/
theorem Settings.value_of_variable (hfile : fileEntries? file = some entries)
    (hentries : Fits entries) (hvariables : Fits (environmentEntries environment))
    (hload : Settings.load? file environment = some s) {v : String × String} {x : key.Value}
    (hv : v ∈ environment) (hname : lowerKey v.1 = key.variableName) (htext : key.Spells v.2 x)
    (hone : (key.given (environmentEntries environment)).length = 1) : key.value s = x := by
  obtain ⟨before, after, rfl⟩ := List.append_of_mem hv
  have hread := Settings.read?_of_load? hfile hentries hvariables hload key
  rw [SettingKey.given_insert hname, if_pos rfl] at hread hone
  simp only [List.length_append, List.length_singleton] at hone
  have hbefore : key.given (environmentEntries before) = [] := List.length_eq_zero_iff.1 (by omega)
  have hafter : key.given (environmentEntries after) = [] := List.length_eq_zero_iff.1 (by omega)
  rw [hbefore, hafter] at hread
  exact (Option.some.inj ((SettingKey.read?_variableSetting htext).symm.trans hread)).symm

/-- One more variable that spells a value is loaded, and changes no other key. -/
theorem Settings.exists_load?_insert {before after : List (String × String)}
    (hfile : fileEntries? file = some entries) (hentries : Fits entries)
    (hvariables : Fits (environmentEntries (before ++ after)))
    (hload : Settings.load? file (before ++ after) = some s) {v : String × String} {x : key.Value}
    (hname : lowerKey v.1 = key.variableName) (htext : key.Spells v.2 x) :
    ∃ t, Settings.load? file (before ++ v :: after) = some t ∧
      (key.given (environmentEntries (before ++ after)) = [] → key.value t = x) ∧
      ∀ other, other ≠ key → SettingKey.value t other = SettingKey.value s other := by
  have hmore : Fits (environmentEntries (before ++ v :: after)) := by
    rw [environmentEntries_append, fits_append_iff] at hvariables
    rw [← List.singleton_append, environmentEntries_append, environmentEntries_append,
      fits_append_iff, fits_append_iff]
    exact ⟨hvariables.1, fits_variable hname htext, hvariables.2⟩
  obtain ⟨t, ht, -⟩ := Settings.exists_load? hfile hentries hmore
  refine ⟨t, ht, fun hnone => ?_, fun other hother => ?_⟩
  · refine Settings.value_of_variable hfile hentries hmore ht
      (List.mem_append_right _ List.mem_cons_self) hname htext ?_
    rw [environmentEntries_append, key.given_append, List.append_eq_nil_iff] at hnone
    rw [SettingKey.given_insert hname, if_pos rfl, hnone.1, hnone.2]
    rfl
  · have hs := Settings.read?_of_load? hfile hentries hvariables hload other
    have ht := Settings.read?_of_load? hfile hentries hmore ht other
    rw [SettingKey.given_insert hname, if_neg hother, List.nil_append, ← other.given_append,
      ← environmentEntries_append] at ht
    exact Option.some.inj (ht.symm.trans hs)

end Loading

/-- **Settings are layered key by key.**  A file and an environment that leave the sections and
the known keys in shape are loaded, and each key has what its variable spells, if there is
one, and otherwise what the file sets, and otherwise its standard value.  Which value a
key has that a file sets in several spellings is left open.  Variables without the prefix do
nothing, a variable does nothing to the other keys, and a key depends on nothing but what the
layers give to it. -/
theorem settings_layered {file : Option String} {environment : List (String × String)}
    {entries : List (String × Setting)} (hfile : fileEntries? file = some entries)
    (hentries : Fits entries) (hvariables : Fits (environmentEntries environment)) :
    ∃ s, Settings.load? file environment = some s ∧
      Settings.load? file (environment.filter fun v => (variableKey? v.1).isSome) = some s ∧
      (∀ key : SettingKey,
        (∀ v ∈ environment, ∀ x, lowerKey v.1 = key.variableName → key.Spells v.2 x →
          (key.given (environmentEntries environment)).length = 1 → key.value s = x) ∧
        (key.given (environmentEntries environment) = [] → (key.given entries).length = 1 →
          ∀ x, (key.given entries).getLast?.bind (key.plain? ·) = some x → key.value s = x) ∧
        (key.given (environmentEntries environment) = [] → key.given entries = [] →
          key.value s = key.value .standard)) ∧
      (∀ (key : SettingKey) (before after : List (String × String)) (v : String × String)
        (x : key.Value), environment = before ++ after → lowerKey v.1 = key.variableName →
        key.Spells v.2 x →
        ∃ t, Settings.load? file (before ++ v :: after) = some t ∧
          (key.given (environmentEntries environment) = [] → key.value t = x) ∧
          ∀ other, other ≠ key → other.value t = other.value s) ∧
      (∀ otherFile otherEnvironment otherEntries t, fileEntries? otherFile = some otherEntries →
        Fits otherEntries → Fits (environmentEntries otherEnvironment) →
        Settings.load? otherFile otherEnvironment = some t →
        ∀ key : SettingKey, key.given otherEntries = key.given entries →
          key.given (environmentEntries otherEnvironment) =
            key.given (environmentEntries environment) → key.value t = key.value s) := by
  obtain ⟨s, hload, hread⟩ := Settings.exists_load? hfile hentries hvariables
  refine ⟨s, hload, ?_, fun key => ⟨?_, ?_, ?_⟩, ?_, ?_⟩
  · rwa [Settings.load?, environmentEntries_filter]
  · intro v hv x hname htext hone
    exact Settings.value_of_variable hfile hentries hvariables hload hv hname htext hone
  · intro hnone _ x hx
    obtain ⟨setting, hsetting, hplain⟩ := Option.bind_eq_some_iff.1 hx
    have hread := hread key
    rw [hnone, hsetting] at hread
    exact (Option.some.inj ((key.read?_of_plain? hplain).symm.trans hread)).symm
  · intro hnone hnone'
    have hread := hread key
    rw [hnone, hnone'] at hread
    exact (Option.some.inj ((key.read?_literal _).symm.trans hread)).symm
  · rintro key before after v x rfl hname htext
    exact Settings.exists_load?_insert hfile hentries hvariables hload hname htext
  · intro otherFile otherEnvironment otherEntries t hfile' hentries' hvariables' hload' key hsame
      hsame'
    have hread' := Settings.read?_of_load? hfile' hentries' hvariables' hload' key
    rw [hsame, hsame'] at hread'
    exact Option.some.inj (hread'.symm.trans (hread key))

/-- A file that sets two keys of a section. -/
def pacingFile : String := "[pacing]\nbefore_persist_ms = 5\nafter_persist_ms = 6\n"

theorem isSome_fileEntries?_pacingFile : (fileEntries? (some pacingFile)).isSome := by
  decide +kernel

/-- The environment has set one of the keys, too, and other programs have variables. -/
def pacingEnvironment : List (String × String) :=
  [("PATH", "/bin"), ("RECONCILER__PACING__AFTER_PERSIST_MS", "7")]

theorem settings_layered_of_pacing :
    ∃ s, Settings.load? (some pacingFile) pacingEnvironment = some s ∧
      Settings.load? (some pacingFile) [("RECONCILER__PACING__AFTER_PERSIST_MS", "7")] = some s ∧
      s.pacing.beforePersistMs = 5 ∧ s.pacing.afterPersistMs = 7 ∧
      s.workflow.pendingRequeueSeconds = 10 := by
  have hvariable : lowerKey "RECONCILER__PACING__AFTER_PERSIST_MS" =
      SettingKey.afterPersistMs.variableName := by
    decide +kernel
  have htext : SettingKey.afterPersistMs.Spells "7" (7 : UInt64) := by
    change integerOfChars? _ = _
    decide +kernel
  have hfilter : pacingEnvironment.filter (fun v => (variableKey? v.1).isSome) =
      [("RECONCILER__PACING__AFTER_PERSIST_MS", "7")] := by
    decide +kernel
  have hfile : Fits ((fileEntries? (some pacingFile)).get isSome_fileEntries?_pacingFile) := by
    refine fits_of_sections (by decide +kernel) (fun entry hentry key => ?_)
      (fun entry hentry key => ?_)
    · revert entry
      cases key <;> decide +kernel
    · revert entry
      cases key <;> decide +kernel
  obtain ⟨s, hload, hfiltered, hkeys, -, -⟩ := settings_layered
    (Option.some_get isSome_fileEntries?_pacingFile).symm hfile
    (show Fits (environmentEntries pacingEnvironment) by decide +kernel)
  rw [hfilter] at hfiltered
  refine ⟨s, hload, hfiltered, ?_, ?_, ?_⟩
  · exact (hkeys .beforePersistMs).2.1 (List.isEmpty_iff.1 (by decide +kernel))
      (by decide +kernel) (5 : UInt64) (by decide +kernel)
  · exact (hkeys .afterPersistMs).1 ("RECONCILER__PACING__AFTER_PERSIST_MS", "7")
      (by decide +kernel) _ hvariable htext (by decide +kernel)
  · exact (hkeys .pendingRequeueSeconds).2.2 (List.isEmpty_iff.1 (by decide +kernel))
      (List.isEmpty_iff.1 (by decide +kernel))

/-- A file with one key, which no section has as its name but which leads into one. -/
def placeFile : String := "'pacing[0]' = 3\n"

theorem isSome_fileEntries?_placeFile : (fileEntries? (some placeFile)).isSome := by
  decide +kernel

/-- A file whose keys are no sections may set known keys, and a variable beyond the signed
integers of 64 bits is read as a binary64 number. -/
theorem not_forall_layered_as_spelled :
    (¬ ∀ text entries, fileEntries? (some text) = some entries →
      (∀ key : SettingKey, ∀ entry ∈ entries, lowerKey entry.1 ≠ key.sectionName) →
      Settings.load? (some text) [] = some .standard) ∧
    ¬ ∀ name text n, lowerKey name = SettingKey.beforePersistMs.variableName →
      naturalOfChars? text.toList = some n → n < UInt64.size →
      (Settings.load? none [(name, text)]).map (·.pacing.beforePersistMs.toNat) = some n := by
  constructor
  · intro h
    have hunknown : ∀ key : SettingKey,
        ∀ entry ∈ (fileEntries? (some placeFile)).get isSome_fileEntries?_placeFile,
          lowerKey entry.1 ≠ key.sectionName := by
      intro key
      cases key <;> decide +kernel
    have hload := h placeFile _ (Option.some_get isSome_fileEntries?_placeFile).symm hunknown
    exact absurd hload (by decide +kernel)
  · intro h
    have hvalue := h "RECONCILER__PACING__BEFORE_PERSIST_MS" "9223372036854775809"
      9223372036854775809 (by decide +kernel) (by decide +kernel) (by decide)
    exact absurd hvalue (by decide +kernel)

end Reconciliation
