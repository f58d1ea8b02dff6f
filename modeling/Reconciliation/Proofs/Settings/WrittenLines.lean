/-
# Written documents read back

A document that consists of headers and of bare keys with single values is read line by line
(`Toml.ReadsTo`).  A written table (`Toml.WrittenTable`) carries what makes it readable: bare
names, keys that differ, and values that are read as their settings; so a document of such
tables, with an empty line between two of them, is read as these tables
(`Toml.parse_documentOf`).
-/

import Reconciliation.Proofs.Json.Tokens
import Reconciliation.Proofs.Settings.WrittenText
import Reconciliation.Settings.Save
import Reconciliation.Settings.Toml.Document

namespace Reconciliation
namespace Toml

open Json (decimal_eq_zero_cons isDigit_of_mem_decimal digitsValue_decimal)

/-! ## Single values -/

/-- Characters differ when only one of them is of a kind. -/
theorem ne_of_kind {kind : Char → Bool} {c d : Char} (hc : kind c = true) (hd : kind d = false) :
    c ≠ d := by
  rintro rfl
  rw [hc] at hd
  cases hd

/-- A value at the end of a line is read as a setting. -/
def ReadsAs (value : List Char) (setting : Setting) : Prop :=
  ∀ rest, readValue (skipBlanks (value ++ '\n' :: rest)) = some (setting, '\n' :: rest)

/-- What begins with no bracket or brace holds no other values. -/
theorem readNested_eq_readScalar {c : Char} (hlist : c ≠ '[') (htable : c ≠ '{') (depth : Nat)
    (text : List Char) : readNested depth (c :: text) = readScalar (c :: text) := by
  cases depth with
  | zero => rfl
  | succ depth =>
    rw [readNested]
    dsimp only
    split
    · exact absurd (List.cons.inj ‹_›).1 hlist
    · exact absurd (List.cons.inj ‹_›).1 htable
    · rfl

/-- A value that stands alone is read as a setting. -/
theorem readsAs_of_readScalar {c : Char} {value : List Char} {setting : Setting}
    (hblank : isBlank c = false) (hlist : c ≠ '[') (htable : c ≠ '{')
    (h : ∀ rest, readScalar (c :: (value ++ '\n' :: rest)) = some (setting, '\n' :: rest)) :
    ReadsAs (c :: value) setting := by
  intro rest
  have hskip : skipBlanks (c :: value ++ '\n' :: rest) = c :: (value ++ '\n' :: rest) :=
    List.dropWhile_cons_of_neg (by simp [hblank])
  rw [hskip, readValue, readNested_eq_readScalar hlist htable, h rest]

theorem readsAs_flag (b : Bool) : ReadsAs (flagChars b) (.flag b) := by
  cases b with
  | true => exact readsAs_of_readScalar (by decide) (by decide) (by decide) fun rest => rfl
  | false => exact readsAs_of_readScalar (by decide) (by decide) (by decide) fun rest => rfl

/-- Every form of a text begins with a mark. -/
theorem exists_writeText (s : String) :
    ∃ mark body, writeText s = mark :: body ∧ (mark = '"' ∨ mark = '\'') := by
  rw [writeText]
  cases formOf s.toList with
  | basic => exact ⟨_, _, rfl, .inl rfl⟩
  | literal => exact ⟨_, _, rfl, .inr rfl⟩
  | basicLines => exact ⟨_, _, rfl, .inl rfl⟩
  | literalLines => exact ⟨_, _, rfl, .inr rfl⟩

theorem readsAs_text (s : String) : ReadsAs (writeText s) (.text s) := by
  obtain ⟨mark, body, htext, hmark⟩ := exists_writeText s
  have hread : ∀ rest, readText (mark :: (body ++ '\n' :: rest)) = some (s, '\n' :: rest) := by
    intro rest
    have hunmarked : Unmarked ('\n' :: rest) := by
      intro c hc
      obtain rfl := Option.some.inj hc
      decide
    have h := readText_writeText s hunmarked
    rwa [htext] at h
  have hscalar : ∀ rest, readScalar (mark :: (body ++ '\n' :: rest)) =
      some (.text s, '\n' :: rest) := by
    intro rest
    rw [readScalar, if_pos hmark, hread]
    rfl
  rw [htext]
  rcases hmark with rfl | rfl <;>
    exact readsAs_of_readScalar (by decide) (by decide) (by decide) hscalar

/-! ## Numbers -/

/-- A text that ends its line right after some digits. -/
def DigitsLine (text : List Char) : Prop :=
  ∃ digits rest, text = digits ++ '\n' :: rest ∧ ∀ c ∈ digits, c.isDigit = true

/-- A line of digits goes on with a digit or ends. -/
theorem DigitsLine.expectWord_eq_none {text : List Char} (h : DigitsLine text) (mark : Char)
    (hdigit : mark.isDigit = false) (hfeed : mark ≠ '\n') : expectWord [mark] text = none := by
  obtain ⟨digits, rest, rfl, hdigits⟩ := h
  cases digits with
  | nil => simp [expectWord, Ne.symm hfeed]
  | cons c digits =>
    have hc : c ≠ mark := ne_of_kind (hdigits c List.mem_cons_self) hdigit
    simp [expectWord, hc]

/-- A field of a date or a time takes digits off a line of digits. -/
theorem DigitsLine.readField {width low high : Nat} {text field after : List Char}
    (h : DigitsLine text) (hread : Toml.readField width low high text = some (field, after)) :
    DigitsLine after := by
  obtain ⟨digits, rest, rfl, hdigits⟩ := h
  unfold Toml.readField at hread
  obtain ⟨⟨-, hall, -⟩, hafter⟩ := Option.ite_none_right_eq_some.1 hread
  obtain ⟨-, rfl⟩ := Prod.mk.inj (Option.some.inj hafter)
  have hwidth : width ≤ digits.length := by
    refine Nat.le_of_not_lt fun hlong => ?_
    obtain ⟨k, hk⟩ := Nat.exists_eq_add_of_lt hlong
    have hfeed : '\n' ∈ (digits ++ '\n' :: rest).take width := by
      have htake : width - digits.length = k + 1 := by omega
      rw [List.take_append, htake, List.take_succ_cons]
      exact List.mem_append_right _ List.mem_cons_self
    exact absurd (List.all_eq_true.1 hall _ hfeed) (by decide)
  exact ⟨digits.drop width, rest, List.drop_append_of_le_length hwidth,
    fun c hc => hdigits c (List.mem_of_mem_drop hc)⟩

/-- A line of digits spells no date and no time. -/
theorem DigitsLine.readInstant_eq_none {text : List Char} (h : DigitsLine text) :
    readInstant text = none := by
  have hdate : readDate text = none := by
    cases hyear : Toml.readField 4 0 9999 text with
    | none => simp [readDate, hyear]
    | some year =>
      have hdash := (h.readField hyear).expectWord_eq_none '-' (by decide) (by decide)
      simp [readDate, hyear, hdash]
  have htime : readTime text = none := by
    cases hhour : Toml.readField 2 0 23 text with
    | none => simp [readTime, hhour]
    | some hour =>
      have hcolon := (h.readField hhour).expectWord_eq_none ':' (by decide) (by decide)
      simp [readTime, hhour, hcolon]
  rw [readInstant, hdate, htime]
  rfl

theorem takeRun_digits {digits : List Char} (h : ∀ c ∈ digits, c.isDigit = true)
    (rest : List Char) :
    takeRun Char.isDigit (digits ++ '\n' :: rest) = (digits, '\n' :: rest) := by
  induction digits with
  | nil => simp [takeRun]
  | cons c digits ih =>
    have htail := ih fun d hd => h d (List.mem_cons_of_mem c hd)
    simp [takeRun, h c List.mem_cons_self, htail]

/-- A number is spelled by a zero or begins with another digit. -/
theorem decimal_cases (n : Nat) :
    decimal n = ['0'] ∨ ∃ d tail, decimal n = d :: tail ∧ d ≠ '0' ∧ d.isDigit = true := by
  cases hspelled : decimal n with
  | nil => exact absurd hspelled Nat.toDigits_ne_nil
  | cons d tail =>
    by_cases hzero : d = '0'
    · subst d
      rw [decimal_eq_zero_cons hspelled]
      exact .inl rfl
    · exact .inr ⟨d, tail, rfl, hzero, isDigit_of_mem_decimal (hspelled ▸ List.mem_cons_self)⟩

theorem readWhole_decimal (n : Nat) (rest : List Char) :
    readWhole (decimal n ++ '\n' :: rest) = some (decimal n, '\n' :: rest) := by
  have hrun := takeRun_digits (fun c => isDigit_of_mem_decimal (n := n)) rest
  rcases decimal_cases n with hzero | ⟨d, tail, hspelled, hd, hdigit⟩
  · rw [hzero]
    rfl
  · rw [hspelled, List.cons_append] at hrun ⊢
    simp [readWhole, hd, readRun, hdigit, hrun]

theorem readSign_decimal (n : Nat) (rest : List Char) :
    readSign (decimal n ++ rest) = (false, decimal n ++ rest) := by
  rcases decimal_cases n with hzero | ⟨d, tail, hspelled, -, hdigit⟩
  · rw [hzero]
    rfl
  · rw [hspelled, List.cons_append]
    have hminus : d ≠ '-' := ne_of_kind hdigit (by decide)
    have hplus : d ≠ '+' := ne_of_kind hdigit (by decide)
    simp [readSign, hminus, hplus]

theorem readSpecial_decimal (n : Nat) (rest : List Char) :
    readSpecial false (decimal n ++ rest) = none := by
  rcases decimal_cases n with hzero | ⟨d, tail, hspelled, -, hdigit⟩
  · rw [hzero]
    rfl
  · rw [hspelled, List.cons_append]
    have hinfinite : d ≠ 'i' := ne_of_kind hdigit (by decide)
    have hundefined : d ≠ 'n' := ne_of_kind hdigit (by decide)
    simp [readSpecial, expectWord, hinfinite, hundefined]

theorem readReal_decimal (n : Nat) (rest : List Char) :
    readReal (decimal n ++ '\n' :: rest) = none := by
  have hexponent : readExponent ('\n' :: rest) = some (none, '\n' :: rest) := rfl
  simp [readReal, readSign_decimal, readSpecial_decimal, readWhole_decimal, readFraction, hexponent]

/-- A number that begins with a zero ends there. -/
theorem eq_lineFeed_of_decimal {n : Nat} {c : Char} {rest tail : List Char}
    (h : '0' :: c :: tail = decimal n ++ '\n' :: rest) : c = '\n' := by
  rcases decimal_cases n with hzero | ⟨d, digits, hspelled, hd, -⟩
  · rw [hzero] at h
    exact (List.cons.inj (List.cons.inj h).2).1
  · rw [hspelled] at h
    exact absurd (List.cons.inj h).1.symm hd

theorem readInteger_decimal {n : Nat} (h : n < integerBound) (rest : List Char) :
    readInteger (decimal n ++ '\n' :: rest) = some (.integer n, '\n' :: rest) := by
  have hsigned : signedInteger? false n = some (n : Int) := by
    rw [signedInteger?, if_neg (by decide), if_pos h]
  have hread : ∀ text, text = decimal n ++ '\n' :: rest →
      readInteger text = some (.integer n, '\n' :: rest) := by
    intro text htext
    unfold readInteger
    split
    · exact absurd (eq_lineFeed_of_decimal htext) (by decide)
    · exact absurd (eq_lineFeed_of_decimal htext) (by decide)
    · exact absurd (eq_lineFeed_of_decimal htext) (by decide)
    · rw [htext, readSign_decimal]
      simp [readWhole_decimal, hsigned]
  exact hread _ rfl

/-- **A number below the bound is read back.** -/
theorem readsAs_decimal {n : Nat} (h : n < integerBound) : ReadsAs (decimal n) (.integer n) := by
  have hline : ∀ rest, DigitsLine (decimal n ++ '\n' :: rest) := fun rest =>
    ⟨decimal n, rest, rfl, fun c => isDigit_of_mem_decimal⟩
  have hread : ∀ rest, readNumber (decimal n ++ '\n' :: rest) =
      some (.integer n, '\n' :: rest) := by
    intro rest
    rw [readNumber, (hline rest).readInstant_eq_none, readReal_decimal, readInteger_decimal h]
    rfl
  cases hspelled : decimal n with
  | nil => exact absurd hspelled Nat.toDigits_ne_nil
  | cons d tail =>
    have hdigit : d.isDigit = true := isDigit_of_mem_decimal (hspelled ▸ List.mem_cons_self)
    rw [hspelled] at hread
    have hne : ∀ c : Char, c.isDigit = false → d ≠ c := fun c => ne_of_kind hdigit
    refine readsAs_of_readScalar ?_ (hne '[' (by decide)) (hne '{' (by decide)) fun rest => ?_
    · simp [isBlank, hne ' ' (by decide), hne '\t' (by decide)]
    · rw [readScalar, if_neg, if_neg (hne 't' (by decide)), if_neg (hne 'f' (by decide))]
      · exact hread rest
      · exact fun hmark => hmark.elim (hne '"' (by decide)) (hne '\'' (by decide))

/-! ## Lines -/

/-- A key that needs no marks. -/
def IsBare (key : String) : Prop := key.toList ≠ [] ∧ key.toList.all isKeyChar = true

instance (key : String) : Decidable (IsBare key) :=
  inferInstanceAs (Decidable (key.toList ≠ [] ∧ key.toList.all isKeyChar = true))

theorem IsBare.isKeyChar {key : String} (h : IsBare key) {c : Char} (hc : c ∈ key.toList) :
    Toml.isKeyChar c = true :=
  List.all_eq_true.1 h.2 c hc

theorem readKey_bare {key : String} (hkey : IsBare key) {rest : List Char}
    (hrest : ∀ c ∈ rest.head?, isKeyChar c = false) :
    readKey (key.toList ++ rest) = some (key, rest) := by
  have hchars := fun c => hkey.isKeyChar (c := c)
  have hstop : rest.takeWhile isKeyChar = [] := by
    cases rest with
    | nil => rfl
    | cons c rest => exact List.takeWhile_cons_of_neg (by simp [hrest c rfl])
  have hbare : (key.toList ++ rest).takeWhile isKeyChar = key.toList := by
    rw [List.takeWhile_append_of_pos hchars, hstop, List.append_nil]
  have hmark : ∀ mark tail, isKeyChar mark = false → key.toList ++ rest ≠ mark :: tail := by
    intro mark tail hmark htext
    cases hspelled : key.toList with
    | nil => exact hkey.1 hspelled
    | cons c chars =>
      rw [hspelled, List.cons_append] at htext
      exact ne_of_kind (hchars c (hspelled ▸ List.mem_cons_self)) hmark
        (List.cons.inj htext).1
  unfold readKey
  split
  · exact absurd ‹_› (hmark _ _ (by decide))
  · exact absurd ‹_› (hmark _ _ (by decide))
  · simp [hbare, hkey.1]

/-- A bare key alone is a path. -/
theorem readPath_bare {key : String} (hkey : IsBare key) {text rest : List Char} {mark : Char}
    (htext : ∀ c ∈ text.head?, isKeyChar c = false) (hskip : skipBlanks text = mark :: rest)
    (hdot : mark ≠ '.') : readPath (key.toList ++ text) = some ([key], mark :: rest) := by
  have hstart : skipBlanks (key.toList ++ text) = key.toList ++ text := by
    cases hspelled : key.toList with
    | nil => exact absurd hspelled hkey.1
    | cons c chars =>
      have hc := hkey.isKeyChar (hspelled ▸ List.mem_cons_self)
      have hblank : isBlank c = false := by
        simp [isBlank, ne_of_kind hc (d := ' ') (by decide),
          ne_of_kind hc (d := '\t') (by decide)]
      exact List.dropWhile_cons_of_neg (by simp [hblank])
  have hlimit : nestingBound - 1 = 78 + 1 := rfl
  rw [readPath, hlimit, readKeys, hstart, readKey_bare hkey htext]
  simp [hskip, hdot]

/-- The lines from here on are read, whatever fuel is left for them. -/
def ReadsTo (draft : Draft) (text : List Char) (final : Draft) : Prop :=
  ∀ fuel, text.length < fuel → readLines fuel draft text = some final

theorem readsTo_nil (draft : Draft) : ReadsTo draft [] draft := by
  intro fuel hfuel
  cases fuel with
  | zero => cases hfuel
  | succ fuel => rfl

theorem ReadsTo.lineFeed {draft final : Draft} {rest : List Char} (h : ReadsTo draft rest final) :
    ReadsTo draft ('\n' :: rest) final := by
  intro fuel hfuel
  rw [List.length_cons] at hfuel
  have hrest := h fuel (by omega)
  cases fuel with
  | zero => cases hfuel
  | succ fuel => exact hrest

/-- A line that is read up to its end is followed by the rest. -/
theorem ReadsTo.line {draft next final : Draft} {c : Char} {rest : List Char}
    (h : ReadsTo next rest final) (line : List Char) (hc : isKeyChar c = true ∨ c = '[')
    (hline : readLine draft (c :: (line ++ '\n' :: rest)) = some (next, '\n' :: rest)) :
    ReadsTo draft (c :: (line ++ '\n' :: rest)) final := by
  have hne : ∀ d, isKeyChar d = false → d ≠ '[' → c ≠ d := by
    intro d hd hbracket
    rcases hc with hc | rfl
    · exact ne_of_kind hc hd
    · exact Ne.symm hbracket
  have hskip : skipFiller false (c :: (line ++ '\n' :: rest)) = c :: (line ++ '\n' :: rest) := by
    simp [skipFiller, isBlank, hne '\n' (by decide) (by decide), hne '\r' (by decide) (by decide),
      hne ' ' (by decide) (by decide), hne '\t' (by decide) (by decide),
      hne '#' (by decide) (by decide)]
  intro fuel hfuel
  simp only [List.length_cons, List.length_append] at hfuel
  cases fuel with
  | zero => cases hfuel
  | succ fuel =>
    have hrest : readLines fuel next ('\n' :: rest) = some final := by
      refine h.lineFeed fuel ?_
      simp only [List.length_cons]
      omega
    have hends : endsLine ('\n' :: rest) = true := rfl
    rw [readLines, hskip]
    simp [hline, hends, hrest]

/-- A header is read. -/
theorem ReadsTo.header {draft next final : Draft} {rest : List Char} {name : String}
    (h : ReadsTo next rest final) (hname : IsBare name)
    (hopen : draft.openTable [name] = some next) :
    ReadsTo draft (headerLine name ++ rest) final := by
  have hpath : readPath (name.toList ++ ']' :: '\n' :: rest) =
      some ([name], ']' :: '\n' :: rest) := by
    refine readPath_bare hname ?_ rfl (by decide)
    intro c hc
    obtain rfl := Option.some.inj hc
    decide
  have hline : readLine draft ('[' :: (name.toList ++ ']' :: '\n' :: rest)) =
      some (next, '\n' :: rest) := by
    cases hspelled : name.toList with
    | nil => exact absurd hspelled hname.1
    | cons c chars =>
      have hc : c ≠ '[' :=
        ne_of_kind (hname.isKeyChar (hspelled ▸ List.mem_cons_self)) (by decide)
      rw [hspelled, List.cons_append] at hpath
      rw [List.cons_append, readLine, hpath]
      · simp [expectWord, hopen]
      · exact fun text htext => hc (List.cons.inj htext).1
  have hlines := h.line (name.toList ++ [']']) (.inr rfl) (by simpa using hline)
  simpa [headerLine] using hlines

/-- A key with its value is read. -/
theorem ReadsTo.setting {draft next final : Draft} {rest value : List Char} {key : String}
    {setting : Setting} (h : ReadsTo next rest final) (hkey : IsBare key)
    (hvalue : ReadsAs value setting) (hassign : draft.assign [key] setting = some next) :
    ReadsTo draft (settingLine key value ++ rest) final := by
  have hpath : readPath (key.toList ++ ' ' :: '=' :: ' ' :: (value ++ '\n' :: rest)) =
      some ([key], '=' :: ' ' :: (value ++ '\n' :: rest)) := by
    refine readPath_bare hkey ?_ rfl (by decide)
    intro c hc
    obtain rfl := Option.some.inj hc
    decide
  have hskip : skipBlanks (' ' :: (value ++ '\n' :: rest)) = skipBlanks (value ++ '\n' :: rest) :=
    List.dropWhile_cons_of_pos (by decide)
  have hpair : readPair readValue (key.toList ++ ' ' :: '=' :: ' ' :: (value ++ '\n' :: rest)) =
      some (([key], setting), '\n' :: rest) := by
    simp [readPair, hpath, expectWord, hskip, hvalue rest]
  cases hspelled : key.toList with
  | nil => exact absurd hspelled hkey.1
  | cons c chars =>
    have hc := hkey.isKeyChar (hspelled ▸ List.mem_cons_self)
    rw [hspelled, List.cons_append] at hpair
    have hline : readLine draft (c :: (chars ++ ' ' :: '=' :: ' ' :: (value ++ '\n' :: rest))) =
        some (next, '\n' :: rest) := by
      have hbracket : c ≠ '[' := ne_of_kind hc (by decide)
      unfold readLine
      split
      · exact absurd (List.cons.inj ‹_›).1 hbracket
      · exact absurd (List.cons.inj ‹_›).1 hbracket
      · simp [hpair, hassign]
    have hlines := h.line (chars ++ ' ' :: '=' :: ' ' :: value) (.inl hc) (by simpa using hline)
    simpa [settingLine, hspelled] using hlines

/-! ## Tables -/

/-- A setting as it is written into a table. -/
structure WrittenSetting where
  key : String
  value : List Char
  setting : Setting
  bare : IsBare key
  reads : ReadsAs value setting
  /-- No table with an instant in it. -/
  plain : withInstants? setting = some setting

/-- A table as it is written into a document. -/
structure WrittenTable where
  name : String
  members : List WrittenSetting
  bare : IsBare name
  nodup : (members.map WrittenSetting.key).Nodup

/-- The line of a setting. -/
def WrittenSetting.line (m : WrittenSetting) : List Char := settingLine m.key m.value

/-- The member of a table that a setting becomes. -/
def WrittenSetting.node (m : WrittenSetting) : String × Node := (m.key, .value m.setting)

/-- The entry that a setting becomes. -/
def WrittenSetting.entry (m : WrittenSetting) : String × Setting := (m.key, m.setting)

/-- The lines of a table. -/
def WrittenTable.lines (t : WrittenTable) : List Char :=
  headerLine t.name ++ t.members.flatMap WrittenSetting.line

/-- The member of the document that a table becomes. -/
def WrittenTable.node (t : WrittenTable) : String × Node :=
  (t.name, .table .header (t.members.map WrittenSetting.node))

/-- The entry that a table becomes. -/
def WrittenTable.entry (t : WrittenTable) : String × Setting :=
  (t.name, .table (t.members.map WrittenSetting.entry))

/-- A document of tables, with an empty line between two of them. -/
def documentOf : List WrittenTable → List Char
  | [] => []
  | [t] => t.lines
  | t :: tables => t.lines ++ '\n' :: documentOf tables

section Entries

variable {α : Type} {key : String} {entries : List (String × α)}

theorem findEntry_eq_none (h : key ∉ entries.map Prod.fst) : findEntry key entries = none := by
  induction entries with
  | nil => rfl
  | cons entry entries ih =>
    rw [List.map_cons, List.mem_cons, not_or] at h
    rw [findEntry, if_neg (Ne.symm h.1), ih h.2]

theorem findEntry_append (h : key ∉ entries.map Prod.fst) (value : α)
    (later : List (String × α)) :
    findEntry key (entries ++ (key, value) :: later) = some value := by
  induction entries with
  | nil => exact if_pos rfl
  | cons entry entries ih =>
    rw [List.map_cons, List.mem_cons, not_or] at h
    rw [List.cons_append, findEntry, if_neg (Ne.symm h.1), ih h.2]

theorem putEntry_of_not_mem (h : key ∉ entries.map Prod.fst) (value : α) :
    putEntry key value entries = entries ++ [(key, value)] := by
  induction entries with
  | nil => rfl
  | cons entry entries ih =>
    rw [List.map_cons, List.mem_cons, not_or] at h
    rw [putEntry, if_neg (Ne.symm h.1), ih h.2, List.cons_append]

theorem putEntry_append (h : key ∉ entries.map Prod.fst) (value other : α)
    (later : List (String × α)) :
    putEntry key value (entries ++ (key, other) :: later) = entries ++ (key, value) :: later := by
  induction entries with
  | nil => exact if_pos rfl
  | cons entry entries ih =>
    rw [List.map_cons, List.mem_cons, not_or] at h
    rw [List.cons_append, putEntry, if_neg (Ne.symm h.1), ih h.2, List.cons_append]

end Entries

/-- The draft after some tables, while another one is under construction. -/
def draftOf (done : List (String × Node)) (name : String) (members : List (String × Node)) :
    Draft :=
  ⟨⟨.header, done ++ [(name, .table .header members)]⟩, [name]⟩

/-- A header opens a table that is new. -/
theorem openTable_eq {members : List (String × Node)} {name : String}
    (h : name ∉ members.map Prod.fst) (header : List String) :
    Draft.openTable ⟨⟨.header, members⟩, header⟩ [name] = some (draftOf members name []) := by
  simp [Draft.openTable, Block.openTable, Block.change, findEntry_eq_none h, Block.put,
    putEntry_of_not_mem h, draftOf]

/-- A key that is new is given its value in the table under construction. -/
theorem assign_draftOf {done members : List (String × Node)} {name key : String}
    (hname : name ∉ done.map Prod.fst) (hkey : key ∉ members.map Prod.fst) (setting : Setting) :
    (draftOf done name members).assign [key] setting =
      some (draftOf done name (members ++ [(key, .value setting)])) := by
  simp [Draft.assign, draftOf, Block.change, findEntry_append hname, Block.assign, Block.define,
    findEntry_eq_none hkey, Block.put, putEntry_of_not_mem hkey, putEntry_append hname]

/-- The settings of a table are read one after the other. -/
theorem ReadsTo.members {done : List (String × Node)} {name : String}
    (hname : name ∉ done.map Prod.fst) {rest : List Char} {final : Draft}
    (written : List WrittenSetting) (members : List (String × Node))
    (hnodup : (members.map Prod.fst ++ written.map WrittenSetting.key).Nodup)
    (h : ReadsTo (draftOf done name (members ++ written.map WrittenSetting.node)) rest final) :
    ReadsTo (draftOf done name members) (written.flatMap WrittenSetting.line ++ rest) final := by
  induction written generalizing members with
  | nil => simpa using h
  | cons m written ih =>
    have hkey : m.key ∉ members.map Prod.fst := by
      intro hmem
      rw [List.map_cons] at hnodup
      exact (List.nodup_append.1 hnodup).2.2 _ hmem _ List.mem_cons_self rfl
    have hmore := ih (members ++ [m.node]) (by simpa [WrittenSetting.node] using hnodup)
      (by simpa using h)
    rw [List.flatMap_cons, List.append_assoc]
    exact hmore.setting m.bare m.reads (assign_draftOf hname hkey m.setting)

/-- A table is read after others. -/
theorem ReadsTo.table {t : WrittenTable} {done : List (String × Node)} (header : List String)
    {rest : List Char} {final : Draft} (hname : t.name ∉ done.map Prod.fst)
    (h : ReadsTo ⟨⟨.header, done ++ [t.node]⟩, [t.name]⟩ rest final) :
    ReadsTo ⟨⟨.header, done⟩, header⟩ (t.lines ++ rest) final := by
  have hmembers := ReadsTo.members hname t.members [] t.nodup h
  rw [WrittenTable.lines, List.append_assoc]
  exact hmembers.header t.bare (openTable_eq hname header)

/-- The tables of a document are read one after the other. -/
theorem readsTo_documentOf (tables : List WrittenTable) (done : List (String × Node))
    (header : List String)
    (hnodup : (done.map Prod.fst ++ tables.map WrittenTable.name).Nodup) :
    ∃ last, ReadsTo ⟨⟨.header, done⟩, header⟩ (documentOf tables)
      ⟨⟨.header, done ++ tables.map WrittenTable.node⟩, last⟩ := by
  induction tables generalizing done header with
  | nil => exact ⟨header, by simpa [documentOf] using readsTo_nil _⟩
  | cons t tables ih =>
    have hname : t.name ∉ done.map Prod.fst := by
      intro hmem
      rw [List.map_cons] at hnodup
      exact (List.nodup_append.1 hnodup).2.2 _ hmem _ List.mem_cons_self rfl
    obtain ⟨last, hrest⟩ := ih (done ++ [t.node]) [t.name]
      (by simpa [WrittenTable.node] using hnodup)
    rw [List.append_assoc, List.singleton_append] at hrest
    refine ⟨last, ?_⟩
    cases tables with
    | nil => simpa [documentOf] using ReadsTo.table header hname hrest
    | cons u tables => exact ReadsTo.table header hname hrest.lineFeed

/-! ## Documents -/

theorem membersSettings_settings (members : List WrittenSetting) :
    membersSettings (members.map WrittenSetting.node) = members.map WrittenSetting.entry := by
  induction members with
  | nil => rfl
  | cons m members ih =>
    rw [List.map_cons, List.map_cons, WrittenSetting.node, membersSettings, ih, Node.setting,
      WrittenSetting.entry]

theorem membersSettings_tables (tables : List WrittenTable) :
    membersSettings (tables.map WrittenTable.node) = tables.map WrittenTable.entry := by
  induction tables with
  | nil => rfl
  | cons t tables ih =>
    rw [List.map_cons, List.map_cons, WrittenTable.node, membersSettings, ih, Node.setting,
      membersSettings_settings, WrittenTable.entry]

/-- No bare key spells an instant. -/
theorem IsBare.ne_instantKey {key : String} (h : IsBare key) : key ≠ instantKey := by
  rintro rfl
  exact absurd h.2 (by decide)

/-- A table whose keys are bare and whose settings hold no instants holds none. -/
theorem withInstants?_table {entries : List (String × Setting)}
    (hbare : ∀ entry ∈ entries, IsBare entry.1)
    (hplain : ∀ entry ∈ entries, withInstants? entry.2 = some entry.2) :
    withInstants? (.table entries) = some (.table entries) := by
  have hinner : entriesWithInstants? entries = some entries := by
    clear hbare
    induction entries with
    | nil => rfl
    | cons entry entries ih =>
      have hrest := ih fun other hother => hplain other (List.mem_cons_of_mem _ hother)
      rw [entriesWithInstants?, hplain entry List.mem_cons_self, hrest]
      rfl
  have hhead : entries.head?.filter (fun entry => entry.1 = instantKey) = none := by
    cases entries with
    | nil => rfl
    | cons entry entries => simp [(hbare entry List.mem_cons_self).ne_instantKey]
  rw [withInstants?, hhead, hinner]
  rfl

/-- A document begins with a bracket, if with anything. -/
theorem dropMark_documentOf (tables : List WrittenTable) :
    dropMark (documentOf tables) = documentOf tables := by
  match tables with
  | [] => rfl
  | [_] => rfl
  | _ :: _ :: _ => rfl

/-- **A document of tables is read back.** -/
theorem parse_documentOf {tables : List WrittenTable}
    (hnodup : (tables.map WrittenTable.name).Nodup) :
    parse (String.ofList (documentOf tables)) = some (tables.map WrittenTable.entry) := by
  obtain ⟨last, hreads⟩ := readsTo_documentOf tables [] [] (by simpa using hnodup)
  have hlines : readLines ((documentOf tables).length + 1) .start (documentOf tables) =
      some ⟨⟨.header, tables.map WrittenTable.node⟩, last⟩ := hreads _ (Nat.lt_succ_self _)
  have hinstants : withInstants? (.table (tables.map WrittenTable.entry)) =
      some (.table (tables.map WrittenTable.entry)) := by
    refine withInstants?_table ?_ ?_
    · intro entry hentry
      obtain ⟨t, -, rfl⟩ := List.mem_map.1 hentry
      exact t.bare
    · intro entry hentry
      obtain ⟨t, -, rfl⟩ := List.mem_map.1 hentry
      refine withInstants?_table ?_ ?_
      · intro member hmember
        obtain ⟨m, -, rfl⟩ := List.mem_map.1 hmember
        exact m.bare
      · intro member hmember
        obtain ⟨m, -, rfl⟩ := List.mem_map.1 hmember
        exact m.plain
  simp [parse, dropMark_documentOf, hlines, Block.settings, membersSettings_tables, hinstants]

end Toml
end Reconciliation
