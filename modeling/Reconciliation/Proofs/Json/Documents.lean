/-
# Documents are read and passed over

The readers of any document against the grammar.  `parse` reads exactly the texts
that denote a document, and to that document (`parse_eq_ok_iff`); `skipValue` passes
over whatever document stands before it, however deep (`skipValue_spelled`).

Both are proved along the document.  What a reader is given as fuel is counted
against the text, of which every step takes a character or closes a bracket that was
a character before.
-/

import Reconciliation.Proofs.Json.Grammar

namespace Reconciliation
namespace Json

/-! ## Passing over a document -/

mutual
/-- How many steps it takes to pass over a document. -/
def Value.steps : Value → Nat
  | .list (item :: items) => 1 + (item.steps + moreItemsSteps items)
  | .object ((_, value) :: members) => 1 + (value.steps + moreMembersSteps members)
  | _ => 1
termination_by structural value => value

/-- How many steps it takes to pass over what follows an item of a list. -/
def moreItemsSteps : List Value → Nat
  | [] => 1
  | item :: items => 1 + (item.steps + moreItemsSteps items)
termination_by structural items => items

/-- How many steps it takes to pass over what follows a member of an object. -/
def moreMembersSteps : List (String × Value) → Nat
  | [] => 1
  | (_, value) :: members => 1 + (value.steps + moreMembersSteps members)
termination_by structural members => members
end

/-- Blanks before a document are passed over with it. -/
theorem skipNested_blank {lead : List Char} (h : Blank lead) (fuel : Nat) (outer : List Bracket)
    (rest : List Char) : skipNested fuel outer (lead ++ rest) = skipNested fuel outer rest := by
  cases fuel with
  | zero => rfl
  | succ fuel => simp only [skipNested, skipBlanks_blank h]

/-- A key is passed over with its colon. -/
theorem skipKey_spelled {lead colon name : List Char} {key : List Char} (hlead : Blank lead)
    (hname : Escapes key name) (hcolon : Colon colon) :
    ∃ after, Blank after ∧
      ∀ rest, skipKey (lead ++ '"' :: (name ++ '"' :: (colon ++ rest))) = .ok (after ++ rest) := by
  obtain ⟨after, hafter, hexpect⟩ := hcolon.expectColon
  refine ⟨after, hafter, fun rest => ?_⟩
  have hskip : ∀ text, skipBlanks (lead ++ '"' :: text) = '"' :: text := fun text =>
    (skipBlanks_blank hlead _).trans rfl
  simp [skipKey, hskip, hname.skipText, hexpect, bind, Except.bind]

/-- A digit begins no word and is no sign. -/
theorem ne_of_isDigit {c : Char} (hc : c.isDigit = true) :
    c ≠ 'n' ∧ c ≠ 't' ∧ c ≠ 'f' ∧ c ≠ '-' := by
  refine ⟨?_, ?_, ?_, ?_⟩ <;>
  · rintro rfl
    exact absurd hc (by decide)

/-- A number is passed over. -/
theorem NumberSpelled.skipNested {value : Value} {text : List Char} (h : NumberSpelled value text)
    {rest : List Char} (hrest : Ended rest) (fuel : Nat) (outer : List Bracket) :
    skipNested (fuel + 1) outer (text ++ rest) = skipAfter fuel outer rest := by
  obtain ⟨negative, numeral, body, hbody, rfl, -⟩ := h
  have hscan := hbody.scanNumeral hrest .malformed
  obtain ⟨c, tail, rfl, hc⟩ := hbody.eq_cons
  cases negative with
  | true =>
    have hminus : ∀ text, skipBlanks ('-' :: text) = '-' :: text := fun _ => rfl
    rw [List.cons_append] at hscan
    simp [Json.skipNested, hminus, skipNumber, hscan, bind, Except.bind]
  | false =>
    have hopen := skipBlanks_of_isOpening (isOpening_of_isDigit hc) (tail ++ rest)
    have hword := ne_of_isDigit hc
    rw [List.cons_append] at hscan
    simp [Json.skipNested, hopen, hword, hc, skipNumber, hscan, bind, Except.bind]

/-- The list goes on with the document that stands behind its bracket. -/
theorem skipNested_bracket {value : Value} {lead text : List Char} (hlead : Blank lead)
    (h : value.Spelled text) (fuel : Nat) (outer : List Bracket) (rest : List Char) :
    skipNested (fuel + 1) outer ('[' :: (lead ++ (text ++ rest))) =
      skipNested fuel (.square :: outer) (text ++ rest) := by
  have hbracket : ∀ text, skipBlanks ('[' :: text) = '[' :: text := fun _ => rfl
  obtain ⟨c, tail, rfl, hc⟩ := h.eq_cons
  have hopen := Value.isOpening_of_beginsWith hc
  have hskip : skipBlanks (lead ++ c :: (tail ++ rest)) = c :: (tail ++ rest) :=
    (skipBlanks_blank hlead _).trans (skipBlanks_of_isOpening hopen _)
  have hclose : c ≠ ']' := by
    rintro rfl
    exact absurd hopen (by decide)
  simp [skipNested, hbracket, hskip, hclose]

mutual
/-- **A document is passed over, in as many steps as it takes.** -/
theorem skipNested_spelled (value : Value) {text : List Char} (h : value.Spelled text)
    {rest : List Char} (hrest : Ended rest) (fuel : Nat) (outer : List Bracket) :
    skipNested (fuel + value.steps) outer (text ++ rest) = skipAfter fuel outer rest := by
  match value, h with
  | .null, h =>
    obtain rfl := h
    rfl
  | .bool true, h =>
    obtain rfl := h
    rfl
  | .bool false, h =>
    obtain rfl := h
    rfl
  | .natural n, h => exact NumberSpelled.skipNested h hrest fuel outer
  | .number spelling, h => exact NumberSpelled.skipNested h hrest fuel outer
  | .text s, h =>
    obtain ⟨body, hbody, rfl⟩ := h
    have hquote : ∀ text, skipBlanks ('"' :: text) = '"' :: text := fun _ => rfl
    simp [Value.steps, skipNested, hquote, hbody.skipText, bind, Except.bind]
  | .list [], ⟨body, hbody, htext⟩ =>
    obtain rfl := htext
    have hbracket : ∀ text, skipBlanks ('[' :: text) = '[' :: text := fun _ => rfl
    have hclose : skipBlanks (body ++ ']' :: rest) = ']' :: rest := skipBlanks_blank hbody _
    simp [Value.steps, skipNested, hbracket, hclose]
  | .list (item :: items), ⟨_, ⟨lead, body, more, hlead, hitem, hmore, hbody⟩, htext⟩ =>
    obtain rfl := htext
    obtain rfl := hbody
    have hitem' := skipNested_spelled item hitem (hmore.ended rest)
      (fuel + moreItemsSteps items) (.square :: outer)
    have hmore' := skipAfter_items items hmore rest fuel outer
    have hfuel : fuel + (Value.list (item :: items)).steps =
        fuel + moreItemsSteps items + item.steps + 1 := by
      simp only [Value.steps]
      omega
    simp only [hfuel, List.cons_append, List.append_assoc, List.nil_append]
    rw [skipNested_bracket hlead hitem, hitem', hmore']
  | .object [], ⟨body, hbody, htext⟩ =>
    obtain rfl := htext
    have hbrace : ∀ text, skipBlanks ('\x7b' :: text) = '\x7b' :: text := fun _ => rfl
    have hclose : skipBlanks (body ++ '\x7d' :: rest) = '\x7d' :: rest := skipBlanks_blank hbody _
    simp [Value.steps, skipNested, hbrace, hclose]
  | .object ((key, value) :: members),
      ⟨_, ⟨lead, name, colon, body, more, hlead, hname, hcolon, hvalue, hmore, hbody⟩, htext⟩ =>
    obtain rfl := htext
    obtain rfl := hbody
    obtain ⟨after, hafter, hkey⟩ := skipKey_spelled blank_nil hname hcolon
    have hvalue' := skipNested_spelled value hvalue (hmore.ended rest)
      (fuel + moreMembersSteps members) (.curly :: outer)
    have hmore' := skipAfter_members members hmore rest fuel outer
    have hfuel : fuel + (Value.object ((key, value) :: members)).steps =
        fuel + moreMembersSteps members + value.steps + 1 := by
      simp only [Value.steps]
      omega
    have hbrace : ∀ text, skipBlanks ('\x7b' :: text) = '\x7b' :: text := fun _ => rfl
    have hskip : ∀ text, skipBlanks (lead ++ '"' :: text) = '"' :: text := fun text =>
      (skipBlanks_blank hlead _).trans rfl
    simp only [hfuel, List.cons_append, List.append_assoc, List.nil_append] at hkey ⊢
    simp [skipNested, hbrace, hskip, hkey, bind, Except.bind, skipNested_blank hafter, hvalue',
      hmore']

/-- What follows an item of a list is passed over with its closing bracket. -/
theorem skipAfter_items (items : List Value) {more : List Char}
    (h : ItemsSpelled items false more) (rest : List Char) (fuel : Nat) (outer : List Bracket) :
    skipAfter (fuel + moreItemsSteps items) (.square :: outer) (more ++ ']' :: rest) =
      skipAfter fuel outer rest := by
  match items, h with
  | [], h =>
    have hclose : skipBlanks (more ++ ']' :: rest) = ']' :: rest := skipBlanks_blank h _
    simp [moreItemsSteps, skipAfter, hclose]
  | item :: items, ⟨lead, body, tail, hlead, hitem, htail, hmore⟩ =>
    obtain rfl := hmore
    obtain ⟨before, after, hbefore, hafter, rfl⟩ := hlead
    have hitem' := skipNested_spelled item hitem (htail.ended rest)
      (fuel + moreItemsSteps items) (.square :: outer)
    have htail' := skipAfter_items items htail rest fuel outer
    have hfuel : fuel + moreItemsSteps (item :: items) =
        fuel + moreItemsSteps items + item.steps + 1 := by
      simp only [moreItemsSteps]
      omega
    have hcomma : ∀ text, skipBlanks (before ++ ',' :: text) = ',' :: text := fun text =>
      (skipBlanks_blank hbefore _).trans rfl
    simp only [hfuel, List.cons_append, List.append_assoc]
    simp [skipAfter, hcomma, skipNested_blank hafter, hitem', htail']

/-- What follows a member of an object is passed over with its closing brace. -/
theorem skipAfter_members (members : List (String × Value)) {more : List Char}
    (h : MembersSpelled members false more) (rest : List Char) (fuel : Nat)
    (outer : List Bracket) :
    skipAfter (fuel + moreMembersSteps members) (.curly :: outer) (more ++ '\x7d' :: rest) =
      skipAfter fuel outer rest := by
  match members, h with
  | [], h =>
    have hclose : skipBlanks (more ++ '\x7d' :: rest) = '\x7d' :: rest := skipBlanks_blank h _
    simp [moreMembersSteps, skipAfter, hclose]
  | (key, value) :: members,
      ⟨lead, name, colon, body, tail, hlead, hname, hcolon, hvalue, htail, hmore⟩ =>
    obtain rfl := hmore
    obtain ⟨before, between, hbefore, hbetween, rfl⟩ := hlead
    obtain ⟨after, hafter, hkey⟩ := skipKey_spelled hbetween hname hcolon
    have hvalue' := skipNested_spelled value hvalue (htail.ended rest)
      (fuel + moreMembersSteps members) (.curly :: outer)
    have htail' := skipAfter_members members htail rest fuel outer
    have hfuel : fuel + moreMembersSteps ((key, value) :: members) =
        fuel + moreMembersSteps members + value.steps + 1 := by
      simp only [moreMembersSteps]
      omega
    have hcomma : ∀ text, skipBlanks (before ++ ',' :: text) = ',' :: text := fun text =>
      (skipBlanks_blank hbefore _).trans rfl
    simp only [hfuel, List.cons_append, List.append_assoc]
    simp [skipAfter, hcomma, hkey, bind, Except.bind, skipNested_blank hafter, hvalue', htail']
end

mutual
/-- Every step takes a character of the document. -/
theorem steps_le_length (value : Value) {text : List Char} (h : value.Spelled text) :
    value.steps ≤ text.length := by
  match value, h with
  | .list (item :: items), ⟨_, ⟨lead, body, more, _, hitem, hmore, hbody⟩, htext⟩ =>
    have hbody' := steps_le_length item hitem
    have hmore' := moreItemsSteps_le_length items hmore
    simp only [Value.steps, htext, hbody, List.length_cons, List.length_append, List.length_nil]
    omega
  | .object ((key, value) :: members),
      ⟨_, ⟨lead, name, colon, body, more, _, _, _, hvalue, hmore, hbody⟩, htext⟩ =>
    have hbody' := steps_le_length value hvalue
    have hmore' := moreMembersSteps_le_length members hmore
    simp only [Value.steps, htext, hbody, List.length_cons, List.length_append, List.length_nil]
    omega
  | .null, h => exact h.length_pos
  | .bool b, h => exact h.length_pos
  | .natural n, h => exact h.length_pos
  | .number spelling, h => exact h.length_pos
  | .text s, h => exact h.length_pos
  | .list [], h => exact h.length_pos
  | .object [], h => exact h.length_pos

/-- Every step takes a character of what follows an item, or its closing bracket. -/
theorem moreItemsSteps_le_length (items : List Value) {more : List Char}
    (h : ItemsSpelled items false more) : moreItemsSteps items ≤ more.length + 1 := by
  match items, h with
  | [], _ => exact Nat.le_add_left _ _
  | item :: items, ⟨lead, body, tail, hlead, hitem, htail, hmore⟩ =>
    have hlead' := hlead.length_pos
    have hitem' := steps_le_length item hitem
    have htail' := moreItemsSteps_le_length items htail
    simp only [moreItemsSteps, hmore, List.length_append]
    omega

/-- Every step takes a character of what follows a member, or its closing brace. -/
theorem moreMembersSteps_le_length (members : List (String × Value)) {more : List Char}
    (h : MembersSpelled members false more) : moreMembersSteps members ≤ more.length + 1 := by
  match members, h with
  | [], _ => exact Nat.le_add_left _ _
  | (key, value) :: members,
      ⟨lead, name, colon, body, tail, hlead, _, _, hvalue, htail, hmore⟩ =>
    have hvalue' := steps_le_length value hvalue
    have htail' := moreMembersSteps_le_length members htail
    simp only [moreMembersSteps, hmore, List.length_append, List.length_cons]
    omega
end

/-- **A document nobody asked for is passed over**, with the blanks before it. -/
theorem skipValue_spelled {value : Value} {lead text rest : List Char} (hlead : Blank lead)
    (h : value.Spelled text) (hrest : Ended rest) :
    skipValue (lead ++ (text ++ rest)) = .ok rest := by
  have hsteps := steps_le_length value h
  obtain ⟨fuel, hfuel⟩ : ∃ fuel, 2 * (lead ++ (text ++ rest)).length + 2 =
      fuel + 1 + value.steps := by
    refine ⟨2 * (lead ++ (text ++ rest)).length + 1 - value.steps, ?_⟩
    simp only [List.length_append]
    omega
  rw [skipValue, skipNested_blank hlead, hfuel, skipNested_spelled value h hrest]
  rfl

/-! ## Reading a document -/

/-- Blanks before a document are read with it. -/
theorem parseValue_blank {lead : List Char} (h : Blank lead) (fuel : Nat) (rest : List Char) :
    parseValue fuel (lead ++ rest) = parseValue fuel rest := by
  cases fuel with
  | zero => rfl
  | succ fuel => simp only [parseValue, skipBlanks_blank h]

/-- A number is read with its spelling. -/
theorem NumberSpelled.parseValue {value : Value} {text : List Char} (h : NumberSpelled value text)
    {rest : List Char} (hrest : Ended rest) (fuel : Nat) :
    parseValue (fuel + 1) (text ++ rest) = .ok (value, rest) := by
  obtain ⟨negative, numeral, body, hbody, rfl, rfl⟩ := h
  have hscan := hbody.scanNumeral hrest .cutShort
  have htake : (body ++ rest).take ((body ++ rest).length - rest.length) = body := by simp
  have hnumber : parseNumber negative (body ++ rest) =
      .ok (numberValue negative numeral body, rest) := by
    simp only [parseNumber, hscan, bind, Except.bind, htake]
  cases negative with
  | true =>
    have hminus : ∀ text, skipBlanks ('-' :: text) = '-' :: text := fun _ => rfl
    simp [Json.parseValue, hminus, hnumber]
  | false =>
    obtain ⟨c, tail, rfl, hc⟩ := hbody.eq_cons
    have hopen := skipBlanks_of_isOpening (isOpening_of_isDigit hc) (tail ++ rest)
    have hword := ne_of_isDigit hc
    rw [List.cons_append] at hnumber
    simp [Json.parseValue, hopen, hword, hc, hnumber]

mutual
/-- **A document is read from every text that spells it.** -/
theorem parseValue_spelled (value : Value) {text : List Char} (h : value.Spelled text)
    {rest : List Char} (hrest : Ended rest) (fuel : Nat) (hfuel : text.length ≤ fuel) :
    parseValue fuel (text ++ rest) = .ok (value, rest) := by
  obtain ⟨fuel, rfl⟩ : ∃ n, fuel = n + 1 := ⟨fuel - 1, by have := h.length_pos; omega⟩
  match value, h with
  | .null, h =>
    obtain rfl := h
    rfl
  | .bool true, h =>
    obtain rfl := h
    rfl
  | .bool false, h =>
    obtain rfl := h
    rfl
  | .natural n, h => exact NumberSpelled.parseValue h hrest fuel
  | .number spelling, h => exact NumberSpelled.parseValue h hrest fuel
  | .text s, h =>
    obtain ⟨body, hbody, rfl⟩ := h
    have hquote : ∀ text, skipBlanks ('"' :: text) = '"' :: text := fun _ => rfl
    simp [parseValue, hquote, hbody.scanText, bind, Except.bind]
  | .list items, ⟨body, hbody, htext⟩ =>
    obtain rfl := htext
    have hbracket : ∀ text, skipBlanks ('[' :: text) = '[' :: text := fun _ => rfl
    have hitems := parseItems_spelled items true hbody rest fuel (by simp at hfuel; omega)
    simp [parseValue, hbracket, hitems, bind, Except.bind]
  | .object members, ⟨body, hbody, htext⟩ =>
    obtain rfl := htext
    have hbrace : ∀ text, skipBlanks ('\x7b' :: text) = '\x7b' :: text := fun _ => rfl
    have hmembers := parseMembers_spelled members true hbody rest fuel (by simp at hfuel; omega)
    simp [parseValue, hbrace, hmembers, bind, Except.bind]

/-- The items of a list are read up to its closing bracket. -/
theorem parseItems_spelled (items : List Value) (first : Bool) {text : List Char}
    (h : ItemsSpelled items first text) (rest : List Char) (fuel : Nat)
    (hfuel : text.length < fuel) :
    parseItems fuel first (text ++ ']' :: rest) = .ok (items, rest) := by
  obtain ⟨fuel, rfl⟩ : ∃ n, fuel = n + 1 := ⟨fuel - 1, by omega⟩
  match items, h with
  | [], h => simp [parseItems, nextElement_close_blank first h, bind, Except.bind]
  | item :: items, ⟨lead, body, more, hlead, hitem, hmore, htext⟩ =>
    obtain rfl := htext
    obtain hpos := hitem.length_pos
    simp only [List.length_append] at hfuel
    have hitem' := parseValue_spelled item hitem (hmore.ended rest) fuel (by omega)
    have hmore' := parseItems_spelled items false hmore rest fuel (by omega)
    obtain ⟨c, tail, rfl, hc⟩ := hitem.eq_cons
    have hnext := nextElement_lead hlead (Value.isOpening_of_beginsWith hc)
      (tail ++ (more ++ ']' :: rest))
    simp only [List.append_assoc, List.cons_append] at hitem' ⊢
    simp [parseItems, hnext, hitem', hmore', bind, Except.bind]

/-- The members of an object are read up to its closing brace. -/
theorem parseMembers_spelled (members : List (String × Value)) (first : Bool) {text : List Char}
    (h : MembersSpelled members first text) (rest : List Char) (fuel : Nat)
    (hfuel : text.length < fuel) :
    parseMembers fuel first (text ++ '\x7d' :: rest) = .ok (members, rest) := by
  obtain ⟨fuel, rfl⟩ : ∃ n, fuel = n + 1 := ⟨fuel - 1, by omega⟩
  match members, h with
  | [], h => simp [parseMembers, nextMember_close_blank first h, bind, Except.bind]
  | (key, value) :: members,
      ⟨lead, name, colon, body, more, hlead, hname, hcolon, hvalue, hmore, htext⟩ =>
    obtain rfl := htext
    simp only [List.length_append, List.length_cons] at hfuel
    have hvalue' := parseValue_spelled value hvalue (hmore.ended rest) fuel (by omega)
    have hmore' := parseMembers_spelled members false hmore rest fuel (by omega)
    obtain ⟨after, hafter, hexpect⟩ := hcolon.expectColon
    simp only [List.append_assoc, List.cons_append]
    simp [parseMembers, nextMember_lead hlead, hname.scanText, hexpect, parseValue_blank hafter,
      hvalue', hmore', bind, Except.bind]
end

/-! ### What is read is a document -/

theorem exists_of_expectWord {word text rest : List Char} (h : expectWord word text = .ok rest) :
    text = word ++ rest := by
  fun_induction expectWord word text with
  | case1 => cases h; rfl
  | case2 => cases h
  | case3 _ _ _ ih => rw [ih h, List.cons_append]
  | case4 => cases h

/-- Blanks behind what stands before an item belong to it. -/
theorem Lead.append_blank {first : Bool} {lead trail : List Char} (h : Lead first lead)
    (htrail : Blank trail) : Lead first (lead ++ trail) := by
  have happend : ∀ {text}, Blank text → Blank (text ++ trail) := fun htext c hc =>
    (List.mem_append.1 hc).elim (htext c) (htrail c)
  cases first with
  | true => exact happend h
  | false =>
    obtain ⟨before, after, hbefore, hafter, rfl⟩ := h
    exact ⟨before, after ++ trail, hbefore, happend hafter, by simp⟩

/-- What comes next inside a list stands behind blanks and a comma. -/
theorem exists_of_nextElement {first : Bool} {text : List Char} {next : Next}
    (h : nextElement first text = .ok next) :
    (∃ trail rest, Blank trail ∧ text = trail ++ ']' :: rest ∧ next = .close rest) ∨
      ∃ lead rest, Lead first lead ∧ text = lead ++ rest ∧ next = .item rest := by
  unfold nextElement at h
  split at h
  · cases h
  · rename_i c rest hskip
    obtain ⟨lead, hlead, htext, -⟩ := exists_blank_of_skipBlanks hskip
    split at h
    · rename_i hclose
      cases h
      exact .inl ⟨lead, rest, hlead, hclose ▸ htext, rfl⟩
    · split at h
      · rename_i hfirst
        cases h
        exact .inr ⟨lead, c :: rest, by rwa [hfirst], htext, rfl⟩
      · rename_i hfirst
        obtain rfl := Bool.eq_false_iff.2 hfirst
        split at h
        · rename_i hcomma
          split at h
          · cases h
          · rename_i d after hskip'
            obtain ⟨between, hbetween, hrest, -⟩ := exists_blank_of_skipBlanks hskip'
            split at h
            · cases h
            · cases h
              refine .inr ⟨lead ++ ',' :: between, d :: after,
                ⟨lead, between, hlead, hbetween, rfl⟩, ?_, rfl⟩
              rw [htext, hcomma, hrest, List.append_assoc, List.cons_append]
        · cases h

/-- What comes next inside an object stands behind blanks and a comma. -/
theorem exists_of_nextMember {first : Bool} {text : List Char} {next : Next}
    (h : nextMember first text = .ok next) :
    (∃ trail rest, Blank trail ∧ text = trail ++ '\x7d' :: rest ∧ next = .close rest) ∨
      ∃ lead rest, Lead first lead ∧ text = lead ++ '"' :: rest ∧ next = .item rest := by
  unfold nextMember at h
  split at h
  · cases h
  · rename_i c rest hskip
    obtain ⟨lead, hlead, htext, -⟩ := exists_blank_of_skipBlanks hskip
    split at h
    · rename_i hclose
      cases h
      exact .inl ⟨lead, rest, hlead, hclose ▸ htext, rfl⟩
    · split at h
      · rename_i hfirst
        split at h
        · rename_i hquote
          cases h
          exact .inr ⟨lead, rest, by rwa [hfirst], hquote ▸ htext, rfl⟩
        · cases h
      · rename_i hfirst
        obtain rfl := Bool.eq_false_iff.2 hfirst
        split at h
        · rename_i hcomma
          split at h
          · cases h
          · rename_i d after hskip'
            obtain ⟨between, hbetween, hrest, -⟩ := exists_blank_of_skipBlanks hskip'
            split at h
            · rename_i hquote
              cases h
              refine .inr ⟨lead ++ ',' :: between, after,
                ⟨lead, between, hlead, hbetween, rfl⟩, ?_, rfl⟩
              rw [htext, hcomma, hrest, hquote, List.append_assoc, List.cons_append]
            · cases h
        · cases h

/-- A colon stands between a key and its value. -/
theorem exists_of_expectColon {text rest : List Char} (h : expectColon text = .ok rest) :
    ∃ before, Blank before ∧ text = before ++ ':' :: rest := by
  unfold expectColon at h
  split at h
  · cases h
  · rename_i c after hskip
    obtain ⟨before, hbefore, rfl, -⟩ := exists_blank_of_skipBlanks hskip
    split at h
    · rename_i hcolon
      cases h
      exact ⟨before, hbefore, by rw [hcolon]⟩
    · cases h

/-- What is read as a number is one. -/
theorem exists_of_parseNumber {negative : Bool} {text rest : List Char} {value : Value}
    (h : parseNumber negative text = .ok (value, rest)) :
    ∃ body, text = body ++ rest ∧
      NumberSpelled value (if negative then '-' :: body else body) := by
  unfold parseNumber at h
  cases hscan : scanNumeral .cutShort text with
  | error fault =>
    rw [hscan] at h
    cases h
  | ok scanned =>
    obtain ⟨numeral, after⟩ := scanned
    obtain ⟨body, rfl, hbody⟩ := exists_numeral hscan
    rw [hscan] at h
    cases h
    have htake : (body ++ rest).take ((body ++ rest).length - rest.length) = body := by simp
    exact ⟨body, rfl, negative, numeral, body, hbody, rfl, by rw [htake]⟩

/-- A step of a reader that gives something gave something itself. -/
theorem exists_of_bind_eq_ok {α β : Type} {read : Except Fault α} {next : α → Except Fault β}
    {result : β} (h : read >>= next = .ok result) : ∃ a, read = .ok a ∧ next a = .ok result := by
  cases read with
  | error fault => cases h
  | ok a => exact ⟨a, rfl, h⟩

/-- The document of a spelled number is spelled so. -/
theorem NumberSpelled.spelled {value : Value} {text : List Char} (h : NumberSpelled value text) :
    value.Spelled text := by
  have hnumber := h
  obtain ⟨negative, numeral, body, -, -, hvalue⟩ := h
  unfold numberValue at hvalue
  split at hvalue <;>
  · subst hvalue
    exact hnumber

/-- What is read with so much fuel is a document, behind blanks. -/
def ReadsValues (fuel : Nat) : Prop :=
  ∀ text value rest, parseValue fuel text = .ok (value, rest) →
    ∃ lead body, Blank lead ∧ value.Spelled body ∧ text = lead ++ (body ++ rest)

/-- What is read with so much fuel are the items of a list. -/
def ReadsItems (fuel : Nat) : Prop :=
  ∀ first text items rest, parseItems fuel first text = .ok (items, rest) →
    ∃ body, ItemsSpelled items first body ∧ text = body ++ ']' :: rest

/-- What is read with so much fuel are the members of an object. -/
def ReadsMembers (fuel : Nat) : Prop :=
  ∀ first text members rest, parseMembers fuel first text = .ok (members, rest) →
    ∃ body, MembersSpelled members first body ∧ text = body ++ '\x7d' :: rest

theorem readsValues_succ {fuel : Nat} (ihItems : ReadsItems fuel)
    (ihMembers : ReadsMembers fuel) : ReadsValues (fuel + 1) := by
  intro text value rest h
  unfold parseValue at h
  split at h
  · cases h
  · rename_i c after hskip
    obtain ⟨lead, hlead, htext, -⟩ := exists_blank_of_skipBlanks hskip
    refine ⟨lead, ?_⟩
    suffices hspelled : ∃ body, value.Spelled body ∧ c :: after = body ++ rest by
      obtain ⟨body, hbody, heq⟩ := hspelled
      exact ⟨body, hlead, hbody, htext.trans (congrArg (lead ++ ·) heq)⟩
    -- One case for each character with which a document may begin.
    repeat' split at h
    · rename_i hc
      obtain ⟨after', hword, h⟩ := exists_of_bind_eq_ok h
      cases h
      exact ⟨_, rfl, by rw [hc, exists_of_expectWord hword]; rfl⟩
    · rename_i hc
      obtain ⟨after', hword, h⟩ := exists_of_bind_eq_ok h
      cases h
      exact ⟨_, rfl, by rw [hc, exists_of_expectWord hword]; rfl⟩
    · rename_i hc
      obtain ⟨after', hword, h⟩ := exists_of_bind_eq_ok h
      cases h
      exact ⟨_, rfl, by rw [hc, exists_of_expectWord hword]; rfl⟩
    · rename_i hc
      obtain ⟨body, rfl, hnumber⟩ := exists_of_parseNumber h
      exact ⟨'-' :: body, hnumber.spelled, by rw [hc, List.cons_append]⟩
    · rename_i hc
      obtain ⟨body, hbody, hnumber⟩ := exists_of_parseNumber h
      exact ⟨body, hnumber.spelled, hbody⟩
    · rename_i hc
      obtain ⟨⟨content, after'⟩, hscan, h⟩ := exists_of_bind_eq_ok h
      cases h
      obtain ⟨body, hbody, hescapes⟩ := exists_escapes hscan
      exact ⟨'"' :: (body ++ ['"']), ⟨body, by simpa using hescapes, rfl⟩, by simp [hc, hbody]⟩
    · rename_i hc
      obtain ⟨⟨items, after'⟩, hitems, h⟩ := exists_of_bind_eq_ok h
      cases h
      obtain ⟨body, hbody, hafter⟩ := ihItems _ _ _ _ hitems
      exact ⟨'[' :: (body ++ [']']), ⟨body, hbody, rfl⟩, by simp [hc, hafter]⟩
    · rename_i hc
      obtain ⟨⟨members, after'⟩, hmembers, h⟩ := exists_of_bind_eq_ok h
      cases h
      obtain ⟨body, hbody, hafter⟩ := ihMembers _ _ _ _ hmembers
      exact ⟨'\x7b' :: (body ++ ['\x7d']), ⟨body, hbody, rfl⟩, by simp [hc, hafter]⟩
    · cases h

theorem readsItems_succ {fuel : Nat} (ihValue : ReadsValues fuel) (ihItems : ReadsItems fuel) :
    ReadsItems (fuel + 1) := by
  intro first text items rest h
  unfold parseItems at h
  obtain ⟨next, hnext, h⟩ := exists_of_bind_eq_ok h
  rcases exists_of_nextElement hnext with
    ⟨trail, after, htrail, htext, rfl⟩ | ⟨lead, after, hlead, htext, rfl⟩
  · cases h
    exact ⟨trail, htrail, htext⟩
  · obtain ⟨⟨item, rest₁⟩, hitem, h⟩ := exists_of_bind_eq_ok h
    obtain ⟨⟨more, rest₂⟩, hmore, h⟩ := exists_of_bind_eq_ok h
    cases h
    obtain ⟨between, body, hbetween, hbody, hafter⟩ := ihValue _ _ _ hitem
    obtain ⟨tail, htail, hrest⟩ := ihItems _ _ _ _ hmore
    refine ⟨(lead ++ between) ++ (body ++ tail), ⟨lead ++ between, body, tail,
      hlead.append_blank hbetween, hbody, htail, rfl⟩, ?_⟩
    simp [htext, hafter, hrest]

theorem readsMembers_succ {fuel : Nat} (ihValue : ReadsValues fuel)
    (ihMembers : ReadsMembers fuel) : ReadsMembers (fuel + 1) := by
  intro first text members rest h
  unfold parseMembers at h
  obtain ⟨next, hnext, h⟩ := exists_of_bind_eq_ok h
  rcases exists_of_nextMember hnext with
    ⟨trail, after, htrail, htext, rfl⟩ | ⟨lead, after, hlead, htext, rfl⟩
  · cases h
    exact ⟨trail, htrail, htext⟩
  · obtain ⟨⟨key, rest₁⟩, hkey, h⟩ := exists_of_bind_eq_ok h
    obtain ⟨rest₂, hcolon, h⟩ := exists_of_bind_eq_ok h
    obtain ⟨⟨value, rest₃⟩, hvalue, h⟩ := exists_of_bind_eq_ok h
    obtain ⟨⟨more, rest₄⟩, hmore, h⟩ := exists_of_bind_eq_ok h
    cases h
    obtain ⟨name, hafter, hname⟩ := exists_escapes hkey
    obtain ⟨before, hbefore, hrest₁⟩ := exists_of_expectColon hcolon
    obtain ⟨between, body, hbetween, hbody, hrest₂⟩ := ihValue _ _ _ hvalue
    obtain ⟨tail, htail, hrest₃⟩ := ihMembers _ _ _ _ hmore
    refine ⟨lead ++ '"' :: (name ++ '"' :: ((before ++ ':' :: between) ++ (body ++ tail))),
      ⟨lead, name, before ++ ':' :: between, body, tail, hlead, by simpa using hname,
        ⟨before, between, hbefore, hbetween, rfl⟩, hbody, htail, rfl⟩, ?_⟩
    simp [htext, hafter, hrest₁, hrest₂, hrest₃]

/-- What the readers of documents read are documents, whatever their fuel. -/
theorem reads_documents (fuel : Nat) : ReadsValues fuel ∧ ReadsItems fuel ∧ ReadsMembers fuel := by
  induction fuel with
  | zero =>
    refine ⟨fun text value rest h => ?_, fun first text items rest h => ?_,
      fun first text members rest h => ?_⟩ <;> cases h
  | succ fuel ih =>
    obtain ⟨ihValue, ihItems, ihMembers⟩ := ih
    exact ⟨readsValues_succ ihItems ihMembers, readsItems_succ ihValue ihItems,
      readsMembers_succ ihValue ihMembers⟩

/-- **`parse` reads exactly the texts that denote a document, and to that document.** -/
theorem parse_eq_ok_iff (text : List Char) (value : Value) :
    parse text = .ok value ↔ Denotes text value := by
  constructor
  · intro h
    unfold parse at h
    obtain ⟨⟨value', rest⟩, hvalue, hend⟩ := exists_of_bind_eq_ok h
    obtain ⟨lead, body, hlead, hbody, htext⟩ := (reads_documents _).1 _ _ _ hvalue
    cases hskip : skipBlanks rest with
    | nil =>
      simp only [hskip] at hend
      cases hend
      exact ⟨lead, body, rest, hlead, hbody, blank_of_skipBlanks hskip, htext⟩
    | cons c after =>
      simp only [hskip] at hend
      cases hend
  · rintro ⟨lead, body, trail, hlead, hbody, htrail, rfl⟩
    have hended : Ended trail := by
      have happend := Ended.blank_append htrail ended_nil
      rwa [List.append_nil] at happend
    have hread := parseValue_spelled value hbody hended
      (2 * (lead ++ (body ++ trail)).length + 1) (by simp only [List.length_append]; omega)
    simp only [parse, parseValue_blank hlead, hread, skipBlanks_eq_nil htrail, bind, Except.bind]

end Json
end Reconciliation
