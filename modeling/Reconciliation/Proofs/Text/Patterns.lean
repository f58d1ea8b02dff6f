/-
# What a pattern finds

A search walks through the places of a text (`Pattern.foundIn`).  What it looks for can
be said without the walk: a pattern reads a part of a text between what stands before
and what stands after it (`Pattern.Reads`), and it is found exactly when it reads some
part of the text (`Pattern.foundIn_iff`).
-/

import Reconciliation.Text.Pattern

namespace Reconciliation

/-- The place after a part of a text. -/
def Place.after (before rest : List Char) : Place := ⟨before.isEmpty, rest⟩

namespace Pattern

variable {accepts : Char → Bool} {before matched rest : List Char} {place : Place}

/-- A pattern reads the part `matched` of the text `before ++ matched ++ after`. -/
def Reads : Pattern → List Char → List Char → List Char → Prop
  | start, before, matched, _ => before = [] ∧ matched = []
  | finish, _, matched, after => matched = [] ∧ after = []
  | oneOf accepts, _, matched, _ => ∃ c, matched = [c] ∧ accepts c = true
  | many accepts, _, matched, _ => ∀ c ∈ matched, accepts c = true
  | optional pattern, before, matched, after => matched = [] ∨ pattern.Reads before matched after
  | followedBy first second, before, matched, after =>
    ∃ head tail, matched = head ++ tail ∧ first.Reads before head (tail ++ after) ∧
      second.Reads (before ++ head) tail after

/-- A run of a class is one of its characters and more of them. -/
theorem reads_run_iff {after : List Char} : (run accepts).Reads before matched after ↔
    matched ≠ [] ∧ ∀ c ∈ matched, accepts c = true := by
  constructor
  · rintro ⟨_, more, rfl, ⟨c, rfl, hc⟩, hmore⟩
    exact ⟨by simp, List.forall_mem_cons.2 ⟨hc, hmore⟩⟩
  · rintro ⟨hne, hall⟩
    obtain ⟨c, more, rfl⟩ := List.exists_cons_of_ne_nil hne
    obtain ⟨hc, hmore⟩ := List.forall_mem_cons.1 hall
    exact ⟨[c], more, rfl, ⟨c, rfl, hc⟩, hmore⟩

/-- The walk over a run stops after every run of the class. -/
theorem mem_runEnds_iff : place ∈ runEnds accepts before.isEmpty rest ↔
    ∃ matched after, rest = matched ++ after ∧ (∀ c ∈ matched, accepts c = true) ∧
      place = .after (before ++ matched) after := by
  induction rest generalizing before with
  | nil =>
    rw [runEnds, List.mem_singleton]
    constructor
    · rintro rfl
      exact ⟨[], [], rfl, nofun, by rw [List.append_nil]; rfl⟩
    · rintro ⟨matched, after, hsplit, -, rfl⟩
      obtain ⟨rfl, rfl⟩ := List.append_eq_nil_iff.1 hsplit.symm
      rw [List.append_nil]
      rfl
  | cons c rest ih =>
    -- The flag of the places behind `c` is that of a text which `c` ends.
    have hflag : false = (before ++ [c]).isEmpty := by simp
    rw [runEnds, List.mem_cons]
    constructor
    · rintro (rfl | hlater)
      · exact ⟨[], c :: rest, rfl, nofun, by rw [List.append_nil]; rfl⟩
      · split at hlater
        · rename_i hc
          rw [hflag] at hlater
          obtain ⟨matched, after, rfl, hall, rfl⟩ := ih.1 hlater
          exact ⟨c :: matched, after, rfl, List.forall_mem_cons.2 ⟨hc, hall⟩, by simp⟩
        · cases hlater
    · rintro ⟨matched, after, hsplit, hall, rfl⟩
      cases matched with
      | nil =>
        obtain rfl := hsplit
        rw [List.append_nil]
        exact .inl rfl
      | cons c' matched =>
        obtain ⟨rfl, rfl⟩ := List.cons.inj hsplit
        obtain ⟨hc, hall⟩ := List.forall_mem_cons.1 hall
        rw [if_pos hc, hflag]
        exact .inr (ih.2 ⟨matched, after, rfl, hall, by simp⟩)

/-- The walk over a pattern stops exactly after the parts that the pattern reads. -/
theorem mem_ends_iff (pattern : Pattern) : place ∈ pattern.ends (.after before rest) ↔
    ∃ matched after, rest = matched ++ after ∧ pattern.Reads before matched after ∧
      place = .after (before ++ matched) after := by
  induction pattern generalizing before rest place with
  | start =>
    simp only [ends, Place.after, Reads, List.isEmpty_iff]
    constructor
    · intro hplace
      split at hplace
      · rename_i hbefore
        obtain rfl := List.mem_singleton.1 hplace
        exact ⟨[], rest, rfl, ⟨hbefore, rfl⟩, by simp⟩
      · cases hplace
    · rintro ⟨_, after, rfl, ⟨rfl, rfl⟩, rfl⟩
      simp
  | finish =>
    simp only [ends, Place.after, Reads, List.isEmpty_iff]
    constructor
    · intro hplace
      split at hplace
      · rename_i hrest
        obtain rfl := List.mem_singleton.1 hplace
        exact ⟨[], [], hrest, ⟨rfl, rfl⟩, by simp [hrest]⟩
      · cases hplace
    · rintro ⟨_, _, rfl, ⟨rfl, rfl⟩, rfl⟩
      simp
  | oneOf accepts =>
    simp only [ends, Place.after, Reads]
    constructor
    · intro hplace
      split at hplace
      · cases hplace
      · rename_i c rest
        split at hplace
        · rename_i hc
          obtain rfl := List.mem_singleton.1 hplace
          exact ⟨[c], rest, rfl, ⟨c, rfl, hc⟩, by simp⟩
        · cases hplace
    · rintro ⟨_, after, rfl, ⟨c, rfl, hc⟩, rfl⟩
      simp [hc]
  | many accepts => exact mem_runEnds_iff
  | optional pattern ih =>
    rw [ends, List.mem_cons, ih]
    constructor
    · rintro (rfl | ⟨matched, after, hsplit, hreads, hplace⟩)
      · exact ⟨[], rest, rfl, .inl rfl, by rw [List.append_nil]⟩
      · exact ⟨matched, after, hsplit, .inr hreads, hplace⟩
    · rintro ⟨matched, after, rfl, rfl | hreads, rfl⟩
      · exact .inl (by rw [List.append_nil, List.nil_append])
      · exact .inr ⟨matched, after, rfl, hreads, rfl⟩
  | followedBy first second ihfirst ihsecond =>
    rw [ends, List.mem_flatMap]
    constructor
    · rintro ⟨_, hfirst, hsecond⟩
      obtain ⟨head, _, rfl, hhead, rfl⟩ := ihfirst.1 hfirst
      obtain ⟨tail, after, rfl, htail, rfl⟩ := ihsecond.1 hsecond
      exact ⟨head ++ tail, after, by rw [List.append_assoc], ⟨head, tail, rfl, hhead, htail⟩,
        by rw [List.append_assoc]⟩
    · rintro ⟨_, after, rfl, ⟨head, tail, rfl, hhead, htail⟩, rfl⟩
      refine ⟨.after (before ++ head) (tail ++ after),
        ihfirst.2 ⟨head, tail ++ after, by rw [List.append_assoc], hhead, rfl⟩,
        ihsecond.2 ⟨tail, after, rfl, htail, by rw [List.append_assoc]⟩⟩

/-- A pattern can be read at a place when its walk stops somewhere. -/
theorem ends_ne_nil_iff {pattern : Pattern} :
    (!(pattern.ends (.after before rest)).isEmpty) = true ↔
      ∃ matched after, rest = matched ++ after ∧ pattern.Reads before matched after := by
  rw [Bool.not_eq_true', List.isEmpty_eq_false_iff_exists_mem]
  constructor
  · rintro ⟨place, hplace⟩
    obtain ⟨matched, after, hsplit, hreads, -⟩ := pattern.mem_ends_iff.1 hplace
    exact ⟨matched, after, hsplit, hreads⟩
  · rintro ⟨matched, after, hsplit, hreads⟩
    exact ⟨_, pattern.mem_ends_iff.2 ⟨matched, after, hsplit, hreads, rfl⟩⟩

theorem foundFrom_iff {pattern : Pattern} (before : List Char) :
    pattern.foundFrom before.isEmpty rest = true ↔
    ∃ skipped matched after, rest = skipped ++ matched ++ after ∧
      pattern.Reads (before ++ skipped) matched after := by
  induction rest generalizing before with
  | nil =>
    rw [foundFrom]
    refine ends_ne_nil_iff.trans ⟨?_, ?_⟩
    · rintro ⟨matched, after, hsplit, hreads⟩
      exact ⟨[], matched, after, hsplit, by rwa [List.append_nil]⟩
    · rintro ⟨skipped, matched, after, hsplit, hreads⟩
      obtain ⟨hread, rfl⟩ := List.append_eq_nil_iff.1 hsplit.symm
      obtain ⟨rfl, rfl⟩ := List.append_eq_nil_iff.1 hread
      rw [List.append_nil] at hreads
      exact ⟨[], [], rfl, hreads⟩
  | cons c rest ih =>
    have hflag : false = (before ++ [c]).isEmpty := by simp
    rw [foundFrom, Bool.or_eq_true, hflag, ih]
    refine (or_congr_left ends_ne_nil_iff).trans ⟨?_, ?_⟩
    · rintro (⟨matched, after, hsplit, hreads⟩ | ⟨skipped, matched, after, rfl, hreads⟩)
      · exact ⟨[], matched, after, hsplit, by rwa [List.append_nil]⟩
      · exact ⟨c :: skipped, matched, after, rfl, by rwa [List.append_cons]⟩
    · rintro ⟨skipped, matched, after, hsplit, hreads⟩
      cases skipped with
      | nil =>
        rw [List.append_nil] at hreads
        exact .inl ⟨matched, after, hsplit, hreads⟩
      | cons c' skipped =>
        obtain ⟨rfl, rfl⟩ := List.cons.inj hsplit
        exact .inr ⟨skipped, matched, after, rfl, by rwa [List.append_cons] at hreads⟩

/-- **A pattern is found in a text exactly when it reads a part of it.** -/
theorem foundIn_iff {pattern : Pattern} {text : String} : pattern.foundIn text = true ↔
    ∃ before matched after, text.toList = before ++ matched ++ after ∧
      pattern.Reads before matched after :=
  foundFrom_iff []

end Pattern
end Reconciliation
