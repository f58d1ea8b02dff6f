/-
# Exactly the valid specs are accepted

What a spec has to meet is a list of requirements, each with the problem that is reported
when it fails (`DbCluster.requirements`).  The two patterns say in another way what a DNS
label is (`DnsLabel`) and what a version is (`IsVersion`), so a spec is accepted exactly
when it meets every requirement, and the problem that is reported otherwise is the one of
the first requirement that fails (`validateSpec_exact`).
-/

import Reconciliation.Cluster.SpecProblem
import Reconciliation.Proofs.Text.Patterns

namespace Reconciliation

variable {c : DbCluster} {text : String}

/-! ## Names -/

/-- A letter `a` to `z` or a digit `0` to `9`. -/
def IsLetterOrDigit (c : Char) : Prop := 'a' ≤ c ∧ c ≤ 'z' ∨ '0' ≤ c ∧ c ≤ '9'

/-- A DNS label of at most `limit` bytes. -/
structure DnsLabel (limit : Nat) (text : String) : Prop where
  ne_nil : text.toList ≠ []
  chars : ∀ c ∈ text.toList, IsLetterOrDigit c ∨ c = '-'
  first : text.toList.head? ≠ some '-'
  last : text.toList.getLast? ≠ some '-'
  bytes : text.utf8ByteSize ≤ limit

theorem isLabelEdge_iff {c : Char} : isLabelEdge c = true ↔ IsLetterOrDigit c := by
  rw [isLabelEdge, Bool.or_eq_true]
  exact or_congr (Bool.and_eq_true_iff.trans (and_congr decide_eq_true_iff decide_eq_true_iff))
    (Bool.and_eq_true_iff.trans (and_congr decide_eq_true_iff decide_eq_true_iff))

theorem isLabelChar_iff {c : Char} : isLabelChar c = true ↔ IsLetterOrDigit c ∨ c = '-' := by
  rw [isLabelChar, Bool.or_eq_true, isLabelEdge_iff, decide_eq_true_iff]

theorem ne_hyphen_of_isLetterOrDigit {c : Char} (h : IsLetterOrDigit c) : c ≠ '-' := by
  rintro rfl
  unfold IsLetterOrDigit at h
  revert h
  decide

/-- What the pattern of a DNS label says: one letter or digit, or two of them around
any number of label characters. -/
theorem dnsLabelPattern_foundIn_iff : dnsLabelPattern.foundIn text = true ↔
    ∃ first, IsLetterOrDigit first ∧ (text.toList = [first] ∨
      ∃ middle last, (∀ c ∈ middle, IsLetterOrDigit c ∨ c = '-') ∧ IsLetterOrDigit last ∧
        text.toList = first :: middle ++ [last]) := by
  rw [Pattern.foundIn_iff]
  constructor
  · rintro ⟨_, _, _, htext, _, _, rfl, ⟨rfl, rfl⟩, _, _, rfl, ⟨first, rfl, hfirst⟩,
      more, _, rfl, hmore, rfl, rfl⟩
    refine ⟨first, isLabelEdge_iff.1 hfirst, ?_⟩
    rcases hmore with rfl | ⟨middle, _, rfl, hmiddle, last, rfl, hlast⟩
    · exact .inl (by simpa using htext)
    · exact .inr ⟨middle, last, fun c hc => isLabelChar_iff.1 (hmiddle c hc),
        isLabelEdge_iff.1 hlast, by simpa using htext⟩
  · rintro ⟨first, hfirst, hmore⟩
    suffices ∃ more, text.toList = first :: more ∧
        (more = [] ∨ ∃ middle last, more = middle ++ [last] ∧
          (∀ c ∈ middle, isLabelChar c = true) ∧ isLabelEdge last = true) by
      obtain ⟨more, htext, hmore⟩ := this
      refine ⟨[], first :: more, [], by simpa using htext, [], _, rfl, ⟨rfl, rfl⟩, [first], more,
        rfl, ⟨first, rfl, isLabelEdge_iff.2 hfirst⟩, more, [], (List.append_nil _).symm, ?_, rfl,
        rfl⟩
      exact hmore.imp_right fun ⟨middle, last, hsplit, hmiddle, hlast⟩ =>
        ⟨middle, [last], hsplit, hmiddle, last, rfl, hlast⟩
    rcases hmore with htext | ⟨middle, last, hmiddle, hlast, htext⟩
    · exact ⟨[], htext, .inl rfl⟩
    · exact ⟨middle ++ [last], htext, .inr ⟨middle, last, rfl,
        fun c hc => isLabelChar_iff.2 (hmiddle c hc), isLabelEdge_iff.2 hlast⟩⟩

/-- **The pattern of a DNS label, with a bound on the bytes, is a DNS label.** -/
theorem dnsLabel_iff {limit : Nat} : DnsLabel limit text ↔
    text.utf8ByteSize ≤ limit ∧ dnsLabelPattern.foundIn text = true := by
  rw [dnsLabelPattern_foundIn_iff]
  constructor
  · rintro ⟨hne, hchars, hfirst, hlast, hbytes⟩
    refine ⟨hbytes, ?_⟩
    obtain ⟨first, rest, htext⟩ := List.exists_cons_of_ne_nil hne
    rw [htext] at hchars hfirst hlast ⊢
    have hedge : IsLetterOrDigit first :=
      (hchars first List.mem_cons_self).resolve_right fun h => hfirst (by rw [h]; rfl)
    refine ⟨first, hedge, ?_⟩
    rcases rest.eq_nil_or_concat with rfl | ⟨middle, last, rfl⟩
    · exact .inl rfl
    · rw [List.concat_eq_append] at hchars hlast ⊢
      have hedge' : IsLetterOrDigit last := by
        refine (hchars last (by simp)).resolve_right fun h => hlast ?_
        rw [← List.cons_append, List.getLast?_concat, h]
      exact .inr ⟨middle, last, fun c hc => hchars c (by simp [hc]), hedge', rfl⟩
  · rintro ⟨hbytes, first, hfirst, htext | ⟨middle, last, hmiddle, hlast, htext⟩⟩
    · have hhyphen := ne_hyphen_of_isLetterOrDigit hfirst
      exact ⟨by simp [htext], by simp [htext, hfirst], by simpa [htext] using hhyphen,
        by simpa [htext] using hhyphen, hbytes⟩
    · refine ⟨by simp [htext], fun c hc => ?_, ?_, ?_, hbytes⟩
      · rw [htext, List.mem_append, List.mem_cons, List.mem_singleton] at hc
        rcases hc with (rfl | hc) | rfl
        · exact .inl hfirst
        · exact hmiddle c hc
        · exact .inl hlast
      · simpa [htext] using ne_hyphen_of_isLetterOrDigit hfirst
      · rw [htext, List.getLast?_concat]
        simpa using ne_hyphen_of_isLetterOrDigit hlast

/-! ## Versions -/

/-- At least one decimal digit, and nothing else. -/
def IsDigits (text : List Char) : Prop := text ≠ [] ∧ ∀ c ∈ text, isDecimalDigit c = true

/-- Three runs of decimal digits with single dots between them. -/
def IsVersion (text : String) : Prop :=
  ∃ major minor patch, IsDigits major ∧ IsDigits minor ∧ IsDigits patch ∧
    text.toList = major ++ '.' :: (minor ++ '.' :: patch)

/-- **The pattern of a version is a version.** -/
theorem versionPattern_foundIn_iff : versionPattern.foundIn text = true ↔ IsVersion text := by
  rw [Pattern.foundIn_iff]
  constructor
  · rintro ⟨_, _, _, htext, _, _, rfl, ⟨rfl, rfl⟩, major, _, rfl, hmajor, _, _, rfl, ⟨_, rfl, hdot⟩,
      minor, _, rfl, hminor, _, _, rfl, ⟨_, rfl, hdot'⟩, patch, _, rfl, hpatch, rfl, rfl⟩
    obtain rfl := of_decide_eq_true hdot
    obtain rfl := of_decide_eq_true hdot'
    exact ⟨major, minor, patch, Pattern.reads_run_iff.1 hmajor, Pattern.reads_run_iff.1 hminor,
      Pattern.reads_run_iff.1 hpatch, by simpa using htext⟩
  · rintro ⟨major, minor, patch, hmajor, hminor, hpatch, htext⟩
    refine ⟨[], major ++ '.' :: (minor ++ '.' :: patch), [], by simpa using htext, [], _, rfl,
      ⟨rfl, rfl⟩, major, _, rfl, Pattern.reads_run_iff.2 hmajor, ['.'], _, rfl, ⟨'.', rfl, rfl⟩,
      minor, _, rfl, Pattern.reads_run_iff.2 hminor, ['.'], _, rfl, ⟨'.', rfl, rfl⟩,
      patch, [], (List.append_nil _).symm, Pattern.reads_run_iff.2 hpatch, rfl, rfl⟩

/-- Not even a line feed may follow. -/
example : versionPattern.foundIn "6.0.5\n" = false := by decide

/-! ## Requirements in their order -/

/-- Something that has to hold, and the problem if it does not. -/
structure Requirement where
  holds : Prop
  problem : ValidationError

/-- The problem is the one of the first requirement that fails. -/
def FirstFailing (requirements : List Requirement) (problem : ValidationError) : Prop :=
  ∃ met requirement more, requirements = met ++ requirement :: more ∧
    (∀ r ∈ met, r.holds) ∧ ¬ requirement.holds ∧ requirement.problem = problem

/-- What a cluster has to meet, in the order in which problems are reported. -/
def DbCluster.requirements (c : DbCluster) : List Requirement :=
  [⟨DnsLabel 60 c.metadata.name, .invalidName c.metadata.name⟩,
    ⟨1 ≤ c.spec.members.toNat ∧ c.spec.members.toNat ≤ 50, .invalidMembers c.spec.members⟩,
    ⟨IsVersion c.spec.version, .invalidVersion c.spec.version⟩,
    ⟨c.spec.security.tls.enabled = true → c.spec.security.tls.certificateKeySecret ≠ "",
      .missingTlsReference "certificate_key_secret"⟩,
    ⟨c.spec.security.tls.enabled = true → c.spec.security.tls.caConfigMap ≠ "",
      .missingTlsReference "ca_config_map"⟩]

section FirstFailing

variable {requirement : Requirement} {requirements : List Requirement} {problem : ValidationError}

theorem not_firstFailing_nil : ¬ FirstFailing [] problem := by
  rintro ⟨met, _, _, hsplit, -⟩
  exact absurd hsplit (by simp)

/-- The first requirement decides, or it is met and the rest decides. -/
theorem firstFailing_cons : FirstFailing (requirement :: requirements) problem ↔
    ¬ requirement.holds ∧ requirement.problem = problem ∨
      requirement.holds ∧ FirstFailing requirements problem := by
  constructor
  · rintro ⟨met, failing, more, hsplit, hmet, hfails, hproblem⟩
    cases met with
    | nil =>
      obtain ⟨rfl, rfl⟩ := List.cons.inj hsplit
      exact .inl ⟨hfails, hproblem⟩
    | cons _ met =>
      obtain ⟨rfl, rfl⟩ := List.cons.inj hsplit
      obtain ⟨hholds, hmet⟩ := List.forall_mem_cons.1 hmet
      exact .inr ⟨hholds, met, failing, more, rfl, hmet, hfails, hproblem⟩
  · rintro (⟨hfails, hproblem⟩ | ⟨hholds, met, failing, more, rfl, hmet, hfails, hproblem⟩)
    · exact ⟨[], requirement, requirements, rfl, nofun, hfails, hproblem⟩
    · exact ⟨requirement :: met, failing, more, rfl, List.forall_mem_cons.2 ⟨hholds, hmet⟩,
        hfails, hproblem⟩

end FirstFailing

/-- A search for a problem reports the first requirement that fails. -/
structure Reports (requirements : List Requirement) (found : Option ValidationError) : Prop where
  accepts : found = none ↔ ∀ r ∈ requirements, r.holds
  reports : ∀ problem, found = some problem ↔ FirstFailing requirements problem

namespace Reports

variable {requirements : List Requirement} {found : Option ValidationError}

theorem nil : Reports [] none :=
  ⟨⟨fun _ => nofun, fun _ => rfl⟩, fun _ => ⟨nofun, fun h => (not_firstFailing_nil h).elim⟩⟩

/-- A check in front of a search. -/
theorem check {requirement : Requirement} {fails : Prop} [Decidable fails]
    (hfails : fails ↔ ¬ requirement.holds) (h : Reports requirements found) :
    Reports (requirement :: requirements)
      (if fails then some requirement.problem else found) := by
  by_cases hcase : fails
  · have hnot := hfails.1 hcase
    rw [if_pos hcase]
    refine ⟨⟨nofun, fun hall => (hnot (hall _ List.mem_cons_self)).elim⟩, fun problem => ?_⟩
    rw [firstFailing_cons, Option.some_inj]
    exact ⟨fun h => .inl ⟨hnot, h⟩, fun h => h.elim And.right fun h => (hnot h.1).elim⟩
  · have hholds : requirement.holds := Classical.not_not.1 fun h => hcase (hfails.2 h)
    rw [if_neg hcase]
    refine ⟨?_, fun problem => ?_⟩
    · rw [h.accepts, List.forall_mem_cons]
      exact ⟨fun h => ⟨hholds, h⟩, And.right⟩
    · rw [h.reports, firstFailing_cons]
      exact ⟨fun h => .inr ⟨hholds, h⟩, fun h => h.elim (fun h => (h.1 hholds).elim) And.right⟩

end Reports

/-- The references are checked one after the other, and only when TLS is enabled. -/
theorem tlsProblem?_eq (tls : TlsSpec) : tlsProblem? tls =
    if tls.enabled = true ∧ tls.certificateKeySecret = "" then
      some (.missingTlsReference "certificate_key_secret")
    else if tls.enabled = true ∧ tls.caConfigMap = "" then
      some (.missingTlsReference "ca_config_map")
    else none := by
  unfold tlsProblem?
  cases tls.enabled <;> simp

theorem reports_specProblem? (c : DbCluster) : Reports c.requirements (specProblem? c) := by
  unfold specProblem? DbCluster.requirements
  rw [tlsProblem?_eq]
  refine .check ?name (.check ?members (.check ?version (.check ?secret (.check ?configMap .nil))))
  case name =>
    rw [dnsLabel_iff, maxNameBytes, Classical.not_and_iff_not_or_not, Nat.not_le, gt_iff_lt]
  case members =>
    rw [maxMembers, ← UInt32.toNat_inj, gt_iff_lt, UInt32.lt_iff_toNat_lt, UInt32.toNat_zero]
    have hbound : (50 : UInt32).toNat = 50 := rfl
    omega
  case version => rw [versionPattern_foundIn_iff]
  case secret => simp
  case configMap => simp

/-- **Exactly the valid specs are accepted, and otherwise the first problem is reported.** -/
theorem validateSpec_exact (c : DbCluster) :
    (validateSpec c = .ok () ↔ ∀ r ∈ c.requirements, r.holds) ∧
      ∀ problem, validateSpec c = .error problem ↔ FirstFailing c.requirements problem := by
  have hreports := reports_specProblem? c
  rw [← hreports.accepts, validateSpec]
  refine ⟨?_, fun problem => ?_⟩
  · cases specProblem? c <;> simp
  · rw [← hreports.reports]
    cases specProblem? c <;> simp

end Reconciliation
