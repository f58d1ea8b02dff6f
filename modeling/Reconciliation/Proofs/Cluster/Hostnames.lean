/-
# The labels in the addresses of the members

The address of a member starts with two labels, the one of the member and the one of the
service (`DbCluster.Addresses`).  Both append something to the name of the cluster.  The
bound on the name leaves room for a hyphen and an index: the label of a member always
fits into the 63 bytes of a DNS label.  The label of the service needs one byte more, so it
fits exactly when the name has at most 59 bytes (`labels_of_accepted`), and a name of 60
bytes is accepted although the service cannot have its name
(`not_forall_labels_of_accepted`).
-/

import Reconciliation.Cluster.Steps
import Reconciliation.Proofs.Cluster.Run
import Reconciliation.Proofs.Cluster.ValidSpecs
import Reconciliation.Proofs.Json.Tokens
import Reconciliation.Text.Parts

namespace Reconciliation

open Json (isDigit_of_mem_decimal)

variable {c : DbCluster}

/-- The labels of a host name: its parts between dots. -/
def labels (host : String) : List String := (splitAtChar '.' host.toList).map String.ofList

/-- A text without the mark is the first part of what it and a mark begin. -/
theorem splitAtChar_append {mark : Char} {part : List Char} (h : mark ∉ part) (rest : List Char) :
    splitAtChar mark (part ++ mark :: rest) = part :: splitAtChar mark rest := by
  induction part with
  | nil => simp [splitAtChar]
  | cons c part ih =>
    rw [List.mem_cons, not_or] at h
    rw [List.cons_append, splitAtChar, if_neg (Ne.symm h.1), ih h.2]

theorem labels_append {label : String} (h : '.' ∉ label.toList) (rest : String) :
    labels (label ++ "." ++ rest) = label :: labels rest := by
  have hdot : (label ++ "." ++ rest).toList = label.toList ++ '.' :: rest.toList := by simp
  rw [labels, hdot, splitAtChar_append h, List.map_cons, String.ofList_toList]
  rfl

theorem DnsLabel.dot_notMem {limit : Nat} {text : String} (h : DnsLabel limit text) :
    '.' ∉ text.toList := by
  intro hdot
  have hchar := h.chars '.' hdot
  unfold IsLetterOrDigit at hchar
  revert hchar
  decide

/-- A hyphen and letters or digits may be appended to a label, as far as the bytes go. -/
theorem DnsLabel.append_iff {bound limit : Nat} {text suffix : String} (h : DnsLabel bound text)
    (hne : suffix.toList ≠ []) (hsuffix : ∀ c ∈ suffix.toList, IsLetterOrDigit c) :
    DnsLabel limit (text ++ "-" ++ suffix) ↔
      text.utf8ByteSize + 1 + suffix.utf8ByteSize ≤ limit := by
  have hbytes : (text ++ "-" ++ suffix).utf8ByteSize =
      text.utf8ByteSize + 1 + suffix.utf8ByteSize := by
    rw [String.utf8ByteSize_append, String.utf8ByteSize_append]
    rfl
  refine ⟨fun h => hbytes ▸ h.bytes, fun hlimit => ?_⟩
  have htext : (text ++ "-" ++ suffix).toList = text.toList ++ '-' :: suffix.toList := by simp
  refine ⟨by simp [htext], fun c hc => ?_, ?_, ?_, hbytes ▸ hlimit⟩
  · rw [htext, List.mem_append, List.mem_cons] at hc
    rcases hc with hc | rfl | hc
    · exact h.chars c hc
    · exact .inr rfl
    · exact .inl (hsuffix c hc)
  · obtain ⟨first, rest, hfirst⟩ := List.exists_cons_of_ne_nil h.ne_nil
    rw [htext, hfirst]
    exact fun h' => h.first (hfirst ▸ h')
  · obtain ⟨most, last, hlast⟩ := (suffix.toList.eq_nil_or_concat).resolve_left hne
    rw [List.concat_eq_append] at hlast
    rw [htext, hlast, ← List.cons_append, ← List.append_assoc, List.getLast?_concat]
    have hedge := hsuffix last (by simp [hlast])
    simpa using ne_hyphen_of_isLetterOrDigit hedge

/-- The label of the member with an index. -/
def DbCluster.memberLabel (c : DbCluster) (index : Nat) : String :=
  c.metadata.name ++ "-" ++ toString index

/-- An index is written with digits only. -/
theorem isLetterOrDigit_of_mem_toString {index : Nat} {c : Char}
    (h : c ∈ (toString index).toList) : IsLetterOrDigit c := by
  rw [Nat.toString_eq_repr, Nat.toList_repr] at h
  have hdigit : c.isDigit = true := isDigit_of_mem_decimal h
  exact isLabelEdge_iff.1 (by rw [isLabelEdge, hdigit, Bool.or_true])

/-- The indexes of the greatest replica set have one or two digits. -/
theorem utf8ByteSize_toString_le : ∀ index < 50, (toString index).utf8ByteSize ≤ 2 := by decide

theorem dnsLabel_memberLabel_iff {limit index : Nat} (h : DnsLabel 60 c.metadata.name) :
    DnsLabel limit (c.memberLabel index) ↔
      c.metadata.name.utf8ByteSize + 1 + (toString index).utf8ByteSize ≤ limit := by
  refine h.append_iff ?_ fun _ => isLetterOrDigit_of_mem_toString
  rw [Nat.toString_eq_repr, Nat.toList_repr]
  exact Nat.toDigits_ne_nil

theorem dnsLabel_serviceName_iff {limit : Nat} (h : DnsLabel 60 c.metadata.name) :
    DnsLabel limit c.serviceName.name ↔ c.metadata.name.utf8ByteSize + 4 ≤ limit := by
  have hname : c.serviceName.name = c.metadata.name ++ "-" ++ "svc" := by
    rw [String.append_assoc]
    rfl
  have hedges : "svc".toList.all isLabelEdge = true := by decide
  have hsuffix : ∀ c ∈ "svc".toList, IsLetterOrDigit c := fun c hc =>
    isLabelEdge_iff.1 (List.all_eq_true.1 hedges c hc)
  rw [hname, h.append_iff (by decide) hsuffix]
  exact Iff.rfl

/-- A host name leads to the member with each index, in front of the service that is
created. -/
def DbCluster.Addresses (c : DbCluster) (hosts : List String) (count : Nat) : Prop :=
  hosts.length = count ∧ ∀ index < count, ∃ more,
    hosts[index]?.map labels = some (c.memberLabel index :: (wantedService c).name.name :: more)

theorem DbCluster.addresses_hosts (h : DnsLabel 60 c.metadata.name) (count : UInt32) :
    c.Addresses (c.hosts count) count.toNat := by
  refine ⟨by rw [hosts, List.length_map, List.length_range], fun index hindex => ?_⟩
  have hmember : '.' ∉ (c.memberLabel index).toList :=
    ((dnsLabel_memberLabel_iff h).2 (Nat.le_refl _)).dot_notMem
  have hservice : '.' ∉ c.serviceName.name.toList :=
    ((dnsLabel_serviceName_iff h).2 (Nat.le_refl _)).dot_notMem
  obtain ⟨domain, hhost⟩ : ∃ domain, c.host index =
      c.memberLabel index ++ "." ++ (c.serviceName.name ++ "." ++ domain) :=
    ⟨c.serviceName.space ++ ".svc.cluster.local:" ++ toString databasePort.toNat,
      by simp only [host, memberLabel, String.append_assoc]⟩
  refine ⟨labels domain, ?_⟩
  rw [hosts, List.getElem?_map, List.getElem?_range hindex, Option.map_some, Option.map_some, hhost,
    labels_append hmember, labels_append hservice]
  rfl

/-- **The labels of an accepted cluster.**  The addresses in the automation config and in
the connection text start with the labels of the member and of the service.  The labels of
the members are DNS labels; the one of the service has at most 64 bytes, and it is a DNS
label exactly when the name of the cluster has at most 59. -/
theorem labels_of_accepted (c : DbCluster) (h : validateSpec c = .ok ()) :
    (∀ index < c.spec.members.toNat, DnsLabel 63 (c.memberLabel index)) ∧
      DnsLabel 64 (wantedService c).name.name ∧
      (DnsLabel 63 (wantedService c).name.name ↔ c.metadata.name.utf8ByteSize ≤ 59) ∧
      c.Addresses (wantedAutomationConfig c).members c.membersThisPass.toNat ∧
      ∃ hosts, c.connectionUri = "dbcluster://" ++ ",".intercalate hosts ∧
        c.Addresses hosts c.spec.members.toNat := by
  have hfound : specProblem? c = none := by
    unfold validateSpec at h
    cases hproblem : specProblem? c with
    | none => rfl
    | some problem => rw [hproblem] at h; cases h
  have hmet := (reports_specProblem? c).accepts.1 hfound
  have hname : DnsLabel 60 c.metadata.name := hmet _ List.mem_cons_self
  have hmembers : 1 ≤ c.spec.members.toNat ∧ c.spec.members.toNat ≤ 50 :=
    hmet _ (List.mem_cons_of_mem _ List.mem_cons_self)
  have hbytes := hname.bytes
  refine ⟨fun index hindex => ?_, (dnsLabel_serviceName_iff hname).2 (by omega), ?_,
    c.addresses_hosts hname _, c.hosts c.desiredMembers, rfl, c.addresses_hosts hname _⟩
  · have hdigits := utf8ByteSize_toString_le index (by omega)
    exact (dnsLabel_memberLabel_iff hname).2 (by omega)
  · exact (dnsLabel_serviceName_iff hname).trans (by omega)

/-- Three members of a cluster with a short name. -/
theorem labels_of_accepted_example : validateSpec (.scaling 3 3) = .ok () ∧
    DnsLabel 63 ((DbCluster.scaling 3 3).memberLabel 2) ∧
    DnsLabel 63 (wantedService (.scaling 3 3)).name.name := by
  have haccepted : validateSpec (.scaling 3 3) = .ok () := by decide
  obtain ⟨hmembers, -, hservice, -⟩ := labels_of_accepted (.scaling 3 3) haccepted
  exact ⟨haccepted, hmembers 2 (by decide), hservice.2 (by decide)⟩

/-- A cluster with a name of 60 bytes. -/
def DbCluster.longNamed : DbCluster :=
  ⟨⟨"aaaaaaaaaaaaaaaaaaaaaaaaaaaaaaaaaaaaaaaaaaaaaaaaaaaaaaaaaaaa", "db", .empty⟩,
    ⟨3, "6.0.5", .standard⟩, .fresh⟩

/-- **Not all labels of an accepted cluster fit.**  A name of 60 bytes is accepted, and the
service then has a name of 64. -/
theorem not_forall_labels_of_accepted : ¬ ∀ c : DbCluster, validateSpec c = .ok () →
    (∀ index < c.spec.members.toNat, DnsLabel 63 (c.memberLabel index)) ∧
      DnsLabel 63 (wantedService c).name.name := by
  intro h
  have haccepted : validateSpec .longNamed = .ok () := by decide
  have hbytes := (h .longNamed haccepted).2.bytes
  exact absurd hbytes (by decide)

end Reconciliation
