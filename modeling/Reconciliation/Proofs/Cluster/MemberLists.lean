/-
# The lists of members

The automation config lists the addresses of the members, and so does the text under which
clients connect.  What stands around the index is the same for all members of a cluster, so
no address is listed twice (`DbCluster.host_injective`), and a list is the beginning of every
longer one (`DbCluster.hosts_prefix`).  While members are added or removed, the list of the
next pass has its last member more or less (`DbCluster.grows_or_shrinks`).

Once nothing is left to scale, both lists are the same, and splitting the connection text at
its commas gives the list back, as far as no name has a comma of its own
(`member_lists_agree`).
-/

import Mathlib.Data.List.Nodup
import Reconciliation.Proofs.Cluster.Hostnames
import Reconciliation.Proofs.Cluster.Members

namespace Reconciliation

open Json (isDigit_of_mem_decimal digitsValue_decimal)

/-! ## Joined parts -/

theorem splitAtChar_of_notMem {mark : Char} {part : List Char} (h : mark ∉ part) :
    splitAtChar mark part = [part] := by
  induction part with
  | nil => rfl
  | cons c part ih =>
    rw [List.mem_cons, not_or] at h
    rw [splitAtChar, if_neg (Ne.symm h.1), ih h.2]

/-- **Joined parts are split again**, if none of them has the mark. -/
theorem splitAtChar_intercalate {mark : Char} {parts : List (List Char)} (hne : parts ≠ [])
    (hparts : ∀ part ∈ parts, mark ∉ part) :
    splitAtChar mark ([mark].intercalate parts) = parts := by
  induction parts with
  | nil => exact absurd rfl hne
  | cons part rest ih =>
    obtain ⟨hpart, hrest⟩ := List.forall_mem_cons.1 hparts
    cases rest with
    | nil =>
      have hjoined : [mark].intercalate [part] = part := by simp [List.intercalate]
      rw [hjoined, splitAtChar_of_notMem hpart]
    | cons next more =>
      have hjoined : [mark].intercalate (part :: next :: more) =
          part ++ mark :: [mark].intercalate (next :: more) := by simp [List.intercalate]
      rw [hjoined, splitAtChar_append hpart, ih (List.cons_ne_nil next more) hrest]

/-- Texts that are joined by a mark that none of them has are found between the marks. -/
theorem map_ofList_splitAtChar_intercalate {mark : Char} {texts : List String} (hne : texts ≠ [])
    (htexts : ∀ text ∈ texts, mark ∉ text.toList) :
    (splitAtChar mark ((String.singleton mark).intercalate texts).toList).map String.ofList =
      texts := by
  have hparts : ∀ part ∈ texts.map String.toList, mark ∉ part := by
    simpa [List.forall_mem_map] using htexts
  have hne' : texts.map String.toList ≠ [] := by simpa using hne
  rw [String.toList_intercalate, String.toList_singleton, splitAtChar_intercalate hne' hparts,
    List.map_map]
  simp [Function.comp_def]

namespace DbCluster

variable {c d : DbCluster}

/-! ## Addresses -/

/-- What follows the index in an address. -/
def domain (c : DbCluster) : String :=
  "." ++ c.serviceName.name ++ "." ++ c.serviceName.space ++ ".svc.cluster.local:" ++
    toString databasePort.toNat

theorem toList_host (c : DbCluster) (index : Nat) : (c.host index).toList =
    c.metadata.name.toList ++ '-' :: (decimal index ++ c.domain.toList) := by
  simp [host, domain, decimal]

/-- **The index of a member can be read off its address.** -/
theorem host_injective (c : DbCluster) : Function.Injective c.host := by
  intro index other h
  have hlist := congrArg String.toList h
  rw [toList_host, toList_host] at hlist
  have hindex : decimal index = decimal other :=
    List.append_cancel_right (List.cons.inj (List.append_cancel_left hlist)).2
  rw [← digitsValue_decimal index, hindex, digitsValue_decimal]

/-- An address has a comma only where a name has one. -/
theorem comma_notMem_host (hname : ',' ∉ c.metadata.name.toList)
    (hspace : ',' ∉ c.metadata.space.toList) (index : Nat) : ',' ∉ (c.host index).toList := by
  have hdigits : ∀ n, ',' ∉ decimal n := fun n hn =>
    absurd (isDigit_of_mem_decimal hn) (by decide)
  have hdomain : ',' ∉ c.domain.toList := by
    have hport := hdigits databasePort.toNat
    rw [decimal] at hport
    simp [domain, serviceName, hname, hspace, hport]
  rw [toList_host, List.mem_append, List.mem_cons, List.mem_append, not_or, not_or, not_or]
  exact ⟨hname, by decide, hdigits index, hdomain⟩

/-! ## Lists -/

theorem length_hosts (c : DbCluster) (count : UInt32) : (c.hosts count).length = count.toNat := by
  rw [hosts, List.length_map, List.length_range]

theorem getElem?_hosts {count : UInt32} {index : Nat} (h : index < count.toNat) :
    (c.hosts count)[index]? = some (c.host index) := by
  rw [hosts, List.getElem?_map, List.getElem?_range h, Option.map_some]

theorem nodup_hosts (c : DbCluster) (count : UInt32) : (c.hosts count).Nodup :=
  List.nodup_range.map c.host_injective

/-- A list is the beginning of every longer one. -/
theorem hosts_prefix {count more : UInt32} (h : count ≤ more) : c.hosts count <+: c.hosts more := by
  refine List.IsPrefix.map c.host ?_
  rw [List.prefix_iff_eq_take, List.length_range, List.take_range,
    Nat.min_eq_left (UInt32.le_iff_toNat_le.1 h)]

/-- One member more is the last one. -/
theorem hosts_of_toNat_eq_succ {count more : UInt32} (h : more.toNat = count.toNat + 1) :
    c.hosts more = c.hosts count ++ [c.host count.toNat] := by
  rw [hosts, h, List.range_succ, List.map_append]
  rfl

/-- The config of one cluster lists what the config of another one lists, and one member
behind it. -/
def ListsOneMore (d c : DbCluster) : Prop :=
  (wantedAutomationConfig d).members = (wantedAutomationConfig c).members ++
    [c.host c.membersThisPass.toNat]

variable (hname : d.metadata.name = c.metadata.name) (hspace : d.metadata.space = c.metadata.space)
  (hcounted : c.currentMembers = d.membersThisPass)
include hname hspace hcounted

/-- **A pass that adds a member lists it behind all others.** -/
theorem listsOneMore_of_lt (hsome : c.currentMembers ≠ 0)
    (hgrows : c.currentMembers < c.desiredMembers) : c.ListsOneMore d := by
  have hless := UInt32.lt_iff_toNat_lt.1 hgrows
  have hpositive : c.currentMembers.toNat ≠ 0 := fun hzero => hsome (UInt32.toNat_inj.1 hzero)
  have hnext : c.membersThisPass.toNat = _ :=
    toNat_nextMemberCount c.currentMembers c.desiredMembers
  rw [if_neg (by omega), if_pos hless, hcounted] at hnext
  have hlists : c.hosts c.membersThisPass =
      d.hosts d.membersThisPass ++ [d.host d.membersThisPass.toNat] := by
    rw [← hosts_congr hname hspace]
    exact hosts_of_toNat_eq_succ hnext
  exact hlists

/-- **A pass that removes a member drops the last one of the list.** -/
theorem listsOneMore_of_gt (hshrinks : c.desiredMembers < c.currentMembers) :
    d.ListsOneMore c := by
  have hless := UInt32.lt_iff_toNat_lt.1 hshrinks
  have hnext : c.membersThisPass.toNat = _ :=
    toNat_nextMemberCount c.currentMembers c.desiredMembers
  rw [if_neg (by omega), if_neg (by omega)] at hnext
  have hlists : d.hosts d.membersThisPass =
      c.hosts c.membersThisPass ++ [c.host c.membersThisPass.toNat] := by
    rw [hosts_congr hname hspace, ← hcounted]
    exact hosts_of_toNat_eq_succ (by omega)
  exact hlists

end DbCluster

/-! ## Agreement -/

/-- **Config and connection text list the same members.**  The config lists exactly as many
members as the pass aims at, each one once and in the order of their indexes.  The list is the
beginning of every longer one of the same cluster `d`, and a step of scaling from the members
that `d` has aimed at adds or removes the last one.  When nothing is left to scale, the
connection text joins the same list, and is split into it again. -/
theorem member_lists_agree (c : DbCluster) :
    let config := wantedAutomationConfig c
    config.members.length = c.membersThisPass.toNat ∧
    config.members.Nodup ∧
    (∀ index < c.membersThisPass.toNat, config.members[index]? = some (c.metadata.name ++ "-" ++
      toString index ++ "." ++ c.metadata.name ++ "-svc." ++ c.metadata.space ++
        ".svc.cluster.local:27017")) ∧
    (∀ d : DbCluster, d.metadata.name = c.metadata.name → d.metadata.space = c.metadata.space →
      (c.membersThisPass ≤ d.membersThisPass →
        config.members <+: (wantedAutomationConfig d).members) ∧
      (c.currentMembers = d.membersThisPass →
        (c.currentMembers ≠ 0 → c.currentMembers < c.desiredMembers → c.ListsOneMore d) ∧
        (c.desiredMembers < c.currentMembers → d.ListsOneMore c))) ∧
    (c.isStillScaling = false →
      c.connectionUri = "dbcluster://" ++ ",".intercalate config.members ∧
      (1 ≤ c.spec.members → ',' ∉ c.metadata.name.toList → ',' ∉ c.metadata.space.toList →
        ∀ rest, c.connectionUri = "dbcluster://" ++ rest →
          (splitAtChar ',' rest.toList).map String.ofList = config.members)) := by
  refine ⟨c.length_hosts _, c.nodup_hosts _, fun index hindex => ?_, fun d hname hspace =>
    ⟨fun hle => ?_, fun hcounted => ⟨DbCluster.listsOneMore_of_lt hname hspace hcounted,
      DbCluster.listsOneMore_of_gt hname hspace hcounted⟩⟩, fun hscaling => ?_⟩
  · have hport : toString databasePort.toNat = "27017" := by decide
    rw [wantedAutomationConfig, DbCluster.getElem?_hosts hindex]
    simp [DbCluster.host, DbCluster.serviceName, hport, String.append_assoc]
  · have hhosts : (wantedAutomationConfig d).members = c.hosts d.membersThisPass :=
      congrFun (DbCluster.hosts_congr hname hspace) _
    rw [hhosts]
    exact DbCluster.hosts_prefix hle
  · have hmembers : c.membersThisPass = c.desiredMembers :=
      c.isStillScaling_eq_false_iff.1 hscaling
    have huri : c.connectionUri =
        "dbcluster://" ++ ",".intercalate (wantedAutomationConfig c).members := by
      rw [wantedAutomationConfig, hmembers]
      rfl
    refine ⟨huri, fun hpositive hname hspace rest hrest => ?_⟩
    obtain rfl : rest = ",".intercalate (wantedAutomationConfig c).members :=
      (String.append_right_inj _).1 (hrest.symm.trans huri)
    refine map_ofList_splitAtChar_intercalate (fun hnil => ?_) fun host hhost => ?_
    · have hnone : c.desiredMembers.toNat = 0 := by
        rw [← hmembers, ← c.length_hosts]
        exact congrArg List.length hnil
      exact absurd (hnone ▸ UInt32.le_iff_toNat_le.1 hpositive) (by decide)
    · obtain ⟨index, -, rfl⟩ := List.mem_map.1 hhost
      exact DbCluster.comma_notMem_host hname hspace index

/-- The fifth member is listed behind four others; the cluster has all its members then, and
lists them in the connection text too. -/
theorem member_lists_agree_of_growth :
    (DbCluster.scaling 4 5).ListsOneMore (.scaling 3 5) ∧
      (DbCluster.scaling 4 5).isStillScaling = false ∧
      ∀ rest, (DbCluster.scaling 4 5).connectionUri = "dbcluster://" ++ rest →
        (splitAtChar ',' rest.toList).map String.ofList =
          (wantedAutomationConfig (.scaling 4 5)).members := by
  have hcomplete : (DbCluster.scaling 4 5).isStillScaling = false := by decide
  obtain ⟨-, -, -, hother, hlists⟩ := member_lists_agree (.scaling 4 5)
  have hstep := ((hother (.scaling 3 5) rfl rfl).2 rfl).1
  exact ⟨hstep (by decide) (by decide), hcomplete,
    (hlists hcomplete).2 (by decide) (by decide) (by decide)⟩

end Reconciliation
