/-
# The automation config at the end of a pass

A pass publishes the automation config for the members of its first step when it
removes members, and for those of its last step when it adds them.  At the end the
config therefore lists the wanted members unless two or more were to be removed, and
then it still lists all but one of the members that the pass began with.
-/

import Reconciliation.Proofs.Cluster.Run

namespace Reconciliation

/-! ## Configs for a number of members -/

/-- The config does for the first members of a cluster what its spec asks for. -/
def AutomationConfig.Serves (config : AutomationConfig) (c : DbCluster) (count : UInt32) : Prop :=
  config.members = c.hosts count ∧ config.databaseVersion = c.spec.version ∧
    config.tlsEnabled = c.spec.security.tls.enabled

/-- The store holds such a config. -/
def Store.Serves (s : Store) (name : ResourceName) (c : DbCluster) (count : UInt32) : Prop :=
  ∃ config, s.automationConfigs name = some config ∧ config.Serves c count

/-- A config serves one number of members only. -/
theorem AutomationConfig.Serves.count_eq {config : AutomationConfig} {c : DbCluster}
    {m n : UInt32} (hm : config.Serves c m) (hn : config.Serves c n) : m = n := by
  have hlength := congrArg List.length (hm.1.symm.trans hn.1)
  simp only [DbCluster.hosts, List.length_map, List.length_range] at hlength
  exact UInt32.toNat_inj.1 hlength

theorem Store.Serves.count_eq {s : Store} {name : ResourceName} {c : DbCluster} {m n : UInt32}
    (hm : s.Serves name c m) (hn : s.Serves name c n) : m = n := by
  obtain ⟨config, hconfig, hm⟩ := hm
  obtain ⟨config', hconfig', hn⟩ := hn
  obtain rfl := Option.some.inj (hconfig.symm.trans hconfig')
  exact hm.count_eq hn

/-- The members that the config serves at the end of a pass of the cluster. -/
def DbCluster.listedAtEnd (c : DbCluster) : UInt32 :=
  if c.currentMembers ≤ c.desiredMembers then c.desiredMembers else c.currentMembers - 1

/-- The wanted members are served unless two or more are to be removed. -/
theorem DbCluster.listedAtEnd_eq_iff (c : DbCluster) :
    c.listedAtEnd = c.desiredMembers ↔
      c.currentMembers.toNat ≤ c.desiredMembers.toNat + 1 := by
  unfold listedAtEnd
  split
  · rename_i hle
    have hle : c.currentMembers.toNat ≤ c.desiredMembers.toNat := UInt32.le_iff_toNat_le.1 hle
    exact iff_of_true rfl (by omega)
  · rename_i hlt
    rw [UInt32.le_iff_toNat_le] at hlt
    rw [← UInt32.toNat_inj, toNat_sub_one_of_pos (by omega)]
    omega

namespace Scene

/-- The scene holds a config that serves the first members of a cluster. -/
def Serves (a : Scene) (c : DbCluster) (count : UInt32) : Prop :=
  ∃ config, a.config = some config ∧ config.Serves c count

variable {a b : Scene} {c : DbCluster} {count : UInt32}

theorem Serves.of_config_eq (h : a.Serves c count) (hconfig : b.config = a.config) :
    b.Serves c count := by
  rwa [Serves, hconfig]

/-- A published config serves the members of the pass. -/
theorem serves_published (h : c.SameSpec a.cluster) :
    a.published.Serves c a.cluster.membersThisPass := by
  have hwanted : (wantedAutomationConfig a.cluster).Serves c a.cluster.membersThisPass :=
    ⟨h.hosts_eq _, congrArg ClusterSpec.version h.spec,
      congrArg (fun spec => spec.security.tls.enabled) h.spec⟩
  refine ⟨_, rfl, ?_⟩
  unfold AutomationConfig.publishedOver
  split
  · split
    · rename_i existing hsame
      simp only [AutomationConfig.sameContent, Bool.and_eq_true, decide_eq_true_eq] at hsame
      obtain ⟨⟨hmembers, hversion⟩, htls⟩ := hsame
      exact ⟨hmembers.trans hwanted.1, hversion.trans hwanted.2.1, htls.trans hwanted.2.2⟩
    · exact hwanted
  · exact hwanted

end Scene

/-! ## Passes that add members -/

/-- What holds before a stage of a pass of the cluster `c` that removes no member. -/
structure Growing (c : DbCluster) (stage : Stage) (a : Scene) : Prop where
  sameSpec : c.SameSpec a.cluster
  current_le : a.current ≤ a.desired
  /-- With a workload the config is published in the last step only. -/
  config_last : stage = .deployAutomationConfig → a.workload ≠ none → a.next = a.desired
  /-- After the last step the config serves all members. -/
  served : stage = .resetUpdateStrategy ∨ stage = .reconciliationEnd ∨
    (stage = .updateStatus ∧ a.next = a.desired) → a.Serves c c.desiredMembers

namespace Growing

variable {c : DbCluster} {stage after : Stage} {a b : Scene} {conclusion : Conclusion}

theorem of_settles (h : Growing c stage a) (hab : a.Settles b) : Growing c stage b := by
  have hframe := hab.frame .startFresh
  refine ⟨h.sameSpec.trans hframe.sameSpec, ?_, ?_, ?_⟩
  · rw [hframe.current_eq nofun, hframe.desired_eq]
    exact h.current_le
  · intro hstage hsome
    rw [hframe.next_eq nofun, hframe.desired_eq]
    exact h.config_last hstage fun hnone => hsome ((hframe.workload_eq_none_iff nofun).2 hnone)
  · rw [hframe.next_eq nofun, hframe.desired_eq]
    exact fun hstage => (h.served hstage).of_config_eq hab.config_eq

/-- A pass that adds members begins without any condition. -/
theorem opening (hcount : a.current ≤ a.desired) : Growing a.cluster initialStage a :=
  ⟨.refl _, hcount, nofun, by rintro (h | h | ⟨h, -⟩) <;> cases h⟩

/-- What the next stage of a pass is owed, when the count of members stays. -/
theorem of_frame (h : Growing c stage a) (hframe : Scene.Frame stage a b)
    (hstage : stage ≠ .updateStatus)
    (hlast : after = .deployAutomationConfig → b.workload ≠ none → a.next = a.desired)
    (hserved : after = .resetUpdateStrategy ∨ after = .reconciliationEnd ∨
      (after = .updateStatus ∧ a.next = a.desired) → b.Serves c c.desiredMembers) :
    Growing c after b := by
  refine ⟨h.sameSpec.trans hframe.sameSpec, ?_, ?_, ?_⟩
  · rw [hframe.current_eq hstage, hframe.desired_eq]
    exact h.current_le
  · rw [hframe.next_eq hstage, hframe.desired_eq]
    exact hlast
  · rw [hframe.next_eq hstage, hframe.desired_eq]
    exact hserved

/-- A step before the deployment writes the workload first, unless there is none. -/
theorem step_of_prepares (h : Growing c stage a) (hprepares : stage.prepares = true)
    (hstep : a.Step false stage conclusion after b) : Growing c after b := by
  have hroute := hstep.route_of_prepares hprepares
  have hcurrent := h.current_le
  refine h.of_frame hstep.frame ?_ ?_ ?_
  · rintro rfl
    cases hprepares
  · rintro rfl hsome
    rcases hroute with hprepares | ⟨hnone | hdown, -⟩ | ⟨-, hother⟩
    · cases hprepares
    · exact absurd hnone hsome
    · omega
    · cases hother
  · rintro (rfl | rfl | ⟨rfl, -⟩) <;>
      rcases hroute with hprepares | ⟨-, hother⟩ | ⟨-, hother⟩ <;>
        first | cases hprepares | cases hother

/-- The config is published for the wanted members, unless the workload comes next. -/
theorem step_deployAutomationConfig (h : Growing c .deployAutomationConfig a)
    (hstep : a.Step false .deployAutomationConfig conclusion after b) : Growing c after b := by
  have hframe := hstep.frame
  have hlast : b.workload ≠ none → a.next = a.desired := fun hsome =>
    h.config_last rfl fun hnone => hsome ((hframe.workload_eq_none_iff nofun).2 hnone)
  refine h.of_frame hframe nofun (fun _ => hlast) fun hafter => ?_
  have hsome : ¬ a.NeedsConfigFirst b := by
    rcases hstep.route with rfl | ⟨-, rfl⟩ | ⟨hneeds, -⟩
    · rcases hafter with h | h | ⟨h, -⟩ <;> cases h
    · rcases hafter with h | h | ⟨h, -⟩ <;> cases h
    · exact hneeds
  have hcount : a.cluster.membersThisPass = c.desiredMembers := by
    rw [← h.sameSpec.desiredMembers_eq]
    exact UInt32.toNat_inj.1 (hlast fun hnone => hsome (.inl hnone))
  have hserves := Scene.serves_published h.sameSpec
  rw [hcount] at hserves
  exact hserves.of_config_eq hstep.config_eq

/-- The config comes after the last workload that is written. -/
theorem step_deployWorkload (h : Growing c .deployWorkload a)
    (hstep : a.Step false .deployWorkload conclusion after b) : Growing c after b := by
  have hroute := hstep.route
  have hcurrent := h.current_le
  refine h.of_frame hstep.frame nofun ?_ ?_
  · rintro rfl -
    rcases hroute with h | ⟨-, h⟩ | ⟨-, hdown, -⟩ | ⟨hlast, -, -⟩
    · cases h
    · cases h
    · omega
    · exact hlast
  · intro hafter
    rcases hroute with rfl | ⟨hne, rfl⟩ | ⟨-, hdown, -⟩ | ⟨-, -, rfl⟩
    · rcases hafter with h | h | ⟨h, -⟩ <;> cases h
    · rcases hafter with h | h | ⟨-, hlast⟩
      · cases h
      · cases h
      · exact absurd hlast hne
    · omega
    · rcases hafter with h | h | ⟨h, -⟩ <;> cases h

/-- The members of a step are counted, and after the last step the pass ends. -/
theorem step_updateStatus (h : Growing c .updateStatus a)
    (hstep : a.Step false .updateStatus conclusion after b) : Growing c after b := by
  have hframe := hstep.frame
  have hcurrent := h.current_le
  have hnext := a.next_cases
  refine ⟨h.sameSpec.trans hframe.sameSpec, ?_, ?_, ?_⟩
  · rw [hstep.current_eq, hframe.desired_eq]
    omega
  · rintro rfl
    rcases hstep.route with ⟨-, h⟩ | ⟨-, h⟩ <;> cases h
  · intro hafter
    rcases hstep.route with ⟨-, rfl⟩ | ⟨hlast, rfl⟩
    · rcases hafter with h | h | ⟨h, -⟩ <;> cases h
    · exact (h.served (.inr (.inr ⟨rfl, hlast⟩))).of_config_eq (hframe.config nofun)

/-- Every step of a pass that adds members keeps what is owed. -/
theorem step (h : Growing c stage a) (hstep : a.Step false stage conclusion after b) :
    Growing c after b := by
  have hroute := hstep.route
  cases stage with
  | startFresh | validateSpec | createService | tlsValidation | createTlsResources =>
    exact h.step_of_prepares rfl hstep
  | deployAutomationConfig => exact h.step_deployAutomationConfig hstep
  | deployWorkload => exact h.step_deployWorkload hstep
  | resetUpdateStrategy =>
    refine h.of_frame hstep.frame nofun ?_ fun _ =>
      (h.served (.inl rfl)).of_config_eq (hstep.frame.config nofun)
    rintro rfl
    rcases hroute with h | h <;> cases h
  | updateStatus => exact h.step_updateStatus hstep
  | reconciliationEnd =>
    obtain rfl : after = .startFresh := hroute
    refine h.of_frame hstep.frame nofun nofun ?_
    rintro (h | h | ⟨h, -⟩) <;> cases h

end Growing

/-! ## Passes that remove members -/

/-- What holds before a stage of the first pass of the cluster `c`, when there are
members to be removed. -/
structure Shrinking (c : DbCluster) (stage : Stage) (a : Scene) : Prop where
  sameSpec : c.SameSpec a.cluster
  /-- Nothing is counted before the first workload was written. -/
  current_eq : stage.prepares = true ∨ stage = .deployAutomationConfig →
    a.cluster.currentMembers = c.currentMembers
  /-- Until the end of the pass there are members to be removed. -/
  desired_lt : stage = .deployWorkload ∨ stage = .resetUpdateStrategy ∨
    (stage = .updateStatus ∧ a.next ≠ a.desired) → a.desired < a.current
  /-- From the first step on the config serves all members but one. -/
  served : stage.prepares = true ∨ stage = .deployAutomationConfig ∨
    a.Serves c (c.currentMembers - 1)

namespace Shrinking

variable {c : DbCluster} {stage after : Stage} {a b : Scene} {conclusion : Conclusion}

theorem of_settles (h : Shrinking c stage a) (hab : a.Settles b) : Shrinking c stage b := by
  have hframe := hab.frame .startFresh
  refine ⟨h.sameSpec.trans hframe.sameSpec, ?_, ?_, ?_⟩
  · exact fun hstage => (hframe.members nofun).trans (h.current_eq hstage)
  · rw [hframe.current_eq nofun, hframe.desired_eq, hframe.next_eq nofun]
    exact h.desired_lt
  · exact h.served.imp_right (Or.imp_right fun hserves => hserves.of_config_eq hab.config_eq)

/-- The first step of a pass that removes members removes one. -/
theorem membersThisPass_eq (hdown : c.desiredMembers < c.currentMembers)
    (hspec : c.SameSpec a.cluster) (hcount : a.cluster.currentMembers = c.currentMembers) :
    a.cluster.membersThisPass = c.currentMembers - 1 := by
  have hlt : c.desiredMembers.toNat < c.currentMembers.toNat := UInt32.lt_iff_toNat_lt.1 hdown
  have hnext := toNat_nextMemberCount c.currentMembers c.desiredMembers
  rw [if_neg (by omega), if_neg (by omega)] at hnext
  rw [DbCluster.membersThisPass, hcount, hspec.desiredMembers_eq]
  exact UInt32.toNat_inj.1 (hnext.trans (toNat_sub_one_of_pos (by omega)).symm)

theorem opening : Shrinking a.cluster initialStage a := by
  refine ⟨.refl _, fun _ => rfl, ?_, .inl rfl⟩
  rintro (h | h | ⟨h, -⟩) <;> cases h

/-- What the next stage of a pass is owed, when the count of members stays. -/
theorem of_frame (h : Shrinking c stage a) (hframe : Scene.Frame stage a b)
    (hstage : stage ≠ .updateStatus)
    (hcount : after.prepares = true ∨ after = .deployAutomationConfig →
      a.cluster.currentMembers = c.currentMembers)
    (hlt : after = .deployWorkload ∨ after = .resetUpdateStrategy ∨
      (after = .updateStatus ∧ a.next ≠ a.desired) → a.desired < a.current)
    (hserved : after.prepares = true ∨ after = .deployAutomationConfig ∨
      b.Serves c (c.currentMembers - 1)) : Shrinking c after b := by
  refine ⟨h.sameSpec.trans hframe.sameSpec, ?_, ?_, hserved⟩
  · exact fun hafter => (hframe.members hstage).trans (hcount hafter)
  · rw [hframe.current_eq hstage, hframe.desired_eq, hframe.next_eq hstage]
    exact hlt

/-- Every step of the pass but its end keeps what is owed. -/
theorem step (hdown : c.desiredMembers < c.currentMembers) (h : Shrinking c stage a)
    (hstep : a.Step false stage conclusion after b) (hstage : stage ≠ .reconciliationEnd) :
    Shrinking c after b := by
  have hframe := hstep.frame
  have hroute := hstep.route
  have hlt : a.cluster.currentMembers = c.currentMembers → a.desired < a.current := by
    intro hcount
    show a.cluster.desiredMembers.toNat < a.cluster.currentMembers.toNat
    rw [hcount, h.sameSpec.desiredMembers_eq]
    exact UInt32.lt_iff_toNat_lt.1 hdown
  have hkept : stage ≠ .deployAutomationConfig → stage.prepares ≠ true →
      b.Serves c (c.currentMembers - 1) := fun hne hprepares =>
    ((h.served.resolve_left hprepares).resolve_left hne).of_config_eq (hframe.config hne)
  cases stage with
  | startFresh | validateSpec | createService | tlsValidation | createTlsResources =>
    have hcount := h.current_eq (.inl rfl)
    refine h.of_frame hframe nofun (fun _ => hcount) (fun _ => hlt hcount) ?_
    rcases hroute with hprepares | ⟨-, rfl⟩ | ⟨hneeds, -⟩
    · exact .inl hprepares
    · exact .inr (.inl rfl)
    · exact absurd (.inr (hlt hcount)) hneeds
  | deployAutomationConfig =>
    have hcount := h.current_eq (.inr rfl)
    refine h.of_frame hframe nofun (fun _ => hcount) (fun _ => hlt hcount) (.inr (.inr ?_))
    have hserves := Scene.serves_published h.sameSpec
    rw [membersThisPass_eq hdown h.sameSpec hcount] at hserves
    exact hserves.of_config_eq hstep.config_eq
  | deployWorkload =>
    have hdesired := h.desired_lt (.inl rfl)
    refine h.of_frame hframe nofun ?_ (fun _ => hdesired) (.inr (.inr (hkept nofun nofun)))
    rcases hroute with rfl | ⟨-, rfl⟩ | ⟨-, -, hafter⟩ | ⟨-, hle, -⟩
    · rintro (h | h) <;> cases h
    · rintro (h | h) <;> cases h
    · rcases b.afterDeployment_cases with h | h <;> rw [hafter, h] <;> rintro (h | h) <;> cases h
    · omega
  | resetUpdateStrategy =>
    have hdesired := h.desired_lt (.inr (.inl rfl))
    refine h.of_frame hframe nofun ?_ (fun _ => hdesired) (.inr (.inr (hkept nofun nofun)))
    rcases hroute with rfl | rfl <;> rintro (h | h) <;> cases h
  | updateStatus =>
    refine ⟨h.sameSpec.trans hframe.sameSpec, ?_, ?_, .inr (.inr (hkept nofun nofun))⟩
    · rcases hroute with ⟨-, rfl⟩ | ⟨-, rfl⟩ <;> rintro (h | h) <;> cases h
    · rcases hroute with ⟨hne, rfl⟩ | ⟨-, rfl⟩
      · intro _
        have hdesired := h.desired_lt (.inr (.inr ⟨rfl, hne⟩))
        have hnext := a.next_eq
        rw [if_neg (by omega), if_neg (by omega)] at hnext
        rw [hframe.desired_eq, hstep.current_eq]
        omega
      · rintro (h | h | ⟨h, -⟩) <;> cases h
  | reconciliationEnd => exact absurd rfl hstage

end Shrinking

/-! ## The end of the first pass -/

section Passes

variable {r : Reconciler} {instant : Bool} {name : ResourceName} {start s : Store} {c : DbCluster}
  {calls : List Call}

/-- Before each call of the first pass the config is as it should be when members are
added. -/
theorem Growing.of_run (hr : r.pacer.Silent) (hbegins : start.Begins name c)
    (hrun : Run (r.Calls instant name) Store.Reports start calls s)
    (hcount : c.currentMembers ≤ c.desiredMembers) :
    ∃ stage a, s.Shows name a ∧ resumeStage a.cluster = .ok stage ∧ Growing c stage a := by
  refine Run.invariant (fun _ => Growing c) (r.stepsBy_calls hr instant name) hbegins hrun ?_
    (fun h hab => h.of_settles hab) (fun h hseen => h.step hseen.step)
  exact .opening (a := start.opening name c) (UInt32.le_iff_toNat_le.1 hcount)

/-- Before each call of the first pass the config is one step behind when members are
removed. -/
theorem Shrinking.of_run (hr : r.pacer.Silent) (hbegins : start.Begins name c)
    (hrun : Run (r.Calls instant name) Store.Reports start calls s)
    (hfirst : ∀ call ∈ calls, call.conclusion.result ≠ .ok .done)
    (hdown : c.desiredMembers < c.currentMembers) :
    ∃ stage a, s.Shows name a ∧ resumeStage a.cluster = .ok stage ∧ Shrinking c stage a := by
  have hstep : ∀ {calls last stage a after b},
      ((∀ call ∈ calls, call.conclusion.result ≠ .ok .done) → Shrinking c stage a) →
      Call.Seen last name false stage a after b →
      (∀ call ∈ last :: calls, call.conclusion.result ≠ .ok .done) → Shrinking c after b := by
    intro calls last stage a after b h hseen hfirst
    obtain ⟨hlast, hcalls⟩ := List.forall_mem_cons.1 hfirst
    refine (h hcalls).step hdown hseen.step ?_
    rintro rfl
    exact hlast hseen.step.done_of_end
  obtain ⟨stage, a, hs, hstage, hinv⟩ := Run.invariant (fun calls stage a =>
      (∀ call ∈ calls, call.conclusion.result ≠ .ok .done) → Shrinking c stage a)
    (r.stepsBy_calls hr instant name) hbegins hrun (fun _ => .opening (a := start.opening name c))
    (fun h hab hfirst => (h hfirst).of_settles hab) hstep
  exact ⟨stage, a, hs, hstage, hinv hfirst⟩

/-- **At the end of the first pass the config serves the wanted members exactly when at
most one member was to be removed.**  Otherwise it serves all members but one that the
pass began with. -/
theorem config_at_end {last : Call} (hr : r.pacer.Silent) (hbegins : start.Begins name c)
    (hrun : Run (r.Calls instant name) Store.Reports start (last :: calls) s)
    (hdone : last.conclusion.result = .ok .done)
    (hfirst : ∀ call ∈ calls, call.conclusion.result ≠ .ok .done) :
    last.after.Serves name c c.listedAtEnd ∧
    (last.after.Serves name c c.desiredMembers ↔
      c.currentMembers.toNat ≤ c.desiredMembers.toNat + 1) := by
  obtain ⟨hcalls, hlast⟩ := hrun.of_cons
  have hserves : last.after.Serves name c c.listedAtEnd := by
    -- the last call is one at the end of a pass, which leaves the config alone
    have hend : ∀ {stage a}, last.before.Shows name a → resumeStage a.cluster = .ok stage →
        stage = .reconciliationEnd ∧ last.after.automationConfigs name = a.config := by
      intro stage a hs hstage
      obtain ⟨after, b, hstep, hb⟩ := hlast.step hr hs hstage
      obtain rfl := hstep.eq_end_of_done hdone
      exact ⟨rfl, hb.config.trans (hstep.frame.config nofun)⟩
    unfold DbCluster.listedAtEnd
    split
    · obtain ⟨stage, a, hs, hstage, hinv⟩ := Growing.of_run hr hbegins hcalls ‹_›
      obtain ⟨rfl, hconfig⟩ := hend hs hstage
      rw [Store.Serves, hconfig]
      exact hinv.served (.inr (.inl rfl))
    · have hdown : c.desiredMembers < c.currentMembers := UInt32.not_le.1 ‹_›
      obtain ⟨stage, a, hs, hstage, hinv⟩ := Shrinking.of_run hr hbegins hcalls hfirst hdown
      obtain ⟨rfl, hconfig⟩ := hend hs hstage
      rw [Store.Serves, hconfig]
      exact (hinv.served.resolve_left nofun).resolve_left nofun
  refine ⟨hserves, fun hwanted => ?_, fun hcount => ?_⟩
  · rw [← DbCluster.listedAtEnd_eq_iff]
    exact hserves.count_eq hwanted
  · rw [← DbCluster.listedAtEnd_eq_iff] at hcount
    rwa [hcount] at hserves

end Passes

/-- Of two members one is removed, and in the end the config serves the other. -/
theorem config_at_end_of_one_removed : ∃ last calls s,
    Run (Reconciler.standard.Calls true ⟨"db", "example"⟩) Store.Reports
      (.deployedFor ⟨2, "6.0.5", .standard⟩ (.scaling 2 1)) (last :: calls) s ∧
    last.conclusion.result = .ok .done ∧ last.after.Serves ⟨"db", "example"⟩ (.scaling 2 1) 1 := by
  obtain ⟨last, calls, s, hrun, hdone, hfirst⟩ :=
    Reconciler.standard.exists_run true default ⟨"db", "example"⟩
      (.deployedFor ⟨2, "6.0.5", .standard⟩ (.scaling 2 1)) (.replicate 6 (.call false)) (by decide)
      (P := fun last calls => last.conclusion.result = .ok .done ∧
        ∀ call ∈ calls, call.conclusion.result ≠ .ok .done) (by decide +kernel)
  exact ⟨last, calls, s, hrun, hdone, (config_at_end Pacer.silent_none
    (Store.begins_scaling _ 2 1) hrun hdone hfirst).2.2 (by decide)⟩

/-- It is not true that the config serves the wanted members at the end of every first
pass: of five members two are removed, and the config still lists four. -/
theorem not_forall_config_at_end : ¬ ∀ {r : Reconciler} {instant : Bool} {name : ResourceName}
    {start s : Store} {c : DbCluster} {last : Call} {calls : List Call}, r.pacer.Silent →
    specProblem? c = none → start.Begins name c →
    Run (r.Calls instant name) Store.Reports start (last :: calls) s →
    last.conclusion.result = .ok .done →
    (∀ call ∈ calls, call.conclusion.result ≠ .ok .done) →
    last.after.Serves name c c.desiredMembers := by
  intro h
  obtain ⟨last, calls, s, hrun, hdone, hfirst, hfour⟩ :=
    Reconciler.standard.exists_run true default ⟨"db", "example"⟩
      (.deployedFor ⟨5, "6.0.5", .standard⟩ (.scaling 5 3)) (.replicate 8 (.call false)) (by decide)
      (P := fun last calls => last.conclusion.result = .ok .done ∧
        (∀ call ∈ calls, call.conclusion.result ≠ .ok .done) ∧
        (last.after.automationConfigs ⟨"db", "example"⟩).map (fun config => config.members.length) =
          some 4) (by decide +kernel)
  obtain ⟨config, hconfig, hserves⟩ := h Pacer.silent_none (by decide +kernel)
    (Store.begins_scaling _ 5 3) hrun hdone hfirst
  rw [hconfig, Option.map_some, hserves.1] at hfour
  exact absurd hfour (by decide)

end Reconciliation
