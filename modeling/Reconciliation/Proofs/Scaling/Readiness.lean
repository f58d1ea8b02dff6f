/-
# What runs when a cluster is published as running

A workload serves once all its replicas are ready and its agents have reached the
stored automation config.  A pass waits for that in the stage that publishes the config
or in the one that writes the workload, whichever comes last, with one exception: under
a change of the version the members are restarted by hand, and the stage that writes
the workload does not wait.  When members are removed it comes last, so the workload
need not be ready when the cluster is published as running.
-/

import Reconciliation.Proofs.Cluster.Run

namespace Reconciliation

/-! ## Workloads that serve -/

/-- All replicas are ready, and the agents have reached the stored config. -/
def Store.IsServing (s : Store) (name : ResourceName) : Prop :=
  ∃ w ∈ s.workloads name, ∃ config ∈ s.automationConfigs name,
    w.isReady = true ∧ w.agentsReached config.version = true

instance (s : Store) (name : ResourceName) : Decidable (s.IsServing name) :=
  inferInstanceAs (Decidable (∃ w ∈ s.workloads name, ∃ config ∈ s.automationConfigs name, _))

/-- How many replicas of the workload are ready. -/
def Store.readyReplicas? (s : Store) (name : ResourceName) : Option UInt32 :=
  (s.workloads name).map fun w => w.status.readyReplicas

namespace Scene

/-- There are a workload and a config, and the agents follow the config. -/
structure Serving (a : Scene) : Prop where
  deployed : a.workload ≠ none
  published : a.config ≠ none
  followed : a.Followed

/-- There is a config, and the agents of a workload know it unless no replica is ready. -/
def Informed (a : Scene) : Prop :=
  ∃ config, a.config = some config ∧ ∀ w ∈ a.workload,
    config.version ≤ w.status.agentsGoalVersion ∨ w.status.readyReplicas = 0

variable {stage after : Stage} {a b : Scene} {conclusion : Conclusion}

theorem Serving.of_settles (h : a.Serving) (hab : a.Settles b) : b.Serving where
  deployed := hab.workload_ne_none h.deployed
  published := by
    rw [hab.config_eq]
    exact h.published
  followed := h.followed.of_settles hab

theorem Informed.of_settles (h : a.Informed) (hab : a.Settles b) : b.Informed := by
  cases hab with
  | still => exact h
  | caughtUp w hw =>
    obtain ⟨config, hconfig, -⟩ := h
    refine ⟨config, hconfig, fun w' hw' => .inl ?_⟩
    obtain rfl := Option.some.inj hw'
    simp [Workload.caughtUp, goalVersion, hconfig]

theorem Serving.withCluster (h : a.Serving) (cluster : DbCluster) :
    (a.withCluster cluster).Serving :=
  ⟨h.deployed, h.published, h.followed⟩

theorem Informed.withCluster (h : a.Informed) (cluster : DbCluster) :
    (a.withCluster cluster).Informed := h

theorem Serving.of_rests {now : Timestamp} (h : a.Serving) (hab : a.Rests now b) : b.Serving := by
  obtain ⟨cluster, hab⟩ := hab.exists_settles
  exact (h.withCluster cluster).of_settles hab

theorem Informed.of_rests {now : Timestamp} (h : a.Informed) (hab : a.Rests now b) :
    b.Informed := by
  obtain ⟨cluster, hab⟩ := hab.exists_settles
  exact (h.withCluster cluster).of_settles hab

/-- Agents that follow the config know it. -/
theorem Followed.informed (h : a.Followed) {config : AutomationConfig}
    (hconfig : a.config = some config) : a.Informed := by
  refine ⟨config, hconfig, fun w hw => .inl ?_⟩
  exact (Workload.agentsReached_iff.1 (h w hw config hconfig)).2

/-- Agents that know the config follow it once replicas are ready. -/
theorem Informed.serving_iff {count : UInt32} (h : a.Informed)
    (hreplicas : a.replicas? = some count) (hcount : count ≠ 0) :
    a.Serving ↔ a.workload.map (fun w => w.status.readyReplicas) = some count := by
  obtain ⟨config, hconfig, hknows⟩ := h
  obtain ⟨w, hw, rfl⟩ := Option.map_eq_some_iff.1 hreplicas
  rw [hw, Option.map_some, Option.some_inj]
  constructor
  · exact fun hserving => (Workload.agentsReached_iff.1 (hserving.followed w hw config hconfig)).1
  · intro hready
    refine ⟨by rw [hw]; nofun, by rw [hconfig]; nofun, fun w' hw' config' hconfig' => ?_⟩
    obtain rfl := Option.some.inj (hw.symm.trans hw')
    obtain rfl := Option.some.inj (hconfig.symm.trans hconfig')
    have hknown := (hknows w hw).resolve_right fun hzero => hcount (hready.symm.trans hzero)
    exact Workload.agentsReached_iff.2 ⟨hready, hknown⟩

/-! ## What the stages leave alone -/

/-- Only the stage that publishes the config makes agents fall behind. -/
theorem Acts.informed {ctx : Context} {complete : Bool} (h : a.Acts ctx stage complete b)
    (hstage : stage ≠ .deployAutomationConfig) (ha : a.Informed) : b.Informed := by
  cases h with
  | prepared _ rest => exact ha.of_rests rest
  | published => exact absurd rfl hstage
  | @deployed _ _ c d before deploy rest =>
    refine (Informed.of_settles ?_ deploy).of_rests rest
    obtain ⟨config, hconfig, hknows⟩ := ha.of_settles before
    refine ⟨config, hconfig, fun w hw => ?_⟩
    obtain rfl := Option.some.inj hw
    cases hc : c.workload with
    | none => exact .inr rfl
    | some w => exact hknows w hc
  | @reset _ c before reset =>
    refine Informed.of_settles ?_ reset
    obtain ⟨config, hconfig, hknows⟩ := ha.of_settles before
    refine ⟨config, hconfig, fun w hw => ?_⟩
    obtain ⟨w', hw', rfl⟩ := Option.map_eq_some_iff.1 hw
    exact hknows w' hw'
  | missing rest => exact ha.of_rests rest
  | counted _ write => exact (ha.withCluster _).of_settles write
  | running _ write => exact (ha.withCluster _).of_settles write
  | ended write => exact (ha.withCluster _).of_settles write

/-- Only the stages that deploy make a workload stop serving. -/
theorem Acts.serving {ctx : Context} {complete : Bool} (h : a.Acts ctx stage complete b)
    (hstage : stage ≠ .deployAutomationConfig) (hstage' : stage ≠ .deployWorkload)
    (ha : a.Serving) : b.Serving := by
  cases h with
  | prepared _ rest => exact ha.of_rests rest
  | published => exact absurd rfl hstage
  | deployed => exact absurd rfl hstage'
  | @reset _ c before reset =>
    refine Serving.of_settles ?_ reset
    have hc := ha.of_settles before
    refine ⟨?_, hc.published, fun w hw config hconfig => ?_⟩
    · show c.workload.map _ ≠ none
      rw [ne_eq, Option.map_eq_none_iff]
      exact hc.deployed
    · obtain ⟨w', hw', rfl⟩ := Option.map_eq_some_iff.1 hw
      exact hc.followed w' hw' config hconfig
  | missing rest => exact ha.of_rests rest
  | counted _ write => exact (ha.withCluster _).of_settles write
  | running _ write => exact (ha.withCluster _).of_settles write
  | ended write => exact (ha.withCluster _).of_settles write

theorem Step.informed (h : a.Step false stage conclusion after b)
    (hstage : stage ≠ .deployAutomationConfig) (ha : a.Informed) : b.Informed := by
  obtain ⟨ctx, complete, c, -, hacts, rfl | ⟨record, next, rfl⟩⟩ := h.exists_acts
  · exact hacts.informed hstage ha
  · exact (hacts.informed hstage ha).withCluster _

theorem Step.serving (h : a.Step false stage conclusion after b)
    (hstage : stage ≠ .deployAutomationConfig) (hstage' : stage ≠ .deployWorkload)
    (ha : a.Serving) : b.Serving := by
  obtain ⟨ctx, complete, c, -, hacts, rfl | ⟨record, next, rfl⟩⟩ := h.exists_acts
  · exact hacts.serving hstage hstage' ha
  · exact (hacts.serving hstage hstage' ha).withCluster _

/-! ## What is waited for -/

/-- The stage that publishes the config is not left before the agents follow it. -/
theorem Step.followed (h : a.Step false .deployAutomationConfig conclusion after b)
    (hleft : after ≠ .deployAutomationConfig) : b.Followed := by
  cases h with
  | stays => exact absurd rfl hleft
  | @advances _ b _ _ _ acts =>
    cases acts with
    | prepared hprepares => cases hprepares
    | published _ _ _ followed => exact followed rfl
  | unsaved lost => cases lost

/-- The stage that writes the workload is not left before it is ready, unless the version
is changing. -/
theorem Step.isReady (h : a.Step false .deployWorkload conclusion after b)
    (hleft : after ≠ .deployWorkload) (hversion : a.cluster.isChangingVersion = false) :
    ∃ w, b.workload = some w ∧ w.isReady = true := by
  cases h with
  | stays => exact absurd rfl hleft
  | @advances _ b _ _ _ acts =>
    cases acts with
    | prepared hprepares => cases hprepares
    | @deployed _ _ c d before deploy rest isDeployed =>
      obtain ⟨w, hw, hready | hstrategy⟩ := isDeployed rfl
      · exact ⟨w, hw, hready⟩
      · obtain ⟨cluster, hrest⟩ := rest.exists_settles
        -- the wanted workload is updated member by member, and reports do not change that
        have hwanted : (b.workload.map Workload.updateStrategy) = some .rollingUpdate := by
          rw [hrest.map_workload _ fun _ _ => rfl]
          show d.workload.map _ = _
          rw [deploy.map_workload _ fun _ _ => rfl]
          show some (if c.cluster.isChangingVersion then _ else _) = _
          rw [before.cluster_eq, hversion]
          rfl
        rw [Option.mem_def.1 hw, Option.map_some, Option.some_inj, hstrategy] at hwanted
        cases hwanted
  | unsaved lost => cases lost

/-- What holds before a stage about the readiness of the workload. -/
structure Awaited (stage : Stage) (a : Scene) : Prop where
  wanted : a.cluster.desiredMembers ≠ 0
  informed : stage = .deployWorkload ∨ stage = .resetUpdateStrategy ∨ stage = .updateStatus →
    a.desired < a.current → a.Informed
  replicas : stage = .resetUpdateStrategy ∨ stage = .updateStatus →
    a.desired < a.current → a.replicas? = some a.cluster.membersThisPass
  /-- The last stages are not reached before the workload serves, unless members are
  removed while the version is changing. -/
  serving : stage = .resetUpdateStrategy ∨ (stage = .updateStatus ∧ a.next = a.desired) →
    a.current ≤ a.desired ∨ a.cluster.isChangingVersion = false → a.Serving

namespace Awaited

theorem of_settles (h : Awaited stage a) (hab : a.Settles b) : Awaited stage b := by
  have hframe := hab.frame .startFresh
  refine ⟨?_, fun hstage hdown => ?_, fun hstage hdown => ?_, fun hstage hcase => ?_⟩
  · rw [hframe.sameSpec.desiredMembers_eq]
    exact h.wanted
  · rw [hframe.current_eq nofun, hframe.desired_eq] at hdown
    exact (h.informed hstage hdown).of_settles hab
  · rw [hframe.current_eq nofun, hframe.desired_eq] at hdown
    rw [hframe.replicas nofun, hframe.membersThisPass_eq nofun]
    exact h.replicas hstage hdown
  · rw [hframe.next_eq nofun, hframe.desired_eq] at hstage
    rw [hframe.current_eq nofun, hframe.desired_eq, hframe.changing nofun] at hcase
    exact (h.serving hstage hcase).of_settles hab

/-- Most stages owe nothing. -/
theorem of_other (hwanted : a.cluster.desiredMembers ≠ 0) (hdeploy : stage ≠ .deployWorkload)
    (hreset : stage ≠ .resetUpdateStrategy) (hcount : stage ≠ .updateStatus) : Awaited stage a := by
  refine ⟨hwanted, ?_, ?_, ?_⟩
  · rintro (h | h | h)
    · exact absurd h hdeploy
    · exact absurd h hreset
    · exact absurd h hcount
  · rintro (h | h)
    · exact absurd h hreset
    · exact absurd h hcount
  · rintro (h | ⟨h, -⟩)
    · exact absurd h hreset
    · exact absurd h hcount

/-- A workload that serves is all that is awaited when no members are removed. -/
theorem of_serving (hwanted : a.cluster.desiredMembers ≠ 0) (hup : a.current ≤ a.desired)
    (h : a.Serving) : Awaited stage a :=
  ⟨hwanted, fun _ hdown => absurd hup (Nat.not_le.2 hdown),
    fun _ hdown => absurd hup (Nat.not_le.2 hdown), fun _ _ => h⟩

/-- Writing the workload keeps what is awaited. -/
theorem step_deployWorkload (h : Awaited .deployWorkload a)
    (hstep : a.Step false .deployWorkload conclusion after b)
    (hwanted : b.cluster.desiredMembers ≠ 0) : Awaited after b := by
  have hframe := hstep.frame
  have hcurrent := hframe.current_eq nofun
  have hdesired := hframe.desired_eq
  have hreplicas := hstep.replicas?_eq
  rw [← hframe.membersThisPass_eq nofun] at hreplicas
  have hinformed : b.desired < b.current → b.Informed := by
    rw [hcurrent, hdesired]
    exact fun hdown => hstep.informed nofun (h.informed (.inl rfl) hdown)
  refine ⟨hwanted, fun _ => hinformed, fun _ _ => hreplicas, fun hstage hcase => ?_⟩
  rw [hframe.next_eq nofun, hdesired] at hstage
  rw [hcurrent, hdesired, hframe.changing nofun] at hcase
  rcases hstep.route with rfl | ⟨hmore, rfl⟩ | ⟨hlast, hdown, hafter⟩ | ⟨-, -, rfl⟩
  · rcases hstage with hstage | ⟨hstage, -⟩ <;> cases hstage
  · rcases hstage with hstage | ⟨-, hlast⟩
    · cases hstage
    · exact absurd hlast hmore
  · have hversion := hcase.resolve_left (Nat.not_le.2 hdown)
    have hleft : after ≠ .deployWorkload := by
      rcases b.afterDeployment_cases with heq | heq <;> rw [hafter, heq] <;> nofun
    obtain ⟨w, hw, hready⟩ := hstep.isReady hleft hversion
    have hcount : b.cluster.membersThisPass ≠ 0 := by
      have hall : b.cluster.membersThisPass = b.cluster.desiredMembers :=
        UInt32.toNat_inj.1 ((hframe.next_eq nofun).trans (hlast.trans hdesired.symm))
      rwa [hall]
    rw [(hinformed (by omega)).serving_iff hreplicas hcount, hw, Option.map_some]
    rw [replicas?, hw, Option.map_some] at hreplicas
    rw [← hreplicas]
    exact congrArg some (of_decide_eq_true hready)
  · rcases hstage with hstage | ⟨hstage, -⟩ <;> cases hstage

/-- A step keeps what is awaited. -/
theorem step (h : Awaited stage a) (hstep : a.Step false stage conclusion after b) :
    Awaited after b := by
  have hframe := hstep.frame
  have hroute := hstep.route
  have hwanted : b.cluster.desiredMembers ≠ 0 := by
    rw [hframe.sameSpec.desiredMembers_eq]
    exact h.wanted
  cases stage with
  | startFresh | validateSpec | createService | tlsValidation | createTlsResources =>
    rcases hroute with hprepares | ⟨-, rfl⟩ | ⟨hfirst, rfl⟩
    · refine of_other hwanted ?_ ?_ ?_ <;> rintro rfl <;> cases hprepares
    · exact of_other hwanted nofun nofun nofun
    · refine ⟨hwanted, fun _ hdown => ?_, ?_, ?_⟩
      · rw [hframe.current_eq nofun, hframe.desired_eq] at hdown
        exact absurd (.inr hdown) hfirst
      · rintro (h | h) <;> cases h
      · rintro (h | ⟨h, -⟩) <;> cases h
  | deployAutomationConfig =>
    rcases hroute with rfl | ⟨-, rfl⟩ | ⟨hfirst, hafter⟩
    · exact of_other hwanted nofun nofun nofun
    · refine ⟨hwanted, fun _ _ => (hstep.followed nofun).informed hstep.config_eq, ?_, ?_⟩
      · rintro (h | h) <;> cases h
      · rintro (h | ⟨h, -⟩) <;> cases h
    · have hleft : after ≠ .deployAutomationConfig := by
        rcases b.afterDeployment_cases with heq | heq <;> rw [hafter, heq] <;> nofun
      refine of_serving hwanted ?_ ⟨fun hnone => hfirst (.inl hnone), ?_, hstep.followed hleft⟩
      · rw [hframe.current_eq nofun, hframe.desired_eq]
        exact Nat.not_lt.1 fun hdown => hfirst (.inr hdown)
      · rw [hstep.config_eq]
        nofun
  | deployWorkload => exact h.step_deployWorkload hstep hwanted
  | resetUpdateStrategy =>
    refine ⟨hwanted, fun _ hdown => ?_, fun _ hdown => ?_, fun _ hcase => ?_⟩
    · rw [hframe.current_eq nofun, hframe.desired_eq] at hdown
      exact hstep.informed nofun (h.informed (.inr (.inl rfl)) hdown)
    · rw [hframe.current_eq nofun, hframe.desired_eq] at hdown
      rw [hframe.replicas nofun, hframe.membersThisPass_eq nofun]
      exact h.replicas (.inl rfl) hdown
    · rw [hframe.current_eq nofun, hframe.desired_eq, hframe.changing nofun] at hcase
      exact hstep.serving nofun nofun (h.serving (.inl rfl) hcase)
  | updateStatus =>
    rcases hroute with ⟨-, rfl⟩ | ⟨-, rfl⟩
    · refine ⟨hwanted, fun _ hdown => hstep.informed nofun (h.informed (.inr (.inr rfl)) ?_),
        ?_, ?_⟩
      · have hnext := a.next_cases
        rw [hstep.current_eq, hframe.desired_eq] at hdown
        omega
      · rintro (h | h) <;> cases h
      · rintro (h | ⟨h, -⟩) <;> cases h
    · exact of_other hwanted nofun nofun nofun
  | reconciliationEnd =>
    obtain rfl : after = .startFresh := hroute
    exact of_other hwanted nofun nofun nofun

end Awaited

/-! ## Where a run is heading -/

/-- The version that is wanted stays another one while there is more to scale. -/
theorem Step.isChangingVersion_eq (h : a.Step false .updateStatus conclusion after b)
    (hscaling : a.cluster.isStillScaling = true) :
    b.cluster.isChangingVersion = a.cluster.isChangingVersion := by
  obtain ⟨ctx, complete, c, -, hacts, hb⟩ := h.exists_acts
  have hc : c.cluster.isChangingVersion = a.cluster.isChangingVersion := by
    cases hacts with
    | prepared hprepares => cases hprepares
    | counted _ write =>
      rw [write.cluster_eq]
      rfl
    | running finished =>
      rw [finished] at hscaling
      cases hscaling
  rw [← hc]
  rcases hb with rfl | ⟨record, next, rfl⟩
  · rfl
  · exact DbCluster.isChangingVersion_annotate _ _ _ (by decide)

/-- How a scene relates to the cluster `c` that a run began with; `ran` says whether the
cluster was published as running since. -/
structure Heads (c : DbCluster) (ran : Prop) (a : Scene) : Prop where
  sameSpec : c.SameSpec a.cluster
  removes : ¬ ran → (a.desired < a.current ↔ c.isScalingDown = true)
  changing : ¬ ran → a.cluster.isChangingVersion = c.isChangingVersion
  settled : ran → a.current ≤ a.desired

namespace Heads

variable {c : DbCluster} {ran : Prop}

theorem of_frame (h : Heads c ran a) (hframe : Frame stage a b) (hstage : stage ≠ .updateStatus) :
    Heads c ran b := by
  have hcurrent := hframe.current_eq hstage
  have hdesired := hframe.desired_eq
  refine ⟨h.sameSpec.trans hframe.sameSpec, fun hran => ?_, fun hran => ?_, fun hran => ?_⟩
  · rw [hcurrent, hdesired]
    exact h.removes hran
  · rw [hframe.changing hstage]
    exact h.changing hran
  · rw [hcurrent, hdesired]
    exact h.settled hran

theorem opening : Heads a.cluster False a :=
  ⟨.refl _, fun _ => by simp [DbCluster.isScalingDown, current, desired, UInt32.lt_iff_toNat_lt],
    fun _ => rfl, False.elim⟩

/-- Counting members keeps the direction until the cluster is published as running. -/
theorem of_count {ran' : Prop} (h : Heads c ran a)
    (hstep : a.Step false .updateStatus conclusion after b)
    (hran : ran' ↔ a.cluster.isStillScaling = false ∨ ran) : Heads c ran' b := by
  have hcurrent := hstep.current_eq
  have hdesired := hstep.frame.desired_eq
  have hnext := a.next_cases
  have hscaling := a.isStillScaling_iff
  refine ⟨h.sameSpec.trans hstep.frame.sameSpec, fun hnot => ?_, fun hnot => ?_, fun hyes => ?_⟩
  · obtain ⟨hmore, hnot⟩ := not_or.1 (hran.not.1 hnot)
    have hne := hscaling.1 (Bool.not_eq_false _ ▸ hmore)
    rw [← h.removes hnot]
    omega
  · obtain ⟨hmore, hnot⟩ := not_or.1 (hran.not.1 hnot)
    rw [hstep.isChangingVersion_eq (Bool.not_eq_false _ ▸ hmore)]
    exact h.changing hnot
  · rcases hran.1 hyes with hfinished | hyes
    · have hlast : a.next = a.desired := by
        by_contra hne
        rw [hscaling.2 hne] at hfinished
        cases hfinished
      omega
    · have hup := h.settled hyes
      omega

end Heads
end Scene

/-! ## Publishing a cluster as running -/

/-- A store serves when the scene in it does. -/
theorem Store.Shows.isServing_iff {s : Store} {name : ResourceName} {a : Scene}
    (h : s.Shows name a) : s.IsServing name ↔ a.Serving := by
  rw [Store.IsServing, h.workload, h.config]
  constructor
  · rintro ⟨w, hw, config, hconfig, -, hreached⟩
    rw [Option.mem_def] at hw hconfig
    refine ⟨by rw [hw]; nofun, by rw [hconfig]; nofun, fun w' hw' config' hconfig' => ?_⟩
    obtain rfl := Option.some.inj (hw.symm.trans hw')
    obtain rfl := Option.some.inj (hconfig.symm.trans hconfig')
    exact hreached
  · intro hserving
    obtain ⟨w, hw⟩ := Option.ne_none_iff_exists'.1 hserving.deployed
    obtain ⟨config, hconfig⟩ := Option.ne_none_iff_exists'.1 hserving.published
    have hreached := hserving.followed w hw config hconfig
    have hready := (Workload.agentsReached_iff.1 hreached).1
    exact ⟨w, hw, config, hconfig, decide_eq_true hready, hreached⟩

/-- A spec without a problem wants members. -/
theorem DbCluster.desiredMembers_ne_zero {c : DbCluster} (h : specProblem? c = none) :
    c.desiredMembers ≠ 0 := by
  intro hzero
  unfold specProblem? at h
  split at h
  · cases h
  · split at h
    · cases h
    · rename_i hmembers
      exact hmembers (.inl hzero)

section Runs

variable {r : Reconciler} {instant : Bool} {name : ResourceName} {start s : Store} {c : DbCluster}
  {calls : List Call}

/-- Before each call the stages await what they should, and the run is still heading
where it began to. -/
theorem Scene.Awaited.of_run (hr : r.pacer.Silent) (hwanted : c.desiredMembers ≠ 0)
    (hbegins : start.Begins name c)
    (hrun : Run (r.Calls instant name) Store.Reports start calls s) :
    ∃ stage a, s.Shows name a ∧ resumeStage a.cluster = .ok stage ∧ Awaited stage a ∧
      Heads c (∃ call ∈ calls, call.PublishesRunning name) a := by
  refine Run.invariant (fun calls stage a => Awaited stage a ∧
      Heads c (∃ call ∈ calls, call.PublishesRunning name) a)
    (r.stepsBy_calls hr instant name) hbegins hrun ?_ ?_ ?_
  · have hopening : Heads c False (start.opening name c) :=
      .opening (a := start.opening name c)
    exact ⟨.of_other hwanted nofun nofun nofun, by simpa using hopening⟩
  · rintro calls stage a b ⟨hawaited, hheads⟩ hab
    exact ⟨hawaited.of_settles hab, hheads.of_frame (hab.frame .startFresh) nofun⟩
  · rintro calls last stage a after b ⟨hawaited, hheads⟩ hseen
    refine ⟨hawaited.step hseen.step, ?_⟩
    have hran : (∃ call ∈ last :: calls, call.PublishesRunning name) ↔
        (stage = .updateStatus ∧ a.cluster.isStillScaling = false) ∨
          ∃ call ∈ calls, call.PublishesRunning name := by
      rw [List.exists_mem_cons_iff, hseen.publishesRunning_iff]
    by_cases hstage : stage = .updateStatus
    · subst hstage
      rw [eq_self, true_and] at hran
      exact hheads.of_count hseen.step hran
    · rw [hran, eq_false hstage, false_and, false_or]
      exact hheads.of_frame hseen.step.frame hstage

/-- **When a cluster is published as running, its workload serves unless the pass that
began with the run removed members under a change of the version; then it serves exactly
when as many replicas are ready as are wanted.** -/
theorem serving_of_running {last : Call} (hr : r.pacer.Silent) (hvalid : specProblem? c = none)
    (hbegins : start.Begins name c)
    (hrun : Run (r.Calls instant name) Store.Reports start (last :: calls) s)
    (hrunning : last.PublishesRunning name) :
    last.after.IsServing name ↔
      (c.isScalingDown = true → c.isChangingVersion = true →
        (∀ call ∈ calls, ¬ call.PublishesRunning name) →
          last.after.readyReplicas? name = some c.desiredMembers) := by
  obtain ⟨hcalls, hlast⟩ := hrun.of_cons
  obtain ⟨stage, a, hs, hstage, hawaited, hheads⟩ :=
    Scene.Awaited.of_run hr (DbCluster.desiredMembers_ne_zero hvalid) hbegins hcalls
  obtain ⟨after, b, hstep, hb⟩ := hlast.step hr hs hstage
  have hseen : last.Seen name false stage a after b := ⟨hs, hstage, hstep, hb⟩
  obtain ⟨rfl, hfinished⟩ := hseen.publishesRunning_iff.1 hrunning
  have hall := a.cluster.isStillScaling_eq_false_iff.1 hfinished
  rw [hb.isServing_iff, Store.readyReplicas?, hb.workload, ← hheads.sameSpec.desiredMembers_eq]
  by_cases hcase : a.current ≤ a.desired ∨ a.cluster.isChangingVersion = false
  · have hserving := hawaited.serving (.inr ⟨rfl, congrArg UInt32.toNat hall⟩) hcase
    refine iff_of_true (hstep.serving nofun nofun hserving) fun hdown hchanging hfirst => ?_
    have hran : ¬ ∃ call ∈ calls, call.PublishesRunning name := by simpa using hfirst
    rcases hcase with hup | hversion
    · exact absurd ((hheads.removes hran).2 hdown) (Nat.not_lt.2 hup)
    · rw [hheads.changing hran, hchanging] at hversion
      cases hversion
  · obtain ⟨hdown, hchanging⟩ := not_or.1 hcase
    have hlt : a.desired < a.current := Nat.lt_of_not_le hdown
    have hran : ¬ ∃ call ∈ calls, call.PublishesRunning name := fun hran =>
      hdown (hheads.settled hran)
    have hreplicas : b.replicas? = some a.cluster.desiredMembers := by
      rw [hstep.frame.replicas nofun, hawaited.replicas (.inr rfl) hlt, hall]
    rw [(hstep.informed nofun (hawaited.informed (.inr (.inr rfl)) hlt)).serving_iff hreplicas
      hawaited.wanted]
    refine ⟨fun hready _ _ _ => hready, fun hready => hready ((hheads.removes hran).1 hlt) ?_ ?_⟩
    · rw [← hheads.changing hran]
      exact Bool.not_eq_false _ ▸ hchanging
    · simpa using hran

end Runs

/-- A member is added, and the workload serves when the cluster is published as
running. -/
theorem serving_of_running_of_one_added : ∃ last calls s,
    Run (Reconciler.standard.Calls false ⟨"db", "example"⟩) Store.Reports
      (.deployedFor ⟨1, "6.0.5", .standard⟩ (.scaling 1 2)) (last :: calls) s ∧
    last.PublishesRunning ⟨"db", "example"⟩ ∧ last.after.IsServing ⟨"db", "example"⟩ := by
  obtain ⟨last, calls, s, hrun, hrunning⟩ :=
    Reconciler.standard.exists_run false default ⟨"db", "example"⟩
      (.deployedFor ⟨1, "6.0.5", .standard⟩ (.scaling 1 2))
      [.call false, .call false, .call false, .call false, .report ⟨"db", "example"⟩, .call false,
        .call false, .report ⟨"db", "example"⟩, .call false] (by decide)
      (P := fun last _ => last.PublishesRunning ⟨"db", "example"⟩) (by decide +kernel)
  have hserving := serving_of_running Pacer.silent_none (by decide +kernel)
    (Store.begins_scaling _ 1 2) hrun hrunning
  exact ⟨last, calls, s, hrun, hrunning, hserving.2 fun hdown => absurd hdown (by decide)⟩

/-- It is not true that a workload serves whenever its cluster is published as running:
of three members one is removed while the version changes, and the workload still
reports three of two replicas as ready. -/
theorem not_forall_serving_of_running : ¬ ∀ {r : Reconciler} {name : ResourceName}
    {start s : Store} {c : DbCluster} {last : Call} {calls : List Call}, r.pacer.Silent →
    specProblem? c = none → start.Begins name c →
    Run (r.Calls false name) Store.Reports start (last :: calls) s →
    last.PublishesRunning name → last.after.IsServing name := by
  intro h
  obtain ⟨last, calls, s, hrun, hrunning, hnot⟩ :=
    Reconciler.standard.exists_run false default ⟨"db", "example"⟩
      (.deployedFor ⟨3, "6.0.4", .standard⟩
        ((DbCluster.scaling 3 2).annotate appliedVersionAnnotation "6.0.4"))
      [.report ⟨"db", "example"⟩, .call false, .call false, .call false, .call false,
        .report ⟨"db", "example"⟩, .call false, .call false, .call false] (by decide)
      (P := fun last _ => last.PublishesRunning ⟨"db", "example"⟩ ∧
        ¬ last.after.IsServing ⟨"db", "example"⟩) (by decide +kernel)
  have hbegins := Store.begins_deployedFor ⟨3, "6.0.4", .standard⟩
    (c := (DbCluster.scaling 3 2).annotate appliedVersionAnnotation "6.0.4") ⟨.fresh, rfl, rfl⟩
  exact hnot (h Pacer.silent_none (by decide +kernel) hbegins hrun hrunning)

end Reconciliation
