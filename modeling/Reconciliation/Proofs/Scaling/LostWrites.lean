/-
# Scaling when resume points are lost

A stage whose resume point could not be written is run again.  Every stage but one
bears that: the one that counts the members of a scaling step counts the next step
when it is run again, although no workload was written for it.  When a cluster is
published as running, its workload therefore has the replicas that are counted exactly
when no such step was lost since the workload was last written.
-/

import Reconciliation.Proofs.Cluster.Run

namespace Reconciliation

/-! ## Lost steps -/

/-- The stage was complete, but the write of the resume point failed. -/
def Conclusion.losesWrite : Conclusion → Bool
  | .ticked (.saveFailed _ _ _) => true
  | _ => false

/-- The call counted the members of a scaling step that is not the last one, and the
write of its resume point failed. -/
def Call.LosesStep (call : Call) (name : ResourceName) : Prop :=
  call.stage? name = some .updateStatus ∧ call.after.phase? name ≠ some .running ∧
    call.conclusion.losesWrite = true

instance (call : Call) (name : ResourceName) : Decidable (call.LosesStep name) :=
  inferInstanceAs (Decidable (_ ∧ _ ∧ _))

/-- A scaling step was lost, and the workload was not written since. -/
def HasLostStep (name : ResourceName) : List Call → Prop
  | [] => False
  | last :: calls => last.LosesStep name ∨
      (last.stage? name ≠ some .deployWorkload ∧ HasLostStep name calls)

instance HasLostStep.decidable (name : ResourceName) :
    (calls : List Call) → Decidable (HasLostStep name calls)
  | [] => isFalse nofun
  | last :: calls =>
    have := HasLostStep.decidable name calls
    inferInstanceAs (Decidable (last.LosesStep name ∨
      (last.stage? name ≠ some .deployWorkload ∧ HasLostStep name calls)))

/-- The members that the stored cluster counts. -/
def Store.currentMembers? (s : Store) (name : ResourceName) : Option UInt32 :=
  (s.clusters name).map DbCluster.currentMembers

namespace Scene.Step

variable {lossy : Bool} {stage after : Stage} {a b : Scene} {conclusion : Conclusion}

/-- Unless the resume point is lost, a step is one of a calm call. -/
theorem calm_or_lost (h : a.Step lossy stage conclusion after b) :
    a.Step false stage conclusion after b ∨
      (conclusion.losesWrite = true ∧ after = stage.again) := by
  cases h with
  | stays knows acts unfinished => exact .inl (.stays knows acts unfinished)
  | advances knows acts finished => exact .inl (.advances knows acts finished)
  | unsaved => exact .inr ⟨rfl, rfl⟩

end Scene.Step

namespace Call.Seen

variable {last : Call} {name : ResourceName} {lossy : Bool} {stage after : Stage} {a b : Scene}

/-- A step is lost by the stage that counts members, while there is more to scale. -/
theorem losesStep_iff (h : last.Seen name lossy stage a after b) :
    last.LosesStep name ↔ stage = .updateStatus ∧ a.cluster.isStillScaling = true ∧
      last.conclusion.losesWrite = true := by
  rw [Call.LosesStep, h.stage?_eq, h.after.phase?_eq]
  constructor
  · rintro ⟨hstage, hphase, hlost⟩
    obtain rfl := Option.some.inj hstage
    refine ⟨rfl, ?_, hlost⟩
    by_contra hfinished
    exact hphase (congrArg some (h.step.phase_eq_running_iff.2 (Bool.eq_false_iff.2 hfinished)))
  · rintro ⟨rfl, hscaling, hlost⟩
    refine ⟨rfl, fun hphase => ?_, hlost⟩
    have hfinished := h.step.phase_eq_running_iff.1 (Option.some.inj hphase)
    rw [hfinished] at hscaling
    cases hscaling

/-- No step is lost once the workload is written. -/
theorem not_hasLostStep (h : last.Seen name lossy .deployWorkload a after b) (calls : List Call) :
    ¬ HasLostStep name (last :: calls) := by
  rintro (hlost | ⟨hstage, -⟩)
  · cases (h.losesStep_iff.1 hlost).1
  · exact hstage h.stage?_eq

/-- The stages that neither count nor write the workload lose no step. -/
theorem hasLostStep_iff (h : last.Seen name lossy stage a after b) (calls : List Call)
    (hcount : stage ≠ .updateStatus) (hdeploy : stage ≠ .deployWorkload) :
    HasLostStep name (last :: calls) ↔ HasLostStep name calls := by
  rw [HasLostStep, h.losesStep_iff, h.stage?_eq]
  constructor
  · rintro (⟨hstage, -⟩ | ⟨-, hlost⟩)
    · exact absurd hstage hcount
    · exact hlost
  · exact fun hlost => .inr ⟨fun hstage => hdeploy (Option.some.inj hstage), hlost⟩

/-- The stage that counts loses a step when its resume point is lost. -/
theorem hasLostStep_iff_of_count (h : last.Seen name lossy .updateStatus a after b)
    (calls : List Call) :
    HasLostStep name (last :: calls) ↔
      (a.cluster.isStillScaling = true ∧ last.conclusion.losesWrite = true) ∨
        HasLostStep name calls := by
  rw [HasLostStep, h.losesStep_iff, h.stage?_eq]
  constructor
  · rintro (⟨-, hlost⟩ | ⟨-, hlost⟩)
    · exact .inl hlost
    · exact .inr hlost
  · rintro (hlost | hlost)
    · exact .inl ⟨rfl, hlost⟩
    · exact .inr ⟨nofun, hlost⟩

end Call.Seen

/-! ## What the stages rely on -/

/-- What holds before a stage about the replicas of the workload, depending on whether a
scaling step was lost. -/
structure Scene.Staffed (lost : Prop) (stage : Stage) (a : Scene) : Prop where
  /-- The config is published after the workload only in the last step. -/
  config_last : stage = .deployAutomationConfig → a.workload ≠ none → a.current ≤ a.desired →
    ¬ lost ∧ a.replicas? = some a.cluster.membersThisPass
  reset : stage = .resetUpdateStrategy → ¬ lost ∧ a.replicas? = some a.cluster.membersThisPass
  /-- The members that are counted next have a workload if no step was lost. -/
  counted : stage = .updateStatus → ¬ lost → a.replicas? = some a.cluster.membersThisPass
  /-- After a lost step the workload is behind. -/
  behind : stage = .updateStatus → lost →
    ∃ count, a.replicas? = some count ∧ count ≠ a.cluster.desiredMembers

namespace Scene.Staffed

variable {lost lost' : Prop} {stage after : Stage} {a b : Scene} {name : ResourceName}
  {last : Call} {calls : List Call}

/-- The other stages rely on nothing. -/
theorem of_other (hconfig : stage ≠ .deployAutomationConfig)
    (hreset : stage ≠ .resetUpdateStrategy) (hcount : stage ≠ .updateStatus) :
    a.Staffed lost stage :=
  ⟨fun h => absurd h hconfig, fun h => absurd h hreset, fun h => absurd h hcount,
    fun h => absurd h hcount⟩

theorem of_prepares (h : stage.prepares = true) : a.Staffed lost stage := by
  refine of_other ?_ ?_ ?_ <;> rintro rfl <;> cases h

/-- A workload with the replicas of the pass is what every stage relies on. -/
theorem of_replicas (hlost : ¬ lost) (h : a.replicas? = some a.cluster.membersThisPass) :
    a.Staffed lost stage :=
  ⟨fun _ _ _ => ⟨hlost, h⟩, fun _ => ⟨hlost, h⟩, fun _ _ => h, fun _ h => absurd h hlost⟩

/-- What leaves the replicas and the counts alone keeps what a stage relies on. -/
theorem of_frame {acting : Stage} (h : a.Staffed lost stage) (hlost : lost' ↔ lost)
    (hframe : Frame acting a b) (hdeploy : acting ≠ .deployWorkload)
    (hcount : acting ≠ .updateStatus) : b.Staffed lost' stage := by
  have hreplicas := hframe.replicas hdeploy
  have hpass := hframe.membersThisPass_eq hcount
  refine ⟨fun hstage hsome hle => ?_, fun hstage => ?_, fun hstage hkept => ?_,
    fun hstage hbehind => ?_⟩
  · rw [hframe.current_eq hcount, hframe.desired_eq] at hle
    rw [hlost, hreplicas, hpass]
    exact h.config_last hstage
      (fun hnone => hsome ((hframe.workload_eq_none_iff hdeploy).2 hnone)) hle
  · rw [hlost, hreplicas, hpass]
    exact h.reset hstage
  · rw [hreplicas, hpass]
    exact h.counted hstage (hlost.not.1 hkept)
  · rw [hreplicas, hframe.sameSpec.desiredMembers_eq]
    exact h.behind hstage (hlost.1 hbehind)

theorem of_settles (h : a.Staffed lost stage) (hab : a.Settles b) : b.Staffed lost stage :=
  h.of_frame Iff.rfl (hab.frame .startFresh) nofun nofun

/-- When the members are counted again, the step after the lost one is counted. -/
theorem of_recount (h : a.Staffed lost .updateStatus)
    (hlost : lost' ↔ a.cluster.isStillScaling = true ∨ lost)
    (hstep : a.Step true .updateStatus last.conclusion after b) :
    b.Staffed lost' .updateStatus := by
  have hframe := hstep.frame
  have hreplicas := hframe.replicas nofun
  have hdesired := hframe.sameSpec.desiredMembers_eq
  refine ⟨nofun, nofun, fun _ hkept => ?_, fun _ hbehind => ?_⟩
  · obtain ⟨hfinished, hkept⟩ := not_or.1 (hlost.not.1 hkept)
    have hall := a.cluster.isStillScaling_eq_false_iff.1 (Bool.eq_false_iff.2 hfinished)
    have hpass : b.cluster.membersThisPass = a.cluster.membersThisPass := by
      rw [DbCluster.membersThisPass, hstep.currentMembers_eq, hdesired, hall, nextMemberCount_self]
    rw [hreplicas, hpass]
    exact h.counted rfl hkept
  · rw [hreplicas, hdesired]
    by_cases hbefore : lost
    · exact h.behind rfl hbefore
    · have hscaling := (hlost.1 hbehind).resolve_right hbefore
      refine ⟨_, h.counted rfl hbefore, fun hall => ?_⟩
      rw [a.cluster.isStillScaling_eq_false_iff.2 hall] at hscaling
      cases hscaling

/-- Every step keeps what the stages rely on, whether its resume point is lost or not. -/
theorem step (h : a.Staffed (HasLostStep name calls) stage)
    (hseen : last.Seen name true stage a after b) :
    b.Staffed (HasLostStep name (last :: calls)) after := by
  have hframe := hseen.step.frame
  cases stage with
  | startFresh | validateSpec | createService | tlsValidation | createTlsResources =>
    rcases hseen.step.calm_or_lost with hstep | ⟨-, rfl⟩
    · rcases hstep.route with hprepares | ⟨hneeds, rfl⟩ | ⟨-, rfl⟩
      · exact of_prepares hprepares
      · refine ⟨fun _ hsome hle => ?_, nofun, nofun, nofun⟩
        rw [hframe.current_eq nofun, hframe.desired_eq] at hle
        rcases hneeds with hnone | hlt
        · exact absurd hnone hsome
        · omega
      · exact of_other nofun nofun nofun
    · exact of_prepares rfl
  | deployAutomationConfig =>
    have hlost := hseen.hasLostStep_iff calls nofun nofun
    rcases hseen.step.calm_or_lost with hstep | ⟨-, rfl⟩
    · rcases hstep.route with rfl | ⟨-, rfl⟩ | ⟨hneeds, rfl⟩
      · exact h.of_frame hlost hframe nofun nofun
      · exact of_other nofun nofun nofun
      · have hsome : a.workload ≠ none := fun hnone =>
          hneeds (.inl ((hframe.workload_eq_none_iff nofun).2 hnone))
        obtain ⟨hkept, hreplicas⟩ :=
          h.config_last rfl hsome (Nat.le_of_not_lt fun hlt => hneeds (.inr hlt))
        refine of_replicas (hlost.not.2 hkept) ?_
        rw [hframe.membersThisPass_eq nofun, hframe.replicas nofun]
        exact hreplicas
    · exact h.of_frame hlost hframe nofun nofun
  | deployWorkload =>
    refine of_replicas (hseen.not_hasLostStep calls) ?_
    rw [hframe.membersThisPass_eq nofun]
    exact hseen.step.replicas?_eq
  | resetUpdateStrategy =>
    have hlost := hseen.hasLostStep_iff calls nofun nofun
    obtain ⟨hkept, hreplicas⟩ := h.reset rfl
    refine of_replicas (hlost.not.2 hkept) ?_
    rw [hframe.membersThisPass_eq nofun, hframe.replicas nofun]
    exact hreplicas
  | updateStatus =>
    rcases hseen.step.calm_or_lost with hstep | ⟨hwrite, rfl⟩
    · rcases hstep.route with ⟨-, rfl⟩ | ⟨-, rfl⟩ <;> exact of_other nofun nofun nofun
    · have hlost := hseen.hasLostStep_iff_of_count calls
      rw [hwrite, eq_self, and_true] at hlost
      exact h.of_recount hlost hseen.step
  | reconciliationEnd =>
    rcases hseen.step.calm_or_lost with hstep | ⟨-, rfl⟩
    · obtain rfl : after = .startFresh := hstep.route
      exact of_prepares rfl
    · exact of_prepares rfl

end Scene.Staffed

/-! ## Publishing a cluster as running -/

section Runs

variable {r : Reconciler} {instant : Bool} {name : ResourceName} {start s : Store} {c : DbCluster}
  {calls : List Call}

/-- Before each call the stages can rely on the replicas. -/
theorem Scene.Staffed.of_run (hr : r.pacer.Silent) (hbegins : start.Begins name c)
    (hrun : Run (r.LossyCalls instant name) Store.Reports start calls s) :
    ∃ stage a, s.Shows name a ∧ resumeStage a.cluster = .ok stage ∧
      c.SameSpec a.cluster ∧ a.Staffed (HasLostStep name calls) stage :=
  Run.invariant
    (fun calls stage a => c.SameSpec a.cluster ∧ a.Staffed (HasLostStep name calls) stage)
    (r.stepsBy_lossyCalls hr instant name) hbegins hrun ⟨.refl _, .of_prepares rfl⟩
    (fun ⟨hspec, h⟩ hab => ⟨hspec.trans (hab.frame .startFresh).sameSpec, h.of_settles hab⟩)
    (fun ⟨hspec, h⟩ hseen => ⟨hspec.trans hseen.step.frame.sameSpec, h.step hseen⟩)

/-- **When a cluster is published as running, the wanted members are counted, and the
workload has as many replicas exactly when no scaling step was lost since it was last
written.** -/
theorem replicas_of_running {last : Call} (hr : r.pacer.Silent) (hbegins : start.Begins name c)
    (hrun : Run (r.LossyCalls instant name) Store.Reports start (last :: calls) s)
    (hrunning : last.PublishesRunning name) :
    last.after.currentMembers? name = some c.desiredMembers ∧
    (last.after.replicas? name = some c.desiredMembers ↔ ¬ HasLostStep name calls) := by
  obtain ⟨hcalls, hlast⟩ := hrun.of_cons
  obtain ⟨stage, a, hs, hstage, hspec, hstaffed⟩ := Scene.Staffed.of_run hr hbegins hcalls
  obtain ⟨after, b, hstep, hb⟩ := hlast.step hr hs hstage
  have hseen : last.Seen name true stage a after b := ⟨hs, hstage, hstep, hb⟩
  obtain ⟨rfl, hfinished⟩ := hseen.publishesRunning_iff.1 hrunning
  have hall : a.cluster.membersThisPass = c.desiredMembers := by
    rw [← hspec.desiredMembers_eq]
    exact a.cluster.isStillScaling_eq_false_iff.1 hfinished
  have hreplicas : last.after.replicas? name = a.replicas? := by
    rw [← hstep.frame.replicas nofun]
    exact hb.replicas?_eq
  refine ⟨?_, fun hcount hlost => ?_, fun hkept => ?_⟩
  · rw [Store.currentMembers?, hb.cluster, Option.map_some, hstep.currentMembers_eq, hall]
  · obtain ⟨count, hbehind, hne⟩ := hstaffed.behind rfl hlost
    rw [hreplicas, hbehind] at hcount
    exact hne ((Option.some.inj hcount).trans hspec.desiredMembers_eq.symm)
  · rw [hreplicas, hstaffed.counted rfl hkept, hall]

end Runs

/-- A member is added although the resume points of the stages that deploy it are lost
at first. -/
theorem replicas_of_running_after_retries : ∃ last calls s,
    Run (Reconciler.standard.LossyCalls true ⟨"db", "example"⟩) Store.Reports
      (.deployedFor ⟨1, "6.0.5", .standard⟩ (.scaling 1 2)) (last :: calls) s ∧
    last.PublishesRunning ⟨"db", "example"⟩ ∧
    last.after.replicas? ⟨"db", "example"⟩ = some 2 ∧
    last.after.currentMembers? ⟨"db", "example"⟩ = some 2 := by
  obtain ⟨last, calls, s, hrun, hrunning, hkept⟩ :=
    Reconciler.standard.exists_run_of_lossy true default ⟨"db", "example"⟩
      (.deployedFor ⟨1, "6.0.5", .standard⟩ (.scaling 1 2))
      [.call false, .call false, .call false, .call true, .call false, .call true, .call false]
      (P := fun last calls => last.PublishesRunning ⟨"db", "example"⟩ ∧
        ¬ HasLostStep ⟨"db", "example"⟩ calls) (by decide +kernel)
  have hcounts := replicas_of_running Pacer.silent_none (Store.begins_scaling _ 1 2) hrun hrunning
  exact ⟨last, calls, s, hrun, hrunning, hcounts.2.2 hkept, hcounts.1⟩

/-- It is not true that a cluster is published as running only with the replicas that
are counted: on the way from two members to four the resume point of the first counting
is lost, the next counting counts the fourth member, and there are three replicas. -/
theorem not_forall_replicas_of_running : ¬ ∀ {r : Reconciler} {instant : Bool}
    {name : ResourceName} {start s : Store} {c : DbCluster} {last : Call} {calls : List Call},
    r.pacer.Silent → specProblem? c = none → start.Begins name c →
    (start.replicas? name = some c.currentMembers ∨
      start.replicas? name = none ∧ c.currentMembers = 0) →
    Run (r.LossyCalls instant name) Store.Reports start (last :: calls) s →
    last.PublishesRunning name →
    last.after.replicas? name = some c.desiredMembers ∧
      last.after.replicas? name = last.after.currentMembers? name := by
  intro h
  obtain ⟨last, calls, s, hrun, hrunning, hthree⟩ :=
    Reconciler.standard.exists_run_of_lossy true default ⟨"db", "example"⟩
      (.deployedFor ⟨2, "6.0.5", .standard⟩ (.scaling 2 4))
      [.call false, .call false, .call false, .call false, .call true]
      (P := fun last _ => last.PublishesRunning ⟨"db", "example"⟩ ∧
        last.after.replicas? ⟨"db", "example"⟩ = some 3) (by decide +kernel)
  have hfour := (h Pacer.silent_none (by decide +kernel) (Store.begins_scaling _ 2 4)
    (.inl (by decide)) hrun hrunning).1
  rw [hthree] at hfour
  exact absurd hfour (by decide)

end Reconciliation
