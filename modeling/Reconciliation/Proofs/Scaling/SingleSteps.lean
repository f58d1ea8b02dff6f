/-
# One member at a time

The replicas that are written are one step from the members that are counted, so they
move by at most one member as long as the count follows the replicas.  The count does
not look at the replicas: when members are counted the step is worked out once more, from
what is wanted by then.  An edit between the two makes the count stray
(`moves_at_most_one_iff`); edits between two passes never do
(`moves_at_most_one_of_edits_between_passes`).
-/

import Reconciliation.Proofs.Cluster.Respecs
import Reconciliation.Proofs.Scaling.Order

namespace Reconciliation

/-! ## Counts in a store -/

/-- How many members the stored cluster counts, none when it is not there. -/
def Store.memberCount (s : Store) (name : ResourceName) : Nat :=
  ((s.clusters name).map fun c => c.currentMembers.toNat).getD 0

/-- How many members the stored cluster wants, none when it is not there. -/
def Store.desiredCount (s : Store) (name : ResourceName) : Nat :=
  ((s.clusters name).map fun c => c.desiredMembers.toNat).getD 0

namespace Store.Shows

variable {s : Store} {name : ResourceName} {a : Scene}

/-- The members that a scene counts are those that the status of the stored cluster has. -/
theorem memberCount_eq (h : s.Shows name a) : s.memberCount name = a.current := by
  rw [Store.memberCount, h.cluster]
  rfl

/-- The members that it wants are those of the stored spec. -/
theorem desiredCount_eq (h : s.Shows name a) : s.desiredCount name = a.desired := by
  rw [Store.desiredCount, h.cluster]
  rfl

end Store.Shows

namespace Call

variable (call : Call) (name : ResourceName)

/-- The replicas of the workload have moved by at most one. -/
def MovesAtMostOne : Prop :=
  call.after.replicaCount name ≤ call.before.replicaCount name + 1 ∧
    call.before.replicaCount name ≤ call.after.replicaCount name + 1

instance : Decidable (call.MovesAtMostOne name) := inferInstanceAs (Decidable (_ ∧ _))

/-- Before the call the replicas were ahead of the count on one side, and what was wanted
lay on the other. -/
def TurnsBack : Prop :=
  (call.before.desiredCount name < call.before.memberCount name ∧
      call.before.memberCount name < call.before.replicaCount name) ∨
    (call.before.replicaCount name < call.before.memberCount name ∧
      call.before.memberCount name < call.before.desiredCount name)

instance : Decidable (call.TurnsBack name) := inferInstanceAs (Decidable (_ ∨ _))

/-- The members that were counted are not the replicas of the workload. -/
def Miscounts : Prop :=
  call.Counts name ∧ call.after.memberCount name ≠ call.after.replicaCount name

instance : Decidable (call.Miscounts name) := inferInstanceAs (Decidable (_ ∧ _))

end Call

/-- Of the calls that write the workload or count members, the latest one has counted
members that the workload does not have. -/
def Miscounted (name : ResourceName) (calls : List Call) : Prop :=
  latest (fun call => call.Deploys name ∨ call.Counts name)
    (fun call => decide (call.Miscounts name)) false calls = true

instance (name : ResourceName) (calls : List Call) : Decidable (Miscounted name calls) :=
  inferInstanceAs (Decidable (_ = _))

/-- The number of members is changed to another valid one. -/
def DbCluster.Resizes (c : DbCluster) (spec : ClusterSpec) : Prop :=
  ∃ members : UInt32, 1 ≤ members ∧ members ≤ maxMembers ∧ spec = { c.spec with members }

/-- A store in which a cluster counts the replicas of its workload; a pass may be under
way. -/
structure Store.Counted (s : Store) (name : ResourceName) : Prop where
  wellNamed : s.WellNamed
  resumes : ∃ c stage, s.clusters name = some c ∧ resumeStage c = .ok stage
  desired_pos : 0 < s.desiredCount name
  members_pos : 0 < s.memberCount name
  counted : s.replicaCount name = s.memberCount name

/-! ## Counts in a scene -/

namespace Scene

variable {stage after : Stage} {a b : Scene} {conclusion : Conclusion}

/-- A cluster that counts members and wants some goes on counting some. -/
theorem next_pos (hcurrent : 0 < a.current) (hdesired : 0 < a.desired) : 0 < a.next := by
  have hnext := a.next_cases
  omega

/-- The next step is at most one member away from the count. -/
theorem next_near (hcurrent : 0 < a.current) :
    a.next ≤ a.current + 1 ∧ a.current ≤ a.next + 1 := by
  have hnext := a.next_cases
  omega

/-- A cluster is resized to one member at least. -/
theorem desired_pos_of_resizes {spec : ClusterSpec} (h : a.cluster.Resizes spec) :
    0 < (a.respec spec).desired := by
  obtain ⟨members, hmembers, -, rfl⟩ := h
  exact UInt32.le_iff_toNat_le.1 hmembers

/-- A scene whose cluster counts members and wants some; unless the count has strayed, it
is at most one away from the replicas. -/
structure Near (strayed : Prop) (a : Scene) : Prop where
  current_pos : 0 < a.current
  desired_pos : 0 < a.desired
  near : ¬ strayed → a.replicaCount ≤ a.current + 1 ∧ a.current ≤ a.replicaCount + 1

/-- A call keeps the replicas near the count, as long as nobody has miscounted. -/
theorem Near.step {name : ResourceName} {last : Call} {calls : List Call}
    (h : a.Near (Miscounted name calls)) (hseen : last.Seen name false stage a after b) :
    b.Near (Miscounted name (last :: calls)) := by
  obtain ⟨hdesired, hcurrent, hreplicas, -⟩ := hseen.step.counts
  have hnear := next_near h.current_pos
  have hpos := next_pos h.current_pos h.desired_pos
  refine ⟨?_, hdesired ▸ h.desired_pos, ?_⟩
  · rw [hcurrent]
    split
    · exact hpos
    · exact h.current_pos
  · rw [Miscounted, latest]
    simp only [hseen.deploys_iff, hseen.counts_iff, Call.Miscounts,
      hseen.after.memberCount_eq, hseen.after.replicaCount_eq]
    by_cases hdeploys : stage = .deployWorkload
    · subst hdeploys
      simp only [reduceCtorEq, if_false, if_true] at hcurrent hreplicas
      omega
    · rw [if_neg hdeploys] at hreplicas
      by_cases hcounts : stage = .updateStatus
      · subst hcounts
        simp only [or_true, if_true, true_and, decide_eq_true_eq, ne_eq, not_not]
        omega
      · rw [if_neg hcounts] at hcurrent
        rw [if_neg (by simp [hdeploys, hcounts]), hcurrent, hreplicas]
        exact h.near

end Scene

/-! ## Runs in which members are edited -/

section Runs

variable {r : Reconciler} {instant : Bool} {name : ResourceName} {start s : Store}
  {calls : List Call}

/-- All along a run the replicas are near the count until somebody has miscounted. -/
theorem Scene.Near.of_run (hr : r.pacer.Silent) (hstart : start.Counted name)
    (hrun : Run (r.Calls instant name) (Store.Edited name DbCluster.Resizes) start calls s) :
    ∃ stage a, s.Shows name a ∧ resumeStage a.cluster = .ok stage ∧
      a.Near (Miscounted name calls) := by
  obtain ⟨c, stage, hstored, hstage⟩ := hstart.resumes
  have hshows := hstart.wellNamed.shows hstored
  refine Run.invariant_of_edits (fun calls _ a => a.Near (Miscounted name calls))
    (r.stepsBy_calls hr instant name) hshows hstage hrun ?_ (fun h hab => ?_)
    (fun h _ hresizes => ⟨h.current_pos, Scene.desired_pos_of_resizes hresizes, h.near⟩)
    fun h hseen => h.step hseen
  · have hcounted := hstart.counted
    have hdesired := hstart.desired_pos
    have hmembers := hstart.members_pos
    rw [hshows.memberCount_eq] at hcounted hmembers
    rw [hshows.replicaCount_eq] at hcounted
    rw [hshows.desiredCount_eq] at hdesired
    exact ⟨hmembers, hdesired, fun _ => by omega⟩
  · obtain ⟨hdesired, hcurrent, hreplicas, -⟩ := hab.counts
    simp only [reduceCtorEq, if_false] at hcurrent hreplicas
    exact ⟨hcurrent ▸ h.current_pos, hdesired ▸ h.desired_pos,
      by rw [hcurrent, hreplicas]; exact h.near⟩

/-- **A write of the workload moves its replicas by at most one member exactly when it does
not turn back**, as long as the count has not strayed from the replicas.  The number of
members may be edited before any call. -/
theorem moves_at_most_one_iff {last : Call} (hr : r.pacer.Silent) (hstart : start.Counted name)
    (hrun : Run (r.Calls instant name) (Store.Edited name DbCluster.Resizes) start
      (last :: calls) s)
    (hdeploys : last.Deploys name) (hcounted : ¬ Miscounted name calls) :
    last.MovesAtMostOne name ↔ ¬ last.TurnsBack name := by
  obtain ⟨hcalls, hlast⟩ := hrun.of_cons
  obtain ⟨stage, a, hs, hstage, hnear⟩ := Scene.Near.of_run hr hstart hcalls
  obtain ⟨after, b, hstep, hb⟩ := hlast.step hr hs hstage
  have hseen : last.Seen name false stage a after b := ⟨hs, hstage, hstep, hb⟩
  obtain rfl := hseen.deploys_iff.1 hdeploys
  have hreplicas : b.replicaCount = a.next := hstep.counts.replicas
  have hnext := a.next_cases
  have hcurrent := hnear.current_pos
  have hclose := hnear.near hcounted
  rw [Call.MovesAtMostOne, Call.TurnsBack, hs.replicaCount_eq, hs.memberCount_eq,
    hs.desiredCount_eq, hb.replicaCount_eq, hreplicas]
  omega

end Runs

/-! ## A step up and a step back -/

/-- A cluster that was deployed has as many replicas as members. -/
theorem Store.counted_deployedFor : (Store.deployedFor (DbCluster.scaling 3 3).spec
    (.scaling 3 3)).Counted ⟨"db", "example"⟩ where
  wellNamed := Store.wellNamed_deployedFor _ _
  resumes := ⟨.scaling 3 3, .startFresh, by decide +kernel⟩
  desired_pos := by decide
  members_pos := by decide
  counted := by decide

/-- The user asks for another number of members. -/
def Incident.resize (members : UInt32) : Incident := .respec fun spec => { spec with members }

/-- Users may ask for any valid number of members. -/
theorem Incident.resize_allowed {members : UInt32} (hpos : 1 ≤ members)
    (hmax : members ≤ maxMembers) : (resize members).Allowed DbCluster.Resizes :=
  fun _ => ⟨members, hpos, hmax, rfl⟩

/-- A fourth and a fifth member are asked for, and the fourth one is deployed. -/
theorem moves_at_most_one_of_resize : ∃ last calls s,
    Run (Reconciler.standard.Calls true ⟨"db", "example"⟩)
      (Store.Edited ⟨"db", "example"⟩ DbCluster.Resizes)
      (.deployedFor (DbCluster.scaling 3 3).spec (.scaling 3 3)) (last :: calls) s ∧
    last.Deploys ⟨"db", "example"⟩ ∧ last.after.replicaCount ⟨"db", "example"⟩ = 4 ∧
    last.MovesAtMostOne ⟨"db", "example"⟩ := by
  obtain ⟨last, calls, s, hrun, hdeploys, hfour, hcounted, hforth⟩ :=
    Reconciler.standard.exists_run_of_incidents true default ⟨"db", "example"⟩
      (.deployedFor (DbCluster.scaling 3 3).spec (.scaling 3 3))
      (.resize 5 :: .replicate 3 .call)
      (List.forall_mem_cons.2 ⟨Incident.resize_allowed (by decide) (by decide),
        fun i hi => List.eq_of_mem_replicate hi ▸ trivial⟩)
      (P := fun last calls => last.Deploys ⟨"db", "example"⟩ ∧
        last.after.replicaCount ⟨"db", "example"⟩ = 4 ∧ ¬ Miscounted ⟨"db", "example"⟩ calls ∧
        ¬ last.TurnsBack ⟨"db", "example"⟩) (by decide +kernel)
  exact ⟨last, calls, s, hrun, hdeploys, hfour, (moves_at_most_one_iff Pacer.silent_none
    Store.counted_deployedFor hrun hdeploys hcounted).2 hforth⟩

/-- It is not true that every write moves the replicas by at most one member: when a fourth
member is deployed on the way to five and then only one is wanted, two members are counted
and the next write leaves one. -/
theorem not_forall_moves_at_most_one : ¬ ∀ {r : Reconciler} {instant : Bool}
    {name : ResourceName} {start s : Store} {last : Call} {calls : List Call},
    r.pacer.Silent → start.Counted name →
    Run (r.Calls instant name) (Store.Edited name DbCluster.Resizes) start (last :: calls) s →
    last.Deploys name → last.MovesAtMostOne name := by
  intro h
  have hcall : Incident.call.Allowed DbCluster.Resizes := trivial
  have hfive : (Incident.resize 5).Allowed DbCluster.Resizes :=
    Incident.resize_allowed (by decide) (by decide)
  have hone : (Incident.resize 1).Allowed DbCluster.Resizes :=
    Incident.resize_allowed (by decide) (by decide)
  obtain ⟨last, calls, s, hrun, hdeploys, hjump⟩ :=
    Reconciler.standard.exists_run_of_incidents true default ⟨"db", "example"⟩
      (.deployedFor (DbCluster.scaling 3 3).spec (.scaling 3 3))
      [.resize 5, .call, .call, .call, .call, .resize 1, .call]
      (by
        simp only [List.forall_mem_cons]
        exact ⟨hfive, hcall, hcall, hcall, hcall, hone, hcall, nofun⟩)
      (P := fun last _ => last.Deploys ⟨"db", "example"⟩ ∧
        ¬ last.MovesAtMostOne ⟨"db", "example"⟩) (by decide +kernel)
  exact hjump (h Pacer.silent_none Store.counted_deployedFor hrun hdeploys)

/-! ## Edits between two passes -/

/-- The number of members is changed before a pass has begun to deploy, or at its end. -/
def DbCluster.ResizesBetweenPasses (c : DbCluster) (spec : ClusterSpec) : Prop :=
  c.Resizes spec ∧ ∃ stage, resumeStage c = .ok stage ∧
    (stage.prepares = true ∨ stage = .reconciliationEnd)

namespace Scene

variable {stage after : Stage} {a b : Scene} {conclusion : Conclusion}

/-- How many replicas there are before a stage, when members are edited between passes
only. -/
def InStep (a : Scene) : Stage → Prop
  | .deployAutomationConfig =>
      (a.desired < a.current ∧ a.replicaCount = a.current) ∨ a.replicaCount = a.next
  | .deployWorkload => a.replicaCount = a.current ∨ a.replicaCount = a.next
  | .resetUpdateStrategy | .updateStatus => a.replicaCount = a.next
  | _ => a.replicaCount = a.current

/-- In a stage that prepares, and at the end, a scene is in step with as many replicas as members
are counted. -/
theorem inStep_of_rests (hstage : stage.prepares = true ∨ stage = .reconciliationEnd) :
    a.InStep stage ↔ a.replicaCount = a.current := by
  rcases hstage with hstage | rfl
  · cases stage <;> first | rfl | cases hstage
  · rfl

/-- After the deployment it is in step with as many replicas as are counted next. -/
theorem inStep_of_deployed (hstage : stage = .resetUpdateStrategy ∨ stage = .updateStatus) :
    a.InStep stage ↔ a.replicaCount = a.next := by
  rcases hstage with rfl | rfl <;> rfl

/-- A scene whose cluster counts members, with as many replicas as its stage expects. -/
structure Steady (stage : Stage) (a : Scene) : Prop where
  current_pos : 0 < a.current
  desired_pos : 0 < a.desired
  inStep : a.InStep stage

/-- There are replicas, so there is a workload. -/
theorem Steady.workload_ne_none (h : Steady stage a) : a.workload ≠ none := by
  intro hnone
  have hzero : a.replicaCount = 0 := by rw [replicaCount, hnone]; rfl
  have hpos := next_pos h.current_pos h.desired_pos
  have hcurrent := h.current_pos
  have hin := h.inStep
  unfold InStep at hin
  split at hin <;> omega

/-- A call keeps a cluster steady whose size is edited between passes only. -/
theorem Steady.step (h : Steady stage a) (hstep : a.Step false stage conclusion after b) :
    Steady after b := by
  obtain ⟨hdesired, hcurrent, hreplicas, -⟩ := hstep.counts
  have hroute := hstep.route
  have hin := h.inStep
  have hpos := h.current_pos
  have hnext := a.next_cases
  have hnext' := b.next_cases
  have hfirst : a.NeedsConfigFirst b ↔ a.desired < a.current :=
    or_iff_right (hstep.workload_ne_none h.workload_ne_none)
  have hsteady : b.InStep after → Steady after b := fun hin => by
    refine ⟨?_, hdesired ▸ h.desired_pos, hin⟩
    rw [hcurrent]
    split
    · exact next_pos h.current_pos h.desired_pos
    · exact hpos
  refine hsteady ?_
  cases stage with
  | startFresh | validateSpec | createService | tlsValidation | createTlsResources =>
    simp only [reduceCtorEq, if_false] at hcurrent hreplicas
    simp only [InStep] at hin
    rcases hroute with hprepares | ⟨hneeds, rfl⟩ | ⟨-, rfl⟩
    · exact (inStep_of_rests (.inl hprepares)).2 (by omega)
    · have hdown := hfirst.1 hneeds
      exact .inl (by omega)
    · exact .inl (by omega)
  | deployAutomationConfig =>
    simp only [reduceCtorEq, if_false] at hcurrent hreplicas
    have hkept : b.next = a.next := hstep.frame.next_eq nofun
    simp only [InStep] at hin
    rcases hroute with rfl | ⟨-, rfl⟩ | ⟨hneeds, rfl⟩
    · simp only [InStep]
      omega
    · simp only [InStep]
      omega
    · rw [hfirst] at hneeds
      exact (inStep_of_deployed b.afterDeployment_cases).2 (by omega)
  | deployWorkload =>
    simp only [reduceCtorEq, if_false, if_true] at hcurrent hreplicas
    have hkept : b.next = a.next := hstep.frame.next_eq nofun
    have hwritten : b.replicaCount = b.next := hreplicas.trans hkept.symm
    rcases hroute with rfl | ⟨-, rfl⟩ | ⟨-, -, rfl⟩ | ⟨-, -, rfl⟩
    · exact .inr hwritten
    · exact hwritten
    · exact (inStep_of_deployed b.afterDeployment_cases).2 hwritten
    · exact .inr hwritten
  | resetUpdateStrategy =>
    simp only [reduceCtorEq, if_false] at hcurrent hreplicas
    have hkept : b.next = a.next := hstep.frame.next_eq nofun
    simp only [InStep] at hin
    exact (inStep_of_deployed hroute).2 (by omega)
  | updateStatus =>
    simp only [reduceCtorEq, if_false, if_true] at hcurrent hreplicas
    simp only [InStep] at hin
    rcases hroute with ⟨-, rfl⟩ | ⟨-, rfl⟩
    · exact .inl (by omega)
    · exact (inStep_of_rests (.inr rfl)).2 (by omega)
  | reconciliationEnd =>
    simp only [reduceCtorEq, if_false] at hcurrent hreplicas
    simp only [InStep] at hin
    obtain rfl : after = .startFresh := hroute
    exact (inStep_of_rests (.inl rfl)).2 (by omega)

end Scene

section BetweenPasses

variable {r : Reconciler} {instant : Bool} {name : ResourceName} {start s : Store} {c : DbCluster}
  {calls : List Call}

/-- A run keeps it steady as well. -/
theorem Scene.Steady.of_run (hr : r.pacer.Silent) (hbegins : start.Begins name c)
    (hcounted : start.Counted name)
    (hrun : Run (r.Calls instant name) (Store.Edited name DbCluster.ResizesBetweenPasses) start
      calls s) :
    ∃ stage a, s.Shows name a ∧ resumeStage a.cluster = .ok stage ∧ Steady stage a := by
  have hshows := hbegins.shows
  refine Run.invariant_of_edits (fun _ stage a => Steady stage a) (r.stepsBy_calls hr instant name)
    hshows hbegins.atRest.resumeStage_eq hrun ⟨?_, ?_, ?_⟩ (fun h hab => ?_)
    (fun h hstage hresizes => ?_) fun h hseen => h.step hseen.step
  · rw [← hshows.memberCount_eq]
    exact hcounted.members_pos
  · rw [← hshows.desiredCount_eq]
    exact hcounted.desired_pos
  · rw [inStep_of_rests (.inl rfl), ← hshows.memberCount_eq, ← hshows.replicaCount_eq]
    exact hcounted.counted
  · obtain ⟨hdesired, hcurrent, hreplicas, -⟩ := hab.counts
    have hnext := (hab.frame .startFresh).next_eq nofun
    simp only [reduceCtorEq, if_false] at hcurrent hreplicas
    refine ⟨hcurrent ▸ h.current_pos, hdesired ▸ h.desired_pos, ?_⟩
    have hin := h.inStep
    unfold InStep at hin ⊢
    rw [hdesired, hcurrent, hreplicas, hnext]
    exact hin
  · obtain ⟨hresizes, stage', hstage', hbetween⟩ := hresizes
    obtain rfl := Except.ok.inj (hstage.symm.trans hstage')
    have hcounted := (inStep_of_rests hbetween).1 h.inStep
    exact ⟨h.current_pos, desired_pos_of_resizes hresizes, (inStep_of_rests hbetween).2 hcounted⟩

/-- **When members are edited between passes only, every write of the workload moves its
replicas by at most one member.** -/
theorem moves_at_most_one_of_edits_between_passes {last : Call} (hr : r.pacer.Silent)
    (hbegins : start.Begins name c) (hcounted : start.Counted name)
    (hrun : Run (r.Calls instant name) (Store.Edited name DbCluster.ResizesBetweenPasses) start
      (last :: calls) s) (hdeploys : last.Deploys name) : last.MovesAtMostOne name := by
  obtain ⟨hcalls, hlast⟩ := hrun.of_cons
  obtain ⟨stage, a, hs, hstage, hsteady⟩ := Scene.Steady.of_run hr hbegins hcounted hcalls
  obtain ⟨after, b, hstep, hb⟩ := hlast.step hr hs hstage
  have hseen : last.Seen name false stage a after b := ⟨hs, hstage, hstep, hb⟩
  obtain rfl := hseen.deploys_iff.1 hdeploys
  have hreplicas : b.replicaCount = a.next := hstep.counts.replicas
  have hnear := Scene.next_near hsteady.current_pos
  have hin : a.replicaCount = a.current ∨ a.replicaCount = a.next := hsteady.inStep
  rw [Call.MovesAtMostOne, hs.replicaCount_eq, hb.replicaCount_eq, hreplicas]
  omega

end BetweenPasses

end Reconciliation
