/-
# Actions, checks and guards agree

The action of a step waits or goes on by what it finds, the completion check looks again at
what is stored then, and the guards out of a stage look at what was observed before.  With
nobody else around they come to the same answer (`Reconciler.verdicts_agree`): a step that
waits for certificates or agents stays due exactly when its action has published the cluster
as pending, one that waits for a workload exactly when that is rolling out and not ready, and
the last status tells where the pass goes on.

An action does its work away from the clusters and then goes on, waits or fails; the check is
asked on what the work has left (`Stage.exists_judged_of_waiting`).
-/

import Reconciliation.Proofs.Cluster.Judgements
import Reconciliation.Proofs.Cluster.Reruns
import Reconciliation.Proofs.Rollout.ResumePoints

namespace Reconciliation

/-! ## The stages -/

namespace Stage

variable {stage : Stage} {instant : Bool} {s t : Store} {ctx left : Context} {outcome : Outcome}
  {complete : Bool}

/-- The checks do not look at the status of the cluster. -/
theorem isComplete_withStatus (stage : Stage) (ctx : Context) (o : StatusOptions) :
    stage.isComplete (ctx.withStatus o) = stage.isComplete ctx := by
  cases stage <;> rfl

section Works

variable {α : Type} {work : Work α} {next : α → Work (Except Failure Outcome × Context)} {a : α}
  {message reason : String}
  (haction : stage.action ctx = work >>= next) (haloof : Aloof work)
  (hs : s.clusters ctx.cluster.resourceName = some ctx.cluster)
  (hwork : work.run (Store.handle instant false) s = (a, t))
include haction haloof hs hwork

/-- A step whose work makes it fail does not succeed. -/
theorem not_ok_of_failing (hnext : next a = failStep ctx message) :
    ((stage.action ctx).run (Store.handle instant false) s).1.1 ≠ .ok outcome := by
  have hclusters := Store.clusters_run haloof instant s
  rw [hwork] at hclusters
  obtain ⟨left, hrun⟩ := Store.run_failStep instant (hclusters ▸ hs) message
  rw [haction, Program.run_bind, hwork, hnext, hrun]
  nofun

/-- A step that goes on after its work publishes nothing. -/
theorem judged_of_going (hnext : next a = .done (.ok .requeue, left))
    (hjudges : ((stage.isComplete left).run (Store.handle instant false) t).1 = .ok complete) :
    stage.Judged instant s ctx .requeue complete left t ∧
      Store.published instant ctx.cluster.resourceName (stage.action ctx) s = [] := by
  have hclusters := Store.clusters_run haloof instant s
  rw [hwork] at hclusters
  refine ⟨⟨?_, hjudges, ctx.cluster, hclusters ▸ hs, rfl, .inl rfl⟩, ?_⟩
  · rw [haction, Program.run_bind, hwork, hnext]
    rfl
  · rw [haction, Store.published_bind, Store.published_of_aloof haloof, hwork, hnext]
    rfl

/-- A step that writes the status after its work publishes the phase. -/
theorem judged_of_publishing {o : StatusOptions} (hnext : next a = publishStatus left o)
    (hleft : left.cluster = ctx.cluster)
    (hjudges : ((stage.isComplete left).run (Store.handle instant false) t).1 = .ok complete) :
    stage.Judged instant s ctx o.outcome complete (left.withStatus o)
        (t.put ctx.cluster.resourceName .cluster (left.withStatus o).cluster) ∧
      Store.published instant ctx.cluster.resourceName (stage.action ctx) s =
        [(left.withStatus o).cluster.status.phase] := by
  have hclusters := Store.clusters_run haloof instant s
  rw [hwork] at hclusters
  have ht : t.clusters left.cluster.resourceName = some left.cluster := by
    rw [hclusters, hleft]
    exact hs
  rw [← hleft]
  refine ⟨⟨?_, ?_, (left.withStatus o).cluster, ?_, ?_, .inl ?_⟩, ?_⟩
  · rw [haction, Program.run_bind, hwork, hnext]
    exact Store.run_publishStatus instant ht o
  · rw [isComplete_withStatus, Store.run_put_cluster (Aloof.isComplete stage left)]
    exact hjudges
  · rw [← hleft]
    exact Collection.put_self _ _ _
  · rw [← hleft]
    rfl
  · rw [← hleft]
    rfl
  · rw [haction, Store.published_bind, Store.published_of_aloof haloof, hwork, hnext]
    exact Store.published_publishStatus ht o

/-- **A step that goes on or waits publishes that the cluster is pending when it waits**, and
is judged by what its work has left. -/
theorem exists_judged_of_waiting (ready : Bool)
    (hnext : next a = if ready = true then .done (.ok .requeue, left) else waitStep left reason)
    (hleft : left.cluster = ctx.cluster)
    (hjudges : ((stage.isComplete left).run (Store.handle instant false) t).1 = .ok complete) :
    ∃ outcome left u, stage.Judged instant s ctx outcome complete left u ∧
      u.workloads = t.workloads ∧
      (.pending ∈ Store.published instant ctx.cluster.resourceName (stage.action ctx) s ↔
        ready = false) := by
  cases ready with
  | false =>
    obtain ⟨hjudged, hpublished⟩ :=
      judged_of_publishing haction haloof hs hwork hnext hleft hjudges
    rw [hpublished]
    exact ⟨_, _, _, hjudged, rfl, fun _ => rfl, fun _ => List.mem_cons_self⟩
  | true =>
    obtain ⟨hjudged, hpublished⟩ := judged_of_going haction haloof hs hwork hnext hjudges
    rw [hpublished]
    exact ⟨_, _, _, hjudged, rfl, nofun, nofun⟩

end Works

/-! ### The checks -/

section Checks

variable (instant : Bool) (ctx : Context)

/-- The service is looked up. -/
theorem run_serviceExists (h : t.get? .service ctx.cluster.serviceName ≠ none) :
    (serviceExists ctx).run (Store.handle instant false) t = (.ok true, t) := by
  obtain ⟨service, hservice⟩ := Option.ne_none_iff_exists'.1 h
  have hfind := t.run_findResource instant .service ctx.cluster.serviceName
  rw [hservice] at hfind
  rw [serviceExists, storeCheck, Program.run_bind, Store.run_bind_ok hfind]
  rfl

/-- The stored workload is asked about the stored config. -/
theorem run_automationConfigReached {config : AutomationConfig}
    (hconfig : t.get? .automationConfig ctx.cluster.resourceName = some config) :
    (automationConfigReached ctx).run (Store.handle instant false) t =
      (.ok (agentsFollow config (t.workloads ctx.cluster.resourceName)), t) := by
  have hfind : (findResource .workload ctx.cluster.resourceName).run.run
      (Store.handle instant false) t = (.ok (t.workloads ctx.cluster.resourceName), t) :=
    t.run_findResource instant .workload ctx.cluster.resourceName
  have hget := t.run_getResource instant .automationConfig ctx.cluster.resourceName
  rw [hconfig] at hget
  rw [automationConfigReached, Program.run_bind, hfind]
  cases t.workloads ctx.cluster.resourceName with
  | none => rfl
  | some w =>
    simp only [Program.run_bind, hget]
    rfl

/-- The stored workload is looked at. -/
theorem run_workloadDeployed {w : Workload}
    (hw : t.get? .workload ctx.cluster.resourceName = some w) :
    (workloadDeployed ctx).run (Store.handle instant false) t =
      (.ok (w.isReady || w.updateStrategy = .onDelete), t) := by
  have hget := t.run_getResource instant .workload ctx.cluster.resourceName
  rw [hw] at hget
  rw [workloadDeployed, Program.run_bind, hget]
  rfl

theorem run_updateStrategyReset {w : Workload}
    (hw : t.get? .workload ctx.cluster.resourceName = some w)
    (hstrategy : w.updateStrategy = .rollingUpdate) :
    (updateStrategyReset ctx).run (Store.handle instant false) t = (.ok true, t) := by
  have hget := t.run_getResource instant .workload ctx.cluster.resourceName
  rw [hw] at hget
  rw [updateStrategyReset, storeCheck, Program.run_bind, Store.run_bind_ok hget, hstrategy]
  rfl

end Checks

/-! ### The actions -/

section Verdicts

variable (hs : s.clusters ctx.cluster.resourceName = some ctx.cluster)
include hs

theorem exists_judged_startFresh :
    ∃ outcome left t, startFresh.Judged instant s ctx outcome true left t :=
  have haction : startFresh.action ctx =
      (Program.done () >>= fun _ => Reconciliation.startFresh ctx) := rfl
  ⟨_, _, _, (judged_of_going haction (.done ()) hs rfl rfl rfl).1⟩

theorem exists_judged_validateSpec
    (hok : ((validateSpec.action ctx).run (Store.handle instant false) s).1.1 = .ok outcome) :
    ∃ outcome left t, validateSpec.Judged instant s ctx outcome true left t := by
  have haction : validateSpec.action ctx =
      (Program.done () >>= fun _ => validateSpecStep ctx) := rfl
  cases hvalid : Reconciliation.validateSpec ctx.cluster with
  | error problem =>
    exact absurd hok (not_ok_of_failing haction (.done ()) hs rfl
      (by simp only [validateSpecStep, hvalid]; rfl))
  | ok =>
    exact ⟨_, _, _, (judged_of_going haction (.done ()) hs rfl
      (by simp only [validateSpecStep, hvalid]; rfl) rfl).1⟩

/-- A service that was created or was there already is found. -/
theorem exists_judged_createService :
    ∃ outcome left t, createService.Judged instant s ctx outcome true left t := by
  have haction : createService.action ctx =
      callStore (.create .service (wantedService ctx.cluster)) >>= _ := rfl
  have haloof : Aloof (callStore (.create .service (wantedService ctx.cluster))) :=
    .callStore nofun
  obtain ⟨hstored, hcreate⟩ | ⟨-, t, hcreate, hstored⟩ :=
    s.perform_create (nofun : Kind.service ≠ .workload)
      (wantedService ctx.cluster)
  · exact ⟨_, _, _, (judged_of_going haction haloof hs hcreate rfl
      (congrArg Prod.fst (run_serviceExists instant ctx hstored))).1⟩
  · have hfound : t.get? .service ctx.cluster.serviceName ≠ none :=
      fun hnone => nomatch hstored.symm.trans hnone
    exact ⟨_, _, _, (judged_of_going haction haloof hs hcreate rfl
      (congrArg Prod.fst (run_serviceExists instant ctx hfound))).1⟩

/-- The check finds the certificates that the action found. -/
theorem exists_judged_tlsValidation
    (hok : ((tlsValidation.action ctx).run (Store.handle instant false) s).1.1 = .ok outcome) :
    ∃ outcome complete left t, tlsValidation.Judged instant s ctx outcome complete left t ∧
      (.pending ∈ Store.published instant ctx.cluster.resourceName (tlsValidation.action ctx) s ↔
        complete = false) := by
  have haction : tlsValidation.action ctx = (tlsObjectsValid ctx.cluster).run >>= _ := rfl
  have haloof := Aloof.tlsObjectsValid ctx.cluster
  have hwork := s.run_of_lookups instant (Only.tlsObjectsValid (Q := fun _ => True)
    (fun _ _ => rfl) (fun _ => trivial) ctx.cluster) instant
  have hjudges : ((tlsValidation.isComplete ctx).run (Store.handle instant false) s).1 =
      ((tlsObjectsValid ctx.cluster).run.run (Store.handle instant false) s).1.mapError
        .store := by
    show ((storeCheck (tlsObjectsValid ctx.cluster)).run _ s).1 = _
    rw [storeCheck, Program.run_bind]
    rfl
  rcases hfound : ((tlsObjectsValid ctx.cluster).run.run (Store.handle instant false) s).1 with
    error | valid <;> rw [hfound] at hwork hjudges
  · exact absurd hok (not_ok_of_failing haction haloof hs hwork rfl)
  · obtain ⟨outcome, left, u, hjudged, -, hpending⟩ :=
      exists_judged_of_waiting haction haloof hs hwork valid (by cases valid <;> rfl) rfl hjudges
    exact ⟨outcome, valid, left, u, hjudged, hpending⟩

/-- A certificate that is there is copied. -/
theorem exists_judged_createTlsResources
    (hok : ((createTlsResources.action ctx).run (Store.handle instant false) s).1.1 =
      .ok outcome) :
    ∃ outcome left t, createTlsResources.Judged instant s ctx outcome true left t := by
  have haction : createTlsResources.action ctx = (ensureOperatorSecret ctx.cluster).run >>= _ := rfl
  have haloof := Aloof.ensureOperatorSecret ctx.cluster
  rcases hwork : (ensureOperatorSecret ctx.cluster).run.run (Store.handle instant false) s with
    ⟨error | done, t⟩
  · exact absurd hok (not_ok_of_failing haction haloof hs hwork rfl)
  · exact ⟨_, _, _, (judged_of_going haction haloof hs hwork rfl rfl).1⟩

/-- The check asks the agents that the action asked. -/
theorem exists_judged_deployAutomationConfig : ∃ outcome complete left t,
    deployAutomationConfig.Judged instant s ctx outcome complete left t ∧
      (.pending ∈ Store.published instant ctx.cluster.resourceName
        (deployAutomationConfig.action ctx) s ↔ complete = false) := by
  have haction : deployAutomationConfig.action ctx =
      (publishAutomationConfig ctx.cluster).run >>= _ := rfl
  obtain ⟨config, t, hwork, hconfig, -⟩ :=
    s.exists_run_publishAutomationConfig instant ctx.cluster
  have hjudges := congrArg Prod.fst (run_automationConfigReached instant
    { ctx with observedWorkload := t.workloads ctx.cluster.resourceName } hconfig)
  obtain ⟨outcome, left, u, hjudged, -, hpending⟩ :=
    exists_judged_of_waiting haction (.publishAutomationConfig ctx.cluster) hs hwork
      (agentsFollow config (t.workloads ctx.cluster.resourceName)) rfl rfl hjudges
  exact ⟨outcome, _, left, u, hjudged, hpending⟩

/-- The check judges the workload that the action has written. -/
theorem exists_judged_deployWorkload : ∃ w outcome left t,
    deployWorkload.Judged instant s ctx outcome (w.isReady || w.updateStrategy = .onDelete) left t ∧
      t.workloads ctx.cluster.resourceName = some w ∧
      Kind.workload.bare w = wantedWorkload ctx.cluster := by
  have haction : deployWorkload.action ctx = (ensureWorkload ctx.cluster).run >>= _ := rfl
  obtain ⟨w, hw, hbare, hwork⟩ := s.exists_run_ensureWorkload instant ctx.cluster
  have hjudges := congrArg Prod.fst
    (run_workloadDeployed instant { ctx with observedWorkload := some w } hw)
  obtain ⟨outcome, left, u, hjudged, hworkloads, -⟩ :=
    exists_judged_of_waiting haction (.ensureWorkload ctx.cluster) hs hwork w.isReady rfl rfl
      hjudges
  exact ⟨w, outcome, left, u, hjudged, hworkloads ▸ hw, hbare⟩

/-- A workload that was given its rolling updates back is found with them. -/
theorem exists_judged_resetUpdateStrategy (hnamed : s.WellNamed)
    (hok : ((resetUpdateStrategy.action ctx).run (Store.handle instant false) s).1.1 =
      .ok outcome) :
    ∃ outcome left t, resetUpdateStrategy.Judged instant s ctx outcome true left t := by
  have haction : resetUpdateStrategy.action ctx = (resetStrategy ctx.cluster).run >>= _ := rfl
  have haloof := Aloof.resetStrategy ctx.cluster
  obtain ⟨error, hwork⟩ | ⟨w, w', t, hwork, hw', hstrategy⟩ :=
    s.exists_run_resetStrategy instant ctx.cluster hnamed
  · exact absurd hok (not_ok_of_failing haction haloof hs hwork rfl)
  · exact ⟨_, _, _, (judged_of_going haction haloof hs hwork rfl (congrArg Prod.fst
      (run_updateStrategyReset instant { ctx with observedWorkload := some w } hw'
        hstrategy))).1⟩

/-- The last status says whether members are still to be added or removed, and the guards are
asked about the number of members that was observed. -/
theorem exists_judged_updateStatus : ∃ outcome left t,
    updateStatus.Judged instant s ctx outcome true left t ∧
      left.isStillScaling = ctx.isStillScaling ∧
      Store.published instant ctx.cluster.resourceName (updateStatus.action ctx) s =
        [if ctx.cluster.isStillScaling = true then .pending else .running] := by
  by_cases hstill : ctx.cluster.isStillScaling = true
  · have haction : updateStatus.action ctx =
        (Program.done () >>= fun _ => publishStatus ctx (scalingStatus ctx)) := if_pos hstill
    have hjudges : ((updateStatus.isComplete ctx).run (Store.handle instant false) s).1 =
        .ok true := rfl
    obtain ⟨hjudged, hpublished⟩ := judged_of_publishing haction (.done ()) hs rfl rfl rfl hjudges
    exact ⟨_, _, _, hjudged, rfl, hpublished.trans (by rw [if_pos hstill]; rfl)⟩
  · have haction : updateStatus.action ctx =
        (Reconciliation.updateStatus ctx (runningStatus ctx) >>= _) := if_neg hstill
    have hwrite := Store.run_updateStatus instant hs (runningStatus ctx)
    have hwritten : (s.put ctx.cluster.resourceName .cluster
        (ctx.withStatus (runningStatus ctx)).cluster).clusters
          (ctx.withStatus (runningStatus ctx)).cluster.resourceName =
            some (ctx.withStatus (runningStatus ctx)).cluster := Collection.put_self _ _ _
    obtain ⟨left, t, hrecorded, hstored, hstill'⟩ := Store.run_recordAppliedSpec instant hwritten
    refine ⟨(runningStatus ctx).outcome, left, t, ⟨?_, rfl, _, hstored, rfl, .inl ?_⟩, hstill', ?_⟩
    · rw [haction, Program.run_bind, hwrite]
      simp only [Program.run_bind, hrecorded]
      rfl
    · exact progressRecord_withAppliedSpec _
    · rw [haction, Store.published_bind, Store.published_updateStatus hs, hwrite]
      simp only [Store.published_bind, Store.published_recordAppliedSpec, if_neg hstill]
      rfl

/-- The end of a pass leaves a fresh record. -/
theorem exists_judged_reconciliationEnd :
    ∃ outcome left t, reconciliationEnd.Judged instant s ctx outcome true left t := by
  obtain ⟨left, hrun⟩ := StepEnd.ends_reconciliationEnd ctx instant s hs
  exact ⟨.done, left, _, hrun, rfl, withFreshProgress ctx.cluster, Collection.put_self _ _ _, rfl,
    .inr ⟨rfl, progressRecord_withProgress _ _⟩⟩

end Verdicts

end Stage

/-! ## Agreement -/

/-- What the action of a stage has published, and the workload that is stored, agree with
where the pass goes on. -/
def Stage.Agrees (stage : Stage) (name : ResourceName) (c : DbCluster) (published : List Phase)
    (t : Store) (d : DbCluster) : Prop :=
  match stage with
  | .startFresh | .validateSpec | .createService | .createTlsResources | .resetUpdateStrategy =>
    ∃ arrow ∈ workflowArrows, arrow.source = stage ∧ arrow.target ≠ stage ∧
      d.ResumesAt arrow.target
  | .tlsValidation | .deployAutomationConfig => d.ResumesAt stage ↔ .pending ∈ published
  | .deployWorkload =>
    ∃ w, t.workloads name = some w ∧ Kind.workload.bare w = wantedWorkload c ∧
      (d.ResumesAt .deployWorkload ↔ w.isReady = false ∧ w.updateStrategy = .rollingUpdate)
  | .updateStatus =>
    (.pending ∈ published ↔ d.ResumesAt .deployWorkload) ∧
      (.running ∈ published ↔ d.ResumesAt .reconciliationEnd)
  | .reconciliationEnd => d.ResumesAt .startFresh

section Agreement

variable {instant : Bool} {s : Store} {ctx : Context} {outcome : Outcome} {d : DbCluster}
  {stage : Stage} {complete : Bool}

/-- The pass goes on along an arrow of the workflow. -/
theorem Stage.exists_arrow_following (h : stage ≠ .reconciliationEnd) (ctx : Context) :
    ∃ arrow ∈ workflowArrows, arrow.source = stage ∧ arrow.target = stage.following ctx := by
  obtain ⟨next, hnext⟩ := exists_next h ctx
  obtain ⟨arrow, hfound, htarget⟩ := Option.map_eq_some_iff.1 hnext
  obtain ⟨hmem, hsource⟩ := List.mem_filter.1 (List.mem_of_find?_eq_some hfound)
  refine ⟨arrow, hmem, of_decide_eq_true hsource, ?_⟩
  rw [following, hnext, htarget]
  rfl

/-- No stage follows itself. -/
theorem Stage.following_ne_self (stage : Stage) (ctx : Context) : stage.following ctx ≠ stage := by
  by_cases hend : stage = .reconciliationEnd
  · subst hend
    nofun
  · obtain ⟨arrow, hmem, hsource, htarget⟩ := exists_arrow_following hend ctx
    have hloop : ∀ arrow ∈ workflowArrows, arrow.source ≠ arrow.target := by decide
    exact fun hself => hloop arrow hmem (hsource.trans (htarget.trans hself).symm)

/-- A stage stays due exactly when it is not complete. -/
theorem Stage.resumesAt_iff_of_judged
    (hpoint : resumeStage d = .ok (if complete = true then stage.following ctx else stage)) :
    d.ResumesAt stage ↔ complete = false := by
  rw [← resumeStage_eq_ok_iff, hpoint]
  cases complete with
  | false => exact ⟨fun _ => rfl, fun _ => rfl⟩
  | true => exact ⟨fun h => absurd (Except.ok.inj h) (stage.following_ne_self ctx), nofun⟩

/-- A stage that is complete is left along an arrow of the workflow. -/
theorem Stage.exists_arrow_of_complete (hend : stage ≠ .reconciliationEnd)
    (hpoint : resumeStage d = .ok (stage.following ctx)) : ∃ arrow ∈ workflowArrows,
      arrow.source = stage ∧ arrow.target ≠ stage ∧ d.ResumesAt arrow.target := by
  obtain ⟨arrow, hmem, hsource, htarget⟩ := exists_arrow_following hend ctx
  rw [← htarget] at hpoint
  exact ⟨arrow, hmem, hsource, htarget ▸ stage.following_ne_self ctx,
    resumeStage_eq_ok_iff.1 hpoint⟩

/-- The action and the check of every stage agree. -/
theorem Stage.exists_judged_agreeing (stage : Stage) (hnamed : s.WellNamed)
    (hs : s.clusters ctx.cluster.resourceName = some ctx.cluster)
    (hscaling : ctx.isStillScaling = ctx.cluster.isStillScaling)
    (hok : ((stage.action ctx).run (Store.handle instant false) s).1.1 = .ok outcome) :
    ∃ outcome complete left t, stage.Judged instant s ctx outcome complete left t ∧
      ∀ u d, u.workloads = t.workloads →
        resumeStage d = .ok (if complete = true then stage.following left else stage) →
          stage.Agrees ctx.cluster.resourceName ctx.cluster
            (Store.published instant ctx.cluster.resourceName (stage.action ctx) s) u d := by
  cases stage with
  | startFresh =>
    obtain ⟨outcome, left, t, hjudged⟩ := exists_judged_startFresh hs
    exact ⟨outcome, true, left, t, hjudged, fun _ _ _ => exists_arrow_of_complete nofun⟩
  | validateSpec =>
    obtain ⟨outcome, left, t, hjudged⟩ := exists_judged_validateSpec hs hok
    exact ⟨outcome, true, left, t, hjudged, fun _ _ _ => exists_arrow_of_complete nofun⟩
  | createService =>
    obtain ⟨outcome, left, t, hjudged⟩ := exists_judged_createService hs
    exact ⟨outcome, true, left, t, hjudged, fun _ _ _ => exists_arrow_of_complete nofun⟩
  | tlsValidation =>
    obtain ⟨outcome, complete, left, t, hjudged, hpending⟩ := exists_judged_tlsValidation hs hok
    exact ⟨outcome, complete, left, t, hjudged, fun _ _ _ hpoint =>
      (resumesAt_iff_of_judged hpoint).trans hpending.symm⟩
  | createTlsResources =>
    obtain ⟨outcome, left, t, hjudged⟩ := exists_judged_createTlsResources hs hok
    exact ⟨outcome, true, left, t, hjudged, fun _ _ _ => exists_arrow_of_complete nofun⟩
  | deployAutomationConfig =>
    obtain ⟨outcome, complete, left, t, hjudged, hpending⟩ :=
      exists_judged_deployAutomationConfig hs
    exact ⟨outcome, complete, left, t, hjudged, fun _ _ _ hpoint =>
      (resumesAt_iff_of_judged hpoint).trans hpending.symm⟩
  | deployWorkload =>
    obtain ⟨w, outcome, left, t, hjudged, hw, hbare⟩ := exists_judged_deployWorkload hs
    refine ⟨outcome, _, left, t, hjudged, fun u d hworkloads hpoint =>
      ⟨w, hworkloads ▸ hw, hbare, (resumesAt_iff_of_judged hpoint).trans ?_⟩⟩
    cases w.updateStrategy <;> simp
  | resetUpdateStrategy =>
    obtain ⟨outcome, left, t, hjudged⟩ := exists_judged_resetUpdateStrategy hs hnamed hok
    exact ⟨outcome, true, left, t, hjudged, fun _ _ _ => exists_arrow_of_complete nofun⟩
  | updateStatus =>
    obtain ⟨outcome, left, t, hjudged, hleft, hpublished⟩ := exists_judged_updateStatus hs
    refine ⟨outcome, true, left, t, hjudged, fun u d _ hpoint => ?_⟩
    rw [if_pos rfl, following, next?_updateStatus, hleft, hscaling] at hpoint
    simp only [Agrees, ← resumeStage_eq_ok_iff, hpoint, hpublished]
    cases ctx.cluster.isStillScaling <;> simp
  | reconciliationEnd =>
    obtain ⟨outcome, left, t, hjudged⟩ := exists_judged_reconciliationEnd hs
    exact ⟨outcome, true, left, t, hjudged, fun _ _ _ => resumeStage_eq_ok_iff.1⟩

/-- **Action, check and guards agree**: in every store that operations have led to, and with
nobody else around, a call on a cluster whose stage acts without failure ticks with the
outcome of the action, publishes what the action publishes, and leaves the pass where that
says. -/
theorem Reconciler.verdicts_agree {r : Reconciler} (hr : r.pacer.Silent) (instant : Bool)
    (operations : List Operation) (now : Timestamp) {name : ResourceName} {c : DbCluster}
    (hstored : (Store.after instant operations).clusters name = some c)
    (hresumes : c.ResumesAt stage)
    (hok : ((stage.action (r.seen now (Store.after instant operations) c)).run
      (Store.handle instant false) (Store.after instant operations)).1.1 = .ok outcome) :
    ∃ ending t d,
      (r.reconcile now name).run (Store.handle instant false) (Store.after instant operations) =
        (.ticked ending, t) ∧
      ending.result = .ok outcome ∧ t.clusters name = some d ∧
      Store.published instant name (r.reconcile now name) (Store.after instant operations) =
        Store.published instant name (stage.action (r.seen now (Store.after instant operations) c))
          (Store.after instant operations) ∧
      stage.Agrees name c (Store.published instant name
        (stage.action (r.seen now (Store.after instant operations) c))
          (Store.after instant operations)) t d := by
  have hnamed := Store.wellNamed_after instant operations
  generalize Store.after instant operations = s at *
  obtain rfl : c.resourceName = name := hnamed .cluster name c hstored
  have hstage := hresumes.resumeStage_eq
  have hseen : s.clusters (r.seen now s c).cluster.resourceName =
      some (r.seen now s c).cluster := hstored
  obtain ⟨outcome', complete, left, t, hjudged, hagrees⟩ :=
    stage.exists_judged_agreeing hnamed hseen rfl hok
  obtain rfl : outcome = outcome' := by
    rw [hjudged.acts] at hok
    exact (Except.ok.inj hok).symm
  obtain ⟨ending, u, d, hrun, hresult, hworkloads, hd, hpoint⟩ :=
    hjudged.resumes hr hstored hstage
  exact ⟨ending, u, d, hrun, hresult, hd, published_reconcile now hr hstored hstage,
    hagrees u d hworkloads hpoint⟩

/-- While two of five members are still to be added, the status says so, and the pass goes back
to the workload. -/
theorem Reconciler.verdicts_agree_while_scaling : ∃ ending t d,
    (standard.reconcile .earliest ⟨"db", "example"⟩).run (Store.handle false false)
        (Store.after false [.putCluster .publishing]) = (.ticked ending, t) ∧
      ending.result = .ok (.retry 10) ∧ t.clusters ⟨"db", "example"⟩ = some d ∧
      Store.published false ⟨"db", "example"⟩ (standard.reconcile .earliest ⟨"db", "example"⟩)
        (Store.after false [.putCluster .publishing]) = [.pending] ∧
      d.ResumesAt .deployWorkload := by
  have hsilent : standard.pacer.Silent := Pacer.silent_none
  have hstored : (Store.after false [.putCluster .publishing]).clusters ⟨"db", "example"⟩ =
      some .publishing := rfl
  have hresumes : DbCluster.publishing.ResumesAt .updateStatus := by
    refine resumeStage_eq_ok_iff.1 ?_
    rw [resumeStage_of_record progressRecord_publishing]
    rfl
  have hok : ((Stage.updateStatus.action (standard.seen .earliest
      (Store.after false [.putCluster .publishing]) .publishing)).run
        (Store.handle false false) (Store.after false [.putCluster .publishing])).1.1 =
          .ok (.retry 10) := rfl
  obtain ⟨ending, t, d, hrun, hresult, hd, hpublished, hagrees⟩ :=
    verdicts_agree hsilent false _ .earliest hstored hresumes hok
  exact ⟨ending, t, d, hrun, hresult, hd, hpublished.trans rfl,
    hagrees.1.1 (by decide +kernel)⟩

end Agreement
end Reconciliation
