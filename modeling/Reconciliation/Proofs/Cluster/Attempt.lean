/-
# A call of the reconciler, in two parts

A call of the reconciler first finds the stage to resume at, runs it and decides
where to go (`Reconciler.attempt`); then, if the stage is complete, it writes the
name of the next stage (`Reconciler.conclude`).  The two parts are the whole call
(`reconcile_eq`).  Only the second part writes the resume point of a pass that goes
on, so a failure of that write is a failure of the second part.
-/

import Reconciliation.Cluster.Reconciler
import Reconciliation.Proofs.Cluster.Graph

namespace Reconciliation

/-! ## The machine of a cluster -/

/-- The stage at which the record of a cluster resumes. -/
def resumeStage (c : DbCluster) : Except ConfigError Stage := do
  let record ← progressRecord c
  match record.resumePoint? with
  | none => .ok initialStage
  | some name =>
    match Stage.ofName? name with
    | some stage => .ok stage
    | none => .error (.unregisteredState name)

/-- The names registered in the workflow are the names of the stages. -/
theorem Graph.IsWorkflow.state?_eq {graph : Graph Work Failure Context} (h : graph.IsWorkflow)
    (name : String) : graph.state? name = (Stage.ofName? name).map Stage.state := by
  cases hstage : Stage.ofName? name with
  | some stage =>
    rw [← Stage.name_of_ofName? hstage]
    exact h.state?_name stage
  | none =>
    cases hstate : graph.state? name with
    | none => rfl
    | some state =>
      obtain ⟨stage, rfl⟩ := h.exists_stage name (by rw [Graph.contains, hstate]; rfl)
      rw [Stage.ofName?_name] at hstage
      cases hstage

/-- **The machine of a cluster stands at the stage that its record names.** -/
theorem exists_buildMachine : ∃ graph : Graph Work Failure Context,
    transitionGraph = .ok graph ∧ graph.IsWorkflow ∧ ∀ (c : DbCluster) (pacer : Pacer Work), buildMachine c pacer =
      (resumeStage c).map fun stage =>
        ⟨graph, stage.state, saveNextState c.resourceName, pacer⟩ := by
  obtain ⟨graph, hgraph, hworkflow⟩ := exists_transitionGraph
  refine ⟨graph, hgraph, hworkflow, fun c pacer => ?_⟩
  have hinitial : graph.contains initialStage.name = true := by
    rw [Graph.contains, hworkflow.state?_name]
    rfl
  unfold buildMachine resumeStage
  rw [hgraph]
  cases progressRecord c with
  | error error => rfl
  | ok record =>
    cases hresume : record.resumePoint? with
    | none =>
      simp [Machine.resume, hinitial, hresume, hworkflow.state?_name, Machine.withPacer, bind,
        Except.bind, Except.map, pure, Except.pure]
    | some name =>
      cases hstage : Stage.ofName? name <;>
        simp [Machine.resume, hinitial, hresume, hworkflow.state?_eq, hstage, Machine.withPacer,
          bind, Except.bind, Except.map, pure, Except.pure]

/-! ## The two parts of a call -/

/-- Whether a stage is complete after its action. -/
def Stage.isComplete (stage : Stage) : StepCheck := fun ctx =>
  match stage.check? with
  | some check => check ctx
  | none => pure (.ok true)

/-- The verdict of the machine on a stage is that of the stage. -/
theorem Stage.verdict_state (stage : Stage) (ctx : Context) :
    Machine.verdict stage.state ctx = stage.isComplete ctx := by
  unfold Machine.verdict Stage.isComplete Stage.state
  cases stage.check? <;> rfl

/-- How the first part of a call ended. -/
inductive Attempt where
  /-- The call is over: nothing is to be written. -/
  | ended (conclusion : Conclusion)
  /-- The stage is complete: the name of the next one is to be written. -/
  | leaving (key : ResourceName) (stage : Stage) (next : Option Stage) (outcome : Outcome)

/-- The name under which the stage that follows is recorded. -/
def nextName (next : Option Stage) : String := (next.map Stage.name).getD ""

namespace Reconciler

/-- Runs a stage on what was observed, and decides where to go. -/
def runStage (key : ResourceName) (stage : Stage) (ctx : Context) : Work Attempt := do
  let (result, ctx) ← stage.action ctx
  match result with
  | .error cause => pure (.ended (.ticked (.actionFailed stage.name cause)))
  | .ok outcome => do
    match ← stage.isComplete ctx with
    | .error cause => pure (.ended (.ticked (.checkFailed stage.name cause)))
    | .ok false => pure (.ended (.ticked (.incomplete outcome)))
    | .ok true => pure (.leaving key stage (stage.next? ctx) outcome)

/-- The first part of a call: everything up to the write of the resume point. -/
def attempt (r : Reconciler) (now : Timestamp) (name : ResourceName) : Work Attempt := do
  match ← callStore (.get .cluster name) with
  | .error error =>
    pure (.ended (if error.isNotFound then .absent else .unreadable error))
  | .ok cluster =>
    match resumeStage cluster with
    | .error error => pure (.ended (.misconfigured error))
    | .ok stage => do
      match ← (Context.observe cluster r.pendingRequeue now).run with
      | .error error => pure (.ended (.unreadable error))
      | .ok ctx => runStage cluster.resourceName stage ctx

/-- The second part of a call: the write of the resume point, with the pacer around
it. -/
def conclude (r : Reconciler) : Attempt → Work Conclusion
  | .ended conclusion => pure conclusion
  | .leaving key stage next outcome => do
    r.pacer.before
    match ← saveNextState key (nextName next) with
    | .error cause => pure (.ticked (.saveFailed stage.name (nextName next) cause))
    | .ok () => do
      r.pacer.after
      pure (.ticked (.advanced (nextName next) outcome))

/-- Ticking the machine of a stage is running the stage and concluding. -/
theorem tick_eq_runStage (r : Reconciler) {graph : Graph Work Failure Context}
    (h : graph.IsWorkflow) (key : ResourceName) (stage : Stage) (ctx : Context) :
    (do
      let (ending, _) ← Machine.tick ⟨graph, stage.state, saveNextState key, r.pacer⟩ ctx
      pure (Conclusion.ticked ending)) = runStage key stage ctx >>= r.conclude := by
  simp only [Machine.tick, runStage, bind_assoc]
  show (stage.action ctx >>= _) = (stage.action ctx >>= _)
  refine bind_congr fun (result, ctx) => ?_
  cases result with
  | error cause => rfl
  | ok outcome =>
    simp only [Stage.verdict_state, bind_assoc]
    refine bind_congr fun verdict => ?_
    rcases verdict with cause | ⟨_ | _⟩
    · rfl
    · rfl
    · obtain ⟨edge?, hedge, htarget⟩ := h.resolveNext stage ctx
      have hnext : (edge?.map Edge.target).getD "" = nextName (stage.next? ctx) := by
        rw [htarget, nextName]
      simp only [Machine.advance, Machine.persist, Stage.name_state, hedge, bind_assoc,
        Program.done_bind, Program.pure_eq, hnext, conclude]
      refine bind_congr fun _ => bind_congr fun saved => ?_
      cases saved <;> simp only [Program.done_bind, bind_assoc]

/-- **A call of the reconciler is its two parts.** -/
theorem reconcile_eq (r : Reconciler) (now : Timestamp) (name : ResourceName) :
    r.reconcile now name = r.attempt now name >>= r.conclude := by
  obtain ⟨graph, -, hgraph, hmachine⟩ := exists_buildMachine
  simp only [reconcile, attempt, bind_assoc]
  refine bind_congr fun reply => ?_
  cases reply with
  | error error => rfl
  | ok cluster =>
    simp only [hmachine]
    cases resumeStage cluster with
    | error error => rfl
    | ok stage =>
      simp only [Except.map, bind_assoc]
      refine bind_congr fun observed => ?_
      cases observed with
      | error error => rfl
      | ok ctx => exact tick_eq_runStage r hgraph cluster.resourceName stage ctx

end Reconciler
end Reconciliation
