/-
# The deployment workflow

The ten stages of the workflow, the edges between them in order of priority, and
the machine that is built for a cluster from the progress record stored on it.
-/

import Reconciliation.Cluster.Steps

namespace Reconciliation

/-- The stages of a deployment. -/
inductive Stage where
  | startFresh
  | validateSpec
  | createService
  | tlsValidation
  | createTlsResources
  | deployAutomationConfig
  | deployWorkload
  | resetUpdateStrategy
  | updateStatus
  | reconciliationEnd
deriving DecidableEq, Repr

namespace Stage

/-- All stages, in the order of the pipeline. -/
def all : List Stage :=
  [startFresh, validateSpec, createService, tlsValidation, createTlsResources,
    deployAutomationConfig, deployWorkload, resetUpdateStrategy, updateStatus,
    reconciliationEnd]

/-- The name of a stage. -/
def name : Stage → String
  | startFresh => "StartFresh"
  | validateSpec => "ValidateSpec"
  | createService => "CreateService"
  | tlsValidation => "TlsValidation"
  | createTlsResources => "CreateTlsResources"
  | deployAutomationConfig => "DeployAutomationConfig"
  | deployWorkload => "DeployWorkload"
  | resetUpdateStrategy => "ResetUpdateStrategy"
  | updateStatus => "UpdateStatus"
  | reconciliationEnd => "ReconciliationEnd"

/-- The stage of that name. -/
def ofName? (name : String) : Option Stage := all.find? fun stage => stage.name = name

/-- Every stage is found by its name. -/
@[simp] theorem ofName?_name (stage : Stage) : ofName? stage.name = some stage := by
  cases stage <;> decide

/-- The stage of a name has that name. -/
theorem name_of_ofName? {name : String} {stage : Stage} (h : ofName? name = some stage) :
    stage.name = name := by
  simpa using List.find?_some h

/-- The place of a stage in the pipeline. -/
def index : Stage → Nat
  | startFresh => 0
  | validateSpec => 1
  | createService => 2
  | tlsValidation => 3
  | createTlsResources => 4
  | deployAutomationConfig => 5
  | deployWorkload => 6
  | resetUpdateStrategy => 7
  | updateStatus => 8
  | reconciliationEnd => 9

/-- What a stage does. -/
def action : Stage → StepAction
  | startFresh => Reconciliation.startFresh
  | validateSpec => validateSpecStep
  | createService => Reconciliation.createService
  | tlsValidation => Reconciliation.tlsValidation
  | createTlsResources => Reconciliation.createTlsResources
  | deployAutomationConfig => Reconciliation.deployAutomationConfig
  | deployWorkload => Reconciliation.deployWorkload
  | resetUpdateStrategy => Reconciliation.resetUpdateStrategy
  | updateStatus => updateStatusStep
  | reconciliationEnd => Reconciliation.reconciliationEnd

/-- How a stage finds out whether it is complete, if it has to. -/
def check? : Stage → Option StepCheck
  | createService => some serviceExists
  | tlsValidation => some tlsValidated
  | deployAutomationConfig => some automationConfigReached
  | deployWorkload => some workloadDeployed
  | resetUpdateStrategy => some updateStrategyReset
  | _ => none

/-- The state of the machine that stands for a stage. -/
def state (stage : Stage) : State Work Failure Context where
  name := stage.name
  action := ⟨stage.index, stage.action⟩
  check := stage.check?.map fun check => ⟨stage.index, check⟩

end Stage

/-- A guarded edge of the workflow. -/
structure Arrow where
  source : Stage
  target : Stage
  guard : Context → Bool

/-- The guard of an edge that is always allowed. -/
def unguarded : Context → Bool := fun _ => true

/-- The edges of the workflow.  Of the edges out of one stage the first whose guard
holds is taken. -/
def workflowArrows : List Arrow := [
  ⟨.startFresh, .validateSpec, unguarded⟩,
  ⟨.validateSpec, .createService, unguarded⟩,
  ⟨.validateSpec, .tlsValidation, Context.tlsEnabled⟩,
  ⟨.validateSpec, .deployAutomationConfig, Context.needsConfigFirst⟩,
  ⟨.validateSpec, .deployWorkload, Context.deployWorkloadFirst⟩,
  ⟨.createService, .tlsValidation, Context.tlsEnabled⟩,
  ⟨.createService, .deployAutomationConfig, Context.needsConfigFirst⟩,
  ⟨.createService, .deployWorkload, Context.deployWorkloadFirst⟩,
  ⟨.tlsValidation, .createTlsResources, unguarded⟩,
  ⟨.createTlsResources, .deployAutomationConfig, Context.needsConfigFirst⟩,
  ⟨.createTlsResources, .deployWorkload, Context.deployWorkloadFirst⟩,
  ⟨.deployWorkload, .updateStatus, Context.isStillScaling⟩,
  ⟨.deployWorkload, .deployAutomationConfig, Context.deployWorkloadFirst⟩,
  ⟨.deployWorkload, .resetUpdateStrategy, Context.isChangingVersion⟩,
  ⟨.deployWorkload, .updateStatus, unguarded⟩,
  ⟨.deployAutomationConfig, .deployWorkload, Context.needsConfigFirst⟩,
  ⟨.deployAutomationConfig, .resetUpdateStrategy, Context.isChangingVersion⟩,
  ⟨.deployAutomationConfig, .updateStatus, unguarded⟩,
  ⟨.resetUpdateStrategy, .updateStatus, unguarded⟩,
  ⟨.updateStatus, .deployWorkload, Context.isStillScaling⟩,
  ⟨.updateStatus, .reconciliationEnd, unguarded⟩]

/-- Adds edges to a graph, up to the first that is refused. -/
def addArrows (graph : Graph Work Failure Context) :
    List Arrow → Except ConfigError (Graph Work Failure Context)
  | [] => .ok graph
  | arrow :: arrows =>
    match graph.addTransition arrow.source.state arrow.target.state (guardOf arrow.guard) with
    | (.ok (), graph) => addArrows graph arrows
    | (.error error, _) => .error error

/-- The graph of the workflow. -/
def transitionGraph : Except ConfigError (Graph Work Failure Context) := do
  let graph ← addArrows .empty workflowArrows
  match graph.register Stage.reconciliationEnd.state with
  | (.ok (), graph) => .ok graph
  | (.error error, _) => .error error

/-- Where a pass without a resume point begins. -/
def initialStage : Stage := .startFresh

/-! ## The progress record of a cluster -/

/-- The text of the progress record, if the cluster has one. -/
def progressText? (c : DbCluster) : Option String :=
  c.metadata.annotations.get? progressAnnotation

/-- The progress record of a cluster.  Without one, or with an empty text, the
cluster starts afresh. -/
def progressRecord (c : DbCluster) : Except ConfigError Progress :=
  match progressText? c with
  | none => .ok .fresh
  | some text =>
    if text = "" then .ok .fresh
    else match Progress.ofJson text with
      | .ok record => .ok record
      | .error fault => .error (.invalidProgress fault)

/-- The cluster with a progress record. -/
def withProgress (c : DbCluster) (record : Progress) : DbCluster :=
  c.annotate progressAnnotation record.toJson

/-- Writes the name of the stage to resume at.  The latest copy of the cluster is
read first, so that other annotations and the rest of the record survive. -/
def saveNextState (name : ResourceName) (next : String) : Work (Except Failure Unit) := do
  match ← callStore (.get .cluster name) with
  | .error error => pure (.error (.store error))
  | .ok cluster =>
    match progressRecord cluster with
    | .error error => pure (.error (.config error))
    | .ok record => do
      let saved := withProgress cluster { record with nextState := next }
      match ← callStore (.update .cluster saved) with
      | .error error => pure (.error (.store error))
      | .ok () => pure (.ok ())

/-- The machine of a cluster, at the stage where the last tick left off. -/
def buildMachine (c : DbCluster) (pacer : Pacer Work) :
    Except ConfigError (Machine Work Failure Context) := do
  let record ← progressRecord c
  let graph ← transitionGraph
  let machine ← Machine.resume graph record initialStage.name (saveNextState c.resourceName)
  pure (machine.withPacer pacer)

end Reconciliation
