/-
# The graph of the workflow

Adding the arrows of the workflow to an empty graph is never refused: all its states
are stages, and a stage always registers the same definition.  The machine of a
cluster is therefore known from its progress record alone, and the edge it takes is
the first arrow out of its stage whose guard holds (`Stage.next?`).
-/

import Reconciliation.Cluster.Workflow

namespace Reconciliation

/-! ## Building the graph -/

/-- The edge that an arrow becomes. -/
def Arrow.edge (arrow : Arrow) : Edge Work Context :=
  ⟨arrow.source.name, arrow.target.name, guardOf arrow.guard⟩

/-- Stages are told apart by their names. -/
theorem Stage.name_injective {a b : Stage} (h : a.name = b.name) : a = b := by
  have hname := congrArg Stage.ofName? h
  rw [Stage.ofName?_name, Stage.ofName?_name] at hname
  exact Option.some.inj hname

@[simp] theorem Stage.name_state (stage : Stage) : stage.state.name = stage.name := rfl

theorem Stage.name_ne_empty (stage : Stage) : stage.name ≠ "" := by
  cases stage <;> decide

namespace Graph

/-- A graph whose states are all stages. -/
def OfStages (graph : Graph Work Failure Context) : Prop :=
  ∀ state ∈ graph.states, ∃ stage : Stage, state = stage.state

theorem ofStages_empty : (empty : Graph Work Failure Context).OfStages := by
  intro state hstate
  cases hstate

variable {graph : Graph Work Failure Context}

/-- Only a stage is found under its name. -/
theorem OfStages.eq_state (h : graph.OfStages) {stage : Stage} {state : State Work Failure Context}
    (hstate : graph.state? stage.name = some state) : state = stage.state := by
  obtain ⟨other, rfl⟩ := h state (List.mem_of_find?_eq_some hstate)
  have hname : other.state.name = stage.name := name_of_state? hstate
  rw [Stage.name_injective (a := other) hname]

theorem OfStages.accept (h : graph.OfStages) (stage : Stage) :
    (graph.accept stage.state).OfStages := by
  intro state hstate
  unfold Graph.accept at hstate
  split at hstate
  · exact h state hstate
  · rcases List.mem_append.1 hstate with hstate | hstate
    · exact h state hstate
    · exact ⟨stage, List.mem_singleton.1 hstate⟩

/-- A stage is never refused. -/
theorem OfStages.refusal?_eq_none (h : graph.OfStages) (stage : Stage) :
    graph.refusal? stage.state = none := by
  have hempty : stage.state.name ≠ "" := stage.name_ne_empty
  rw [refusal?, if_neg hempty]
  cases hstate : graph.state? stage.state.name with
  | none => rfl
  | some state =>
    rw [h.eq_state hstate]
    simp [State.sameDefinition]

/-- An edge between stages is always added. -/
theorem OfStages.addTransition (h : graph.OfStages) (source target : Stage)
    (guard : Context → Work Bool) :
    graph.addTransition source.state target.state guard =
      (.ok (), { states := ((graph.accept source.state).accept target.state).states
                 edges := graph.edges ++ [⟨source.name, target.name, guard⟩] }) := by
  have hsource := h.refusal?_eq_none source
  have htarget := h.refusal?_eq_none target
  have hthen := (h.accept source).refusal?_eq_none target
  simp [Graph.addTransition, register, hsource, htarget, hthen]

/-- The graph of arrows: every edge is there in order, with the stages it joins. -/
theorem OfStages.addArrows (arrows : List Arrow) (h : graph.OfStages) :
    ∃ after, addArrows graph arrows = .ok after ∧ after.OfStages ∧
      after.edges = graph.edges ++ arrows.map Arrow.edge ∧
      (∀ name, graph.contains name = true → after.contains name = true) ∧
      ∀ arrow ∈ arrows, after.contains arrow.source.name = true := by
  induction arrows generalizing graph with
  | nil => exact ⟨graph, rfl, h, by simp, fun _ hname => hname, nofun⟩
  | cons arrow arrows ih =>
    have hadd := h.addTransition arrow.source arrow.target (guardOf arrow.guard)
    have haccepted : OfStages
        { states := ((graph.accept arrow.source.state).accept arrow.target.state).states
          edges := graph.edges ++ [arrow.edge] } := (h.accept arrow.source).accept arrow.target
    obtain ⟨after, hafter, hstages, hedges, hkept, hsources⟩ := ih haccepted
    refine ⟨after, ?_, hstages, by simp [hedges], fun name hname => hkept name ?_, ?_⟩
    · rw [Reconciliation.addArrows, hadd]
      exact hafter
    · exact contains_accept_of_contains (contains_accept_of_contains hname _) _
    · intro other hother
      rcases List.mem_cons.1 hother with rfl | hother
      · exact hkept _ (contains_accept_of_contains (graph.contains_accept other.source.state) _)
      · exact hsources other hother

end Graph

/-- What the graph of the workflow is: the arrows as edges in their order, and
exactly the stages as states. -/
structure Graph.IsWorkflow (graph : Graph Work Failure Context) : Prop where
  edges : graph.edges = workflowArrows.map Arrow.edge
  state?_name : ∀ stage : Stage, graph.state? stage.name = some stage.state
  exists_stage : ∀ name, graph.contains name = true → ∃ stage : Stage, stage.name = name

/-- **The graph of the workflow is always built.** -/
theorem exists_transitionGraph : ∃ graph, transitionGraph = .ok graph ∧ graph.IsWorkflow := by
  obtain ⟨graph, hgraph, hstages, hedges, -, hsources⟩ :=
    Graph.ofStages_empty.addArrows workflowArrows
  have hend := hstages.refusal?_eq_none .reconciliationEnd
  refine ⟨graph.accept Stage.reconciliationEnd.state, ?_, ?_, ?_, ?_⟩
  · simp [transitionGraph, hgraph, Graph.register, hend, bind, Except.bind]
  · simpa [Graph.empty] using hedges
  · intro stage
    have hcontains : (graph.accept Stage.reconciliationEnd.state).contains stage.name = true := by
      by_cases hlast : stage = .reconciliationEnd
      · exact hlast ▸ graph.contains_accept Stage.reconciliationEnd.state
      · refine Graph.contains_accept_of_contains ?_ _
        obtain ⟨arrow, harrow, rfl⟩ : ∃ arrow ∈ workflowArrows, arrow.source = stage := by
          cases stage <;> simp [workflowArrows] at hlast ⊢
        exact hsources arrow harrow
    obtain ⟨state, hstate⟩ := Option.isSome_iff_exists.1 hcontains
    rw [hstate, (hstages.accept .reconciliationEnd).eq_state hstate]
  · intro name hname
    obtain ⟨state, hstate⟩ := Option.isSome_iff_exists.1 hname
    obtain ⟨stage, rfl⟩ :=
      hstages.accept .reconciliationEnd state (List.mem_of_find?_eq_some hstate)
    exact ⟨stage, Graph.name_of_state? hstate⟩

/-! ## The stage that follows -/

/-- The stage to go to: the target of the first arrow out of a stage whose guard
holds. -/
def Stage.next? (stage : Stage) (ctx : Context) : Option Stage :=
  ((workflowArrows.filter fun arrow => arrow.source = stage).find? fun arrow =>
    arrow.guard ctx).map Arrow.target

section Routes

variable (ctx : Context)

/-- The stage with which deploying begins. -/
def Context.firstDeployment : Stage :=
  if ctx.needsConfigFirst = true then .deployAutomationConfig else .deployWorkload

/-- The stage after the last one that deploys. -/
def Context.afterDeployment : Stage :=
  if ctx.isChangingVersion = true then .resetUpdateStrategy else .updateStatus

theorem Stage.next?_createService : next? .createService ctx =
    some (if ctx.tlsEnabled = true then .tlsValidation else ctx.firstDeployment) := by
  have harrows : (workflowArrows.filter fun arrow => arrow.source = createService) =
      [⟨createService, tlsValidation, Context.tlsEnabled⟩,
        ⟨createService, deployAutomationConfig, Context.needsConfigFirst⟩,
        ⟨createService, deployWorkload, Context.deployWorkloadFirst⟩] := rfl
  rw [next?, harrows]
  cases htls : ctx.tlsEnabled <;> cases hneeds : ctx.needsConfigFirst <;>
    simp [htls, hneeds, Context.deployWorkloadFirst, Context.firstDeployment]

theorem Stage.next?_createTlsResources :
    next? .createTlsResources ctx = some ctx.firstDeployment := by
  have harrows : (workflowArrows.filter fun arrow => arrow.source = createTlsResources) =
      [⟨createTlsResources, deployAutomationConfig, Context.needsConfigFirst⟩,
        ⟨createTlsResources, deployWorkload, Context.deployWorkloadFirst⟩] := rfl
  rw [next?, harrows]
  cases hneeds : ctx.needsConfigFirst <;>
    simp [hneeds, Context.deployWorkloadFirst, Context.firstDeployment]

theorem Stage.next?_deployAutomationConfig : next? .deployAutomationConfig ctx =
    some (if ctx.needsConfigFirst = true then .deployWorkload else ctx.afterDeployment) := by
  have harrows : (workflowArrows.filter fun arrow => arrow.source = deployAutomationConfig) =
      [⟨deployAutomationConfig, deployWorkload, Context.needsConfigFirst⟩,
        ⟨deployAutomationConfig, resetUpdateStrategy, Context.isChangingVersion⟩,
        ⟨deployAutomationConfig, updateStatus, unguarded⟩] := rfl
  rw [next?, harrows]
  cases hneeds : ctx.needsConfigFirst <;> cases hchanging : ctx.isChangingVersion <;>
    simp [hneeds, hchanging, unguarded, Context.afterDeployment]

theorem Stage.next?_deployWorkload : next? .deployWorkload ctx =
    some (if ctx.isStillScaling = true then .updateStatus
      else if ctx.needsConfigFirst = true then ctx.afterDeployment
      else .deployAutomationConfig) := by
  have harrows : (workflowArrows.filter fun arrow => arrow.source = deployWorkload) =
      [⟨deployWorkload, updateStatus, Context.isStillScaling⟩,
        ⟨deployWorkload, deployAutomationConfig, Context.deployWorkloadFirst⟩,
        ⟨deployWorkload, resetUpdateStrategy, Context.isChangingVersion⟩,
        ⟨deployWorkload, updateStatus, unguarded⟩] := rfl
  rw [next?, harrows]
  cases hstill : ctx.isStillScaling <;> cases hneeds : ctx.needsConfigFirst <;>
    cases hchanging : ctx.isChangingVersion <;>
      simp [hstill, hneeds, hchanging, unguarded, Context.deployWorkloadFirst,
        Context.afterDeployment]

theorem Stage.next?_updateStatus : next? .updateStatus ctx =
    some (if ctx.isStillScaling = true then .deployWorkload else .reconciliationEnd) := by
  have harrows : (workflowArrows.filter fun arrow => arrow.source = updateStatus) =
      [⟨updateStatus, deployWorkload, Context.isStillScaling⟩,
        ⟨updateStatus, reconciliationEnd, unguarded⟩] := rfl
  rw [next?, harrows]
  cases hstill : ctx.isStillScaling <;> simp [hstill, unguarded]

/-- Where a stage leads is decided by the four guards. -/
theorem Stage.next?_congr {ctx ctx' : Context} (htls : ctx'.tlsEnabled = ctx.tlsEnabled)
    (hneeds : ctx'.needsConfigFirst = ctx.needsConfigFirst)
    (hscaling : ctx'.isStillScaling = ctx.isStillScaling)
    (hchanging : ctx'.isChangingVersion = ctx.isChangingVersion) (stage : Stage) :
    stage.next? ctx' = stage.next? ctx := by
  cases stage with
  | startFresh | validateSpec | tlsValidation | resetUpdateStrategy | reconciliationEnd => rfl
  | createService => simp only [next?_createService, Context.firstDeployment, htls, hneeds]
  | createTlsResources => simp only [next?_createTlsResources, Context.firstDeployment, hneeds]
  | deployAutomationConfig =>
    simp only [next?_deployAutomationConfig, Context.afterDeployment, hneeds, hchanging]
  | deployWorkload =>
    simp only [next?_deployWorkload, Context.afterDeployment, hneeds, hscaling, hchanging]
  | updateStatus => simp only [next?_updateStatus, hscaling]

end Routes

/-- Asking guards that have no effects is looking for the first that holds. -/
theorem Graph.firstAllowed_map_edge (ctx : Context) (arrows : List Arrow) :
    (Graph.firstAllowed ctx (arrows.map Arrow.edge) : Work _) =
      .done ((arrows.find? fun arrow => arrow.guard ctx).map Arrow.edge) := by
  induction arrows with
  | nil => rfl
  | cons arrow arrows ih =>
    cases hguard : arrow.guard ctx <;>
      simp [Graph.firstAllowed, Arrow.edge, guardOf, hguard, ih]

/-- The edges out of a stage are its arrows. -/
theorem Graph.IsWorkflow.edgesFrom_name {graph : Graph Work Failure Context} (h : graph.IsWorkflow)
    (stage : Stage) : graph.edgesFrom stage.name =
      (workflowArrows.filter fun arrow => arrow.source = stage).map Arrow.edge := by
  rw [Graph.edgesFrom, h.edges, List.filter_map]
  congr 1
  refine List.filter_congr fun arrow _ => ?_
  exact decide_eq_decide.2 ⟨Stage.name_injective, congrArg Stage.name⟩

/-- The workflow resolves the next stage without effects. -/
theorem Graph.IsWorkflow.resolveNext {graph : Graph Work Failure Context} (h : graph.IsWorkflow)
    (stage : Stage) (ctx : Context) :
    ∃ edge?, (graph.resolveNext stage.name ctx : Work _) = .done edge? ∧
      edge?.map Edge.target = (stage.next? ctx).map Stage.name := by
  refine ⟨_, by rw [Graph.resolveNext, h.edgesFrom_name, Graph.firstAllowed_map_edge], ?_⟩
  rw [Stage.next?, Option.map_map, Option.map_map]
  rfl

end Reconciliation
