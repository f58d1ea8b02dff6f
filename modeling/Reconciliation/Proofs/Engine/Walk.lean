/-
# Runs of many invocations

A machine lives for one invocation: the graph is built again, the machine resumes at the
stored record, and it ticks once (`Resumable.invoke`).  What is remembered from one
invocation to the next is the record alone.

A run is a walk in the graph (`Resumable.Walk`, `session_walks`).  An invocation runs the
state that is due and no other one; as long as that state does not complete it stays due,
and then an edge out of it is followed, or the workflow starts over.  This rests on the
graph being well formed, whatever calls built it, and on a tick writing the record at
most once, after everything else has succeeded.
-/

import Reconciliation.Engine.Script
import Reconciliation.Proofs.Engine.Registry
import Reconciliation.Proofs.Engine.Tick

namespace Reconciliation

variable {σ ε C : Type}

/-- A workflow with its record in the surroundings `σ`.  The fields `record_*` are a contract
with the progress store and the other collaborators: only the store writes the record, and
only when it reports no failure.  A workflow with an action, a check or a guard that writes
its own record lies outside; so does the stage `ReconciliationEnd` of a cluster, whose action
empties the record before the engine saves it. -/
structure Resumable (σ ε C : Type) where
  /-- The calls that build the graph, for every invocation again. -/
  registrations : List (Registration (StateM σ) ε C)
  initial : String
  /-- The stored record. -/
  record : σ → Progress
  save : String → StateM σ (Except ε Unit)
  pacer : Pacer (StateM σ)
  contains_initial : (Graph.build registrations).contains initial = true
  nextState_save : ∀ next w w', save next w = (.ok (), w') → (record w').nextState = next
  record_failed_save : ∀ next w cause w', save next w = (.error cause, w') → record w' = record w
  record_before : ∀ w, record (pacer.before w).2 = record w
  record_after : ∀ w, record (pacer.after w).2 = record w
  record_action : ∀ state ∈ (Graph.build registrations).states, ∀ ctx w,
    record (state.action.run ctx w).2 = record w
  record_check : ∀ state ∈ (Graph.build registrations).states, ∀ check,
    state.check = some check → ∀ ctx w, record (check.isComplete ctx w).2 = record w
  record_guard : ∀ edge ∈ (Graph.build registrations).edges, ∀ ctx w,
    record (edge.guard ctx w).2 = record w

/-- What one invocation was given and what came of it. -/
structure Invocation (σ ε C : Type) where
  before : σ
  ctx : C
  /-- The ending of the tick and the context it left, unless no machine could be built. -/
  result : Except ConfigError (Ending ε × C)
  after : σ

namespace Resumable

/-- The graph of the workflow. -/
def graph (r : Resumable σ ε C) : Graph (StateM σ) ε C := Graph.build r.registrations

/-- The name in the stored record. -/
def stored (r : Resumable σ ε C) (w : σ) : String := (r.record w).nextState

/-- The name of the state to run: the stored one, or the initial one when none is stored. -/
def due (r : Resumable σ ε C) (w : σ) : String := (r.record w).resumePoint?.getD r.initial

/-- The record is empty or names a registered state. -/
def Resumes (r : Resumable σ ε C) (w : σ) : Prop :=
  r.stored w = "" ∨ r.graph.contains (r.stored w) = true

/-- The machine of an invocation that runs a state. -/
def machineAt (r : Resumable σ ε C) (state : State (StateM σ) ε C) : Machine (StateM σ) ε C :=
  ⟨r.graph, state, r.save, r.pacer⟩

/-- One invocation: a machine is built at the stored record, and ticks once. -/
def invoke (r : Resumable σ ε C) (ctx : C) : StateM σ (Except ConfigError (Ending ε × C)) :=
  fun w =>
    match Machine.resume (Graph.build r.registrations) (r.record w) r.initial r.save with
    | .error error => (.error error, w)
    | .ok machine =>
      (.ok ((machine.withPacer r.pacer).tick ctx w).1, ((machine.withPacer r.pacer).tick ctx w).2)

/-- `r.Session w log w'`: invocations one after the other, the earliest first.  Between two
of them anything may happen that leaves the record alone. -/
inductive Session (r : Resumable σ ε C) : σ → List (Invocation σ ε C) → σ → Prop
  | nil (w : σ) : Session r w [] w
  | others {w w₁ w' : σ} {log : List (Invocation σ ε C)} (kept : r.record w₁ = r.record w)
      (rest : Session r w₁ log w') : Session r w log w'
  | invoke {w w' : σ} {log : List (Invocation σ ε C)} (ctx : C)
      (rest : Session r (r.invoke ctx w).2 log w') :
      Session r w (⟨w, ctx, (r.invoke ctx w).1, (r.invoke ctx w).2⟩ :: log) w'

end Resumable

/-- The state whose action is called, if the call is one of an action. -/
def EngineCall.action? : EngineCall σ C → Option String
  | .action state _ => some state
  | _ => none

namespace Resumable

/-- An invocation resumes without an error and runs the action of the state that is due,
once and no other one, by the law of a tick. -/
structure Runs (r : Resumable σ ε C) (inv : Invocation σ ε C) (state : State (StateM σ) ε C)
    (ending : Ending ε) (ctx' : C) : Prop where
  state_due : r.graph.state? (r.due inv.before) = some state
  resumes : inv.result = .ok (ending, ctx')
  ticks : ∃ calls,
    (r.machineAt state).watched.tick inv.ctx (inv.before, []) =
      ((ending, ctx'), (inv.after, calls)) ∧
    (r.machineAt state).Ticked inv.ctx inv.before calls ending.result ending.event ctx'
      inv.after ∧
    calls.filterMap EngineCall.action? = [r.due inv.before]

/-- `r.Walk stored log stored'`: the states that invocations run are a walk in the graph,
from one stored name to another. -/
inductive Walk (r : Resumable σ ε C) : String → List (Invocation σ ε C) → String → Prop
  | nil (stored : String) : Walk r stored [] stored
  /-- The state did not complete, or its completion could not be saved: it stays due. -/
  | again {inv : Invocation σ ε C} {log : List (Invocation σ ε C)} {stored' : String}
      {state : State (StateM σ) ε C} {ending : Ending ε} {ctx' : C}
      (runs : r.Runs inv state ending ctx') (unfinished : ending.event ≠ .transition)
      (kept : r.stored inv.after = r.stored inv.before)
      (due : r.due inv.after = r.due inv.before)
      (rest : Walk r (r.stored inv.after) log stored') :
      Walk r (r.stored inv.before) (inv :: log) stored'
  /-- The state completed, and an edge out of it whose guard held is followed. -/
  | follows {inv : Invocation σ ε C} {log : List (Invocation σ ε C)} {stored' : String}
      {state : State (StateM σ) ε C} {ending : Ending ε} {ctx' : C}
      {edge : Edge (StateM σ) C}
      (runs : r.Runs inv state ending ctx') (finished : ending.event = .transition)
      (leaves : edge ∈ r.graph.edgesFrom (r.due inv.before))
      (held : ∃ w w', edge.guard ctx' w = (true, w'))
      (moved : r.stored inv.after = edge.target) (due : r.due inv.after = edge.target)
      (rest : Walk r (r.stored inv.after) log stored') :
      Walk r (r.stored inv.before) (inv :: log) stored'
  /-- The state completed and all guards refused: the workflow starts over. -/
  | restarts {inv : Invocation σ ε C} {log : List (Invocation σ ε C)} {stored' : String}
      {state : State (StateM σ) ε C} {ending : Ending ε} {ctx' : C}
      (runs : r.Runs inv state ending ctx') (finished : ending.event = .transition)
      (refused : ∃ w w', Refused ctx' (r.graph.edgesFrom (r.due inv.before)) w w')
      (cleared : r.stored inv.after = "") (due : r.due inv.after = r.initial)
      (rest : Walk r (r.stored inv.after) log stored') :
      Walk r (r.stored inv.before) (inv :: log) stored'

/-! ## Resuming -/

section Due

variable {r : Resumable σ ε C} {w w' : σ}

theorem due_of_stored_eq_empty (h : r.stored w = "") : r.due w = r.initial := by
  rw [stored] at h
  rw [due, (Progress.resumePoint?_eq_none_iff _).2 h, Option.getD_none]

theorem due_of_stored_ne_empty (h : r.stored w ≠ "") : r.due w = r.stored w := by
  rw [stored] at h ⊢
  rw [due, Progress.resumePoint?, if_neg h, Option.getD_some]

theorem Resumes.contains_due (h : r.Resumes w) : r.graph.contains (r.due w) = true := by
  by_cases hstored : r.stored w = ""
  · rw [due_of_stored_eq_empty hstored]
    exact r.contains_initial
  · rw [due_of_stored_ne_empty hstored]
    exact h.resolve_left hstored

/-- **A machine is always built**, at the state that is due. -/
theorem Resumes.exists_resume (h : r.Resumes w) :
    ∃ state, r.graph.state? (r.due w) = some state ∧
      Machine.resume (Graph.build r.registrations) (r.record w) r.initial r.save =
        .ok ⟨r.graph, state, r.save, .none⟩ := by
  obtain ⟨state, hstate⟩ := Option.isSome_iff_exists.1 h.contains_due
  refine ⟨state, hstate, ?_⟩
  rw [graph, due] at hstate
  simp only [Machine.resume, r.contains_initial, if_true, hstate]
  rfl

end Due

/-! ## The record during a tick -/

section Record

variable {r : Resumable σ ε C} {state : State (StateM σ) ε C} {ctx ctx' : C} {w w' : σ}
  {edges asked : List (Edge (StateM σ) C)} {next : String} {calls : List (EngineCall σ C)}
  {event : Event} {result : Except (TickError ε) Outcome}

theorem record_of_refused (hedges : ∀ edge ∈ edges, edge ∈ r.graph.edges)
    (h : Refused ctx edges w w') : r.record w' = r.record w := by
  induction h with
  | nil w => rfl
  | @cons edge edges w w₁ w' refuses rest ih =>
    have hguard := r.record_guard edge (hedges edge List.mem_cons_self) ctx w
    rw [refuses] at hguard
    rw [ih fun other hother => hedges other (List.mem_cons_of_mem edge hother)]
    exact hguard

theorem record_of_chosen (hedges : ∀ edge ∈ edges, edge ∈ r.graph.edges)
    (h : Chosen ctx edges w asked next w') : r.record w' = r.record w := by
  cases h with
  | nowhere refused => exact record_of_refused hedges refused
  | @edge passed rest edge w₁ w' split refused holds =>
    subst split
    have hguard := r.record_guard edge (hedges edge (by simp)) ctx w₁
    rw [holds] at hguard
    rw [← record_of_refused (fun other hother => hedges other (by simp [hother])) refused]
    exact hguard

theorem record_of_judged {verdict : Except ε Bool} (hstate : state ∈ r.graph.states)
    (h : Judged state ctx w calls verdict w') : r.record w' = r.record w := by
  cases h with
  | unchecked noCheck => rfl
  | checked hasCheck checks =>
    have hcheck := r.record_check state hstate _ hasCheck ctx w
    rw [checks] at hcheck
    exact hcheck

theorem record_of_acts {answer : Except ε Outcome} (hstate : state ∈ r.graph.states)
    (h : state.action.run ctx w = ((answer, ctx'), w')) : r.record w' = r.record w := by
  have haction := r.record_action state hstate ctx w
  rw [h] at haction
  exact haction

/-- A choice is the target of an edge whose guard held, or nothing when all refused. -/
theorem exists_edge_of_chosen (h : Chosen ctx edges w asked next w') :
    (∃ edge ∈ edges, edge.target = next ∧ ∃ w₁ w₂, edge.guard ctx w₁ = (true, w₂)) ∨
      next = "" ∧ ∃ w₁ w₂, Refused ctx edges w₁ w₂ := by
  cases h with
  | nowhere refused => exact .inr ⟨rfl, _, _, refused⟩
  | @edge passed rest edge w₁ w' split refused holds =>
    refine .inl ⟨edge, ?_, rfl, w₁, w', holds⟩
    simp [split]

theorem edgesFrom_subset (name : String) : ∀ edge ∈ r.graph.edgesFrom name, edge ∈ r.graph.edges :=
  fun _ hedge => (List.mem_filter.1 hedge).1

/-- A tick that does not count a transition leaves the record as it was. -/
theorem record_of_ticked (hstate : state ∈ r.graph.states) (hevent : event ≠ .transition)
    (h : (r.machineAt state).Ticked ctx w calls result event ctx' w') :
    r.record w' = r.record w := by
  cases h with
  | actionFailed acts => exact record_of_acts hstate acts
  | checkFailed acts judged =>
    rw [record_of_judged hstate judged, record_of_acts hstate acts]
  | incomplete acts judged =>
    rw [record_of_judged hstate judged, record_of_acts hstate acts]
  | @unsaved _ _ _ _ _ w₃ w₄ _ _ _ _ acts judged chosen before saves =>
    have hbefore : r.record w₄ = r.record w₃ := by
      have hpacer := r.record_before w₃
      rwa [show r.pacer.before w₃ = ((), w₄) from before] at hpacer
    rw [r.record_failed_save _ _ _ _ saves, hbefore, record_of_chosen (edgesFrom_subset _) chosen,
      record_of_judged hstate judged, record_of_acts hstate acts]
  | saved => exact absurd rfl hevent

/-- A tick that counts a transition stores where the chosen edge leads. -/
theorem stored_of_ticked (hevent : event = .transition)
    (h : (r.machineAt state).Ticked ctx w calls result event ctx' w') :
    (∃ edge ∈ r.graph.edgesFrom state.name, r.stored w' = edge.target ∧
        ∃ w₁ w₂, edge.guard ctx' w₁ = (true, w₂)) ∨
      r.stored w' = "" ∧ ∃ w₁ w₂, Refused ctx' (r.graph.edgesFrom state.name) w₁ w₂ := by
  cases h with
  | actionFailed | checkFailed | incomplete | unsaved => cases hevent
  | @saved _ _ _ _ _ _ w₅ _ next _ _ _ _ chosen _ saves after =>
    have hstored : r.stored w' = next := by
      have hpacer := r.record_after w₅
      rw [show r.pacer.after w₅ = ((), w') from after] at hpacer
      rw [stored, hpacer]
      exact r.nextState_save _ _ _ saves
    rcases exists_edge_of_chosen chosen with ⟨edge, hedge, htarget, hheld⟩ | ⟨hnext, hrefused⟩
    · exact .inl ⟨edge, hedge, hstored.trans htarget.symm, hheld⟩
    · exact .inr ⟨hstored.trans hnext, hrefused⟩

end Record

/-! ## One invocation, and many -/

/-- A tick calls the action of its state once, and no other action. -/
theorem filterMap_action?_of_ticked {machine : Machine (StateM σ) ε C} {ctx ctx' : C} {w w' : σ}
    {calls : List (EngineCall σ C)} {result : Except (TickError ε) Outcome} {event : Event}
    (h : machine.Ticked ctx w calls result event ctx' w') :
    calls.filterMap EngineCall.action? = [machine.current.name] := by
  have hjudged : ∀ {ctx : C} {w w' : σ} {calls : List (EngineCall σ C)} {verdict : Except ε Bool},
      Judged machine.current ctx w calls verdict w' →
        calls.filterMap EngineCall.action? = [] := by
    intro ctx w w' calls verdict h
    cases h <;> rfl
  have hasked : ∀ asked : List (Edge (StateM σ) C),
      (asked.map (.guard · ctx')).filterMap EngineCall.action? = [] := by
    intro asked
    simp [List.filterMap_map, Function.comp_def, EngineCall.action?]
  cases h with
  | actionFailed acts => rfl
  | checkFailed acts judged | incomplete acts judged =>
    rw [List.filterMap_append, hjudged judged]
    rfl
  | unsaved acts judged | saved acts judged =>
    rw [List.filterMap_append, List.filterMap_append, List.filterMap_append, hjudged judged,
      hasked]
    rfl

variable {r : Resumable σ ε C} {w w' : σ}

/-- An invocation runs the state that is due. -/
theorem Resumes.exists_runs (h : r.Resumes w) (ctx : C) :
    ∃ state ending ctx',
      r.Runs ⟨w, ctx, (r.invoke ctx w).1, (r.invoke ctx w).2⟩ state ending ctx' := by
  obtain ⟨state, hstate, hresume⟩ := h.exists_resume
  obtain ⟨ending, ctx', w', calls, hwatched, htick, hticked⟩ :=
    (r.machineAt state).tick_watched ctx w
  have hinvoke : r.invoke ctx w = (.ok (ending, ctx'), w') := by
    rw [invoke, hresume]
    exact congrArg (fun ticked => (Except.ok ticked.1, ticked.2)) htick
  have hactions := filterMap_action?_of_ticked hticked
  rw [show (r.machineAt state).current.name = r.due w from Graph.name_of_state? hstate] at hactions
  refine ⟨state, ending, ctx', ⟨hstate, ?_, calls, ?_, ?_, hactions⟩⟩ <;> rw [hinvoke]
  · exact hwatched
  · exact hticked

/-- The step of a walk: whatever the invocation came to, the record resumes again. -/
theorem Resumes.walk_cons (h : r.Resumes w) (ctx : C) :
    r.Resumes (r.invoke ctx w).2 ∧ ∀ log stored',
      r.Walk (r.stored (r.invoke ctx w).2) log stored' →
        r.Walk (r.stored w) (⟨w, ctx, (r.invoke ctx w).1, (r.invoke ctx w).2⟩ :: log) stored' := by
  obtain ⟨state, ending, ctx', hruns⟩ := h.exists_runs ctx
  obtain ⟨calls, -, hticked, -⟩ := hruns.ticks
  have hstate : state ∈ r.graph.states := List.mem_of_find?_eq_some hruns.state_due
  have hname : state.name = r.due w := Graph.name_of_state? hruns.state_due
  by_cases hevent : ending.event = .transition
  · rcases stored_of_ticked hevent hticked with ⟨edge, hedge, hstored, hheld⟩ | ⟨hstored, hrefused⟩
    · have hcontains : r.graph.contains edge.target = true :=
        (Graph.wellFormed_build _).target_registered edge (edgesFrom_subset _ edge hedge)
      have hnonempty : edge.target ≠ "" :=
        (Graph.wellFormed_build _).ne_empty_of_contains hcontains
      rw [hname] at hedge
      have hdue := due_of_stored_ne_empty (hstored ▸ hnonempty)
      exact ⟨.inr (hstored ▸ hcontains), fun log stored' hrest =>
        .follows hruns hevent hedge hheld hstored (hdue.trans hstored) hrest⟩
    · rw [hname] at hrefused
      have hdue := due_of_stored_eq_empty hstored
      exact ⟨.inl hstored, fun log stored' hrest =>
        .restarts hruns hevent hrefused hstored hdue hrest⟩
  · have hrecord := record_of_ticked hstate hevent hticked
    have hstored : r.stored (r.invoke ctx w).2 = r.stored w := congrArg Progress.nextState hrecord
    have hdue : r.due (r.invoke ctx w).2 = r.due w := by rw [due, due, hrecord]
    refine ⟨?_, fun log stored' hrest => .again hruns hevent hstored hdue hrest⟩
    rw [Resumes, hstored]
    exact h

end Resumable

/-- **Resumable runs follow the graph.**  From a record that is empty or names a
registered state, no invocation fails to resume, and the states that are run are a walk
in the graph: a state stays due until it completes, then an edge out of it is followed,
or the workflow starts over at its initial state. -/
theorem session_walks (r : Resumable σ ε C) {w w' : σ} {log : List (Invocation σ ε C)}
    (hw : r.Resumes w) (h : r.Session w log w') :
    r.Walk (r.stored w) log (r.stored w') ∧ r.Resumes w' := by
  induction h with
  | nil w => exact ⟨.nil _, hw⟩
  | @others w w₁ w' log kept rest ih =>
    have hstored : r.stored w₁ = r.stored w := congrArg Progress.nextState kept
    rw [← hstored]
    refine ih ?_
    rw [Resumable.Resumes, hstored]
    exact hw
  | @invoke w w' log ctx rest ih =>
    obtain ⟨hafter, hwalk⟩ := hw.walk_cons ctx
    obtain ⟨hrest, hw'⟩ := ih hafter
    exact ⟨hwalk log _ hrest, hw'⟩

/-! A workflow that goes back and forth between two states. -/

section RoundTrip

open Scripted

/-- The state in which a workflow goes forth; it completes once it is ready. -/
def forth : State Scripted String Variables :=
  ⟨"forth", action 1 "forth" [] .requeue, some (check 2 "forth" none (.nonzero "ready"))⟩

/-- The state in which a workflow goes back; it may fail. -/
def back : State Scripted String Variables :=
  ⟨"back", action 3 "back" [.failIf (.nonzero "broken") "broken"] .requeue, none⟩

/-- The way there and the way back, which is taken when it is asked for. -/
def roundTripGraph : Graph Scripted String Variables where
  states := [forth, back]
  edges := [⟨"forth", "back", Scripted.guard "to_back" (.const true)⟩,
    ⟨"back", "forth", Scripted.guard "to_forth" (.nonzero "again")⟩]

theorem build_roundTrip :
    Graph.build [.transition forth back (Scripted.guard "to_back" (.const true)),
      .transition back forth (Scripted.guard "to_forth" (.nonzero "again"))] = roundTripGraph := by
  rfl

theorem Scripted.save_apply (next : String) (w : World) :
    (∃ message, (save next w).1 = .error message ∧ (save next w).2.record = w.record) ∨
      (save next w).1 = .ok () ∧ (save next w).2.record.nextState = next := by
  rcases w with ⟨trace, slept, record, _ | message⟩
  · exact .inr ⟨rfl, rfl⟩
  · exact .inl ⟨message, rfl, rfl⟩

/-- A workflow that may go round and round. -/
def roundTrip : Resumable World String Variables where
  registrations :=
    [.transition forth back (Scripted.guard "to_back" (.const true)),
      .transition back forth (Scripted.guard "to_forth" (.nonzero "again"))]
  initial := "forth"
  record := World.record
  save := Scripted.save
  pacer := recordingPacer
  contains_initial := by decide +kernel
  nextState_save next w w' h := by
    rcases save_apply next w with ⟨message, hfailed, -⟩ | ⟨-, hstored⟩
    · rw [h] at hfailed
      cases hfailed
    · rwa [h] at hstored
  record_failed_save next w cause w' h := by
    rcases save_apply next w with ⟨message, -, hkept⟩ | ⟨hsaved, -⟩
    · rwa [h] at hkept
    · rw [h] at hsaved
      cases hsaved
  record_before w := rfl
  record_after w := rfl
  record_action := by
    rw [build_roundTrip]
    intro state hstate ctx w
    rw [roundTripGraph, List.mem_cons, List.mem_singleton] at hstate
    rcases hstate with rfl | rfl <;> rfl
  record_check := by
    rw [build_roundTrip]
    intro state hstate check hcheck ctx w
    rw [roundTripGraph, List.mem_cons, List.mem_singleton] at hstate
    rcases hstate with rfl | rfl
    · obtain rfl := Option.some.inj hcheck
      rfl
    · cases hcheck
  record_guard := by
    rw [build_roundTrip]
    intro edge hedge ctx w
    rw [roundTripGraph, List.mem_cons, List.mem_singleton] at hedge
    rcases hedge with rfl | rfl <;> rfl

/-- Surroundings in which nothing has happened. -/
def World.fresh : World := ⟨[], .none, .fresh, none⟩

/-- The same surroundings, except that the record cannot be written. -/
def World.readOnly : World := { World.fresh with failing := some "down" }

theorem session_walks_round_trip :
    ∃ log w', roundTrip.Resumes .readOnly ∧ roundTrip.Session .readOnly log w' ∧
      log.map (fun inv => roundTrip.due inv.before) =
        ["forth", "forth", "forth", "back", "back", "forth", "back", "forth"] ∧
      roundTrip.Walk "" log "" ∧ roundTrip.Resumes w' := by
  have hstart : roundTrip.Resumes .readOnly := .inl rfl
  -- The first save fails; then the record can be written again.
  have hsession := Resumable.Session.invoke (r := roundTrip) (w := .readOnly) [("ready", 1)] <|
    .others (show roundTrip.record .fresh = _ from rfl) <|
    .invoke [] <| .invoke [("ready", 1)] <| .invoke [("broken", 1)] <| .invoke [("again", 1)] <|
    .invoke [("ready", 1)] <| .invoke [] <| .invoke [] <| .nil _
  have hwalks := session_walks roundTrip hstart hsession
  exact ⟨_, _, hstart, hsession, by decide +kernel, hwalks⟩

end RoundTrip

end Reconciliation
