/-
# What a tick calls

A tick calls its collaborators in a fixed order: the action, the completion check, the
guards of the edges that leave the state, and then the progress store between the two
halves of the pacer.  Each of them may do anything to its surroundings `σ` and answer
anything, also something else every time it is asked.

A machine is watched by noting each call down right before it is made
(`Machine.watched`).  Watching does not change what a tick does, and what is noted
down follows the law `Machine.Ticked` (`tick_law`): one case for each of the five ways
in which a tick can end.
-/

import Reconciliation.Engine.Counters

namespace Reconciliation

variable {σ ε C α : Type}

/-! ## Watching the collaborators -/

/-- A call of the engine to a collaborator, with the context that it is shown. -/
inductive EngineCall (σ C : Type) where
  | action (state : String) (ctx : C)
  | check (state : String) (ctx : C)
  | guard (edge : Edge (StateM σ) C) (ctx : C)
  | beforeSave
  | save (next : String)
  | afterSave

/-- Surroundings in which the calls are noted down, the latest last. -/
abbrev Watched (σ C : Type) := StateM (σ × List (EngineCall σ C))

/-- Notes a call down and makes it. -/
def watch (call : EngineCall σ C) (x : StateM σ α) : Watched σ C α := fun (w, calls) =>
  ((x w).1, ((x w).2, calls ++ [call]))

theorem watch_apply (call : EngineCall σ C) (x : StateM σ α) (w : σ)
    (calls : List (EngineCall σ C)) :
    watch call x (w, calls) = ((x w).1, ((x w).2, calls ++ [call])) := rfl

/-- The state with its action and its check watched. -/
def State.watched (state : State (StateM σ) ε C) : State (Watched σ C) ε C where
  name := state.name
  action := ⟨state.action.id, fun ctx => watch (.action state.name ctx) (state.action.run ctx)⟩
  check := state.check.map fun check =>
    ⟨check.id, fun ctx => watch (.check state.name ctx) (check.isComplete ctx)⟩

/-- The edge with its guard watched. -/
def Edge.watched (edge : Edge (StateM σ) C) : Edge (Watched σ C) C :=
  ⟨edge.source, edge.target, fun ctx => watch (.guard edge ctx) (edge.guard ctx)⟩

/-- The graph with all its states and edges watched. -/
def Graph.watched (graph : Graph (StateM σ) ε C) : Graph (Watched σ C) ε C :=
  ⟨graph.states.map State.watched, graph.edges.map Edge.watched⟩

/-- The machine with all its collaborators watched. -/
def Machine.watched (machine : Machine (StateM σ) ε C) : Machine (Watched σ C) ε C where
  graph := machine.graph.watched
  current := machine.current.watched
  save next := watch (.save next) (machine.save next)
  pacer := ⟨watch .beforeSave machine.pacer.before, watch .afterSave machine.pacer.after⟩

/-- The watched graph has the same edges out of a state, in the same order. -/
theorem Graph.edgesFrom_watched (graph : Graph (StateM σ) ε C) (name : String) :
    graph.watched.edgesFrom name = (graph.edgesFrom name).map Edge.watched := by
  simp only [edgesFrom, watched, List.filter_map]
  rfl

/-! ## The law -/

/-- Guards that are asked in order and all refuse. -/
inductive Refused (ctx : C) : List (Edge (StateM σ) C) → σ → σ → Prop
  | nil (w : σ) : Refused ctx [] w w
  | cons {edge : Edge (StateM σ) C} {edges : List (Edge (StateM σ) C)} {w w₁ w' : σ}
      (refuses : edge.guard ctx w = (false, w₁)) (rest : Refused ctx edges w₁ w') :
      Refused ctx (edge :: edges) w w'

/-- `Chosen ctx edges w asked next w'`: of the edges the guards of `asked` are asked, and
`next` is where to go. -/
inductive Chosen (ctx : C) (edges : List (Edge (StateM σ) C)) (w : σ) :
    List (Edge (StateM σ) C) → String → σ → Prop
  /-- The guards up to one refuse, and that one holds. -/
  | edge {passed rest : List (Edge (StateM σ) C)} {edge : Edge (StateM σ) C} {w₁ w' : σ}
      (split : edges = passed ++ edge :: rest) (refused : Refused ctx passed w w₁)
      (holds : edge.guard ctx w₁ = (true, w')) :
      Chosen ctx edges w (passed ++ [edge]) edge.target w'
  /-- All guards refuse: there is nowhere to go. -/
  | nowhere {w' : σ} (refused : Refused ctx edges w w') : Chosen ctx edges w edges "" w'

/-- `Judged state ctx w calls verdict w'`: the state is complete by its check, or because
it has none. -/
inductive Judged (state : State (StateM σ) ε C) (ctx : C) (w : σ) :
    List (EngineCall σ C) → Except ε Bool → σ → Prop
  | unchecked (noCheck : state.check = none) : Judged state ctx w [] (.ok true) w
  | checked {check : Check (StateM σ) ε C} {verdict : Except ε Bool} {w' : σ}
      (hasCheck : state.check = some check) (checks : check.isComplete ctx w = (verdict, w')) :
      Judged state ctx w [.check state.name ctx] verdict w'

/-- `machine.Ticked ctx w calls result event ctx' w'`: a tick on a context makes these calls
one after the other, gives the result, counts the event, and leaves the other context and
surroundings behind. -/
inductive Machine.Ticked (machine : Machine (StateM σ) ε C) (ctx : C) (w : σ) :
    List (EngineCall σ C) → Except (TickError ε) Outcome → Event → C → σ → Prop
  /-- The action fails. -/
  | actionFailed {cause : ε} {ctx' : C} {w' : σ}
      (acts : machine.current.action.run ctx w = ((.error cause, ctx'), w')) :
      Ticked machine ctx w [.action machine.current.name ctx]
        (.error (.action machine.current.name cause)) .actionError ctx' w'
  /-- The completion check fails. -/
  | checkFailed {outcome : Outcome} {cause : ε} {ctx' : C} {w₁ w' : σ}
      {checks : List (EngineCall σ C)}
      (acts : machine.current.action.run ctx w = ((.ok outcome, ctx'), w₁))
      (judged : Judged machine.current ctx' w₁ checks (.error cause) w') :
      Ticked machine ctx w ([.action machine.current.name ctx] ++ checks)
        (.error (.completionCheck machine.current.name cause)) .completionCheckError ctx' w'
  /-- The state is not complete yet. -/
  | incomplete {outcome : Outcome} {ctx' : C} {w₁ w' : σ} {checks : List (EngineCall σ C)}
      (acts : machine.current.action.run ctx w = ((.ok outcome, ctx'), w₁))
      (judged : Judged machine.current ctx' w₁ checks (.ok false) w') :
      Ticked machine ctx w ([.action machine.current.name ctx] ++ checks) (.ok outcome)
        .incomplete ctx' w'
  /-- The name of the next state cannot be saved. -/
  | unsaved {outcome : Outcome} {cause : ε} {ctx' : C} {w₁ w₂ w₃ w₄ w' : σ} {next : String}
      {checks : List (EngineCall σ C)} {asked : List (Edge (StateM σ) C)}
      (acts : machine.current.action.run ctx w = ((.ok outcome, ctx'), w₁))
      (judged : Judged machine.current ctx' w₁ checks (.ok true) w₂)
      (chosen : Chosen ctx' (machine.graph.edgesFrom machine.current.name) w₂ asked next w₃)
      (before : machine.pacer.before w₃ = ((), w₄))
      (saves : machine.save next w₄ = (.error cause, w')) :
      Ticked machine ctx w
        ([.action machine.current.name ctx] ++ checks ++ asked.map (.guard · ctx') ++
          [.beforeSave, .save next])
        (.error (.persistence machine.current.name next cause)) .persistenceError ctx' w'
  /-- The name of the next state is saved. -/
  | saved {outcome : Outcome} {ctx' : C} {w₁ w₂ w₃ w₄ w₅ w' : σ} {next : String}
      {checks : List (EngineCall σ C)} {asked : List (Edge (StateM σ) C)}
      (acts : machine.current.action.run ctx w = ((.ok outcome, ctx'), w₁))
      (judged : Judged machine.current ctx' w₁ checks (.ok true) w₂)
      (chosen : Chosen ctx' (machine.graph.edgesFrom machine.current.name) w₂ asked next w₃)
      (before : machine.pacer.before w₃ = ((), w₄))
      (saves : machine.save next w₄ = (.ok (), w₅))
      (after : machine.pacer.after w₅ = ((), w')) :
      Ticked machine ctx w
        ([.action machine.current.name ctx] ++ checks ++ asked.map (.guard · ctx') ++
          [.beforeSave, .save next, .afterSave])
        (.ok outcome) .transition ctx' w'

/-! ## A tick, one call after the other -/

section Apply

variable {τ : Type}

/-- One computation after another, in the surroundings that the first left. -/
theorem stateM_bind_apply {β : Type} (x : StateM τ α) (f : α → StateM τ β) (s : τ) :
    (x >>= f) s = f (x s).1 (x s).2 := rfl

theorem stateM_pure_apply (a : α) (s : τ) : (pure a : StateM τ α) s = (a, s) := rfl

namespace Machine

variable {machine : Machine (StateM τ) ε C} {outcome : Outcome} {ctx ctx' : C} {cause : ε}
  {edge? : Option (Edge (StateM τ) C)} {next : String} {s s₁ s₂ s₃ s₄ : τ}

theorem advance_of_error
    (hedge : machine.graph.resolveNext machine.current.name ctx s = (edge?, s₁))
    (hnext : (edge?.map Edge.target).getD "" = next) (hbefore : machine.pacer.before s₁ = ((), s₂))
    (hsave : machine.save next s₂ = (.error cause, s₃)) :
    machine.advance outcome ctx s = (.saveFailed machine.current.name next cause, s₃) := by
  simp only [advance, persist, stateM_bind_apply, hedge, hnext, hbefore, hsave, stateM_pure_apply]

theorem advance_of_ok
    (hedge : machine.graph.resolveNext machine.current.name ctx s = (edge?, s₁))
    (hnext : (edge?.map Edge.target).getD "" = next) (hbefore : machine.pacer.before s₁ = ((), s₂))
    (hsave : machine.save next s₂ = (.ok (), s₃)) (hafter : machine.pacer.after s₃ = ((), s₄)) :
    machine.advance outcome ctx s = (.advanced next outcome, s₄) := by
  simp only [advance, persist, stateM_bind_apply, hedge, hnext, hbefore, hsave, hafter,
    stateM_pure_apply]

theorem tick_of_error (hact : machine.current.action.run ctx s = ((.error cause, ctx'), s₁)) :
    machine.tick ctx s = ((.actionFailed machine.current.name cause, ctx'), s₁) := by
  simp only [tick, stateM_bind_apply, hact, stateM_pure_apply]

theorem tick_of_ok (hact : machine.current.action.run ctx s = ((.ok outcome, ctx'), s₁)) :
    machine.tick ctx s =
      match verdict machine.current ctx' s₁ with
      | (.error cause, s₂) => ((.checkFailed machine.current.name cause, ctx'), s₂)
      | (.ok false, s₂) => ((.incomplete outcome, ctx'), s₂)
      | (.ok true, s₂) =>
        (((machine.advance outcome ctx' s₂).1, ctx'), (machine.advance outcome ctx' s₂).2) := by
  simp only [tick, stateM_bind_apply, hact]
  rcases verdict machine.current ctx' s₁ with ⟨cause | _ | _, s₂⟩ <;> rfl

end Machine
end Apply

/-! ## Watched calls follow the law -/

/-- What a tick that ended like this counts besides itself. -/
def Ending.event : Ending ε → Event
  | .actionFailed _ _ => .actionError
  | .checkFailed _ _ => .completionCheckError
  | .incomplete _ => .incomplete
  | .saveFailed _ _ _ => .persistenceError
  | .advanced _ _ => .transition

theorem Ending.events_eq (ending : Ending ε) : ending.events = [.tick, ending.event] := by
  cases ending <;> rfl

/-- An edge that refuses is asked before all others. -/
theorem Chosen.cons {ctx : C} {edge : Edge (StateM σ) C} {edges asked : List (Edge (StateM σ) C)}
    {w w₁ w' : σ} {next : String} (refuses : edge.guard ctx w = (false, w₁))
    (h : Chosen ctx edges w₁ asked next w') :
    Chosen ctx (edge :: edges) w (edge :: asked) next w' := by
  cases h with
  | edge split refused holds =>
    rw [split, ← List.cons_append, ← List.cons_append]
    exact .edge rfl (.cons refuses refused) holds
  | nowhere refused => exact .nowhere (.cons refuses refused)

/-- Guards are asked in order up to the first that holds. -/
theorem Graph.firstAllowed_watched (ctx : C) (edges : List (Edge (StateM σ) C)) (w : σ)
    (calls : List (EngineCall σ C)) :
    ∃ edge? asked w', Chosen ctx edges w asked ((edge?.map Edge.target).getD "") w' ∧
      (Graph.firstAllowed ctx edges : StateM σ _) w = (edge?, w') ∧
      (Graph.firstAllowed ctx (edges.map Edge.watched) : Watched σ C _) (w, calls) =
        (edge?.map Edge.watched, (w', calls ++ asked.map (.guard · ctx))) := by
  induction edges generalizing w calls with
  | nil => exact ⟨none, [], w, .nowhere (.nil w), rfl, by simp [firstAllowed, stateM_pure_apply]⟩
  | cons edge edges ih =>
    have hwatched : edge.watched.guard ctx (w, calls) =
        ((edge.guard ctx w).1, ((edge.guard ctx w).2, calls ++ [.guard edge ctx])) := rfl
    simp only [firstAllowed, List.map_cons, stateM_bind_apply, hwatched]
    cases hguard : edge.guard ctx w with
    | mk holds w₁ =>
      cases holds with
      | true =>
        have hsplit : edge :: edges = [] ++ edge :: edges := rfl
        exact ⟨some edge, [edge], w₁, .edge hsplit (.nil w) hguard, rfl, rfl⟩
      | false =>
        obtain ⟨edge?, asked, w', hchosen, hrun, hrest⟩ := ih w₁ (calls ++ [.guard edge ctx])
        refine ⟨edge?, edge :: asked, w', hchosen.cons hguard, hrun, ?_⟩
        simpa using hrest

/-- A state is complete by its check, or because it has none. -/
theorem Machine.verdict_watched (state : State (StateM σ) ε C) (ctx : C) (w : σ)
    (calls : List (EngineCall σ C)) :
    ∃ verdict checks w', Judged state ctx w checks verdict w' ∧
      (Machine.verdict state ctx : StateM σ _) w = (verdict, w') ∧
      (Machine.verdict state.watched ctx : Watched σ C _) (w, calls) =
        (verdict, (w', calls ++ checks)) := by
  cases hcheck : state.check with
  | none =>
    refine ⟨.ok true, [], w, .unchecked hcheck, ?_, ?_⟩ <;>
      simp [Machine.verdict, State.watched, hcheck, stateM_pure_apply]
  | some check =>
    cases hchecks : check.isComplete ctx w with
    | mk verdict w' =>
      refine ⟨verdict, [.check state.name ctx], w', .checked hcheck hchecks, ?_, ?_⟩ <;>
        simp [Machine.verdict, State.watched, hcheck, hchecks, watch_apply]

/-- A complete state is left by the chosen edge, and its target is saved. -/
theorem Machine.advance_watched {machine : Machine (StateM σ) ε C} {outcome : Outcome}
    {ctx ctx' : C} {w w₁ w₂ : σ} {checks : List (EngineCall σ C)}
    (acts : machine.current.action.run ctx w = ((.ok outcome, ctx'), w₁))
    (judged : Judged machine.current ctx' w₁ checks (.ok true) w₂) :
    ∃ ending calls w', machine.advance outcome ctx' w₂ = (ending, w') ∧
      machine.watched.advance outcome ctx'
        (w₂, [.action machine.current.name ctx] ++ checks) = (ending, (w', calls)) ∧
      machine.Ticked ctx w calls ending.result ending.event ctx' w' := by
  obtain ⟨edge?, asked, w₃, hchosen, hedge, hedge'⟩ :=
    Graph.firstAllowed_watched ctx' (machine.graph.edgesFrom machine.current.name) w₂
      ([.action machine.current.name ctx] ++ checks)
  rw [← Graph.edgesFrom_watched] at hedge'
  have hnext : ((edge?.map Edge.watched).map Edge.target).getD "" =
      (edge?.map Edge.target).getD "" := by
    rw [Option.map_map]
    rfl
  cases hbefore : machine.pacer.before w₃ with
  | mk _ w₄ =>
    have hbefore' : ∀ calls, machine.watched.pacer.before (w₃, calls) =
        ((), (w₄, calls ++ [.beforeSave])) := by
      intro calls
      show watch .beforeSave machine.pacer.before (w₃, calls) = _
      rw [watch_apply, hbefore]
    have hsave' : ∀ next calls, machine.watched.save next (w₄, calls) =
        ((machine.save next w₄).1, ((machine.save next w₄).2, calls ++ [.save next])) :=
      fun _ _ => rfl
    cases hsave : machine.save ((edge?.map Edge.target).getD "") w₄ with
    | mk saved w₅ =>
      cases saved with
      | error cause =>
        refine ⟨_, _, _, advance_of_error hedge rfl hbefore hsave,
          advance_of_error hedge' hnext (hbefore' _) ((hsave' _ _).trans (by rw [hsave])), ?_⟩
        simpa [Ending.result, Ending.event] using Ticked.unsaved acts judged hchosen hbefore hsave
      | ok =>
        cases hafter : machine.pacer.after w₅ with
        | mk _ w₆ =>
          have hafter' : ∀ calls, machine.watched.pacer.after (w₅, calls) =
              ((), (w₆, calls ++ [.afterSave])) := by
            intro calls
            show watch .afterSave machine.pacer.after (w₅, calls) = _
            rw [watch_apply, hafter]
          refine ⟨_, _, _, advance_of_ok hedge rfl hbefore hsave hafter,
            advance_of_ok hedge' hnext (hbefore' _) ((hsave' _ _).trans (by rw [hsave]))
              (hafter' _), ?_⟩
          simpa [Ending.result, Ending.event] using
            Ticked.saved acts judged hchosen hbefore hsave hafter

/-- A tick follows the law, watched or not. -/
theorem Machine.tick_watched (machine : Machine (StateM σ) ε C) (ctx : C) (w : σ) :
    ∃ ending ctx' w' calls,
      machine.watched.tick ctx (w, []) = ((ending, ctx'), (w', calls)) ∧
      machine.tick ctx w = ((ending, ctx'), w') ∧
      machine.Ticked ctx w calls ending.result ending.event ctx' w' := by
  have hwatched : machine.watched.current.action.run ctx (w, []) =
      ((machine.current.action.run ctx w).1, ((machine.current.action.run ctx w).2,
        [.action machine.current.name ctx])) := rfl
  rcases hact : machine.current.action.run ctx w with ⟨⟨cause | outcome, ctx'⟩, w₁⟩
  · rw [hact] at hwatched
    exact ⟨_, ctx', w₁, _, tick_of_error hwatched, tick_of_error hact, .actionFailed hact⟩
  · rw [hact] at hwatched
    rw [tick_of_ok hwatched, tick_of_ok hact]
    obtain ⟨verdict, checks, w₂, hjudged, hverdict, hverdict'⟩ :=
      verdict_watched machine.current ctx' w₁ [.action machine.current.name ctx]
    have hcurrent : machine.watched.current = machine.current.watched := rfl
    rw [hcurrent, hverdict, hverdict']
    rcases verdict with cause | complete
    · exact ⟨_, ctx', w₂, _, rfl, rfl, .checkFailed hact hjudged⟩
    · cases complete with
      | false => exact ⟨_, ctx', w₂, _, rfl, rfl, .incomplete hact hjudged⟩
      | true =>
        obtain ⟨ending, calls, w', hrun, hrun', hticked⟩ := advance_watched hact hjudged
        refine ⟨ending, ctx', w', calls, ?_, ?_, hticked⟩
        · simp only [hrun']
        · simp only [hrun]

/-- **The tick law.**  A tick makes the calls of the law, one after the other, and gives
its result; watching it does not change what it does.  It counts itself and exactly one
of the five other events.  It gives no other machine, so the machine still points at the
state that was run, also when the name of another one was saved. -/
theorem tick_law (machine : Machine (StateM σ) ε C) (ctx : C) (w : σ) :
    ∃ ending ctx' w' calls,
      machine.watched.tick ctx (w, []) = ((ending, ctx'), (w', calls)) ∧
      machine.tick ctx w = ((ending, ctx'), w') ∧
      machine.Ticked ctx w calls ending.result ending.event ctx' w' ∧
      ending.event ≠ .tick ∧ ∀ counters : Counters,
        counters.recordAll ending.events = (counters.record .tick).record ending.event := by
  obtain ⟨ending, ctx', w', calls, hwatched, hrun, hticked⟩ := machine.tick_watched ctx w
  refine ⟨ending, ctx', w', calls, hwatched, hrun, hticked, ?_, fun counters => ?_⟩
  · cases ending <;> nofun
  · rw [ending.events_eq]
    rfl

end Reconciliation
