/-
# The state machine

A machine is built for one invocation from a graph and the persisted progress,
ticked, and dropped; nothing is remembered between ticks except the record.  One
tick runs the current state once and, if the state is complete, writes the name of
the next state.  At most one transition happens in a tick.

A failing action or check leaves the record as it was, so the next invocation runs
the same action again.  A failing write is reported after the action has had its
effects; nothing is rolled back.
-/

import Reconciliation.Engine.Graph
import Reconciliation.Engine.Progress
import Reconciliation.Engine.Pacing

namespace Reconciliation

/-- A state machine at one of the states of its graph. -/
structure Machine (m : Type → Type) (ε C : Type) where
  graph : Graph m ε C
  current : State m ε C
  /-- Writes the name of the state to resume at. -/
  save : String → m (Except ε Unit)
  pacer : Pacer m

/-- How a tick ended. -/
inductive Ending (ε : Type) where
  | actionFailed (state : String) (cause : ε)
  | checkFailed (state : String) (cause : ε)
  | incomplete (outcome : Outcome)
  | saveFailed (state next : String) (cause : ε)
  | advanced (next : String) (outcome : Outcome)

/-- The result of a tick: the action's outcome, or the failure of a collaborator. -/
def Ending.result {ε : Type} : Ending ε → Except (TickError ε) Outcome
  | .actionFailed state cause => .error (.action state cause)
  | .checkFailed state cause => .error (.completionCheck state cause)
  | .incomplete outcome => .ok outcome
  | .saveFailed state next cause => .error (.persistence state next cause)
  | .advanced _ outcome => .ok outcome

namespace Machine

variable {m : Type → Type} {ε C : Type}

/-- Builds a machine at the state to resume at.  The initial state has to be
registered whatever the record says, and a recorded state that is not registered
is refused: a stale record never restarts the workflow elsewhere. -/
def resume [Monad m] (graph : Graph m ε C) (record : Progress) (initial : String)
    (save : String → m (Except ε Unit)) : Except ConfigError (Machine m ε C) :=
  if graph.contains initial then
    let start := record.resumePoint?.getD initial
    match graph.state? start with
    | some state => .ok ⟨graph, state, save, .none⟩
    | none => .error (.unregisteredState start)
  else .error (.unregisteredState initial)

/-- The same machine with this pacer. -/
def withPacer (machine : Machine m ε C) (pacer : Pacer m) : Machine m ε C :=
  { machine with pacer := pacer }

/-- Points the machine at another registered state. -/
def setState (machine : Machine m ε C) (name : String) : Except ConfigError (Machine m ε C) :=
  match machine.graph.state? name with
  | some state => .ok { machine with current := state }
  | none => .error (.unregisteredState name)

/-- The verdict on a state after its action: without a check it is complete. -/
def verdict [Monad m] (state : State m ε C) (ctx : C) : m (Except ε Bool) :=
  match state.check with
  | some check => check.isComplete ctx
  | none => pure (.ok true)

/-- Writes the name of the next state, with the pacer around the write. -/
def persist [Monad m] (machine : Machine m ε C) (next : String) : m (Except ε Unit) := do
  machine.pacer.before
  match ← machine.save next with
  | .error cause => pure (.error cause)
  | .ok () => do
    machine.pacer.after
    pure (.ok ())

/-- Leaves a completed state: resolves the next one and writes its name, or the
empty name when no edge is allowed. -/
def advance [Monad m] (machine : Machine m ε C) (outcome : Outcome) (ctx : C) :
    m (Ending ε) := do
  let edge ← machine.graph.resolveNext machine.current.name ctx
  let next := (edge.map Edge.target).getD ""
  match ← machine.persist next with
  | .error cause => pure (.saveFailed machine.current.name next cause)
  | .ok () => pure (.advanced next outcome)

/-- Runs the current state once and, if it is complete, moves the resume point. -/
def tick [Monad m] (machine : Machine m ε C) (ctx : C) : m (Ending ε × C) := do
  let (result, ctx) ← machine.current.action.run ctx
  match result with
  | .error cause => pure (.actionFailed machine.current.name cause, ctx)
  | .ok outcome => do
    match ← verdict machine.current ctx with
    | .error cause => pure (.checkFailed machine.current.name cause, ctx)
    | .ok false => pure (.incomplete outcome, ctx)
    | .ok true => do
      let ending ← machine.advance outcome ctx
      pure (ending, ctx)

end Machine
end Reconciliation
