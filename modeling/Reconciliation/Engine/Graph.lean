/-
# Transition graphs

A graph knows the states of a workflow by name and, for each state, the edges
that leave it, in the order in which they were added.  The first edge whose guard
holds is the one to take.

Two registrations under one name agree when they share the instances of the
action and of the completion check; each instance carries a number that tells it
from every other one.  Cycles are allowed: whether a workflow ends is up to its
guards.

Actions, checks and guards run in a monad `m`, so that they may have effects; `ε`
is the type of their failures and `C` the context they work on.
-/

import Reconciliation.Engine.Outcome
import Reconciliation.Engine.Failure
import Reconciliation.Text.Quoted

namespace Reconciliation

/-- A unit of work.  It is run again from the start on every retry, so it has to
be safe to run again. -/
structure Action (m : Type → Type) (ε C : Type) where
  /-- Tells this action from every other one. -/
  id : Nat
  /-- The work: an outcome or a failure, and the context as it leaves it. -/
  run : C → m (Except ε Outcome × C)

/-- Decides whether a state's work has converged after its action ran. -/
structure Check (m : Type → Type) (ε C : Type) where
  /-- Tells this check from every other one. -/
  id : Nat
  isComplete : C → m (Except ε Bool)

/-- A named unit of work.  Without a check it is complete as soon as its action
succeeds. -/
structure State (m : Type → Type) (ε C : Type) where
  name : String
  action : Action m ε C
  check : Option (Check m ε C)

namespace State

variable {m : Type → Type} {ε C : Type}

/-- The same state with this completion check. -/
def withCheck (state : State m ε C) (check : Check m ε C) : State m ε C :=
  { state with check := some check }

/-- Whether the state has a completion check. -/
def hasCheck (state : State m ε C) : Bool := state.check.isSome

/-- Whether two states share the instances of their action and of their check. -/
def sameDefinition (a b : State m ε C) : Bool :=
  a.action.id = b.action.id && a.check.map Check.id = b.check.map Check.id

/-- How a state is shown. -/
def describe (state : State m ε C) : String :=
  "State \x7b name: " ++ quoted state.name ++ ", has_completion_check: " ++
    toString state.hasCheck ++ " \x7d"

end State

/-- A guarded edge between two states. -/
structure Edge (m : Type → Type) (C : Type) where
  source : String
  target : String
  guard : C → m Bool

/-- How an edge is shown. -/
def Edge.describe {m : Type → Type} {C : Type} (edge : Edge m C) : String :=
  "Transition \x7b from: " ++ quoted edge.source ++ ", to: " ++ quoted edge.target ++ " \x7d"

/-- The guard that always holds. -/
def always {m : Type → Type} {C : Type} [Monad m] : C → m Bool := fun _ => pure true

/-- The guard with a fixed value. -/
def fixedGuard {m : Type → Type} {C : Type} [Monad m] (value : Bool) : C → m Bool :=
  fun _ => pure value

/-- The guard that evaluates a predicate of the context. -/
def guardOf {m : Type → Type} {C : Type} [Monad m] (holds : C → Bool) : C → m Bool :=
  fun ctx => pure (holds ctx)

/-- States by name, and the edges between them in the order they were added. -/
structure Graph (m : Type → Type) (ε C : Type) where
  states : List (State m ε C)
  edges : List (Edge m C)

namespace Graph

variable {m : Type → Type} {ε C : Type}

/-- The graph without states. -/
def empty : Graph m ε C := ⟨[], []⟩

/-- The state registered under a name. -/
def state? (graph : Graph m ε C) (name : String) : Option (State m ε C) :=
  graph.states.find? fun state => state.name = name

/-- Whether a state is registered under a name. -/
def contains (graph : Graph m ε C) (name : String) : Bool := (graph.state? name).isSome

/-- The edges that leave a state, in the order they were added. -/
def edgesFrom (graph : Graph m ε C) (name : String) : List (Edge m C) :=
  graph.edges.filter fun edge => edge.source = name

/-- Why a state may not be registered: its name is empty, or another definition
has that name. -/
def refusal? (graph : Graph m ε C) (state : State m ε C) : Option ConfigError :=
  if state.name = "" then some .emptyStateName
  else match graph.state? state.name with
    | some existing =>
      if existing.sameDefinition state then none else some (.conflictingState state.name)
    | none => none

/-- The graph after a state has been accepted; a registered name keeps its state. -/
def accept (graph : Graph m ε C) (state : State m ε C) : Graph m ε C :=
  if graph.contains state.name then graph
  else { graph with states := graph.states ++ [state] }

/-- Registers a state without adding an edge.  Registering a state again changes
nothing; another definition under a taken name is refused. -/
def register (graph : Graph m ε C) (state : State m ε C) :
    Except ConfigError Unit × Graph m ε C :=
  match graph.refusal? state with
  | some error => (.error error, graph)
  | none => (.ok (), graph.accept state)

/-- Registers both ends and adds an edge after all others.  Both ends are looked
at before either is registered. -/
def addTransition (graph : Graph m ε C) (source target : State m ε C) (guard : C → m Bool) :
    Except ConfigError Unit × Graph m ε C :=
  match graph.refusal? source with
  | some error => (.error error, graph)
  | none =>
    match graph.refusal? target with
    | some error => (.error error, graph)
    | none =>
      match (graph.accept source).register target with
      | (.error error, graph) => (.error error, graph)
      | (.ok (), graph) =>
        (.ok (), { graph with edges := graph.edges ++ [⟨source.name, target.name, guard⟩] })

/-- The first edge whose guard holds, the guards being asked in order. -/
def firstAllowed [Monad m] (ctx : C) : List (Edge m C) → m (Option (Edge m C))
  | [] => pure none
  | edge :: edges => do
    if ← edge.guard ctx then pure (some edge) else firstAllowed ctx edges

/-- The edge to take out of a state, if one is allowed. -/
def resolveNext [Monad m] (graph : Graph m ε C) (name : String) (ctx : C) :
    m (Option (Edge m C)) :=
  firstAllowed ctx (graph.edgesFrom name)

@[simp] theorem state?_empty (name : String) : (empty : Graph m ε C).state? name = none := rfl

/-- A state is found under its name. -/
theorem name_of_state? {graph : Graph m ε C} {name : String} {state : State m ε C}
    (h : graph.state? name = some state) : state.name = name := by
  rw [state?] at h
  simpa using List.find?_some h

/-- A registered name keeps its state. -/
theorem accept_of_contains {graph : Graph m ε C} {state : State m ε C}
    (h : graph.contains state.name = true) : graph.accept state = graph := by
  simp [accept, h]

/-- After a state has been accepted, every other name is as before. -/
theorem state?_accept_of_ne {graph : Graph m ε C} {state : State m ε C} {name : String}
    (h : state.name ≠ name) : (graph.accept state).state? name = graph.state? name := by
  unfold accept
  split
  · rfl
  · simp [state?, List.find?_append, h]

/-- An accepted name is registered. -/
theorem contains_accept (graph : Graph m ε C) (state : State m ε C) :
    (graph.accept state).contains state.name = true := by
  unfold accept
  split
  · assumption
  · simp [contains, state?, List.find?_append]

/-- A registered name stays registered. -/
theorem contains_accept_of_contains {graph : Graph m ε C} {name : String}
    (h : graph.contains name = true) (state : State m ε C) :
    (graph.accept state).contains name = true := by
  by_cases hname : state.name = name
  · exact hname ▸ graph.contains_accept state
  · rwa [contains, state?_accept_of_ne hname]

/-- Registering keeps the edges. -/
@[simp] theorem edges_accept (graph : Graph m ε C) (state : State m ε C) :
    (graph.accept state).edges = graph.edges := by
  unfold accept
  split <;> rfl

/-- A refused registration changes nothing. -/
theorem register_error {graph after : Graph m ε C} {state : State m ε C} {error : ConfigError}
    (h : graph.register state = (.error error, after)) : after = graph := by
  unfold register at h
  split at h
  · exact (Prod.mk.inj h).2.symm
  · cases (Prod.mk.inj h).1

end Graph
end Reconciliation
