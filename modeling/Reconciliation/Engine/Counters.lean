/-
# Counters

How often something happened in all ticks so far.
-/

import Reconciliation.Engine.Machine

namespace Reconciliation

/-- What is counted. -/
inductive Event where
  | tick
  | transition
  | incomplete
  | actionError
  | completionCheckError
  | persistenceError
deriving DecidableEq, Repr

/-- How often each event happened.  The counters are not bounded.  Counted in words of 64 bits
they would be the same modulo `2 ^ 64`, and a tick in every nanosecond takes centuries to get
there. -/
structure Counters where
  ticks : Nat
  transitions : Nat
  incompleteTicks : Nat
  actionErrors : Nat
  completionCheckErrors : Nat
  persistenceErrors : Nat
deriving DecidableEq, Repr

namespace Counters

/-- Nothing has happened. -/
def zero : Counters := ⟨0, 0, 0, 0, 0, 0⟩

instance : Inhabited Counters := ⟨zero⟩

/-- Counts one event. -/
def record (counters : Counters) : Event → Counters
  | .tick => { counters with ticks := counters.ticks + 1 }
  | .transition => { counters with transitions := counters.transitions + 1 }
  | .incomplete => { counters with incompleteTicks := counters.incompleteTicks + 1 }
  | .actionError => { counters with actionErrors := counters.actionErrors + 1 }
  | .completionCheckError =>
    { counters with completionCheckErrors := counters.completionCheckErrors + 1 }
  | .persistenceError => { counters with persistenceErrors := counters.persistenceErrors + 1 }

/-- Counts events one after the other. -/
def recordAll (counters : Counters) (events : List Event) : Counters :=
  events.foldl record counters

end Counters

/-- What a tick that ended like this counts. -/
def Ending.events {ε : Type} : Ending ε → List Event
  | .actionFailed _ _ => [.tick, .actionError]
  | .checkFailed _ _ => [.tick, .completionCheckError]
  | .incomplete _ => [.tick, .incomplete]
  | .saveFailed _ _ _ => [.tick, .persistenceError]
  | .advanced _ _ => [.tick, .transition]

end Reconciliation
