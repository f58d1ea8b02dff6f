/-
# What can go wrong in the engine

A `ConfigError` means that no machine could be built or pointed at a state; a
`TickError` means that a collaborator failed during a tick and carries that
collaborator's own failure.
-/

import Reconciliation.Json.Value

namespace Reconciliation

/-- Errors in the definition of a graph or in the choice of a state. -/
inductive ConfigError where
  | emptyStateName
  | conflictingState (name : String)
  | unregisteredState (name : String)
  | invalidProgress (fault : Json.Fault)
deriving DecidableEq, Repr

namespace ConfigError

/-- What a fault of a progress record is called. -/
def faultText : Json.Fault → String
  | .cutShort => "the text ends too early"
  | .malformed => "the text is not JSON"
  | .mismatch => "the text does not hold a progress record"

/-- The message of an error. -/
def message : ConfigError → String
  | emptyStateName => "state name must not be empty"
  | conflictingState name =>
    "state [" ++ name ++ "] was registered twice with different definitions"
  | unregisteredState name =>
    "attempted to set the current state to [" ++ name ++
      "], but it was not registered with the state machine"
  | invalidProgress fault => "invalid progress record: " ++ faultText fault

end ConfigError

/-- The failure of a collaborator during a tick, with the state that was active. -/
inductive TickError (ε : Type) where
  | action (state : String) (cause : ε)
  | completionCheck (state : String) (cause : ε)
  | persistence (state next : String) (cause : ε)
deriving DecidableEq, Repr

namespace TickError

variable {ε : Type}

/-- The state that was active when the tick failed. -/
def state : TickError ε → String
  | action state _ => state
  | completionCheck state _ => state
  | persistence state _ _ => state

/-- The collaborator's own failure. -/
def cause : TickError ε → ε
  | action _ cause => cause
  | completionCheck _ cause => cause
  | persistence _ _ cause => cause

/-- The message of an error, given how the collaborator's failure is worded. -/
def message (wording : ε → String) : TickError ε → String
  | action state cause =>
    "error reconciling state [" ++ state ++ "]: " ++ wording cause
  | completionCheck state cause =>
    "error determining if state [" ++ state ++ "] is complete: " ++ wording cause
  | persistence state next cause =>
    "error saving next state [" ++ next ++ "] after completing [" ++ state ++ "]: " ++
      wording cause

end TickError
end Reconciliation
