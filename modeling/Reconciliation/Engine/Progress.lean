/-
# Progress records

The progress of a state machine is kept outside of it, as a small JSON text.  An
empty name of the next state means that no resume point was recorded, and the
machine starts at its initial state.  The completion notes may be written as
`null` when there are none.
-/

import Reconciliation.Json.Codec

namespace Reconciliation

/-- The persisted progress of a state machine. -/
structure Progress where
  nextState : String
  completion : Table
deriving DecidableEq

namespace Progress

/-- The record of a machine that has not started. -/
def fresh : Progress := ⟨"", .empty⟩

instance : Inhabited Progress := ⟨fresh⟩

/-- The record that resumes at a state. -/
def resumingAt (state : String) : Progress := ⟨state, .empty⟩

/-- The state to resume at, if one was recorded. -/
def resumePoint? (record : Progress) : Option String :=
  if record.nextState = "" then none else some record.nextState

/-- Exactly an empty name is no resume point. -/
theorem resumePoint?_eq_none_iff (record : Progress) :
    record.resumePoint? = none ↔ record.nextState = "" := by
  unfold resumePoint?
  split <;> simp_all

instance : Json.Codec Progress where
  shape := .record [
    Json.optional "nextState" "",
    ("stateCompletion", .filled (.object []), .nullable (.object []) .table)]
  toValue record := .object [
    ("nextState", Json.toValue record.nextState),
    ("stateCompletion", Json.toValue record.completion)]
  ofValue
    | .object [(_, nextState), (_, completion)] => do
      some ⟨← Json.ofValue nextState, ← Json.ofValue completion⟩
    | _ => none

/-- The JSON text of a record. -/
def toJson (record : Progress) : String := Json.encode record

/-- Reads a record from its JSON text. -/
def ofJson (text : String) : Except Json.Fault Progress := Json.decode text

end Progress
end Reconciliation
