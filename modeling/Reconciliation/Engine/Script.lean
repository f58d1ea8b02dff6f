/-
# Scripted states

A small language for trying out graphs without a real workload: contexts are
integer variables, actions are lists of simple steps, checks and guards are
conditions.  Everything that is called leaves a mark in a trace, the progress record
is kept in memory, and its writes can be made to fail.
-/

import Reconciliation.Engine.Machine

namespace Reconciliation

/-- Integer variables by name; a variable that is not there is zero. -/
abbrev Variables := List (String × Int)

namespace Variables

/-- The value of a variable. -/
def value (vars : Variables) (name : String) : Int :=
  match vars.find? fun entry => entry.1 = name with
  | some entry => entry.2
  | none => 0

/-- Gives a variable a value. -/
def assign (vars : Variables) (name : String) (n : Int) : Variables :=
  match vars with
  | [] => [(name, n)]
  | entry :: rest =>
    if entry.1 = name then (name, n) :: rest else entry :: assign rest name n

end Variables

/-- A condition on variables. -/
inductive Condition where
  | const (value : Bool)
  | nonzero (name : String)
  | atLeast (name : String) (n : Int)
  | equals (name : String) (n : Int)
  | not (c : Condition)
  | all (cs : List Condition)
  | any (cs : List Condition)
deriving Inhabited

mutual
/-- Whether a condition holds. -/
def Condition.holds (vars : Variables) : Condition → Bool
  | .const value => value
  | .nonzero name => vars.value name ≠ 0
  | .atLeast name n => n ≤ vars.value name
  | .equals name n => vars.value name = n
  | .not c => !c.holds vars
  | .all cs => allHold vars cs
  | .any cs => someHold vars cs
termination_by structural c => c

/-- Whether all conditions hold. -/
def allHold (vars : Variables) : List Condition → Bool
  | [] => true
  | c :: cs => c.holds vars && allHold vars cs
termination_by structural cs => cs

/-- Whether some condition holds. -/
def someHold (vars : Variables) : List Condition → Bool
  | [] => false
  | c :: cs => c.holds vars || someHold vars cs
termination_by structural cs => cs
end

/-- One step of a scripted action. -/
inductive ScriptStep where
  | set (name : String) (n : Int)
  | add (name : String) (n : Int)
  | fail (message : String)
  | failIf (c : Condition) (message : String)
  | outcomeIf (c : Condition) (outcome : Outcome)

/-- Runs steps one after the other, up to the first that fails. -/
def runSteps : List ScriptStep → Outcome → Variables → Except String Outcome × Variables
  | [], outcome, vars => (.ok outcome, vars)
  | .set name n :: steps, outcome, vars => runSteps steps outcome (vars.assign name n)
  | .add name n :: steps, outcome, vars =>
    runSteps steps outcome (vars.assign name (vars.value name + n))
  | .fail message :: _, _, vars => (.error message, vars)
  | .failIf c message :: steps, outcome, vars =>
    if c.holds vars then (.error message, vars) else runSteps steps outcome vars
  | .outcomeIf c replacement :: steps, outcome, vars =>
    runSteps steps (if c.holds vars then replacement else outcome) vars

/-- The surroundings of scripted states. -/
structure World where
  /-- What was called so far, the latest first. -/
  trace : List String
  /-- The time slept so far. -/
  slept : Duration
  /-- The progress record. -/
  record : Progress
  /-- With what message writes of the record fail, if they do. -/
  failing : Option String

/-- Computations in the surroundings of scripted states. -/
abbrev Scripted := StateM World

namespace Scripted

/-- Leaves a mark. -/
def mark (text : String) : Scripted Unit :=
  modify fun w => { w with trace := text :: w.trace }

/-- Lets time pass. -/
def sleep (d : Duration) : Scripted Unit :=
  modify fun w => { w with slept := w.slept + d }

/-- A scripted action. -/
def action (id : Nat) (name : String) (steps : List ScriptStep) (outcome : Outcome) :
    Action Scripted String Variables where
  id := id
  run vars := do
    mark ("run:" ++ name)
    pure (runSteps steps outcome vars)

/-- A scripted check, which may fail under a condition. -/
def check (id : Nat) (name : String) (failIf : Option (Condition × String)) (c : Condition) :
    Check Scripted String Variables where
  id := id
  isComplete vars := do
    mark ("check:" ++ name)
    match failIf with
    | some (condition, message) =>
      if condition.holds vars then pure (.error message) else pure (.ok (c.holds vars))
    | none => pure (.ok (c.holds vars))

/-- A scripted guard. -/
def guard (name : String) (c : Condition) : Variables → Scripted Bool := fun vars => do
  mark ("guard:" ++ name)
  pure (c.holds vars)

/-- Writes the progress record, unless writes fail. -/
def save (next : String) : Scripted (Except String Unit) := do
  match (← get).failing with
  | some message => do
    mark ("save_failed:" ++ next)
    pure (.error message)
  | none => do
    mark ("save:" ++ next)
    modify fun w => { w with record := { w.record with nextState := next } }
    pure (.ok ())

/-- A pacer that leaves marks. -/
def recordingPacer : Pacer Scripted := ⟨mark "before", mark "after"⟩

end Scripted
end Reconciliation
