/-
# Outcomes

What the scheduler that calls the engine should do next.  The engine never looks
at an outcome: an action produces it and the engine hands it back unchanged.
-/

import Reconciliation.Time.Duration

namespace Reconciliation

/-- What the scheduler should do after a tick. -/
inductive Outcome where
  /-- Call again as soon as possible. -/
  | requeue
  /-- Call again after the given delay. -/
  | requeueAfter (delay : Duration)
  /-- Nothing to do until something changes. -/
  | done
deriving DecidableEq, Repr

namespace Outcome

instance : Inhabited Outcome := ⟨requeue⟩

/-- Call again after so many seconds, at once when there are none. -/
def retry (seconds : Nat) : Outcome :=
  if seconds = 0 then requeue else requeueAfter (.ofSeconds seconds)

/-- How long the scheduler should wait before it calls again, if it should. -/
def delay? : Outcome → Option Duration
  | requeue => some .none
  | requeueAfter delay => some delay
  | done => none

/-- Whether there is nothing to do until something changes. -/
def isDone : Outcome → Bool
  | done => true
  | _ => false

/-- A retry waits for as long as it says. -/
theorem delay?_retry (n : Nat) : (retry n).delay? = some (.ofSeconds n) := by
  unfold retry
  split
  · rename_i h
    subst h
    rfl
  · rfl

/-- Only an outcome that is done gives no time to call again. -/
theorem delay?_eq_none_iff (o : Outcome) : o.delay? = none ↔ o.isDone = true := by
  cases o <;> simp [delay?, isDone]

end Outcome
end Reconciliation
