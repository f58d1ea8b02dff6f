/-
# Reconciling a cluster

The scheduler calls the reconciler with the name of a cluster.  Each call advances
the cluster by at most one stage.  The reconciler remembers nothing between calls;
it must not be called for the same cluster from two places at once.
-/

import Reconciliation.Cluster.Workflow
import Reconciliation.Engine.Counters
import Reconciliation.Settings.Settings

namespace Reconciliation

/-- Why a call of the reconciler failed. -/
inductive ReconcileError where
  | store (error : StoreError)
  | config (error : ConfigError)
  | tick (error : TickError Failure)
deriving DecidableEq, Repr

/-- The message of an error. -/
def ReconcileError.message : ReconcileError → String
  | store error => "resource store error: " ++ error.message
  | config error => "state machine configuration error: " ++ error.message
  | tick error => error.message Failure.message

/-- How a call of the reconciler ended. -/
inductive Conclusion where
  /-- The cluster is not stored; there is nothing to do. -/
  | absent
  /-- The cluster or its workload could not be read. -/
  | unreadable (error : StoreError)
  /-- No machine could be built for the cluster. -/
  | misconfigured (error : ConfigError)
  /-- The machine ticked. -/
  | ticked (ending : Ending Failure)

namespace Conclusion

/-- The result of the call. -/
def result : Conclusion → Except ReconcileError Outcome
  | absent => .ok .done
  | unreadable error => .error (.store error)
  | misconfigured error => .error (.config error)
  | ticked ending => ending.result.mapError .tick

/-- What the call counts. -/
def events : Conclusion → List Event
  | ticked ending => ending.events
  | _ => []

end Conclusion

/-- Reconciles clusters, one tick at a time. -/
structure Reconciler where
  /-- What happens around each write of a progress record. -/
  pacer : Pacer Work
  /-- How long to wait for something outside of the reconciler's control. -/
  pendingRequeue : Duration

namespace Reconciler

/-- No pacing, and ten seconds to wait. -/
def standard : Reconciler := ⟨.none, .ofSeconds 10⟩

/-- The reconciler that settings describe. -/
def ofSettings (s : Settings) : Reconciler :=
  ⟨(PacingPolicy.ofSettings s.pacing).pacer sleepFor, s.workflow.pendingRequeue⟩

/-- The same reconciler with this pacer. -/
def withPacer (r : Reconciler) (pacer : Pacer Work) : Reconciler := { r with pacer := pacer }

/-- The same reconciler with this time to wait. -/
def withPendingRequeue (r : Reconciler) (d : Duration) : Reconciler :=
  { r with pendingRequeue := d }

/-- Advances a cluster by at most one stage; `now` is the clock. -/
def reconcile (r : Reconciler) (now : Timestamp) (name : ResourceName) : Work Conclusion := do
  match ← callStore (.get .cluster name) with
  | .error error => pure (if error.isNotFound then .absent else .unreadable error)
  | .ok cluster =>
    match buildMachine cluster r.pacer with
    | .error error => pure (.misconfigured error)
    | .ok machine => do
      match ← (Context.observe cluster r.pendingRequeue now).run with
      | .error error => pure (.unreadable error)
      | .ok ctx => do
        let (ending, _) ← machine.tick ctx
        pure (.ticked ending)

end Reconciler
end Reconciliation
