/-
# What a tick may look at

A `Context` holds everything that an action, a check or a guard may look at during
one tick.  It is built from the store when the tick starts; actions refresh the
parts they change, so the guards that are evaluated afterwards see the result.

Status writes change `cluster.status` only.  The guards about scaling look at
`observedStatus`, the status as it was when the tick started.
-/

import Reconciliation.Cluster.Effect

namespace Reconciliation

/-- Everything that is known during one tick. -/
structure Context where
  /-- The wanted spec, and the status as last written. -/
  cluster : DbCluster
  /-- The status as it was before any action ran. -/
  observedStatus : ClusterStatus
  /-- The workload as last seen, if there is one. -/
  observedWorkload : Option Workload
  /-- How long to wait for something outside of the reconciler's control. -/
  pendingRequeue : Duration
  /-- The clock during the tick; status writes are stamped with it. -/
  now : Timestamp

namespace Context

/-- The context of a cluster that was just read. -/
def observe (cluster : DbCluster) (pendingRequeue : Duration) (now : Timestamp) :
    StoreWork Context := do
  let workload ← findResource .workload cluster.resourceName
  pure ⟨cluster, cluster.status, workload, pendingRequeue, now⟩

/-- The whole seconds to wait. -/
def pendingSeconds (ctx : Context) : Nat := ctx.pendingRequeue.seconds

/-! ## Guards -/

/-- Whether connections are to be encrypted. -/
def tlsEnabled (ctx : Context) : Bool := ctx.cluster.spec.security.tls.enabled

/-- Whether the agents have to know the automation config before the workload
changes: on the first deployment, because they need one to start from, and when
scaling down, because members leave the replica set before they are stopped. -/
def needsConfigFirst (ctx : Context) : Bool :=
  ctx.observedWorkload.isNone ||
    ctx.cluster.desiredMembers < ctx.observedStatus.currentMembers

/-- Whether the workload changes before the automation config. -/
def deployWorkloadFirst (ctx : Context) : Bool := !ctx.needsConfigFirst

/-- Whether another version is wanted than the one last fully reconciled. -/
def isChangingVersion (ctx : Context) : Bool := ctx.cluster.isChangingVersion

/-- Whether one more step will not reach the number of members that is wanted,
counted from the start of the tick: a status written by the current action does not
end the scaling early. -/
def isStillScaling (ctx : Context) : Bool :=
  nextMemberCount ctx.observedStatus.currentMembers ctx.cluster.desiredMembers ≠
    ctx.cluster.desiredMembers

end Context
end Reconciliation
