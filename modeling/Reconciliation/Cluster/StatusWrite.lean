/-
# Status writes

`StatusOptions` collects what a status write should change; each phase comes with
the outcome that the calling action should hand back.  What is not mentioned stays
as it is, and every write is stamped with the clock.
-/

import Reconciliation.Cluster.Observation

namespace Reconciliation

/-- How a message is meant; `clear` removes the message that is there. -/
inductive Severity where
  | error
  | info
  | clear
deriving DecidableEq, Repr

/-- What a status write should change. -/
structure StatusOptions where
  phase : Option Phase
  message : Option (Severity × String)
  members : Option UInt32
  workloadReplicas : Option UInt32
  uri : Option String
  version : Option String
  outcome : Outcome
deriving DecidableEq

namespace StatusOptions

/-- Changes nothing but the stamp. -/
def unchanged : StatusOptions := ⟨none, none, none, none, none, none, .requeue⟩

instance : Inhabited StatusOptions := ⟨unchanged⟩

/-- Sets or clears the message. -/
def withMessage (o : StatusOptions) (severity : Severity) (text : String) : StatusOptions :=
  { o with message := some (severity, text) }

/-- Sets the number of members. -/
def withMembers (o : StatusOptions) (n : UInt32) : StatusOptions := { o with members := some n }

/-- Sets the number of replicas of the workload. -/
def withWorkloadReplicas (o : StatusOptions) (n : UInt32) : StatusOptions :=
  { o with workloadReplicas := some n }

/-- Sets the text under which clients connect. -/
def withUri (o : StatusOptions) (uri : String) : StatusOptions := { o with uri := some uri }

/-- Sets the version. -/
def withVersion (o : StatusOptions) (version : String) : StatusOptions :=
  { o with version := some version }

/-- The cluster runs; the outcome is to call again at once. -/
def withRunning (o : StatusOptions) : StatusOptions :=
  { o with phase := some .running, outcome := .requeue }

/-- The cluster waits; the outcome is to call again after so many seconds. -/
def withPending (o : StatusOptions) (seconds : Nat) : StatusOptions :=
  { o with phase := some .pending, outcome := .retry seconds }

/-- The cluster has failed; the outcome is to call again at once. -/
def withFailed (o : StatusOptions) : StatusOptions :=
  { o with phase := some .failed, outcome := .requeue }

/-- The text that a message leaves in the status. -/
def messageText : Severity × String → String
  | (.clear, _) => ""
  | (_, text) => text

/-- The status after a write. -/
def apply (o : StatusOptions) (now : Timestamp) (status : ClusterStatus) : ClusterStatus where
  phase := o.phase.getD status.phase
  message := (o.message.map messageText).getD status.message
  currentMembers := o.members.getD status.currentMembers
  currentWorkloadReplicas := o.workloadReplicas.getD status.currentWorkloadReplicas
  uri := o.uri.getD status.uri
  version := o.version.getD status.version
  lastUpdated := some now

end StatusOptions

/-- Writes a status to the store and then to the context, and gives the outcome
that goes with it.  When the store refuses, the context stays as it was. -/
def updateStatus (ctx : Context) (o : StatusOptions) :
    Work (Except StoreError Outcome × Context) := do
  let cluster := { ctx.cluster with status := o.apply ctx.now ctx.cluster.status }
  match ← callStore (.updateStatus cluster) with
  | .ok () => pure (.ok o.outcome, { ctx with cluster := cluster })
  | .error error => pure (.error error, ctx)

/-- Writes a failed status and gives the failure with which the action should end.
That the status could not be written does not change the failure. -/
def failWithStatus (ctx : Context) (message : String) : Work (Failure × Context) := do
  let (_, ctx) ← updateStatus ctx ((StatusOptions.unchanged.withMessage .error message).withFailed)
  pure (.other message, ctx)

end Reconciliation
