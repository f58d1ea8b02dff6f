/-
# Settings

The settings of the reconciler, in three sections.
-/

import Reconciliation.Engine.Pacing

namespace Reconciliation

open Json (Codec required optional toValue ofValue)

/-- How the workflow behaves. -/
structure WorkflowSettings where
  /-- How long to wait for workloads, agents or certificates, in seconds. -/
  pendingRequeueSeconds : UInt64
deriving DecidableEq

namespace WorkflowSettings

/-- Ten seconds. -/
def standard : WorkflowSettings := ⟨10⟩

instance : Inhabited WorkflowSettings := ⟨standard⟩

instance : Codec WorkflowSettings where
  shape := .record [required UInt64 "pending_requeue_seconds"]
  toValue s := .object [("pending_requeue_seconds", toValue s.pendingRequeueSeconds)]
  ofValue
    | .object [(_, seconds)] => do some ⟨← ofValue seconds⟩
    | _ => none

/-- How long to wait for something outside of the reconciler's control. -/
def pendingRequeue (s : WorkflowSettings) : Duration := .ofSeconds s.pendingRequeueSeconds.toNat

end WorkflowSettings

/-- What is logged and how. -/
structure LogSettings where
  /-- The filter directive when nothing else sets one. -/
  logLevel : String
  /-- Whether log lines are JSON. -/
  jsonLogs : Bool
deriving DecidableEq

namespace LogSettings

/-- JSON lines of the level `info`. -/
def standard : LogSettings := ⟨"info", true⟩

instance : Inhabited LogSettings := ⟨standard⟩

instance : Codec LogSettings where
  shape := .record [required String "log_level", required Bool "json_logs"]
  toValue s := .object [("log_level", toValue s.logLevel), ("json_logs", toValue s.jsonLogs)]
  ofValue
    | .object [(_, level), (_, json)] => do some ⟨← ofValue level, ← ofValue json⟩
    | _ => none

end LogSettings

/-- The settings of the reconciler. -/
structure Settings where
  pacing : PacingSettings
  workflow : WorkflowSettings
  observability : LogSettings
deriving DecidableEq

namespace Settings

/-- What holds unless something else is said. -/
def standard : Settings := ⟨.standard, .standard, .standard⟩

instance : Inhabited Settings := ⟨standard⟩

instance : Codec Settings where
  shape := .record [optional "pacing" PacingSettings.standard,
    optional "workflow" WorkflowSettings.standard,
    optional "observability" LogSettings.standard]
  toValue s := .object [("pacing", toValue s.pacing), ("workflow", toValue s.workflow),
    ("observability", toValue s.observability)]
  ofValue
    | .object [(_, pacing), (_, workflow), (_, observability)] => do
      some ⟨← ofValue pacing, ← ofValue workflow, ← ofValue observability⟩
    | _ => none

end Settings
end Reconciliation
