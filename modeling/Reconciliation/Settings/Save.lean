/-
# Saving settings

Settings are saved as a TOML document with a table for each section.  Integers in
such a document have a sign, so the greatest numbers that a setting may hold cannot be
saved.
-/

import Reconciliation.Settings.Settings
import Reconciliation.Settings.Toml.Written

namespace Reconciliation

/-- The bound of the numbers that can be saved. -/
def savedBound : Nat := Nat.pow 2 63

/-- A line that gives a key its value. -/
def settingLine (key : String) (value : List Char) : List Char :=
  key.toList ++ " = ".toList ++ value ++ ['\n']

/-- The line of a header. -/
def headerLine (name : String) : List Char := '[' :: (name.toList ++ [']', '\n'])

/-- The text of a flag. -/
def flagChars (b : Bool) : List Char := if b then "true".toList else "false".toList

/-- The table of the pacing section; a limit that is not set is left out. -/
def PacingSettings.document (s : PacingSettings) : List Char :=
  headerLine "pacing" ++
    settingLine "before_persist_ms" (decimal s.beforePersistMs.toNat) ++
    settingLine "after_persist_ms" (decimal s.afterPersistMs.toNat) ++
    (match s.maxWritesPerMinute with
      | some limit => settingLine "max_writes_per_minute" (decimal limit.toNat)
      | none => [])

/-- The table of the workflow section. -/
def WorkflowSettings.document (s : WorkflowSettings) : List Char :=
  headerLine "workflow" ++
    settingLine "pending_requeue_seconds" (decimal s.pendingRequeueSeconds.toNat)

/-- The table of the logging section. -/
def LogSettings.document (s : LogSettings) : List Char :=
  headerLine "observability" ++ settingLine "log_level" (Toml.writeText s.logLevel) ++
    settingLine "json_logs" (flagChars s.jsonLogs)

namespace Settings

/-- Whether every number can be saved. -/
def isSavable (s : Settings) : Bool :=
  s.pacing.beforePersistMs.toNat < savedBound && s.pacing.afterPersistMs.toNat < savedBound &&
    s.workflow.pendingRequeueSeconds.toNat < savedBound

/-- The document of the settings, an empty line between its tables. -/
def document (s : Settings) : List Char :=
  s.pacing.document ++ '\n' :: s.workflow.document ++ '\n' :: s.observability.document

/-- The text of the saved settings, if they can be saved. -/
def save? (s : Settings) : Option String :=
  if s.isSavable then some (String.ofList s.document) else none

end Settings
end Reconciliation
