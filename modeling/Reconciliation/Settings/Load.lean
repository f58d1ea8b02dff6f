/-
# Loading settings

Settings come from three sources, the later ones winning key by key: the standard
settings, a file and the environment.  What no source knows is left out, keys that
are not known have no effect.
-/

import Reconciliation.Settings.Environment
import Reconciliation.Settings.Path
import Reconciliation.Settings.Settings
import Reconciliation.Settings.Toml.Document

namespace Reconciliation

/-! ## The settings of a tree -/

/-- The fields of a section: by name in a table, by place in a list. -/
def Setting.fields? (names : List String) : Setting → Option (List (Option Setting))
  | .table entries => some (names.map fun name => findEntry name entries)
  | .list items => some ((List.range names.length).map fun place => items[place]?)
  | _ => none

/-- A number that may be left out. -/
def optionalNatural? : Option Setting → Option (Option UInt32)
  | none => some none
  | some .unset => some none
  | some setting => (setting.naturalBelow? UInt32.size).map fun n => some (UInt32.ofNat n)

/-- A number with a default. -/
def naturalOr? (default : UInt64) : Option Setting → Option UInt64
  | none => some default
  | some setting => setting.natural?.map UInt64.ofNat

/-- The pacing section of a tree. -/
def PacingSettings.ofSetting? (tree : Setting) : Option PacingSettings := do
  match ← tree.fields? ["before_persist_ms", "after_persist_ms", "max_writes_per_minute"] with
  | [before, after, limit] =>
    some ⟨← naturalOr? 0 before, ← naturalOr? 0 after, ← optionalNatural? limit⟩
  | _ => none

/-- The workflow section of a tree. -/
def WorkflowSettings.ofSetting? (tree : Setting) : Option WorkflowSettings := do
  match ← tree.fields? ["pending_requeue_seconds"] with
  | [some seconds] => some ⟨UInt64.ofNat (← seconds.natural?)⟩
  | _ => none

/-- The logging section of a tree. -/
def LogSettings.ofSetting? (tree : Setting) : Option LogSettings := do
  match ← tree.fields? ["log_level", "json_logs"] with
  | [some level, some json] => some ⟨← level.text?, ← json.flag?⟩
  | _ => none

/-- A section with a default. -/
def sectionOr? {α : Type} (default : α) (read : Setting → Option α) : Option Setting → Option α
  | none => some default
  | some setting => read setting

namespace Settings

/-- The settings of a tree. -/
def ofSetting? (tree : Setting) : Option Settings := do
  some ⟨← sectionOr? .standard PacingSettings.ofSetting? (tree.get? "pacing"),
    ← sectionOr? .standard WorkflowSettings.ofSetting? (tree.get? "workflow"),
    ← sectionOr? .standard LogSettings.ofSetting? (tree.get? "observability")⟩

/-- The tree of settings. -/
def toSetting (s : Settings) : Setting :=
  .table [
    ("pacing", .table [
      ("before_persist_ms", .integer s.pacing.beforePersistMs.toNat),
      ("after_persist_ms", .integer s.pacing.afterPersistMs.toNat),
      ("max_writes_per_minute", match s.pacing.maxWritesPerMinute with
        | some limit => .integer limit.toNat
        | none => .unset)]),
    ("workflow", .table [
      ("pending_requeue_seconds", .integer s.workflow.pendingRequeueSeconds.toNat)]),
    ("observability", .table [
      ("log_level", .text s.observability.logLevel),
      ("json_logs", .flag s.observability.jsonLogs)])]

end Settings

/-! ## Sources -/

/-- A tree with the entries of a source laid over it. -/
def Setting.withEntries (tree : Setting) (entries : List (String × Setting)) : Setting :=
  entries.foldl (fun tree entry => entry.2.assign (keyPath entry.1) tree) tree

/-- The entries that the environment holds. -/
def environmentEntries (environment : List (String × String)) : List (String × Setting) :=
  environment.filterMap fun entry =>
    (variableKey? entry.1).map fun key => (key, variableSetting entry.2)

/-- The entries of a file; a file that is not there holds none. -/
def fileEntries? : Option String → Option (List (String × Setting))
  | none => some []
  | some text => Toml.parse text

/-- Loads the settings from a file, which may be missing, and the environment.  The
file has to be well formed, and every known key has to hold what it should. -/
def Settings.load? (file : Option String) (environment : List (String × String)) :
    Option Settings := do
  let entries ← fileEntries? file
  Settings.ofSetting? ((Settings.standard.toSetting.withEntries entries).withEntries
    (environmentEntries environment))

end Reconciliation
