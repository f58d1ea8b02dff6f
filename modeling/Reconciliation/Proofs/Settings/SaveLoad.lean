/-
# Saved settings loaded again

Saved settings are a document of three tables (`Settings.document_eq`), so they are read as
what was written.  The file then gives each key its own value; only a limit that is not set is
left out, and then the standard settings have none, either (`Settings.given_savedEntries`).  So
what is loaded is what was saved (`load_save`).
-/

import Reconciliation.Proofs.Settings.Layers
import Reconciliation.Proofs.Settings.WrittenLines

namespace Reconciliation

open Toml (IsBare WrittenSetting WrittenTable documentOf)

/-! ## What is written -/

theorem SettingKey.isBare_sectionName (key : SettingKey) : IsBare key.sectionName := by
  cases key <;> decide +kernel

theorem SettingKey.isBare_name (key : SettingKey) : IsBare key.name := by
  cases key <;> decide +kernel

/-- The written setting of a number below the bound. -/
def writtenNatural (key : String) (bare : IsBare key) {n : Nat} (h : n < savedBound) :
    WrittenSetting :=
  ⟨key, decimal n, .integer n, bare, Toml.readsAs_decimal h, rfl⟩

/-- A limit is always below the bound. -/
theorem toNat_lt_savedBound (limit : UInt32) : limit.toNat < savedBound :=
  Nat.lt_trans limit.toNat_lt (by decide)

/-- The table of the pacing section. -/
def PacingSettings.table (s : PacingSettings) (hbefore : s.beforePersistMs.toNat < savedBound)
    (hafter : s.afterPersistMs.toNat < savedBound) : WrittenTable where
  name := "pacing"
  members :=
    [writtenNatural "before_persist_ms" (SettingKey.isBare_name .beforePersistMs) hbefore,
      writtenNatural "after_persist_ms" (SettingKey.isBare_name .afterPersistMs) hafter] ++
    match s.maxWritesPerMinute with
    | some limit =>
      [writtenNatural "max_writes_per_minute" (SettingKey.isBare_name .maxWritesPerMinute)
        (toNat_lt_savedBound limit)]
    | none => []
  bare := SettingKey.isBare_sectionName .beforePersistMs
  nodup := by cases s.maxWritesPerMinute <;> simp [writtenNatural]

theorem PacingSettings.lines_table (s : PacingSettings)
    (hbefore : s.beforePersistMs.toNat < savedBound)
    (hafter : s.afterPersistMs.toNat < savedBound) :
    (s.table hbefore hafter).lines = s.document := by
  rcases s with ⟨before, after, _ | limit⟩ <;>
    simp [document, WrittenTable.lines, table, WrittenSetting.line, writtenNatural]

/-- The table of the workflow section. -/
def WorkflowSettings.table (s : WorkflowSettings)
    (hseconds : s.pendingRequeueSeconds.toNat < savedBound) : WrittenTable where
  name := "workflow"
  members :=
    [writtenNatural "pending_requeue_seconds" (SettingKey.isBare_name .pendingRequeueSeconds)
      hseconds]
  bare := SettingKey.isBare_sectionName .pendingRequeueSeconds
  nodup := by simp

theorem WorkflowSettings.lines_table (s : WorkflowSettings)
    (hseconds : s.pendingRequeueSeconds.toNat < savedBound) :
    (s.table hseconds).lines = s.document := by
  simp [document, WrittenTable.lines, table, WrittenSetting.line, writtenNatural]

/-- The table of the logging section. -/
def LogSettings.table (s : LogSettings) : WrittenTable where
  name := "observability"
  members :=
    [⟨"log_level", Toml.writeText s.logLevel, .text s.logLevel, SettingKey.isBare_name .logLevel,
        Toml.readsAs_text s.logLevel, rfl⟩,
      ⟨"json_logs", flagChars s.jsonLogs, .flag s.jsonLogs, SettingKey.isBare_name .jsonLogs,
        Toml.readsAs_flag s.jsonLogs, rfl⟩]
  bare := SettingKey.isBare_sectionName .logLevel
  nodup := by simp

theorem LogSettings.lines_table (s : LogSettings) : s.table.lines = s.document := by
  simp [document, WrittenTable.lines, table, WrittenSetting.line]

namespace Settings

/-- Settings can be saved when their numbers are below the bound. -/
theorem isSavable_iff {s : Settings} :
    s.isSavable = true ↔ s.pacing.beforePersistMs.toNat < savedBound ∧
      s.pacing.afterPersistMs.toNat < savedBound ∧
      s.workflow.pendingRequeueSeconds.toNat < savedBound := by
  simp [isSavable, and_assoc]

/-- The tables of saved settings. -/
def tables (s : Settings) (h : s.isSavable = true) : List WrittenTable :=
  [s.pacing.table (isSavable_iff.1 h).1 (isSavable_iff.1 h).2.1,
    s.workflow.table (isSavable_iff.1 h).2.2, s.observability.table]

/-- What is saved is the document of these tables. -/
theorem document_eq (s : Settings) (h : s.isSavable = true) :
    s.document = documentOf (s.tables h) := by
  simp [document, tables, documentOf, PacingSettings.lines_table, WorkflowSettings.lines_table,
    LogSettings.lines_table]

/-- The entries of the file of saved settings. -/
def savedEntries (s : Settings) : List (String × Setting) :=
  [("pacing", .table (
      [("before_persist_ms", .integer s.pacing.beforePersistMs.toNat),
        ("after_persist_ms", .integer s.pacing.afterPersistMs.toNat)] ++
      match s.pacing.maxWritesPerMinute with
      | some limit => [("max_writes_per_minute", .integer limit.toNat)]
      | none => [])),
    ("workflow", .table [
      ("pending_requeue_seconds", .integer s.workflow.pendingRequeueSeconds.toNat)]),
    ("observability", .table [("log_level", .text s.observability.logLevel),
      ("json_logs", .flag s.observability.jsonLogs)])]

/-- **Saved settings are read** as what was saved. -/
theorem fileEntries?_of_save? {s : Settings} {text : String} (h : s.save? = some text) :
    fileEntries? (some text) = some s.savedEntries := by
  obtain ⟨hsavable, htext⟩ := Option.ite_none_right_eq_some.1 h
  obtain rfl := Option.some.inj htext
  have hentries : (s.tables hsavable).map WrittenTable.entry = s.savedEntries := by
    rcases s with ⟨⟨_, _, _ | _⟩, _, _⟩ <;> rfl
  have hnodup : ((s.tables hsavable).map WrittenTable.name).Nodup := by
    simp [tables, PacingSettings.table, WorkflowSettings.table, LogSettings.table]
  rw [fileEntries?, s.document_eq hsavable, Toml.parse_documentOf hnodup, hentries]

/-! ## What is loaded -/

/-- The name of a section is a path on its own. -/
theorem keyPath_sectionName (key : SettingKey) :
    keyPath key.sectionName = [.key key.sectionName] := by
  cases key <;> decide +kernel

theorem keyPath_savedEntries {s : Settings} {entry : String × Setting}
    (h : entry ∈ s.savedEntries) : keyPath entry.1 = [.key entry.1] := by
  simp only [savedEntries, List.mem_cons, List.not_mem_nil, or_false] at h
  rcases h with rfl | rfl | rfl
  · exact keyPath_sectionName .beforePersistMs
  · exact keyPath_sectionName .pendingRequeueSeconds
  · exact keyPath_sectionName .logLevel

theorem isTable_savedEntries {s : Settings} {entry : String × Setting}
    (h : entry ∈ s.savedEntries) : entry.2.isTable = true := by
  simp only [savedEntries, List.mem_cons, List.not_mem_nil, or_false] at h
  rcases h with rfl | rfl | rfl <;> rfl

/-- The file gives each key its value, apart from a limit that is not set. -/
theorem given_savedEntries (s : Settings) (key : SettingKey) :
    key.given s.savedEntries =
      if key = .maxWritesPerMinute ∧ s.pacing.maxWritesPerMinute = none then []
      else [key.literal (key.value s)] := by
  have hpacing : keyPath "pacing" = [.key "pacing"] := keyPath_sectionName .beforePersistMs
  have hworkflow : keyPath "workflow" = [.key "workflow"] :=
    keyPath_sectionName .pendingRequeueSeconds
  have hlog : keyPath "observability" = [.key "observability"] := keyPath_sectionName .logLevel
  have hlower : ∀ name ∈ ["pacing", "workflow", "observability", "before_persist_ms",
      "after_persist_ms", "max_writes_per_minute", "pending_requeue_seconds", "log_level",
      "json_logs"], lowerKey name = name := by
    decide +kernel
  rcases s with ⟨⟨before, after, _ | limit⟩, ⟨seconds⟩, ⟨level, json⟩⟩ <;> cases key <;>
    simp [savedEntries, SettingKey.given, hpacing, hworkflow, hlog, hlower, SettingKey.givenAt,
      SettingKey.givenIn, SettingKey.sectionName, SettingKey.name, SettingKey.literal,
      SettingKey.value, Setting.entries]

theorem fits_savedEntries (s : Settings) : Fits s.savedEntries where
  shape key entry hentry := by
    rw [keyPath_savedEntries hentry]
    exact fun _ => isTable_savedEntries hentry
  reads key setting hsetting := by
    rw [s.given_savedEntries key] at hsetting
    split at hsetting
    · cases hsetting
    · rw [List.mem_singleton.1 hsetting, key.read?_literal]
      rfl

end Settings

/-- **Settings are saved and loaded.**  They can be saved just when their numbers have a sign
to spare, and what is loaded from the saved text, without a variable that sets a key, is what
was saved. -/
theorem load_save (s : Settings) {environment : List (String × String)}
    (hvariables : ∀ v ∈ environment, variableKey? v.1 = none) :
    (s.save? = none ↔ 9223372036854775807 < s.pacing.beforePersistMs.toNat ∨
      9223372036854775807 < s.pacing.afterPersistMs.toNat ∨
      9223372036854775807 < s.workflow.pendingRequeueSeconds.toNat) ∧
    ∀ text, s.save? = some text → Settings.load? (some text) environment = some s := by
  have hempty : environmentEntries environment = [] := by
    refine List.filterMap_eq_nil_iff.2 fun v hv => ?_
    rw [hvariables v hv]
    rfl
  constructor
  · have hbound : savedBound = 9223372036854775808 := rfl
    have hsavable := Settings.isSavable_iff (s := s)
    rw [hbound] at hsavable
    have hnone : s.save? = none ↔ ¬ s.isSavable = true := by
      rw [Settings.save?]
      split <;> simp_all
    rw [hnone, hsavable]
    omega
  · intro text htext
    have hfits : Fits (environmentEntries environment) := hempty ▸ ⟨nofun, nofun⟩
    obtain ⟨t, hload, hread⟩ := Settings.exists_load? (Settings.fileEntries?_of_save? htext)
      s.fits_savedEntries hfits
    rw [hload]
    refine congrArg some (SettingKey.settings_ext fun key => ?_)
    have hread := hread key
    rw [hempty, s.given_savedEntries key] at hread
    split at hread
    · rename_i hunset
      obtain ⟨rfl, hlimit⟩ := hunset
      exact (Option.some.inj hread).symm.trans hlimit.symm
    · exact (Option.some.inj ((key.read?_literal _).symm.trans hread)).symm

/-- Settings whose log level has quotes, a backslash, two lines and apostrophes. -/
def quotedSettings : Settings := ⟨⟨5, 0, some 3⟩, ⟨10⟩, ⟨"\"debug\"\\\n'''", false⟩⟩

theorem load_save_of_quotes : ∃ text, quotedSettings.save? = some text ∧
    Settings.load? (some text) [("PATH", "/bin")] = some quotedSettings := by
  have hvariables : ∀ v ∈ [("PATH", "/bin")], variableKey? v.1 = none := by
    decide +kernel
  have hsaved : quotedSettings.save? = some (String.ofList quotedSettings.document) := by
    rw [Settings.save?, if_pos (by decide)]
  exact ⟨_, hsaved, (load_save quotedSettings hvariables).2 _ hsaved⟩

end Reconciliation
