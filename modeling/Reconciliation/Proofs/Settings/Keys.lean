/-
# The known settings

There are six known keys, each in one of three sections (`SettingKey`).  Seen through them a
tree of settings is a table of six entries, whatever else it holds: when it has a table for
each section and a setting for each known key (`Setting.Holds`), and these can be read, then
the tree can be read and gives just these values (`Settings.exists_ofSetting?`).
-/

import Reconciliation.Settings.Load

namespace Reconciliation

/-- The known keys. -/
inductive SettingKey where
  | beforePersistMs
  | afterPersistMs
  | maxWritesPerMinute
  | pendingRequeueSeconds
  | logLevel
  | jsonLogs
deriving DecidableEq, Repr

namespace SettingKey

/-- All the known keys. -/
def all : List SettingKey :=
  [beforePersistMs, afterPersistMs, maxWritesPerMinute, pendingRequeueSeconds, logLevel, jsonLogs]

theorem mem_all (key : SettingKey) : key ∈ all := by
  cases key <;> decide

/-- The section of a key. -/
def sectionName : SettingKey → String
  | beforePersistMs | afterPersistMs | maxWritesPerMinute => "pacing"
  | pendingRequeueSeconds => "workflow"
  | logLevel | jsonLogs => "observability"

/-- The name of a key in its section. -/
def name : SettingKey → String
  | beforePersistMs => "before_persist_ms"
  | afterPersistMs => "after_persist_ms"
  | maxWritesPerMinute => "max_writes_per_minute"
  | pendingRequeueSeconds => "pending_requeue_seconds"
  | logLevel => "log_level"
  | jsonLogs => "json_logs"

/-- What a key stands for. -/
def Value : SettingKey → Type
  | beforePersistMs | afterPersistMs | pendingRequeueSeconds => UInt64
  | maxWritesPerMinute => Option UInt32
  | logLevel => String
  | jsonLogs => Bool

instance (key : SettingKey) : DecidableEq key.Value :=
  match key with
  | beforePersistMs | afterPersistMs | pendingRequeueSeconds =>
    inferInstanceAs (DecidableEq UInt64)
  | maxWritesPerMinute => inferInstanceAs (DecidableEq (Option UInt32))
  | logLevel => inferInstanceAs (DecidableEq String)
  | jsonLogs => inferInstanceAs (DecidableEq Bool)

/-- The value of a key in settings. -/
def value (s : Settings) : (key : SettingKey) → key.Value
  | beforePersistMs => s.pacing.beforePersistMs
  | afterPersistMs => s.pacing.afterPersistMs
  | maxWritesPerMinute => s.pacing.maxWritesPerMinute
  | pendingRequeueSeconds => s.workflow.pendingRequeueSeconds
  | logLevel => s.observability.logLevel
  | jsonLogs => s.observability.jsonLogs

/-- The value that a setting gives to a key. -/
def read? (setting : Setting) : (key : SettingKey) → Option key.Value
  | beforePersistMs => naturalOr? 0 (some setting)
  | afterPersistMs => naturalOr? 0 (some setting)
  | maxWritesPerMinute => optionalNatural? (some setting)
  | pendingRequeueSeconds => naturalOr? 0 (some setting)
  | logLevel => setting.text?
  | jsonLogs => setting.flag?

/-- The setting that stands for a value, of the type that a key has. -/
def literal : (key : SettingKey) → key.Value → Setting
  | beforePersistMs, (n : UInt64) => .integer n.toNat
  | afterPersistMs, (n : UInt64) => .integer n.toNat
  | maxWritesPerMinute, (some limit : Option UInt32) => .integer limit.toNat
  | maxWritesPerMinute, (none : Option UInt32) => .unset
  | pendingRequeueSeconds, (n : UInt64) => .integer n.toNat
  | logLevel, (level : String) => .text level
  | jsonLogs, (json : Bool) => .flag json

@[simp] theorem lowerKey_sectionName (key : SettingKey) :
    lowerKey key.sectionName = key.sectionName := by
  cases key <;> decide +kernel

@[simp] theorem lowerKey_name (key : SettingKey) : lowerKey key.name = key.name := by
  cases key <;> decide +kernel

/-- Settings agree when all their keys do. -/
theorem settings_ext {s t : Settings} (h : ∀ key, value s key = value t key) : s = t := by
  rcases s with ⟨⟨_, _, _⟩, ⟨_⟩, ⟨_, _⟩⟩
  rcases t with ⟨⟨_, _, _⟩, ⟨_⟩, ⟨_, _⟩⟩
  obtain rfl := h beforePersistMs
  obtain rfl := h afterPersistMs
  obtain rfl := h maxWritesPerMinute
  obtain rfl := h pendingRequeueSeconds
  obtain rfl := h logLevel
  obtain rfl := h jsonLogs
  rfl

/-- The number that a setting is, if it is a whole number below a bound. -/
def wholeBelow? (bound : Nat) : Setting → Option Nat
  | .integer n => if 0 ≤ n ∧ n.toNat < bound then some n.toNat else none
  | _ => none

/-- The value that a setting of the type of a key gives to it, when it is in range. -/
def plain? (setting : Setting) : (key : SettingKey) → Option key.Value
  | beforePersistMs => (wholeBelow? UInt64.size setting).map UInt64.ofNat
  | afterPersistMs => (wholeBelow? UInt64.size setting).map UInt64.ofNat
  | maxWritesPerMinute => (wholeBelow? UInt32.size setting).map fun n => some (UInt32.ofNat n)
  | pendingRequeueSeconds => (wholeBelow? UInt64.size setting).map UInt64.ofNat
  | logLevel =>
    match setting with
    | .text level => some level
    | _ => none
  | jsonLogs =>
    match setting with
    | .flag json => some json
    | _ => none

theorem wholeBelow?_eq_some_iff {bound n : Nat} {setting : Setting} :
    wholeBelow? bound setting = some n ↔ setting = .integer n ∧ n < bound := by
  cases setting with
  | integer i =>
    rw [wholeBelow?, Option.ite_none_right_eq_some, Option.some.injEq, Setting.integer.injEq]
    omega
  | _ => simp [wholeBelow?]

/-- Settings of the right type read as what they are. -/
theorem read?_of_plain? (key : SettingKey) {setting : Setting} {x : key.Value}
    (h : key.plain? setting = some x) : key.read? setting = some x := by
  have hnatural : ∀ {n : UInt64}, (wholeBelow? UInt64.size setting).map UInt64.ofNat = some n →
      naturalOr? 0 (some setting) = some n := by
    intro n hn
    obtain ⟨i, hi, rfl⟩ := Option.map_eq_some_iff.1 hn
    obtain ⟨rfl, hbound⟩ := wholeBelow?_eq_some_iff.1 hi
    simp [naturalOr?, Setting.natural?, naturalBound, hbound]
  cases key with
  | beforePersistMs => exact hnatural h
  | afterPersistMs => exact hnatural h
  | pendingRequeueSeconds => exact hnatural h
  | maxWritesPerMinute =>
    obtain ⟨i, hi, rfl⟩ := Option.map_eq_some_iff.1 h
    obtain ⟨rfl, hsize⟩ := wholeBelow?_eq_some_iff.1 hi
    have hbound : i < naturalBound := Nat.lt_trans hsize (by decide)
    simp [read?, optionalNatural?, Setting.naturalBelow?, Setting.natural?, Option.filter, hbound,
      hsize]
    rfl
  | logLevel =>
    cases setting <;> first | exact h | cases h
  | jsonLogs =>
    cases setting <;> first | exact h | cases h

/-- What stands for a value reads as this value. -/
theorem read?_literal (key : SettingKey) (x : key.Value) : key.read? (key.literal x) = some x := by
  have hnatural : ∀ n : UInt64,
      (wholeBelow? UInt64.size (.integer n.toNat)).map UInt64.ofNat = some n := by
    intro n
    rw [wholeBelow?_eq_some_iff.2 ⟨rfl, n.toNat_lt⟩, Option.map_some, UInt64.ofNat_toNat]
  have hlimit : ∀ n : UInt32,
      (wholeBelow? UInt32.size (.integer n.toNat)).map (fun n => some (UInt32.ofNat n)) =
        some (some n) := by
    intro n
    rw [wholeBelow?_eq_some_iff.2 ⟨rfl, n.toNat_lt⟩, Option.map_some, UInt32.ofNat_toNat]
  cases key with
  | beforePersistMs => exact read?_of_plain? .beforePersistMs (hnatural x)
  | afterPersistMs => exact read?_of_plain? .afterPersistMs (hnatural x)
  | pendingRequeueSeconds => exact read?_of_plain? .pendingRequeueSeconds (hnatural x)
  | logLevel => rfl
  | jsonLogs => rfl
  | maxWritesPerMinute =>
    cases x with
    | none => rfl
    | some limit => exact read?_of_plain? .maxWritesPerMinute (hlimit limit)

/-- Tables give no value. -/
theorem read?_table (entries : List (String × Setting)) (key : SettingKey) :
    key.read? (.table entries) = none := by
  cases key <;> rfl

end SettingKey

/-- The tree has a table for the section of a key, with a setting for the key. -/
def Setting.HoldsAt (tree : Setting) (key : SettingKey) (held : Setting) : Prop :=
  ∃ entries, tree.get? key.sectionName = some (.table entries) ∧
    findEntry key.name entries = some held

/-- The tree has a table for each section, with a setting for each known key. -/
def Setting.Holds (tree : Setting) (held : SettingKey → Setting) : Prop :=
  ∀ key, tree.HoldsAt key (held key)

/-- The tree of settings holds what stands for their values. -/
theorem Settings.holds_toSetting (s : Settings) :
    s.toSetting.Holds fun key => key.literal (key.value s) := by
  rcases s with ⟨⟨_, _, _ | _⟩, ⟨_⟩, ⟨_, _⟩⟩ <;> intro key <;> cases key <;> exact ⟨_, rfl, rfl⟩

section Sections

variable {entries : List (String × Setting)}

theorem PacingSettings.ofSetting?_table {x y z : Setting} {before after : UInt64}
    {limit : Option UInt32} (hx : findEntry "before_persist_ms" entries = some x)
    (hy : findEntry "after_persist_ms" entries = some y)
    (hz : findEntry "max_writes_per_minute" entries = some z)
    (hbefore : naturalOr? 0 (some x) = some before) (hafter : naturalOr? 0 (some y) = some after)
    (hlimit : optionalNatural? (some z) = some limit) :
    PacingSettings.ofSetting? (.table entries) = some ⟨before, after, limit⟩ := by
  simp [PacingSettings.ofSetting?, Setting.fields?, hx, hy, hz, hbefore, hafter, hlimit]

theorem WorkflowSettings.ofSetting?_table {x : Setting} {seconds : UInt64}
    (hx : findEntry "pending_requeue_seconds" entries = some x)
    (hseconds : naturalOr? 0 (some x) = some seconds) :
    WorkflowSettings.ofSetting? (.table entries) = some ⟨seconds⟩ := by
  obtain ⟨n, hn, rfl⟩ := Option.map_eq_some_iff.1 hseconds
  simp [WorkflowSettings.ofSetting?, Setting.fields?, hx, hn]

theorem LogSettings.ofSetting?_table {x y : Setting} {level : String} {json : Bool}
    (hx : findEntry "log_level" entries = some x) (hy : findEntry "json_logs" entries = some y)
    (hlevel : x.text? = some level) (hjson : y.flag? = some json) :
    LogSettings.ofSetting? (.table entries) = some ⟨level, json⟩ := by
  simp [LogSettings.ofSetting?, Setting.fields?, hx, hy, hlevel, hjson]

end Sections

/-- **A tree is read key by key.** -/
theorem Setting.Holds.exists_ofSetting? {tree : Setting} {held : SettingKey → Setting}
    (h : tree.Holds held) (hread : ∀ key : SettingKey, (key.read? (held key)).isSome) :
    ∃ s, Settings.ofSetting? tree = some s ∧
      ∀ key : SettingKey, key.read? (held key) = some (key.value s) := by
  obtain ⟨pacing, hpacing, hbefore⟩ := h .beforePersistMs
  obtain ⟨_, hpacing₁, hafter⟩ := h .afterPersistMs
  obtain ⟨_, hpacing₂, hlimit⟩ := h .maxWritesPerMinute
  obtain ⟨workflow, hworkflow, hseconds⟩ := h .pendingRequeueSeconds
  obtain ⟨log, hlog, hlevel⟩ := h .logLevel
  obtain ⟨_, hlog₁, hjson⟩ := h .jsonLogs
  obtain rfl := Setting.table.inj (Option.some.inj (hpacing.symm.trans hpacing₁))
  obtain rfl := Setting.table.inj (Option.some.inj (hpacing.symm.trans hpacing₂))
  obtain rfl := Setting.table.inj (Option.some.inj (hlog.symm.trans hlog₁))
  obtain ⟨before, hbefore'⟩ := Option.isSome_iff_exists.1 (hread .beforePersistMs)
  obtain ⟨after, hafter'⟩ := Option.isSome_iff_exists.1 (hread .afterPersistMs)
  obtain ⟨limit, hlimit'⟩ := Option.isSome_iff_exists.1 (hread .maxWritesPerMinute)
  obtain ⟨seconds, hseconds'⟩ := Option.isSome_iff_exists.1 (hread .pendingRequeueSeconds)
  obtain ⟨level, hlevel'⟩ := Option.isSome_iff_exists.1 (hread .logLevel)
  obtain ⟨json, hjson'⟩ := Option.isSome_iff_exists.1 (hread .jsonLogs)
  have hpacing' := PacingSettings.ofSetting?_table hbefore hafter hlimit hbefore' hafter' hlimit'
  have hworkflow' := WorkflowSettings.ofSetting?_table hseconds hseconds'
  have hlog' := LogSettings.ofSetting?_table hlevel hjson hlevel' hjson'
  refine ⟨⟨⟨before, after, limit⟩, ⟨seconds⟩, ⟨level, json⟩⟩, ?_, fun key => ?_⟩
  · simp only [SettingKey.sectionName] at hpacing hworkflow hlog
    simp [Settings.ofSetting?, sectionOr?, hpacing, hworkflow, hlog, hpacing', hworkflow', hlog']
  · cases key <;> assumption

end Reconciliation
