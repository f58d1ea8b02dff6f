/-
# Pacing

A pacer is called right before and right after a progress record is written.  It
only bounds how fast the records are written; nothing else depends on it.
-/

import Reconciliation.Time.Duration
import Reconciliation.Json.Codec

namespace Reconciliation

/-- What happens around the write of a progress record. -/
structure Pacer (m : Type → Type) where
  before : m Unit
  after : m Unit

namespace Pacer

variable {m : Type → Type} [Monad m]

/-- No pacing: the write happens at once. -/
def none : Pacer m := ⟨pure (), pure ()⟩

/-- The longest sleep: thirty years of 365 days.  A clock has no further instants to
wait for. -/
def longestSleep : Duration := .ofSeconds (30 * 365 * 86400)

/-- Sleeps unless there is nothing to sleep, but never beyond the longest sleep. -/
def pause (sleep : Duration → m Unit) (d : Duration) : m Unit :=
  if d.isNone then pure () else sleep (d.min longestSleep)

/-- Fixed sleeps before and after the write. -/
def fixed (sleep : Duration → m Unit) (before after : Duration) : Pacer m :=
  ⟨pause sleep before, pause sleep after⟩

end Pacer

/-- The pacing section of the settings. -/
structure PacingSettings where
  /-- Sleep before writing the resume point, in milliseconds. -/
  beforePersistMs : UInt64
  /-- Sleep after writing the resume point, in milliseconds. -/
  afterPersistMs : UInt64
  /-- The greatest number of writes in a minute; it takes precedence over the
  fixed sleeps. -/
  maxWritesPerMinute : Option UInt32
deriving DecidableEq

namespace PacingSettings

/-- No pacing. -/
def standard : PacingSettings := ⟨0, 0, none⟩

instance : Inhabited PacingSettings := ⟨standard⟩

instance : Json.Codec PacingSettings where
  shape := .record [
    Json.optional "before_persist_ms" (0 : UInt64),
    Json.optional "after_persist_ms" (0 : UInt64),
    Json.optional "max_writes_per_minute" (none : Option UInt32)]
  toValue s := .object [
    ("before_persist_ms", Json.toValue s.beforePersistMs),
    ("after_persist_ms", Json.toValue s.afterPersistMs),
    ("max_writes_per_minute", Json.toValue s.maxWritesPerMinute)]
  ofValue
    | .object [(_, before), (_, after), (_, limit)] => do
      some ⟨← Json.ofValue before, ← Json.ofValue after, ← Json.ofValue limit⟩
    | _ => none

end PacingSettings

/-- The pacing that settings select. -/
inductive PacingPolicy where
  | none
  | fixed (before after : Duration)
  | rateLimited (writesPerMinute : UInt32)
deriving DecidableEq

namespace PacingPolicy

/-- A limit on the writes wins over fixed sleeps; a limit of zero is no limit, and
sleeps of zero are no pacing. -/
def ofSettings (s : PacingSettings) : PacingPolicy :=
  match s.maxWritesPerMinute with
  | some writes => if writes = 0 then sleeps s else .rateLimited writes
  | Option.none => sleeps s
where
  /-- The policy of the fixed sleeps alone. -/
  sleeps (s : PacingSettings) : PacingPolicy :=
    if s.beforePersistMs = 0 ∧ s.afterPersistMs = 0 then .none
    else .fixed (.ofMilliseconds s.beforePersistMs.toNat)
      (.ofMilliseconds s.afterPersistMs.toNat)

/-- The pacer of a policy.  A limiter starts with its full quota, so a write below
the limit does not wait. -/
def pacer {m : Type → Type} [Monad m] (sleep : Duration → m Unit) : PacingPolicy → Pacer m
  | .none => Pacer.none
  | .fixed before after => Pacer.fixed sleep before after
  | .rateLimited _ => Pacer.none

end PacingPolicy
end Reconciliation
