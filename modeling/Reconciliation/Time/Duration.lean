/-
# Durations

A `Duration` is a length of time in whole nanoseconds.
-/

namespace Reconciliation

/-- A length of time. -/
structure Duration where
  nanoseconds : Nat
deriving DecidableEq, Repr

namespace Duration

/-- No time at all. -/
def none : Duration := ⟨0⟩

instance : Inhabited Duration := ⟨none⟩

/-- So many seconds. -/
def ofSeconds (n : Nat) : Duration := ⟨n * 1000000000⟩

/-- So many milliseconds. -/
def ofMilliseconds (n : Nat) : Duration := ⟨n * 1000000⟩

/-- The whole seconds of a duration. -/
def seconds (d : Duration) : Nat := d.nanoseconds / 1000000000

/-- The nanoseconds beyond the whole seconds. -/
def subsecond (d : Duration) : Nat := d.nanoseconds % 1000000000

/-- The whole milliseconds of a duration. -/
def milliseconds (d : Duration) : Nat := d.nanoseconds / 1000000

/-- One duration after the other. -/
def add (a b : Duration) : Duration := ⟨a.nanoseconds + b.nanoseconds⟩

instance : Add Duration := ⟨add⟩

/-- The shorter of two durations. -/
def min (a b : Duration) : Duration := ⟨Nat.min a.nanoseconds b.nanoseconds⟩

/-- Whether the duration is no time at all. -/
def isNone (d : Duration) : Bool := d.nanoseconds = 0

@[simp] theorem seconds_ofSeconds (n : Nat) : (ofSeconds n).seconds = n := by
  simp [ofSeconds, seconds]

@[simp] theorem subsecond_ofSeconds (n : Nat) : (ofSeconds n).subsecond = 0 := by
  simp [ofSeconds, subsecond]

@[simp] theorem milliseconds_ofMilliseconds (n : Nat) :
    (ofMilliseconds n).milliseconds = n := by
  simp [ofMilliseconds, milliseconds]

end Duration
end Reconciliation
