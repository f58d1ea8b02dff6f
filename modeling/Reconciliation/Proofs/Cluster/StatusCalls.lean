/-
# Status writes built by calls

A status write is put together by calls, one after the other (`StatusCall`).  Each call is
about one field of the status, and two of them can meet in a field only: the calls for the
phase also choose the outcome, and a message may be there to clear the one before.

What a list of calls comes to can be read off without following it: for each field, and for
the outcome, the last call that sets it decides (`StatusOptions.read_foldl`).  So calls for
different fields may change places, and a write may be made again (`status_calls`).
-/

import Reconciliation.Cluster.StatusWrite

namespace Reconciliation

/-- The fields of a status that calls can set. -/
inductive StatusField where
  | phase
  | message
  | currentMembers
  | currentWorkloadReplicas
  | uri
  | version
deriving DecidableEq, Repr

/-- A call that adds to a status write. -/
inductive StatusCall where
  | message (severity : Severity) (text : String)
  | members (n : UInt32)
  | workloadReplicas (n : UInt32)
  | uri (uri : String)
  | version (version : String)
  | running
  | pending (seconds : Nat)
  | failed
deriving DecidableEq

namespace StatusCall

/-- The field that a call is about. -/
def field : StatusCall → StatusField
  | message _ _ => .message
  | members _ => .currentMembers
  | workloadReplicas _ => .currentWorkloadReplicas
  | uri _ => .uri
  | version _ => .version
  | running | pending _ | failed => .phase

/-- The phase that a call sets. -/
def phase? : StatusCall → Option Phase
  | running => some .running
  | pending _ => some .pending
  | failed => some .failed
  | _ => none

/-- The outcome that a call sets: calls for the phase set one too. -/
def outcome? : StatusCall → Option Outcome
  | running | failed => some .requeue
  | pending seconds => some (.retry seconds)
  | _ => none

/-- The message that a call sets: none at all, whatever the text, when it is to clear. -/
def message? : StatusCall → Option String
  | message .clear _ => some ""
  | message .error text | message .info text => some text
  | _ => none

/-- The number of members that a call sets. -/
def members? : StatusCall → Option UInt32
  | members n => some n
  | _ => none

/-- The number of replicas that a call sets. -/
def workloadReplicas? : StatusCall → Option UInt32
  | workloadReplicas n => some n
  | _ => none

/-- The address that a call sets. -/
def uri? : StatusCall → Option String
  | .uri text => some text
  | _ => none

/-- The version that a call sets. -/
def version? : StatusCall → Option String
  | .version text => some text
  | _ => none

/-- What the last of the calls sets that set something of a kind. -/
def last? {α : Type} (set? : StatusCall → Option α) (calls : List StatusCall) : Option α :=
  (calls.filterMap set?).getLast?

end StatusCall

namespace StatusOptions

/-- The status write with one more call. -/
def call (o : StatusOptions) : StatusCall → StatusOptions
  | .message severity text => o.withMessage severity text
  | .members n => o.withMembers n
  | .workloadReplicas n => o.withWorkloadReplicas n
  | .uri uri => o.withUri uri
  | .version version => o.withVersion version
  | .running => o.withRunning
  | .pending seconds => o.withPending seconds
  | .failed => o.withFailed

/-- The status write that calls build, one after the other. -/
def ofCalls (calls : List StatusCall) : StatusOptions := calls.foldl call unchanged

/-- **The last call decides.**  What a call sets replaces what was there, so after many
calls the last one that sets it is left. -/
theorem read_foldl {α : Type} (read : StatusOptions → Option α) (set? : StatusCall → Option α)
    (hcall : ∀ o c, read (o.call c) = (set? c).or (read o)) (calls : List StatusCall)
    (o : StatusOptions) :
    read (calls.foldl call o) = (StatusCall.last? set? calls).or (read o) := by
  unfold StatusCall.last?
  induction calls generalizing o with
  | nil => rfl
  | cons c rest ih =>
    rw [List.foldl_cons, ih, hcall]
    cases hset : set? c with
    | none => simp [hset]
    | some value =>
      cases hrest : (rest.filterMap set?).getLast? <;> simp [hset, hrest, List.getLast?_cons]

/-- Started from nothing, what the last call sets is all there is. -/
theorem read_ofCalls {α : Type} (read : StatusOptions → Option α) (set? : StatusCall → Option α)
    (hcall : ∀ o c, read (o.call c) = (set? c).or (read o)) (hstart : read unchanged = none)
    (calls : List StatusCall) : read (ofCalls calls) = StatusCall.last? set? calls := by
  rw [ofCalls, read_foldl read set? hcall, hstart, Option.or_none]

/-- The outcome is the one of the last call for the phase. -/
theorem outcome_ofCalls (calls : List StatusCall) :
    (ofCalls calls).outcome = (StatusCall.last? StatusCall.outcome? calls).getD .requeue := by
  have hread := read_foldl (fun o => some o.outcome) StatusCall.outcome?
    (fun o c => by cases c <;> rfl) calls unchanged
  refine Option.some.inj (hread.trans ?_)
  cases StatusCall.last? StatusCall.outcome? calls <;> rfl

/-- Calls for different fields may change places. -/
theorem call_comm (o : StatusOptions) {a b : StatusCall} (h : a.field ≠ b.field) :
    (o.call a).call b = (o.call b).call a := by
  cases a <;> cases b <;> first | rfl | exact absurd rfl h

/-- A write that is made again changes only the stamp. -/
theorem apply_apply (o : StatusOptions) (now later : Timestamp) (status : ClusterStatus) :
    o.apply later (o.apply now status) = { o.apply now status with lastUpdated := some later } := by
  have hset : ∀ {α : Type} (x : Option α) (a : α), x.getD (x.getD a) = x.getD a := by
    intro α x a
    cases x <;> rfl
  simp only [apply, hset]

end StatusOptions

section Algebra

open StatusCall StatusOptions

/-- **Status writes built by calls.**  Each field of the status holds what the last call for
it says, and is as before when there was none; the outcome is the one of the last call for
the phase.  Neighbouring calls for different fields may change places, and a write that is
made again changes only the stamp. -/
theorem status_calls (calls : List StatusCall) :
    (∀ now status,
      ((ofCalls calls).apply now status).phase = (last? phase? calls).getD status.phase ∧
      ((ofCalls calls).apply now status).message = (last? message? calls).getD status.message ∧
      ((ofCalls calls).apply now status).currentMembers =
        (last? members? calls).getD status.currentMembers ∧
      ((ofCalls calls).apply now status).currentWorkloadReplicas =
        (last? workloadReplicas? calls).getD status.currentWorkloadReplicas ∧
      ((ofCalls calls).apply now status).uri = (last? uri? calls).getD status.uri ∧
      ((ofCalls calls).apply now status).version = (last? version? calls).getD status.version ∧
      ((ofCalls calls).apply now status).lastUpdated = some now) ∧
    (ofCalls calls).outcome = (last? outcome? calls).getD .requeue ∧
    (∀ earlier (a b : StatusCall) later, calls = earlier ++ a :: b :: later →
      a.field ≠ b.field → ofCalls (earlier ++ b :: a :: later) = ofCalls calls) ∧
    ∀ now later status, (ofCalls calls).apply later ((ofCalls calls).apply now status) =
      { (ofCalls calls).apply now status with lastUpdated := some later } := by
  refine ⟨fun now status => ⟨?_, ?_, ?_, ?_, ?_, ?_, rfl⟩, outcome_ofCalls calls, ?_,
    fun now later status => apply_apply _ now later status⟩
  · have hread := read_ofCalls StatusOptions.phase phase?
      (fun o c => by cases c <;> rfl) rfl calls
    rw [apply, hread]
  · have hread := read_ofCalls (fun o => o.message.map messageText) message?
      (fun o c => by rcases c with ⟨_ | _ | _, text⟩ | _ | _ | _ | _ | _ | _ | _ <;> rfl) rfl calls
    rw [apply, hread]
  · have hread := read_ofCalls StatusOptions.members members?
      (fun o c => by cases c <;> rfl) rfl calls
    rw [apply, hread]
  · have hread := read_ofCalls StatusOptions.workloadReplicas workloadReplicas?
      (fun o c => by cases c <;> rfl) rfl calls
    rw [apply, hread]
  · have hread := read_ofCalls StatusOptions.uri uri?
      (fun o c => by cases c <;> rfl) rfl calls
    rw [apply, hread]
  · have hread := read_ofCalls StatusOptions.version version?
      (fun o c => by cases c <;> rfl) rfl calls
    rw [apply, hread]
  · rintro earlier a b later rfl hfield
    simp only [ofCalls, List.foldl_append, List.foldl_cons, call_comm _ hfield]

/-- A message that is cleared after it was set and a phase that is replaced: the calls for
the message and the phase in the middle change places. -/
theorem status_calls_of_cleared : ∃ o : StatusOptions,
    o = ofCalls [.pending 5, .message .info "waiting", .message .clear "ignored", .running,
      .members 3] ∧
    (∀ now status, (o.apply now status).phase = .running ∧ (o.apply now status).message = "" ∧
      (o.apply now status).currentMembers = 3 ∧ (o.apply now status).uri = status.uri) ∧
    o.outcome = .requeue ∧
    o = ofCalls [.pending 5, .message .info "waiting", .running, .message .clear "ignored",
      .members 3] := by
  obtain ⟨happly, houtcome, hswap, -⟩ := status_calls
    [.pending 5, .message .info "waiting", .message .clear "ignored", .running, .members 3]
  have hfield : (StatusCall.message .clear "ignored").field ≠ StatusCall.running.field := by decide
  refine ⟨_, rfl, fun now status => ?_, houtcome, ?_⟩
  · obtain ⟨hphase, hmessage, hmembers, -, huri, -⟩ := happly now status
    exact ⟨hphase, hmessage, hmembers, huri⟩
  · exact (hswap [.pending 5, .message .info "waiting"] _ _ [.members 3] rfl hfield).symm

end Algebra
end Reconciliation
