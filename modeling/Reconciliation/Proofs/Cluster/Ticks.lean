/-
# The ways in which a call can go

A call of the reconciler looks the cluster up, builds the machine, observes and lets the
machine tick; a tick runs the action and the completion check, resolves the next state and
saves its name.  Whatever the surroundings do, a call that has ended has gone one of a few
ways (`Reconciler.Went`), and so has each tick (`Machine.Went`).  The ways are listed with
the pieces of work that were done, so that what is known about a piece can be used for the
whole call.
-/

import Reconciliation.Proofs.Cluster.Requests

namespace Reconciliation

variable {around : Surroundings}

/-! ## Work that is done before a result is given -/

/-- What others do after the work is part of the way. -/
theorem Ran.drift {α : Type} {work : Work α} {s t s' : Store} {a : α}
    (h : Ran around work s a t) (hdrift : around.Drifts t s') : Ran around work s a s' := by
  have hran : Ran around (work >>= pure) s a s' := h.bind (Ran.done_iff.2 ⟨rfl, hdrift⟩)
  rwa [bind_pure] at hran

/-- Work whose result is only turned into another one. -/
theorem Ran.exists_of_map {α β : Type} {work : Work α} {f : α → β} {s s' : Store} {b : β}
    (h : Ran around (work >>= fun a => pure (f a)) s b s') :
    ∃ a, Ran around work s a s' ∧ b = f a := by
  obtain ⟨a, t, hwork, hdone⟩ := h.exists_of_bind
  obtain ⟨rfl, hdrift⟩ := Ran.done_iff.1 hdone
  exact ⟨a, hwork.drift hdrift, rfl⟩

/-! ## Ticks -/

/-- `machine.Went around seen s ending ctx s'`: the ways in which a tick of the machine can
go that sees one context and leaves the other. -/
inductive Machine.Went (machine : Machine Work Failure Context) (around : Surroundings)
    (seen : Context) (s : Store) : Ending Failure → Context → Store → Prop
  | actionFailed {cause : Failure} {ctx : Context} {s' : Store}
      (acts : Ran around (machine.current.action.run seen) s (.error cause, ctx) s') :
      Went machine around seen s (.actionFailed machine.current.name cause) ctx s'
  | checkFailed {outcome : Outcome} {cause : Failure} {ctx : Context} {t s' : Store}
      (acts : Ran around (machine.current.action.run seen) s (.ok outcome, ctx) t)
      (judged : Ran around (Machine.verdict machine.current ctx) t (.error cause) s') :
      Went machine around seen s (.checkFailed machine.current.name cause) ctx s'
  | incomplete {outcome : Outcome} {ctx : Context} {t s' : Store}
      (acts : Ran around (machine.current.action.run seen) s (.ok outcome, ctx) t)
      (judged : Ran around (Machine.verdict machine.current ctx) t (.ok false) s') :
      Went machine around seen s (.incomplete outcome) ctx s'
  | advances {outcome : Outcome} {ctx : Context} {ending : Ending Failure} {t u s' : Store}
      (acts : Ran around (machine.current.action.run seen) s (.ok outcome, ctx) t)
      (judged : Ran around (Machine.verdict machine.current ctx) t (.ok true) u)
      (advances : Ran around (machine.advance outcome ctx) u ending s') :
      Went machine around seen s ending ctx s'

/-- **Every tick goes one of these ways.** -/
theorem Machine.went_of_ran {machine : Machine Work Failure Context} {seen ctx : Context}
    {ending : Ending Failure} {s s' : Store}
    (h : Ran around (machine.tick seen) s (ending, ctx) s') :
    machine.Went around seen s ending ctx s' := by
  obtain ⟨⟨result, ctx'⟩, t, hacts, h⟩ := h.exists_of_bind
  cases result with
  | error cause =>
    obtain ⟨hending, hdrift⟩ := Ran.done_iff.1 h
    cases hending
    exact .actionFailed (hacts.drift hdrift)
  | ok outcome =>
    obtain ⟨verdict, u, hjudged, h⟩ := h.exists_of_bind
    rcases verdict with cause | (_ | _)
    · obtain ⟨hending, hdrift⟩ := Ran.done_iff.1 h
      cases hending
      exact .checkFailed hacts (hjudged.drift hdrift)
    · obtain ⟨hending, hdrift⟩ := Ran.done_iff.1 h
      cases hending
      exact .incomplete hacts (hjudged.drift hdrift)
    · obtain ⟨ending', hadvances, hending⟩ := h.exists_of_map
      cases hending
      exact .advances hacts hjudged hadvances

/-! ## Calls -/

namespace Reconciler

/-- `r.Ticks around now name s machine ctx ending s'`: a call under the name has read a
cluster, and the machine that was built for it ticked and left the context. -/
def Ticks (r : Reconciler) (around : Surroundings) (now : Timestamp) (name : ResourceName)
    (s : Store) (machine : Machine Work Failure Context) (ctx : Context)
    (ending : Ending Failure) (s' : Store) : Prop :=
  ∃ c seen t u, Ran around (callStore (.get .cluster name)) s (.ok c) t ∧
    buildMachine c r.pacer = .ok machine ∧
    Ran around (Context.observe c r.pendingRequeue now).run t (.ok seen) u ∧
    Ran around (machine.tick seen) u (ending, ctx) s'

/-- The ways in which a call can go. -/
inductive Went (r : Reconciler) (around : Surroundings) (now : Timestamp) (name : ResourceName)
    (s : Store) : Conclusion → Store → Prop
  /-- The cluster was not found or could not be read. -/
  | unread {error : StoreError} {s' : Store}
      (lookup : Ran around (callStore (.get .cluster name)) s (.error error) s') :
      Went r around now name s (if error.isNotFound then .absent else .unreadable error) s'
  | misconfigured {c : DbCluster} {error : ConfigError} {s' : Store}
      (lookup : Ran around (callStore (.get .cluster name)) s (.ok c) s')
      (refused : buildMachine c r.pacer = .error error) :
      Went r around now name s (.misconfigured error) s'
  /-- The workload could not be read. -/
  | unobserved {c : DbCluster} {machine : Machine Work Failure Context} {error : StoreError}
      {t s' : Store} (lookup : Ran around (callStore (.get .cluster name)) s (.ok c) t)
      (built : buildMachine c r.pacer = .ok machine)
      (observes : Ran around (Context.observe c r.pendingRequeue now).run t (.error error) s') :
      Went r around now name s (.unreadable error) s'
  | ticked {machine : Machine Work Failure Context} {ctx : Context} {ending : Ending Failure}
      {s' : Store} (ticks : r.Ticks around now name s machine ctx ending s') :
      Went r around now name s (.ticked ending) s'

/-- **Every call goes one of these ways.** -/
theorem went_of_ran {r : Reconciler} {now : Timestamp} {name : ResourceName}
    {conclusion : Conclusion} {s s' : Store}
    (h : Ran around (r.reconcile now name) s conclusion s') :
    r.Went around now name s conclusion s' := by
  obtain ⟨reply, t, hlookup, h⟩ := h.exists_of_bind
  cases reply with
  | error error =>
    obtain ⟨rfl, hdrift⟩ := Ran.done_iff.1 h
    exact .unread (hlookup.drift hdrift)
  | ok c =>
    dsimp only at h
    cases hbuilt : buildMachine c r.pacer with
    | error error =>
      rw [hbuilt] at h
      obtain ⟨rfl, hdrift⟩ := Ran.done_iff.1 h
      exact .misconfigured (hlookup.drift hdrift) hbuilt
    | ok machine =>
      rw [hbuilt] at h
      obtain ⟨observed, u, hobserves, h⟩ := h.exists_of_bind
      cases observed with
      | error error =>
        obtain ⟨rfl, hdrift⟩ := Ran.done_iff.1 h
        exact .unobserved hlookup hbuilt (hobserves.drift hdrift)
      | ok seen =>
        obtain ⟨⟨ending, ctx⟩, hticks, rfl⟩ := h.exists_of_map
        exact .ticked ⟨c, seen, t, u, hlookup, hbuilt, hobserves, hticks⟩

end Reconciler
end Reconciliation
