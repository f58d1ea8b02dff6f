/-
# Runs on a clock

A pacer sleeps around the write of a progress record, and nothing else in the engine takes
time.  A run of the engine builds machines, points them elsewhere and ticks them, in any
order, while other things may happen in between (`EngineStep`); every call to a collaborator
is noted down on the way, and a clock runs beside it (`Observed`).

The clock is not looked at.  A tick on a clock is the tick without one, and how long it
takes depends on how it ends alone (`Machine.tick_timed`).  So the pacing changes nothing in
a run except the time that it takes, and this time follows from how often a save was tried
and how often it succeeded (`pacing_changes_nothing`).

A sleep never lasts longer than `Pacer.longestSleep`, so very long delays are cut short
(`not_forall_slept_in_full`).
-/

import Reconciliation.Proofs.Engine.Walk

namespace Reconciliation

variable {σ τ ε C α β : Type}

/-! ## Time -/

theorem Duration.ext_nanoseconds {a b : Duration} (h : a.nanoseconds = b.nanoseconds) : a = b := by
  cases a
  cases b
  exact congrArg Duration.mk h

@[simp] theorem Duration.nanoseconds_none : Duration.none.nanoseconds = 0 := rfl

@[simp] theorem Duration.nanoseconds_add (a b : Duration) :
    (a + b).nanoseconds = a.nanoseconds + b.nanoseconds := rfl

theorem Duration.add_assoc (a b c : Duration) : a + b + c = a + (b + c) :=
  ext_nanoseconds (Nat.add_assoc ..)

/-- Surroundings with the time that has passed. -/
abbrev Timed (τ : Type) := StateM (τ × Duration)

/-- A computation that takes no time. -/
def untimed (x : StateM τ α) : Timed τ α := fun (w, passed) => ((x w).1, ((x w).2, passed))

/-- Lets time pass. -/
def passTime (d : Duration) : Timed τ Unit := fun (w, passed) => ((), (w, passed + d))

theorem untimed_apply (x : StateM τ α) (w : τ) (passed : Duration) :
    untimed x (w, passed) = ((x w).1, ((x w).2, passed)) := rfl

/-! ## What a pacer sleeps -/

namespace PacingPolicy

/-- The time that passes before a save is tried. -/
def beforeSave : PacingPolicy → Duration
  | .fixed before _ => before.min Pacer.longestSleep
  | _ => .none

/-- The time that passes after a save that succeeded. -/
def afterSave : PacingPolicy → Duration
  | .fixed _ after => after.min Pacer.longestSleep
  | _ => .none

/-- The time that a tick takes by its ending. -/
def taken (policy : PacingPolicy) : Ending ε → Duration
  | .saveFailed _ _ _ => policy.beforeSave
  | .advanced _ _ => policy.beforeSave + policy.afterSave
  | _ => .none

theorem pause_passTime (d : Duration) (w : τ) (passed : Duration) :
    Pacer.pause (passTime : Duration → Timed τ Unit) d (w, passed) =
      ((), (w, passed + d.min Pacer.longestSleep)) := by
  unfold Pacer.pause
  split
  · rename_i h
    have hd : d = .none := Duration.ext_nanoseconds (by simpa [Duration.isNone] using h)
    subst hd
    rfl
  · rfl

theorem before_passTime (policy : PacingPolicy) (w : τ) (passed : Duration) :
    (policy.pacer passTime).before (w, passed) = ((), (w, passed + policy.beforeSave)) := by
  cases policy with
  | none | rateLimited => rfl
  | fixed before after => exact pause_passTime before w passed

theorem after_passTime (policy : PacingPolicy) (w : τ) (passed : Duration) :
    (policy.pacer passTime).after (w, passed) = ((), (w, passed + policy.afterSave)) := by
  cases policy with
  | none | rateLimited => rfl
  | fixed before after => exact pause_passTime after w passed

end PacingPolicy

/-! ## Machines on a clock -/

/-- The state on a clock: its action and its check take no time. -/
def State.timed (state : State (StateM τ) ε C) : State (Timed τ) ε C where
  name := state.name
  action := ⟨state.action.id, fun ctx => untimed (state.action.run ctx)⟩
  check := state.check.map fun check => ⟨check.id, fun ctx => untimed (check.isComplete ctx)⟩

/-- The edge on a clock: its guard takes no time. -/
def Edge.timed (edge : Edge (StateM τ) C) : Edge (Timed τ) C :=
  ⟨edge.source, edge.target, fun ctx => untimed (edge.guard ctx)⟩

/-- The graph on a clock. -/
def Graph.timed (graph : Graph (StateM τ) ε C) : Graph (Timed τ) ε C :=
  ⟨graph.states.map State.timed, graph.edges.map Edge.timed⟩

/-- The pacer on a clock, with the sleeps of a policy. -/
def Pacer.timed (pacer : Pacer (StateM τ)) (policy : PacingPolicy) : Pacer (Timed τ) where
  before := do
    untimed pacer.before
    (policy.pacer passTime).before
  after := do
    untimed pacer.after
    (policy.pacer passTime).after

/-- The machine on a clock, paced by a policy. -/
def Machine.timed (machine : Machine (StateM τ) ε C) (policy : PacingPolicy) :
    Machine (Timed τ) ε C where
  graph := machine.graph.timed
  current := machine.current.timed
  save next := untimed (machine.save next)
  pacer := machine.pacer.timed policy

namespace Graph

theorem edgesFrom_timed (graph : Graph (StateM τ) ε C) (name : String) :
    graph.timed.edgesFrom name = (graph.edgesFrom name).map Edge.timed := by
  simp only [edgesFrom, timed, List.filter_map]
  rfl

theorem state?_timed (graph : Graph (StateM τ) ε C) (name : String) :
    graph.timed.state? name = (graph.state? name).map State.timed := by
  rw [state?, timed, List.find?_map]
  rfl

theorem state?_watched (graph : Graph (StateM σ) ε C) (name : String) :
    graph.watched.state? name = (graph.state? name).map State.watched := by
  rw [state?, watched, List.find?_map]
  rfl

/-- The same edge is chosen, and choosing takes no time. -/
theorem firstAllowed_timed (ctx : C) (edges : List (Edge (StateM τ) C)) (w : τ)
    (passed : Duration) :
    firstAllowed ctx (edges.map Edge.timed) (w, passed) =
      ((firstAllowed ctx edges w).1.map Edge.timed, ((firstAllowed ctx edges w).2, passed)) := by
  induction edges generalizing w with
  | nil => rfl
  | cons edge edges ih =>
    have hguard : edge.timed.guard ctx (w, passed) =
        ((edge.guard ctx w).1, ((edge.guard ctx w).2, passed)) := rfl
    simp only [firstAllowed, List.map_cons, stateM_bind_apply, hguard]
    split
    · rfl
    · exact ih _

end Graph

namespace Machine

/-- The verdict on a state takes no time. -/
theorem verdict_timed (state : State (StateM τ) ε C) (ctx : C) (w : τ) (passed : Duration) :
    verdict state.timed ctx (w, passed) =
      ((verdict state ctx w).1, ((verdict state ctx w).2, passed)) := by
  unfold verdict State.timed
  cases state.check <;> rfl

/-- Leaving a complete state takes the time of the pacer. -/
theorem advance_timed (machine : Machine (StateM τ) ε C) (policy : PacingPolicy)
    (outcome : Outcome) (ctx : C) (w : τ) (passed : Duration) :
    (machine.timed policy).advance outcome ctx (w, passed) =
      ((machine.advance outcome ctx w).1, ((machine.advance outcome ctx w).2,
        passed + policy.taken (machine.advance outcome ctx w).1)) := by
  rcases hedge : machine.graph.resolveNext machine.current.name ctx w with ⟨edge?, w₁⟩
  rcases hbefore : machine.pacer.before w₁ with ⟨_, w₂⟩
  have hedge' : (machine.timed policy).graph.resolveNext (machine.timed policy).current.name ctx
      (w, passed) = (edge?.map Edge.timed, (w₁, passed)) := by
    have hfirst := Graph.firstAllowed_timed ctx (machine.graph.edgesFrom machine.current.name) w
      passed
    rw [← Graph.edgesFrom_timed] at hfirst
    rw [Graph.resolveNext] at hedge
    rw [hedge] at hfirst
    exact hfirst
  have hnext : ((edge?.map Edge.timed).map Edge.target).getD "" =
      (edge?.map Edge.target).getD "" := by
    rw [Option.map_map]
    rfl
  have hbefore' : (machine.timed policy).pacer.before (w₁, passed) =
      ((), (w₂, passed + policy.beforeSave)) := by
    show (untimed machine.pacer.before >>= fun _ => (policy.pacer passTime).before) _ = _
    rw [stateM_bind_apply, untimed_apply, hbefore, policy.before_passTime]
  have hsave' : ∀ next passed, (machine.timed policy).save next (w₂, passed) =
      ((machine.save next w₂).1, ((machine.save next w₂).2, passed)) := fun _ _ => rfl
  rcases hsave : machine.save ((edge?.map Edge.target).getD "") w₂ with ⟨cause | _, w₃⟩
  · rw [advance_of_error hedge rfl hbefore hsave,
      advance_of_error hedge' hnext hbefore' ((hsave' _ _).trans (by rw [hsave]))]
    rfl
  · rcases hafter : machine.pacer.after w₃ with ⟨_, w₄⟩
    have hafter' : (machine.timed policy).pacer.after (w₃, passed + policy.beforeSave) =
        ((), (w₄, passed + policy.beforeSave + policy.afterSave)) := by
      show (untimed machine.pacer.after >>= fun _ => (policy.pacer passTime).after) _ = _
      rw [stateM_bind_apply, untimed_apply, hafter, policy.after_passTime]
    rw [advance_of_ok hedge rfl hbefore hsave hafter,
      advance_of_ok hedge' hnext hbefore' ((hsave' _ _).trans (by rw [hsave])) hafter',
      Duration.add_assoc]
    rfl

/-- **A tick on a clock is the tick without one**, and it takes the time of its ending. -/
theorem tick_timed (machine : Machine (StateM τ) ε C) (policy : PacingPolicy) (ctx : C) (w : τ)
    (passed : Duration) :
    (machine.timed policy).tick ctx (w, passed) =
      ((machine.tick ctx w).1, ((machine.tick ctx w).2,
        passed + policy.taken (machine.tick ctx w).1.1)) := by
  have hact' : (machine.timed policy).current.action.run ctx (w, passed) =
      ((machine.current.action.run ctx w).1, ((machine.current.action.run ctx w).2, passed)) := rfl
  rcases hact : machine.current.action.run ctx w with ⟨⟨cause | outcome, ctx'⟩, w₁⟩
  · rw [hact] at hact'
    rw [tick_of_error hact', tick_of_error hact]
    rfl
  · rw [hact] at hact'
    have hverdict := verdict_timed machine.current ctx' w₁ passed
    rw [tick_of_ok hact', tick_of_ok hact]
    rw [show (machine.timed policy).current = machine.current.timed from rfl, hverdict]
    rcases verdict machine.current ctx' w₁ with ⟨cause | _ | _, w₂⟩
    · rfl
    · rfl
    · simp only [advance_timed]

end Machine

/-! ## Runs -/

/-- Surroundings in which calls are noted down and a clock runs. -/
abbrev Observed (σ C : Type) := Timed (σ × List (EngineCall σ C))

/-- The pacer that only has its calls noted down. -/
def Pacer.noted : Pacer (Watched σ C) :=
  ⟨watch .beforeSave (pure ()), watch .afterSave (pure ())⟩

/-- The machine on a clock, with its calls noted down. -/
def Machine.observed (machine : Machine (StateM σ) ε C) (policy : PacingPolicy) :
    Machine (Observed σ C) ε C :=
  machine.watched.timed policy

/-- What is done in a run of the engine. -/
inductive EngineStep (σ ε C : Type) where
  /-- A machine is built at the record that is found in the surroundings. -/
  | resume (graph : Graph (StateM σ) ε C) (record : σ → Progress) (initial : String)
      (save : String → StateM σ (Except ε Unit))
  /-- The machine is pointed elsewhere. -/
  | setState (name : String)
  /-- The machine ticks on the context. -/
  | tick
  /-- Something else happens to the context and to the surroundings. -/
  | others (change : C → StateM σ C)

/-- What a step answers. -/
inductive EngineAnswer (ε : Type) where
  /-- Whether a machine was built or pointed elsewhere. -/
  | config (result : Except ConfigError Unit)
  | tick (result : Except (TickError ε) Outcome)
  /-- No machine was called. -/
  | idle

/-- Where a run of the engine is. -/
structure EngineSession (m : Type → Type) (σ ε C : Type) where
  machine : Option (Machine m ε C)
  ctx : C
  counters : Counters
  surroundings : σ

/-- What can be seen of a step: what it answers, calls and counts, and what it leaves. -/
structure EngineReport (σ ε C : Type) where
  answer : EngineAnswer ε
  calls : List (EngineCall σ C)
  events : List Event
  ctx : C
  counters : Counters
  surroundings : σ

/-- Whether the call is one to the progress store. -/
def EngineCall.isSave : EngineCall σ C → Bool
  | .save _ => true
  | _ => false

/-- How often a step tried to save. -/
def EngineReport.attempts (report : EngineReport σ ε C) : Nat :=
  report.calls.countP EngineCall.isSave

/-- How often a step saved. -/
def EngineReport.saved (report : EngineReport σ ε C) : Nat := report.events.count .transition

namespace EngineSession

/-- Nothing has happened. -/
def start {m : Type → Type} (ctx : C) (w : σ) : EngineSession m σ ε C := ⟨none, ctx, .zero, w⟩

/-- What is seen of a step that ends in a session, and how long it took. -/
def seen {m : Type → Type} (session : EngineSession m σ ε C) (answer : EngineAnswer ε)
    (calls : List (EngineCall σ C)) (events : List Event) (taken : Duration) :
    (EngineReport σ ε C × Duration) × EngineSession m σ ε C :=
  ((⟨answer, calls, events, session.ctx, session.counters, session.surroundings⟩, taken), session)

/-- A step of a run with a pacing. -/
def perform (policy : PacingPolicy) (session : EngineSession (Observed σ C) σ ε C) :
    EngineStep σ ε C → (EngineReport σ ε C × Duration) × EngineSession (Observed σ C) σ ε C
  | .resume graph record initial save =>
    match (Machine.resume graph.watched.timed (record session.surroundings) initial
        (fun next => untimed (watch (.save next) (save next)))).map
          fun machine => machine.withPacer (Pacer.noted.timed policy) with
    | .ok machine =>
      { session with machine := some machine }.seen (.config (.ok ())) [] [] .none
    | .error error => { session with machine := none }.seen (.config (.error error)) [] [] .none
  | .setState name =>
    match session.machine with
    | none => session.seen .idle [] [] .none
    | some machine =>
      match machine.setState name with
      | .ok moved => { session with machine := some moved }.seen (.config (.ok ())) [] [] .none
      | .error error => session.seen (.config (.error error)) [] [] .none
  | .tick =>
    match session.machine with
    | none => session.seen .idle [] [] .none
    | some machine =>
      let ((ending, ctx), ((w, calls), taken)) :=
        machine.tick session.ctx ((session.surroundings, []), .none)
      { session with
        ctx := ctx
        counters := session.counters.recordAll ending.events
        surroundings := w }.seen (.tick ending.result) calls ending.events taken
  | .others change =>
    let (ctx, w) := change session.ctx session.surroundings
    { session with ctx := ctx, surroundings := w }.seen .idle [] [] .none

/-- A run with a pacing: what is seen of its steps, with the time that each took, and where
it ends. -/
def run (policy : PacingPolicy) (session : EngineSession (Observed σ C) σ ε C) :
    List (EngineStep σ ε C) →
      List (EngineReport σ ε C × Duration) × EngineSession (Observed σ C) σ ε C
  | [] => ([], session)
  | step :: steps =>
    let (entry, next) := session.perform policy step
    let (log, last) := next.run policy steps
    (entry :: log, last)

end EngineSession

/-- The nanoseconds that the steps of a run took. -/
def timeTaken (log : List (EngineReport σ ε C × Duration)) : Nat :=
  (log.map fun entry => entry.2.nanoseconds).foldr (· + ·) 0

/-! ## Pacing changes nothing but the time -/

section Building

variable {graph : Graph (StateM σ) ε C} {record : Progress} {initial : String}
  {save : String → StateM σ (Except ε Unit)} {machine : Machine (StateM σ) ε C} {name : String}

/-- A lookup in the observed graph finds the observed state. -/
theorem Graph.state?_observed (graph : Graph (StateM σ) ε C) (name : String) :
    graph.watched.timed.state? name =
      (graph.state? name).map fun state => state.watched.timed := by
  rw [state?_timed, state?_watched, Option.map_map]
  rfl

theorem Graph.contains_observed (graph : Graph (StateM σ) ε C) (name : String) :
    graph.watched.timed.contains name = graph.contains name := by
  rw [contains, contains, state?_observed, Option.isSome_map]

/-- Building an observed machine gives the observed one of the machine that is built. -/
theorem Machine.resume_observed (policy : PacingPolicy) (graph : Graph (StateM σ) ε C)
    (record : Progress) (initial : String) (save : String → StateM σ (Except ε Unit)) :
    (Machine.resume graph.watched.timed record initial
        (fun next => untimed (watch (.save next) (save next)))).map
      (fun machine => machine.withPacer (Pacer.noted.timed policy)) =
      (Machine.resume graph record initial save).map fun machine => machine.observed policy := by
  simp only [resume, Graph.contains_observed, Graph.state?_observed]
  split
  · cases graph.state? (record.resumePoint?.getD initial) <;> rfl
  · rfl

/-- Pointing an observed machine elsewhere gives the observed one of the machine that is
pointed elsewhere. -/
theorem Machine.setState_observed (policy : PacingPolicy) (machine : Machine (StateM σ) ε C)
    (name : String) :
    (machine.observed policy).setState name =
      (machine.setState name).map fun moved => moved.observed policy := by
  have hlookup : (machine.observed policy).graph.state? name =
      (machine.graph.state? name).map fun state => state.watched.timed :=
    Graph.state?_observed machine.graph name
  simp only [setState, hlookup]
  cases machine.graph.state? name <;> rfl

end Building

/-- The time that so many attempts to save take, of which some succeeded. -/
def PacingPolicy.takenFor (policy : PacingPolicy) (attempts saved : Nat) : Nat :=
  attempts * policy.beforeSave.nanoseconds + saved * policy.afterSave.nanoseconds

/-- A tick tries to save once when it ends in a transition or in a persistence error, and
not at all otherwise. -/
theorem countP_isSave_of_ticked {machine : Machine (StateM σ) ε C} {ctx ctx' : C} {w w' : σ}
    {calls : List (EngineCall σ C)} {result : Except (TickError ε) Outcome} {ending : Ending ε}
    (h : machine.Ticked ctx w calls result ending.event ctx' w') :
    calls.countP EngineCall.isSave =
      ending.events.count .transition + ending.events.count .persistenceError := by
  have hjudged : ∀ {ctx : C} {w w' : σ} {calls : List (EngineCall σ C)} {verdict : Except ε Bool},
      Judged machine.current ctx w calls verdict w' → calls.countP EngineCall.isSave = 0 := by
    intro ctx w w' calls verdict h
    cases h <;> rfl
  have hasked : ∀ asked : List (Edge (StateM σ) C),
      (asked.map (EngineCall.guard · ctx')).countP EngineCall.isSave = 0 := by
    intro asked
    simp [List.countP_map, Function.comp_def, EngineCall.isSave]
  rw [ending.events_eq]
  generalize ending.event = event at h
  cases h with
  | actionFailed acts => rfl
  | checkFailed acts judged | incomplete acts judged =>
    rw [List.countP_append, hjudged judged]
    rfl
  | unsaved acts judged | saved acts judged =>
    rw [List.countP_append, List.countP_append, List.countP_append, hjudged judged, hasked]
    rfl

/-- The time of an ending, by the events that it counts. -/
theorem PacingPolicy.nanoseconds_taken (policy : PacingPolicy) (ending : Ending ε) :
    (policy.taken ending).nanoseconds =
      policy.takenFor (ending.events.count .transition + ending.events.count .persistenceError)
        (ending.events.count .transition) := by
  cases ending <;> simp [taken, takenFor, Ending.events]

namespace EngineSession

/-- The session with its machine observed. -/
def observed (session : EngineSession (StateM σ) σ ε C) (policy : PacingPolicy) :
    EngineSession (Observed σ C) σ ε C :=
  { session with machine := session.machine.map fun machine => machine.observed policy }

/-- What a step makes of a session is the same under every pacing, and so is what is seen of
it; the time that it takes is the one of its saves. -/
structure StepsTo (session : EngineSession (StateM σ) σ ε C) (step : EngineStep σ ε C)
    (report : EngineReport σ ε C) (next : EngineSession (StateM σ) σ ε C) : Prop where
  performs : ∀ policy, ∃ taken, (session.observed policy).perform policy step =
    ((report, taken), next.observed policy) ∧
      taken.nanoseconds = policy.takenFor report.attempts report.saved
  attempts_eq : report.attempts =
    report.events.count .transition + report.events.count .persistenceError
  counters_eq : next.counters = session.counters.recordAll report.events

/-- A step that calls and counts nothing takes no time. -/
theorem StepsTo.of_quiet {session next : EngineSession (StateM σ) σ ε C} {step : EngineStep σ ε C}
    (answer : EngineAnswer ε) (hcounters : next.counters = session.counters)
    (h : ∀ policy, (session.observed policy).perform policy step =
      (next.observed policy).seen answer [] [] .none) :
    session.StepsTo step ⟨answer, [], [], next.ctx, next.counters, next.surroundings⟩ next := by
  refine ⟨fun policy => ⟨.none, h policy, ?_⟩, rfl, hcounters⟩
  simp [PacingPolicy.takenFor, EngineReport.attempts, EngineReport.saved]

/-- **One step**, under all pacings at once. -/
theorem exists_stepsTo (session : EngineSession (StateM σ) σ ε C) (step : EngineStep σ ε C) :
    ∃ report next, session.StepsTo step report next := by
  cases step with
  | resume graph record initial save =>
    have hresume := fun policy =>
      Machine.resume_observed policy graph (record session.surroundings) initial save
    cases h : Machine.resume graph (record session.surroundings) initial save with
    | error error =>
      refine ⟨_, { session with machine := none },
        .of_quiet (.config (.error error)) rfl fun policy => ?_⟩
      have hresumed := hresume policy
      rw [h] at hresumed
      simp only [perform, observed]
      rw [hresumed]
      rfl
    | ok machine =>
      refine ⟨_, { session with machine := some machine },
        .of_quiet (.config (.ok ())) rfl fun policy => ?_⟩
      have hresumed := hresume policy
      rw [h] at hresumed
      simp only [perform, observed]
      rw [hresumed]
      rfl
  | setState name =>
    cases hmachine : session.machine with
    | none =>
      refine ⟨_, session, .of_quiet .idle rfl fun policy => ?_⟩
      simp only [perform, observed, hmachine, Option.map_none]
    | some machine =>
      cases h : machine.setState name with
      | error error =>
        refine ⟨_, session, .of_quiet (.config (.error error)) rfl fun policy => ?_⟩
        simp only [perform, observed, hmachine, Option.map_some, Machine.setState_observed, h,
          Except.map]
      | ok moved =>
        refine ⟨_, { session with machine := some moved },
          .of_quiet (.config (.ok ())) rfl fun policy => ?_⟩
        simp only [perform, observed, hmachine, Option.map_some, Machine.setState_observed, h,
          Except.map]
  | tick =>
    cases hmachine : session.machine with
    | none =>
      refine ⟨_, session, .of_quiet .idle rfl fun policy => ?_⟩
      simp only [perform, observed, hmachine, Option.map_none]
    | some machine =>
      obtain ⟨ending, ctx', w', calls, hwatched, -, hticked⟩ :=
        machine.tick_watched session.ctx session.surroundings
      refine ⟨⟨.tick ending.result, calls, ending.events, ctx',
        session.counters.recordAll ending.events, w'⟩,
        { session with
          ctx := ctx'
          counters := session.counters.recordAll ending.events
          surroundings := w' },
        fun policy => ⟨.none + policy.taken ending, ?_, ?_⟩, countP_isSave_of_ticked hticked, rfl⟩
      · simp only [perform, observed, hmachine, Option.map_some, Machine.observed,
          Machine.tick_timed, hwatched]
        rfl
      · rw [Duration.nanoseconds_add, Duration.nanoseconds_none, Nat.zero_add,
          policy.nanoseconds_taken, EngineReport.attempts, countP_isSave_of_ticked hticked]
        rfl
  | others change =>
    exact ⟨_, { session with
        ctx := (change session.ctx session.surroundings).1
        surroundings := (change session.ctx session.surroundings).2 },
      .of_quiet .idle rfl fun policy => rfl⟩

/-- **A run**, under all pacings at once. -/
theorem exists_run (session : EngineSession (StateM σ) σ ε C) (steps : List (EngineStep σ ε C)) :
    ∃ (reports : List (EngineReport σ ε C)) (last : EngineSession (StateM σ) σ ε C),
      last.counters = reports.foldl (fun counters report => counters.recordAll report.events)
        session.counters ∧
      (∀ report ∈ reports, report.attempts =
        report.events.count .transition + report.events.count .persistenceError) ∧
      ∀ policy, ∃ log, (session.observed policy).run policy steps = (log, last.observed policy) ∧
        log.map Prod.fst = reports ∧
        log.map (fun entry => entry.2.nanoseconds) =
          reports.map fun report => policy.takenFor report.attempts report.saved := by
  induction steps generalizing session with
  | nil => exact ⟨[], session, rfl, nofun, fun policy => ⟨[], rfl, rfl, rfl⟩⟩
  | cons step steps ih =>
    obtain ⟨report, next, hstep⟩ := session.exists_stepsTo step
    obtain ⟨reports, last, hcounters, hattempts, hrun⟩ := ih next
    refine ⟨report :: reports, last, ?_, ?_, fun policy => ?_⟩
    · rw [hcounters, hstep.counters_eq]
      rfl
    · exact List.forall_mem_cons.2 ⟨hstep.attempts_eq, hattempts⟩
    · obtain ⟨taken, hperform, htaken⟩ := hstep.performs policy
      obtain ⟨log, hlog, hreports, htimes⟩ := hrun policy
      refine ⟨(report, taken) :: log, ?_, ?_, ?_⟩
      · simp only [run, hperform, hlog]
      · rw [List.map_cons, hreports]
      · rw [List.map_cons, List.map_cons, htaken, htimes]

end EngineSession

/-! ## The time of a run -/

theorem Counters.transitions_recordAll (counters : Counters) (events : List Event) :
    (counters.recordAll events).transitions = counters.transitions + events.count .transition := by
  unfold recordAll
  induction events generalizing counters with
  | nil => rfl
  | cons event events ih =>
    rw [List.foldl_cons, ih, List.count_cons]
    cases event <;> simp [record, Nat.add_comm, Nat.add_left_comm]

theorem Counters.persistenceErrors_recordAll (counters : Counters) (events : List Event) :
    (counters.recordAll events).persistenceErrors =
      counters.persistenceErrors + events.count .persistenceError := by
  unfold recordAll
  induction events generalizing counters with
  | nil => rfl
  | cons event events ih =>
    rw [List.foldl_cons, ih, List.count_cons]
    cases event <;> simp [record, Nat.add_comm, Nat.add_left_comm]

theorem PacingPolicy.takenFor_add (policy : PacingPolicy) (m n k l : Nat) :
    policy.takenFor (m + n) (k + l) = policy.takenFor m k + policy.takenFor n l := by
  simp only [takenFor, Nat.add_mul]
  omega

/-- The times of reports add up to the time of all that they count. -/
theorem PacingPolicy.sum_takenFor (policy : PacingPolicy) (reports : List (EngineReport σ ε C))
    (hattempts : ∀ report ∈ reports, report.attempts =
      report.events.count .transition + report.events.count .persistenceError)
    (counters last : Counters)
    (hlast : last = reports.foldl (fun counters report => counters.recordAll report.events)
      counters) :
    policy.takenFor (last.transitions + last.persistenceErrors) last.transitions =
      policy.takenFor (counters.transitions + counters.persistenceErrors) counters.transitions +
        (reports.map fun report => policy.takenFor report.attempts report.saved).foldr
          (· + ·) 0 := by
  induction reports generalizing counters with
  | nil =>
    rw [hlast]
    rfl
  | cons report reports ih =>
    obtain ⟨hreport, hreports⟩ := List.forall_mem_cons.1 hattempts
    rw [ih hreports (counters.recordAll report.events) hlast, List.map_cons, List.foldr_cons,
      ← Nat.add_assoc, ← takenFor_add, hreport, EngineReport.saved,
      Counters.transitions_recordAll, Counters.persistenceErrors_recordAll]
    congr 2
    omega

section

open EngineSession

/-- **Pacing changes nothing but the time.**  Whatever is done in a run, what is seen of its
steps is the same under any two pacings: the answers, the calls to the collaborators with the
contexts that they are shown, the surroundings with the records in them, and the counters.
With fixed sleeps every step sleeps once for each save that it tries and once for each that
succeeds, so the whole run does by what it counts; no sleep is longer than the longest. -/
theorem pacing_changes_nothing (steps : List (EngineStep σ ε C)) (ctx : C) (w : σ) :
    (∀ p q : PacingPolicy,
      ((start ctx w).run p steps).1.map Prod.fst = ((start ctx w).run q steps).1.map Prod.fst ∧
      ((start ctx w).run p steps).2.counters = ((start ctx w).run q steps).2.counters) ∧
    ∀ before after : Duration,
      let (log, last) := (start ctx w).run (.fixed before after) steps
      let b := (before.min Pacer.longestSleep).nanoseconds
      let a := (after.min Pacer.longestSleep).nanoseconds
      log.map (fun entry => entry.2.nanoseconds) =
        log.map (fun entry => entry.1.attempts * b + entry.1.saved * a) ∧
      timeTaken log = (last.counters.transitions + last.counters.persistenceErrors) * b +
        last.counters.transitions * a := by
  obtain ⟨reports, last, hcounters, hattempts, hrun⟩ :=
    exists_run (EngineSession.start (m := StateM σ) (ε := ε) ctx w) steps
  have hstart : ∀ policy, (EngineSession.start (m := StateM σ) (ε := ε) ctx w).observed policy =
      EngineSession.start ctx w := fun _ => rfl
  refine ⟨fun p q => ?_, fun before after => ?_⟩
  · obtain ⟨log, hlog, hreports, -⟩ := hrun p
    obtain ⟨log', hlog', hreports', -⟩ := hrun q
    rw [hstart] at hlog hlog'
    rw [hlog, hlog']
    exact ⟨hreports.trans hreports'.symm, rfl⟩
  · obtain ⟨log, hlog, hreports, htimes⟩ := hrun (.fixed before after)
    rw [hstart] at hlog
    rw [hlog]
    refine ⟨?_, ?_⟩
    · rw [htimes, ← hreports, List.map_map]
      rfl
    · have hsum := PacingPolicy.sum_takenFor (.fixed before after) reports hattempts .zero
        last.counters hcounters
      rw [timeTaken, htimes]
      exact (hsum.trans (by simp [PacingPolicy.takenFor, Counters.zero])).symm

/-- A state that completes at once. -/
def atOnce : State Scripted String Variables := ⟨"A", Scripted.action 1 "A" [] .done, none⟩

/-- A run that takes less time than its saves and the sleeps around them come to: a pause of
a thousand million seconds is cut short after thirty years. -/
theorem not_forall_slept_in_full : ¬ ∀ (before after : Duration)
    (steps : List (EngineStep World String Variables)) (ctx : Variables) (w : World),
    let (log, last) := (start ctx w).run (.fixed before after) steps
    timeTaken log =
      (last.counters.transitions + last.counters.persistenceErrors) * before.nanoseconds +
        last.counters.transitions * after.nanoseconds := by
  intro h
  have hrun := h (.ofSeconds 1000000000) .none
    [.resume ⟨[atOnce], []⟩ World.record "A" Scripted.save, .tick] [] .fresh
  revert hrun
  decide +kernel

end

end Reconciliation
