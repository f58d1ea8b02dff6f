/-
# Where a machine points

A machine resumes where the record says, or at the initial state when the record says
nothing; either name has to be registered (`Machine.resume_error_iff`).  From then on it
can be pointed elsewhere and ticked, in any order and in whatever surroundings
(`MachineCall`).  A machine that points into its graph goes on doing so: only a name that
is registered moves it, a refused name and a tick, however it ends, leave it where it is
(`Machine.PointsInto.serve`).  No state of a graph that was built by calls has the empty
name, so the empty name never moves a machine either.
-/

import Reconciliation.Proofs.Engine.Registry
import Reconciliation.Proofs.Engine.Walk

namespace Reconciliation

variable {m : Type → Type} {σ ε C : Type}

/-- The name at which a record resumes. -/
def Progress.start (record : Progress) (initial : String) : String :=
  if record.nextState = "" then initial else record.nextState

theorem Progress.getD_resumePoint? (record : Progress) (initial : String) :
    record.resumePoint?.getD initial = record.start initial := by
  unfold resumePoint? start
  split <;> rfl

namespace Graph

variable {graph : Graph m ε C} {name : String}

/-- The start name is registered with the initial one, unless a recorded one is not. -/
theorem contains_start_iff (record : Progress) {initial : String}
    (hinitial : graph.contains initial = true) :
    graph.contains (record.start initial) = true ↔
      record.nextState = "" ∨ graph.contains record.nextState = true := by
  rw [Progress.start]
  split
  · exact ⟨fun _ => .inl ‹_›, fun _ => hinitial⟩
  · exact (or_iff_right ‹_›).symm

end Graph

/-- A call to a machine: it is pointed elsewhere, or it ticks on a context in some
surroundings. -/
inductive MachineCall (σ C : Type) where
  | setState (name : String)
  | tick (ctx : C) (surroundings : σ)

/-- What a call answers. -/
inductive MachineAnswer (ε C : Type) where
  | setState (result : Except ConfigError Unit)
  | tick (result : Except (TickError ε) Outcome) (ctx : C)

/-- The name at which a machine points that was called, if it pointed at `name` before. -/
def Graph.pointed (graph : Graph m ε C) (name : String) : List (MachineCall σ C) → String
  | [] => name
  | .setState next :: calls => graph.pointed (if graph.contains next then next else name) calls
  | .tick _ _ :: calls => graph.pointed name calls

namespace Machine

/-- The answer to a call, and the machine after it. -/
def serve (machine : Machine (StateM σ) ε C) :
    MachineCall σ C → MachineAnswer ε C × Machine (StateM σ) ε C
  | .setState name =>
    match machine.setState name with
    | .ok moved => (.setState (.ok ()), moved)
    | .error error => (.setState (.error error), machine)
  | .tick ctx surroundings =>
    let ended := (machine.tick ctx surroundings).1
    (.tick ended.1.result ended.2, machine)

/-- The machine after calls, one after the other. -/
def afterCalls (machine : Machine (StateM σ) ε C) (calls : List (MachineCall σ C)) :
    Machine (StateM σ) ε C :=
  calls.foldl (fun machine call => (machine.serve call).2) machine

/-- The machine is at a registered state of the graph, which has a name. -/
structure PointsInto (machine : Machine m ε C) (graph : Graph m ε C) : Prop where
  graph_eq : machine.graph = graph
  registered : graph.state? machine.current.name = some machine.current
  name_ne_empty : machine.current.name ≠ ""

section Resume

variable [Monad m] {graph : Graph m ε C} {record : Progress} {initial : String}
  {save : String → m (Except ε Unit)} {machine : Machine m ε C} {error : ConfigError}

theorem resume_of_state? {state : State m ε C} (hinitial : graph.contains initial = true)
    (hstate : graph.state? (record.start initial) = some state) :
    resume graph record initial save = .ok ⟨graph, state, save, .none⟩ := by
  rw [resume, if_pos hinitial, record.getD_resumePoint?]
  simp only [hstate]

theorem resume_of_start_missing (hinitial : graph.contains initial = true)
    (hstart : graph.contains (record.start initial) = false) :
    resume graph record initial save = .error (.unregisteredState (record.start initial)) := by
  rw [resume, if_pos hinitial, record.getD_resumePoint?]
  simp only [Graph.contains_eq_false_iff.1 hstart]

theorem resume_of_initial_missing (hinitial : graph.contains initial = false) :
    resume graph record initial save = .error (.unregisteredState initial) := by
  rw [resume, hinitial, if_neg Bool.false_ne_true]

/-- A machine that resumes is at the state of the start name. -/
theorem state?_of_resume (h : resume graph record initial save = .ok machine) :
    ∃ state, graph.state? (record.start initial) = some state ∧
      machine = ⟨graph, state, save, .none⟩ := by
  cases hinitial : graph.contains initial with
  | false => rw [resume_of_initial_missing hinitial] at h; cases h
  | true =>
    cases hstart : graph.contains (record.start initial) with
    | false => rw [resume_of_start_missing hinitial hstart] at h; cases h
    | true =>
      obtain ⟨state, hstate⟩ := Graph.contains_eq_true_iff.1 hstart
      rw [resume_of_state? hinitial hstate] at h
      exact ⟨state, hstate, (Except.ok.inj h).symm⟩

theorem exists_resume_ok_iff : (∃ machine, resume graph record initial save = .ok machine) ↔
    graph.contains initial = true ∧
      (record.nextState = "" ∨ graph.contains record.nextState = true) := by
  cases hinitial : graph.contains initial with
  | false => simp [resume_of_initial_missing hinitial]
  | true =>
    rw [← Graph.contains_start_iff record hinitial]
    cases hstart : graph.contains (record.start initial) with
    | false => simp [resume_of_start_missing hinitial hstart]
    | true =>
      obtain ⟨state, hstate⟩ := Graph.contains_eq_true_iff.1 hstart
      exact ⟨fun _ => ⟨rfl, rfl⟩, fun _ => ⟨_, resume_of_state? hinitial hstate⟩⟩

/-- **Which name is refused.**  An initial state that is not registered is refused
whatever the record says, and then a recorded one. -/
theorem resume_error_iff : resume graph record initial save = .error error ↔
    graph.contains initial = false ∧ error = .unregisteredState initial ∨
      graph.contains initial = true ∧ record.nextState ≠ "" ∧
        graph.contains record.nextState = false ∧ error = .unregisteredState record.nextState := by
  cases hinitial : graph.contains initial with
  | false =>
    rw [resume_of_initial_missing hinitial]
    constructor
    · intro h
      exact .inl ⟨rfl, (Except.error.inj h).symm⟩
    · rintro (⟨-, rfl⟩ | ⟨htrue, -⟩)
      · rfl
      · cases htrue
  | true =>
    have hiff := Graph.contains_start_iff record hinitial
    cases hstart : graph.contains (record.start initial) with
    | true =>
      obtain ⟨state, hstate⟩ := Graph.contains_eq_true_iff.1 hstart
      rw [resume_of_state? hinitial hstate]
      rcases hiff.1 hstart with hnext | hnext <;> simp [hnext]
    | false =>
      have hmissing : ¬ (record.nextState = "" ∨ graph.contains record.nextState = true) :=
        fun h => Bool.false_ne_true (hstart.symm.trans (hiff.2 h))
      obtain ⟨hne, hnext⟩ := not_or.1 hmissing
      rw [resume_of_start_missing hinitial hstart, Progress.start, if_neg hne]
      constructor
      · intro h
        exact .inr ⟨rfl, hne, Bool.eq_false_iff.2 hnext, (Except.error.inj h).symm⟩
      · rintro (⟨hfalse, -⟩ | ⟨-, -, -, rfl⟩)
        · cases hfalse
        · rfl

end Resume

section SetState

variable {graph : Graph m ε C} {machine : Machine m ε C} {name : String}

/-- A registered name moves the machine and changes nothing else. -/
theorem setState_of_state? {state : State m ε C} (h : machine.graph.state? name = some state) :
    machine.setState name = .ok { machine with current := state } := by
  rw [setState, h]

theorem setState_of_not_contains (h : machine.graph.contains name = false) :
    machine.setState name = .error (.unregisteredState name) := by
  rw [setState, Graph.contains_eq_false_iff.1 h]

theorem PointsInto.withPacer (h : machine.PointsInto graph) (pacer : Pacer m) :
    (machine.withPacer pacer).PointsInto graph :=
  ⟨h.graph_eq, h.registered, h.name_ne_empty⟩

end SetState

section Serve

variable {graph : Graph (StateM σ) ε C} {machine : Machine (StateM σ) ε C} {name : String}

theorem serve_of_contains (h : machine.PointsInto graph) (hgraph : graph.WellFormed)
    (hname : graph.contains name = true) :
    ∃ moved, machine.serve (.setState name) = (.setState (.ok ()), moved) ∧
      moved.current.name = name ∧ moved.PointsInto graph := by
  obtain ⟨state, hstate⟩ := Graph.contains_eq_true_iff.1 hname
  have hstate' : machine.graph.state? name = some state := h.graph_eq ▸ hstate
  have hnamed := Graph.name_of_state? hstate
  refine ⟨{ machine with current := state }, by rw [serve, setState_of_state? hstate'], hnamed,
    h.graph_eq, ?_, ?_⟩
  · rw [hnamed]
    exact hstate
  · rw [hnamed]
    exact hgraph.ne_empty_of_contains hname

theorem serve_of_not_contains (h : machine.PointsInto graph) (hname : graph.contains name = false) :
    machine.serve (.setState name) = (.setState (.error (.unregisteredState name)), machine) := by
  rw [serve, setState_of_not_contains (h.graph_eq ▸ hname)]

/-- A tick, however it ends and whatever it does to its surroundings, gives no other machine:
the machine still points where it pointed. -/
theorem serve_tick (machine : Machine (StateM σ) ε C) (ctx : C) (surroundings : σ) :
    (machine.serve (.tick ctx surroundings)).2 = machine := rfl

/-- One call keeps the machine pointing into its graph, at the name it was given last. -/
theorem PointsInto.serve (h : machine.PointsInto graph) (hgraph : graph.WellFormed)
    (call : MachineCall σ C) : (machine.serve call).2.PointsInto graph ∧
      (machine.serve call).2.current.name = graph.pointed machine.current.name [call] := by
  cases call with
  | setState name =>
    rw [Graph.pointed, Graph.pointed]
    cases hname : graph.contains name with
    | true =>
      obtain ⟨moved, hserve, hmoved, hpoints⟩ := serve_of_contains h hgraph hname
      rw [hserve]
      exact ⟨hpoints, hmoved⟩
    | false =>
      rw [serve_of_not_contains h hname]
      exact ⟨h, rfl⟩
  | tick ctx surroundings =>
    rw [serve_tick]
    exact ⟨h, rfl⟩

/-- The first call decides where the others find the machine. -/
theorem pointed_cons (graph : Graph (StateM σ) ε C) (name : String) (call : MachineCall σ C)
    (calls : List (MachineCall σ C)) :
    graph.pointed name (call :: calls) = graph.pointed (graph.pointed name [call]) calls := by
  cases call <;> rfl

/-- Calls keep the machine pointing into its graph, at the registered name it was given
last. -/
theorem PointsInto.afterCalls (h : machine.PointsInto graph) (hgraph : graph.WellFormed)
    (calls : List (MachineCall σ C)) : (machine.afterCalls calls).PointsInto graph ∧
      (machine.afterCalls calls).current.name = graph.pointed machine.current.name calls := by
  induction calls generalizing machine with
  | nil => exact ⟨h, rfl⟩
  | cons call calls ih =>
    obtain ⟨hcall, hname⟩ := h.serve hgraph call
    rw [pointed_cons, ← hname]
    exact ih hcall

end Serve

/-- **Resuming and pointing elsewhere.**  A machine of a graph that was built by calls
resumes exactly when the initial state is registered and so is the recorded one, if there
is one; it names the one it misses otherwise.  After any calls it points at a registered
state, the one of the registered name it was given last, and it can be pointed at
registered names and at no other, by which it is not changed. -/
theorem resume_and_point (registrations : List (Registration (StateM σ) ε C)) (record : Progress)
    (initial : String) (save : String → StateM σ (Except ε Unit)) :
    let graph := Graph.build registrations
    ((∃ machine, resume graph record initial save = .ok machine) ↔
      graph.contains initial = true ∧
        (record.nextState = "" ∨ graph.contains record.nextState = true)) ∧
    (∀ error, resume graph record initial save = .error error ↔
      graph.contains initial = false ∧ error = .unregisteredState initial ∨
        graph.contains initial = true ∧ record.nextState ≠ "" ∧
          graph.contains record.nextState = false ∧
          error = .unregisteredState record.nextState) ∧
    ∀ machine, resume graph record initial save = .ok machine →
      machine.current.name = (if record.nextState = "" then initial else record.nextState) ∧
      ∀ (pacer : Pacer (StateM σ)) (calls : List (MachineCall σ C))
        (called : Machine (StateM σ) ε C),
        (machine.withPacer pacer).afterCalls calls = called →
        called.PointsInto graph ∧ called.current.name = graph.pointed machine.current.name calls ∧
        ∀ name,
          (graph.contains name = true → name ≠ "" ∧
            ∃ moved, called.serve (.setState name) = (.setState (.ok ()), moved) ∧
              moved.current.name = name ∧ moved.PointsInto graph) ∧
          (graph.contains name = false → called.serve (.setState name) =
              (.setState (.error (.unregisteredState name)), called)) := by
  have hgraph := Graph.wellFormed_build registrations
  refine ⟨exists_resume_ok_iff, fun error => resume_error_iff, fun machine hresume => ?_⟩
  obtain ⟨state, hstate, rfl⟩ := state?_of_resume hresume
  have hname := Graph.name_of_state? hstate
  have hstart : Machine.PointsInto ⟨.build registrations, state, save, .none⟩
      (.build registrations) := by
    refine ⟨rfl, by rw [hname]; exact hstate, ?_⟩
    rw [hname]
    exact hgraph.ne_empty_of_contains (Graph.contains_eq_true_iff.2 ⟨state, hstate⟩)
  refine ⟨hname, ?_⟩
  rintro pacer calls _ rfl
  obtain ⟨hpoints, hpointed⟩ := (hstart.withPacer pacer).afterCalls hgraph calls
  refine ⟨hpoints, hpointed, fun name => ⟨fun hregistered => ?_, fun hmissing => ?_⟩⟩
  · exact ⟨hgraph.ne_empty_of_contains hregistered, serve_of_contains hpoints hgraph hregistered⟩
  · exact serve_of_not_contains hpoints hmissing

/-- A machine that resumes on the way back is pointed forth between ticks that fail, and
the empty name is refused. -/
theorem resume_and_point_round_trip : ∃ machine called,
    resume (.build roundTrip.registrations) (.resumingAt "back") "forth" Scripted.save =
      .ok machine ∧
    machine.current.name = "back" ∧
    machine.afterCalls [.setState "nowhere", .tick [("broken", 1)] .fresh, .setState "forth",
      .tick [("ready", 1)] .readOnly] = called ∧
    called.current.name = "forth" ∧
    called.serve (.setState "") = (.setState (.error (.unregisteredState "")), called) := by
  obtain ⟨hresumes, -, hpoints⟩ :=
    resume_and_point roundTrip.registrations (.resumingAt "back") "forth" Scripted.save
  obtain ⟨machine, hmachine⟩ := hresumes.2 ⟨by decide +kernel, .inr (by decide +kernel)⟩
  obtain ⟨hname, hcalled⟩ := hpoints machine hmachine
  have hstart : machine.current.name = "back" := hname.trans (by decide +kernel)
  obtain ⟨-, hpointed, hmoves⟩ := hcalled machine.pacer
    [.setState "nowhere", .tick [("broken", 1)] .fresh, .setState "forth",
      .tick [("ready", 1)] .readOnly] _ rfl
  rw [hstart] at hpointed
  exact ⟨machine, _, hmachine, hstart, rfl, hpointed.trans (by decide +kernel),
    (hmoves "").2 (by decide +kernel)⟩

end Machine
end Reconciliation
