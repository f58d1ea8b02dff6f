/-
# What calls leave in a graph

A call registers a state, or both ends of a new edge.  It can go four ways (`Entered`): it is
refused at sight and changes nothing, it registers a state, it adds an edge, or it adds none
because its two ends give a free name different definitions.  In the last case the source has
been registered by the time the target is refused, so that a refused call leaves the graph as
it was with this one exception (`unchanged_iff_of_refused`).

What a graph holds after any calls can be read off the calls (`Records`): under each name the
first state that was accepted, and out of each state the edges of the calls that succeeded, in
the order of the calls.  If all calls succeed, their order matters only among calls with the
same source (`Reorders`).
-/

import Reconciliation.Proofs.Engine.Registry

namespace Reconciliation

variable {m : Type → Type} {ε C : Type}

namespace State

/-- What tells states of one name apart: the instances of their action and of their check. -/
def definition (state : State m ε C) : Nat × Option Nat :=
  (state.action.id, state.check.map Check.id)

theorem sameDefinition_iff {a b : State m ε C} :
    a.sameDefinition b = true ↔ a.definition = b.definition := by
  simp [sameDefinition, definition]

end State

namespace Registration

/-- The states that a call passes. -/
def ends : Registration m ε C → List (State m ε C)
  | .state node => [node]
  | .transition source target _ => [source, target]

/-- The edge that a call adds. -/
def edge? : Registration m ε C → Option (Edge m C)
  | .state _ => none
  | .transition source target guard => some ⟨source.name, target.name, guard⟩

/-- The state out of which a call adds an edge. -/
def source? (call : Registration m ε C) : Option String := call.edge?.map Edge.source

end Registration

namespace Graph

variable {graph : Graph m ε C} {state source target : State m ε C} {guard : C → m Bool}
  {call : Registration m ε C} {calls : List (Registration m ε C)} {error : ConfigError}
  {name : String}

/-! ## Looking states up -/

/-- Accepting a state adds it behind all others. -/
theorem state?_accept (graph : Graph m ε C) (state : State m ε C) (name : String) :
    (graph.accept state).state? name =
      (graph.state? name).or ([state].find? fun state => state.name = name) := by
  unfold accept
  split
  · rename_i hcontains
    by_cases hname : state.name = name
    · obtain ⟨registered, hregistered⟩ := Option.isSome_iff_exists.1 hcontains
      rw [← hname, hregistered, Option.some_or]
    · simp [hname]
  · exact List.find?_append ..

/-- A state is let in under its name if the name is free or has its definition. -/
theorem refusal?_eq_none_iff : graph.refusal? state = none ↔ state.name ≠ "" ∧
    ∀ registered, graph.state? state.name = some registered →
      registered.definition = state.definition := by
  unfold refusal?
  by_cases hname : state.name = ""
  · simp [hname]
  · cases hstate : graph.state? state.name with
    | none => simp [hname]
    | some registered => simp [hname, State.sameDefinition_iff]

/-! ## One call -/

/-- Whether a call succeeds. -/
def reply (graph : Graph m ε C) : Registration m ε C → Except ConfigError Unit
  | .state state => (graph.register state).1
  | .transition source target guard => (graph.addTransition source target guard).1

/-- Whether the ends of a transition give different definitions to one name that is free. -/
def splits (graph : Graph m ε C) : Registration m ε C → Bool
  | .state _ => false
  | .transition source target _ =>
    source.name = target.name && source.name ≠ "" && !graph.contains source.name &&
      source.definition ≠ target.definition

/-- The states of a call that are accepted.  Of a refused call that is none, but for the
source of a transition that splits a free name. -/
def accepts (graph : Graph m ε C) (call : Registration m ε C) : List (State m ε C) :=
  match graph.reply call with
  | .ok () => call.ends
  | .error _ => if graph.splits call then call.ends.take 1 else []

/-- The ways in which a call can go: its reply, the states that are accepted, and the graph
after it. -/
inductive Entered (graph : Graph m ε C) :
    Registration m ε C → Except ConfigError Unit → List (State m ε C) → Graph m ε C → Prop
  /-- A state of the call is refused before any is registered. -/
  | refused {call : Registration m ε C} {error : ConfigError} {state : State m ε C}
      (mem : state ∈ call.ends) (refusal : graph.refusal? state = some error) :
      Entered graph call (.error error) [] graph
  /-- The target of a transition is refused because of its source, which stays. -/
  | split {source target : State m ε C} {guard : C → m Bool}
      (split : graph.splits (.transition source target guard) = true) :
      Entered graph (.transition source target guard) (.error (.conflictingState source.name))
        [source] { graph with states := graph.states ++ [source] }
  | state {state : State m ε C} (accepted : graph.refusal? state = none) :
      Entered graph (.state state) (.ok ()) [state] (graph.accept state)
  | edge {source target : State m ε C} {guard : C → m Bool}
      (source_accepted : graph.refusal? source = none)
      (target_accepted : (graph.accept source).refusal? target = none) :
      Entered graph (.transition source target guard) (.ok ()) [source, target]
        { (graph.accept source).accept target with
          edges := graph.edges ++ [⟨source.name, target.name, guard⟩] }

theorem splits_transition : graph.splits (.transition source target guard) = true ↔
    source.name ≠ "" ∧ source.name = target.name ∧ graph.state? target.name = none ∧
      source.definition ≠ target.definition := by
  simp only [splits, Bool.and_eq_true, decide_eq_true_iff, Bool.not_eq_true',
    contains_eq_false_iff]
  constructor
  · rintro ⟨⟨⟨hname, hne⟩, hfree⟩, hdefinition⟩
    exact ⟨hne, hname, hname ▸ hfree, hdefinition⟩
  · rintro ⟨hne, hname, hfree, hdefinition⟩
    exact ⟨⟨⟨hname, hne⟩, hname ▸ hfree⟩, hdefinition⟩

/-- A transition that splits a free name has ends that would each be let in. -/
theorem refusal?_of_splits (h : graph.splits call = true) (hstate : state ∈ call.ends) :
    graph.refusal? state = none := by
  cases call with
  | state node => cases h
  | transition source target guard =>
    obtain ⟨hne, hname, hfree, -⟩ := splits_transition.1 h
    have hends : state.name = target.name := by
      rcases List.mem_cons.1 hstate with rfl | hstate
      · exact hname
      · rw [List.mem_singleton.1 hstate]
    rw [refusal?_eq_none_iff, hends, hfree]
    exact ⟨hname ▸ hne, nofun⟩

/-- Once the source of a transition is accepted, its target is let in if it was before, unless
both give a free name different definitions. -/
theorem refusal?_accept_eq_none_iff : (graph.accept source).refusal? target = none ↔
    graph.refusal? target = none ∧ ¬ (source.name = target.name ∧
      graph.state? target.name = none ∧ source.definition ≠ target.definition) := by
  rw [refusal?_eq_none_iff, refusal?_eq_none_iff, state?_accept]
  cases graph.state? target.name with
  | some registered => simp
  | none => by_cases hname : source.name = target.name <;> simp [hname]

/-- After the source of a transition that splits a free name was accepted, the target
conflicts with it. -/
theorem accept_of_splits (h : graph.splits (.transition source target guard) = true) :
    graph.accept source = { graph with states := graph.states ++ [source] } ∧
      (graph.accept source).refusal? target = some (.conflictingState source.name) := by
  obtain ⟨hne, hname, hfree, hdefinition⟩ := splits_transition.1 h
  have hcontains : graph.contains source.name = false := by
    rw [contains_eq_false_iff, hname]
    exact hfree
  have hlookup : (graph.accept source).state? target.name = some source := by
    rw [state?_accept, hfree, Option.none_or]
    simp [hname]
  have hconflict : source.sameDefinition target = false :=
    Bool.eq_false_iff.2 fun hsame => hdefinition (State.sameDefinition_iff.1 hsame)
  refine ⟨by simp [accept, hcontains], ?_⟩
  rw [refusal?, if_neg (hname ▸ hne), hlookup]
  simp [hconflict, hname]

theorem accepts_of_ok (h : graph.reply call = .ok ()) : graph.accepts call = call.ends := by
  rw [accepts, h]

theorem accepts_of_error (h : graph.reply call = .error error) :
    graph.accepts call = if graph.splits call then call.ends.take 1 else [] := by
  rw [accepts, h]

namespace Entered

/-- A call that is refused at sight. -/
theorem of_refusal (hstate : state ∈ call.ends) (hrefusal : graph.refusal? state = some error)
    (hreply : graph.reply call = .error error) (henter : graph.enter call = graph) :
    graph.Entered call (graph.reply call) (graph.accepts call) (graph.enter call) := by
  have hsplits : ¬ graph.splits call = true := by
    intro hsplits
    cases hrefusal.symm.trans (refusal?_of_splits hsplits hstate)
  rw [accepts_of_error hreply, if_neg hsplits, hreply, henter]
  exact .refused hstate hrefusal

theorem of_state (graph : Graph m ε C) (node : State m ε C) :
    graph.Entered (.state node) (graph.reply (.state node)) (graph.accepts (.state node))
      (graph.enter (.state node)) := by
  cases hnode : graph.refusal? node with
  | some error =>
    have hregister : graph.register node = (.error error, graph) := by rw [register, hnode]
    exact .of_refusal (List.mem_singleton_self node) hnode (congrArg Prod.fst hregister)
      (congrArg Prod.snd hregister)
  | none =>
    have hregister : graph.register node = (.ok (), graph.accept node) := by
      rw [register, hnode]
    have hreply : graph.reply (.state node) = .ok () := congrArg Prod.fst hregister
    have henter : graph.enter (.state node) = graph.accept node := congrArg Prod.snd hregister
    rw [accepts_of_ok hreply, hreply, henter]
    exact .state hnode

theorem of_transition (graph : Graph m ε C) (source target : State m ε C) (guard : C → m Bool) :
    graph.Entered (.transition source target guard)
      (graph.reply (.transition source target guard))
      (graph.accepts (.transition source target guard))
      (graph.enter (.transition source target guard)) := by
  cases hsource : graph.refusal? source with
  | some error =>
    have hadd : graph.addTransition source target guard = (.error error, graph) := by
      rw [addTransition, hsource]
    exact .of_refusal (by simp [Registration.ends]) hsource (congrArg Prod.fst hadd)
      (congrArg Prod.snd hadd)
  | none =>
  cases htarget : graph.refusal? target with
  | some error =>
    have hadd : graph.addTransition source target guard = (.error error, graph) := by
      rw [addTransition, hsource]
      simp only [htarget]
    exact .of_refusal (by simp [Registration.ends]) htarget (congrArg Prod.fst hadd)
      (congrArg Prod.snd hadd)
  | none =>
  by_cases hsplits : graph.splits (.transition source target guard) = true
  · obtain ⟨haccept, hsecond⟩ := accept_of_splits hsplits
    have hadd : graph.addTransition source target guard =
        (.error (.conflictingState source.name),
          { graph with states := graph.states ++ [source] }) := by
      rw [addTransition, hsource]
      simp only [htarget, register, hsecond]
      rw [haccept]
    have hreply : graph.reply (.transition source target guard) =
      .error (.conflictingState source.name) := congrArg Prod.fst hadd
    have henter : graph.enter (.transition source target guard) =
      { graph with states := graph.states ++ [source] } := congrArg Prod.snd hadd
    rw [accepts_of_error hreply, if_pos hsplits, hreply, henter]
    exact .split hsplits
  · have hsecond : (graph.accept source).refusal? target = none := by
      rw [refusal?_accept_eq_none_iff]
      refine ⟨htarget, fun ⟨hname, hfree, hdefinition⟩ => hsplits ?_⟩
      exact splits_transition.2 ⟨(refusal?_eq_none_iff.1 hsource).1, hname, hfree, hdefinition⟩
    have hadd : graph.addTransition source target guard =
        (.ok (), { (graph.accept source).accept target with
          edges := graph.edges ++ [⟨source.name, target.name, guard⟩] }) := by
      rw [addTransition, hsource]
      simp only [htarget, register, hsecond, edges_accept]
    have hreply : graph.reply (.transition source target guard) = .ok () :=
      congrArg Prod.fst hadd
    have henter : graph.enter (.transition source target guard) =
      { (graph.accept source).accept target with
        edges := graph.edges ++ [⟨source.name, target.name, guard⟩] } := congrArg Prod.snd hadd
    rw [accepts_of_ok hreply, hreply, henter]
    exact .edge hsource hsecond

end Entered

/-- **A call goes one of the four ways.** -/
theorem entered (graph : Graph m ε C) (call : Registration m ε C) :
    graph.Entered call (graph.reply call) (graph.accepts call) (graph.enter call) := by
  cases call with
  | state node => exact .of_state graph node
  | transition source target guard => exact .of_transition graph source target guard

/-! ## Calls that are refused -/

/-- **A refused call changes nothing, unless it is a transition that splits a free name**: its
source is then registered, and nothing else is changed. -/
theorem unchanged_iff_of_refused (h : graph.reply call = .error error) :
    (graph.enter call = graph ↔ graph.splits call = false) ∧
      (graph.splits call = true → ∃ source ∈ call.ends, error = .conflictingState source.name ∧
        graph.enter call = { graph with states := graph.states ++ [source] }) := by
  have hentered := graph.entered call
  rw [h] at hentered
  generalize graph.accepts call = accepted, graph.enter call = after at hentered
  cases hentered with
  | refused hstate hrefusal =>
    have hsplits : ¬ graph.splits call = true := by
      intro hsplits
      cases hrefusal.symm.trans (refusal?_of_splits hsplits hstate)
    exact ⟨iff_of_true rfl (Bool.eq_false_iff.2 hsplits), fun hsplits' => absurd hsplits' hsplits⟩
  | @split source target guard hsplits =>
    refine ⟨iff_of_false ?_ (by simp [hsplits]), fun _ => ⟨source, ?_, rfl, rfl⟩⟩
    · intro hsame
      have hlength := congrArg (fun graph => graph.states.length) hsame
      simp at hlength
    · simp [Registration.ends]

end Graph

/-- A state that does nothing. -/
def State.idle (name : String) (id : Nat) : State Id Unit Unit :=
  ⟨name, ⟨id, fun ctx => (.ok .requeue, ctx)⟩, none⟩

namespace Graph

/-- An edge from one state to another. -/
def oneEdge : Graph Id Unit Unit :=
  build [.transition (.idle "A" 0) (.idle "B" 1) always]

/-- A second definition of a registered state is refused together with the edge to it. -/
theorem unchanged_of_impostor :
    oneEdge.reply (.transition (.idle "A" 0) (.idle "B" 2) always) =
        .error (.conflictingState "B") ∧
      oneEdge.enter (.transition (.idle "A" 0) (.idle "B" 2) always) = oneEdge :=
  have hrefused : oneEdge.reply (.transition (.idle "A" 0) (.idle "B" 2) always) =
    .error (.conflictingState "B") := rfl
  ⟨hrefused, (unchanged_iff_of_refused hrefused).1.2 rfl⟩

/-- **A refused call can change the graph**: an edge between two definitions of one free name. -/
theorem not_forall_unchanged_of_refused :
    ¬ ∀ (graph : Graph Id Unit Unit) (call : Registration Id Unit Unit) (error : ConfigError),
      graph.reply call = .error error → graph.enter call = graph := by
  intro h
  have hsame := h empty (.transition (.idle "A" 0) (.idle "A" 1) always) (.conflictingState "A") rfl
  exact absurd (congrArg (fun graph => graph.states.length) hsame) (by decide)

variable {graph after : Graph m ε C} {call : Registration m ε C}
  {calls calls' : List (Registration m ε C)} {state : State m ε C}
  {reply : Except ConfigError Unit} {accepted : List (State m ε C)} {name : String}

/-! ## Any calls -/

/-- The states that calls get accepted, one call after the other. -/
def acceptedFrom (graph : Graph m ε C) : List (Registration m ε C) → List (State m ε C)
  | [] => []
  | call :: calls => graph.accepts call ++ (graph.enter call).acceptedFrom calls

/-- The calls that succeed, made one after the other. -/
def succeededFrom (graph : Graph m ε C) : List (Registration m ε C) → List (Registration m ε C)
  | [] => []
  | call :: calls =>
    match graph.reply call with
    | .ok () => call :: (graph.enter call).succeededFrom calls
    | .error _ => (graph.enter call).succeededFrom calls

namespace Entered

/-- Accepted states come behind all others. -/
theorem state?_eq (h : graph.Entered call reply accepted after) (name : String) :
    after.state? name =
      (graph.state? name).or (accepted.find? fun state => state.name = name) := by
  cases h with
  | refused => exact (Option.or_none).symm
  | split => exact List.find?_append ..
  | @state state => exact graph.state?_accept state name
  | @edge source target =>
    calc ((graph.accept source).accept target).state? name
        = ((graph.state? name).or ([source].find? fun state => state.name = name)).or
            ([target].find? fun state => state.name = name) := by
          rw [state?_accept, state?_accept]
      _ = _ := by rw [Option.or_assoc, ← List.find?_append, List.singleton_append]

/-- A call that succeeds adds its edge behind all others. -/
theorem edges_eq (h : graph.Entered call (.ok ()) accepted after) :
    after.edges = graph.edges ++ call.edge?.toList := by
  cases h with
  | state => exact (edges_accept ..).trans (List.append_nil _).symm
  | edge => rfl

/-- A refused call leaves the edges alone. -/
theorem edges_eq_of_error {error : ConfigError}
    (h : graph.Entered call (.error error) accepted after) : after.edges = graph.edges := by
  cases h <;> rfl

end Entered

theorem state?_foldl_enter (graph : Graph m ε C) (calls : List (Registration m ε C))
    (name : String) : (calls.foldl enter graph).state? name =
      (graph.state? name).or ((graph.acceptedFrom calls).find? fun state => state.name = name) := by
  induction calls generalizing graph with
  | nil => exact (Option.or_none).symm
  | cons call calls ih =>
    rw [List.foldl_cons, ih, (graph.entered call).state?_eq, Option.or_assoc, acceptedFrom,
      List.find?_append]

theorem edges_foldl_enter (graph : Graph m ε C) (calls : List (Registration m ε C)) :
    (calls.foldl enter graph).edges =
      graph.edges ++ (graph.succeededFrom calls).filterMap Registration.edge? := by
  induction calls generalizing graph with
  | nil => exact (List.append_nil _).symm
  | cons call calls ih =>
    have hentered := graph.entered call
    rw [List.foldl_cons, ih, succeededFrom]
    cases hreply : graph.reply call with
    | ok =>
      rw [hreply] at hentered
      rw [hentered.edges_eq, List.append_assoc]
      cases hedge : call.edge? <;> simp [hedge]
    | error error =>
      rw [hreply] at hentered
      rw [hentered.edges_eq_of_error]

/-- A state that was let in is found under its name with its definition. -/
theorem exists_state?_accept (h : graph.refusal? state = none) :
    ∃ registered, (graph.accept state).state? state.name = some registered ∧
      registered.definition = state.definition := by
  rw [state?_accept]
  cases hstate : graph.state? state.name with
  | some registered => exact ⟨registered, rfl, (refusal?_eq_none_iff.1 h).2 registered hstate⟩
  | none => exact ⟨state, by simp, rfl⟩

/-- What is found under a name stays. -/
theorem state?_accept_of_eq {registered : State m ε C} (h : graph.state? name = some registered)
    (state : State m ε C) : (graph.accept state).state? name = some registered := by
  rw [state?_accept, h, Option.some_or]

/-- The states of a call that succeeds are found with their definitions. -/
theorem Entered.exists_state? (h : graph.Entered call (.ok ()) accepted after)
    (hstate : state ∈ call.ends) : state.name ≠ "" ∧ ∃ registered,
      after.state? state.name = some registered ∧ registered.definition = state.definition := by
  cases h with
  | state hnode =>
    obtain rfl := List.mem_singleton.1 hstate
    exact ⟨(refusal?_eq_none_iff.1 hnode).1, exists_state?_accept hnode⟩
  | @edge source target guard hsource htarget =>
    rcases List.mem_cons.1 hstate with rfl | hstate
    · obtain ⟨registered, hregistered, hdefinition⟩ := exists_state?_accept hsource
      exact ⟨(refusal?_eq_none_iff.1 hsource).1, registered,
        state?_accept_of_eq hregistered target, hdefinition⟩
    · obtain rfl := List.mem_singleton.1 hstate
      exact ⟨(refusal?_eq_none_iff.1 htarget).1, exists_state?_accept htarget⟩

/-- **The states of every call that succeeded are found with their definitions.** -/
theorem exists_state?_of_succeeded (h : call ∈ graph.succeededFrom calls)
    (hstate : state ∈ call.ends) : state.name ≠ "" ∧ ∃ registered,
      (calls.foldl enter graph).state? state.name = some registered ∧
        registered.definition = state.definition := by
  induction calls generalizing graph with
  | nil => cases h
  | cons first calls ih =>
    have hentered := graph.entered first
    rw [succeededFrom] at h
    cases hreply : graph.reply first with
    | error error =>
      rw [hreply] at h
      exact ih h
    | ok =>
      rw [hreply] at h hentered
      rcases List.mem_cons.1 h with rfl | h
      · obtain ⟨hne, registered, hregistered, hdefinition⟩ := hentered.exists_state? hstate
        refine ⟨hne, registered, ?_, hdefinition⟩
        rw [List.foldl_cons, state?_foldl_enter, hregistered, Option.some_or]
      · exact ih h

/-- The edges out of a state are those of the calls that succeeded with it as source. -/
theorem edgesFrom_build (calls : List (Registration m ε C)) (name : String) :
    (build calls).edgesFrom name = ((empty.succeededFrom calls).filter fun call =>
      call.source? = some name).filterMap Registration.edge? := by
  have hedge : ∀ call : Registration m ε C,
      (call.edge?.filter fun edge => edge.source = name) =
        if call.source? = some name then call.edge? else none := by
    intro call
    cases hcall : call.edge? with
    | none => simp
    | some edge => simp [Registration.source?, hcall, Option.filter]
  rw [edgesFrom, build, edges_foldl_enter]
  simp [empty, List.filter_filterMap, List.filterMap_filter, hedge]

/-! ## Calls in another order -/

/-- Every call succeeds, made one after the other on an empty graph. -/
def AllSucceed (calls : List (Registration m ε C)) : Prop := empty.succeededFrom calls = calls

/-- The states of the calls have names, and states of one name have one definition. -/
structure Agree (calls : List (Registration m ε C)) : Prop where
  named : ∀ call ∈ calls, ∀ state ∈ call.ends, state.name ≠ ""
  same : ∀ call ∈ calls, ∀ other ∈ calls, ∀ state ∈ call.ends, ∀ twin ∈ other.ends,
    state.name = twin.name → state.definition = twin.definition

/-- A call succeeds if its states are let in and do not conflict with each other. -/
theorem reply_eq_ok (hends : ∀ state ∈ call.ends, graph.refusal? state = none)
    (hsame : ∀ state ∈ call.ends, ∀ twin ∈ call.ends, state.name = twin.name →
      state.definition = twin.definition) : graph.reply call = .ok () := by
  have hentered := graph.entered call
  generalize graph.reply call = reply, graph.accepts call = accepted,
    graph.enter call = after at hentered
  cases hentered with
  | refused hstate hrefusal => cases hrefusal.symm.trans (hends _ hstate)
  | split hsplits =>
    obtain ⟨-, hname, -, hdefinition⟩ := splits_transition.1 hsplits
    exact absurd (hsame _ (by simp [Registration.ends]) _ (by simp [Registration.ends]) hname)
      hdefinition
  | state | edge => rfl

/-- Calls that agree with each other and with the graph all succeed. -/
theorem Agree.succeededFrom_eq (h : Agree calls)
    (hgraph : ∀ call ∈ calls, ∀ state ∈ call.ends, ∀ registered,
      graph.state? state.name = some registered → registered.definition = state.definition) :
    graph.succeededFrom calls = calls := by
  induction calls generalizing graph with
  | nil => rfl
  | cons call calls ih =>
    have hreply : graph.reply call = .ok () := reply_eq_ok
      (fun state hstate => refusal?_eq_none_iff.2
        ⟨h.named call (.head _) state hstate, hgraph call (.head _) state hstate⟩)
      (h.same call (.head _) call (.head _))
    have hrest : Agree calls :=
      ⟨fun other hother => h.named other (.tail _ hother),
        fun other hother another hanother => h.same other (.tail _ hother) another (.tail _ hanother)⟩
    rw [succeededFrom, hreply]
    refine congrArg (call :: ·) (ih hrest fun other hother state hstate registered hfound => ?_)
    rw [(graph.entered call).state?_eq, accepts_of_ok hreply, Option.or_eq_some_iff] at hfound
    rcases hfound with hfound | ⟨-, hfound⟩
    · exact hgraph other (.tail _ hother) state hstate registered hfound
    · exact h.same call (.head _) other (.tail _ hother) registered
        (List.mem_of_find?_eq_some hfound) state hstate (by simpa using List.find?_some hfound)

/-- **Calls all succeed exactly if they agree.** -/
theorem allSucceed_iff : AllSucceed calls ↔ Agree calls := by
  constructor
  · intro h
    have hfound : ∀ call ∈ calls, ∀ state ∈ call.ends, state.name ≠ "" ∧ ∃ registered,
        (build calls).state? state.name = some registered ∧
          registered.definition = state.definition := by
      intro call hcall state hstate
      rw [← h] at hcall
      exact exists_state?_of_succeeded hcall hstate
    refine ⟨fun call hcall state hstate => (hfound call hcall state hstate).1, ?_⟩
    intro call hcall other hother state hstate twin htwin hname
    obtain ⟨-, registered, hregistered, hdefinition⟩ := hfound call hcall state hstate
    obtain ⟨-, registered', hregistered', hdefinition'⟩ := hfound other hother twin htwin
    rw [hname, hregistered', Option.some_inj] at hregistered
    rw [← hdefinition, ← hdefinition', hregistered]
  · exact fun h => h.succeededFrom_eq nofun

/-- The same calls in an order that is the same among the calls with one source. -/
structure Reorders (calls calls' : List (Registration m ε C)) : Prop where
  perm : calls.Perm calls'
  filter_eq : ∀ name, (calls.filter fun call => call.source? = some name) =
    calls'.filter fun call => call.source? = some name

/-- Whether calls agree does not depend on their order. -/
theorem Agree.perm (h : Agree calls) (hperm : calls.Perm calls') : Agree calls' where
  named call hcall := h.named call (hperm.mem_iff.2 hcall)
  same call hcall other hother :=
    h.same call (hperm.mem_iff.2 hcall) other (hperm.mem_iff.2 hother)

/-- Calls that all succeed lead to the same edges in any such order. -/
theorem Reorders.edgesFrom_eq (h : Reorders calls calls') (hcalls : AllSucceed calls)
    (hcalls' : AllSucceed calls') (name : String) :
    (build calls').edgesFrom name = (build calls).edgesFrom name := by
  rw [edgesFrom_build, edgesFrom_build, hcalls, hcalls', h.filter_eq]

/-! ## What a graph holds -/

/-- A graph holds what calls have led to. -/
structure Records (graph : Graph m ε C) (calls : List (Registration m ε C)) : Prop where
  /-- A state is registered under its own name, and no name is empty. -/
  named : ∀ name state, graph.state? name = some state → name ≠ "" ∧ state.name = name
  /-- Both ends of an edge are registered. -/
  ends : ∀ edge ∈ graph.edges,
    graph.contains edge.source = true ∧ graph.contains edge.target = true
  /-- A name has the first state that was accepted under it. -/
  first : ∀ name, graph.state? name =
    (empty.acceptedFrom calls).find? fun state => state.name = name
  /-- What is registered under a name never changes. -/
  kept : ∀ earlier, earlier <+: calls → ∀ name state, (build earlier).state? name = some state →
    graph.state? name = some state
  /-- A call that succeeds passes the definitions that are registered. -/
  same : ∀ call ∈ empty.succeededFrom calls, ∀ state ∈ call.ends, ∃ registered,
    graph.state? state.name = some registered ∧ registered.definition = state.definition
  /-- The edges out of a state are those of the calls that succeeded, in their order. -/
  edgesFrom : ∀ name, graph.edgesFrom name = ((empty.succeededFrom calls).filter fun call =>
    call.source? = some name).filterMap Registration.edge?

/-- **A graph holds what the calls that built it have led to**, and if all of them succeed, it
decides every next state alike in whatever order they are made, as long as the order among
the calls with one source is kept. -/
theorem records_of_calls (calls : List (Registration m ε C)) :
    (build calls).Records calls ∧ ∀ calls', AllSucceed calls → Reorders calls calls' →
      AllSucceed calls' ∧ ∀ [Monad m] (name : String) (ctx : C),
        (build calls').resolveNext name ctx = (build calls).resolveNext name ctx := by
  have hwell := wellFormed_build calls
  refine ⟨⟨fun name state hstate => ?_, fun edge hedge => ?_, fun name => ?_, ?_, ?_, ?_⟩, ?_⟩
  · have hcontains : (build calls).contains name = true := by rw [contains, hstate]; rfl
    exact ⟨hwell.ne_empty_of_contains hcontains, name_of_state? hstate⟩
  · exact ⟨hwell.source_registered edge hedge, hwell.target_registered edge hedge⟩
  · exact state?_foldl_enter empty calls name
  · rintro earlier ⟨later, rfl⟩ name state hstate
    rw [build, List.foldl_append, state?_foldl_enter]
    exact congrArg (Option.or · _) hstate
  · exact fun call hcall state hstate => (exists_state?_of_succeeded hcall hstate).2
  · exact edgesFrom_build calls
  · intro calls' hcalls hreorders
    have hcalls' := allSucceed_iff.2 ((allSucceed_iff.1 hcalls).perm hreorders.perm)
    refine ⟨hcalls', fun name ctx => ?_⟩
    rw [resolveNext, hreorders.edgesFrom_eq hcalls hcalls', resolveNext]

/-- There and back, or back and there. -/
theorem records_of_swapped_calls :
    let there : Registration Id Unit Unit := .transition (.idle "A" 0) (.idle "B" 1) always
    let back : Registration Id Unit Unit := .transition (.idle "B" 1) (.idle "A" 0) always
    AllSucceed [there, back] ∧ Reorders [there, back] [back, there] ∧ AllSucceed [back, there] ∧
      (build [back, there]).resolveNext "A" () = (build [there, back]).resolveNext "A" () := by
  intro there back
  have hcalls : AllSucceed [there, back] := rfl
  have hreorders : Reorders [there, back] [back, there] := by
    refine ⟨.swap .., fun name => ?_⟩
    by_cases hthere : "A" = name
    · subst hthere
      rfl
    · by_cases hback : "B" = name <;>
        simp [there, back, Registration.source?, Registration.edge?, State.idle, hthere, hback]
  obtain ⟨hcalls', hnext⟩ := (records_of_calls [there, back]).2 _ hcalls hreorders
  exact ⟨hcalls, hreorders, hcalls', hnext "A" ()⟩

end Graph
end Reconciliation
