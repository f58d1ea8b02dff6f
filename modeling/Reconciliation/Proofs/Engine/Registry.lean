/-
# What a graph has registered

A graph comes about by registering states and adding transitions, one after the other
(`Graph.build`).  Some of these calls may be refused.  Whatever the calls were, no state
has the empty name, and both ends of every edge are registered
(`Graph.wellFormed_build`).  The empty name of a progress record can therefore not be
mistaken for a state, and an edge never leads out of the graph.
-/

import Reconciliation.Engine.Graph

namespace Reconciliation

variable {m : Type → Type} {ε C : Type}

/-- A call that builds a graph up. -/
inductive Registration (m : Type → Type) (ε C : Type) where
  | state (state : State m ε C)
  | transition (source target : State m ε C) (guard : C → m Bool)

namespace Graph

variable {graph : Graph m ε C} {state : State m ε C} {name : String}

/-- A name is registered when a state goes by it. -/
theorem contains_eq_true_iff : graph.contains name = true ↔
    ∃ state, graph.state? name = some state :=
  Option.isSome_iff_exists

/-- A name is free when no state goes by it. -/
theorem contains_eq_false_iff : graph.contains name = false ↔ graph.state? name = none := by
  rw [contains, Option.isSome_eq_false_iff, Option.isNone_iff_eq_none]

/-- The graph after a call, which may have been refused. -/
def enter (graph : Graph m ε C) : Registration m ε C → Graph m ε C
  | .state state => (graph.register state).2
  | .transition source target guard => (graph.addTransition source target guard).2

/-- The graph that calls build, one after the other. -/
def build (registrations : List (Registration m ε C)) : Graph m ε C :=
  registrations.foldl enter empty

/-- States have names, and both ends of an edge are registered. -/
structure WellFormed (graph : Graph m ε C) : Prop where
  name_ne_empty : ∀ state ∈ graph.states, state.name ≠ ""
  source_registered : ∀ edge ∈ graph.edges, graph.contains edge.source = true
  target_registered : ∀ edge ∈ graph.edges, graph.contains edge.target = true

/-- A graph begins without states and edges. -/
theorem wellFormed_empty : (empty : Graph m ε C).WellFormed := ⟨nofun, nofun, nofun⟩

/-- A state that is not refused has a name. -/
theorem name_ne_empty_of_refusal? (h : graph.refusal? state = none) : state.name ≠ "" := by
  intro hname
  rw [refusal?, if_pos hname] at h
  cases h

namespace WellFormed

/-- A registered name is not empty. -/
theorem ne_empty_of_contains (h : graph.WellFormed) (hname : graph.contains name = true) :
    name ≠ "" := by
  obtain ⟨state, hstate⟩ := contains_eq_true_iff.1 hname
  rw [← name_of_state? hstate]
  exact h.name_ne_empty state (List.mem_of_find?_eq_some hstate)

/-- A state with a name is added next to the others, or is there already; the edges stay. -/
theorem accept (h : graph.WellFormed) (hname : state.name ≠ "") :
    (graph.accept state).WellFormed where
  name_ne_empty := by
    intro other hother
    unfold Graph.accept at hother
    split at hother
    · exact h.name_ne_empty other hother
    · rcases List.mem_append.1 hother with hother | hother
      · exact h.name_ne_empty other hother
      · rwa [List.mem_singleton.1 hother]
  source_registered edge hedge :=
    contains_accept_of_contains (h.source_registered edge (edges_accept graph state ▸ hedge)) state
  target_registered edge hedge :=
    contains_accept_of_contains (h.target_registered edge (edges_accept graph state ▸ hedge)) state

/-- A state that is refused is not added. -/
theorem register (h : graph.WellFormed) (state : State m ε C) :
    (graph.register state).2.WellFormed := by
  unfold Graph.register
  split
  · exact h
  · rename_i hrefusal
    exact h.accept (name_ne_empty_of_refusal? hrefusal)

/-- An edge is added after both of its ends, or not at all. -/
theorem addTransition (h : graph.WellFormed) (source target : State m ε C) (guard : C → m Bool) :
    (graph.addTransition source target guard).2.WellFormed := by
  unfold Graph.addTransition
  split
  · exact h
  · rename_i hsource
    have haccept := h.accept (name_ne_empty_of_refusal? hsource)
    split
    · exact h
    · have hafter := haccept.register target
      split
      · rename_i hregister
        rwa [hregister] at hafter
      · rename_i after hregister
        rw [hregister] at hafter
        -- Both ends were accepted, so the new edge joins registered states.
        have hends : after.contains source.name = true ∧ after.contains target.name = true := by
          unfold Graph.register at hregister
          split at hregister
          · cases (Prod.mk.inj hregister).1
          · obtain rfl := (Prod.mk.inj hregister).2
            exact ⟨contains_accept_of_contains (contains_accept graph source) target,
              contains_accept _ target⟩
        refine ⟨hafter.name_ne_empty, fun edge hedge => ?_, fun edge hedge => ?_⟩
        · rcases List.mem_append.1 hedge with hedge | hedge
          · exact hafter.source_registered edge hedge
          · rw [List.mem_singleton.1 hedge]
            exact hends.1
        · rcases List.mem_append.1 hedge with hedge | hedge
          · exact hafter.target_registered edge hedge
          · rw [List.mem_singleton.1 hedge]
            exact hends.2

/-- Every call keeps a graph well formed, also one that is refused. -/
theorem enter (h : graph.WellFormed) (registration : Registration m ε C) :
    (graph.enter registration).WellFormed := by
  cases registration with
  | state state => exact h.register state
  | transition source target guard => exact h.addTransition source target guard

/-- So do any number of calls, one after the other. -/
theorem foldl_enter (h : graph.WellFormed) (registrations : List (Registration m ε C)) :
    (registrations.foldl Graph.enter graph).WellFormed := by
  induction registrations generalizing graph with
  | nil => exact h
  | cons registration registrations ih => exact ih (h.enter registration)

end WellFormed

/-- **A graph that was built by calls is well formed.** -/
theorem wellFormed_build (registrations : List (Registration m ε C)) :
    (build registrations).WellFormed :=
  wellFormed_empty.foldl_enter registrations

end Graph
end Reconciliation
