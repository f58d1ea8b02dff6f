/-
# Work in its surroundings

Work is done against a store that others may change between any two of its calls and
whose calls may fail before they reach it.  A `Surroundings` says what may happen; `Ran`
lists the ways in which work can go.  `Ensures` is what holds at the end of all of
them, with one rule for each way to put work together, so that a step is followed
call by call.
-/

import Mathlib.Logic.Relation
import Reconciliation.Cluster.Effect
import Reconciliation.Engine.Pacing

namespace Reconciliation

/-- What may happen to a store while work is done. -/
structure Surroundings where
  /-- Whether rollouts are instant. -/
  instant : Bool
  /-- What others may do to the store between two calls. -/
  others : Store → Store → Prop
  /-- Whether a call may fail without reaching the store. -/
  faulty : Bool

namespace Surroundings

/-- What others may have done to the store, in any number of steps. -/
def Drifts (around : Surroundings) : Store → Store → Prop := Relation.ReflTransGen around.others

theorem Drifts.refl {around : Surroundings} (s : Store) : around.Drifts s s :=
  Relation.ReflTransGen.refl

theorem Drifts.trans {around : Surroundings} {s t u : Store} (h : around.Drifts s t)
    (h' : around.Drifts t u) : around.Drifts s u :=
  Relation.ReflTransGen.trans h h'

end Surroundings

/-- `Ran around work s a s'`: the work, begun on the store `s`, can finish with `a` and
leave the store `s'`. -/
inductive Ran (around : Surroundings) {α : Type} : Work α → Store → α → Store → Prop
  | done (a : α) (s : Store) : Ran around (.done a) s a s
  /-- A call reaches the store. -/
  | call {r : Request} {next : r.Reply → Work α} {s s' : Store} {a : α}
      (rest : Ran around (next (s.perform around.instant r).1) (s.perform around.instant r).2 a
        s') : Ran around (.ask (.call r) next) s a s'
  /-- A call fails without reaching the store. -/
  | fault {r : Request} {next : r.Reply → Work α} {s s' : Store} {a : α}
      (faulty : around.faulty = true) (error : StoreError)
      (rest : Ran around (next (.error error)) s a s') : Ran around (.ask (.call r) next) s a s'
  | sleep {d : Duration} {next : Unit → Work α} {s s' : Store} {a : α}
      (rest : Ran around (next ()) s a s') : Ran around (.ask (.sleep d) next) s a s'
  /-- Somebody else changes the store. -/
  | others {work : Work α} {s t s' : Store} {a : α} (change : around.others s t)
      (rest : Ran around work t a s') : Ran around work s a s'

namespace Ran

variable {around : Surroundings} {α β : Type}

/-- What others do first is part of the way. -/
theorem of_drifts {work : Work α} {s t s' : Store} {a : α} (h : around.Drifts s t)
    (hran : Ran around work t a s') : Ran around work s a s' := by
  induction h using Relation.ReflTransGen.head_induction_on with
  | refl => exact hran
  | head change _ ih => exact .others change ih

/-- Finished work changes nothing; others may. -/
theorem done_iff {a x : α} {s s' : Store} :
    Ran around (.done a) s x s' ↔ x = a ∧ around.Drifts s s' := by
  constructor
  · intro h
    generalize hwork : (Program.done a : Work α) = work at h
    induction h with
    | done b s =>
      obtain rfl := Program.done.inj hwork
      exact ⟨rfl, .refl s⟩
    | others change _ ih =>
      obtain ⟨rfl, hdrift⟩ := ih hwork
      exact ⟨rfl, .head change hdrift⟩
    | call | fault | sleep => cases hwork
  · rintro ⟨rfl, h⟩
    exact of_drifts h (.done x s')

/-- A call reaches the store, or fails before it, after others had their turn. -/
theorem call_iff {r : Request} {next : r.Reply → Work α} {s s' : Store} {x : α} :
    Ran around (.ask (.call r) next) s x s' ↔ ∃ t, around.Drifts s t ∧
      (Ran around (next (t.perform around.instant r).1) (t.perform around.instant r).2 x s' ∨
        around.faulty = true ∧ ∃ error, Ran around (next (.error error)) t x s') := by
  constructor
  · intro h
    generalize hwork : (Program.ask (.call r) next : Work α) = work at h
    induction h with
    | done => cases hwork
    | sleep => cases hwork
    | @call _ _ s _ _ rest =>
      cases hwork
      exact ⟨s, .refl s, .inl rest⟩
    | @fault _ _ s _ _ faulty error rest =>
      cases hwork
      exact ⟨s, .refl s, .inr ⟨faulty, error, rest⟩⟩
    | others change _ ih =>
      obtain ⟨t, hdrift, h⟩ := ih hwork
      exact ⟨t, .head change hdrift, h⟩
  · rintro ⟨t, hdrift, h | ⟨faulty, error, h⟩⟩
    · exact of_drifts hdrift (.call h)
    · exact of_drifts hdrift (.fault faulty error h)

/-- Sleeping changes nothing. -/
theorem sleep_iff {d : Duration} {next : Unit → Work α} {s s' : Store} {x : α} :
    Ran around (.ask (.sleep d) next) s x s' ↔ Ran around (next ()) s x s' := by
  constructor
  · intro h
    generalize hwork : (Program.ask (.sleep d) next : Work α) = work at h
    induction h with
    | done => cases hwork
    | call | fault => cases hwork
    | sleep rest =>
      cases hwork
      exact rest
    | others change _ ih => exact .others change (ih hwork)
  · exact .sleep

/-- One piece of work after another is both. -/
theorem bind {work : Work α} {next : α → Work β} {s t s' : Store} {a : α} {b : β}
    (h : Ran around work s a t) (hnext : Ran around (next a) t b s') :
    Ran around (work >>= next) s b s' := by
  induction h with
  | done => exact hnext
  | call _ ih => exact .call (ih hnext)
  | fault faulty error _ ih => exact .fault faulty error (ih hnext)
  | sleep _ ih => exact .sleep (ih hnext)
  | others change _ ih => exact .others change (ih hnext)

theorem exists_of_bind {work : Work α} {next : α → Work β} {s s' : Store} {b : β}
    (h : Ran around (work >>= next) s b s') :
    ∃ a t, Ran around work s a t ∧ Ran around (next a) t b s' := by
  induction work generalizing s with
  | done a => exact ⟨a, s, .done a s, h⟩
  | ask effect rest ih =>
    cases effect with
    | call r =>
      obtain ⟨t, hdrift, h | ⟨faulty, error, h⟩⟩ := call_iff.1 h
      · obtain ⟨a, u, hwork, hnext⟩ := ih _ h
        exact ⟨a, u, of_drifts hdrift (.call hwork), hnext⟩
      · obtain ⟨a, u, hwork, hnext⟩ := ih _ h
        exact ⟨a, u, of_drifts hdrift (.fault faulty error hwork), hnext⟩
    | sleep d =>
      obtain ⟨a, u, hwork, hnext⟩ := ih _ (sleep_iff.1 h)
      exact ⟨a, u, .sleep hwork, hnext⟩

end Ran

/-! ## What holds in the end -/

/-- Whatever happens, the work ends with `Q`. -/
def Ensures (around : Surroundings) {α : Type} (work : Work α) (s : Store)
    (Q : α → Store → Prop) : Prop :=
  ∀ a s', Ran around work s a s' → Q a s'

namespace Ensures

variable {around : Surroundings} {α β : Type} {s : Store}

theorem mono {work : Work α} {Q P : α → Store → Prop} (h : Ensures around work s Q)
    (himp : ∀ a s', Q a s' → P a s') : Ensures around work s P :=
  fun a s' hran => himp a s' (h a s' hran)

theorem done {a : α} {Q : α → Store → Prop} (h : ∀ t, around.Drifts s t → Q a t) :
    Ensures around (.done a) s Q := by
  intro x s' hran
  obtain ⟨rfl, hdrift⟩ := Ran.done_iff.1 hran
  exact h s' hdrift

theorem bind {work : Work α} {next : α → Work β} {Q : β → Store → Prop}
    (h : Ensures around work s fun a t => Ensures around (next a) t Q) :
    Ensures around (work >>= next) s Q := by
  intro b s' hran
  obtain ⟨a, t, hwork, hnext⟩ := Ran.exists_of_bind hran
  exact h a t hwork b s' hnext

/-- A call reaches the store or, if calls may fail, fails before it. -/
theorem call_or_fault {r : Request} {k : r.Reply → Work α} {Q : α → Store → Prop}
    (h : ∀ t, around.Drifts s t →
      Ensures around (k (t.perform around.instant r).1) (t.perform around.instant r).2 Q ∧
        (around.faulty = true → ∀ error, Ensures around (k (.error error)) t Q)) :
    Ensures around (callStore r >>= k) s Q := by
  intro x s' hran
  obtain ⟨t, hdrift, hran | ⟨hfaulty, error, hran⟩⟩ := Ran.call_iff.1 hran
  · exact (h t hdrift).1 x s' hran
  · exact (h t hdrift).2 hfaulty error x s' hran

/-- A call in surroundings without faults reaches the store. -/
theorem call {r : Request} {k : r.Reply → Work α} {Q : α → Store → Prop}
    (hfaults : around.faulty = false)
    (h : ∀ t, around.Drifts s t →
      Ensures around (k (t.perform around.instant r).1) (t.perform around.instant r).2 Q) :
    Ensures around (callStore r >>= k) s Q := by
  refine call_or_fault fun t hdrift => ⟨h t hdrift, fun hfaulty => ?_⟩
  rw [hfaults] at hfaulty
  cases hfaulty

end Ensures

/-! ## Pacing -/

/-- Work that only sleeps. -/
inductive OnlySleeps : Work Unit → Prop
  | done : OnlySleeps (.done ())
  | sleep (d : Duration) {next : Unit → Work Unit} (rest : OnlySleeps (next ())) :
      OnlySleeps (.ask (.sleep d) next)

/-- Work that only sleeps leaves the store alone. -/
theorem OnlySleeps.ensures {around : Surroundings} {work : Work Unit} (h : OnlySleeps work)
    {s : Store} {Q : Unit → Store → Prop} (hQ : ∀ t, around.Drifts s t → Q () t) :
    Ensures around work s Q := by
  induction h with
  | done => exact .done hQ
  | sleep d _ ih => exact fun a s' hran => ih a s' (Ran.sleep_iff.1 hran)

/-- A pacer that does nothing but sleep. -/
structure Pacer.Silent (pacer : Pacer Work) : Prop where
  before : OnlySleeps pacer.before
  after : OnlySleeps pacer.after

theorem Pacer.silent_none : (Pacer.none : Pacer Work).Silent := ⟨.done, .done⟩

/-- What an effect does to a store that nobody else changes; if calls are lost, none of
them reaches the store. -/
def Store.handle (instant lost : Bool) : (e : Effect) → Store → e.Reply × Store
  | .call r, s => if lost = true then (.error (.other "unavailable"), s) else s.perform instant r
  | .sleep _, s => ((), s)

/-- Running work without anybody else is one of the ways in which it can go. -/
theorem Ran.of_run {around : Surroundings} {α : Type} (lost : Bool)
    (hlost : lost = true → around.faulty = true) (work : Work α) (s : Store) :
    Ran around work s (work.run (Store.handle around.instant lost) s).1
      (work.run (Store.handle around.instant lost) s).2 := by
  induction work generalizing s with
  | done a => exact .done a s
  | ask effect next ih =>
    cases effect with
    | call r =>
      cases lost with
      | false => exact .call (ih _ _)
      | true => exact .fault (hlost rfl) (.other "unavailable") (ih _ _)
    | sleep d => exact .sleep (ih _ _)

end Reconciliation
