/-
# Moments of a run

Some properties are about the middle of a call: what is stored at the moment when the
reconciler makes a request.  A `Moment` is the store together with what is left of the
call under way, and a `History` lists all the moments of a run, one effect after the
other; calls may fail, and others may change the store at any of them.

Work is `Guarded` if every request that it makes passes a gate, whatever happens, and if
it ends well.  There is one rule for each way to put work together, so a step is followed
request by request, and `History.safe` carries the gate to whole runs.
-/

import Mathlib.Data.List.Chain
import Reconciliation.Cluster.Reconciler
import Reconciliation.Proofs.Cluster.Surroundings

namespace Reconciliation

/-! ## One effect at a time -/

/-- The next thing that can happen while work is under way. -/
inductive Advances (around : Surroundings) {α : Type} : Work α × Store → Work α × Store → Prop
  /-- A request reaches the store. -/
  | call {r : Request} {next : r.Reply → Work α} {s : Store} :
      Advances around (.ask (.call r) next, s)
        (next (s.perform around.instant r).1, (s.perform around.instant r).2)
  /-- A request fails without reaching the store. -/
  | fault {r : Request} {next : r.Reply → Work α} {s : Store} (faulty : around.faulty = true)
      (error : StoreError) : Advances around (.ask (.call r) next, s) (next (.error error), s)
  | sleep {d : Duration} {next : Unit → Work α} {s : Store} :
      Advances around (.ask (.sleep d) next, s) (next (), s)
  /-- Somebody else changes the store. -/
  | others {work : Work α} {s t : Store} (change : around.others s t) :
      Advances around (work, s) (work, t)

/-- The request that work makes next, if it makes one. -/
def nextRequest? {α : Type} : Work α → Option Request
  | .ask (.call r) _ => some r
  | _ => none

/-! ## Guarded work -/

/-- Whatever happens, every request of the work passes the gate when it is made, and the
work ends with `Q`. -/
def Guarded (around : Surroundings) (gate : Request → Store → Prop) {α : Type}
    (Q : α → Store → Prop) : Work α → Store → Prop
  | .done a, s => ∀ t, around.Drifts s t → Q a t
  | .ask (.call r) next, s => ∀ t, around.Drifts s t → gate r t ∧
      Guarded around gate Q (next (t.perform around.instant r).1) (t.perform around.instant r).2 ∧
      (around.faulty = true → ∀ error, Guarded around gate Q (next (.error error)) t)
  | .ask (.sleep _) next, s => Guarded around gate Q (next ()) s

namespace Guarded

variable {around : Surroundings} {gate : Request → Store → Prop} {α β : Type} {s t : Store}

/-- What others do before the work is part of it. -/
theorem drift {Q : α → Store → Prop} {work : Work α} (h : Guarded around gate Q work s)
    (hdrift : around.Drifts s t) : Guarded around gate Q work t := by
  induction work with
  | done a => exact fun u hu => h u (hdrift.trans hu)
  | ask effect next ih =>
    cases effect with
    | call r => exact fun u hu => h u (hdrift.trans hu)
    | sleep d => exact ih () h

/-- What passes a gate passes a wider one, and what ends with `Q` ends with less. -/
theorem imp {wider : Request → Store → Prop} {Q P : α → Store → Prop} {work : Work α}
    (h : Guarded around gate Q work s) (hgate : ∀ r u, gate r u → wider r u)
    (hends : ∀ a u, Q a u → P a u) : Guarded around wider P work s := by
  induction work generalizing s with
  | done a => exact fun u hu => hends a u (h u hu)
  | ask effect next ih =>
    cases effect with
    | call r =>
      intro u hu
      obtain ⟨hpasses, hreply, hfault⟩ := h u hu
      exact ⟨hgate r u hpasses, ih _ hreply, fun hfaulty error => ih _ (hfault hfaulty error)⟩
    | sleep d => exact ih () h

theorem mono {Q P : α → Store → Prop} {work : Work α} (h : Guarded around gate Q work s)
    (hends : ∀ a u, Q a u → P a u) : Guarded around gate P work s :=
  h.imp (fun _ _ => id) hends

theorem widen {wider : Request → Store → Prop} {Q : α → Store → Prop} {work : Work α}
    (h : Guarded around gate Q work s) (hgate : ∀ r u, gate r u → wider r u) :
    Guarded around wider Q work s :=
  h.imp hgate fun _ _ => id

/-- Work that is guarded in two ways is guarded in both. -/
theorem and {other : Request → Store → Prop} {Q P : α → Store → Prop} {work : Work α}
    (h : Guarded around gate Q work s) (h' : Guarded around other P work s) :
    Guarded around (fun r u => gate r u ∧ other r u) (fun a u => Q a u ∧ P a u) work s := by
  induction work generalizing s with
  | done a => exact fun u hu => ⟨h u hu, h' u hu⟩
  | ask effect next ih =>
    cases effect with
    | call r =>
      intro u hu
      obtain ⟨hgate, hreply, hfault⟩ := h u hu
      obtain ⟨hgate', hreply', hfault'⟩ := h' u hu
      exact ⟨⟨hgate, hgate'⟩, ih _ hreply hreply',
        fun hfaulty error => ih _ (hfault hfaulty error) (hfault' hfaulty error)⟩
    | sleep d => exact ih () h h'

theorem done {Q : α → Store → Prop} {a : α} (h : ∀ u, around.Drifts s u → Q a u) :
    Guarded around gate Q (.done a) s := h

theorem bind {work : Work α} {next : α → Work β} {Q : β → Store → Prop}
    (h : Guarded around gate (fun a u => Guarded around gate Q (next a) u) work s) :
    Guarded around gate Q (work >>= next) s := by
  induction work generalizing s with
  | done a => exact h s (.refl s)
  | ask effect rest ih =>
    cases effect with
    | call r =>
      intro u hu
      obtain ⟨hgate, hreply, hfault⟩ := h u hu
      exact ⟨hgate, ih _ hreply, fun hfaulty error => ih _ (hfault hfaulty error)⟩
    | sleep d => exact ih () h

/-- Work that a failing call ends goes on after a call that succeeded. -/
theorem run_bind {work : StoreWork α} {next : α → StoreWork β}
    {Q : Except StoreError β → Store → Prop}
    (h : Guarded around gate (fun x u =>
      match x with
      | .ok a => Guarded around gate Q (next a).run u
      | .error error => ∀ v, around.Drifts u v → Q (.error error) v) work.run s) :
    Guarded around gate Q (work >>= next).run s := by
  rw [ExceptT.run_bind]
  refine bind (h.mono fun x u hx => ?_)
  cases x with
  | ok a => exact hx
  | error error => exact done hx

/-- A request passes the gate, and the work goes on with the reply of the store or, if
calls may fail, with an error. -/
theorem call {r : Request} {next : r.Reply → Work α} {Q : α → Store → Prop}
    (h : ∀ u, around.Drifts s u → gate r u ∧
      Guarded around gate Q (next (u.perform around.instant r).1)
        (u.perform around.instant r).2 ∧
      (around.faulty = true → ∀ error, Guarded around gate Q (next (.error error)) u)) :
    Guarded around gate Q (callStore r >>= next) s := h

/-- A lookup gives what is stored when it is made or, if calls may fail, an error or
nothing. -/
theorem findResource {kind : Kind} {name : ResourceName}
    {Q : Except StoreError (Option kind.Object) → Store → Prop}
    (hgate : ∀ t, around.Drifts s t → gate (.get kind name) t)
    (hfound : ∀ t u, around.Drifts s t → around.Drifts t u → Q (.ok (t.get? kind name)) u)
    (hfault : around.faulty = true → ∀ x u, around.Drifts s u → (∀ a, x ≠ .ok (some a)) → Q x u) :
    Guarded around gate Q (findResource kind name).run s := by
  refine call (r := .get kind name) fun t ht => ⟨hgate t ht, ?_, fun hfaulty error => ?_⟩
  · have hfound := hfound t
    simp only [Store.perform]
    cases hstored : t.get? kind name with
    | some object =>
      rw [hstored] at hfound
      exact done fun u hu => hfound u ht hu
    | none =>
      rw [hstored] at hfound
      exact done fun u hu => hfound u ht hu
  · dsimp only
    split
    · exact done fun u hu => hfault hfaulty _ u (ht.trans hu) nofun
    · exact done fun u hu => hfault hfaulty _ u (ht.trans hu) nofun

theorem of_onlySleeps {Q : Unit → Store → Prop} {work : Work Unit} (h : OnlySleeps work)
    (hQ : ∀ u, around.Drifts s u → Q () u) : Guarded around gate Q work s := by
  induction h with
  | done => exact hQ
  | sleep d _ ih => exact ih

/-- Work stays guarded with everything that happens. -/
theorem advances {Q : α → Store → Prop} {work work' : Work α}
    (h : Guarded around gate Q work s) (hnext : Advances around (work, s) (work', t)) :
    Guarded around gate Q work' t := by
  cases hnext with
  | call => exact (h s (.refl s)).2.1
  | fault faulty error => exact (h s (.refl s)).2.2 faulty error
  | sleep => exact h
  | others change => exact h.drift (.single change)

theorem reaches {Q : α → Store → Prop} {work work' : Work α} (h : Guarded around gate Q work s)
    (hreach : Relation.ReflTransGen (Advances around) (work, s) (work', t)) :
    Guarded around gate Q work' t := by
  generalize hp : (work', t) = p at hreach
  induction hreach generalizing work' t with
  | refl =>
    cases hp
    exact h
  | @tail q _ _ hnext ih =>
    subst hp
    exact (ih rfl).advances hnext

/-- A request that is about to be made passes the gate. -/
theorem gate_of_next {Q : α → Store → Prop} {work : Work α} {r : Request}
    (h : Guarded around gate Q work s) (hr : nextRequest? work = some r) : gate r s := by
  cases work with
  | done => cases hr
  | ask effect next =>
    cases effect with
    | call request =>
      obtain rfl := Option.some.inj hr
      exact (h s (.refl s)).1
    | sleep => cases hr

/-- Guarded work ends well. -/
theorem of_ran {Q : α → Store → Prop} {work : Work α} {a : α}
    (h : Guarded around gate Q work s) (hran : Ran around work s a t) : Q a t := by
  induction hran with
  | done a s => exact h s (.refl s)
  | call _ ih => exact ih (h _ (.refl _)).2.1
  | fault faulty error _ ih => exact ih ((h _ (.refl _)).2.2 faulty error)
  | sleep _ ih => exact ih h
  | others change _ ih => exact ih (h.drift (.single change))

end Guarded

/-! ## Histories -/

/-- A moment of a run: what is left of the call under way, if there is one, and the
store. -/
structure Moment where
  rest : Option (Work Conclusion)
  store : Store

/-- The request that is made next, if one is. -/
def Moment.request? (m : Moment) : Option Request := m.rest.bind nextRequest?

/-- The moments that can follow a moment; `between` is what may happen while no call is
under way. -/
inductive Moment.Next (r : Reconciler) (name : ResourceName) (around : Surroundings)
    (between : Store → Store → Prop) : Moment → Moment → Prop
  /-- A call of the reconciler begins. -/
  | begins (now : Timestamp) {s : Store} :
      Next r name around between ⟨none, s⟩ ⟨some (r.reconcile now name), s⟩
  | advances {work work' : Work Conclusion} {s s' : Store}
      (h : Advances around (work, s) (work', s')) :
      Next r name around between ⟨some work, s⟩ ⟨some work', s'⟩
  /-- A call of the reconciler ends. -/
  | ends {conclusion : Conclusion} {s : Store} :
      Next r name around between ⟨some (.done conclusion), s⟩ ⟨none, s⟩
  | between {s s' : Store} (change : between s s') :
      Next r name around between ⟨none, s⟩ ⟨none, s'⟩

/-- The moments of a run, the latest first. -/
inductive History (r : Reconciler) (name : ResourceName) (around : Surroundings)
    (between : Store → Store → Prop) (start : Store) : List Moment → Prop
  | start : History r name around between start [⟨none, start⟩]
  | next {m m' : Moment} {earlier : List Moment}
      (before : History r name around between start (m :: earlier))
      (follows : m.Next r name around between m') :
      History r name around between start (m' :: m :: earlier)

/-- At a moment without a call the store is idle; otherwise the call under way is guarded
and leaves an idle store behind. -/
def Moment.Safe (around : Surroundings) (gate : Request → Store → Prop) (Idle : Store → Prop)
    (m : Moment) : Prop :=
  match m.rest with
  | none => Idle m.store
  | some work => Guarded around gate (fun _ => Idle) work m.store

section Histories

variable {r : Reconciler} {name : ResourceName} {around : Surroundings}
  {between : Store → Store → Prop} {gate : Request → Store → Prop} {Idle : Store → Prop}
  {start : Store} {moments : List Moment}

/-- What is requested at a safe moment passes the gate. -/
theorem Moment.Safe.gate_of_request {m : Moment} {request : Request}
    (h : m.Safe around gate Idle) (hrequest : m.request? = some request) :
    gate request m.store := by
  obtain ⟨rest, s⟩ := m
  cases rest with
  | none => cases hrequest
  | some work => exact Guarded.gate_of_next h hrequest

/-- **In a run whose calls are guarded, every moment is safe.** -/
theorem History.safe (h : History r name around between start moments) (hstart : Idle start)
    (hbetween : ∀ {s s'}, Idle s → between s s' → Idle s')
    (hcall : ∀ now {s}, Idle s → Guarded around gate (fun _ => Idle) (r.reconcile now name) s) :
    ∀ m ∈ moments, m.Safe around gate Idle := by
  induction h with
  | start => exact List.forall_mem_singleton.2 hstart
  | next _ follows ih =>
    refine List.forall_mem_cons.2 ⟨?_, ih⟩
    have hlast := (List.forall_mem_cons.1 ih).1
    cases follows with
    | begins now => exact hcall now hlast
    | advances h => exact Guarded.advances hlast h
    | ends => exact hlast _ (.refl _)
    | between change => exact hbetween hlast change

/-- What holds between a moment and the next one holds along a history. -/
theorem History.isChain {P : Moment → Prop} {R : Moment → Moment → Prop}
    (h : History r name around between start moments) (hmoments : ∀ m ∈ moments, P m)
    (hnext : ∀ {m m'}, P m → m.Next r name around between m' → R m' m) :
    moments.IsChain R := by
  induction h with
  | start => exact .singleton _
  | next _ follows ih =>
    have hearlier := (List.forall_mem_cons.1 hmoments).2
    exact .cons_cons (hnext (List.forall_mem_cons.1 hearlier).1 follows) (ih hearlier)

end Histories

/-! ## Histories that are carried out -/

/-- The moment that follows when nobody else changes the store; a request fails with the
error that is given, if there is one. -/
def Reconciler.follow (r : Reconciler) (instant : Bool) (now : Timestamp) (name : ResourceName)
    (error : Option StoreError) : Moment → Moment
  | ⟨none, s⟩ => ⟨some (r.reconcile now name), s⟩
  | ⟨some (.done _), s⟩ => ⟨none, s⟩
  | ⟨some (.ask (.sleep _) next), s⟩ => ⟨some (next ()), s⟩
  | ⟨some (.ask (.call request) next), s⟩ =>
    match error with
    | none => ⟨some (next (s.perform instant request).1), (s.perform instant request).2⟩
    | some error => ⟨some (next (.error error)), s⟩

/-- The moments after some others, when requests fail as they are scheduled to. -/
def Reconciler.goOn (r : Reconciler) (instant : Bool) (now : Timestamp) (name : ResourceName)
    (schedule : List (Option StoreError)) (before : Moment × List Moment) :
    Moment × List Moment :=
  schedule.foldl (fun p error => (r.follow instant now name error p.1, p.1 :: p.2)) before

theorem Reconciler.next_follow (r : Reconciler) {around : Surroundings} (now : Timestamp)
    (name : ResourceName) (between : Store → Store → Prop) {error : Option StoreError}
    (hfaulty : error ≠ none → around.faulty = true) (m : Moment) :
    m.Next r name around between (r.follow around.instant now name error m) := by
  obtain ⟨rest, s⟩ := m
  match rest with
  | none => exact .begins now
  | some (.done _) => exact .ends
  | some (.ask (.sleep _) next) => exact .advances .sleep
  | some (.ask (.call request) next) =>
    cases error with
    | none => exact .advances .call
    | some error => exact .advances (.fault (hfaulty nofun) error)

/-- While a call is under way others may have their turn. -/
theorem Moment.next_of_others {r : Reconciler} {name : ResourceName} {around : Surroundings}
    {between : Store → Store → Prop} {m : Moment} (hcall : m.rest.isSome = true) {t : Store}
    (change : around.others m.store t) : m.Next r name around between ⟨m.rest, t⟩ := by
  obtain ⟨_ | work, s⟩ := m
  · cases hcall
  · exact .advances (.others change)

/-- A history goes on as it is scheduled. -/
theorem History.goOn {r : Reconciler} {around : Surroundings} {name : ResourceName}
    {between : Store → Store → Prop} {start : Store} {m : Moment} {earlier : List Moment}
    (h : History r name around between start (m :: earlier)) (hfaulty : around.faulty = true)
    (now : Timestamp) (schedule : List (Option StoreError)) :
    History r name around between start
      ((r.goOn around.instant now name schedule (m, earlier)).1 ::
        (r.goOn around.instant now name schedule (m, earlier)).2) := by
  induction schedule generalizing m earlier with
  | nil => exact h
  | cons error schedule ih =>
    exact ih (.next h (r.next_follow now name between (fun _ => hfaulty) m))

/-- The moments of a scheduled run. -/
def Reconciler.moments (r : Reconciler) (instant : Bool) (now : Timestamp) (name : ResourceName)
    (start : Store) (schedule : List (Option StoreError)) : Moment × List Moment :=
  r.goOn instant now name schedule (⟨none, start⟩, [])

/-- What the last moment of a schedule shows is shown by a history. -/
theorem History.exists_of_schedule (r : Reconciler) (around : Surroundings)
    (hfaulty : around.faulty = true) (now : Timestamp) (name : ResourceName)
    (between : Store → Store → Prop) (start : Store) (schedule : List (Option StoreError))
    {P : Moment → List Moment → Prop}
    (h : P (r.moments around.instant now name start schedule).1
      (r.moments around.instant now name start schedule).2) :
    ∃ last earlier, History r name around between start (last :: earlier) ∧ P last earlier :=
  ⟨_, _, .goOn .start hfaulty now schedule, h⟩

end Reconciliation
