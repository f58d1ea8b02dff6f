/-
# Two calls at once

The reconciler may be called for two clusters at the same time, and the effects of the two
calls then come in any order (`Interleaved`), which a schedule spells out (`interleave`).
Each of them runs as if it were alone: what the other writes is nothing that it reads.  So
the order does not matter, and two calls at once come to what one after the other comes
to, stamps apart (`independent_calls`).

A call that is alone is compared with one that is not by `Scope.Matches`: what the call
may read is the same in both stores.  An effect of the call keeps this (`Twin.step`), and so
does one of the other call (`Scope.Matches.of_others`).
-/

import Reconciliation.Proofs.Cluster.Twins

namespace Reconciliation

/-! ## Stores that match -/

section Absent

variable {s : Store} {name : ResourceName} {new : DbCluster} {instant : Bool}

theorem Store.perform_updateCluster_of_none (h : s.clusters name = none)
    (hname : new.resourceName = name) : s.perform instant (.update .cluster new) =
      (.error (.notFound .cluster name), s) := by
  subst hname
  simp [perform, get?, Kind.nameOf, h]

theorem Store.perform_updateStatus_of_none (h : s.clusters name = none)
    (hname : new.resourceName = name) : s.perform instant (.updateStatus new) =
      (.error (.notFound .cluster name), s) := by
  subst hname
  simp [perform, h]

end Absent

/-- The stores hold the same wherever the call may look, but for stamps; what the first one
holds is kept under its own name. -/
structure Scope.Matches (p : Scope) (s t : Store) : Prop where
  wellNamed : s.WellNamed
  of : ∀ c, s.clusters p.owner = some c → p.Of c
  agreeOn : p.AgreeOn s.unstamped t.unstamped

namespace Scope.Matches

variable {p : Scope} {s t : Store} {kind : Kind} {name : ResourceName}

/-- Resources other than clusters are the same in both stores. -/
theorem get?_eq (h : p.Matches s t) (hkind : kind ≠ .cluster) (hreads : p.Reads kind name) :
    t.get? kind name = s.get? kind name := by
  have hagree := h.agreeOn kind name hreads
  have hid : kind.unstamped = id := funext (Kind.unstamped_eq hkind)
  rw [Store.get?_unstamped, Store.get?_unstamped, hid, Option.map_id] at hagree
  exact hagree.symm

/-- The clusters differ in their stamps. -/
theorem clusters_cases (h : p.Matches s t) :
    (s.clusters p.owner = none ∧ t.clusters p.owner = none) ∨
    ∃ c stamp, p.Of c ∧ s.clusters p.owner = some c ∧
      t.clusters p.owner = some (c.stamped stamp) := by
  have hagree : (s.clusters p.owner).map (·.stamped none) =
      (t.clusters p.owner).map (·.stamped none) := h.agreeOn .cluster p.owner (.inl rfl)
  cases hs : s.clusters p.owner with
  | none =>
    rw [hs] at hagree
    exact .inl ⟨rfl, Option.map_eq_none_iff.1 hagree.symm⟩
  | some c =>
    rw [hs] at hagree
    obtain ⟨c', hc', hstamped⟩ := Option.map_eq_some_iff.1 hagree.symm
    exact .inr ⟨c, c'.status.lastUpdated, h.of c hs, rfl,
      hc'.trans (congrArg some (DbCluster.eq_stamped hstamped))⟩

/-- What others do matters only where the call may look. -/
theorem of_others (h : p.Matches s t) {u : Store} (hu : u.WellNamed)
    (hsame : ∀ kind name, p.Reads kind name → u.get? kind name = s.get? kind name) :
    p.Matches u t where
  wellNamed := hu
  of c hc := h.of c ((hsame .cluster p.owner (.inl rfl)).symm.trans hc)
  agreeOn kind name hreads := by
    rw [Store.get?_unstamped, hsame kind name hreads, ← Store.get?_unstamped]
    exact h.agreeOn kind name hreads

/-! ### Calls to both stores -/

variable (instant : Bool)

/-- The same resource, but for stamps, is put into both stores. -/
theorem agreeOn_put (h : p.Matches s t) (kind : Kind) (name : ResourceName)
    {object object' : kind.Object} (hobject : kind.unstamped object' = kind.unstamped object) :
    p.AgreeOn ((s.put name kind object).rollOut instant kind name).unstamped
      ((t.put name kind object').rollOut instant kind name).unstamped := by
  rw [Store.unstamped_rollOut, Store.unstamped_rollOut, Store.unstamped_put, Store.unstamped_put,
    hobject]
  exact (h.agreeOn.put name kind _).rollOut instant kind name

/-- A call about other kinds leaves the clusters alone. -/
theorem of_perform (h : p.Matches s t) {r : Request} (hr : r.kind ≠ .cluster) :
    ∀ c, (s.perform instant r).2.clusters p.owner = some c → p.Of c := by
  rw [Store.clusters_perform hr]
  exact h.of

/-- A call about another kind of resource finds and leaves the same. -/
theorem perform (h : p.Matches s t) {r : Request} (hkind : r.kind ≠ .cluster)
    (hreads : p.Reads r.kind r.name) :
    (t.perform instant r).1 = (s.perform instant r).1 ∧
      p.Matches (s.perform instant r).2 (t.perform instant r).2 := by
  have hnamed := h.wellNamed.perform instant r
  have hof := h.of_perform instant hkind
  have hstored := h.get?_eq hkind hreads
  cases r with
  | updateStatus c => exact absurd rfl hkind
  | get kind name =>
    simp only [Scene.Leads.perform_get]
    exact ⟨congrArg _ hstored, h⟩
  | create kind object =>
    have hname : kind.nameOf (kind.initial object) = kind.nameOf object := by cases kind <;> rfl
    simp only [Request.kind, Request.name] at hstored
    simp only [Store.perform, Store.insert, hname, hstored] at hnamed hof ⊢
    cases hs : s.get? kind (kind.nameOf object) with
    | some stored => exact ⟨rfl, h⟩
    | none =>
      rw [hs] at hnamed hof
      exact ⟨rfl, hnamed, hof, h.agreeOn_put instant kind _ rfl⟩
  | update kind object =>
    simp only [Request.kind, Request.name] at hstored
    simp only [Store.perform, hstored] at hnamed hof ⊢
    cases hs : s.get? kind (kind.nameOf object) with
    | none => exact ⟨rfl, h⟩
    | some stored =>
      rw [hs] at hnamed hof
      exact ⟨rfl, hnamed, hof, h.agreeOn_put instant kind _ rfl⟩

/-- A cluster of the scope is put into both stores. -/
theorem put_cluster (h : p.Matches s t) {c c' : DbCluster} (hc : p.Of c)
    (hstamped : c'.stamped none = c.stamped none) :
    p.Matches (s.put p.owner .cluster c) (t.put p.owner .cluster c') where
  wellNamed := by
    rw [← hc.resourceName_eq]
    exact h.wellNamed.put .cluster c
  of found hfound := by
    obtain rfl := Option.some.inj ((Collection.put_self _ _ _).symm.trans hfound)
    exact hc
  agreeOn := h.agreeOn_put false .cluster p.owner hstamped

theorem perform_replace (h : p.Matches s t) {c : DbCluster} (hc : p.Of c)
    (stamp : Option Timestamp) :
    (t.perform instant (.update .cluster (c.stamped stamp))).1 =
        (s.perform instant (.update .cluster c)).1 ∧
      p.Matches (s.perform instant (.update .cluster c)).2
        (t.perform instant (.update .cluster (c.stamped stamp))).2 := by
  have hname : c.resourceName = p.owner := hc.resourceName_eq
  have hname' : (c.stamped stamp).resourceName = p.owner := hname
  rcases h.clusters_cases with ⟨hs, ht⟩ | ⟨stored, seen, -, hs, ht⟩
  · rw [Store.perform_updateCluster_of_none hs hname, Store.perform_updateCluster_of_none ht hname']
    exact ⟨rfl, h⟩
  · rw [Store.perform_updateCluster hs hname, Store.perform_updateCluster ht hname']
    exact ⟨rfl, h.put_cluster ⟨hc.resourceName_eq, hc.certificate_eq⟩ rfl⟩

theorem perform_publish (h : p.Matches s t) {c : DbCluster} (hc : p.Of c)
    (stamp : Option Timestamp) :
    (t.perform instant (.updateStatus (c.stamped stamp))).1 =
        (s.perform instant (.updateStatus c)).1 ∧
      p.Matches (s.perform instant (.updateStatus c)).2
        (t.perform instant (.updateStatus (c.stamped stamp))).2 := by
  have hname : c.resourceName = p.owner := hc.resourceName_eq
  have hname' : (c.stamped stamp).resourceName = p.owner := hname
  rcases h.clusters_cases with ⟨hs, ht⟩ | ⟨stored, seen, hstored, hs, ht⟩
  · rw [Store.perform_updateStatus_of_none hs hname, Store.perform_updateStatus_of_none ht hname']
    exact ⟨rfl, h⟩
  · rw [Store.perform_updateStatus hs hname, Store.perform_updateStatus ht hname']
    exact ⟨rfl, h.put_cluster ⟨hstored.resourceName_eq, hstored.certificate_eq⟩ rfl⟩

end Scope.Matches

/-! ## One effect of a call -/

/-- Running work is taking its first effect and running the rest. -/
theorem Program.run_step {Req : Type} {Reply : Req → Type} {α σ : Type}
    (handle : (r : Req) → σ → Reply r × σ) (work : Program Req Reply α) (s : σ) :
    (work.step handle s).1.run handle (work.step handle s).2 = work.run handle s := by
  cases work <;> rfl

namespace Twin

variable {p : Scope} {α : Type} {Q : α → α → Prop} {work work' : Work α} {s t : Store}
  (instant : Bool)

/-- **An effect of two calls at different times** leaves the stores alike wherever the calls
may look. -/
theorem step (h : Twin p Q work work') (hst : p.Matches s t) :
    Twin p Q (work.step (Store.handle instant false) s).1
        (work'.step (Store.handle instant false) t).1 ∧
      p.Matches (work.step (Store.handle instant false) s).2
        (work'.step (Store.handle instant false) t).2 := by
  cases h with
  | done h => exact ⟨.done h, hst⟩
  | @read next next' found failed =>
    have hs : s.perform instant (.get .cluster p.owner) = _ := Scene.Leads.perform_get _ _ s
    have ht : t.perform instant (.get .cluster p.owner) = _ := Scene.Leads.perform_get _ _ t
    simp only [Program.step, Store.handle, Bool.false_eq_true, if_false, hs, ht]
    refine ⟨?_, hst⟩
    rcases hst.clusters_cases with ⟨hs, ht⟩ | ⟨c, stamp, hc, hs, ht⟩
    · simp only [Store.get?, hs, ht]
      exact failed _
    · simp only [Store.get?, hs, ht]
      exact found c stamp hc
  | @get kind name next next' hkind reads found failed =>
    have hs : s.perform instant (.get kind name) = _ := Scene.Leads.perform_get _ _ s
    have ht : t.perform instant (.get kind name) = _ := Scene.Leads.perform_get _ _ t
    simp only [Program.step, Store.handle, Bool.false_eq_true, if_false, hs, ht]
    refine ⟨?_, hst⟩
    rw [hst.get?_eq hkind reads]
    cases hfound : s.get? kind name with
    | none => exact failed _
    | some object => exact found object (hst.wellNamed kind name object hfound)
  | @create kind object next next' hkind owns rest =>
    obtain ⟨hreply, hmatches⟩ := hst.perform instant (r := .create kind object) hkind (.inl owns)
    simp only [Program.step, Store.handle, Bool.false_eq_true, if_false, hreply]
    exact ⟨rest _, hmatches⟩
  | @update kind object next next' hkind owns rest =>
    obtain ⟨hreply, hmatches⟩ := hst.perform instant (r := .update kind object) hkind (.inl owns)
    simp only [Program.step, Store.handle, Bool.false_eq_true, if_false, hreply]
    exact ⟨rest _, hmatches⟩
  | @replace c stamp next next' of rest =>
    obtain ⟨hreply, hmatches⟩ := hst.perform_replace instant of stamp
    simp only [Program.step, Store.handle, Bool.false_eq_true, if_false]
    exact ⟨hreply ▸ rest _, hmatches⟩
  | @publish c stamp next next' of rest =>
    obtain ⟨hreply, hmatches⟩ := hst.perform_publish instant of stamp
    simp only [Program.step, Store.handle, Bool.false_eq_true, if_false]
    exact ⟨hreply ▸ rest _, hmatches⟩
  | sleep rest => exact ⟨rest, hst⟩

/-- A call writes only what belongs to its cluster. -/
theorem owns_of_writes {r : Request} {next : r.Reply → Work α}
    (h : Twin p Q (.ask (.call r) next) work') {kind : Kind} (hkind : r.writes? = some kind) :
    p.owner.Owns kind r.name := by
  cases h with
  | read | get => cases hkind
  | create _ owns | update _ owns => exact Option.some.inj hkind ▸ owns
  | replace of | publish of => exact Option.some.inj hkind ▸ of.resourceName_eq

/-- An effect of a call leaves alone what does not belong to its cluster. -/
theorem get?_step (h : Twin p Q work work') {kind : Kind} {name : ResourceName}
    (hname : ¬ p.owner.Owns kind name) (s : Store) :
    (work.step (Store.handle instant false) s).2.get? kind name = s.get? kind name := by
  match work, h with
  | .done _, _ => rfl
  | .ask (.sleep _) _, _ => rfl
  | .ask (.call r) _, h =>
    exact Store.get?_perform_of_not_owns (fun _ => h.owns_of_writes) hname instant s

end Twin
/-! ## Interleavings -/

/-- `Interleaved instant left right s x y t`: two pieces of work that are begun on the store
`s`, their effects coming in some order, finish with `x` and `y` and leave the store `t`. -/
inductive Interleaved (instant : Bool) {α β : Type} :
    Work α → Work β → Store → α → β → Store → Prop
  | done (x : α) (y : β) (s : Store) : Interleaved instant (.done x) (.done y) s x y s
  | left {effect : Effect} {next : effect.Reply → Work α} {right : Work β} {s t : Store} {x : α}
      {y : β}
      (rest : Interleaved instant (next (Store.handle instant false effect s).1) right
        (Store.handle instant false effect s).2 x y t) :
      Interleaved instant (.ask effect next) right s x y t
  | right {left : Work α} {effect : Effect} {next : effect.Reply → Work β} {s t : Store} {x : α}
      {y : β}
      (rest : Interleaved instant left (next (Store.handle instant false effect s).1)
        (Store.handle instant false effect s).2 x y t) :
      Interleaved instant left (.ask effect next) s x y t

/-- Takes effects of two pieces of work as a schedule says, `true` for the left one, and
then finishes the left one before the right one. -/
def interleave (instant : Bool) {α β : Type} :
    List Bool → Work α → Work β → Store → α × β × Store
  | [], left, right, s =>
    let (x, s) := left.run (Store.handle instant false) s
    let (y, s) := right.run (Store.handle instant false) s
    (x, y, s)
  | true :: schedule, left, right, s =>
    let (left, s) := left.step (Store.handle instant false) s
    interleave instant schedule left right s
  | false :: schedule, left, right, s =>
    let (right, s) := right.step (Store.handle instant false) s
    interleave instant schedule left right s

namespace Interleaved

variable {instant : Bool} {α β : Type} {left : Work α} {right : Work β} {s t : Store} {x : α}
  {y : β}

theorem symm (h : Interleaved instant left right s x y t) :
    Interleaved instant right left s y x t := by
  induction h with
  | done x y s => exact .done y x s
  | left _ ih => exact .right ih
  | right _ ih => exact .left ih

/-- One piece of work after the other is an interleaving. -/
theorem of_run (instant : Bool) (left : Work α) (right : Work β) (s : Store) :
    Interleaved instant left right s (left.run (Store.handle instant false) s).1
      (right.run (Store.handle instant false) (left.run (Store.handle instant false) s).2).1
      (right.run (Store.handle instant false) (left.run (Store.handle instant false) s).2).2 := by
  induction left generalizing s with
  | ask effect next ih => exact .left (ih _ _)
  | done x =>
    induction right generalizing s with
    | ask effect next ih => exact .right (ih _ _)
    | done y => exact .done x y s

/-- Every schedule is an interleaving. -/
theorem of_schedule (instant : Bool) (schedule : List Bool) (left : Work α) (right : Work β)
    (s : Store) :
    Interleaved instant left right s (interleave instant schedule left right s).1
      (interleave instant schedule left right s).2.1
      (interleave instant schedule left right s).2.2 := by
  induction schedule generalizing left right s with
  | nil => exact of_run instant left right s
  | cons turn schedule ih =>
    cases turn with
    | true =>
      cases left with
      | done x => exact ih _ _ _
      | ask effect next => exact .left (ih _ _ _)
    | false =>
      cases right with
      | done y => exact ih _ _ _
      | ask effect next => exact .right (ih _ _ _)

/-- **The interleavings are what schedules lead to**; so however the effects come, both
pieces of work finish. -/
theorem iff_exists_schedule : Interleaved instant left right s x y t ↔
    ∃ schedule, interleave instant schedule left right s = (x, y, t) := by
  constructor
  · intro h
    induction h with
    | done x y s => exact ⟨[], rfl⟩
    | left _ ih =>
      obtain ⟨schedule, h⟩ := ih
      exact ⟨true :: schedule, h⟩
    | right _ ih =>
      obtain ⟨schedule, h⟩ := ih
      exact ⟨false :: schedule, h⟩
  · rintro ⟨schedule, h⟩
    have hends := of_schedule instant schedule left right s
    rwa [h] at hends

/-- **In an interleaving each of two calls runs as if it were alone**, if neither writes what
the other reads.  What belongs to neither cluster stays as it is. -/
theorem alone (h : Interleaved instant left right s x y t) {p q : Scope} {Q : α → α → Prop}
    {R : β → β → Prop} {left' : Work α} {right' : Work β} {s₁ s₂ : Store}
    (hleft : Twin p Q left left') (hright : Twin q R right right')
    (hp : p.Matches s s₁) (hq : q.Matches s s₂)
    (hpq : ∀ {kind name}, p.owner.Owns kind name → ¬ q.Reads kind name)
    (hqp : ∀ {kind name}, q.owner.Owns kind name → ¬ p.Reads kind name) :
    (Q x (left'.run (Store.handle instant false) s₁).1 ∧
      p.Matches t (left'.run (Store.handle instant false) s₁).2) ∧
    (R y (right'.run (Store.handle instant false) s₂).1 ∧
      q.Matches t (right'.run (Store.handle instant false) s₂).2) ∧
    ∀ kind name, ¬ p.owner.Owns kind name → ¬ q.owner.Owns kind name →
      t.get? kind name = s.get? kind name := by
  induction h generalizing left' right' s₁ s₂ with
  | done x y s =>
    cases hleft with
    | done hx =>
      cases hright with
      | done hy => exact ⟨⟨hx, hp⟩, ⟨hy, hq⟩, fun _ _ _ _ => rfl⟩
  | @left effect next right s t x y _ ih =>
    obtain ⟨hnext, hmatches⟩ := hleft.step instant hp
    have hothers := hq.of_others hmatches.wellNamed fun kind name hreads =>
      hleft.get?_step instant (fun howns => hpq howns hreads) s
    obtain ⟨hx, hy, hrest⟩ := ih hnext hright hmatches hothers
    rw [Program.run_step] at hx
    refine ⟨hx, hy, fun kind name hkept hkept' => ?_⟩
    exact (hrest kind name hkept hkept').trans (hleft.get?_step instant hkept s)
  | @right left effect next s t x y _ ih =>
    obtain ⟨hnext, hmatches⟩ := hright.step instant hq
    have hothers := hp.of_others hmatches.wellNamed fun kind name hreads =>
      hright.get?_step instant (fun howns => hqp howns hreads) s
    obtain ⟨hx, hy, hrest⟩ := ih hleft hnext hothers hmatches
    rw [Program.run_step] at hy
    refine ⟨hx, hy, fun kind name hkept hkept' => ?_⟩
    exact (hrest kind name hkept hkept').trans (hright.get?_step instant hkept' s)

/-- Interleavings of calls that are twins of each other end in the same way. -/
theorem same_end (h : Interleaved instant left right s x y t) {p q : Scope} {left₂ base : Work α}
    {right₂ base' : Work β} {x₂ : α} {y₂ : β} {t₂ : Store}
    (h₂ : Interleaved instant left₂ right₂ s x₂ y₂ t₂)
    (hleft : Twin p Eq left base) (hleft₂ : Twin p Eq left₂ base)
    (hright : Twin q Eq right base') (hright₂ : Twin q Eq right₂ base')
    (hp : p.Matches s s) (hq : q.Matches s s)
    (hpq : ∀ {kind name}, p.owner.Owns kind name → ¬ q.Reads kind name)
    (hqp : ∀ {kind name}, q.owner.Owns kind name → ¬ p.Reads kind name) :
    x₂ = x ∧ y₂ = y ∧ t₂.unstamped = t.unstamped := by
  obtain ⟨⟨hx, hpt⟩, ⟨hy, hqt⟩, hkept⟩ := h.alone hleft hright hp hq hpq hqp
  obtain ⟨⟨hx₂, hpt₂⟩, ⟨hy₂, hqt₂⟩, hkept₂⟩ := h₂.alone hleft₂ hright₂ hp hq hpq hqp
  refine ⟨hx₂.trans hx.symm, hy₂.trans hy.symm, Store.ext_get? fun kind name => ?_⟩
  by_cases howns : p.owner.Owns kind name
  · have hfirst := hpt.agreeOn kind name (.inl howns)
    have hsecond := hpt₂.agreeOn kind name (.inl howns)
    exact hsecond.trans hfirst.symm
  by_cases howns' : q.owner.Owns kind name
  · have hfirst := hqt.agreeOn kind name (.inl howns')
    have hsecond := hqt₂.agreeOn kind name (.inl howns')
    exact hsecond.trans hfirst.symm
  · rw [Store.get?_unstamped, Store.get?_unstamped, hkept kind name howns howns',
      hkept₂ kind name howns howns']

end Interleaved

/-! ## Two clusters in one store -/

/-- The scope of a call for a cluster that is stored; without one there is no certificate
to be read. -/
def Store.scope (s : Store) (owner : ResourceName) : Scope where
  owner := owner
  certificate := ((s.clusters owner).map DbCluster.certificateSecretName).getD owner.operatorSecret

theorem Store.WellNamed.matches_scope {s : Store} (h : s.WellNamed) (owner : ResourceName) :
    (s.scope owner).Matches s s where
  wellNamed := h
  of c hc := by
    have hc : s.clusters owner = some c := hc
    refine ⟨h .cluster owner c hc, ?_⟩
    rw [scope, hc]
    rfl
  agreeOn _ _ _ := rfl

/-- What is kept for one cluster is not read by a call for another one whose certificate is
a different secret. -/
theorem Store.not_reads_scope {s : Store} {a b : ResourceName} (hab : a ≠ b)
    (hb : ∀ c, s.clusters b = some c → c.certificateSecretName ≠ a.operatorSecret) {kind : Kind}
    {name : ResourceName} (howns : a.Owns kind name) : ¬ (s.scope b).Reads kind name := by
  refine Scope.not_reads_of_owns (p := s.scope a) (q := s.scope b) hab ?_ howns
  show ((s.clusters b).map DbCluster.certificateSecretName).getD b.operatorSecret ≠
    a.operatorSecret
  cases hstored : s.clusters b with
  | some c => exact hb c hstored
  | none => exact fun h => hab (ResourceName.eq_of_append h).symm

namespace Reconciler

variable (r : Reconciler) (instant : Bool)

/-- The call for a cluster with nobody else around, `now` being the clock. -/
def alone (now : Timestamp) (name : ResourceName) (s : Store) : Conclusion × Store :=
  (r.reconcile now name).run (Store.handle instant false) s

/-- The calls for two clusters one after the other. -/
def inTurn (now later : Timestamp) (a b : ResourceName) (s : Store) :
    Conclusion × Conclusion × Store :=
  let (x, s) := r.alone instant now a s
  let (y, s) := r.alone instant later b s
  (x, y, s)

end Reconciler

/-- Undisturbed work leaves alone what does not belong to its cluster. -/
theorem Twin.get?_run {p : Scope} {α : Type} {Q : α → α → Prop} {work work' : Work α}
    (h : Twin p Q work work') {s t : Store} (hst : p.Matches s t) (instant : Bool) {kind : Kind}
    {name : ResourceName} (hname : ¬ p.owner.Owns kind name) :
    (work.run (Store.handle instant false) s).2.get? kind name = s.get? kind name := by
  induction work generalizing work' s t with
  | done a => rfl
  | ask effect next ih =>
    obtain ⟨hnext, hmatches⟩ := h.step instant hst
    exact (ih _ hnext hmatches).trans (h.get?_step instant hname s)

/-- **Clusters in one store are independent.**  If the certificate of neither of two clusters
is the secret that is kept for the other, two calls at once, however their effects are
interleaved and whatever the clock shows, come to the same results as one call after the
other in either order, and leave the same store but for stamps.  A call for one of them
leaves the objects of the other exactly as they are.  The store may be any that was written
through its calls: these keep every object under its own name. -/
theorem independent_calls {r : Reconciler} (hr : r.pacer.Silent) (instant : Bool) {s : Store}
    (hs : s.WellNamed) {a b : ResourceName} (hab : a ≠ b)
    (ha : ∀ c, s.clusters a = some c → c.certificateSecretName ≠ b.operatorSecret)
    (hb : ∀ c, s.clusters b = some c → c.certificateSecretName ≠ a.operatorSecret) :
    (∀ (schedule : List Bool) (now later first second : Timestamp), ∃ x y t t₁ t₂,
      interleave instant schedule (r.reconcile now a) (r.reconcile later b) s = (x, y, t) ∧
      r.inTurn instant first second a b s = (x, y, t₁) ∧ t₁.unstamped = t.unstamped ∧
      r.inTurn instant first second b a s = (y, x, t₂) ∧ t₂.unstamped = t.unstamped) ∧
    ∀ (now : Timestamp) (kind : Kind) (name : ResourceName), b.Owns kind name →
      (r.alone instant now a s).2.get? kind name = s.get? kind name := by
  have hp := hs.matches_scope a
  have hq := hs.matches_scope b
  have htwin : ∀ now (n : ResourceName), Twin (s.scope n) Eq (r.reconcile now n)
      (r.reconcile default n) := fun now n => Reconciler.twin_reconcile hr now default (s.scope n)
  refine ⟨fun schedule now later first second => ?_, fun now kind name howns => ?_⟩
  · obtain ⟨x, y, t, hboth⟩ : ∃ x y t,
        interleave instant schedule (r.reconcile now a) (r.reconcile later b) s = (x, y, t) :=
      ⟨_, _, _, rfl⟩
    have hends := Interleaved.iff_exists_schedule.2 ⟨schedule, hboth⟩
    have hsame : ∀ {first second : Timestamp} {x' y' : Conclusion} {t' : Store},
        Interleaved instant (r.reconcile first a) (r.reconcile second b) s x' y' t' →
        x' = x ∧ y' = y ∧ t'.unstamped = t.unstamped := fun h =>
      hends.same_end h (htwin _ a) (htwin _ a) (htwin _ b) (htwin _ b) hp hq
        (Store.not_reads_scope hab hb) (Store.not_reads_scope hab.symm ha)
    obtain ⟨hx, hy, ht⟩ := hsame (.of_run instant (r.reconcile first a) (r.reconcile second b) s)
    obtain ⟨hx', hy', ht'⟩ :=
      hsame (Interleaved.of_run instant (r.reconcile first b) (r.reconcile second a) s).symm
    exact ⟨x, y, t, _, _, hboth, Prod.ext hx (Prod.ext hy rfl), ht,
      Prod.ext hy' (Prod.ext hx' rfl), ht'⟩
  · have hother : ¬ a.Owns kind name := fun howns' => hab (howns'.owner_eq howns)
    exact (htwin now a).get?_run hp instant hother

/-- A cluster that has found its certificate valid and is about to keep it in a secret. -/
def DbCluster.validated (name : String) : DbCluster :=
  withProgress ⟨⟨name, "db", .empty⟩, ⟨3, "6.0.5", ⟨⟨true, "certificate", "authority"⟩⟩⟩, .fresh⟩
    { Progress.fresh with nextState := "CreateTlsResources" }

/-- Two such clusters that share the certificate of the user. -/
def Store.shared : Store :=
  ((Store.empty.insert .cluster (.validated "alpha")).insert .cluster (.validated "beta")).insert
    .secret ⟨⟨"db", "certificate"⟩,
      (Table.empty.insert certificateKey "certificate").insert privateKeyKey "key"⟩

/-- Two clusters that share the certificate of the user are reconciled at once, their
effects taking turns: each has its secret in the end, as when the calls follow each other. -/
theorem independent_calls_of_shared_certificate : ∃ x y t t₁,
    interleave true [true, false, true, false, true, false, true, false]
      (Reconciler.standard.reconcile default ⟨"db", "alpha"⟩)
      (Reconciler.standard.reconcile default ⟨"db", "beta"⟩) .shared = (x, y, t) ∧
    (t.secrets ⟨"db", "alpha-server-certificate-key"⟩).isSome = true ∧
    (t.secrets ⟨"db", "beta-server-certificate-key"⟩).isSome = true ∧
    Reconciler.standard.inTurn true default default ⟨"db", "beta"⟩ ⟨"db", "alpha"⟩ .shared =
      (y, x, t₁) ∧ t₁.unstamped = t.unstamped := by
  have hnamed : Store.shared.WellNamed :=
    ((Store.wellNamed_empty.put .cluster (.validated "alpha")).put .cluster
      (.validated "beta")).put .secret _
  obtain ⟨x, y, t, _, t₁, hboth, -, -, hturn, hstamps⟩ :=
    (independent_calls (r := .standard) Pacer.silent_none true hnamed
      (a := ⟨"db", "alpha"⟩) (b := ⟨"db", "beta"⟩) (by decide)
      (fun c hc => Option.some.inj hc ▸ by decide)
      (fun c hc => Option.some.inj hc ▸ by decide)).1
      [true, false, true, false, true, false, true, false] default default default default
  have hsecrets : ∀ ends, interleave true [true, false, true, false, true, false, true, false]
      (Reconciler.standard.reconcile default ⟨"db", "alpha"⟩)
      (Reconciler.standard.reconcile default ⟨"db", "beta"⟩) .shared = ends →
      (ends.2.2.secrets ⟨"db", "alpha-server-certificate-key"⟩).isSome = true ∧
      (ends.2.2.secrets ⟨"db", "beta-server-certificate-key"⟩).isSome = true := by
    rintro _ rfl
    decide +kernel
  obtain ⟨halpha, hbeta⟩ := hsecrets _ hboth
  exact ⟨x, y, t, t₁, hboth, halpha, hbeta, hturn, hstamps⟩

end Reconciliation
