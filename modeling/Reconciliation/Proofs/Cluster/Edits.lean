/-
# Edits in the middle of a call

A user edits a cluster while the reconciler works on it: another spec, or an annotation
that is none of the reconciler's.  The edit comes between two effects of one call
(`Reconciler.edited`), at any of them.

The reconciler writes whole copies, so an edit survives only if it is read before the
cluster is replaced the next time: `carriedBy_iff` says that exactly those edits are
lost that come between the read of a copy and the write of it.  There is such a place in
the write of every resume point, a longer one when a cluster is published as running,
and one at the end of a pass (`not_forall_carriedBy`).
-/

import Mathlib.Logic.Function.Iterate
import Reconciliation.Proofs.Cluster.Copies
import Reconciliation.Proofs.Cluster.Run

namespace Reconciliation

/-! ## Edits -/

/-- A change that a user makes to a cluster in one go. -/
inductive Edit where
  /-- Another spec is wanted. -/
  | respec (spec : ClusterSpec)
  /-- An annotation is added or changed. -/
  | annotate (key value : String)

namespace Edit

/-- The cluster after an edit. -/
def apply : Edit → DbCluster → DbCluster
  | respec spec, c => { c with spec }
  | annotate key value, c => c.annotate key value

/-- An edit that leaves the annotations of the reconciler alone. -/
def Foreign : Edit → Prop
  | respec _ => True
  | annotate key _ => key ∉ ownAnnotations

/-- The cluster is as the edit wants it. -/
def CarriedBy : Edit → DbCluster → Prop
  | respec spec, c => c.spec = spec
  | annotate key value, c => c.metadata.annotations.get? key = some value

theorem carriedBy_apply (e : Edit) (c : DbCluster) : e.CarriedBy (e.apply c) := by
  cases e with
  | respec spec => rfl
  | annotate key value => simp [CarriedBy, apply, DbCluster.annotate]

theorem resourceName_apply (e : Edit) (c : DbCluster) :
    (e.apply c).resourceName = c.resourceName := by
  cases e <;> rfl

/-- What the reconciler writes does not tell whether a foreign edit is there. -/
theorem Foreign.carriedBy {e : Edit} (he : e.Foreign) {a b : DbCluster} (h : a.Agrees b)
    (ha : e.CarriedBy a) : e.CarriedBy b := by
  cases e with
  | respec spec => exact h.spec_eq.symm.trans ha
  | annotate key value => exact (h.get?_eq key he).symm.trans ha

end Edit

/-- The store after the cluster under a name was edited. -/
def Store.edit (s : Store) (name : ResourceName) (e : Edit) : Store :=
  match s.clusters name with
  | some c => s.put name .cluster (e.apply c)
  | none => s

/-- What is left of a call, and the store, after `k` effects of the call and an edit. -/
def Reconciler.edited (r : Reconciler) (instant : Bool) (now : Timestamp) (name : ResourceName)
    (k : ℕ) (e : Edit) (s : Store) : Work Conclusion × Store :=
  let (rest, t) := (fun p : Work Conclusion × Store =>
    p.1.step (Store.handle instant false) p.2)^[k] (r.reconcile now name, s)
  (rest, t.edit name e)

/-! ## Calls about clusters -/

/-- Whether a request reads a cluster. -/
def Request.readsCluster : Request → Bool
  | get .cluster _ => true
  | _ => false

/-- Whether a request replaces a cluster. -/
def Request.replacesCluster : Request → Bool
  | update .cluster _ => true
  | _ => false

theorem Request.readsCluster_eq_false {r : Request} (hkind : r.kind ≠ .cluster) :
    r.readsCluster = false := by
  cases r with
  | get kind name =>
    cases kind with
    | cluster => exact absurd rfl hkind
    | service | workload | automationConfig | secret | configMap => rfl
  | create | update | updateStatus => rfl

theorem Request.replacesCluster_eq_false {r : Request} (hkind : r.kind ≠ .cluster) :
    r.replacesCluster = false := by
  cases r with
  | update kind object =>
    cases kind with
    | cluster => exact absurd rfl hkind
    | service | workload | automationConfig | secret | configMap => rfl
  | get | create | updateStatus => rfl

/-- Whether the work replaces the cluster before it reads it again. -/
def replacesNext {α : Type} (instant : Bool) : Work α → Store → Bool
  | .done _, _ => false
  | .ask (.sleep _) next, s => replacesNext instant (next ()) s
  | .ask (.call r) next, s =>
    if r.replacesCluster = true then true
    else if r.readsCluster = true then false
    else replacesNext instant (next (s.perform instant r).1) (s.perform instant r).2

namespace Store

variable {instant : Bool}

theorem clusters_settle (s : Store) (name : ResourceName) :
    (s.settle name).clusters = s.clusters := by
  unfold settle
  split <;> rfl

theorem clusters_rollOut (instant : Bool) (kind : Kind) (name : ResourceName) (s : Store) :
    (s.rollOut instant kind name).clusters = s.clusters := by
  unfold rollOut
  split
  · exact s.clusters_settle name
  · rfl

theorem clusters_put {kind : Kind} (hkind : kind ≠ .cluster) (s : Store) (name : ResourceName)
    (object : kind.Object) : (s.put name kind object).clusters = s.clusters := by
  cases kind with
  | cluster => exact absurd rfl hkind
  | service | workload | automationConfig | secret | configMap => rfl

/-- A call about other kinds leaves the clusters alone. -/
theorem clusters_perform {r : Request} (hkind : r.kind ≠ .cluster) (s : Store) :
    (s.perform instant r).2.clusters = s.clusters := by
  cases r with
  | get kind name =>
    simp only [perform]
    split <;> rfl
  | create kind object =>
    simp only [perform]
    split
    · rfl
    · rw [clusters_rollOut]
      exact clusters_put hkind _ _ _
  | update kind object =>
    simp only [perform]
    split
    · rw [clusters_rollOut]
      exact clusters_put hkind _ _ _
    · rfl
  | updateStatus cluster => exact absurd rfl hkind

end Store

/-! ## What copies have in common -/

/-- A property of clusters that does not look at what the reconciler writes. -/
def Lasting (P : DbCluster → Prop) : Prop := ∀ ⦃a b : DbCluster⦄, a.Agrees b → P a → P b

/-- The store has a cluster under its own name, and it has the property. -/
def Store.Has (s : Store) (name : ResourceName) (P : DbCluster → Prop) : Prop :=
  ∃ c, s.clusters name = some c ∧ c.resourceName = name ∧ P c

section Has

variable {s : Store} {name : ResourceName} {P : DbCluster → Prop}

theorem Store.has_put {c : DbCluster} (hname : c.resourceName = name) (hc : P c) :
    (s.put name .cluster c).Has name P :=
  ⟨c, Collection.put_self _ _ _, hname, hc⟩

theorem Store.Has.mono {R : DbCluster → Prop} (h : s.Has name P) (himp : ∀ c, P c → R c) :
    s.Has name R := by
  obtain ⟨c, hstored, hname, hc⟩ := h
  exact ⟨c, hstored, hname, himp c hc⟩

/-- After an edit the cluster is as the edit wants it. -/
theorem Store.Has.edit (h : s.Has name P) (e : Edit) : (s.edit name e).Has name e.CarriedBy := by
  obtain ⟨c, hstored, hname, -⟩ := h
  rw [Store.edit, hstored]
  exact Store.has_put ((e.resourceName_apply c).trans hname) (e.carriedBy_apply c)

end Has

namespace Carries

variable (instant : Bool) {name : ResourceName} {α : Type} {Q : DbCluster → α → Prop}
  {P : DbCluster → Prop} {copy : DbCluster} {work : Work α} {s : Store}

/-- A property of the copy and of the stored cluster is still one of both after an effect
of the work. -/
theorem step (h : Carries name Q copy work) (hP : Lasting P) (hcopy : copy.resourceName = name)
    (hPcopy : P copy) (hs : s.Has name P) :
    ∃ copy', Carries name Q copy' (work.step (Store.handle instant false) s).1 ∧
      copy'.resourceName = name ∧ P copy' ∧
      (work.step (Store.handle instant false) s).2.Has name P := by
  obtain ⟨c, hstored, hname, hc⟩ := hs
  have hhas : s.Has name P := ⟨c, hstored, hname, hc⟩
  cases h with
  | done h => exact ⟨copy, .done h, hcopy, hPcopy, hhas⟩
  | read found failed =>
    refine ⟨c, ?_, hname, hc, ?_⟩ <;>
      simp only [Program.step, Store.handle, Bool.false_eq_true, if_false,
        Store.perform_getCluster hstored]
    · exact found c hname
    · exact hhas
  | @replace _ new _ agrees rest =>
    have hnew : new.resourceName = name := agrees.resourceName_eq.trans hcopy
    refine ⟨copy, ?_, hcopy, hPcopy, ?_⟩ <;>
      simp only [Program.step, Store.handle, Bool.false_eq_true, if_false,
        Store.perform_updateCluster hstored hnew]
    · exact rest _
    · exact Store.has_put hnew (hP ((new.agrees_withStatus c.status).trans agrees).symm hPcopy)
  | @publish _ new _ agrees rest =>
    have hnew : new.resourceName = name := agrees.resourceName_eq.trans hcopy
    refine ⟨copy, ?_, hcopy, hPcopy, ?_⟩ <;>
      simp only [Program.step, Store.handle, Bool.false_eq_true, if_false,
        Store.perform_updateStatus hstored hnew]
    · exact rest _
    · exact Store.has_put hname (hP (c.agrees_withStatus new.status).symm hc)
  | other hkind rest =>
    refine ⟨copy, rest _, hcopy, hPcopy, c, ?_, hname, hc⟩
    simpa [Program.step, Store.handle, Store.clusters_perform hkind] using hstored
  | sleep rest => exact ⟨copy, rest, hcopy, hPcopy, hhas⟩

/-- The same after any number of effects. -/
theorem iterate_step (h : Carries name Q copy work) (hP : Lasting P)
    (hcopy : copy.resourceName = name) (hPcopy : P copy) (hs : s.Has name P) (k : ℕ) :
    ∃ copy', Carries name Q copy' ((fun p : Work α × Store =>
        p.1.step (Store.handle instant false) p.2)^[k] (work, s)).1 ∧
      copy'.resourceName = name ∧ P copy' ∧
      ((fun p : Work α × Store => p.1.step (Store.handle instant false) p.2)^[k]
        (work, s)).2.Has name P := by
  induction k generalizing work copy s with
  | zero => exact ⟨copy, h, hcopy, hPcopy, hs⟩
  | succ k ih =>
    obtain ⟨copy', h', hcopy', hPcopy', hs'⟩ := h.step instant hP hcopy hPcopy hs
    rw [Function.iterate_succ_apply]
    exact ih h' hcopy' hPcopy' hs'

/-- The same when the work is finished. -/
theorem run (h : Carries name Q copy work) (hP : Lasting P) (hcopy : copy.resourceName = name)
    (hPcopy : P copy) (hs : s.Has name P) :
    (work.run (Store.handle instant false) s).2.Has name P := by
  induction work generalizing copy s with
  | done a => exact hs
  | ask effect next ih =>
    obtain ⟨copy', h', hcopy', hPcopy', hs'⟩ := h.step instant hP hcopy hPcopy hs
    exact ih _ h' hcopy' hPcopy' hs'

/-- What the copy lacks survives exactly if the cluster is read again before it is
replaced. -/
theorem run_of_stale (h : Carries name Q copy work) (hP : Lasting P)
    (hcopy : copy.resourceName = name) (hPcopy : ¬ P copy) (hs : s.Has name P) :
    (work.run (Store.handle instant false) s).2.Has name fun c =>
      P c ↔ replacesNext instant work s = false := by
  have hlacks : Lasting fun c => ¬ P c := fun a b hab ha hb => ha (hP hab.symm hb)
  induction work generalizing copy s with
  | done a => exact hs.mono fun c hc => iff_of_true hc rfl
  | ask effect next ih =>
    obtain ⟨c, hstored, hname, hc⟩ := hs
    have hhas : s.Has name P := ⟨c, hstored, hname, hc⟩
    cases h with
    | read found failed =>
      -- The copy that is read has what the older one lacks.
      have hfresh := (found c hname).run instant hP hname hc hhas
      simp only [Program.run, Store.handle, Bool.false_eq_true, if_false,
        Store.perform_getCluster hstored]
      exact hfresh.mono fun c hc => iff_of_true hc rfl
    | @replace _ new _ agrees rest =>
      -- The copy that is written lacks it, and so does everything after it.
      have hnew : new.resourceName = name := agrees.resourceName_eq.trans hcopy
      have hwritten : (s.put name .cluster { new with status := c.status }).Has name (¬ P ·) :=
        Store.has_put hnew
          (hlacks ((new.agrees_withStatus c.status).trans agrees).symm hPcopy)
      have hlost := (rest (.ok ())).run instant hlacks hcopy hPcopy hwritten
      simp only [Program.run, Store.handle, Bool.false_eq_true, if_false,
        Store.perform_updateCluster hstored hnew]
      exact hlost.mono fun c hc => iff_of_false hc nofun
    | @publish _ new _ agrees rest =>
      have hnew : new.resourceName = name := agrees.resourceName_eq.trans hcopy
      have hwritten : (s.put name .cluster { c with status := new.status }).Has name P :=
        Store.has_put hname (hP (c.agrees_withStatus new.status).symm hc)
      have hrest := ih (.ok ()) (rest _) hcopy hPcopy hwritten
      simpa [Program.run, Store.handle, replacesNext, Request.replacesCluster,
        Request.readsCluster, Store.perform_updateStatus hstored hnew] using hrest
    | @other _ r _ hkind rest =>
      have hkept : (s.perform instant r).2.Has name P :=
        ⟨c, by rwa [Store.clusters_perform hkind], hname, hc⟩
      have hrest := ih (s.perform instant r).1 (rest _) hcopy hPcopy hkept
      simpa [Program.run, Store.handle, replacesNext, Request.replacesCluster_eq_false hkind,
        Request.readsCluster_eq_false hkind] using hrest
    | sleep rest => exact ih () rest hcopy hPcopy hhas

end Carries

/-! ## Which edits survive -/

namespace Reconciler

variable (r : Reconciler) (instant : Bool) (now : Timestamp) (name : ResourceName) (k : ℕ)
  (e : Edit) (s : Store)

/-- The store when a call is finished in which an edit came after `k` effects. -/
def storeAfterEdit : Store :=
  ((r.edited instant now name k e s).1.run (Store.handle instant false)
    (r.edited instant now name k e s).2).2

/-- Whether the cluster is replaced after the edit before it is read again. -/
def replacesEdited : Bool :=
  replacesNext instant (r.edited instant now name k e s).1 (r.edited instant now name k e s).2

end Reconciler

/-- **An edit is lost exactly if the reconciler replaces the cluster before it reads it
again.**  The edit may come at any point of the call, whatever the progress record says;
one that changes nothing is always carried. -/
theorem carriedBy_iff {r : Reconciler} (hr : r.pacer.Silent) (instant : Bool) (now : Timestamp)
    {s : Store} {name : ResourceName} {c : DbCluster} (hstored : s.clusters name = some c)
    (hname : c.resourceName = name) {e : Edit} (he : e.Foreign) (k : ℕ) :
    ∃ final, (r.storeAfterEdit instant now name k e s).clusters name = some final ∧
      (e.CarriedBy final ↔
        e.CarriedBy c ∨ r.replacesEdited instant now name k e s = false) := by
  have hlasting : Lasting (c.Agrees ·) := fun a b hab ha => ha.trans hab
  have hs : s.Has name (c.Agrees ·) := ⟨c, hstored, hname, .refl c⟩
  obtain ⟨copy, hrest, hcopy, hagrees, ht⟩ :=
    (Reconciler.carries_reconcile hr now name c).iterate_step instant hlasting hname
      (.refl c) hs k
  have hedited : (r.edited instant now name k e s).2.Has name e.CarriedBy := ht.edit e
  have hcarries : Lasting e.CarriedBy := fun a b hab ha => he.carriedBy hab ha
  by_cases hc : e.CarriedBy c
  · obtain ⟨final, hfinal, -, hcarried⟩ :=
      hrest.run instant hcarries hcopy (he.carriedBy hagrees hc) hedited
    exact ⟨final, hfinal, iff_of_true hcarried (.inl hc)⟩
  · have hlacks : ¬ e.CarriedBy copy := fun h => hc (he.carriedBy hagrees.symm h)
    obtain ⟨final, hfinal, -, hcarried⟩ := hrest.run_of_stale instant hcarries hcopy hlacks hedited
    refine ⟨final, hfinal, hcarried.trans ?_⟩
    rw [or_iff_right hc]
    rfl

/-- A cluster of three members whose pass is about to end. -/
def DbCluster.ending : DbCluster :=
  withProgress ⟨⟨"example", "db", .empty⟩, ⟨3, "6.0.5", .standard⟩, .fresh⟩
    (.resumingAt "ReconciliationEnd")

/-- At the end of a pass an annotation survives that comes before the call, and one is lost
that comes when the cluster and its workload have been read. -/
theorem carriedBy_iff_at_end :
    (∃ final, (Reconciler.standard.storeAfterEdit true default ⟨"db", "example"⟩ 0
        (.annotate "team" "a") (Store.empty.insert .cluster .ending)).clusters ⟨"db", "example"⟩ =
          some final ∧ (Edit.annotate "team" "a").CarriedBy final) ∧
    ∃ final, (Reconciler.standard.storeAfterEdit true default ⟨"db", "example"⟩ 2
        (.annotate "team" "a") (Store.empty.insert .cluster .ending)).clusters ⟨"db", "example"⟩ =
          some final ∧ ¬ (Edit.annotate "team" "a").CarriedBy final := by
  have hstored : (Store.empty.insert .cluster .ending).clusters ⟨"db", "example"⟩ =
      some .ending := Collection.put_self Store.empty.clusters DbCluster.ending.resourceName _
  have hforeign : "team" ∉ ownAnnotations := by decide
  constructor
  · obtain ⟨final, hfinal, hcarried⟩ :=
      carriedBy_iff (r := .standard) (e := .annotate "team" "a") Pacer.silent_none true default
        hstored rfl hforeign 0
    exact ⟨final, hfinal, hcarried.2 (.inr (by decide +kernel))⟩
  · obtain ⟨final, hfinal, hcarried⟩ :=
      carriedBy_iff (r := .standard) (e := .annotate "team" "a") Pacer.silent_none true default
        hstored rfl hforeign 2
    have hreplaces : Reconciler.standard.replacesEdited true default ⟨"db", "example"⟩ 2
        (.annotate "team" "a") (Store.empty.insert .cluster .ending) = true := by decide +kernel
    have hlacks : DbCluster.ending.metadata.annotations.get? "team" ≠ some "a" := by
      decide +kernel
    refine ⟨final, hfinal, fun h => ?_⟩
    rcases hcarried.1 h with hbefore | hkept
    · exact hlacks hbefore
    · rw [hreplaces] at hkept
      cases hkept

/-- It is not true that every edit survives the call in which it comes: at the end of a
pass five members are asked for after the cluster was read, and the stored cluster still
asks for three. -/
theorem not_forall_carriedBy : ¬ ∀ {r : Reconciler}, r.pacer.Silent →
    ∀ (instant : Bool) (now : Timestamp) {s : Store} {name : ResourceName} {c : DbCluster},
    s.clusters name = some c → c.resourceName = name → ∀ {e : Edit}, e.Foreign → ∀ k : ℕ,
    ∃ final, (r.storeAfterEdit instant now name k e s).clusters name = some final ∧
      e.CarriedBy final := by
  intro h
  have hstored : (Store.empty.insert .cluster .ending).clusters ⟨"db", "example"⟩ =
      some .ending := Collection.put_self Store.empty.clusters DbCluster.ending.resourceName _
  obtain ⟨final, hfinal, hcarried⟩ := h (r := .standard) Pacer.silent_none true default hstored rfl
    (e := .respec ⟨5, "6.0.5", .standard⟩) trivial 2
  have hmembers : ((Reconciler.standard.storeAfterEdit true default ⟨"db", "example"⟩ 2
      (.respec ⟨5, "6.0.5", .standard⟩) (Store.empty.insert .cluster .ending)).clusters
        ⟨"db", "example"⟩).map (·.spec.members) = some 3 := by decide +kernel
  have hspec : final.spec = ⟨5, "6.0.5", .standard⟩ := hcarried
  rw [hfinal, Option.map_some, hspec] at hmembers
  exact absurd hmembers (by decide)

end Reconciliation
