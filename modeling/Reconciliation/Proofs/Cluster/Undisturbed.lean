/-
# Work that nobody disturbs

With nobody else around and no call that fails, what work does to a store can be written
down as an equation.  Writing an object over whatever is under its name (`Store.overwrite`)
is done for good: written once more, it changes nothing (`Store.overwrite_overwrite`).
-/

import Reconciliation.Proofs.Cluster.Regions
import Reconciliation.Proofs.Cluster.Requests

namespace Reconciliation

/-- Work that is done for each of some things is done for the first and then for the others. -/
theorem Program.run_mapM_cons {Req : Type} {Reply : Req → Type} {σ α β : Type}
    (handle : (r : Req) → σ → Reply r × σ) (f : α → Program Req Reply β) (a : α) (items : List α)
    (s : σ) : ((a :: items).mapM f).run handle s =
      (((f a).run handle s).1 :: ((items.mapM f).run handle ((f a).run handle s).2).1,
        ((items.mapM f).run handle ((f a).run handle s).2).2) := by
  rw [List.mapM_cons, run_bind, run_bind]
  rfl

/-- The context after a status write. -/
def Context.withStatus (ctx : Context) (o : StatusOptions) : Context :=
  { ctx with cluster := { ctx.cluster with status := o.apply ctx.now ctx.cluster.status } }

/-! ## Writing over what is there -/

/-- What is stored already is what an update leaves. -/
theorem Kind.updated_eq_stored {kind : Kind} {stored object : kind.Object}
    (h : kind.bare stored = kind.bare object) : kind.updated stored object = stored := by
  cases kind with
  | cluster =>
    obtain ⟨metadata, spec, status⟩ := stored
    obtain ⟨rfl, rfl, -⟩ := DbCluster.mk.inj h
    rfl
  | workload =>
    obtain ⟨name, replicas, version, tlsSecret, updateStrategy, status⟩ := stored
    obtain ⟨rfl, rfl, rfl, rfl, rfl, -⟩ := Workload.mk.inj h
    rfl
  | service | automationConfig | secret | configMap => exact h.symm

namespace Store

variable {instant : Bool} {s : Store} {kind : Kind} {name : ResourceName} {object : kind.Object}

/-- Putting in place what is there changes nothing. -/
theorem put_of_get? (h : s.get? kind name = some object) : s.put name kind object = s := by
  refine ext_get? fun other read => ?_
  by_cases hsame : other = kind ∧ read = name
  · obtain ⟨rfl, rfl⟩ := hsame
    rw [get?_put_self, h]
  · exact s.get?_put_of_ne_or kind object (Decidable.not_and_iff_or_not.1 hsame)

/-- A workload that has caught up has nothing to catch up with. -/
theorem settle_settle (s : Store) (name : ResourceName) :
    (s.settle name).settle name = s.settle name := by
  cases hworkload : s.workloads name with
  | none =>
    have hsettle : s.settle name = s := by rw [settle, hworkload]
    rw [hsettle, hsettle]
  | some w =>
    have hsettled : (s.settle name).workloads name =
        some { w with status := ⟨w.replicas, s.goalVersion name⟩ } := by
      rw [workloads_settle_self, hworkload]
      rfl
    have hget : (s.settle name).get? .workload name =
        some { w with status := ⟨w.replicas, (s.settle name).goalVersion name⟩ } := by
      rw [goalVersion_settle]
      exact hsettled
    rw [settle, hsettled]
    exact put_of_get? hget

theorem rollOut_rollOut (instant : Bool) (kind : Kind) (name : ResourceName) (s : Store) :
    (s.rollOut instant kind name).rollOut instant kind name = s.rollOut instant kind name := by
  unfold rollOut
  split
  · exact s.settle_settle name
  · rfl

/-- The store after an object was written over whatever is under its name. -/
def overwrite (s : Store) (instant : Bool) (kind : Kind) (object : kind.Object) : Store :=
  (s.put (kind.nameOf object) kind
    ((s.get? kind (kind.nameOf object)).elim (kind.initial object)
      fun stored => kind.updated stored object)).rollOut instant kind (kind.nameOf object)

/-- An update writes over what is there. -/
theorem perform_update_eq_overwrite (instant : Bool) (h : s.get? kind (kind.nameOf object) ≠ none) :
    s.perform instant (.update kind object) = (.ok (), s.overwrite instant kind object) := by
  obtain ⟨stored, hstored⟩ := Option.ne_none_iff_exists'.1 h
  simp only [perform, overwrite, hstored, Option.elim_some]

/-- An object that was written is there, its status apart. -/
theorem map_bare_overwrite (s : Store) (instant : Bool) (kind : Kind) (object : kind.Object) :
    ((s.overwrite instant kind object).get? kind (kind.nameOf object)).map kind.bare =
      some (kind.bare object) := by
  rw [overwrite, map_bare_rollOut, get?_put_self]
  cases s.get? kind (kind.nameOf object) <;> simp

/-- **What is written over itself stays.** -/
theorem overwrite_of_stored {stored : kind.Object}
    (h : s.get? kind (kind.nameOf object) = some stored)
    (hbare : kind.bare stored = kind.bare object) :
    s.overwrite instant kind object = s.rollOut instant kind (kind.nameOf object) := by
  rw [overwrite, h, Option.elim_some, Kind.updated_eq_stored hbare, put_of_get? h]

/-- **Writing an object twice is writing it once.** -/
theorem overwrite_overwrite (s : Store) (instant : Bool) (kind : Kind) (object : kind.Object) :
    (s.overwrite instant kind object).overwrite instant kind object =
      s.overwrite instant kind object := by
  obtain ⟨stored, hstored, hbare⟩ :=
    Option.map_eq_some_iff.1 (s.map_bare_overwrite instant kind object)
  rw [overwrite_of_stored hstored hbare]
  exact rollOut_rollOut instant kind _ _

/-! ## Runs -/

section Runs

variable (instant : Bool) (s : Store)

/-- A call reaches the store. -/
theorem handle_call (r : Request) : handle instant false (.call r) s = s.perform instant r := rfl

theorem handle_get (kind : Kind) (name : ResourceName) :
    handle instant false (.call (.get kind name)) s =
      (Scene.Leads.reply kind name (s.get? kind name), s) :=
  (handle_call instant s _).trans (Scene.Leads.perform_get kind name s)

theorem run_getResource (kind : Kind) (name : ResourceName) :
    (getResource kind name).run.run (handle instant false) s =
      (Scene.Leads.reply kind name (s.get? kind name), s) :=
  handle_get instant s kind name

theorem run_createResource (kind : Kind) (object : kind.Object) :
    (createResource kind object).run.run (handle instant false) s =
      s.perform instant (.create kind object) := rfl

theorem run_updateResource (kind : Kind) (object : kind.Object) :
    (updateResource kind object).run.run (handle instant false) s =
      s.perform instant (.update kind object) := rfl

theorem run_findResource (kind : Kind) (name : ResourceName) :
    (findResource kind name).run.run (handle instant false) s = (.ok (s.get? kind name), s) := by
  simp only [findResource, ExceptT.run_mk, callStore, Program.run_bind, Program.run_request,
    handle_get]
  cases s.get? kind name <;> rfl

theorem run_createOrUpdate (kind : Kind) (object : kind.Object) :
    (createOrUpdate kind object).run.run (handle instant false) s =
      (.ok (), s.overwrite instant kind object) := by
  simp only [createOrUpdate, ExceptT.run_mk, callStore, Program.run_bind, Program.run_request,
    handle, Bool.false_eq_true, if_false, perform, overwrite]
  cases hstored : s.get? kind (kind.nameOf object) with
  | none =>
    simp only [insert, Kind.nameOf_initial]
    rfl
  | some stored =>
    simp only [StoreError.isAlreadyExists, if_true, Program.run_request, handle,
      Bool.false_eq_true, if_false, perform, hstored]
    rfl

/-- Looking around changes nothing, and finds the same whether rollouts are instant or not. -/
theorem run_of_lookups {α : Type} {Q : α → Prop} {work : Work α}
    (h : Only (fun r => r.writes? = none) Q work) (other : Bool) :
    work.run (handle instant false) s = ((work.run (handle other false) s).1, s) := by
  induction h with
  | done => rfl
  | sleep _ ih => exact ih
  | @call r next hr _ ih =>
    cases r with
    | get kind name =>
      rw [Program.run, Program.run, handle_get, handle_get]
      exact ih _
    | create | update | updateStatus => cases hr

variable {instant s}

/-- The status of a cluster that is stored as it was observed can be written. -/
theorem run_updateStatus (instant : Bool) {ctx : Context}
    (hs : s.clusters ctx.cluster.resourceName = some ctx.cluster) (o : StatusOptions) :
    (updateStatus ctx o).run (handle instant false) s = ((.ok o.outcome, ctx.withStatus o),
      s.put ctx.cluster.resourceName .cluster (ctx.withStatus o).cluster) := by
  have hcall : handle instant false (.call (.updateStatus (ctx.withStatus o).cluster)) s =
      (.ok (), s.put ctx.cluster.resourceName .cluster (ctx.withStatus o).cluster) :=
    (handle_call ..).trans (perform_updateStatus hs rfl)
  unfold Context.withStatus at hcall ⊢
  simp only [updateStatus, callStore, Program.run_bind, Program.run_request, hcall]
  rfl

theorem run_publishStatus (instant : Bool) {ctx : Context}
    (hs : s.clusters ctx.cluster.resourceName = some ctx.cluster) (o : StatusOptions) :
    (publishStatus ctx o).run (handle instant false) s = ((.ok o.outcome, ctx.withStatus o),
      s.put ctx.cluster.resourceName .cluster (ctx.withStatus o).cluster) := by
  rw [publishStatus, Program.run_bind, run_updateStatus instant hs]
  rfl

theorem run_failStep (instant : Bool) {ctx : Context}
    (hs : s.clusters ctx.cluster.resourceName = some ctx.cluster) (message : String) :
    ∃ left, (failStep ctx message).run (handle instant false) s =
      ((.error (.other message), left), s.put ctx.cluster.resourceName .cluster (ctx.withStatus
        ((StatusOptions.unchanged.withMessage .error message).withFailed)).cluster) := by
  rw [failStep, failWithStatus, Program.run_bind, Program.run_bind, run_updateStatus instant hs]
  exact ⟨_, rfl⟩

section Bind

variable {α β : Type} {work : StoreWork α} {t : Store}

/-- One piece of work is done after another. -/
theorem run_bind_ok {a : α} (h : work.run.run (handle instant false) s = (.ok a, t))
    (next : α → StoreWork β) : (work >>= next).run.run (handle instant false) s =
      (next a).run.run (handle instant false) t := by
  rw [ExceptT.run_bind, Program.run_bind, h]

/-- Work that fails is not gone on with. -/
theorem run_bind_error {error : StoreError}
    (h : work.run.run (handle instant false) s = (.error error, t)) (next : α → StoreWork β) :
    (work >>= next).run.run (handle instant false) s = (.error error, t) := by
  rw [ExceptT.run_bind, Program.run_bind, h]
  rfl

end Bind

end Runs

/-! ## Work that leaves the clusters alone -/

variable {c : DbCluster}

theorem put_cluster_comm (hkind : kind ≠ .cluster) (s : Store) (name other : ResourceName)
    (object : kind.Object) : (s.put name .cluster c).put other kind object =
      (s.put other kind object).put name .cluster c := by
  cases kind <;> first | rfl | exact absurd rfl hkind

theorem rollOut_put_cluster (instant : Bool) (s : Store) (name other : ResourceName) :
    (s.put name .cluster c).rollOut instant kind other =
      (s.rollOut instant kind other).put name .cluster c := by
  unfold rollOut settle
  have hworkloads : (s.put name .cluster c).workloads = s.workloads := rfl
  rw [hworkloads]
  split
  · cases s.workloads other <;> rfl
  · rfl

/-- A call about other kinds does not see which cluster is under a name. -/
theorem perform_put_cluster {r : Request} (hr : r.kind ≠ .cluster) (instant : Bool) (s : Store)
    (name : ResourceName) (c : DbCluster) : (s.put name .cluster c).perform instant r =
      ((s.perform instant r).1, (s.perform instant r).2.put name .cluster c) := by
  cases r with
  | get kind read =>
    have hget : (s.put name .cluster c).get? kind = s.get? kind :=
      get?_put_of_ne (Ne.symm hr) s name c
    rw [Scene.Leads.perform_get, Scene.Leads.perform_get, hget]
  | create kind object =>
    have hkind : kind ≠ .cluster := hr
    simp only [perform, get?_put_of_ne hkind.symm]
    cases s.get? kind (kind.nameOf object) with
    | none => simp only [insert, put_cluster_comm hkind, rollOut_put_cluster]
    | some stored => rfl
  | update kind object =>
    have hkind : kind ≠ .cluster := hr
    simp only [perform, get?_put_of_ne hkind.symm]
    cases s.get? kind (kind.nameOf object) with
    | none => rfl
    | some stored => simp only [put_cluster_comm hkind, rollOut_put_cluster]
  | updateStatus => exact absurd rfl hr

/-- **Work that makes no call about clusters goes the same way whatever cluster is under a
name**, and leaves it there. -/
theorem run_put_cluster {α : Type} {work : Work α} (h : Aloof work) (instant : Bool) (s : Store)
    (name : ResourceName) (c : DbCluster) :
    work.run (handle instant false) (s.put name .cluster c) =
      ((work.run (handle instant false) s).1,
        (work.run (handle instant false) s).2.put name .cluster c) := by
  induction h generalizing s with
  | done => rfl
  | sleep _ ih => exact ih s
  | @call r next hr _ ih =>
    rw [Program.run, Program.run, handle_call, handle_call, perform_put_cluster hr]
    exact ih _ _

/-- It leaves all clusters as they are. -/
theorem clusters_run {α : Type} {work : Work α} (h : Aloof work) (instant : Bool) (s : Store) :
    (work.run (handle instant false) s).2.clusters = s.clusters := by
  induction h generalizing s with
  | done => rfl
  | sleep _ ih => exact ih s
  | call hr _ ih => exact (ih _ _).trans (clusters_perform hr s)

end Store
end Reconciliation
