/-
# What an action leaves of what was observed

A tick looks around once, and every action keeps what it has seen in step with what it
writes: whatever calls fail, the context holds the cluster as it is stored, and the status
as it was in the beginning.  If the action succeeds, the context also holds the workload of
the store, its status apart (`FaultyStore.Mirrors`, proved by cases on the stage).

The one exception is a look-up that fails as if no workload was there
(`FaultyStore.Misled`): the action then goes on without one
(`not_forall_workload_observed`).  Otherwise all guards are decided as they would be by
looking around again, but for the status that scaling is counted from
(`snapshot_coherent`).
-/

import Reconciliation.Proofs.Cluster.Faults
import Reconciliation.Proofs.Cluster.Refusals
import Reconciliation.Proofs.Cluster.StoreLaws

namespace Reconciliation

/-- A call that writes no workload leaves all of them but for their status. -/
theorem Store.map_bare_perform {r : Request} (hr : r.writes? ≠ some .workload) (instant : Bool)
    (s : Store) (name : ResourceName) :
    ((s.perform instant r).2.workloads name).map Kind.workload.bare =
      (s.workloads name).map Kind.workload.bare := by
  have hkind : Kind.workload ≠ r.kind → ((s.perform instant r).2.workloads name).map
      Kind.workload.bare = (s.workloads name).map Kind.workload.bare := by
    intro hkind
    obtain hsame | ⟨-, -, -, -, hbare⟩ : (s.perform instant r).2.get? .workload name =
        s.get? .workload name ∨ _ := get?_perform_or_rollOut instant s r (.inl hkind)
    · exact congrArg (Option.map Kind.workload.bare) hsame
    · exact hbare
  cases r with
  | get kind read =>
    rw [Scene.Leads.perform_get]
  | create kind object => exact hkind fun h => hr (congrArg some h.symm)
  | update kind object => exact hkind fun h => hr (congrArg some h.symm)
  | updateStatus cluster => exact hkind nofun

/-- Two stages write workloads. -/
theorem Stage.May.writes?_ne_workload {stage : Stage} {c : DbCluster} {r : Request}
    (h : stage.May c r) (hdeploys : stage ≠ .deployWorkload)
    (hresets : stage ≠ .resetUpdateStrategy) : r.writes? ≠ some .workload := by
  rintro hr
  cases r with
  | get | updateStatus => cases hr
  | create kind w =>
    obtain rfl := Option.some.inj hr
    exact hdeploys h.1
  | update kind w =>
    obtain rfl := Option.some.inj hr
    exact h.elim (fun h => hdeploys h.1) hresets

namespace FaultyStore

/-! ## What is kept in step -/

/-- The store has the cluster under the name. -/
structure Has (b : FaultyStore) (name : ResourceName) (c : DbCluster) : Prop where
  wellNamed : b.store.WellNamed
  stored : b.store.clusters name = some c

/-- A look-up of the workload has failed as if there was none. -/
def Misled (b : FaultyStore) (name : ResourceName) : Prop :=
  ∃ error, (.get .workload name, some error) ∈ b.calls ∧ error.isNotFound = true

/-- What was seen of the workload is in the store, its status apart, or nothing was seen
because a look-up was misled. -/
def Sees (b : FaultyStore) (name : ResourceName) (seen : Option Workload) : Prop :=
  seen.map Kind.workload.bare = (b.store.workloads name).map Kind.workload.bare ∨
    seen = none ∧ b.Misled name

/-- The result of an action and the context as it leaves it are in step with the store:
`status` is the status that was observed. -/
structure Mirrors (b : FaultyStore) (name : ResourceName) (status : ClusterStatus)
    (x : Except Failure Outcome × Context) : Prop where
  has : b.Has name x.2.cluster
  observedStatus : x.2.observedStatus = status
  observedWorkload : ∀ outcome, x.1 = .ok outcome → b.Sees name x.2.observedWorkload

variable {b : FaultyStore} {instant : Bool} {name : ResourceName} {c : DbCluster}
  {seen : Option Workload} {r : Request}

theorem Has.resourceName_eq (h : b.Has name c) : c.resourceName = name :=
  h.wellNamed .cluster name c h.stored

theorem Has.failed (h : b.Has name c) (r : Request) (error : StoreError) :
    (b.failed r error).Has name c :=
  ⟨h.wellNamed, h.stored⟩

/-- A call about other kinds leaves the cluster alone. -/
theorem Has.reached (h : b.Has name c) (hr : r.kind ≠ .cluster) :
    (b.reached instant r).Has name c :=
  ⟨h.wellNamed.perform instant r,
    (congrFun (Store.clusters_perform hr b.store) name).trans h.stored⟩

theorem Has.reached_get (h : b.Has name c) (instant : Bool) (kind : Kind)
    (read : ResourceName) :
    (b.reached instant (.get kind read)).Has name c := by
  obtain ⟨hwellNamed, hstored⟩ := h
  rw [← store_reached_get b instant kind read] at hwellNamed hstored
  exact ⟨hwellNamed, hstored⟩

theorem Sees.failed (h : b.Sees name seen) (r : Request) (error : StoreError) :
    (b.failed r error).Sees name seen :=
  h.imp_right fun ⟨hseen, error, hcall, herror⟩ => ⟨hseen, error, .tail _ hcall, herror⟩

/-- A call that writes no workload leaves what was seen of one. -/
theorem Sees.reached (h : b.Sees name seen) (hr : r.writes? ≠ some .workload) :
    (b.reached instant r).Sees name seen :=
  h.imp (fun hseen => hseen.trans (Store.map_bare_perform hr instant b.store name).symm)
    fun ⟨hseen, error, hcall, herror⟩ => ⟨hseen, error, .tail _ hcall, herror⟩

theorem sees_failed {error : StoreError} (h : error.isNotFound = true) :
    (b.failed (.get .workload name) error).Sees name none :=
  .inr ⟨rfl, error, .head _, h⟩

namespace Has

variable {α : Type}

/-- Work that makes no call about clusters leaves the cluster alone. -/
theorem ends_of_aloof (h : b.Has name c) {work : Work α} (hwork : Aloof work) :
    b.Ends instant work fun _ b' => b'.Has name c :=
  .of_aloof hwork h fun hr h => ⟨h.reached hr, fun error => h.failed _ error⟩

end Has

/-- Work that writes no workload leaves what was seen of one. -/
theorem Sees.ends_of_only (h : b.Sees name seen) (instant : Bool) {α : Type} {Q : α → Prop}
    {work : Work α} (hwork : Only (fun r => r.writes? ≠ some .workload) Q work) :
    b.Ends instant work fun _ b' => b'.Sees name seen :=
  (Ends.of_only hwork h fun hr h => ⟨h.reached hr, fun error => h.failed _ error⟩).mono
    fun _ _ h => h.2

/-! ## Writes of the cluster -/

variable {ctx : Context}

/-- A write of the metadata makes the stored cluster the one of the context. -/
theorem Has.reached_update (h : b.Has name c) (instant : Bool) {new : DbCluster}
    (hname : new.resourceName = c.resourceName) (hspec : new.spec = c.spec) :
    (b.store.perform instant (.update .cluster new)).1 = .ok () ∧
      (b.reached instant (.update .cluster new)).Has name { c with metadata := new.metadata } := by
  have hperform : b.store.perform instant (.update .cluster new) =
      (.ok (), b.store.put name .cluster { new with status := c.status }) :=
    Store.perform_updateCluster h.stored (hname.trans h.resourceName_eq)
  have hnew : ({ new with status := c.status } : DbCluster) =
      { c with metadata := new.metadata } := by
    rw [hspec]
  rw [hnew] at hperform
  have hwellNamed := h.wellNamed.perform instant (.update .cluster new)
  rw [FaultyStore.reached, hperform]
  rw [hperform] at hwellNamed
  exact ⟨rfl, hwellNamed, Collection.put_self _ _ _⟩

/-- A write of the status does as well. -/
theorem Has.reached_updateStatus (h : b.Has name c) (instant : Bool) (status : ClusterStatus) :
    (b.store.perform instant (.updateStatus { c with status })).1 = .ok () ∧
      (b.reached instant (.updateStatus { c with status })).Has name { c with status } := by
  have hperform : b.store.perform instant (.updateStatus { c with status }) =
      (.ok (), b.store.put name .cluster { c with status }) :=
    Store.perform_updateStatus h.stored h.resourceName_eq
  have hwellNamed := h.wellNamed.perform instant (.updateStatus { c with status })
  rw [FaultyStore.reached, hperform]
  rw [hperform] at hwellNamed
  exact ⟨rfl, hwellNamed, Collection.put_self _ _ _⟩

/-- A status write is made in the store and in the context, or in neither. -/
theorem Has.ends_updateStatus (h : b.Has name ctx.cluster) (o : StatusOptions) :
    b.Ends instant (updateStatus ctx o) fun x b' => b'.Has name x.2.cluster ∧
      (∃ status, x.2 = { ctx with cluster := { ctx.cluster with status } }) ∧
      ∀ seen, b.Sees name seen → b'.Sees name seen := by
  refine .bind (.call (r := .updateStatus _) ?_ fun error => ?_)
  · obtain ⟨hreply, hb'⟩ := h.reached_updateStatus instant
      (o.apply ctx.now ctx.cluster.status)
    rw [hreply]
    exact ⟨hb', ⟨_, rfl⟩, fun seen hseen => hseen.reached (by nofun)⟩
  · exact ⟨h.failed _ error, ⟨ctx.cluster.status, rfl⟩, fun seen hseen => hseen.failed _ error⟩

/-- Remembering the applied spec is done in the store and in the context, or in neither. -/
theorem Has.ends_recordAppliedSpec (h : b.Has name ctx.cluster) :
    b.Ends instant (recordAppliedSpec ctx) fun ctx' b' => b'.Has name ctx'.cluster ∧
      (∃ metadata, ctx' = { ctx with cluster := { ctx.cluster with metadata } }) ∧
      ∀ seen, b.Sees name seen → b'.Sees name seen := by
  refine .bind (.call (r := .update .cluster _) ?_ fun error => ?_)
  · obtain ⟨hreply, hb'⟩ := h.reached_update instant
      (show (withAppliedSpec ctx.cluster).resourceName = _ from rfl) rfl
    rw [hreply]
    exact ⟨hb', ⟨_, rfl⟩, fun seen hseen => hseen.reached (by nofun)⟩
  · exact ⟨h.failed _ error, ⟨ctx.cluster.metadata, rfl⟩, fun seen hseen => hseen.failed _ error⟩

/-! ## Ends of actions -/

theorem Has.mirrors_publishStatus (h : b.Has name ctx.cluster)
    (hseen : b.Sees name ctx.observedWorkload) (o : StatusOptions) :
    b.Ends instant (publishStatus ctx o) fun x b' => b'.Mirrors name ctx.observedStatus x := by
  refine .bind ((h.ends_updateStatus o).mono ?_)
  rintro ⟨result, ctx'⟩ b' ⟨hb', ⟨status, rfl⟩, hkept⟩
  exact ⟨hb', rfl, fun _ _ => hkept _ hseen⟩

theorem Has.mirrors_waitStep (h : b.Has name ctx.cluster)
    (hseen : b.Sees name ctx.observedWorkload) (reason : String) :
    b.Ends instant (waitStep ctx reason) fun x b' => b'.Mirrors name ctx.observedStatus x :=
  h.mirrors_publishStatus hseen _

/-- An action that fails need not have seen the workload. -/
theorem Has.mirrors_failStep (h : b.Has name ctx.cluster) (message : String) :
    b.Ends instant (failStep ctx message) fun x b' => b'.Mirrors name ctx.observedStatus x := by
  refine .bind (.bind ((h.ends_updateStatus _).mono ?_))
  rintro ⟨result, ctx'⟩ b' ⟨hb', ⟨status, rfl⟩, -⟩
  exact ⟨hb', rfl, nofun⟩

/-- An action that ends without a write. -/
theorem Has.mirrors (h : b.Has name ctx.cluster) (hseen : b.Sees name ctx.observedWorkload)
    (outcome : Outcome) : b.Mirrors name ctx.observedStatus (.ok outcome, ctx) :=
  ⟨h, rfl, fun _ _ => hseen⟩

/-- An action that fails in the end. -/
theorem Has.mirrors_error (h : b.Has name ctx.cluster) (failure : Failure) :
    b.Mirrors name ctx.observedStatus (.error failure, ctx) :=
  ⟨h, rfl, nofun⟩

/-! ## Actions -/

/-- What is read back of the workload is what is stored. -/
theorem Has.ends_ensureWorkload (h : b.Has name c) :
    b.Ends instant (ensureWorkload c).run fun x b' => b'.Has name c ∧
      ∀ w, x = .ok w → b'.store.workloads name = some w := by
  refine .run_bind ((h.ends_of_aloof (.createOrUpdate (by nofun) _)).mono fun x b' hb' => ?_)
  cases x with
  | error error => exact ⟨hb', nofun⟩
  | ok =>
    rw [h.resourceName_eq]
    refine .getResource (fun w hw => ⟨hb'.reached (by nofun), ?_⟩)
      (fun _ => ⟨hb'.reached (by nofun), nofun⟩) fun error => ⟨hb'.failed _ error, nofun⟩
    rintro w' ⟨⟩
    rw [store_reached_get]
    exact hw

/-- The workload is looked for after the automation config is published. -/
theorem Has.ends_publishAutomationConfig (h : b.Has name c) :
    b.Ends instant (publishAutomationConfig c).run fun x b' => b'.Has name c ∧
      ∀ config seen, x = .ok (config, seen) → b'.Sees name seen := by
  refine .run_bind ((h.ends_of_aloof (.ensureAutomationConfig c)).mono fun x b' hb' => ?_)
  cases x with
  | error error => exact ⟨hb', nofun⟩
  | ok config =>
    rw [h.resourceName_eq]
    refine .run_bind (.findResource ?_ (fun error herror => ?_) fun error => ?_)
    · refine ⟨hb'.reached (by nofun), ?_⟩
      rintro _ _ ⟨⟩
      exact Sees.reached (.inl rfl) (by nofun)
    · refine ⟨hb'.failed _ error, ?_⟩
      rintro _ _ ⟨⟩
      exact sees_failed herror
    · exact ⟨hb'.failed _ error, nofun⟩

/-- The workload whose strategy is reset is the one that is stored. -/
theorem Has.ends_resetStrategy (h : b.Has name c) :
    b.Ends instant (resetStrategy c).run fun x b' => b'.Has name c ∧
      ∀ w, x = .ok w → b'.Sees name (some w) := by
  unfold resetStrategy
  rw [h.resourceName_eq]
  refine .run_bind (.getResource (fun w hw => ?_) (fun _ => ⟨h.reached (by nofun), nofun⟩)
    fun error => ⟨h.failed _ error, nofun⟩)
  have hb' : (b.reached instant (.get .workload name)).Has name c := h.reached (by nofun)
  have hfound : (b.reached instant (.get .workload name)).store.get? .workload name = some w := by
    rwa [store_reached_get]
  dsimp only
  split
  · refine ⟨hb', ?_⟩
    rintro _ ⟨⟩
    exact .inl (congrArg (Option.map Kind.workload.bare) hfound.symm)
  · obtain rfl : w.name = name := h.wellNamed .workload name w hw
    refine .run_bind (.call (r := .update .workload _) ?_ fun error => ⟨hb'.failed _ error, nofun⟩)
    have hreply : ((b.reached instant (.get .workload w.name)).store.perform instant
        (.update .workload { w with updateStrategy := .rollingUpdate })).1 = .ok () := by
      simp only [Store.perform, Kind.nameOf, hfound]
    rw [hreply]
    refine ⟨hb'.reached (fun hkind => by cases hkind), ?_⟩
    rintro _ ⟨⟩
    have hwrites : Request.Writes (.update .workload { w with updateStrategy := .rollingUpdate })
      .workload { w with updateStrategy := .rollingUpdate } := .inr rfl
    have hwritten := Store.map_bare_of_writes hwrites
      (Prod.ext (congrArg (Except.map fun _ => ()) hreply) rfl)
    exact .inl hwritten.symm

/-- **An action keeps what was observed in step with the store**, whatever calls fail. -/
theorem Has.mirrors_action (h : b.Has name ctx.cluster) (instant : Bool)
    (hseen : b.Sees name ctx.observedWorkload) (stage : Stage) :
    b.Ends instant (stage.action ctx) fun x b' => b'.Mirrors name ctx.observedStatus x := by
  cases stage with
  | startFresh => exact h.mirrors hseen _
  | validateSpec =>
    show b.Ends instant (validateSpecStep ctx) _
    unfold validateSpecStep
    split
    · exact h.mirrors_failStep _
    · exact h.mirrors hseen _
  | createService =>
    refine .bind (.call (r := .create .service _) ?_ fun error => ?_)
    · have hb' : (b.reached instant (.create .service (wantedService ctx.cluster))).Has name
          ctx.cluster := h.reached (by nofun)
      have hseen' : (b.reached instant (.create .service (wantedService ctx.cluster))).Sees name
          ctx.observedWorkload := hseen.reached (by nofun)
      split
      · exact hb'.mirrors hseen' _
      · split
        · exact hb'.mirrors hseen' _
        · exact hb'.mirrors_failStep _
    · dsimp only
      split
      · exact (h.failed _ error).mirrors (hseen.failed _ error) _
      · exact (h.failed _ error).mirrors_failStep _
  | tlsValidation =>
    have hvalid := (hseen.ends_of_only instant (.tlsObjectsValid
      (fun _ _ => by nofun) (Q := fun _ => True) (fun _ => trivial) ctx.cluster))
    refine .bind ((Ends.and (h.ends_of_aloof (.tlsObjectsValid _)) hvalid).mono ?_)
    rintro (error | (_ | _)) b' ⟨hb', hseen'⟩
    · exact hb'.mirrors_failStep _
    · exact hb'.mirrors_waitStep hseen' _
    · exact hb'.mirrors hseen' _
  | createTlsResources =>
    have hpem := hseen.ends_of_only instant
      ((Only.ensureOperatorSecret (c := ctx.cluster) (Q := fun _ => True) fun _ => trivial).widen
        fun r hr => Stage.May.writes?_ne_workload hr nofun nofun)
    refine .bind ((Ends.and (h.ends_of_aloof (.ensureOperatorSecret _)) hpem).mono ?_)
    rintro (error | _) b' ⟨hb', hseen'⟩
    · exact hb'.mirrors_failStep _
    · exact hb'.mirrors hseen' _
  | deployAutomationConfig =>
    refine .bind (h.ends_publishAutomationConfig.mono ?_)
    rintro (error | ⟨config, seen⟩) b' ⟨hb', hseen'⟩
    · exact hb'.mirrors_failStep _
    · have hseen' := hseen' config seen rfl
      dsimp only
      split
      · exact ⟨hb', rfl, fun _ _ => hseen'⟩
      · have hhas : b'.Has name { ctx with observedWorkload := seen }.cluster := hb'
        exact hhas.mirrors_waitStep hseen' _
  | deployWorkload =>
    refine .bind (h.ends_ensureWorkload.mono ?_)
    rintro (error | w) b' ⟨hb', hstored⟩
    · exact hb'.mirrors_failStep _
    · have hseen' : b'.Sees name (some w) := .inl (by rw [hstored w rfl])
      dsimp only
      split
      · exact ⟨hb', rfl, fun _ _ => hseen'⟩
      · have hhas : b'.Has name { ctx with observedWorkload := some w }.cluster := hb'
        exact hhas.mirrors_waitStep hseen' _
  | resetUpdateStrategy =>
    refine .bind (h.ends_resetStrategy.mono ?_)
    rintro (error | w) b' ⟨hb', hseen'⟩
    · exact hb'.mirrors_failStep _
    · exact ⟨hb', rfl, fun _ _ => hseen' w rfl⟩
  | updateStatus =>
    show b.Ends instant (updateStatusStep ctx) _
    unfold updateStatusStep
    split
    · exact h.mirrors_publishStatus hseen _
    · refine .bind ((h.ends_updateStatus _).mono ?_)
      rintro ⟨error | outcome, ctx'⟩ b' ⟨hb', ⟨status, rfl⟩, hkept⟩
      · exact hb'.mirrors_error _
      · refine .bind (hb'.ends_recordAppliedSpec.mono ?_)
        rintro ctx'' b'' ⟨hb'', ⟨metadata, rfl⟩, hkept'⟩
        exact ⟨hb'', rfl, fun _ _ => hkept' _ (hkept _ hseen)⟩
  | reconciliationEnd =>
    refine .bind (.call (r := .update .cluster _) ?_ fun error => ?_)
    · obtain ⟨hreply, hb'⟩ := h.reached_update instant
        (show (withFreshProgress ctx.cluster).resourceName = _ from rfl) rfl
      rw [hreply]
      exact ⟨hb', rfl, fun _ _ => hseen.reached (by nofun)⟩
    · exact (h.failed _ error).mirrors_error _

/-- A check only looks around. -/
theorem ends_isComplete (b : FaultyStore) (instant : Bool) (stage : Stage) (ctx : Context) :
    b.Ends instant (stage.isComplete ctx) fun _ b' => b'.store = b.store := by
  have hreads : Only (fun r => r.writes? = none) (fun _ => True) (stage.isComplete ctx) :=
    .isComplete (fun _ _ => rfl) stage ctx
  suffices hends : b.Ends instant (stage.isComplete ctx) fun _ b' => True ∧ b'.store = b.store from
    hends.mono fun _ _ h => h.2
  refine .of_only hreads rfl fun {r b'} hr hb' => ⟨?_, fun _ => hb'⟩
  cases r with
  | get kind name => rwa [store_reached_get]
  | create | update | updateStatus => cases hr

/-- What is observed of a cluster that was read is what is stored. -/
theorem Has.ends_observe (h : b.Has name c) (instant : Bool) (d : Duration) (now : Timestamp) :
    b.Ends instant (Context.observe c d now).run fun x b' => ∀ ctx, x = .ok ctx →
      b'.Has name ctx.cluster ∧ ctx.observedStatus = c.status ∧
        b'.Sees name ctx.observedWorkload := by
  unfold Context.observe
  rw [h.resourceName_eq]
  refine .run_bind (.findResource ?_ (fun error herror => ?_) fun error => ?_)
  · rintro _ ⟨⟩
    exact ⟨h.reached (by nofun), rfl, Sees.reached (.inl rfl) (by nofun)⟩
  · rintro _ ⟨⟩
    exact ⟨h.failed _ error, rfl, sees_failed herror⟩
  · rintro _ ⟨⟩

theorem ends_getCluster (hb : b.store.WellNamed) (name : ResourceName) :
    b.Ends instant (getResource .cluster name).run fun x b' => ∀ c, x = .ok c →
      b'.Has name c ∧ b.store.clusters name = some c := by
  refine .getResource (fun found hfound => ?_) (fun _ => ?_) fun error => ?_
  · rintro _ ⟨⟩
    have hhas : b.Has name found := ⟨hb, hfound⟩
    exact ⟨hhas.reached_get _ _ _, hfound⟩
  · rintro _ ⟨⟩
  · rintro _ ⟨⟩

end FaultyStore

/-- The guards look at the cluster, at the observed status and at whether there is a
workload. -/
theorem Arrow.guard_congr {ctx ctx' : Context} (hcluster : ctx'.cluster = ctx.cluster)
    (hstatus : ctx'.observedStatus = ctx.observedStatus)
    (hworkload : ctx'.observedWorkload.isNone = ctx.observedWorkload.isNone) :
    ∀ arrow ∈ workflowArrows, arrow.guard ctx' = arrow.guard ctx := by
  have htls : ctx'.tlsEnabled = ctx.tlsEnabled := by
    rw [Context.tlsEnabled, hcluster, Context.tlsEnabled]
  have hneeds : ctx'.needsConfigFirst = ctx.needsConfigFirst := by
    rw [Context.needsConfigFirst, hcluster, hstatus, hworkload, Context.needsConfigFirst]
  have hchanging : ctx'.isChangingVersion = ctx.isChangingVersion := by
    rw [Context.isChangingVersion, hcluster, Context.isChangingVersion]
  have hscaling : ctx'.isStillScaling = ctx.isStillScaling := by
    rw [Context.isStillScaling, hcluster, hstatus, Context.isStillScaling]
  simp [workflowArrows, unguarded, Context.deployWorkloadFirst, htls, hneeds, hchanging, hscaling]

/-- **What was observed stays in step with the store**, whatever calls fail: a tick has read
and observed a cluster and run the action of a stage.  Unless a look-up of the workload was
misled, an action that succeeds leaves a context on which all guards are decided as on one
that is observed after it, but for the status that scaling is counted from.  The store is as
any operations leave it (`Store.wellNamed_after`). -/
theorem snapshot_coherent {instant : Bool} {s : Store} (hs : s.WellNamed)
    {failures : List (Option StoreError)} {name : ResourceName} {c : DbCluster} {d : Duration}
    {now : Timestamp} {ctx ctx' : Context} {stage : Stage} {result : Except Failure Outcome}
    {b₁ b₂ b₃ : FaultyStore}
    (hread : (callStore (.get .cluster name)).run (FaultyStore.handle instant) ⟨s, failures, []⟩ =
      (.ok c, b₁))
    (hobserve : (Context.observe c d now).run.run (FaultyStore.handle instant) b₁ = (.ok ctx, b₂))
    (hact : (stage.action ctx).run (FaultyStore.handle instant) b₂ = ((result, ctx'), b₃)) :
    b₃.store.clusters name = some ctx'.cluster ∧
    (s.clusters name).map DbCluster.status = some ctx'.observedStatus ∧
    ∀ outcome, result = .ok outcome →
      (ctx'.observedWorkload = none ∧ b₃.Misled name) ∨
      (ctx'.observedWorkload.map Kind.workload.bare =
          (b₃.store.workloads name).map Kind.workload.bare ∧
        ∀ verdict b₄,
          (stage.isComplete ctx').run (FaultyStore.handle instant) b₃ = (verdict, b₄) →
          ∃ c' fresh, b₄.store.clusters name = some c' ∧
            (Context.observe c' d now).run.run (Store.handle instant false) b₄.store =
              (.ok fresh, b₄.store) ∧
            (∀ arrow ∈ workflowArrows, arrow.guard ctx' =
              arrow.guard { fresh with observedStatus := ctx'.observedStatus }) ∧
            ctx'.tlsEnabled = fresh.tlsEnabled ∧
            ctx'.isChangingVersion = fresh.isChangingVersion) := by
  have hlookup : FaultyStore.Ends ⟨s, failures, []⟩ instant (callStore (.get .cluster name)) _ :=
    FaultyStore.ends_getCluster hs name
  rw [FaultyStore.Ends, hread] at hlookup
  obtain ⟨hb₁, hstored⟩ := hlookup c rfl
  have hlooks := hb₁.ends_observe instant d now
  rw [FaultyStore.Ends, hobserve] at hlooks
  obtain ⟨hb₂, hstatus, hseen⟩ := hlooks ctx rfl
  have hacts := hb₂.mirrors_action instant hseen stage
  rw [FaultyStore.Ends, hact] at hacts
  refine ⟨hacts.has.stored, ?_, fun outcome houtcome => ?_⟩
  · rw [hacts.observedStatus, hstatus]
    exact congrArg (Option.map DbCluster.status) hstored
  · refine (hacts.observedWorkload outcome houtcome).symm.imp_right fun hbare => ⟨hbare, ?_⟩
    intro verdict b₄ hcheck
    have hsame := FaultyStore.ends_isComplete b₃ instant stage ctx'
    rw [FaultyStore.Ends, hcheck] at hsame
    rw [hsame]
    refine ⟨ctx'.cluster, _, hacts.has.stored, Context.run_observe _ instant _ d now, ?_, rfl, rfl⟩
    -- A guard looks at a workload only to see that there is one.
    refine Arrow.guard_congr rfl rfl ?_
    have hisNone := congrArg Option.isNone hbare
    rwa [Option.isNone_map, Option.isNone_map, ← hacts.has.resourceName_eq] at hisNone

/-- A store that refuses the fourth call. -/
def FaultyStore.wavering : FaultyStore :=
  ⟨Store.deployedFor (DbCluster.scaling 5 5).spec (.scaling 5 5),
    [none, none, none, some (.other "unavailable")], []⟩

/-- The status of a cluster is published, and the write of its annotations fails. -/
theorem snapshot_coherent_of_failed_write :
    FaultyStore.wavering.store.WellNamed ∧ ∃ c b₁ ctx b₂ ctx' b₃,
      (callStore (.get .cluster ⟨"db", "example"⟩)).run (FaultyStore.handle true) .wavering =
        (.ok c, b₁) ∧
      (Context.observe c (.ofSeconds 10) .earliest).run.run (FaultyStore.handle true) b₁ =
        (.ok ctx, b₂) ∧
      (Stage.updateStatus.action ctx).run (FaultyStore.handle true) b₂ =
        ((.ok .requeue, ctx'), b₃) ∧
      b₃.store.clusters ⟨"db", "example"⟩ = some ctx'.cluster := by
  have hs : FaultyStore.wavering.store.WellNamed :=
    Store.wellNamed_deployedFor (DbCluster.scaling 5 5).spec (.scaling 5 5)
  have hread : (callStore (.get .cluster ⟨"db", "example"⟩)).run (FaultyStore.handle true)
      .wavering = (.ok (.scaling 5 5), FaultyStore.wavering.reached true
        (.get .cluster ⟨"db", "example"⟩)) := rfl
  refine ⟨hs, _, _, _, _, _, _, hread, rfl, rfl, ?_⟩
  exact (snapshot_coherent hs hread rfl (show (Stage.updateStatus.action _).run _ _ = _ from rfl)).1

/-- **An action can succeed without having seen the workload that is stored**: the look-up
after the automation config was published fails as if there was none. -/
theorem not_forall_workload_observed :
    ¬ ∀ (s : Store) (failures : List (Option StoreError)) (name : ResourceName) (c : DbCluster)
      (d : Duration) (now : Timestamp) (ctx ctx' : Context) (stage : Stage) (outcome : Outcome)
      (b₁ b₂ b₃ : FaultyStore), s.WellNamed →
      (callStore (.get .cluster name)).run (FaultyStore.handle false) ⟨s, failures, []⟩ =
        (.ok c, b₁) →
      (Context.observe c d now).run.run (FaultyStore.handle false) b₁ = (.ok ctx, b₂) →
      (stage.action ctx).run (FaultyStore.handle false) b₂ = ((.ok outcome, ctx'), b₃) →
      (ctx'.observedWorkload.isSome ↔ (b₃.store.workloads name).isSome) := by
  intro h
  have hs : ((Store.empty.insert .cluster (.scaling 3 3)).insert .workload
      (wantedWorkload (.scaling 3 3))).WellNamed :=
    (Store.wellNamed_empty.put .cluster (.scaling 3 3)).put .workload
      (wantedWorkload (.scaling 3 3))
  have hobserved := h _ [none, none, none, none, some (.notFound .workload ⟨"db", "example"⟩)]
    ⟨"db", "example"⟩ _ (.ofSeconds 10) .earliest _ _ .deployAutomationConfig _ _ _ _ hs rfl rfl rfl
  cases hobserved.2 rfl

end Reconciliation
