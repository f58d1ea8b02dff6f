/-
# The spec that was applied can be read back

Once a cluster is published as running, its spec is written into an annotation, and since
the types that are stored are faithful, it is read back from there as it was.  The calls of a
tick show whether that write has reached the store: it follows the write of the status
directly (`Remembered`).

Nothing else of the cluster changes then but the version that was applied and the progress
record, which the same tick moves on (`round_trips_and_applied_spec`).
-/

import Reconciliation.Proofs.Cluster.Faults
import Reconciliation.Proofs.Cluster.Resources
import Reconciliation.Proofs.Cluster.Snapshot

namespace Reconciliation

/-! ## What is remembered -/

/-- The annotations remember the spec of the cluster; all others but the progress record are
those of `c`. -/
structure DbCluster.Remembers (new c : DbCluster) : Prop where
  spec : new.spec = c.spec
  applied : (new.metadata.annotations.get? appliedSpecAnnotation).map Json.decode =
    some (.ok c.spec : Except Json.Fault ClusterSpec)
  version : new.metadata.annotations.get? appliedVersionAnnotation = some c.spec.version
  others : ∀ key, key ≠ appliedSpecAnnotation → key ≠ appliedVersionAnnotation →
    key ≠ progressAnnotation →
      new.metadata.annotations.get? key = c.metadata.annotations.get? key

/-- Writing the annotations of the applied spec makes a cluster remember the spec that it has. -/
theorem DbCluster.remembers_withAppliedSpec (c : DbCluster) (status : ClusterStatus) :
    (withAppliedSpec { c with status }).Remembers c where
  spec := rfl
  applied := by
    simp [withAppliedSpec, DbCluster.annotate, Json.decode_encode]
  version := by
    have hne : appliedSpecAnnotation ≠ appliedVersionAnnotation := by decide
    simp [withAppliedSpec, DbCluster.annotate, hne]
  others key hspec hversion _ := by
    simp [withAppliedSpec, DbCluster.annotate, hspec.symm, hversion.symm]

/-- The progress record is none of what is remembered. -/
theorem DbCluster.Remembers.withProgress {new c : DbCluster} (h : new.Remembers c)
    (record : Progress) : (withProgress new record).Remembers c where
  spec := h.spec
  applied := by
    have hne : progressAnnotation ≠ appliedSpecAnnotation := by decide
    rw [← h.applied]
    simp [Reconciliation.withProgress, DbCluster.annotate, hne]
  version := by
    have hne : progressAnnotation ≠ appliedVersionAnnotation := by decide
    rw [← h.version]
    simp [Reconciliation.withProgress, DbCluster.annotate, hne]
  others key hspec hversion hprogress := by
    rw [← h.others key hspec hversion hprogress]
    simp [Reconciliation.withProgress, DbCluster.annotate, hprogress.symm]

/-- It does not touch the record. -/
theorem progressText?_withAppliedSpec (c : DbCluster) (status : ClusterStatus) :
    progressText? (withAppliedSpec { c with status }) = progressText? c := by
  have hspec : appliedSpecAnnotation ≠ progressAnnotation := by decide
  have hversion : appliedVersionAnnotation ≠ progressAnnotation := by decide
  simp [progressText?, withAppliedSpec, DbCluster.annotate, hspec, hversion]

/-- **What the publishing stage writes of a cluster is the spec that it has seen**, whatever
the replies are, so whoever else writes. -/
theorem Only.updateStatusStep_remembers (ctx : Context) :
    Only (fun r => ∀ new, r = .update .cluster new → new.Remembers ctx.cluster ∧
        progressText? new = progressText? ctx.cluster) (fun _ => True)
      (Reconciliation.updateStatusStep ctx) := by
  unfold Reconciliation.updateStatusStep
  split
  · refine bind (bind (callStore (r := .updateStatus _) (fun _ h => by cases h) fun reply => ?_))
    cases reply <;> exact .done (.done trivial)
  · refine bind (bind (callStore (r := .updateStatus _) (fun _ h => by cases h) fun reply => ?_))
    cases reply with
    | error error => exact .done (.done trivial)
    | ok =>
      refine .done (bind (bind (callStore (r := .update .cluster _) ?_ fun reply => ?_)))
      · rintro _ ⟨⟩
        exact ⟨ctx.cluster.remembers_withAppliedSpec _, progressText?_withAppliedSpec ctx.cluster _⟩
      · cases reply <;> exact .done (.done trivial)

/-! ## What the calls show -/

/-- A call is the write of the cluster that follows a status write directly; both have
reached the store, and the cluster was published as running. -/
def remembers : (Request × Option StoreError) × (Request × Option StoreError) → Bool
  | ((.update .cluster _, none), (.updateStatus published, none)) =>
    published.status.phase = .running
  | _ => false

/-- The calls, the latest first, show that the spec of a running cluster was remembered. -/
def Remembered (calls : List (Request × Option StoreError)) : Prop :=
  ∃ pair ∈ calls.zip calls.tail, remembers pair = true

instance (calls : List (Request × Option StoreError)) : Decidable (Remembered calls) :=
  inferInstanceAs (Decidable (∃ pair ∈ calls.zip calls.tail, remembers pair = true))

/-- Without a call nothing is remembered. -/
theorem not_remembered_nil : ¬ Remembered [] := by
  rintro ⟨_, hmem, -⟩
  cases hmem

/-- The spec is remembered by the last two calls, or it was before. -/
theorem remembered_cons_cons (call earlier : Request × Option StoreError)
    (calls : List (Request × Option StoreError)) : Remembered (call :: earlier :: calls) ↔
      remembers (call, earlier) = true ∨ Remembered (earlier :: calls) := by
  simp [Remembered]

/-- Most calls show nothing new. -/
theorem remembered_cons {call : Request × Option StoreError}
    (h : ∀ earlier, remembers (call, earlier) = false)
    {calls : List (Request × Option StoreError)} :
    Remembered (call :: calls) ↔ Remembered calls := by
  cases calls with
  | nil => simp [Remembered]
  | cons earlier calls => rw [remembered_cons_cons, h, Bool.false_eq_true, false_or]

/-- A call that failed remembers nothing. -/
theorem remembers_failed (r : Request) (error : StoreError)
    (earlier : Request × Option StoreError) : remembers ((r, some error), earlier) = false := by
  simp [remembers]

namespace FaultyStore

variable {b : FaultyStore} {instant : Bool} {name : ResourceName} {c : DbCluster}
  {ctx : Context}

@[simp] theorem remembered_failed (r : Request) (error : StoreError) :
    Remembered (b.failed r error).calls ↔ Remembered b.calls :=
  remembered_cons (remembers_failed r error)

@[simp] theorem remembered_get (kind : Kind) (read : ResourceName) :
    Remembered (b.reached instant (.get kind read)).calls ↔ Remembered b.calls :=
  remembered_cons fun _ => rfl

@[simp] theorem remembered_updateStatus (new : DbCluster) :
    Remembered (b.reached instant (.updateStatus new)).calls ↔ Remembered b.calls :=
  remembered_cons fun _ => rfl

/-- Sleeping makes no calls. -/
theorem Ends.of_onlySleeps {work : Work Unit} (h : OnlySleeps work)
    {Q : Unit → FaultyStore → Prop} (hQ : Q () b) : b.Ends instant work Q := by
  induction h with
  | done => exact hQ
  | sleep d _ ih => exact ih

/-- A status write alone remembers nothing. -/
theorem ends_updateStatus_calls (b : FaultyStore) (instant : Bool) (ctx : Context)
    (o : StatusOptions) :
    b.Ends instant (updateStatus ctx o) fun _ b' => Remembered b'.calls → Remembered b.calls := by
  refine .bind (.call (r := .updateStatus _) ?_ fun error => (remembered_failed _ error).1)
  cases hreply : (b.store.perform instant (.updateStatus { ctx.cluster with
      status := o.apply ctx.now ctx.cluster.status })).1 <;>
    exact (remembered_updateStatus _).1

/-- If the calls show that the spec was remembered, its write has reached the store. -/
theorem Has.ends_recordAppliedSpec_calls (h : b.Has name ctx.cluster)
    (hnew : ¬ Remembered b.calls) :
    b.Ends instant (recordAppliedSpec ctx) fun ctx' b' => Remembered b'.calls →
      ctx' = { ctx with cluster := withAppliedSpec ctx.cluster } ∧
        b'.Has name (withAppliedSpec ctx.cluster) := by
  refine .bind (.call (r := .update .cluster _) ?_ fun error => ?_)
  · obtain ⟨hreply, hb'⟩ := h.reached_update instant
      (show (withAppliedSpec ctx.cluster).resourceName = _ from rfl) rfl
    rw [hreply]
    exact fun _ => ⟨rfl, hb'⟩
  · exact fun hcalls => absurd ((remembered_failed _ error).1 hcalls) hnew

/-- If the calls of the publishing stage show that the spec was remembered, nothing was left
to scale and the stage has succeeded. -/
theorem Has.ends_updateStatusStep (h : b.Has name ctx.cluster) (hnew : ¬ Remembered b.calls) :
    b.Ends instant (updateStatusStep ctx) fun x b' => Remembered b'.calls →
      (∃ outcome, x.1 = .ok outcome) ∧ ctx.cluster.isStillScaling = false ∧
        x.2.observedStatus = ctx.observedStatus ∧
        ∃ status, x.2.cluster = withAppliedSpec { ctx.cluster with status } ∧
          b'.Has name x.2.cluster := by
  unfold updateStatusStep
  split
  · exact .bind ((ends_updateStatus_calls b instant ctx _).mono fun x b' hcalls hb' =>
      absurd (hcalls hb') hnew)
  · rename_i hscaling
    refine .bind ((Ends.and (h.ends_updateStatus _)
      (ends_updateStatus_calls b instant ctx _)).mono ?_)
    rintro ⟨error | outcome, ctx'⟩ b' ⟨⟨hb', ⟨status, rfl⟩, -⟩, hcalls⟩
    · exact fun hb' => absurd (hcalls hb') hnew
    · refine .bind ((hb'.ends_recordAppliedSpec_calls fun hb' => hnew (hcalls hb')).mono ?_)
      intro ctx'' b'' hrecorded hcalls
      obtain ⟨rfl, hb''⟩ := hrecorded hcalls
      exact ⟨⟨outcome, rfl⟩, Bool.eq_false_iff.2 hscaling, rfl, status, rfl, hb''⟩

/-! ## Ticks -/

/-- Looking around remembers no spec. -/
theorem Has.ends_observe_calls (h : b.Has name c) (hnew : ¬ Remembered b.calls) (d : Duration)
    (now : Timestamp) :
    b.Ends instant (Context.observe c d now).run fun x b' => b'.Has name c ∧
      ¬ Remembered b'.calls ∧
        ∀ ctx, x = .ok ctx → ctx.cluster = c ∧ ctx.observedStatus = c.status := by
  unfold Context.observe
  refine .run_bind (.findResource ?_ (fun error _ => ?_) fun error => ?_)
  · refine ⟨h.reached_get _ _ _, (remembered_get _ _).not.2 hnew, ?_⟩
    rintro _ ⟨⟩
    exact ⟨rfl, rfl⟩
  · refine ⟨h.failed _ error, (remembered_failed _ error).not.2 hnew, ?_⟩
    rintro _ ⟨⟩
    exact ⟨rfl, rfl⟩
  · refine ⟨h.failed _ error, (remembered_failed _ error).not.2 hnew, ?_⟩
    rintro _ ⟨⟩

/-- The cluster is looked up before the resume point is written, so that write does not
follow the write of a status. -/
theorem ends_saveNextState_calls (b : FaultyStore) (instant : Bool) (name : ResourceName)
    (next : String) :
    b.Ends instant (saveNextState name next) fun _ b' =>
      Remembered b'.calls → Remembered b.calls := by
  refine .bind (.call (r := .get .cluster name) ?_ fun error => (remembered_failed _ error).1)
  cases (b.store.perform instant (.get .cluster name)).1 with
  | error error => exact (remembered_get _ _).1
  | ok stored =>
    dsimp only
    cases progressRecord stored with
    | error error => exact (remembered_get _ _).1
    | ok record =>
      refine .bind (.call (r := .update .cluster _) ?_ fun error =>
        fun hcalls => (remembered_get _ _).1 ((remembered_failed _ error).1 hcalls))
      have hlookup : ∀ new : DbCluster, Remembered ((b.reached instant (.get .cluster name)).reached
          instant (.update .cluster new)).calls → Remembered b.calls := by
        intro new hcalls
        obtain hpair | hcalls := (remembered_cons_cons _ _ _).1 hcalls
        · cases hpair
        · exact (remembered_cons fun _ => rfl).1 hcalls
      split <;> exact hlookup _

/-- The resume point is written in the record that is stored, or nothing is. -/
theorem Has.ends_saveNextState (h : b.Has name c) {record : Progress}
    (hrecord : progressRecord c = .ok record) (next : String) :
    b.Ends instant (saveNextState name next) fun result b' =>
      result = .ok () ∧ b'.Has name (withProgress c { record with nextState := next }) ∨
        (∃ cause, result = .error cause) ∧ b'.Has name c := by
  refine .bind (.call (r := .get .cluster name) ?_ fun error => .inr ⟨⟨_, rfl⟩, h.failed _ error⟩)
  have hb' := h.reached_get instant .cluster name
  rw [Store.perform_getCluster h.stored]
  dsimp only
  rw [hrecord]
  refine .bind (.call (r := .update .cluster _) ?_ fun error =>
    .inr ⟨⟨_, rfl⟩, hb'.failed _ error⟩)
  obtain ⟨hreply, hb''⟩ := hb'.reached_update instant
    (show (withProgress c { record with nextState := next }).resourceName = _ from rfl) rfl
  rw [hreply]
  exact .inl ⟨rfl, hb''⟩

end FaultyStore

namespace Reconciler

open FaultyStore

variable {r : Reconciler} {instant : Bool} {name : ResourceName} {b : FaultyStore}
  {c : DbCluster}

/-- Writing the resume point remembers no spec. -/
theorem ends_conclude_calls (hr : r.pacer.Silent) (b : FaultyStore) (instant : Bool)
    (x : Attempt) :
    b.Ends instant (r.conclude x) fun _ b' => Remembered b'.calls → Remembered b.calls := by
  cases x with
  | ended conclusion => exact id
  | leaving key stage next outcome =>
    refine .bind (.of_onlySleeps hr.before (.bind ?_))
    refine (ends_saveNextState_calls b instant key (nextName next)).mono fun result b' hcalls => ?_
    cases result with
    | error cause => exact hcalls
    | ok => exact .bind (.of_onlySleeps hr.after hcalls)

/-- The call of a complete stage ends well exactly when the resume point was written. -/
theorem ends_conclude (hr : r.pacer.Silent) (h : b.Has name c) {record : Progress}
    (hrecord : progressRecord c = .ok record) (stage : Stage) (next : Option Stage)
    (outcome : Outcome) :
    b.Ends instant (r.conclude (.leaving name stage next outcome)) fun conclusion b' =>
      (∃ outcome, conclusion.result = .ok outcome) ∧
          b'.Has name (withProgress c { record with nextState := nextName next }) ∨
        (∃ error, conclusion.result = .error error) ∧ b'.Has name c := by
  refine .bind (.of_onlySleeps hr.before (.bind ?_))
  refine (h.ends_saveNextState hrecord (nextName next)).mono ?_
  rintro result b' (⟨rfl, hb'⟩ | ⟨⟨cause, rfl⟩, hb'⟩)
  · exact .bind (.of_onlySleeps hr.after (.inl ⟨⟨_, rfl⟩, hb'⟩))
  · exact .inr ⟨⟨_, rfl⟩, hb'⟩

/-- If the calls of the publishing stage show that the spec was remembered, the stage is
left for the end of the pass. -/
theorem ends_attempt (r : Reconciler) (now : Timestamp) (h : b.Has name c)
    (hnew : ¬ Remembered b.calls) (hresumes : resumeStage c = .ok .updateStatus) :
    b.Ends instant (r.attempt now name) fun x b' => Remembered b'.calls →
      ∃ status outcome, x = .leaving name .updateStatus (some .reconciliationEnd) outcome ∧
        b'.Has name (withAppliedSpec { c with status }) := by
  refine .bind (.call (r := .get .cluster name) ?_ fun error => ?_)
  · have hb' := h.reached_get instant .cluster name
    rw [Store.perform_getCluster h.stored]
    dsimp only
    rw [hresumes, h.resourceName_eq]
    have hnew' : ¬ Remembered (b.reached instant (.get .cluster name)).calls := by
      rwa [remembered_get]
    refine .bind ((hb'.ends_observe_calls hnew' r.pendingRequeue now).mono ?_)
    rintro (error | ctx) b' ⟨hhas, hnew, hctx⟩
    · exact fun hcalls => absurd hcalls hnew
    · obtain ⟨rfl, hstatus⟩ := hctx ctx rfl
      refine .bind ((hhas.ends_updateStatusStep hnew).mono ?_)
      rintro ⟨error | outcome, ctx'⟩ b'' hrecorded hcalls
      · obtain ⟨⟨_, hresult⟩, -⟩ := hrecorded hcalls
        cases hresult
      · obtain ⟨-, hscaling, hobserved, status, hcluster, hb''⟩ := hrecorded hcalls
        dsimp only at hobserved hcluster hb''
        have hstill : ctx'.isStillScaling = false := by
          rw [Context.isStillScaling, hobserved, hstatus, hcluster]
          exact hscaling
        refine ⟨status, outcome, ?_, hcluster ▸ hb''⟩
        show Attempt.leaving name .updateStatus (Stage.updateStatus.next? ctx') outcome = _
        rw [Stage.next?_updateStatus, hstill]
        rfl
  · exact fun hcalls => absurd ((remembered_failed _ error).1 hcalls) hnew

/-- A tick of the publishing stage whose calls show that the spec was remembered leaves it in
the annotations; the record is moved on if the tick ends well. -/
theorem ends_reconcile (instant : Bool) (hr : r.pacer.Silent) (now : Timestamp) (h : b.Has name c)
    (hnew : ¬ Remembered b.calls) (hresumes : resumeStage c = .ok .updateStatus)
    {record : Progress} (hrecord : progressRecord c = .ok record) :
    b.Ends instant (r.reconcile now name) fun conclusion b' => Remembered b'.calls →
      ∃ status, (∃ outcome, conclusion.result = .ok outcome) ∧
          b'.Has name (withProgress (withAppliedSpec { c with status })
            { record with nextState := Stage.reconciliationEnd.name }) ∨
        (∃ error, conclusion.result = .error error) ∧
          b'.Has name (withAppliedSpec { c with status }) := by
  rw [reconcile_eq]
  refine .bind ((ends_attempt r now h hnew hresumes).mono fun x b' hattempt => ?_)
  by_cases hcalls : Remembered b'.calls
  · obtain ⟨status, outcome, rfl, hb'⟩ := hattempt hcalls
    have hrecord' : progressRecord (withAppliedSpec { c with status }) = .ok record := by
      rw [progressRecord_withAppliedSpec, ← hrecord]
      rfl
    exact (ends_conclude hr hb' hrecord' .updateStatus (some .reconciliationEnd) outcome).mono
      fun conclusion b'' hb'' _ => ⟨status, hb''⟩
  · exact (ends_conclude_calls hr b' instant x).mono fun conclusion b'' hb'' hcalls' =>
      absurd (hb'' hcalls') hcalls

end Reconciler

/-- **What is stored is read back as it was, and so is the spec that was applied.**  All
types that are stored are faithful, so the text that the publishing stage writes of the spec
is read as the spec, whoever else writes and whatever calls fail.  A tick that has published
the cluster as running and has written that text leaves all other annotations alone but the
version that was applied and its progress record, which goes on to the end of the pass if the
tick ends well. -/
theorem round_trips_and_applied_spec :
    (Json.Faithful ResourceName ∧ Json.Faithful Metadata ∧ Json.Faithful DbCluster ∧
      Json.Faithful ClusterSpec ∧ Json.Faithful SecuritySpec ∧ Json.Faithful TlsSpec ∧
      Json.Faithful ClusterStatus ∧ Json.Faithful Service ∧ Json.Faithful Workload ∧
      Json.Faithful WorkloadStatus ∧ Json.Faithful AutomationConfig ∧ Json.Faithful Secret ∧
      Json.Faithful ConfigMap ∧ Json.Faithful Settings ∧ Json.Faithful PacingSettings ∧
      Json.Faithful WorkflowSettings ∧ Json.Faithful LogSettings) ∧
    (∀ ctx, Only (fun r => ∀ new, r = .update .cluster new → new.Remembers ctx.cluster ∧
        progressText? new = progressText? ctx.cluster) (fun _ => True)
      (Stage.updateStatus.action ctx)) ∧
    ∀ {r : Reconciler} {instant : Bool} {now : Timestamp} {s : Store}
      {failures : List (Option StoreError)} {name : ResourceName} {c : DbCluster}
      {conclusion : Conclusion} {b : FaultyStore}, r.pacer.Silent → s.WellNamed →
      s.clusters name = some c → resumeStage c = .ok .updateStatus →
      (r.reconcile now name).run (FaultyStore.handle instant) ⟨s, failures, []⟩ =
        (conclusion, b) → Remembered b.calls →
      ∃ c' record, b.store.clusters name = some c' ∧ c'.Remembers c ∧
        progressRecord c = .ok record ∧
        ((∃ outcome, conclusion.result = .ok outcome) ∧ progressText? c' = some
            (Progress.toJson { record with nextState := Stage.reconciliationEnd.name }) ∨
          (∃ error, conclusion.result = .error error) ∧
            progressText? c' = progressText? c) := by
  refine ⟨by simp only [Json.faithful, and_self], Only.updateStatusStep_remembers, ?_⟩
  intro r instant now s failures name c conclusion b hr hs hstored hresumes hrun hcalls
  obtain ⟨record, hrecord⟩ := exists_progressRecord hresumes
  have hhas : (⟨s, failures, []⟩ : FaultyStore).Has name c := ⟨hs, hstored⟩
  have hends := Reconciler.ends_reconcile instant hr now hhas not_remembered_nil
    hresumes hrecord
  rw [FaultyStore.Ends, hrun] at hends
  obtain ⟨status, ⟨hok, hb⟩ | ⟨herror, hb⟩⟩ := hends hcalls
  · refine ⟨_, record, hb.stored, (c.remembers_withAppliedSpec status).withProgress _, hrecord,
      .inl ⟨hok, ?_⟩⟩
    simp [progressText?, withProgress, DbCluster.annotate]
  · exact ⟨_, record, hb.stored, c.remembers_withAppliedSpec status, hrecord,
      .inr ⟨herror, progressText?_withAppliedSpec c status⟩⟩

/-- A cluster that is about to be published, with an annotation of its users. -/
def DbCluster.unpublished : DbCluster :=
  withProgress ((DbCluster.scaling 3 3).annotate "team" "storage") (.resumingAt "UpdateStatus")

/-- A tick that publishes it when no call fails. -/
def FaultyStore.publishingTick : Conclusion × FaultyStore :=
  (Reconciler.standard.reconcile .earliest ⟨"db", "example"⟩).run (FaultyStore.handle true)
    ⟨Store.empty.insert .cluster .unpublished, [], []⟩

section Publishing

/-- The next tick publishes the status of the cluster. -/
theorem DbCluster.resumeStage_unpublished : resumeStage .unpublished = .ok .updateStatus :=
  resumeStage_withProgress _ .fresh (some .updateStatus)

theorem Store.clusters_unpublished :
    (Store.empty.insert .cluster .unpublished).clusters ⟨"db", "example"⟩ = some .unpublished :=
  Collection.put_self Store.empty.clusters DbCluster.unpublished.resourceName .unpublished

theorem Store.wellNamed_unpublished : (Store.empty.insert .cluster .unpublished).WellNamed :=
  Store.wellNamed_empty.put .cluster .unpublished

theorem FaultyStore.publishingTick_eq :
    (Reconciler.standard.reconcile .earliest ⟨"db", "example"⟩).run (handle true)
        ⟨Store.empty.insert .cluster .unpublished, [], []⟩ =
      (publishingTick.1, publishingTick.2) :=
  (Prod.eta publishingTick).symm

/-- The calls of the tick show that the spec was remembered. -/
theorem FaultyStore.remembered_publishingTick : Remembered publishingTick.2.calls := by
  decide +kernel

/-- A tick that publishes the cluster as running leaves the text of its spec in the annotations.
-/
theorem applied_spec_of_publishing :
    Reconciler.standard.pacer.Silent ∧ (Store.empty.insert .cluster .unpublished).WellNamed ∧
    (Store.empty.insert .cluster .unpublished).clusters ⟨"db", "example"⟩ = some .unpublished ∧
    resumeStage .unpublished = .ok .updateStatus ∧
    Remembered FaultyStore.publishingTick.2.calls ∧
    ∃ c', FaultyStore.publishingTick.2.store.clusters ⟨"db", "example"⟩ = some c' ∧
      c'.Remembers .unpublished := by
  obtain ⟨c', _, hc', hremembers, -⟩ := round_trips_and_applied_spec.2.2 Pacer.silent_none
    Store.wellNamed_unpublished Store.clusters_unpublished DbCluster.resumeStage_unpublished
    FaultyStore.publishingTick_eq FaultyStore.remembered_publishingTick
  exact ⟨Pacer.silent_none, Store.wellNamed_unpublished, Store.clusters_unpublished,
    DbCluster.resumeStage_unpublished, FaultyStore.remembered_publishingTick, c', hc', hremembers⟩

/-- **The tick that remembers the spec changes a third annotation**, its progress record. -/
theorem not_forall_annotations_kept :
    ¬ ∀ (s : Store) (failures : List (Option StoreError)) (name : ResourceName)
      (c c' : DbCluster) (conclusion : Conclusion) (b : FaultyStore), s.WellNamed →
      s.clusters name = some c → resumeStage c = .ok .updateStatus →
      (Reconciler.standard.reconcile .earliest name).run (FaultyStore.handle true)
        ⟨s, failures, []⟩ = (conclusion, b) → Remembered b.calls →
      b.store.clusters name = some c' → ∀ key, key ≠ appliedSpecAnnotation →
        key ≠ appliedVersionAnnotation →
          c'.metadata.annotations.get? key = c.metadata.annotations.get? key := by
  intro h
  have hmoved : (FaultyStore.publishingTick.2.store.clusters ⟨"db", "example"⟩).map progressText? =
      some (some (Progress.resumingAt "ReconciliationEnd").toJson) := by decide +kernel
  obtain ⟨c', hc', htext⟩ := Option.map_eq_some_iff.1 hmoved
  have hkept := h _ [] ⟨"db", "example"⟩ .unpublished c' _ FaultyStore.publishingTick.2
    Store.wellNamed_unpublished Store.clusters_unpublished DbCluster.resumeStage_unpublished
    FaultyStore.publishingTick_eq FaultyStore.remembered_publishingTick hc' progressAnnotation
    (by decide) (by decide)
  have hbefore : DbCluster.unpublished.metadata.annotations.get? progressAnnotation =
      some (Progress.resumingAt "UpdateStatus").toJson := by
    simp [DbCluster.unpublished, withProgress, DbCluster.annotate]
  have hsame : some (Progress.resumingAt "ReconciliationEnd").toJson =
      some (Progress.resumingAt "UpdateStatus").toJson :=
    htext.symm.trans (hkept.trans hbefore)
  revert hsame
  decide +kernel

end Publishing
end Reconciliation
