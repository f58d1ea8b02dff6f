/-
# Status writes and failing steps

A status is written to the store first and to the context then, so both have it or neither
(`Context.WritesThrough`): what the store answers decides, and whoever writes is told
(`FaultyStore.ends_updateStatus`).

A step whose work finds a problem (`Stage.work`) writes that it has failed and why.  This
write may fail as well, so there are two failures to tell apart: the step ends with its own
(`Stage.run_action`), and the status is the failed one on both sides or the old one on both
(`status_writes`).  Counts, address and version are not touched by any of this.
-/

import Reconciliation.Proofs.Cluster.Faults
import Reconciliation.Proofs.Cluster.StoreLaws

namespace Reconciliation

/-- The status of a cluster that has failed with a message. -/
def ClusterStatus.failed (status : ClusterStatus) (message : String) (now : Timestamp) :
    ClusterStatus :=
  { status with phase := .failed, message := message, lastUpdated := some now }

/-- The status is written to the context and to the cluster that is stored, and nothing else
has changed. -/
structure Context.WritesThrough (ctx : Context) (status : ClusterStatus) (s : Store)
    (ctx' : Context) (t : Store) : Prop where
  context : ctx' = { ctx with cluster := { ctx.cluster with status } }
  store : ∃ c, s.clusters ctx.cluster.resourceName = some c ∧
    t = s.put ctx.cluster.resourceName .cluster { c with status }

/-! ## The work of a step -/

/-- What is wrong with a result, if something is. -/
def problem? {α : Type} : Except StoreError α → Option String
  | .ok _ => none
  | .error error => some error.message

namespace Stage

/-- The work of a step, and the problem that it finds. -/
def work (c : DbCluster) : Stage → Work (Option String)
  | validateSpec =>
    match Reconciliation.validateSpec c with
    | .error problem => pure (some problem.message)
    | .ok () => pure none
  | createService => do
    match ← callStore (.create .service (wantedService c)) with
    | .ok () => pure none
    | .error error => pure (if error.isAlreadyExists then none else some error.message)
  | tlsValidation => do pure (problem? (← (tlsObjectsValid c).run))
  | createTlsResources => do pure (problem? (← (ensureOperatorSecret c).run))
  | deployAutomationConfig => do pure (problem? (← (publishAutomationConfig c).run))
  | deployWorkload => do pure (problem? (← (ensureWorkload c).run))
  | resetUpdateStrategy => do pure (problem? (← (resetStrategy c).run))
  | startFresh | updateStatus | reconciliationEnd => pure none

/-- What a step says before the problem that its work has found. -/
def complaint : Stage → String
  | validateSpec => "error validating new spec: "
  | createService => "Error ensuring the service exists: "
  | tlsValidation => "Error validating TLS config: "
  | createTlsResources => "Error ensuring TLS resources: "
  | deployAutomationConfig => "Error deploying automation config: "
  | deployWorkload => "Error deploying workload: "
  | resetUpdateStrategy => "Error resetting workload update strategy: "
  | startFresh | updateStatus | reconciliationEnd => ""

/-- The work makes no call about clusters. -/
theorem aloof_work (c : DbCluster) (stage : Stage) : Aloof (stage.work c) := by
  cases stage with
  | validateSpec =>
    simp only [work]
    split <;> exact .done _
  | createService =>
    refine (Aloof.callStore (r := .create .service (wantedService c)) nofun).bind fun reply => ?_
    cases reply <;> exact .done _
  | tlsValidation => exact (Aloof.tlsObjectsValid c).bind fun _ => .done _
  | createTlsResources => exact (Aloof.ensureOperatorSecret c).bind fun _ => .done _
  | deployAutomationConfig => exact (Aloof.publishAutomationConfig c).bind fun _ => .done _
  | deployWorkload => exact (Aloof.ensureWorkload c).bind fun _ => .done _
  | resetUpdateStrategy => exact (Aloof.resetStrategy c).bind fun _ => .done _
  | startFresh | updateStatus | reconciliationEnd => exact .done _

variable {σ : Type} (handle : (e : Effect) → σ → e.Reply × σ)

/-- A step that looks at the result of its work and fails with the problem that it tells. -/
theorem run_of_problem {α : Type} {work : StoreWork α} {ctx : Context} {before : String}
    {next : Except StoreError α → Work (Except Failure Outcome × Context)}
    (hnext : ∀ error, next (.error error) = failStep ctx (before ++ error.message))
    {x y : σ} {text : String}
    (h : (do pure (problem? (← work.run)) : Work (Option String)).run handle x = (some text, y)) :
    (work.run >>= next).run handle x = (failStep ctx (before ++ text)).run handle y := by
  rw [Program.run_bind] at h ⊢
  obtain ⟨htext, rfl⟩ := Prod.mk.inj h
  cases hresult : (work.run.run handle x).1 with
  | ok a =>
    rw [hresult] at htext
    cases htext
  | error error =>
    rw [hresult] at htext
    cases htext
    rw [hnext]

/-- **A step whose work finds a problem fails with it**, whatever answers. -/
theorem run_action (stage : Stage) (ctx : Context) {x y : σ} {text : String}
    (h : (stage.work ctx.cluster).run handle x = (some text, y)) :
    (stage.action ctx).run handle x =
      (failStep ctx (stage.complaint ++ text)).run handle y := by
  cases stage with
  | validateSpec =>
    simp only [work] at h
    cases hvalid : Reconciliation.validateSpec ctx.cluster with
    | ok =>
      rw [hvalid] at h
      cases h
    | error problem =>
      rw [hvalid] at h
      cases h
      simp only [action, validateSpecStep, hvalid]
      rfl
  | createService =>
    simp only [work, Program.run_bind] at h
    simp only [action, Reconciliation.createService, Program.run_bind]
    cases hreply : ((callStore (.create .service (wantedService ctx.cluster))).run handle x).1 with
    | ok =>
      rw [hreply] at h
      cases h
    | error error =>
      rw [hreply] at h
      obtain ⟨htext, rfl⟩ := Prod.mk.inj h
      split at htext
      · cases htext
      · rename_i htaken
        cases htext
        simp only [htaken]
        rfl
  | tlsValidation => exact run_of_problem handle (fun _ => rfl) h
  | createTlsResources => exact run_of_problem handle (fun _ => rfl) h
  | deployAutomationConfig => exact run_of_problem handle (fun _ => rfl) h
  | deployWorkload => exact run_of_problem handle (fun _ => rfl) h
  | resetUpdateStrategy => exact run_of_problem handle (fun _ => rfl) h
  | startFresh | updateStatus | reconciliationEnd => cases h

/-- A status write that fails is not a failure of the step's own. -/
theorem run_publishStatus_ne (ctx : Context) (o : StatusOptions) (x : σ) (message : String) :
    ((publishStatus ctx o).run handle x).1.1 ≠ .error (.other message) := by
  rw [publishStatus, Program.run_bind]
  obtain ⟨result, left⟩ := ((Reconciliation.updateStatus ctx o).run handle x).1
  cases result <;> nofun

/-- A step that looks at the result of its work, and has no other failure of its own. -/
theorem run_of_no_problem {α : Type} {work : StoreWork α}
    {next : Except StoreError α → Work (Except Failure Outcome × Context)} {message : String}
    (hnext : ∀ a y, ((next (.ok a)).run handle y).1.1 ≠ .error (.other message)) {x : σ}
    (h : ((do pure (problem? (← work.run)) : Work (Option String)).run handle x).1 = none) :
    ((work.run >>= next).run handle x).1.1 ≠ .error (.other message) := by
  rw [Program.run_bind] at h ⊢
  cases hresult : (work.run.run handle x).1 with
  | ok a => exact hnext a _
  | error error =>
    rw [hresult] at h
    cases h

/-- **A step whose work finds no problem has no failure of its own.** -/
theorem run_action_ne (stage : Stage) (ctx : Context) {x : σ}
    (h : ((stage.work ctx.cluster).run handle x).1 = none) (message : String) :
    ((stage.action ctx).run handle x).1.1 ≠ .error (.other message) := by
  cases stage with
  | startFresh => nofun
  | validateSpec =>
    simp only [work] at h
    cases hvalid : Reconciliation.validateSpec ctx.cluster with
    | ok =>
      simp only [action, validateSpecStep, hvalid]
      nofun
    | error problem =>
      rw [hvalid] at h
      cases h
  | createService =>
    simp only [work, Program.run_bind] at h
    simp only [action, Reconciliation.createService, Program.run_bind]
    cases hreply : ((callStore (.create .service (wantedService ctx.cluster))).run handle x).1 with
    | ok => nofun
    | error error =>
      rw [hreply] at h
      by_cases htaken : error.isAlreadyExists = true
      · simp only [htaken]
        nofun
      · simp [htaken] at h
  | tlsValidation =>
    refine run_of_no_problem handle (fun valid y => ?_) h
    cases valid with
    | false => exact run_publishStatus_ne handle _ _ y message
    | true => nofun
  | createTlsResources => exact run_of_no_problem handle (fun _ _ => by nofun) h
  | deployAutomationConfig =>
    refine run_of_no_problem handle (fun found y => ?_) h
    dsimp only
    split
    · nofun
    · exact run_publishStatus_ne handle _ _ y message
  | deployWorkload =>
    refine run_of_no_problem handle (fun workload y => ?_) h
    dsimp only
    split
    · nofun
    · exact run_publishStatus_ne handle _ _ y message
  | resetUpdateStrategy => exact run_of_no_problem handle (fun _ _ => by nofun) h
  | updateStatus =>
    simp only [action, updateStatusStep]
    split
    · exact run_publishStatus_ne handle _ _ x message
    · rw [Program.run_bind]
      generalize ((Reconciliation.updateStatus ctx (runningStatus ctx)).run handle x).1 = written
      obtain ⟨result, left⟩ := written
      cases result with
      | error error => nofun
      | ok outcome =>
        dsimp only
        rw [Program.run_bind]
        nofun
  | reconciliationEnd =>
    simp only [action, Reconciliation.reconciliationEnd, Program.run_bind]
    split <;> nofun

end Stage

/-! ## Both sides or neither -/

namespace FaultyStore

variable {b : FaultyStore} {instant : Bool} {ctx ctx' : Context} {status : ClusterStatus}

/-- A status is written to the store and to the context if the store takes it, and to neither
of them if it does not. -/
def Offers (b : FaultyStore) (instant : Bool) (ctx : Context) (status : ClusterStatus)
    (ctx' : Context) (t : Store) : Prop :=
  match (b.answer instant (.updateStatus { ctx.cluster with status })).1 with
  | .ok () => ctx.WritesThrough status b.store ctx' t
  | .error _ => ctx' = ctx ∧ t = b.store

/-- A call that fails has changed nothing. -/
theorem store_answer_of_error {r : Request} {error : StoreError}
    (h : (b.answer instant r).1 = .error error) : (b.answer instant r).2.store = b.store := by
  unfold answer at h ⊢
  split at h
  · rfl
  · exact Store.perform_eq_of_error h

/-- A status that the store takes is stored, in place of the one that was there. -/
theorem store_answer_updateStatus {c : DbCluster}
    (h : (b.answer instant (.updateStatus c)).1 = .ok ()) :
    ∃ stored, b.store.clusters c.resourceName = some stored ∧
      (b.answer instant (.updateStatus c)).2.store =
        b.store.put c.resourceName .cluster { stored with status := c.status } := by
  unfold answer at h ⊢
  split at h
  · cases h
  · cases hstored : b.store.clusters c.resourceName with
    | none =>
      simp only [Store.perform, hstored] at h
      cases h
    | some stored =>
      refine ⟨stored, rfl, ?_⟩
      rw [reached, Store.perform_updateStatus hstored rfl]

/-- **The answer of the store decides what a status write does**, and what it gives. -/
theorem ends_updateStatus (b : FaultyStore) (instant : Bool) (ctx : Context) (o : StatusOptions) :
    b.Ends instant (updateStatus ctx o) fun (result, ctx') b' =>
      result = (b.answer instant (.updateStatus { ctx.cluster with
        status := o.apply ctx.now ctx.cluster.status })).1.map (fun _ => o.outcome) ∧
      b.Offers instant ctx (o.apply ctx.now ctx.cluster.status) ctx' b'.store := by
  simp only [Ends, updateStatus, callStore, Program.run_bind, Program.run_request, handle, Offers]
  cases hreply : (b.answer instant (.updateStatus { ctx.cluster with
      status := o.apply ctx.now ctx.cluster.status })).1 with
  | ok => exact ⟨rfl, rfl, store_answer_updateStatus hreply⟩
  | error error => exact ⟨rfl, rfl, store_answer_of_error hreply⟩

/-- A step that fails ends with its own failure, whatever becomes of the status write. -/
theorem ends_failStep (b : FaultyStore) (instant : Bool) (ctx : Context) (message : String) :
    b.Ends instant (failStep ctx message) fun (result, ctx') b' =>
      result = .error (.other message) ∧
      b.Offers instant ctx (ctx.cluster.status.failed message ctx.now) ctx' b'.store :=
  .bind (.bind ((b.ends_updateStatus instant ctx _).mono fun _ _ h => ⟨rfl, h.2⟩))

/-- A status that is offered to a store in step with the context leaves them in step. -/
theorem Offers.in_step {t : Store} (h : b.Offers instant ctx status ctx' t) {c : DbCluster}
    (hc : b.store.clusters ctx.cluster.resourceName = some c)
    (hstatus : c.status = ctx.cluster.status) :
    ∃ written, (written = c.status ∨ written = status) ∧
      ctx' = { ctx with cluster := { ctx.cluster with status := written } } ∧
      t.clusters ctx.cluster.resourceName = some { c with status := written } := by
  unfold Offers at h
  split at h
  · obtain ⟨hcontext, stored, hstored, rfl⟩ := h
    obtain rfl := Option.some.inj (hstored.symm.trans hc)
    exact ⟨status, .inr rfl, hcontext, Collection.put_self _ _ _⟩
  · obtain ⟨rfl, rfl⟩ := h
    exact ⟨c.status, .inl rfl, by rw [hstatus], hc⟩

end FaultyStore

/-- **A status is written on both sides or on neither, and a failing step tells its own
failure.**  Where store and context had the same status they still have, and it has changed
in phase, message and stamp at most. -/
theorem status_writes (instant : Bool) (b : FaultyStore) (ctx : Context) :
    (∀ o : StatusOptions, b.Ends instant (updateStatus ctx o) fun (result, ctx') b' =>
      result = (b.answer instant (.updateStatus { ctx.cluster with
        status := o.apply ctx.now ctx.cluster.status })).1.map (fun _ => o.outcome) ∧
      b.Offers instant ctx (o.apply ctx.now ctx.cluster.status) ctx' b'.store) ∧
    ∀ stage : Stage, b.Ends instant (stage.work ctx.cluster) fun problem b₁ =>
      b.Ends instant (stage.action ctx) fun (result, ctx') b₂ =>
        (problem = none → ∀ message, result ≠ .error (.other message)) ∧
        ∀ text, problem = some text →
          result = .error (.other (stage.complaint ++ text)) ∧
          b₁.store.clusters = b.store.clusters ∧
          b₁.Offers instant ctx (ctx.cluster.status.failed (stage.complaint ++ text) ctx.now) ctx'
            b₂.store ∧
          ∀ c, b.store.clusters ctx.cluster.resourceName = some c →
            c.status = ctx.cluster.status →
              ∃ status, (status = c.status ∨
                  status = c.status.failed (stage.complaint ++ text) ctx.now) ∧
                ctx' = { ctx with cluster := { ctx.cluster with status } } ∧
                b₂.store.clusters ctx.cluster.resourceName = some { c with status } := by
  refine ⟨b.ends_updateStatus instant ctx, fun stage => ?_⟩
  have hclusters : b.Ends instant (stage.work ctx.cluster) fun _ b₁ =>
      b₁.store.clusters = b.store.clusters :=
    .of_aloof (stage.aloof_work ctx.cluster) rfl fun hr hb =>
      ⟨(Store.clusters_perform hr _).trans hb, fun _ => hb⟩
  refine ⟨fun hnone => stage.run_action_ne _ ctx hnone, fun text htext => ?_⟩
  have hrun := stage.run_action (FaultyStore.handle instant) ctx (Prod.ext htext rfl)
  rw [hrun]
  obtain ⟨hresult, hoffers⟩ := FaultyStore.ends_failStep _ instant ctx (stage.complaint ++ text)
  refine ⟨hresult, hclusters, hoffers, fun c hc hstatus => ?_⟩
  obtain ⟨status, hchange, hcontext, hstored⟩ :=
    hoffers.in_step ((congrFun hclusters _).trans hc) hstatus
  rw [← hstatus] at hchange
  exact ⟨status, hchange, hcontext, hstored⟩

/-- The service cannot be created and the status not be written: the step still tells that the
service could not be created, and nothing has changed. -/
theorem status_writes_of_two_lost_calls :
    (FaultyStore.mk (Store.empty.insert .cluster (.scaling 3 5))
        [some (.other "no route"), some (.other "timeout")] []).Ends true
      (Stage.createService.action ⟨.scaling 3 5, .fresh, none, ⟨0⟩, .earliest⟩)
      fun (result, ctx') b =>
        result = .error (.other "Error ensuring the service exists: no route") ∧
        ctx' = ⟨.scaling 3 5, .fresh, none, ⟨0⟩, .earliest⟩ ∧
        b.store = Store.empty.insert .cluster (.scaling 3 5) := by
  obtain ⟨-, hfails⟩ := (status_writes true (FaultyStore.mk (Store.empty.insert .cluster
    (.scaling 3 5)) [some (.other "no route"), some (.other "timeout")] [])
      ⟨.scaling 3 5, .fresh, none, ⟨0⟩, .earliest⟩).2 .createService
  obtain ⟨hresult, -, hoffers, -⟩ := hfails "no route" rfl
  exact ⟨hresult, hoffers⟩

end Reconciliation
