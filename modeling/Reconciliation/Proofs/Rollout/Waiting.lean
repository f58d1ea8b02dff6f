/-
# How long a waiting cluster is left alone

A step that has to wait publishes the cluster as pending and asks to be called again.  The time
to wait is configured as a duration, but it travels through the status write as a number of
whole seconds (`Context.pendingSeconds`, `Outcome.retry`), so what is left of a second is lost:
the scheduler is told the interval that was configured exactly when that is a whole number of
seconds (`delay_of_pending`), and less than a second becomes no time at all.

Whatever answers the calls of a tick, `Publishes` says whether one of its status writes was
accepted and told a phase.
-/

import Reconciliation.Proofs.Rollout.Verdicts

namespace Reconciliation

/-! ## What is published, whatever answers -/

/-- The call writes a status of that phase, and is accepted. -/
def Request.Tells (phase : Phase) : (r : Request) → r.Reply → Prop
  | .updateStatus c, .ok () => c.status.phase = phase
  | _, _ => False

/-- Some call of the work writes a status of that phase, and is accepted. -/
def Publishes {σ : Type} (handle : (e : Effect) → σ → e.Reply × σ) (phase : Phase) {α : Type} :
    Work α → σ → Prop
  | .done _, _ => False
  | .ask (.call r) next, x => r.Tells phase (handle (.call r) x).1 ∨
      Publishes handle phase (next (handle (.call r) x).1) (handle (.call r) x).2
  | .ask (.sleep d) next, x =>
      Publishes handle phase (next (handle (.sleep d) x).1) (handle (.sleep d) x).2

section Publishes

variable {σ : Type} {handle : (e : Effect) → σ → e.Reply × σ} {phase : Phase} {α β : Type}

theorem publishes_bind (work : Work α) (next : α → Work β) (x : σ) :
    Publishes handle phase (work >>= next) x ↔ Publishes handle phase work x ∨
      Publishes handle phase (next (work.run handle x).1) (work.run handle x).2 := by
  induction work generalizing x with
  | done a => simp [Publishes]
  | ask effect rest ih =>
    cases effect with
    | call r => simp only [Program.ask_bind, Publishes, ih, Program.run, or_assoc]
    | sleep d => simp only [Program.ask_bind, Publishes, ih, Program.run]

/-- Work that makes no such status write publishes nothing of the kind. -/
theorem not_publishes_of_only {Q : α → Prop} {work : Work α}
    (h : Only (fun r => ∀ reply, ¬ r.Tells phase reply) Q work) (x : σ) :
    ¬ Publishes handle phase work x := by
  induction h generalizing x with
  | done => exact id
  | call hr _ ih => exact not_or_intro (hr _) (ih _ _)
  | sleep _ ih => exact ih _

/-- Calls about other kinds publish nothing. -/
theorem Request.not_tells_of_kind_ne {r : Request} (h : r.kind ≠ .cluster) (reply : r.Reply) :
    ¬ r.Tells phase reply := by
  cases r with
  | updateStatus => exact absurd rfl h
  | get | create | update => exact id

theorem not_publishes_of_aloof {work : Work α} (h : Aloof work) (x : σ) :
    ¬ Publishes handle phase work x :=
  not_publishes_of_only ((Only.of_aloof h).widen fun _ => Request.not_tells_of_kind_ne) x

theorem Request.tells_of_isOk {name : ResourceName} {r : Request} {reply : r.Reply}
    (hok : reply.isOk = true) (h : r.phase? name = some phase) : r.Tells phase reply := by
  cases r with
  | get | create | update => cases h
  | updateStatus c =>
    cases reply with
    | error error => cases hok
    | ok =>
      simp only [Request.phase?] at h
      split at h
      · exact Option.some.inj h
      · cases h

/-- What is published while nobody disturbs the work is published by a call that is accepted. -/
theorem publishes_of_mem_published {instant : Bool} {name : ResourceName} {work : Work α}
    {s : Store} (h : phase ∈ Store.published instant name work s) :
    Publishes (Store.handle instant false) phase work s := by
  induction work generalizing s with
  | done => cases h
  | ask effect rest ih =>
    cases effect with
    | sleep d => exact ih _ h
    | call r =>
      rw [Store.published, List.mem_append] at h
      refine h.imp (fun h => ?_) fun h => ih _ h
      split at h
      · rename_i hok
        exact Request.tells_of_isOk hok (Option.mem_toList.1 h)
      · cases h

/-- A status write publishes no other phase than its own. -/
theorem not_publishes_updateStatus {ctx : Context} {o : StatusOptions}
    (ho : (o.apply ctx.now ctx.cluster.status).phase ≠ phase) (x : σ) :
    ¬ Publishes handle phase (updateStatus ctx o) x := by
  refine not_publishes_of_only (Q := fun _ => True) (.bind (.callStore ?_ fun reply => ?_)) x
  · intro reply
    cases reply with
    | ok => exact ho
    | error error => exact id
  · cases reply <;> exact .done trivial

/-- A status write that publishes something has the outcome that goes with it. -/
theorem run_updateStatus_of_publishes {ctx : Context} {o : StatusOptions} {x : σ}
    (h : Publishes handle phase (updateStatus ctx o) x) :
    ((updateStatus ctx o).run handle x).1.1 = .ok o.outcome := by
  have hask : updateStatus ctx o = .ask (.call (.updateStatus { ctx.cluster with
      status := o.apply ctx.now ctx.cluster.status })) _ := rfl
  rw [hask, Publishes] at h
  rw [hask, Program.run]
  cases hreply : (handle (.call (.updateStatus { ctx.cluster with
      status := o.apply ctx.now ctx.cluster.status })) x).1 with
  | ok => rfl
  | error error =>
    rw [hreply] at h
    exact h.elim False.elim False.elim

/-- Remembering the spec publishes nothing. -/
theorem not_publishes_recordAppliedSpec (ctx : Context) (x : σ) :
    ¬ Publishes handle phase (recordAppliedSpec ctx) x := by
  refine not_publishes_of_only (Q := fun _ => True)
    (.bind (.callStore (fun _ => id) fun reply => ?_)) x
  cases reply <;> exact .done trivial

end Publishes

/-! ## Steps that wait -/

section Waits

variable {σ : Type} (handle : (e : Effect) → σ → e.Reply × σ)

/-- An action that publishes the cluster as pending succeeds, and asks for a retry after so many
seconds. -/
def Waits (seconds : Nat) (work : Work (Except Failure Outcome × Context)) : Prop :=
  ∀ x, Publishes handle .pending work x → (work.run handle x).1.1 = .ok (.retry seconds)

variable {handle} {seconds : Nat} {ctx : Context} {x : σ}

namespace Waits

theorem of_not_publishes {work : Work (Except Failure Outcome × Context)}
    (h : ∀ x, ¬ Publishes handle .pending work x) : Waits handle seconds work :=
  fun x hpublishes => absurd hpublishes (h x)

/-- After work that does not publish anything, what comes next decides. -/
theorem bind {α : Type} {work : Work α} {next : α → Work (Except Failure Outcome × Context)}
    (hwork : Aloof work) (hnext : ∀ a, Waits handle seconds (next a)) :
    Waits handle seconds (work >>= next) := by
  intro x hpublishes
  rw [Program.run_bind]
  exact hnext _ _ (((publishes_bind _ _ _).1 hpublishes).resolve_left
    (not_publishes_of_aloof hwork x))

theorem going (result : Except Failure Outcome) (ctx : Context) :
    Waits handle seconds (.done (result, ctx)) :=
  of_not_publishes fun _ => id

/-- A status write that was accepted has the outcome that goes with it. -/
theorem publishStatus {o : StatusOptions} (ho : o.outcome = .retry seconds) :
    Waits handle seconds (publishStatus ctx o) := by
  intro x hpublishes
  rw [Reconciliation.publishStatus, publishes_bind] at hpublishes
  have hresult := run_updateStatus_of_publishes (hpublishes.resolve_right id)
  rw [Reconciliation.publishStatus, Program.run_bind]
  generalize ((updateStatus ctx o).run handle x).1 = written at hresult ⊢
  obtain ⟨result, left⟩ := written
  cases hresult
  rw [ho]
  rfl

theorem waitStep (h : ctx.pendingSeconds = seconds) (reason : String) :
    Waits handle seconds (waitStep ctx reason) :=
  publishStatus (congrArg Outcome.retry h)

/-- A step that fails publishes the cluster as failed. -/
theorem failStep (message : String) : Waits handle seconds (failStep ctx message) := by
  refine of_not_publishes fun x => ?_
  simp only [Reconciliation.failStep, failWithStatus, publishes_bind, not_or]
  exact ⟨⟨not_publishes_updateStatus (o := (StatusOptions.unchanged.withMessage .error
    message).withFailed) (by decide : Phase.failed ≠ .pending) x, id⟩, id⟩

end Waits

/-- **Every action waits for the seconds of the context.** -/
theorem Stage.waits_action (stage : Stage) (ctx : Context) :
    Waits handle ctx.pendingSeconds (stage.action ctx) := by
  cases stage with
  | startFresh => exact .going _ _
  | validateSpec =>
    simp only [action, validateSpecStep]
    split
    · exact .failStep _
    · exact .going _ _
  | createService =>
    refine .bind (Aloof.callStore (r := .create .service (wantedService ctx.cluster))
      Kind.noConfusion) fun reply => ?_
    cases reply with
    | ok => exact .going _ _
    | error error =>
      dsimp only
      split
      · exact .going _ _
      · exact .failStep _
  | tlsValidation =>
    refine .bind (Aloof.tlsObjectsValid _) fun valid => ?_
    rcases valid with error | (_ | _)
    · exact .failStep _
    · exact .waitStep rfl _
    · exact .going _ _
  | createTlsResources =>
    refine .bind (Aloof.ensureOperatorSecret _) fun result => ?_
    cases result with
    | error error => exact .failStep _
    | ok => exact .going _ _
  | deployAutomationConfig =>
    refine .bind (Aloof.publishAutomationConfig _) fun result => ?_
    cases result with
    | error error => exact .failStep _
    | ok published =>
      dsimp only
      split
      · exact .going _ _
      · exact .waitStep rfl _
  | deployWorkload =>
    refine .bind (Aloof.ensureWorkload _) fun result => ?_
    cases result with
    | error error => exact .failStep _
    | ok workload =>
      dsimp only
      split
      · exact .going _ _
      · exact .waitStep rfl _
  | resetUpdateStrategy =>
    refine .bind (Aloof.resetStrategy _) fun result => ?_
    cases result with
    | error error => exact .failStep _
    | ok workload => exact .going _ _
  | updateStatus =>
    simp only [action, updateStatusStep]
    split
    · exact .publishStatus rfl
    · refine .of_not_publishes fun x => ?_
      simp only [publishes_bind, not_or]
      refine ⟨not_publishes_updateStatus (o := runningStatus ctx)
        (by decide : Phase.running ≠ .pending) x, ?_⟩
      generalize ((Reconciliation.updateStatus ctx (runningStatus ctx)).run handle x).1 = written
      obtain ⟨error | outcome, left⟩ := written
      · exact id
      · rw [publishes_bind]
        exact not_or_intro (not_publishes_recordAppliedSpec _ _) id
  | reconciliationEnd =>
    refine .of_not_publishes (not_publishes_of_only (Q := fun _ => True)
      (.bind (.callStore (r := .update .cluster _) (fun _ => id) fun reply => ?_)))
    cases reply <;> exact .done trivial

end Waits

/-! ## Calls that wait -/

namespace Reconciler

variable {r : Reconciler} {σ : Type} {handle : (e : Effect) → σ → e.Reply × σ} {now : Timestamp}
  {name : ResourceName} {phase : Phase} {x : σ}

/-- What is observed comes with the time to wait. -/
theorem pendingRequeue_of_observe {c : DbCluster} {d : Duration} {ctx : Context}
    (h : ((Context.observe c d now).run.run handle x).1 = .ok ctx) : ctx.pendingRequeue = d := by
  rw [Context.observe, ExceptT.run_bind, Program.run_bind] at h
  cases hfound : ((findResource .workload c.resourceName).run.run handle x).1 with
  | error error =>
    rw [hfound] at h
    cases h
  | ok found =>
    rw [hfound] at h
    cases h
    rfl

/-- **What a call publishes the action of a stage publishes**, on what is observed of the
cluster. -/
theorem exists_action_of_publishes (hr : r.pacer.Silent)
    (h : Publishes handle phase (r.reconcile now name) x) :
    ∃ (c : DbCluster) (stage : Stage) (ctx : Context) (y z : σ),
      (callStore (.get .cluster name)).run handle x = (.ok c, y) ∧
      resumeStage c = .ok stage ∧
      (Context.observe c r.pendingRequeue now).run.run handle y = (.ok ctx, z) ∧
      Publishes handle phase (stage.action ctx) z ∧
      (r.reconcile now name).run handle x =
        (runStage c.resourceName stage ctx >>= r.conclude).run handle z := by
  have hquiet : ∀ {α : Type} {Q : α → Prop} {work : Work α} {y : σ},
      Only (fun r => ∀ reply, ¬ r.Tells phase reply) Q work → ¬ Publishes handle phase work y :=
    fun h => not_publishes_of_only h _
  rw [reconcile_eq, publishes_bind] at h
  replace h := h.resolve_right (hquiet (.conclude (fun _ _ _ => id) (fun _ _ => id) hr _))
  rw [attempt, publishes_bind] at h
  replace h := h.resolve_left
    (hquiet (.callStore (r := .get .cluster name) (fun _ => id) fun _ => trivial))
  rw [reconcile_eq, Program.run_bind, attempt, Program.run_bind]
  generalize hread : (callStore (.get .cluster name)).run handle x = read at h ⊢
  obtain ⟨error | c, y⟩ := read
  · exact h.elim
  cases hstage : resumeStage c with
  | error error =>
    simp only [hstage] at h
    exact h.elim
  | ok stage =>
    simp only [hstage] at h ⊢
    rw [publishes_bind] at h
    replace h := h.resolve_left (hquiet (.observe (fun _ _ _ => id) c r.pendingRequeue now))
    rw [Program.run_bind]
    generalize hobserved : (Context.observe c r.pendingRequeue now).run.run handle y = observed
      at h ⊢
    obtain ⟨error | ctx, z⟩ := observed
    · exact h.elim
    refine ⟨c, stage, ctx, y, z, rfl, hstage, hobserved, ?_, (Program.run_bind ..).symm⟩
    replace h : Publishes handle phase (runStage c.resourceName stage ctx) z := h
    rw [runStage, publishes_bind] at h
    refine h.resolve_right fun hafter => ?_
    -- the check and what is made of its verdict write no status
    generalize (stage.action ctx).run handle z = acted at hafter
    obtain ⟨⟨cause | outcome, left⟩, u⟩ := acted
    · exact hafter
    · rw [publishes_bind] at hafter
      replace hafter := hafter.resolve_left (hquiet (.isComplete (fun _ _ _ => id) stage left))
      split at hafter <;> exact hafter

/-- A call has the outcome of its action, if it has one at all. -/
theorem outcome_of_runStage {key : ResourceName} {stage : Stage} {ctx : Context}
    {o outcome : Outcome}
    (haction : ((stage.action ctx).run handle x).1.1 = .ok o)
    (h : ((runStage key stage ctx >>= r.conclude).run handle x).1.result = .ok outcome) :
    outcome = o := by
  rw [runStage, Program.run_bind, Program.run_bind] at h
  generalize ((stage.action ctx).run handle x) = acted at h haction
  obtain ⟨⟨result, left⟩, y⟩ := acted
  cases haction
  simp only [Program.run_bind] at h
  generalize ((stage.isComplete left).run handle y) = judged at h
  obtain ⟨cause | (_ | _), z⟩ := judged
  · cases h
  · cases h
    rfl
  · simp only [Program.pure_eq, Program.run_done, conclude, Program.run_bind] at h
    generalize (saveNextState key (nextName (stage.next? left))).run handle
      (r.pacer.before.run handle z).2 = saved at h
    obtain ⟨cause | done, u⟩ := saved
    · cases h
    · simp only [Program.run_bind] at h
      cases h
      rfl

/-- **A call that publishes the cluster as pending has no other outcome than a retry** after the
whole seconds of the time to wait. -/
theorem outcome_of_publishes (hr : r.pacer.Silent)
    (h : Publishes handle .pending (r.reconcile now name) x) {outcome : Outcome}
    (hresult : ((r.reconcile now name).run handle x).1.result = .ok outcome) :
    outcome = .retry r.pendingRequeue.seconds := by
  obtain ⟨c, stage, ctx, y, z, -, -, hobserved, hpublishes, hrun⟩ := exists_action_of_publishes hr h
  have hpending : ctx.pendingRequeue = r.pendingRequeue :=
    pendingRequeue_of_observe (congrArg Prod.fst hobserved)
  rw [hrun] at hresult
  have houtcome := outcome_of_runStage (stage.waits_action ctx z hpublishes) hresult
  rwa [Context.pendingSeconds, hpending] at houtcome

/-- With nobody else around, such a call has an outcome. -/
theorem exists_outcome_of_publishes (hr : r.pacer.Silent) {instant : Bool} {s : Store}
    (hnamed : s.WellNamed)
    (h : Publishes (Store.handle instant false) .pending (r.reconcile now name) s) :
    ∃ outcome, ((r.reconcile now name).run (Store.handle instant false) s).1.result =
      .ok outcome := by
  obtain ⟨c, stage, ctx, y, z, hread, hstage, hobserved, hpublishes, -⟩ :=
    exists_action_of_publishes hr h
  rw [callStore, Program.run_request, Store.handle_get] at hread
  obtain ⟨hreply, rfl⟩ := Prod.mk.inj hread
  have hstored : s.clusters name = some c := Scene.Leads.eq_some_of_reply hreply
  obtain rfl : c.resourceName = name := hnamed .cluster name c hstored
  rw [Context.run_observe] at hobserved
  obtain ⟨hctx, rfl⟩ := Prod.mk.inj hobserved
  obtain rfl := Except.ok.inj hctx
  obtain ⟨outcome, complete, left, t, hjudged, -⟩ := stage.exists_judged_agreeing
    hnamed hstored rfl (stage.waits_action _ _ hpublishes)
  replace hjudged : stage.Judged instant s (r.seen now s c) outcome complete left t := hjudged
  obtain ⟨ending, u, d, hrun, hresult, -⟩ := hjudged.resumes hr hstored hstage
  refine ⟨outcome, ?_⟩
  rw [hrun, Conclusion.result, hresult]
  rfl

end Reconciler

/-- Whole seconds are all of a duration exactly when nothing is left of a second. -/
theorem Duration.ofSeconds_seconds_eq_iff (d : Duration) :
    Duration.ofSeconds d.seconds = d ↔ d.subsecond = 0 := by
  obtain ⟨n⟩ := d
  simp only [ofSeconds, seconds, subsecond, Duration.mk.injEq]
  omega

/-- **A waiting cluster is left alone for the whole seconds of the interval**: whatever answers
the calls, an outcome of a tick that publishes the cluster as pending asks for them, which is
the interval that was configured exactly when that is a whole number of seconds.  With nobody
else around there is an outcome. -/
theorem delay_of_pending {r : Reconciler} (hr : r.pacer.Silent) (now : Timestamp)
    (name : ResourceName) :
    (∀ {σ : Type} (handle : (e : Effect) → σ → e.Reply × σ) (x : σ) (outcome : Outcome),
      Publishes handle .pending (r.reconcile now name) x →
      ((r.reconcile now name).run handle x).1.result = .ok outcome →
        outcome.delay? = some (.ofSeconds r.pendingRequeue.seconds) ∧
        (outcome.delay? = some r.pendingRequeue ↔ r.pendingRequeue.subsecond = 0)) ∧
    ∀ (instant : Bool) (operations : List Operation),
      Publishes (Store.handle instant false) .pending (r.reconcile now name)
        (Store.after instant operations) →
      ∃ outcome, ((r.reconcile now name).run (Store.handle instant false)
        (Store.after instant operations)).1.result = .ok outcome := by
  refine ⟨fun handle x outcome hpublishes hresult => ?_, fun instant operations hpublishes =>
    Reconciler.exists_outcome_of_publishes hr (Store.wellNamed_after instant operations) hpublishes⟩
  obtain rfl := Reconciler.outcome_of_publishes hr hpublishes hresult
  rw [Outcome.delay?_retry]
  exact ⟨rfl, (Option.some_inj).trans (Duration.ofSeconds_seconds_eq_iff _)⟩

/-! ## A cluster that is being scaled -/

/-- A call on a cluster that is still to be scaled publishes it as pending. -/
theorem Reconciler.publishes_publishing {r : Reconciler} (hr : r.pacer.Silent) :
    Publishes (Store.handle false false) .pending (r.reconcile .earliest ⟨"db", "example"⟩)
      (Store.after false [.putCluster .publishing]) := by
  have hstored : (Store.after false [.putCluster .publishing]).clusters
      DbCluster.publishing.resourceName = some .publishing := rfl
  have hstage : resumeStage .publishing = .ok .updateStatus := by
    rw [resumeStage_of_record progressRecord_publishing]
    rfl
  have hcall : Store.published false ⟨"db", "example"⟩ (r.reconcile .earliest ⟨"db", "example"⟩)
      (Store.after false [.putCluster .publishing]) = [.pending] :=
    (published_reconcile .earliest hr hstored hstage).trans rfl
  exact publishes_of_mem_published (hcall ▸ List.mem_singleton_self _)

/-- By default it is left alone for ten seconds. -/
theorem delay_of_pending_by_default : ∃ outcome,
    ((Reconciler.standard.reconcile .earliest ⟨"db", "example"⟩).run (Store.handle false false)
      (Store.after false [.putCluster .publishing])).1.result = .ok outcome ∧
    outcome.delay? = some (.ofSeconds 10) := by
  have hpublishes := Reconciler.publishes_publishing (r := .standard) Pacer.silent_none
  obtain ⟨hdelay, hreturns⟩ := delay_of_pending (r := .standard) Pacer.silent_none .earliest
    ⟨"db", "example"⟩
  obtain ⟨outcome, hresult⟩ := hreturns false _ hpublishes
  obtain ⟨-, hexact⟩ := hdelay _ _ outcome hpublishes hresult
  exact ⟨outcome, hresult, hexact.2 rfl⟩

/-- It is not true that a waiting cluster is always left alone for as long as was configured: a
scheduler that is to wait for half a second is told to call again at once. -/
theorem not_forall_delay_of_pending :
    ¬ ∀ {r : Reconciler}, r.pacer.Silent → ∀ (now : Timestamp) (name : ResourceName)
      (instant : Bool) (operations : List Operation) (outcome : Outcome),
      Publishes (Store.handle instant false) .pending (r.reconcile now name)
        (Store.after instant operations) →
      ((r.reconcile now name).run (Store.handle instant false)
        (Store.after instant operations)).1.result = .ok outcome →
      outcome.delay? = some r.pendingRequeue := by
  intro h
  have hr : (Reconciler.standard.withPendingRequeue (.ofMilliseconds 500)).pacer.Silent :=
    Pacer.silent_none
  have hpublishes := Reconciler.publishes_publishing hr
  obtain ⟨outcome, hresult⟩ := Reconciler.exists_outcome_of_publishes hr
    (Store.wellNamed_after false _) hpublishes
  have hdelay := h hr .earliest ⟨"db", "example"⟩ false _ outcome hpublishes hresult
  rw [Reconciler.outcome_of_publishes hr hpublishes hresult] at hdelay
  exact absurd hdelay (by decide)

end Reconciliation
