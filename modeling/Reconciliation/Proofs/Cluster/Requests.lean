/-
# The requests of a stage

Which requests a stage can make is plain from the stage alone, whatever the replies are:
`Stage.May` lists them, with the objects that are written.  Work that makes only such
requests is guarded as soon as each of them passes the gate and keeps what the gate
relies on (`Guarded.of_only`), so most stages need not be followed in a store at all.
-/

import Reconciliation.Proofs.Cluster.Moments
import Reconciliation.Proofs.Cluster.Step
import Reconciliation.Proofs.Cluster.Writes

namespace Reconciliation

/-! ## Work that makes only some requests -/

/-- Work that makes only allowed requests, whatever the replies are, and ends with `Q`. -/
inductive Only (allowed : Request → Prop) {α : Type} (Q : α → Prop) : Work α → Prop
  | done {a : α} (h : Q a) : Only allowed Q (.done a)
  | call {r : Request} {next : r.Reply → Work α} (h : allowed r)
      (rest : ∀ reply, Only allowed Q (next reply)) : Only allowed Q (.ask (.call r) next)
  | sleep {d : Duration} {next : Unit → Work α} (rest : Only allowed Q (next ())) :
      Only allowed Q (.ask (.sleep d) next)

namespace Only

variable {allowed : Request → Prop} {α β : Type}

/-- Work may be allowed more and may end with less. -/
theorem imp {wider : Request → Prop} {P Q : α → Prop} {work : Work α} (h : Only allowed Q work)
    (hallowed : ∀ r, allowed r → wider r) (hends : ∀ a, Q a → P a) : Only wider P work := by
  induction h with
  | done h => exact .done (hends _ h)
  | call h _ ih => exact .call (hallowed _ h) ih
  | sleep _ ih => exact .sleep ih

/-- Work may end with less. -/
theorem mono {P Q : α → Prop} {work : Work α} (h : Only allowed Q work) (hends : ∀ a, Q a → P a) :
    Only allowed P work :=
  h.imp (fun _ => id) hends

/-- Work may be allowed more. -/
theorem widen {wider : Request → Prop} {Q : α → Prop} {work : Work α} (h : Only allowed Q work)
    (hallowed : ∀ r, allowed r → wider r) : Only wider Q work :=
  h.imp hallowed fun _ => id

/-- The second piece may make the same requests, whatever the first one gave. -/
theorem bind {Q : β → Prop} {work : Work α} {next : α → Work β}
    (h : Only allowed (fun a => Only allowed Q (next a)) work) :
    Only allowed Q (work >>= next) := by
  induction h with
  | done h => exact h
  | call h _ ih => exact .call h ih
  | sleep _ ih => exact .sleep ih

/-- After an error the second piece makes no request, and the work ends with the error. -/
theorem run_bind {Q : Except StoreError β → Prop} {work : StoreWork α} {next : α → StoreWork β}
    (h : Only allowed (fun x =>
      match x with
      | .ok a => Only allowed Q (next a).run
      | .error error => Q (.error error)) work.run) : Only allowed Q (work >>= next).run := by
  rw [ExceptT.run_bind]
  refine bind (h.mono fun x hx => ?_)
  cases x with
  | ok a => exact hx
  | error error => exact .done hx

/-- One request, with any reply. -/
theorem callStore {r : Request} {Q : r.Reply → Prop} (h : allowed r) (hQ : ∀ reply, Q reply) :
    Only allowed Q (callStore r) := .call h fun reply => .done (hQ reply)

/-- Looking up is one request, whatever becomes of it. -/
theorem findResource {kind : Kind} {name : ResourceName}
    {Q : Except StoreError (Option kind.Object) → Prop} (h : allowed (.get kind name))
    (hQ : ∀ x, Q x) : Only allowed Q (findResource kind name).run := by
  refine bind (callStore (r := .get kind name) h fun reply => ?_)
  cases reply with
  | ok object => exact .done (hQ _)
  | error error =>
    dsimp only
    split <;> exact .done (hQ _)

/-- Under a taken name a second request follows, which has to be allowed as well. -/
theorem createOrUpdate {kind : Kind} {object : kind.Object} {Q : Except StoreError Unit → Prop}
    (hcreate : allowed (.create kind object)) (hupdate : allowed (.update kind object))
    (hQ : ∀ x, Q x) : Only allowed Q (createOrUpdate kind object).run := by
  refine bind (callStore (r := .create kind object) hcreate fun reply => ?_)
  cases reply with
  | ok => exact .done (hQ _)
  | error error =>
    dsimp only
    split
    · exact callStore (r := .update kind object) hupdate hQ
    · exact .done (hQ _)

/-- Pacers make no requests. -/
theorem of_onlySleeps {Q : Unit → Prop} {work : Work Unit} (h : OnlySleeps work) (hQ : Q ()) :
    Only allowed Q work := by
  induction h with
  | done => exact .done hQ
  | sleep d _ ih => exact .sleep ih

/-- Aloof work makes no request about clusters. -/
theorem of_aloof {work : Work α} (h : Aloof work) :
    Only (fun r => r.kind ≠ .cluster) (fun _ => True) work := by
  induction h with
  | done => exact .done trivial
  | call hkind _ ih => exact .call hkind ih
  | sleep _ ih => exact .sleep ih

end Only

/-- What others keep they keep however often they change the store. -/
theorem Surroundings.Drifts.keeps {around : Surroundings} {Keeps : Store → Prop} {s t : Store}
    (hdrift : around.Drifts s t) (hothers : ∀ {t u}, Keeps t → around.others t u → Keeps u)
    (hs : Keeps s) : Keeps t := by
  induction hdrift with
  | refl => exact hs
  | tail _ change ih => exact hothers ih change

/-- **Work that makes only allowed requests is guarded**, if each of them passes the gate
and, like whatever others do, keeps what the gate relies on. -/
theorem Guarded.of_only {around : Surroundings} {gate : Request → Store → Prop}
    {allowed : Request → Prop} {Keeps : Store → Prop} {α : Type} {Q : α → Prop} {work : Work α}
    {s : Store} (h : Only allowed Q work) (hs : Keeps s)
    (hothers : ∀ {t u}, Keeps t → around.others t u → Keeps u)
    (hcall : ∀ {r t}, allowed r → Keeps t → gate r t ∧ Keeps (t.perform around.instant r).2) :
    Guarded around gate (fun a t => Q a ∧ Keeps t) work s := by
  induction h generalizing s with
  | done h => exact fun u hu => ⟨h, hu.keeps hothers hs⟩
  | call h _ ih =>
    intro u hu
    have hu := hu.keeps hothers hs
    obtain ⟨hgate, hkept⟩ := hcall h hu
    exact ⟨hgate, ih _ hkept, fun _ _ => ih _ hu⟩
  | sleep _ ih => exact ih hs

/-- What the replies do not matter for holds in any surroundings. -/
theorem Only.guarded {around : Surroundings} {allowed : Request → Prop} {α : Type} {Q : α → Prop}
    {work : Work α} (h : Only allowed Q work) (s : Store) :
    Guarded around (fun _ _ => True) (fun a _ => Q a) work s := by
  have hguarded : Guarded around (fun _ _ => True) (fun a _ => Q a ∧ True) work s :=
    .of_only h trivial (fun _ _ => trivial) fun _ _ => ⟨trivial, trivial⟩
  exact hguarded.mono fun _ _ h => h.1

/-- Looking around changes nothing. -/
theorem Guarded.of_lookups {around : Surroundings} {gate : Request → Store → Prop}
    {Keeps : Store → Prop} {α : Type} {Q : α → Prop} {work : Work α} {s : Store}
    (h : Only (fun r => r.writes? = none) Q work) (hs : Keeps s)
    (hlookup : ∀ kind name t, gate (.get kind name) t)
    (hothers : ∀ {t u}, Keeps t → around.others t u → Keeps u) :
    Guarded around gate (fun a t => Q a ∧ Keeps t) work s := by
  refine .of_only h hs hothers fun {r t} hr ht => ?_
  cases r with
  | get kind name =>
    have hsame : (t.perform around.instant (.get kind name)).2 = t := by
      simp only [Store.perform]
      split <;> rfl
    exact ⟨hlookup kind name t, by rwa [hsame]⟩
  | create | update | updateStatus => cases hr

/-! ## What a stage may request -/

/-- The requests that a stage can make when the cluster was read as `c`. -/
def Stage.May (stage : Stage) (c : DbCluster) : Request → Prop
  | .get _ _ => True
  | .updateStatus new => new.Agrees c
  | .update .cluster new => new.Agrees c ∧ (stage = .reconciliationEnd ∨
      stage = .updateStatus ∧ progressRecord new = progressRecord c)
  | .create .service service => stage = .createService ∧ service = wantedService c
  | .create .secret secret => stage = .createTlsResources ∧
      secret.name = c.operatorSecretName ∧ secret.data.contains pemKey = true
  | .update .secret secret => stage = .createTlsResources ∧
      secret.name = c.operatorSecretName ∧ secret.data.contains pemKey = true
  | .create .automationConfig config =>
      stage = .deployAutomationConfig ∧ config.name = c.resourceName
  | .update .automationConfig config =>
      stage = .deployAutomationConfig ∧ config.name = c.resourceName
  | .create .workload w => stage = .deployWorkload ∧ w = wantedWorkload c
  | .update .workload w =>
      (stage = .deployWorkload ∧ w = wantedWorkload c) ∨ stage = .resetUpdateStrategy
  | _ => False

/-- An annotation that is none of the progress leaves the record alone. -/
theorem progressRecord_annotate (c : DbCluster) {key : String} (hkey : key ≠ progressAnnotation)
    (value : String) : progressRecord (c.annotate key value) = progressRecord c := by
  refine progressRecord_congr ?_
  simp [progressText?, DbCluster.annotate, Metadata.annotate, hkey]

/-- Remembering the applied spec leaves the record alone. -/
theorem progressRecord_withAppliedSpec (c : DbCluster) :
    progressRecord (withAppliedSpec c) = progressRecord c :=
  (progressRecord_annotate _ (by decide) _).trans (progressRecord_annotate c (by decide) _)

namespace Only

variable {stage : Stage} {c : DbCluster} {ctx : Context}

/-! ## Ends of actions -/

/-- What an action leaves behind: the context holds the copy, but for what the reconciler
writes in it, and only the end of a pass is done. -/
structure Leaves (stage : Stage) (c : DbCluster) (x : Except Failure Outcome × Context) :
    Prop where
  agrees : x.2.cluster.Agrees c
  done : x.1 = .ok .done → stage = .reconciliationEnd

/-- Writing a status is one request, and keeps the record of the copy. -/
theorem updateStatus (hctx : ctx.cluster.Agrees c) (o : StatusOptions) :
    Only (stage.May c) (fun x => x.2.cluster.Agrees c ∧
        progressRecord x.2.cluster = progressRecord ctx.cluster ∧
        ∀ outcome, x.1 = .ok outcome → outcome = o.outcome)
      (Reconciliation.updateStatus ctx o) := by
  have hwritten := (ctx.cluster.agrees_withStatus (o.apply ctx.now ctx.cluster.status)).trans hctx
  refine .call hwritten fun reply => ?_
  cases reply with
  | ok => exact .done ⟨hwritten, rfl, fun _ h => (Except.ok.inj h).symm⟩
  | error error => exact .done ⟨hctx, rfl, nofun⟩

/-- A stage that publishes a status which is not the last one of a pass is not done. -/
theorem publishStatus (hctx : ctx.cluster.Agrees c) {o : StatusOptions}
    (ho : o.outcome ≠ .done) :
    Only (stage.May c) (Leaves stage c) (Reconciliation.publishStatus ctx o) := by
  refine bind ((updateStatus hctx o).mono fun (result, ctx') ⟨hagrees, _, houtcome⟩ => ?_)
  refine .done ⟨hagrees, fun hdone => ?_⟩
  cases result with
  | error error => cases hdone
  | ok outcome => exact absurd ((houtcome _ rfl).symm.trans (Except.ok.inj hdone)) ho

/-- A stage that waits will be run again, so it is not done. -/
theorem waitStep (hctx : ctx.cluster.Agrees c) (reason : String) :
    Only (stage.May c) (Leaves stage c) (Reconciliation.waitStep ctx reason) :=
  publishStatus hctx (Scene.Leads.retry_ne_done _)

/-- A stage that fails gives a failure, whatever becomes of its status. -/
theorem failStep (hctx : ctx.cluster.Agrees c) (message : String) :
    Only (stage.May c) (fun x => x.2.cluster.Agrees c ∧ ∃ failure, x.1 = .error failure)
      (Reconciliation.failStep ctx message) :=
  bind (bind ((updateStatus hctx _).mono fun _ h => .done (.done ⟨h.1, _, rfl⟩)))

/-- A step that fails is not done. -/
theorem fails (hctx : ctx.cluster.Agrees c) (message : String) :
    Only (stage.May c) (Leaves stage c) (Reconciliation.failStep ctx message) := by
  refine (failStep hctx message).mono fun x ⟨hagrees, failure, hfailure⟩ => ⟨hagrees, ?_⟩
  intro hdone
  cases hfailure.symm.trans hdone

/-! ## Actions -/

/-- The objects of TLS are only looked up. -/
theorem tlsObjectsValid {allowed : Request → Prop} (hget : ∀ kind name, allowed (.get kind name))
    {Q : Except StoreError Bool → Prop} (hQ : ∀ x, Q x) (cluster : DbCluster) :
    Only allowed Q (Reconciliation.tlsObjectsValid cluster).run := by
  refine .run_bind (.findResource (hget _ _) fun found => ?_)
  rcases found with error | (_ | secret)
  · exact hQ _
  · exact .done (hQ _)
  · dsimp only
    split
    · refine .run_bind (.findResource (hget _ _) fun found => ?_)
      rcases found with error | (_ | configMap)
      · exact hQ _
      · exact .done (hQ _)
      · exact .done (hQ _)
    · exact .done (hQ _)

/-- The config that is written goes by the name of the cluster. -/
theorem ensureAutomationConfig {Q : Except StoreError AutomationConfig → Prop}
    (hQ : ∀ x, Q x) :
    Only (Stage.May .deployAutomationConfig c) Q (Reconciliation.ensureAutomationConfig c).run := by
  unfold Reconciliation.ensureAutomationConfig
  refine .run_bind (.findResource (by trivial) fun found => ?_)
  rcases found with error | (_ | existing)
  · exact hQ _
  · refine .run_bind (.callStore (r := .create .automationConfig _) ⟨rfl, rfl⟩ fun reply => ?_)
    cases reply with
    | ok => exact .done (hQ _)
    | error error => exact hQ _
  · dsimp only
    split
    · exact .done (hQ _)
    · refine .run_bind (.callStore (r := .update .automationConfig _) ⟨rfl, rfl⟩ fun reply => ?_)
      cases reply with
      | ok => exact .done (hQ _)
      | error error => exact hQ _

/-- Publishing the config writes nothing else. -/
theorem publishAutomationConfig {Q : Except StoreError (AutomationConfig × Option Workload) →
    Prop} (hQ : ∀ x, Q x) :
    Only (Stage.May .deployAutomationConfig c) Q
      (Reconciliation.publishAutomationConfig c).run := by
  refine .run_bind (ensureAutomationConfig fun config => ?_)
  cases config with
  | error error => exact hQ _
  | ok config =>
    refine .run_bind (.findResource (by trivial) fun workload => ?_)
    cases workload with
    | error error => exact hQ _
    | ok workload => exact .done (hQ _)

/-- The wanted workload is written, and read back. -/
theorem ensureWorkload {Q : Except StoreError Workload → Prop} (hQ : ∀ x, Q x) :
    Only (Stage.May .deployWorkload c) Q (Reconciliation.ensureWorkload c).run := by
  refine run_bind (createOrUpdate ⟨rfl, rfl⟩ (.inl ⟨rfl, rfl⟩) fun x => ?_)
  cases x with
  | error error => exact hQ _
  | ok => exact .callStore (r := .get .workload _) trivial hQ

/-- The workload that was found is written back, with another strategy. -/
theorem resetStrategy {Q : Except StoreError Workload → Prop} (hQ : ∀ x, Q x) :
    Only (Stage.May .resetUpdateStrategy c) Q (Reconciliation.resetStrategy c).run := by
  refine .run_bind (.callStore (r := .get .workload _) trivial fun reply => ?_)
  cases reply with
  | error error => exact hQ _
  | ok workload =>
    dsimp only
    split
    · exact .done (hQ _)
    · refine .run_bind (.callStore (r := .update .workload _) (.inr rfl) fun reply => ?_)
      cases reply with
      | error error => exact hQ _
      | ok => exact .done (hQ _)

/-- What is written to the operator secret has the certificate in it. -/
theorem ensureOperatorSecret {Q : Except StoreError Unit → Prop} (hQ : ∀ x, Q x) :
    Only (Stage.May .createTlsResources c) Q (Reconciliation.ensureOperatorSecret c).run := by
  refine .run_bind (.callStore (r := .get .secret _) trivial fun reply => ?_)
  cases reply with
  | error error => exact hQ _
  | ok certificates =>
    have hpem : (Table.empty.insert pemKey (serverPem certificates)).contains pemKey = true := by
      rw [Table.contains_eq_isSome, Table.get?_insert, if_pos rfl]
      rfl
    exact createOrUpdate ⟨rfl, rfl, hpem⟩ ⟨rfl, rfl, hpem⟩ hQ

/-- Publishing writes statuses and, when the cluster runs, the applied spec next to the record
that was read. -/
theorem updateStatusStep :
    Only (Stage.May .updateStatus ctx.cluster) (Leaves .updateStatus ctx.cluster)
      (Reconciliation.updateStatusStep ctx) := by
  unfold Reconciliation.updateStatusStep
  split
  · exact publishStatus (.refl _) (Scene.Leads.retry_ne_done _)
  · refine bind ((updateStatus (.refl _) _).mono
      fun (result, ctx') ⟨hagrees, hrecord, houtcome⟩ => ?_)
    cases result with
    | error error => exact .done ⟨hagrees, nofun⟩
    | ok outcome =>
      obtain rfl := houtcome outcome rfl
      have hwritten := ctx'.cluster.agrees_withAppliedSpec.trans hagrees
      refine bind (bind (callStore (r := .update .cluster _) ⟨hwritten, .inr ⟨rfl, ?_⟩⟩
        fun reply => ?_))
      · exact (progressRecord_withAppliedSpec _).trans hrecord
      · cases reply with
        | ok => exact .done (.done ⟨hwritten, nofun⟩)
        | error error => exact .done (.done ⟨hagrees, nofun⟩)

/-- A spec has been found valid once its validation has not failed. -/
theorem validateSpecStep :
    Only (Stage.May .validateSpec ctx.cluster) (fun x => Leaves .validateSpec ctx.cluster x ∧
        ∀ outcome, x.1 = .ok outcome → specProblem? ctx.cluster = none)
      (Reconciliation.validateSpecStep ctx) := by
  unfold Reconciliation.validateSpecStep validateSpec
  cases hproblem : specProblem? ctx.cluster with
  | some problem =>
    refine (failStep (.refl _) _).mono fun x ⟨hagrees, failure, hfailure⟩ => ?_
    have hfails : ∀ outcome, x.1 ≠ .ok outcome := fun _ hok => nomatch hfailure.symm.trans hok
    exact ⟨⟨hagrees, fun hdone => absurd hdone (hfails _)⟩, fun outcome hok =>
      absurd hok (hfails outcome)⟩
  | none => exact .done ⟨⟨.refl _, nofun⟩, fun _ _ => rfl⟩

/-- **A stage requests only what it may.** -/
theorem action (stage : Stage) (ctx : Context) :
    Only (stage.May ctx.cluster) (Leaves stage ctx.cluster) (stage.action ctx) := by
  have hsame : ctx.cluster.Agrees ctx.cluster := .refl _
  cases stage with
  | startFresh => exact .done ⟨hsame, nofun⟩
  | validateSpec => exact validateSpecStep.mono fun _ h => h.1
  | createService =>
    refine bind (callStore (r := .create .service _) ⟨rfl, rfl⟩ fun reply => ?_)
    cases reply with
    | ok => exact .done ⟨hsame, nofun⟩
    | error error =>
      dsimp only
      split
      · exact .done ⟨hsame, nofun⟩
      · exact fails hsame _
  | tlsValidation =>
    refine bind (tlsObjectsValid (fun _ _ => trivial) (fun result => ?_) _)
    rcases result with error | (_ | _)
    · exact fails hsame _
    · exact waitStep hsame _
    · exact .done ⟨hsame, nofun⟩
  | createTlsResources =>
    refine bind (ensureOperatorSecret fun result => ?_)
    cases result with
    | error error => exact fails hsame _
    | ok => exact .done ⟨hsame, nofun⟩
  | deployAutomationConfig =>
    refine bind (publishAutomationConfig fun result => ?_)
    cases result with
    | error error => exact fails hsame _
    | ok published =>
      dsimp only
      split
      · exact .done ⟨hsame, nofun⟩
      · refine waitStep ?_ _
        exact hsame
  | deployWorkload =>
    refine bind (ensureWorkload fun result => ?_)
    cases result with
    | error error => exact fails hsame _
    | ok workload =>
      dsimp only
      split
      · exact .done ⟨hsame, nofun⟩
      · refine waitStep ?_ _
        exact hsame
  | resetUpdateStrategy =>
    refine bind (resetStrategy fun result => ?_)
    cases result with
    | error error => exact fails hsame _
    | ok workload => exact .done ⟨hsame, nofun⟩
  | updateStatus => exact updateStatusStep
  | reconciliationEnd =>
    have hwritten := ctx.cluster.agrees_withFreshProgress
    refine bind (callStore (r := .update .cluster _) ⟨hwritten, .inl rfl⟩ fun reply => ?_)
    cases reply with
    | ok => exact .done ⟨hwritten, fun _ => rfl⟩
    | error error => exact .done ⟨hsame, nofun⟩

/-- The check of a stage only looks things up. -/
theorem isComplete {allowed : Request → Prop} (hget : ∀ kind name, allowed (.get kind name))
    (stage : Stage) (ctx : Context) :
    Only allowed (fun _ => True) (stage.isComplete ctx) := by
  have hstore : ∀ {work : StoreWork Bool}, Only allowed (fun _ => True) work.run →
      Only allowed (fun _ => True) (storeCheck work) :=
    fun h => .bind (h.mono fun _ _ => .done trivial)
  cases stage with
  | startFresh | validateSpec | createTlsResources | updateStatus | reconciliationEnd =>
    exact .done trivial
  | createService =>
    refine hstore (.run_bind (.findResource (hget _ _) fun found => ?_))
    cases found with
    | error error => trivial
    | ok found => exact .done trivial
  | tlsValidation =>
    exact hstore (tlsObjectsValid hget (fun _ => trivial) _)
  | deployAutomationConfig =>
    refine .bind (.findResource (hget _ _) fun found => ?_)
    rcases found with error | (_ | workload)
    · exact .done trivial
    · exact .done trivial
    · refine .bind (.callStore (r := .get .automationConfig _) (hget _ _) fun config => ?_)
      cases config <;> exact .done trivial
  | deployWorkload =>
    refine .bind (.callStore (r := .get .workload _) (hget _ _) fun workload => ?_)
    cases workload <;> exact .done trivial
  | resetUpdateStrategy =>
    refine hstore (.run_bind (.callStore (r := .get .workload _) (hget _ _) fun workload => ?_))
    cases workload with
    | error error => trivial
    | ok workload => exact .done trivial

/-- Recording the next stage replaces the cluster. -/
theorem saveNextState {allowed : Request → Prop} (hget : ∀ kind name, allowed (.get kind name))
    (hupdate : ∀ cluster, allowed (.update .cluster cluster)) (name : ResourceName)
    (next : String) : Only allowed (fun _ => True) (Reconciliation.saveNextState name next) := by
  refine bind (callStore (r := .get .cluster name) (hget _ _) fun reply => ?_)
  cases reply with
  | error error => exact .done trivial
  | ok cluster =>
    dsimp only
    split
    · exact .done trivial
    · refine bind (callStore (r := .update .cluster _) (hupdate _) fun reply => ?_)
      cases reply <;> exact .done trivial

/-- Going on after a stage does no more than to record the next one. -/
theorem conclude {allowed : Request → Prop} (hget : ∀ kind name, allowed (.get kind name))
    (hupdate : ∀ cluster, allowed (.update .cluster cluster)) {r : Reconciler}
    (hr : r.pacer.Silent) (attempt : Attempt) :
    Only allowed (fun _ => True) (r.conclude attempt) := by
  cases attempt with
  | ended conclusion => exact .done trivial
  | leaving key stage next outcome =>
    refine .bind (.of_onlySleeps hr.before (.bind ((saveNextState hget hupdate key
      (nextName next)).mono fun saved _ => ?_)))
    cases saved with
    | error cause => exact .done trivial
    | ok => exact .bind (.of_onlySleeps hr.after (.done trivial))

/-- What is observed belongs to the cluster that was read. -/
theorem observe {allowed : Request → Prop} (hget : ∀ kind name, allowed (.get kind name))
    (cluster : DbCluster) (pendingRequeue : Duration) (now : Timestamp) :
    Only allowed (fun x => ∀ ctx, x = .ok ctx → ctx.cluster = cluster)
      (Context.observe cluster pendingRequeue now).run := by
  refine .run_bind (.findResource (hget _ _) fun found => ?_)
  cases found with
  | error error =>
    intro ctx h
    cases h
  | ok workload =>
    refine .done fun ctx h => ?_
    cases h
    rfl

end Only
end Reconciliation
