/-
# Calls at different times

Two calls for one cluster that are made at different times, and find the same stored but
for stamps, do the same but for stamps: they make the same requests and come to the same
conclusion.  `Twin` is this relation between two pieces of work.  It also records that all
requests stay in the scope of the cluster: reads among what a call reads, writes among
what the cluster owns.

Each stage is followed once (`Twin.action`); stores come in only with `Twin.step`, which
takes one effect of both calls.
-/

import Reconciliation.Proofs.Cluster.Attempt
import Reconciliation.Proofs.Cluster.Regions
import Reconciliation.Proofs.Cluster.Surroundings

namespace Reconciliation

/-! ## Work in a scope -/

/-- The two pieces of work stay in the scope, differ only in the stamps of the cluster, and
end with `Q`, as long as what they find differs only in stamps. -/
inductive Twin (p : Scope) {α : Type} (Q : α → α → Prop) : Work α → Work α → Prop
  | done {a a' : α} (h : Q a a') : Twin p Q (.done a) (.done a')
  | read {next next' : Except StoreError DbCluster → Work α}
      (found : ∀ c stamp, p.Of c → Twin p Q (next (.ok c)) (next' (.ok (c.stamped stamp))))
      (failed : ∀ error, Twin p Q (next (.error error)) (next' (.error error))) :
      Twin p Q (.ask (.call (.get .cluster p.owner)) next)
        (.ask (.call (.get .cluster p.owner)) next')
  | get {kind : Kind} {name : ResourceName} {next next' : Except StoreError kind.Object → Work α}
      (hkind : kind ≠ .cluster) (reads : p.Reads kind name)
      (found : ∀ object, kind.nameOf object = name →
        Twin p Q (next (.ok object)) (next' (.ok object)))
      (failed : ∀ error, Twin p Q (next (.error error)) (next' (.error error))) :
      Twin p Q (.ask (.call (.get kind name)) next) (.ask (.call (.get kind name)) next')
  | create {kind : Kind} {object : kind.Object} {next next' : Except StoreError Unit → Work α}
      (hkind : kind ≠ .cluster) (owns : p.owner.Owns kind (kind.nameOf object))
      (rest : ∀ reply, Twin p Q (next reply) (next' reply)) :
      Twin p Q (.ask (.call (.create kind object)) next) (.ask (.call (.create kind object)) next')
  | update {kind : Kind} {object : kind.Object} {next next' : Except StoreError Unit → Work α}
      (hkind : kind ≠ .cluster) (owns : p.owner.Owns kind (kind.nameOf object))
      (rest : ∀ reply, Twin p Q (next reply) (next' reply)) :
      Twin p Q (.ask (.call (.update kind object)) next) (.ask (.call (.update kind object)) next')
  | replace {c : DbCluster} {stamp : Option Timestamp}
      {next next' : Except StoreError Unit → Work α} (of : p.Of c)
      (rest : ∀ reply, Twin p Q (next reply) (next' reply)) :
      Twin p Q (.ask (.call (.update .cluster c)) next)
        (.ask (.call (.update .cluster (c.stamped stamp))) next')
  | publish {c : DbCluster} {stamp : Option Timestamp}
      {next next' : Except StoreError Unit → Work α} (of : p.Of c)
      (rest : ∀ reply, Twin p Q (next reply) (next' reply)) :
      Twin p Q (.ask (.call (.updateStatus c)) next)
        (.ask (.call (.updateStatus (c.stamped stamp))) next')
  | sleep {d : Duration} {next next' : Unit → Work α} (rest : Twin p Q (next ()) (next' ())) :
      Twin p Q (.ask (.sleep d) next) (.ask (.sleep d) next')

/-- The work stays in the scope and does not depend on stamps. -/
def Confined (p : Scope) {α : Type} (work : Work α) : Prop := Twin p Eq work work

namespace Twin

variable {p : Scope} {α β : Type}

/-- Twins may end with less in common. -/
theorem mono {Q R : α → α → Prop} {work work' : Work α} (h : Twin p Q work work')
    (himp : ∀ a a', Q a a' → R a a') : Twin p R work work' := by
  induction h with
  | done h => exact .done (himp _ _ h)
  | read _ _ found failed => exact .read found failed
  | get hkind reads _ _ found failed => exact .get hkind reads found failed
  | create hkind owns _ ih => exact .create hkind owns ih
  | update hkind owns _ ih => exact .update hkind owns ih
  | replace of _ ih => exact .replace of ih
  | publish of _ ih => exact .publish of ih
  | sleep _ ih => exact .sleep ih

/-- Twins followed by twins are twins. -/
theorem bind {Q : β → β → Prop} {work work' : Work α} {next next' : α → Work β}
    (h : Twin p (fun a a' => Twin p Q (next a) (next' a')) work work') :
    Twin p Q (work >>= next) (work' >>= next') := by
  induction h with
  | done h => exact h
  | read _ _ found failed => exact .read found failed
  | get hkind reads _ _ found failed => exact .get hkind reads found failed
  | create hkind owns _ ih => exact .create hkind owns ih
  | update hkind owns _ ih => exact .update hkind owns ih
  | replace of _ ih => exact .replace of ih
  | publish of _ ih => exact .publish of ih
  | sleep _ ih => exact .sleep ih

/-- Confined work before other work. -/
theorem bind_confined {Q : β → β → Prop} {work : Work α} {next next' : α → Work β}
    (h : Confined p work) (hnext : ∀ a, Twin p Q (next a) (next' a)) :
    Twin p Q (work >>= next) (work >>= next') := by
  refine bind (mono h ?_)
  rintro a _ rfl
  exact hnext a

end Twin

/-! ## Confined work -/

namespace Confined

variable {p : Scope} {α β : Type}

/-- What is done makes no request. -/
theorem done (a : α) : Confined p (.done a) := Twin.done rfl

/-- Confined work followed by confined work is confined. -/
theorem bind {work : Work α} {next : α → Work β} (h : Confined p work)
    (hnext : ∀ a, Confined p (next a)) : Confined p (work >>= next) :=
  Twin.bind_confined h hnext

/-- A failing call ends work without any further call. -/
theorem run_bind {work : StoreWork α} {next : α → StoreWork β} (h : Confined p work.run)
    (hnext : ∀ a, Confined p (next a).run) : Confined p (work >>= next).run := by
  rw [ExceptT.run_bind]
  refine h.bind fun x => ?_
  cases x with
  | ok a => exact hnext a
  | error error => exact done _

/-- A check is confined when its look-ups are. -/
theorem storeCheck {work : StoreWork Bool} (h : Confined p work.run) :
    Confined p (storeCheck work) := h.bind fun _ => done _

/-- Pacers make no calls. -/
theorem of_onlySleeps {work : Work Unit} (h : OnlySleeps work) : Confined p work := by
  induction h with
  | done => exact done ()
  | sleep d _ ih => exact Twin.sleep ih

section Calls

variable (kind : Kind) {name : ResourceName} (object : kind.Object)

/-- A resource that is looked up has the name under which it was looked for. -/
theorem getResource_bind (hkind : kind ≠ .cluster) (hreads : p.Reads kind name)
    {next : kind.Object → StoreWork β}
    (hnext : ∀ object, kind.nameOf object = name → Confined p (next object).run) :
    Confined p (getResource kind name >>= next).run := by
  rw [ExceptT.run_bind]
  exact Twin.get hkind hreads hnext fun error => .done rfl

/-- Looking up what is among the reads of the scope. -/
theorem getResource (hkind : kind ≠ .cluster) (hreads : p.Reads kind name) :
    Confined p (getResource kind name).run :=
  Twin.get hkind hreads (fun _ _ => .done rfl) fun _ => .done rfl

/-- The same for a resource that may be missing. -/
theorem findResource (hkind : kind ≠ .cluster) (hreads : p.Reads kind name) :
    Confined p (findResource kind name).run := by
  refine Twin.get hkind hreads (fun object _ => .done rfl) fun error => ?_
  show Confined p (if _ then _ else _)
  split <;> exact done _

/-- Adding what the cluster owns. -/
theorem createResource (hkind : kind ≠ .cluster)
    (howns : p.owner.Owns kind (kind.nameOf object)) :
    Confined p (createResource kind object).run :=
  Twin.create hkind howns fun _ => .done rfl

/-- Replacing what the cluster owns. -/
theorem updateResource (hkind : kind ≠ .cluster)
    (howns : p.owner.Owns kind (kind.nameOf object)) :
    Confined p (updateResource kind object).run :=
  Twin.update hkind howns fun _ => .done rfl

/-- Adding or replacing what the cluster owns. -/
theorem createOrUpdate (hkind : kind ≠ .cluster)
    (howns : p.owner.Owns kind (kind.nameOf object)) :
    Confined p (createOrUpdate kind object).run := by
  refine Twin.create hkind howns fun reply => ?_
  cases reply with
  | ok => exact done _
  | error error =>
    show Confined p (if _ then _ else _)
    split
    · exact updateResource kind object hkind howns
    · exact done _

end Calls

/-! ### What the stages do to other resources -/

section Stages

variable {c : DbCluster}

/-- The certificate secret is the one that the spec names, and the config map any one. -/
theorem tlsObjectsValid (hc : p.Of c) : Confined p (tlsObjectsValid c).run := by
  refine (findResource .secret nofun hc.reads_certificate).run_bind fun found => ?_
  cases found with
  | none => exact done _
  | some secret =>
    dsimp only
    split
    · refine (findResource .configMap nofun (.inr (.inl rfl))).run_bind fun found => ?_
      cases found <;> exact done _
    · exact done _

/-- The operator secret is owned, the certificate secret only read. -/
theorem ensureOperatorSecret (hc : p.Of c) : Confined p (ensureOperatorSecret c).run :=
  getResource_bind .secret nofun hc.reads_certificate fun _ _ =>
    createOrUpdate .secret _ nofun hc.owns_operatorSecret

/-- The config is owned, under the name of the cluster. -/
theorem ensureAutomationConfig (hc : p.Of c) : Confined p (ensureAutomationConfig c).run := by
  refine (findResource .automationConfig nofun (.inl hc.resourceName_eq)).run_bind fun found => ?_
  cases found with
  | none =>
    exact (createResource .automationConfig (wantedAutomationConfig c) nofun
      hc.resourceName_eq).run_bind fun _ => done _
  | some existing =>
    dsimp only
    split
    · exact done _
    · exact (updateResource .automationConfig { wantedAutomationConfig c with version := _ } nofun
        hc.resourceName_eq).run_bind fun _ => done _

/-- The workload is looked up under the name of the cluster. -/
theorem publishAutomationConfig (hc : p.Of c) : Confined p (publishAutomationConfig c).run :=
  (ensureAutomationConfig hc).run_bind fun _ =>
    (findResource .workload nofun (.inl hc.resourceName_eq)).run_bind fun _ => done _

/-- The workload is owned, and read back under the same name. -/
theorem ensureWorkload (hc : p.Of c) : Confined p (ensureWorkload c).run :=
  (createOrUpdate .workload (wantedWorkload c) nofun hc.resourceName_eq).run_bind fun _ =>
    getResource .workload nofun (.inl hc.resourceName_eq)

/-- The workload is written back under the name under which it was found. -/
theorem resetStrategy (hc : p.Of c) : Confined p (resetStrategy c).run := by
  refine getResource_bind .workload nofun (.inl hc.resourceName_eq) fun w hname => ?_
  split
  · exact done _
  · have howns : p.owner.Owns .workload w.name := hname.trans hc.resourceName_eq
    exact (updateResource .workload { w with updateStrategy := .rollingUpdate } nofun
      howns).run_bind fun _ => done _

/-- Every completion check is confined. -/
theorem isComplete {ctx : Context} (hc : p.Of ctx.cluster) (stage : Stage) :
    Confined p (stage.isComplete ctx) := by
  cases stage with
  | startFresh | validateSpec | createTlsResources | updateStatus | reconciliationEnd =>
    exact done _
  | createService =>
    exact storeCheck ((findResource .service nofun (.inl hc.owns_service)).run_bind
      fun _ => done _)
  | tlsValidation => exact storeCheck (tlsObjectsValid hc)
  | deployAutomationConfig =>
    refine (findResource .workload nofun (.inl hc.resourceName_eq)).bind fun found => ?_
    rcases found with error | (_ | workload)
    · exact done _
    · exact done _
    · refine (getResource .automationConfig nofun (.inl hc.resourceName_eq)).bind fun config => ?_
      cases config <;> exact done _
  | deployWorkload =>
    refine (getResource .workload nofun (.inl hc.resourceName_eq)).bind fun workload => ?_
    cases workload <;> exact done _
  | resetUpdateStrategy =>
    exact storeCheck (getResource_bind .workload nofun (.inl hc.resourceName_eq)
      fun _ _ => done _)

end Stages

end Confined

/-! ## Stages at different times -/

/-- The contexts are about the cluster of the scope and have everything in common but
stamps and the clock. -/
structure Scope.Shared (p : Scope) (ctx ctx' : Context) : Prop where
  of : p.Of ctx.cluster
  cluster_eq : ∃ stamp, ctx'.cluster = ctx.cluster.stamped stamp
  observedStatus_eq : ∃ stamp, ctx'.observedStatus = ctx.observedStatus.stamped stamp
  observedWorkload_eq : ctx'.observedWorkload = ctx.observedWorkload
  pendingRequeue_eq : ctx'.pendingRequeue = ctx.pendingRequeue

namespace Scope.Shared

variable {p : Scope} {ctx ctx' : Context}

/-- What does not look at stamps finds the same in both clusters. -/
theorem cluster_congr (h : p.Shared ctx ctx') {γ : Type} (f : DbCluster → γ)
    (hf : ∀ c stamp, f (c.stamped stamp) = f c) : f ctx'.cluster = f ctx.cluster := by
  obtain ⟨stamp, hcluster⟩ := h.cluster_eq
  rw [hcluster, hf]

/-- Both contexts see the same workload. -/
theorem observe (h : p.Shared ctx ctx') (workload : Option Workload) :
    p.Shared { ctx with observedWorkload := workload }
      { ctx' with observedWorkload := workload } :=
  { h with observedWorkload_eq := rfl }

/-- The cluster is replaced in both contexts. -/
theorem withCluster (h : p.Shared ctx ctx') {c : DbCluster} (hc : p.Of c)
    {stamp : Option Timestamp} :
    p.Shared { ctx with cluster := c } { ctx' with cluster := c.stamped stamp } :=
  { h with of := hc, cluster_eq := ⟨stamp, rfl⟩ }

/-- Where a stage leads does not depend on stamps. -/
theorem next?_eq (h : p.Shared ctx ctx') (stage : Stage) : stage.next? ctx' = stage.next? ctx := by
  obtain ⟨stamp, hcluster⟩ := h.cluster_eq
  obtain ⟨seen, hstatus⟩ := h.observedStatus_eq
  refine Stage.next?_congr ?_ ?_ ?_ ?_ stage
  · rw [Context.tlsEnabled, hcluster]
    rfl
  · rw [Context.needsConfigFirst, hcluster, hstatus, h.observedWorkload_eq]
    rfl
  · rw [Context.isStillScaling, hcluster, hstatus]
    rfl
  · rw [Context.isChangingVersion, hcluster]
    rfl

/-- A completion check does not depend on stamps. -/
theorem isComplete_eq (h : p.Shared ctx ctx') (stage : Stage) :
    stage.isComplete ctx' = stage.isComplete ctx := by
  obtain ⟨stamp, hcluster⟩ := h.cluster_eq
  obtain ⟨_, _, _, _, _⟩ := ctx'
  obtain rfl := hcluster
  cases stage <;> rfl

end Scope.Shared

namespace Twin

variable {p : Scope} {ctx ctx' : Context}

/-- Two actions came to the same result, with contexts that still have it in common. -/
structure Ends (p : Scope) {ρ : Type} (x x' : ρ × Context) : Prop where
  result_eq : x'.1 = x.1
  shared : p.Shared x.2 x'.2

/-- Work that does nothing more ends alike. -/
theorem done_ends {ρ : Type} {result : ρ} (h : p.Shared ctx ctx') :
    Twin p (Ends p) (.done (result, ctx)) (.done (result, ctx')) := .done ⟨rfl, h⟩

/-- The two statuses differ in their stamps, which are the times of the calls. -/
theorem updateStatus (h : p.Shared ctx ctx') (o : StatusOptions) :
    Twin p (Ends p) (updateStatus ctx o) (updateStatus ctx' o) := by
  have hwritten : ({ ctx'.cluster with status := o.apply ctx'.now ctx'.cluster.status } : DbCluster)
      = ({ ctx.cluster with status := o.apply ctx.now ctx.cluster.status } : DbCluster).stamped
        (some ctx'.now) := by
    obtain ⟨stamp, hcluster⟩ := h.cluster_eq
    rw [hcluster]
    rfl
  have hof : p.Of { ctx.cluster with status := o.apply ctx.now ctx.cluster.status } :=
    ⟨h.of.resourceName_eq, h.of.certificate_eq⟩
  unfold Reconciliation.updateStatus
  rw [hwritten]
  refine .publish hof fun reply => ?_
  cases reply with
  | ok => exact done_ends (h.withCluster hof)
  | error error => exact done_ends h

/-- Both calls publish the same, but for the stamp. -/
theorem publishStatus (h : p.Shared ctx ctx') (o : StatusOptions) :
    Twin p (Ends p) (publishStatus ctx o) (publishStatus ctx' o) := by
  refine bind ((updateStatus h o).mono ?_)
  rintro ⟨_, ctx⟩ ⟨result, ctx'⟩ ⟨rfl, h⟩
  exact done_ends h

/-- Both calls fail alike. -/
theorem failStep (h : p.Shared ctx ctx') (message : String) :
    Twin p (Ends p) (failStep ctx message) (failStep ctx' message) := by
  refine bind (bind ((updateStatus h _).mono ?_))
  rintro ⟨_, ctx⟩ ⟨result, ctx'⟩ ⟨rfl, h⟩
  exact .done (done_ends h)

/-- How long to wait is no matter of the time at which the waiting begins. -/
theorem waitStep (h : p.Shared ctx ctx') (reason : String) :
    Twin p (Ends p) (waitStep ctx reason) (waitStep ctx' reason) := by
  have hseconds : ctx'.pendingSeconds = ctx.pendingSeconds := by
    rw [Context.pendingSeconds, h.pendingRequeue_eq]
    rfl
  unfold Reconciliation.waitStep
  rw [hseconds]
  exact publishStatus h _

/-- The end of a pass writes the cluster of the context with an empty record. -/
theorem reconciliationEnd (h : p.Shared ctx ctx') :
    Twin p (Ends p) (reconciliationEnd ctx) (reconciliationEnd ctx') := by
  obtain ⟨stamp, hcluster⟩ := h.cluster_eq
  have hof : p.Of (withFreshProgress ctx.cluster) := ⟨h.of.resourceName_eq, h.of.certificate_eq⟩
  unfold Reconciliation.reconciliationEnd
  rw [hcluster]
  refine .replace hof fun reply => ?_
  cases reply with
  | ok => exact done_ends (h.withCluster hof)
  | error error => exact done_ends h

/-- The spec that is remembered is the same at both times. -/
theorem recordAppliedSpec (h : p.Shared ctx ctx') :
    Twin p p.Shared (recordAppliedSpec ctx) (recordAppliedSpec ctx') := by
  obtain ⟨stamp, hcluster⟩ := h.cluster_eq
  have hof : p.Of (withAppliedSpec ctx.cluster) := ⟨h.of.resourceName_eq, h.of.certificate_eq⟩
  unfold Reconciliation.recordAppliedSpec
  rw [hcluster]
  refine .replace hof fun reply => ?_
  cases reply with
  | ok => exact .done (h.withCluster hof)
  | error error => exact .done h

/-- Whether the cluster runs or is still being scaled is not seen from its stamp. -/
theorem updateStatusStep (h : p.Shared ctx ctx') :
    Twin p (Ends p) (updateStatusStep ctx) (updateStatusStep ctx') := by
  obtain ⟨stamp, hcluster⟩ := h.cluster_eq
  have hstill := h.cluster_congr DbCluster.isStillScaling fun _ _ => rfl
  have hscaling : scalingStatus ctx' = scalingStatus ctx := by
    rw [scalingStatus, Context.pendingSeconds, hcluster, h.pendingRequeue_eq]
    rfl
  have hrunning : runningStatus ctx' = runningStatus ctx := by
    rw [runningStatus, hcluster]
    rfl
  unfold Reconciliation.updateStatusStep
  rw [hstill, hscaling, hrunning]
  split
  · exact publishStatus h _
  · refine bind ((updateStatus h _).mono ?_)
    rintro ⟨_, ctx⟩ ⟨result, ctx'⟩ ⟨rfl, h⟩
    cases result with
    | error error => exact done_ends h
    | ok outcome => exact bind ((recordAppliedSpec h).mono fun _ _ h => done_ends h)

/-- **An action does the same at any time**, but for stamps. -/
theorem action (h : p.Shared ctx ctx') (stage : Stage) :
    Twin p (Ends p) (stage.action ctx) (stage.action ctx') := by
  cases stage with
  | startFresh => exact done_ends h
  | validateSpec =>
    have hvalid := h.cluster_congr Reconciliation.validateSpec fun _ _ => rfl
    show Twin p (Ends p) (validateSpecStep ctx) (validateSpecStep ctx')
    unfold validateSpecStep
    rw [hvalid]
    split
    · exact failStep h _
    · exact done_ends h
  | createService =>
    have hsame := h.cluster_congr Reconciliation.wantedService fun _ _ => rfl
    show Twin p (Ends p) (createService ctx) (createService ctx')
    unfold Reconciliation.createService
    rw [hsame]
    refine .create nofun h.of.owns_service fun reply => ?_
    cases reply with
    | ok => exact done_ends h
    | error error =>
      show Twin p (Ends p) (if _ then _ else _) (if _ then _ else _)
      split
      · exact done_ends h
      · exact failStep h _
  | tlsValidation =>
    have hsame := h.cluster_congr Reconciliation.tlsObjectsValid fun _ _ => rfl
    show Twin p (Ends p) (tlsValidation ctx) (tlsValidation ctx')
    unfold Reconciliation.tlsValidation
    rw [hsame]
    refine bind_confined (.tlsObjectsValid h.of) fun result => ?_
    rcases result with error | ⟨_ | _⟩
    · exact failStep h _
    · exact waitStep h _
    · exact done_ends h
  | createTlsResources =>
    have hsame := h.cluster_congr Reconciliation.ensureOperatorSecret fun _ _ => rfl
    show Twin p (Ends p) (createTlsResources ctx) (createTlsResources ctx')
    unfold Reconciliation.createTlsResources
    rw [hsame]
    refine bind_confined (.ensureOperatorSecret h.of) fun result => ?_
    cases result with
    | error error => exact failStep h _
    | ok => exact done_ends h
  | deployAutomationConfig =>
    have hsame := h.cluster_congr Reconciliation.publishAutomationConfig fun _ _ => rfl
    show Twin p (Ends p) (deployAutomationConfig ctx) (deployAutomationConfig ctx')
    unfold Reconciliation.deployAutomationConfig
    rw [hsame]
    refine bind_confined (.publishAutomationConfig h.of) fun result => ?_
    rcases result with error | ⟨config, workload⟩
    · exact failStep h _
    · show Twin p (Ends p) (if _ then _ else _) (if _ then _ else _)
      split
      · exact done_ends (h.observe workload)
      · exact waitStep (h.observe workload) _
  | deployWorkload =>
    have hsame := h.cluster_congr Reconciliation.ensureWorkload fun _ _ => rfl
    show Twin p (Ends p) (deployWorkload ctx) (deployWorkload ctx')
    unfold Reconciliation.deployWorkload
    rw [hsame]
    refine bind_confined (.ensureWorkload h.of) fun result => ?_
    cases result with
    | error error => exact failStep h _
    | ok workload =>
      show Twin p (Ends p) (if _ then _ else _) (if _ then _ else _)
      split
      · exact done_ends (h.observe workload)
      · exact waitStep (h.observe workload) _
  | resetUpdateStrategy =>
    have hsame := h.cluster_congr Reconciliation.resetStrategy fun _ _ => rfl
    show Twin p (Ends p) (resetUpdateStrategy ctx) (resetUpdateStrategy ctx')
    unfold Reconciliation.resetUpdateStrategy
    rw [hsame]
    refine bind_confined (.resetStrategy h.of) fun result => ?_
    cases result with
    | error error => exact failStep h _
    | ok workload => exact done_ends (h.observe workload)
  | updateStatus => exact updateStatusStep h
  | reconciliationEnd => exact reconciliationEnd h

/-! ## Calls at different times -/

/-- A stage is left under the name of the cluster, if it is left. -/
def Leaves (p : Scope) (x x' : Attempt) : Prop :=
  x' = x ∧ ∀ key stage next outcome, x = .leaving key stage next outcome → key = p.owner

/-- A call that is over leaves no stage. -/
theorem done_ended (conclusion : Conclusion) :
    Twin p (Leaves p) (.done (.ended conclusion)) (.done (.ended conclusion)) := .done ⟨rfl, nofun⟩

/-- A stage is run alike at both times, and left for the same one. -/
theorem runStage (h : p.Shared ctx ctx') (stage : Stage) :
    Twin p (Leaves p) (Reconciler.runStage p.owner stage ctx)
      (Reconciler.runStage p.owner stage ctx') := by
  refine bind ((action h stage).mono ?_)
  rintro ⟨_, ctx⟩ ⟨result, ctx'⟩ ⟨rfl, h⟩
  have h : p.Shared ctx ctx' := h
  cases result with
  | error cause => exact done_ended _
  | ok outcome =>
    dsimp only
    rw [h.isComplete_eq]
    refine bind_confined (.isComplete h.of stage) fun verdict => ?_
    rcases verdict with cause | ⟨_ | _⟩
    · exact done_ended _
    · exact done_ended _
    · dsimp only
      rw [h.next?_eq]
      refine .done ⟨rfl, fun key stage next outcome hleaving => ?_⟩
      cases hleaving
      rfl

/-- The first parts of both calls are twins, whatever they read. -/
theorem attempt (r : Reconciler) (now later : Timestamp) :
    Twin p (Leaves p) (r.attempt now p.owner) (r.attempt later p.owner) := by
  refine .read (fun c stamp hc => ?_) fun error => done_ended _
  have hresume : resumeStage (c.stamped stamp) = resumeStage c := rfl
  rw [Program.bind, Program.bind]
  dsimp only
  rw [hresume]
  cases resumeStage c with
  | error error => exact done_ended _
  | ok stage =>
    dsimp only
    unfold Context.observe
    rw [ExceptT.run_bind, ExceptT.run_bind, bind_assoc, bind_assoc]
    refine bind_confined
      (.findResource .workload (by decide) (.inl hc.resourceName_eq)) fun found => ?_
    cases found with
    | error error => exact done_ended _
    | ok workload =>
      have hshared : p.Shared ⟨c, c.status, workload, r.pendingRequeue, now⟩
          ⟨c.stamped stamp, c.status.stamped stamp, workload, r.pendingRequeue, later⟩ :=
        ⟨hc, ⟨stamp, rfl⟩, ⟨stamp, rfl⟩, rfl, rfl⟩
      have hrun := runStage hshared stage
      rw [← hc.resourceName_eq] at hrun
      exact hrun

/-- The write of a resume point does not depend on stamps. -/
theorem saveNextState (next : String) :
    Twin p Eq (saveNextState p.owner next) (saveNextState p.owner next) := by
  refine .read (fun c stamp hc => ?_) fun error => .done rfl
  have hrecord : progressRecord (c.stamped stamp) = progressRecord c := rfl
  rw [Program.bind, Program.bind]
  dsimp only
  rw [hrecord]
  cases progressRecord c with
  | error error => exact .done rfl
  | ok record =>
    have hof : p.Of (withProgress c { record with nextState := next }) :=
      ⟨hc.resourceName_eq, hc.certificate_eq⟩
    refine .replace hof fun reply => ?_
    cases reply <;> exact .done rfl

/-- The second parts of both calls are twins. -/
theorem conclude {r : Reconciler} (hr : r.pacer.Silent) {x x' : Attempt} (hx : Leaves p x x') :
    Twin p Eq (r.conclude x) (r.conclude x') := by
  obtain ⟨rfl, hkey⟩ := hx
  cases x' with
  | ended conclusion => exact .done rfl
  | leaving key stage next outcome =>
    obtain rfl := hkey key stage next outcome rfl
    refine bind_confined (.of_onlySleeps hr.before) fun _ => ?_
    refine bind ((saveNextState _).mono ?_)
    rintro result _ rfl
    cases result with
    | error cause => exact .done rfl
    | ok => exact bind_confined (.of_onlySleeps hr.after) fun _ => .done rfl

end Twin

/-- **Calls for one cluster at different times are twins**, whatever its record says. -/
theorem Reconciler.twin_reconcile {r : Reconciler} (hr : r.pacer.Silent) (now later : Timestamp)
    (p : Scope) : Twin p Eq (r.reconcile now p.owner) (r.reconcile later p.owner) := by
  rw [reconcile_eq, reconcile_eq]
  exact .bind ((Twin.attempt r now later).mono fun _ _ hx => .conclude hr hx)

end Reconciliation
