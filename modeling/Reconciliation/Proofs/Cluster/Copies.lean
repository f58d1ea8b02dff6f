/-
# Copies of a cluster

A call of the reconciler reads the cluster, works on its copy, and writes the copy back
whole.  What it changes in it are the status and three annotations of its own; the rest
is written as it was read (`Carries`).  This holds of every stage and of the write of
the resume point, which works on a copy of its own (`Reconciler.carries_reconcile`).

What a call does to the changes of others follows from this alone: the stages are not
looked at again.
-/

import Reconciliation.Proofs.Cluster.Attempt
import Reconciliation.Proofs.Cluster.Surroundings

namespace Reconciliation

/-! ## Copies that agree -/

/-- The annotations that the reconciler writes. -/
def ownAnnotations : List String :=
  [ appliedVersionAnnotation, appliedSpecAnnotation, progressAnnotation]

namespace DbCluster

/-- Two copies differ at most in what the reconciler writes: the status and its own
annotations. -/
structure Agrees (a b : DbCluster) : Prop where
  resourceName_eq : a.resourceName = b.resourceName
  spec_eq : a.spec = b.spec
  get?_eq : ∀ key ∉ ownAnnotations,
    a.metadata.annotations.get? key = b.metadata.annotations.get? key

variable {a b c : DbCluster}

/-- A copy agrees with itself. -/
theorem Agrees.refl (a : DbCluster) : a.Agrees a := ⟨rfl, rfl, fun _ _ => rfl⟩

/-- It does not matter which of two copies was read first. -/
theorem Agrees.symm (h : a.Agrees b) : b.Agrees a :=
  ⟨h.resourceName_eq.symm, h.spec_eq.symm, fun key hkey => (h.get?_eq key hkey).symm⟩

/-- Copies that agree with one and the same copy agree. -/
theorem Agrees.trans (h : a.Agrees b) (h' : b.Agrees c) : a.Agrees c :=
  ⟨h.resourceName_eq.trans h'.resourceName_eq, h.spec_eq.trans h'.spec_eq,
    fun key hkey => (h.get?_eq key hkey).trans (h'.get?_eq key hkey)⟩

/-- The status belongs to the reconciler. -/
theorem agrees_withStatus (c : DbCluster) (status : ClusterStatus) :
    Agrees { c with status } c := ⟨rfl, rfl, fun _ _ => rfl⟩

/-- So do its own annotations: whoever writes one of them leaves all others. -/
theorem agrees_annotate (c : DbCluster) {key : String} (hkey : key ∈ ownAnnotations)
    (value : String) : (c.annotate key value).Agrees c where
  resourceName_eq := rfl
  spec_eq := rfl
  get?_eq other hother := by
    have hne : key ≠ other := by
      rintro rfl
      exact hother hkey
    rw [annotate, Metadata.annotate, Table.get?_insert, if_neg hne]

/-- Moving the resume point touches one annotation. -/
theorem agrees_withProgress (c : DbCluster) (record : Progress) :
    (withProgress c record).Agrees c :=
  c.agrees_annotate (by decide) _

/-- Remembering the applied spec touches two annotations. -/
theorem agrees_withAppliedSpec (c : DbCluster) : (withAppliedSpec c).Agrees c :=
  (agrees_annotate _ (by decide) _).trans (c.agrees_annotate (by decide) _)

/-- The record of a new pass takes the place of the old one. -/
theorem agrees_withFreshProgress (c : DbCluster) : (withFreshProgress c).Agrees c :=
  c.agrees_annotate (by decide) _

end DbCluster

/-! ## Work that leaves the cluster alone -/

/-- Work that makes no call about clusters. -/
inductive Aloof {α : Type} : Work α → Prop
  | done (a : α) : Aloof (.done a)
  | call {r : Request} {next : r.Reply → Work α} (hkind : r.kind ≠ .cluster)
      (rest : ∀ reply, Aloof (next reply)) : Aloof (.ask (.call r) next)
  | sleep {d : Duration} {next : Unit → Work α} (rest : Aloof (next ())) :
      Aloof (.ask (.sleep d) next)

namespace Aloof

variable {α β : Type}

/-- Work goes on aloof when it does so whatever the first piece gives. -/
theorem bind {work : Work α} {next : α → Work β} (h : Aloof work)
    (hnext : ∀ a, Aloof (next a)) : Aloof (work >>= next) := by
  induction h with
  | done a => exact hnext a
  | call hkind _ ih => exact .call hkind ih
  | sleep _ ih => exact .sleep ih

/-- A failing call ends work without any further call. -/
theorem run_bind {work : StoreWork α} {next : α → StoreWork β} (h : Aloof work.run)
    (hnext : ∀ a, Aloof (next a).run) : Aloof (work >>= next).run := by
  rw [ExceptT.run_bind]
  refine h.bind fun result => ?_
  cases result with
  | ok a => exact hnext a
  | error error => exact .done _

/-- A call about another kind of resource. -/
theorem callStore {r : Request} (hkind : r.kind ≠ .cluster) :
    Aloof (Reconciliation.callStore r) := .call hkind .done

variable {kind : Kind}

/-- Looking up a resource of another kind. -/
theorem getResource (hkind : kind ≠ .cluster) (name : ResourceName) :
    Aloof (getResource kind name).run :=
  callStore (r := .get kind name) hkind

/-- Looking up a resource that may be missing. -/
theorem findResource (hkind : kind ≠ .cluster) (name : ResourceName) :
    Aloof (findResource kind name).run := by
  refine (callStore (r := .get kind name) hkind).bind fun reply => ?_
  cases reply with
  | ok object => exact .done _
  | error error =>
    dsimp only
    split <;> exact .done _

/-- Two calls at most, both about the object that is written. -/
theorem createOrUpdate (hkind : kind ≠ .cluster) (object : kind.Object) :
    Aloof (createOrUpdate kind object).run := by
  refine (callStore (r := .create kind object) hkind).bind fun reply => ?_
  cases reply with
  | ok => exact .done _
  | error error =>
    dsimp only
    split
    · exact callStore (r := .update kind object) hkind
    · exact .done _

/-- A check is aloof when its look-ups are. -/
theorem storeCheck {work : StoreWork Bool} (h : Aloof work.run) :
    Aloof (storeCheck work) := h.bind fun _ => .done _

/-- Pacers do not look at clusters either. -/
theorem of_onlySleeps {work : Work Unit} (h : OnlySleeps work) : Aloof work := by
  induction h with
  | done => exact .done ()
  | sleep d _ ih => exact .sleep ih

/-- The objects of TLS are a secret and a config map. -/
theorem tlsObjectsValid (c : DbCluster) : Aloof (tlsObjectsValid c).run := by
  refine (findResource (by nofun) _).run_bind fun found => ?_
  cases found with
  | none => exact .done _
  | some secret =>
    dsimp only
    split
    · refine (findResource (by nofun) _).run_bind fun found => ?_
      cases found <;> exact .done _
    · exact .done _

/-- The certificates are read from one secret and written to another. -/
theorem ensureOperatorSecret (c : DbCluster) : Aloof (ensureOperatorSecret c).run :=
  (getResource (by nofun) _).run_bind fun _ => createOrUpdate (by nofun) _

/-- A config is looked up, and then left, added or replaced. -/
theorem ensureAutomationConfig (c : DbCluster) : Aloof (ensureAutomationConfig c).run := by
  refine (findResource (by nofun) _).run_bind fun found => ?_
  cases found with
  | none => exact run_bind (callStore (by nofun)) fun _ => .done _
  | some existing =>
    dsimp only
    split
    · exact .done _
    · exact run_bind (callStore (by nofun)) fun _ => .done _

/-- The config is written before the workload is looked at. -/
theorem publishAutomationConfig (c : DbCluster) : Aloof (publishAutomationConfig c).run :=
  (ensureAutomationConfig c).run_bind fun _ => (findResource (by nofun) _).run_bind fun _ => .done _

/-- A workload is written and read back. -/
theorem ensureWorkload (c : DbCluster) : Aloof (ensureWorkload c).run :=
  (createOrUpdate (by nofun) _).run_bind fun _ => getResource (by nofun) _

/-- The strategy of a workload is reset in place. -/
theorem resetStrategy (c : DbCluster) : Aloof (resetStrategy c).run := by
  refine (getResource (by nofun) _).run_bind fun workload => ?_
  dsimp only
  split
  · exact .done _
  · exact run_bind (callStore (by nofun)) fun _ => .done _

/-- No completion check makes a call about clusters. -/
theorem isComplete (stage : Stage) (ctx : Context) : Aloof (stage.isComplete ctx) := by
  cases stage with
  | startFresh | validateSpec | createTlsResources | updateStatus | reconciliationEnd =>
    exact .done _
  | createService => exact storeCheck ((findResource (by nofun) _).run_bind fun _ => .done _)
  | tlsValidation => exact storeCheck (tlsObjectsValid _)
  | deployAutomationConfig =>
    refine (findResource (by nofun) _).bind fun found => ?_
    rcases found with error | (_ | workload)
    · exact .done _
    · exact .done _
    · refine (getResource (by nofun) _).bind fun config => ?_
      cases config <;> exact .done _
  | deployWorkload =>
    refine (getResource (by nofun) _).bind fun workload => ?_
    cases workload <;> exact .done _
  | resetUpdateStrategy => exact storeCheck ((getResource (by nofun) _).run_bind fun _ => .done _)

end Aloof

/-! ## Work that carries the cluster -/

/-- `Carries name Q copy work`: the work replaces the cluster only by what agrees with the
copy that was read last, `copy` to begin with, and ends with `Q`. -/
inductive Carries (name : ResourceName) {α : Type} (Q : DbCluster → α → Prop) :
    DbCluster → Work α → Prop
  | done {copy : DbCluster} {a : α} (h : Q copy a) : Carries name Q copy (.done a)
  | read {copy : DbCluster} {next : Except StoreError DbCluster → Work α}
      (found : ∀ c : DbCluster, c.resourceName = name → Carries name Q c (next (.ok c)))
      (failed : ∀ error, Carries name Q copy (next (.error error))) :
      Carries name Q copy (.ask (.call (.get .cluster name)) next)
  | replace {copy new : DbCluster} {next : Except StoreError Unit → Work α}
      (agrees : new.Agrees copy) (rest : ∀ reply, Carries name Q copy (next reply)) :
      Carries name Q copy (.ask (.call (.update .cluster new)) next)
  | publish {copy new : DbCluster} {next : Except StoreError Unit → Work α}
      (agrees : new.Agrees copy) (rest : ∀ reply, Carries name Q copy (next reply)) :
      Carries name Q copy (.ask (.call (.updateStatus new)) next)
  | other {copy : DbCluster} {r : Request} {next : r.Reply → Work α} (hkind : r.kind ≠ .cluster)
      (rest : ∀ reply, Carries name Q copy (next reply)) :
      Carries name Q copy (.ask (.call r) next)
  | sleep {copy : DbCluster} {d : Duration} {next : Unit → Work α}
      (rest : Carries name Q copy (next ())) : Carries name Q copy (.ask (.sleep d) next)

namespace Carries

variable {name : ResourceName} {α β : Type} {copy : DbCluster}

/-- What the first piece has read last is the copy that the second begins with. -/
theorem bind {Q : DbCluster → β → Prop} {work : Work α} {next : α → Work β}
    (h : Carries name (fun copy a => Carries name Q copy (next a)) copy work) :
    Carries name Q copy (work >>= next) := by
  induction h with
  | done h => exact h
  | read _ _ found failed => exact .read found failed
  | replace agrees _ ih => exact .replace agrees ih
  | publish agrees _ ih => exact .publish agrees ih
  | other hkind _ ih => exact .other hkind ih
  | sleep _ ih => exact .sleep ih

/-- Work that carries the cluster may end with less. -/
theorem mono {Q P : DbCluster → α → Prop} {work : Work α} (h : Carries name Q copy work)
    (himp : ∀ copy a, Q copy a → P copy a) : Carries name P copy work := by
  induction h with
  | done h => exact .done (himp _ _ h)
  | read _ _ found failed => exact .read found failed
  | replace agrees _ ih => exact .replace agrees ih
  | publish agrees _ ih => exact .publish agrees ih
  | other hkind _ ih => exact .other hkind ih
  | sleep _ ih => exact .sleep ih

/-- Work that leaves the cluster alone carries every copy. -/
theorem of_aloof {Q : DbCluster → α → Prop} {work : Work α} (h : Aloof work)
    (hQ : ∀ a, Q copy a) : Carries name Q copy work := by
  induction h with
  | done a => exact .done (hQ a)
  | call hkind _ ih => exact .other hkind ih
  | sleep _ ih => exact .sleep ih

/-- Aloof work before other work. -/
theorem bind_aloof {Q : DbCluster → β → Prop} {work : Work α} {next : α → Work β} (h : Aloof work)
    (hnext : ∀ a, Carries name Q copy (next a)) : Carries name Q copy (work >>= next) :=
  bind (of_aloof h hnext)

/-! ## The stages -/

/-- The context of a result holds a copy that agrees. -/
def Keeps (copy : DbCluster) (x : α × Context) : Prop := x.2.cluster.Agrees copy

variable {ctx : Context}

/-- A status is written on the copy of the context, which takes it over unless the call fails. -/
theorem updateStatus (h : ctx.cluster.Agrees copy) (o : StatusOptions) :
    Carries name Keeps copy (updateStatus ctx o) := by
  have hwritten := (ctx.cluster.agrees_withStatus (o.apply ctx.now ctx.cluster.status)).trans h
  refine .publish hwritten fun reply => ?_
  cases reply with
  | ok => exact .done hwritten
  | error error => exact .done h

/-- Publishing a status writes it and gives the outcome that goes with it. -/
theorem publishStatus (h : ctx.cluster.Agrees copy) (o : StatusOptions) :
    Carries name Keeps copy (publishStatus ctx o) :=
  bind ((updateStatus h o).mono fun _ _ hkeeps => .done hkeeps)

/-- A stage that has to wait publishes why. -/
theorem waitStep (h : ctx.cluster.Agrees copy) (reason : String) :
    Carries name Keeps copy (waitStep ctx reason) :=
  publishStatus h _

/-- A stage that fails publishes why, whether or not this write fails, too. -/
theorem failStep (h : ctx.cluster.Agrees copy) (message : String) :
    Carries name Keeps copy (failStep ctx message) :=
  bind (bind ((updateStatus h _).mono fun _ _ hkeeps => .done (.done hkeeps)))

/-- The copy with the applied spec replaces the cluster. -/
theorem recordAppliedSpec (h : ctx.cluster.Agrees copy) :
    Carries name (fun copy ctx => ctx.cluster.Agrees copy) copy (recordAppliedSpec ctx) := by
  have hwritten := ctx.cluster.agrees_withAppliedSpec.trans h
  refine .replace hwritten fun reply => ?_
  cases reply with
  | ok => exact .done hwritten
  | error error => exact .done h

/-- The copy with an empty record replaces the cluster. -/
theorem reconciliationEnd (h : ctx.cluster.Agrees copy) :
    Carries name Keeps copy (reconciliationEnd ctx) := by
  have hwritten := ctx.cluster.agrees_withFreshProgress.trans h
  refine .replace hwritten fun reply => ?_
  cases reply with
  | ok => exact .done hwritten
  | error error => exact .done h

/-- The publishing stage writes a status and, once the cluster runs, the applied spec. -/
theorem updateStatusStep (h : ctx.cluster.Agrees copy) :
    Carries name Keeps copy (updateStatusStep ctx) := by
  unfold Reconciliation.updateStatusStep
  split
  · exact publishStatus h _
  · refine bind ((updateStatus h _).mono fun copy (result, ctx') hkeeps => ?_)
    cases result with
    | error error => exact .done hkeeps
    | ok outcome => exact bind ((recordAppliedSpec hkeeps).mono fun _ _ hagrees => .done hagrees)

/-- Every action carries the copy of the context. -/
theorem action (h : ctx.cluster.Agrees copy) (stage : Stage) :
    Carries name Keeps copy (stage.action ctx) := by
  cases stage with
  | startFresh => exact .done h
  | validateSpec =>
    show Carries name Keeps copy (validateSpecStep ctx)
    unfold validateSpecStep
    split
    · exact failStep h _
    · exact .done h
  | createService =>
    refine .other nofun fun reply => ?_
    cases reply with
    | ok => exact .done h
    | error error =>
      show Carries name Keeps copy (if _ then _ else _)
      split
      · exact .done h
      · exact failStep h _
  | tlsValidation =>
    refine bind_aloof (.tlsObjectsValid _) fun result => ?_
    rcases result with error | ⟨_ | _⟩
    · exact failStep h _
    · exact waitStep h _
    · exact .done h
  | createTlsResources =>
    refine bind_aloof (.ensureOperatorSecret _) fun result => ?_
    cases result with
    | error error => exact failStep h _
    | ok => exact .done h
  | deployAutomationConfig =>
    refine bind_aloof (.publishAutomationConfig _) fun result => ?_
    rcases result with error | ⟨config, workload⟩
    · exact failStep h _
    · show Carries name Keeps copy (if _ then _ else _)
      split
      · exact .done h
      · have hseen : Context.cluster { ctx with observedWorkload := workload } = ctx.cluster := rfl
        exact waitStep (hseen ▸ h) _
  | deployWorkload =>
    refine bind_aloof (.ensureWorkload _) fun result => ?_
    cases result with
    | error error => exact failStep h _
    | ok workload =>
      show Carries name Keeps copy (if _ then _ else _)
      split
      · exact .done h
      · have hseen : Context.cluster { ctx with observedWorkload := some workload } =
            ctx.cluster := rfl
        exact waitStep (hseen ▸ h) _
  | resetUpdateStrategy =>
    refine bind_aloof (.resetStrategy _) fun result => ?_
    cases result with
    | error error => exact failStep h _
    | ok workload => exact .done h
  | updateStatus => exact updateStatusStep h
  | reconciliationEnd => exact reconciliationEnd h

/-! ## A call of the reconciler -/

/-- A stage is left under the name of the cluster, if it is left. -/
def LeavesAt (name : ResourceName) (_ : DbCluster) (x : Attempt) : Prop :=
  ∀ key stage next outcome, x = .leaving key stage next outcome → key = name

/-- A call that is over leaves no stage. -/
theorem leavesAt_ended {conclusion : Conclusion} : LeavesAt name copy (.ended conclusion) := nofun

/-- Running a stage carries the copy that was observed. -/
theorem runStage (h : ctx.cluster.Agrees copy) (stage : Stage) :
    Carries name (LeavesAt name) copy (Reconciler.runStage name stage ctx) := by
  refine bind ((action h stage).mono fun copy (result, ctx') hkeeps => ?_)
  cases result with
  | error cause => exact .done leavesAt_ended
  | ok outcome =>
    refine bind_aloof (.isComplete stage ctx') fun verdict => ?_
    rcases verdict with cause | ⟨_ | _⟩
    · exact .done leavesAt_ended
    · exact .done leavesAt_ended
    · refine .done fun key stage next outcome hleaving => ?_
      cases hleaving
      rfl

/-- The first part of a call carries whatever copy it reads. -/
theorem attempt (r : Reconciler) (now : Timestamp) :
    Carries name (LeavesAt name) copy (r.attempt now name) := by
  refine .read (fun c hname => ?_) fun error => .done leavesAt_ended
  rw [Program.bind]
  dsimp only
  cases resumeStage c with
  | error error => exact .done leavesAt_ended
  | ok stage =>
    dsimp only
    unfold Context.observe
    rw [ExceptT.run_bind, bind_assoc]
    refine bind_aloof (.findResource (by decide) _) fun found => ?_
    cases found with
    | error error => exact .done leavesAt_ended
    | ok workload => exact hname ▸ runStage (.refl c) stage

/-- The resume point is written on a copy of its own, read right before. -/
theorem saveNextState (next : String) :
    Carries name (fun _ _ => True) copy (saveNextState name next) := by
  refine .read (fun c hname => ?_) fun error => .done trivial
  rw [Program.bind]
  dsimp only
  cases progressRecord c with
  | error error => exact .done trivial
  | ok record =>
    refine .replace (c.agrees_withProgress _) fun reply => ?_
    cases reply <;> exact .done trivial

/-- The second part of a call carries the copy that it reads for itself. -/
theorem conclude {r : Reconciler} (hr : r.pacer.Silent) {x : Attempt} (hx : LeavesAt name copy x) :
    Carries name (fun _ _ => True) copy (r.conclude x) := by
  cases x with
  | ended conclusion => exact .done trivial
  | leaving key stage next outcome =>
    obtain rfl := hx key stage next outcome rfl
    refine bind_aloof (.of_onlySleeps hr.before) fun _ => ?_
    refine bind ((saveNextState _).mono fun copy result _ => ?_)
    cases result with
    | error cause => exact .done trivial
    | ok => exact bind_aloof (.of_onlySleeps hr.after) fun _ => .done trivial

end Carries

/-- **A call of the reconciler carries the cluster**, whatever its record says. -/
theorem Reconciler.carries_reconcile {r : Reconciler} (hr : r.pacer.Silent) (now : Timestamp)
    (name : ResourceName) (copy : DbCluster) :
    Carries name (fun _ _ => True) copy (r.reconcile now name) := by
  rw [reconcile_eq]
  exact .bind ((Carries.attempt r now).mono fun _ _ hx => .conclude hr hx)

end Reconciliation
