/-
# What the stages do to a scene

`Scene.Acts` says for each stage what its action and its completion check leave
behind in calm surroundings, and `Scene.Turn` how the stage is left.  Running a stage
is one of these turns (`leads_runStage`): later proofs about passes look at turns
only and never at the calls that a stage makes.
-/

import Reconciliation.Proofs.Cluster.Attempt
import Reconciliation.Proofs.Cluster.Leads
import Reconciliation.Proofs.Cluster.Progress

namespace Reconciliation

/-! ## What is written -/

/-- The cluster after a status write. -/
def DbCluster.written (c : DbCluster) (o : StatusOptions) (now : Timestamp) : DbCluster :=
  { c with status := o.apply now c.status }

/-- A status write of a stage that waits or fails: it counts no members. -/
def StatusOptions.Modest (o : StatusOptions) : Prop :=
  o.members = none ∧ (o.phase = some .pending ∨ o.phase = some .failed)

/-- The automation config that is stored once the wanted one is published. -/
def AutomationConfig.publishedOver (wanted : AutomationConfig) :
    Option AutomationConfig → AutomationConfig
  | some existing =>
    if existing.sameContent wanted then existing
    else { wanted with version := existing.version + 1 }
  | none => wanted

/-- Agents reach a config when all replicas are ready and know its version. -/
theorem Workload.agentsReached_iff {w : Workload} {version : UInt64} :
    w.agentsReached version = true ↔
      w.status.readyReplicas = w.replicas ∧ version ≤ w.status.agentsGoalVersion := by
  simp [agentsReached, isReady]

namespace Scene

/-- The scene with another cluster. -/
def withCluster (a : Scene) (cluster : DbCluster) : Scene := { a with cluster }

/-- The scene after the wanted automation config was published. -/
def published (a : Scene) : Scene :=
  { a with config := some ((wantedAutomationConfig a.cluster).publishedOver a.config) }

/-- The scene after a workload was written over the one that is there. -/
def deploy (a : Scene) (w : Workload) : Scene :=
  { a with workload := some { w with status := (a.workload.map Workload.status).getD .fresh } }

/-- The scene after the wanted workload was written. -/
def deployed (a : Scene) : Scene := a.deploy (wantedWorkload a.cluster)

/-- The scene after the workload got its rolling updates back. -/
def reset (a : Scene) : Scene :=
  { a with workload := a.workload.map fun w => { w with updateStrategy := .rollingUpdate } }

/-- Nothing happened but reports and at most a status write that counts no members. -/
def Rests (now : Timestamp) (a b : Scene) : Prop :=
  a.Settles b ∨ ∃ o : StatusOptions, o.Modest ∧ (a.withCluster (a.cluster.written o now)).Settles b

/-- The agents of the workload follow the automation config. -/
def Followed (a : Scene) : Prop :=
  ∀ w ∈ a.workload, ∀ config ∈ a.config, w.agentsReached config.version = true

/-- The workload is ready, or its members are restarted by hand. -/
def Deployed (a : Scene) : Prop :=
  ∃ w ∈ a.workload, w.isReady = true ∨ w.updateStrategy = .onDelete

theorem Followed.of_settles {a b : Scene} (h : a.Followed) (hab : a.Settles b) : b.Followed := by
  cases hab with
  | still => exact h
  | caughtUp w hw =>
    intro w' hw' config hconfig
    obtain rfl := Option.some.inj hw'
    have hconfig : a.config = some config := hconfig
    rw [Workload.agentsReached_iff]
    simp [Workload.caughtUp, goalVersion, hconfig]

theorem Deployed.of_settles {a b : Scene} (h : a.Deployed) (hab : a.Settles b) : b.Deployed := by
  cases hab with
  | still => exact h
  | caughtUp w hw => exact ⟨_, rfl, .inl (by simp [Workload.isReady, Workload.caughtUp])⟩

theorem Rests.settles {now : Timestamp} {a b c : Scene} (h : a.Rests now b) (hbc : b.Settles c) :
    a.Rests now c := by
  rcases h with h | ⟨o, ho, h⟩
  · exact .inl (h.trans hbc)
  · exact .inr ⟨o, ho, h.trans hbc⟩

theorem Settles.rests {now : Timestamp} {a b c : Scene} (hab : a.Settles b) (h : b.Rests now c) :
    a.Rests now c := by
  rcases h with h | ⟨o, ho, h⟩
  · exact .inl (hab.trans h)
  · refine .inr ⟨o, ho, Settles.trans ?_ h⟩
    rw [hab.cluster_eq]
    exact hab.withCluster _

end Scene

/-! ## The acts of the stages -/

/-- The stages before the deployment. -/
def Stage.prepares : Stage → Bool
  | .startFresh | .validateSpec | .createService | .tlsValidation | .createTlsResources => true
  | _ => false

namespace Scene

/-- What a stage leaves behind when it is run on what was observed of the scene, and
whether it is complete then. -/
inductive Acts (ctx : Context) (a : Scene) : Stage → (complete : Bool) → Scene → Prop
  /-- A stage before the deployment leaves the scene at rest. -/
  | prepared {stage : Stage} {complete : Bool} {b : Scene} (prepares : stage.prepares = true)
      (rest : a.Rests ctx.now b) : Acts ctx a stage complete b
  /-- The config is published, and complete once the agents follow it. -/
  | published {complete : Bool} {b c d : Scene} (before : a.Settles c)
      (publish : c.published.Settles d) (rest : d.Rests ctx.now b)
      (followed : complete = true → b.Followed) : Acts ctx a .deployAutomationConfig complete b
  /-- The workload is written, and complete once it is deployed. -/
  | deployed {complete : Bool} {b c d : Scene} (before : a.Settles c)
      (deploy : c.deployed.Settles d) (rest : d.Rests ctx.now b)
      (isDeployed : complete = true → b.Deployed) : Acts ctx a .deployWorkload complete b
  /-- The workload has its rolling updates back. -/
  | reset {b c : Scene} (before : a.Settles c) (reset : c.reset.Settles b)
      (stored : b.workload ≠ none) : Acts ctx a .resetUpdateStrategy true b
  /-- There is no workload to be reset. -/
  | missing {b : Scene} (rest : a.Rests ctx.now b) : Acts ctx a .resetUpdateStrategy false b
  /-- A scaling step is counted, and more are to follow. -/
  | counted {b : Scene} (scaling : a.cluster.isStillScaling = true)
      (write : (a.withCluster (a.cluster.written (scalingStatus ctx) ctx.now)).Settles b) :
      Acts ctx a .updateStatus true b
  /-- The cluster is published as running, and its spec remembered. -/
  | running {b : Scene} (finished : a.cluster.isStillScaling = false)
      (write : (a.withCluster
        (withAppliedSpec (a.cluster.written (runningStatus ctx) ctx.now))).Settles b) :
      Acts ctx a .updateStatus true b
  /-- The progress record is empty. -/
  | ended {b : Scene} (write : (a.withCluster (withFreshProgress a.cluster)).Settles b) :
      Acts ctx a .reconciliationEnd true b

/-- At rest nothing changes but the status of the cluster and that of the workload. -/
theorem Rests.exists_settles {now : Timestamp} {a b : Scene} (h : a.Rests now b) :
    ∃ cluster, (a.withCluster cluster).Settles b := by
  rcases h with h | ⟨o, -, h⟩
  · exact ⟨a.cluster, h⟩
  · exact ⟨_, h⟩

theorem Rests.config_eq {now : Timestamp} {a b : Scene} (h : a.Rests now b) :
    b.config = a.config := by
  obtain ⟨cluster, h⟩ := h.exists_settles
  exact h.config_eq

theorem Rests.workload_ne_none {now : Timestamp} {a b : Scene} (h : a.Rests now b)
    (hsome : a.workload ≠ none) : b.workload ≠ none := by
  obtain ⟨cluster, h⟩ := h.exists_settles
  exact h.workload_ne_none hsome

/-- Reports after a stage was run are part of what it leaves behind. -/
theorem Acts.settles {ctx : Context} {a b c : Scene} {stage : Stage} {complete : Bool}
    (h : a.Acts ctx stage complete b) (hbc : b.Settles c) : a.Acts ctx stage complete c := by
  cases h with
  | prepared hprepares rest => exact .prepared hprepares (rest.settles hbc)
  | published before publish rest followed =>
    exact .published before publish (rest.settles hbc) fun h => (followed h).of_settles hbc
  | deployed before deploy rest isDeployed =>
    exact .deployed before deploy (rest.settles hbc) fun h => (isDeployed h).of_settles hbc
  | reset before reset stored =>
    exact .reset before (reset.trans hbc) (hbc.workload_ne_none stored)
  | missing rest => exact .missing (rest.settles hbc)
  | counted scaling write => exact .counted scaling (write.trans hbc)
  | running finished write => exact .running finished (write.trans hbc)
  | ended write => exact .ended (write.trans hbc)

/-- Reports before a stage is run are part of what it leaves behind. -/
theorem Settles.acts {ctx : Context} {a b c : Scene} {stage : Stage} {complete : Bool}
    (hab : a.Settles b) (h : b.Acts ctx stage complete c) : a.Acts ctx stage complete c := by
  have hcluster := hab.cluster_eq
  cases h with
  | prepared hprepares rest => exact .prepared hprepares (hab.rests rest)
  | published before publish rest followed =>
    exact .published (hab.trans before) publish rest followed
  | deployed before deploy rest isDeployed =>
    exact .deployed (hab.trans before) deploy rest isDeployed
  | reset before reset stored => exact .reset (hab.trans before) reset stored
  | missing rest => exact .missing (hab.rests rest)
  | counted scaling write =>
    rw [hcluster] at scaling write
    exact .counted scaling ((hab.withCluster _).trans write)
  | running finished write =>
    rw [hcluster] at finished write
    exact .running finished ((hab.withCluster _).trans write)
  | ended write =>
    rw [hcluster] at write
    exact .ended ((hab.withCluster _).trans write)

end Scene

/-! ## What a context knows -/

/-- The context was observed from the first scene and kept up to date until the
second. -/
structure Context.Knows (ctx : Context) (before after : Scene) : Prop where
  cluster : ctx.cluster = after.cluster
  status : ctx.observedStatus = before.cluster.status
  workload : ctx.observedWorkload.isNone = after.workload.isNone

theorem Context.Knows.settles {ctx : Context} {a b c : Scene} (h : ctx.Knows a b)
    (hbc : b.Settles c) : ctx.Knows a c where
  cluster := h.cluster.trans hbc.cluster_eq.symm
  status := h.status
  workload := h.workload.trans hbc.isNone_workload.symm

/-- A context is kept up to date when another cluster is written. -/
theorem Context.Knows.withCluster {ctx : Context} {a b c : Scene} {cluster : DbCluster}
    (h : ctx.Knows a b) (hbc : (b.withCluster cluster).Settles c) :
    Context.Knows { ctx with cluster } a c where
  cluster := hbc.cluster_eq.symm
  status := h.status
  workload := h.workload.trans hbc.isNone_workload.symm

/-- A context is kept up to date when the workload is looked at again. -/
theorem Context.Knows.observe {ctx : Context} {a b c : Scene} {w : Option Workload}
    (h : ctx.Knows a b) (hcluster : c.cluster = b.cluster) (hw : w.isNone = c.workload.isNone) :
    Context.Knows { ctx with observedWorkload := w } a c where
  cluster := h.cluster.trans hcluster.symm
  status := h.status
  workload := hw

/-- The stage that follows when a stage leads from one scene to another. -/
def Stage.nextFrom? (stage : Stage) (before after : Scene) : Option Stage :=
  stage.next? ⟨after.cluster, before.cluster.status, after.workload, .ofSeconds 0, default⟩

/-- Guards look at nothing else than what a context knows. -/
theorem Context.Knows.next?_eq {ctx : Context} {a b : Scene} (h : ctx.Knows a b) (stage : Stage) :
    stage.next? ctx = stage.nextFrom? a b := by
  obtain ⟨cluster, status, workload, requeue, now⟩ := ctx
  obtain ⟨rfl, rfl, hworkload⟩ := h
  refine Stage.next?_congr ?_ ?_ ?_ ?_ stage
  · rfl
  · simp only [Context.needsConfigFirst, hworkload]
  · rfl
  · rfl

/-- Reports do not change where a stage leads. -/
theorem Scene.Settles.nextFrom?_eq {b c : Scene} (h : b.Settles c) (stage : Stage) (a : Scene) :
    stage.nextFrom? a c = stage.nextFrom? a b := by
  have hknows : Context.Knows
      ⟨b.cluster, a.cluster.status, b.workload, .ofSeconds 0, default⟩ a b := ⟨rfl, rfl, rfl⟩
  exact ((hknows.settles h).next?_eq stage).symm

/-! ## Turns -/

/-- How running a stage on what was observed of a scene can go: the stage stays, or
it is complete and another one follows. -/
inductive Scene.Turn (name : ResourceName) (ctx : Context) (a : Scene) (stage : Stage) :
    Attempt → Scene → Prop
  | stays {b : Scene} {conclusion : Conclusion} (acts : a.Acts ctx stage false b)
      (unfinished : conclusion.result ≠ .ok .done) : Turn name ctx a stage (.ended conclusion) b
  | leaves {b : Scene} {outcome : Outcome} (acts : a.Acts ctx stage true b)
      (finished : outcome = .done ↔ stage = .reconciliationEnd) :
      Turn name ctx a stage (.leaving name stage (stage.nextFrom? a b) outcome) b

end Reconciliation
