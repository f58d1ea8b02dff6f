/-
# Counting members

How many members a scene counts, wants and runs, as natural numbers, what each stage
changes of that and where it leads.  Each stage changes one thing: the automation
config, the replicas, or the count; everything else stays.
-/

import Reconciliation.Proofs.Cluster.Step

namespace Reconciliation

/-- Where there are members, one of them can be taken off. -/
theorem toNat_sub_one_of_pos {count : UInt32} (h : 0 < count.toNat) :
    (count - 1).toNat = count.toNat - 1 :=
  UInt32.toNat_sub_of_le _ _ (UInt32.le_iff_toNat_le.2 h)

/-- One step towards the desired number of members, without wrap-around. -/
theorem toNat_nextMemberCount (current desired : UInt32) :
    (nextMemberCount current desired).toNat =
      if current.toNat = 0 ∨ current.toNat = desired.toNat then desired.toNat
      else if current.toNat < desired.toNat then current.toNat + 1
      else current.toNat - 1 := by
  have hzero : current = 0 ↔ current.toNat = 0 := by
    rw [← UInt32.toNat_inj]
    rfl
  have hdesired := desired.toNat_lt
  unfold nextMemberCount
  simp only [hzero, ← UInt32.toNat_inj, UInt32.lt_iff_toNat_lt]
  split
  · rfl
  · split
    · have hone : (1 : UInt32).toNat = 1 := rfl
      rw [UInt32.toNat_add, hone]
      omega
    · exact toNat_sub_one_of_pos (by omega)

/-- The three ways of a step: to what is wanted, one member up and one member down. -/
theorem nextMemberCount_cases (current desired : UInt32) :
    ((current.toNat = 0 ∨ current.toNat = desired.toNat) ∧
      (nextMemberCount current desired).toNat = desired.toNat) ∨
    (0 < current.toNat ∧ current.toNat < desired.toNat ∧
      (nextMemberCount current desired).toNat = current.toNat + 1) ∨
    (desired.toNat < current.toNat ∧
      (nextMemberCount current desired).toNat + 1 = current.toNat) := by
  have hnext := toNat_nextMemberCount current desired
  split at hnext
  · exact .inl ⟨‹_›, hnext⟩
  · split at hnext <;> omega

/-- Nothing is left to scale when the members of the pass are the wanted ones. -/
theorem DbCluster.isStillScaling_eq_false_iff (c : DbCluster) :
    c.isStillScaling = false ↔ c.membersThisPass = c.desiredMembers := by
  simp [isStillScaling]

namespace Scene

variable (a b : Scene)

/-- The members that the status counts. -/
def current : Nat := a.cluster.currentMembers.toNat

/-- The members that are wanted. -/
def desired : Nat := a.cluster.desiredMembers.toNat

/-- The members to aim for in the pass. -/
def next : Nat := a.cluster.membersThisPass.toNat

/-- The replicas that the workload is asked for, if there is one. -/
def replicas? : Option UInt32 := a.workload.map Workload.replicas

/-- Scaling goes one member towards the wanted number; a cluster without members gets all of them
at once. -/
theorem next_eq : a.next =
    if a.current = 0 ∨ a.current = a.desired then a.desired
    else if a.current < a.desired then a.current + 1 else a.current - 1 :=
  toNat_nextMemberCount a.cluster.currentMembers a.cluster.desiredMembers

/-- The three ways to aim: at what is wanted, one member up and one member down. -/
theorem next_cases : ((a.current = 0 ∨ a.current = a.desired) ∧ a.next = a.desired) ∨
    (a.current < a.desired ∧ a.next = a.current + 1) ∨
    (a.desired < a.current ∧ a.next + 1 = a.current) :=
  (nextMemberCount_cases _ _).imp_right (Or.imp_left And.right)

/-- A cluster is still being scaled when this pass does not reach the wanted number. -/
theorem isStillScaling_iff : a.cluster.isStillScaling = true ↔ a.next ≠ a.desired := by
  simp [DbCluster.isStillScaling, next, desired, UInt32.toNat_inj]

/-- It is not when this pass reaches it. -/
theorem not_isStillScaling_iff : ¬ a.cluster.isStillScaling = true ↔ a.next = a.desired := by
  rw [isStillScaling_iff, not_not]

end Scene

/-! ## What a stage leaves alone -/

/-- The addresses of the members depend on the name and namespace of the cluster. -/
theorem DbCluster.hosts_congr {c d : DbCluster} (hname : d.metadata.name = c.metadata.name)
    (hspace : d.metadata.space = c.metadata.space) : d.hosts = c.hosts := by
  have hhost : d.host = c.host := by
    funext index
    simp only [host, serviceName, hname, hspace]
  funext count
  rw [hosts, hosts, hhost]

/-- Two clusters of the same name that want the same. -/
structure DbCluster.SameSpec (c c' : DbCluster) : Prop where
  spec : c'.spec = c.spec
  name : c'.metadata.name = c.metadata.name
  space : c'.metadata.space = c.metadata.space

namespace DbCluster.SameSpec

variable {c c' c'' : DbCluster}

/-- A cluster has its own spec. -/
theorem refl (c : DbCluster) : c.SameSpec c := ⟨rfl, rfl, rfl⟩

/-- Clusters with the spec of a third one have the same spec. -/
theorem trans (h : c.SameSpec c') (h' : c'.SameSpec c'') : c.SameSpec c'' :=
  ⟨h'.spec.trans h.spec, h'.name.trans h.name, h'.space.trans h.space⟩

/-- The wanted number of members is a matter of the spec. -/
theorem desiredMembers_eq (h : c.SameSpec c') : c'.desiredMembers = c.desiredMembers :=
  congrArg ClusterSpec.members h.spec

/-- The members have the same addresses. -/
theorem hosts_eq (h : c.SameSpec c') (count : UInt32) : c'.hosts count = c.hosts count :=
  congrFun (hosts_congr h.name h.space) count

end DbCluster.SameSpec

namespace Scene

/-- What a stage leaves alone: each stage changes one thing at most, be it the
automation config, the replicas or the count of members. -/
structure Frame (stage : Stage) (a b : Scene) : Prop where
  sameSpec : a.cluster.SameSpec b.cluster
  config : stage ≠ .deployAutomationConfig → b.config = a.config
  replicas : stage ≠ .deployWorkload → b.replicas? = a.replicas?
  members : stage ≠ .updateStatus → b.cluster.currentMembers = a.cluster.currentMembers
  changing : stage ≠ .updateStatus → b.cluster.isChangingVersion = a.cluster.isChangingVersion

variable {stage : Stage} {a b c : Scene}

/-- What two steps leave alone both together leave alone. -/
theorem Frame.trans (h : Frame stage a b) (h' : Frame stage b c) : Frame stage a c where
  sameSpec := h.sameSpec.trans h'.sameSpec
  config hstage := (h'.config hstage).trans (h.config hstage)
  replicas hstage := (h'.replicas hstage).trans (h.replicas hstage)
  members hstage := (h'.members hstage).trans (h.members hstage)
  changing hstage := (h'.changing hstage).trans (h.changing hstage)

/-- No stage changes the wanted number. -/
theorem Frame.desired_eq (h : Frame stage a b) : b.desired = a.desired :=
  congrArg UInt32.toNat h.sameSpec.desiredMembers_eq

/-- Members are counted when the status is published, and by no other stage. -/
theorem Frame.current_eq (h : Frame stage a b) (hstage : stage ≠ .updateStatus) :
    b.current = a.current :=
  congrArg UInt32.toNat (h.members hstage)

/-- All the stages before that work towards one number of members. -/
theorem Frame.membersThisPass_eq (h : Frame stage a b) (hstage : stage ≠ .updateStatus) :
    b.cluster.membersThisPass = a.cluster.membersThisPass := by
  rw [DbCluster.membersThisPass, h.members hstage, h.sameSpec.desiredMembers_eq]
  rfl

/-- This is also the number that is counted next. -/
theorem Frame.next_eq (h : Frame stage a b) (hstage : stage ≠ .updateStatus) : b.next = a.next :=
  congrArg UInt32.toNat (h.membersThisPass_eq hstage)

/-- Workloads are added by one stage and removed by none. -/
theorem Frame.workload_eq_none_iff (h : Frame stage a b) (hstage : stage ≠ .deployWorkload) :
    b.workload = none ↔ a.workload = none := by
  have hreplicas := h.replicas hstage
  rw [replicas?, replicas?] at hreplicas
  rw [← Option.map_eq_none_iff (f := Workload.replicas), hreplicas, Option.map_eq_none_iff]

/-- A rollout changes no number of replicas. -/
theorem Settles.replicas?_eq (h : a.Settles b) : b.replicas? = a.replicas? :=
  h.map_workload Workload.replicas fun _ _ => rfl

/-- What settles on its own keeps the frame of every stage. -/
theorem Settles.frame (h : a.Settles b) (stage : Stage) : Frame stage a b where
  sameSpec := h.cluster_eq ▸ .refl _
  config _ := h.config_eq
  replicas _ := h.replicas?_eq
  members _ := by rw [h.cluster_eq]
  changing _ := by rw [h.cluster_eq]

/-- A status write that counts no members is in every frame. -/
theorem Rests.frame {now : Timestamp} (h : a.Rests now b) (stage : Stage) : Frame stage a b := by
  rcases h with h | ⟨o, ho, h⟩
  · exact h.frame stage
  · refine Frame.trans ?_ (h.frame stage)
    refine ⟨⟨rfl, rfl, rfl⟩, fun _ => rfl, fun _ => rfl, fun _ => ?_, fun _ => rfl⟩
    show o.members.getD a.cluster.currentMembers = a.cluster.currentMembers
    rw [ho.1]
    rfl

/-- Writing the resume point is in every frame. -/
theorem frame_saved (stage : Stage) (a : Scene) (record : Progress) (next : String) :
    Frame stage a (a.saved record next) where
  sameSpec := ⟨rfl, rfl, rfl⟩
  config _ := rfl
  replicas _ := rfl
  members _ := rfl
  changing _ := DbCluster.isChangingVersion_annotate _ _ _ (by decide)

/-- The work of a stage keeps its frame. -/
theorem Acts.frame {ctx : Context} {complete : Bool} (h : a.Acts ctx stage complete b) :
    Frame stage a b := by
  cases h with
  | prepared _ rest => exact rest.frame stage
  | published before publish rest =>
    have hpublished : ∀ c : Scene, Frame .deployAutomationConfig c c.published := fun c =>
      ⟨.refl _, fun h => absurd rfl h, fun _ => rfl, fun _ => rfl, fun _ => rfl⟩
    exact ((before.frame _).trans (hpublished _)).trans ((publish.frame _).trans (rest.frame _))
  | deployed before deploy rest =>
    have hdeployed : ∀ c : Scene, Frame .deployWorkload c c.deployed := fun c =>
      ⟨.refl _, fun _ => rfl, fun h => absurd rfl h, fun _ => rfl, fun _ => rfl⟩
    exact ((before.frame _).trans (hdeployed _)).trans ((deploy.frame _).trans (rest.frame _))
  | @reset b c before reset =>
    refine ((before.frame _).trans ?_).trans (reset.frame _)
    refine ⟨.refl _, fun _ => rfl, fun _ => ?_, fun _ => rfl, fun _ => rfl⟩
    show (c.workload.map _).map Workload.replicas = c.workload.map Workload.replicas
    rw [Option.map_map]
    rfl
  | missing rest => exact rest.frame _
  | counted _ write =>
    refine Frame.trans ?_ (write.frame _)
    exact ⟨⟨rfl, rfl, rfl⟩, fun _ => rfl, fun _ => rfl, fun h => absurd rfl h,
      fun h => absurd rfl h⟩
  | running _ write =>
    refine Frame.trans ?_ (write.frame _)
    exact ⟨⟨rfl, rfl, rfl⟩, fun _ => rfl, fun _ => rfl, fun h => absurd rfl h,
      fun h => absurd rfl h⟩
  | ended write =>
    refine Frame.trans ?_ (write.frame _)
    refine ⟨⟨rfl, rfl, rfl⟩, fun _ => rfl, fun _ => rfl, fun _ => rfl, fun _ => ?_⟩
    exact DbCluster.isChangingVersion_annotate _ _ _ (by decide)

/-! ## What a stage changes -/

/-- The published config is stored. -/
theorem Acts.config_eq {ctx : Context} {complete : Bool}
    (h : a.Acts ctx .deployAutomationConfig complete b) : b.config = a.published.config := by
  cases h with
  | prepared hprepares => cases hprepares
  | published before publish rest =>
    rw [rest.config_eq, publish.config_eq, Scene.published, Scene.published, before.cluster_eq,
      before.config_eq]

/-- The workload has the replicas of the pass. -/
theorem Acts.replicas?_eq {ctx : Context} {complete : Bool}
    (h : a.Acts ctx .deployWorkload complete b) :
    b.replicas? = some a.cluster.membersThisPass := by
  cases h with
  | prepared hprepares => cases hprepares
  | @deployed _ b c d before deploy rest =>
    have hwanted : c.deployed.replicas? = some a.cluster.membersThisPass := by
      rw [← before.cluster_eq]
      rfl
    rw [(rest.frame .updateStatus).replicas nofun, deploy.replicas?_eq, hwanted]

/-- The members of the pass are counted. -/
theorem Acts.currentMembers_eq {ctx : Context} {complete : Bool} (hknows : ctx.Knows a a)
    (h : a.Acts ctx .updateStatus complete b) :
    b.cluster.currentMembers = a.cluster.membersThisPass := by
  cases h with
  | prepared hprepares => cases hprepares
  | counted _ write =>
    rw [write.cluster_eq, ← hknows.cluster]
    rfl
  | running _ write =>
    rw [write.cluster_eq, ← hknows.cluster]
    rfl

/-- The cluster is published as running exactly when nothing is left to scale. -/
theorem Acts.phase_eq_running_iff {ctx : Context} {complete : Bool}
    (h : a.Acts ctx .updateStatus complete b) :
    b.cluster.status.phase = .running ↔ a.cluster.isStillScaling = false := by
  cases h with
  | prepared hprepares => cases hprepares
  | counted scaling write =>
    rw [write.cluster_eq, scaling]
    exact iff_of_false nofun nofun
  | running finished write =>
    rw [write.cluster_eq, finished]
    exact iff_of_true rfl rfl

/-! ## What a step leaves alone and what it changes -/

/-- A step is the act of its stage, with or without the write of the resume point. -/
theorem Step.exists_acts {lossy : Bool} {conclusion : Conclusion} {after : Stage}
    (h : a.Step lossy stage conclusion after b) :
    ∃ ctx complete c, ctx.Knows a a ∧ a.Acts ctx stage complete c ∧
      (b = c ∨ ∃ record next, b = c.saved record next) := by
  cases h with
  | stays knows acts => exact ⟨_, _, _, knows, acts, .inl rfl⟩
  | advances knows acts => exact ⟨_, _, _, knows, acts, .inr ⟨_, _, rfl⟩⟩
  | unsaved _ knows acts => exact ⟨_, _, _, knows, acts, .inl rfl⟩

/-- Writing the resume point does not change where a stage leads. -/
theorem nextFrom?_saved (stage : Stage) (a b : Scene) (record : Progress) (next : String) :
    stage.nextFrom? a (b.saved record next) = stage.nextFrom? a b := by
  refine Stage.next?_congr ?_ ?_ ?_ ?_ stage
  · rfl
  · rfl
  · rfl
  · exact DbCluster.isChangingVersion_annotate _ _ _ (by decide)

section Steps

variable {lossy : Bool} {conclusion : Conclusion} {after : Stage}

/-- The write of the resume point keeps the frame as well. -/
theorem Step.frame (h : a.Step lossy stage conclusion after b) : Frame stage a b := by
  obtain ⟨ctx, complete, c, -, hacts, rfl | ⟨record, next, rfl⟩⟩ := h.exists_acts
  · exact hacts.frame
  · exact hacts.frame.trans (frame_saved stage c record next)

/-- After the config stage the config is the published one. -/
theorem Step.config_eq (h : a.Step lossy .deployAutomationConfig conclusion after b) :
    b.config = a.published.config := by
  obtain ⟨ctx, complete, c, -, hacts, rfl | ⟨record, next, rfl⟩⟩ := h.exists_acts
  · exact hacts.config_eq
  · exact hacts.config_eq

/-- After the workload stage the workload has the replicas of this pass. -/
theorem Step.replicas?_eq (h : a.Step lossy .deployWorkload conclusion after b) :
    b.replicas? = some a.cluster.membersThisPass := by
  obtain ⟨ctx, complete, c, -, hacts, rfl | ⟨record, next, rfl⟩⟩ := h.exists_acts
  · exact hacts.replicas?_eq
  · exact hacts.replicas?_eq

/-- The workload stage leaves a workload. -/
theorem Step.exists_workload (h : a.Step lossy .deployWorkload conclusion after b) :
    ∃ w, b.workload = some w := by
  obtain ⟨w, hw, -⟩ := Option.map_eq_some_iff.1 h.replicas?_eq
  exact ⟨w, hw⟩

/-- A step keeps the workload. -/
theorem Step.workload_ne_none (h : a.Step lossy stage conclusion after b)
    (hsome : a.workload ≠ none) : b.workload ≠ none := by
  by_cases hstage : stage = .deployWorkload
  · subst hstage
    exact Option.ne_none_iff_exists'.2 h.exists_workload
  · exact fun hnone => hsome ((h.frame.workload_eq_none_iff hstage).1 hnone)

/-- The publishing stage counts the members of this pass. -/
theorem Step.currentMembers_eq (h : a.Step lossy .updateStatus conclusion after b) :
    b.cluster.currentMembers = a.cluster.membersThisPass := by
  obtain ⟨ctx, complete, c, hknows, hacts, rfl | ⟨record, next, rfl⟩⟩ := h.exists_acts
  · exact hacts.currentMembers_eq hknows
  · exact Acts.currentMembers_eq (b := c) hknows hacts

/-- Counted as natural numbers, they are the next number of members. -/
theorem Step.current_eq (h : a.Step lossy .updateStatus conclusion after b) : b.current = a.next :=
  congrArg UInt32.toNat h.currentMembers_eq

/-- A cluster is published as running when nothing is left to be scaled. -/
theorem Step.phase_eq_running_iff (h : a.Step lossy .updateStatus conclusion after b) :
    b.cluster.status.phase = .running ↔ a.cluster.isStillScaling = false := by
  obtain ⟨ctx, complete, c, -, hacts, rfl | ⟨record, next, rfl⟩⟩ := h.exists_acts
  · exact hacts.phase_eq_running_iff
  · exact hacts.phase_eq_running_iff

/-- A call that ends a pass is a call at its end. -/
theorem Step.eq_end_of_done (h : a.Step lossy stage conclusion after b)
    (hdone : conclusion.result = .ok .done) : stage = .reconciliationEnd := by
  cases h with
  | stays _ _ unfinished => exact absurd hdone unfinished
  | advances _ _ finished => exact finished.1 (Except.ok.inj hdone)
  | unsaved => cases hdone

/-- Where nothing is lost, a call at the end of a pass ends it. -/
theorem Step.done_of_end (h : a.Step false .reconciliationEnd conclusion after b) :
    conclusion.result = .ok .done := by
  cases h with
  | stays _ acts =>
    cases acts with
    | prepared hprepares => cases hprepares
  | advances _ _ finished => exact congrArg Except.ok (finished.2 rfl)
  | unsaved lost => cases lost

/-- Where nothing is lost, a stage is run again or another one follows it; the last two
stages are never run again. -/
theorem Step.after_eq (h : a.Step false stage conclusion after b) :
    (after = stage ∧ stage ≠ .updateStatus ∧ stage ≠ .reconciliationEnd) ∨
      after = (stage.nextFrom? a b).getD initialStage := by
  cases h with
  | stays _ acts =>
    refine .inl ⟨rfl, ?_, ?_⟩ <;> rintro rfl
    all_goals
      cases acts with
      | prepared hprepares => cases hprepares
  | advances =>
    refine .inr ?_
    rw [nextFrom?_saved]
  | unsaved lost => cases lost

end Steps

/-! ## Where a stage leads -/

/-- The config comes before the workload: there is no workload yet, or members are to
be removed. -/
def NeedsConfigFirst (a b : Scene) : Prop := b.workload = none ∨ a.desired < a.current

instance (a b : Scene) : Decidable (a.NeedsConfigFirst b) :=
  inferInstanceAs (Decidable (_ ∨ _))

/-- The stage with which deploying begins. -/
def firstDeployment (a b : Scene) : Stage :=
  if a.NeedsConfigFirst b then .deployAutomationConfig else .deployWorkload

/-- The stage after the last one that deploys. -/
def afterDeployment (b : Scene) : Stage :=
  if b.cluster.isChangingVersion = true then .resetUpdateStrategy else .updateStatus

/-- After the workload the strategy is reset, if it has to be, and then the status is published.
-/
theorem afterDeployment_cases (b : Scene) :
    b.afterDeployment = .resetUpdateStrategy ∨ b.afterDeployment = .updateStatus := by
  unfold afterDeployment
  split
  · exact .inl rfl
  · exact .inr rfl

/-- Either the config or the workload comes first. -/
theorem firstDeployment_cases (a b : Scene) :
    (a.NeedsConfigFirst b ∧ a.firstDeployment b = .deployAutomationConfig) ∨
      (¬ a.NeedsConfigFirst b ∧ a.firstDeployment b = .deployWorkload) := by
  unfold firstDeployment
  split
  · exact .inl ⟨‹_›, rfl⟩
  · exact .inr ⟨‹_›, rfl⟩

section Routes

/-- The guards of the workflow, as they see two scenes. -/
private theorem needsConfigFirst_iff (h : a.cluster.SameSpec b.cluster) :
    Context.needsConfigFirst ⟨b.cluster, a.cluster.status, b.workload, .ofSeconds 0, default⟩ =
      true ↔ a.NeedsConfigFirst b := by
  simp [Context.needsConfigFirst, NeedsConfigFirst, current, desired, h.desiredMembers_eq,
    UInt32.lt_iff_toNat_lt, DbCluster.currentMembers]

private theorem isStillScaling_eq (h : a.cluster.SameSpec b.cluster) :
    Context.isStillScaling ⟨b.cluster, a.cluster.status, b.workload, .ofSeconds 0, default⟩ =
      a.cluster.isStillScaling := by
  rw [Context.isStillScaling, h.desiredMembers_eq]
  rfl

variable (h : a.cluster.SameSpec b.cluster)
include h

/-- TLS is validated where it is switched on. -/
theorem nextFrom?_createService : Stage.createService.nextFrom? a b =
    some (if b.cluster.spec.security.tls.enabled = true then .tlsValidation
      else a.firstDeployment b) := by
  rw [Stage.nextFrom?, Stage.next?_createService]
  simp only [Context.firstDeployment, Context.tlsEnabled, needsConfigFirst_iff h, firstDeployment]

/-- The resources of TLS are followed by the first deployment. -/
theorem nextFrom?_createTlsResources :
    Stage.createTlsResources.nextFrom? a b = some (a.firstDeployment b) := by
  rw [Stage.nextFrom?, Stage.next?_createTlsResources]
  simp only [Context.firstDeployment, needsConfigFirst_iff h, firstDeployment]

/-- After the config comes the workload, unless it came before. -/
theorem nextFrom?_deployAutomationConfig : Stage.deployAutomationConfig.nextFrom? a b =
    some (if a.NeedsConfigFirst b then .deployWorkload else b.afterDeployment) := by
  rw [Stage.nextFrom?, Stage.next?_deployAutomationConfig]
  simp only [Context.afterDeployment, Context.isChangingVersion, needsConfigFirst_iff h,
    afterDeployment]
  rfl

/-- The config follows the workload, unless it came before or scaling goes on. -/
theorem nextFrom?_deployWorkload : Stage.deployWorkload.nextFrom? a b =
    some (if a.cluster.isStillScaling = true then .updateStatus
      else if a.NeedsConfigFirst b then b.afterDeployment else .deployAutomationConfig) := by
  rw [Stage.nextFrom?, Stage.next?_deployWorkload]
  simp only [Context.afterDeployment, Context.isChangingVersion, isStillScaling_eq h,
    needsConfigFirst_iff h, afterDeployment]
  rfl

/-- While scaling goes on the next member is deployed, and then the pass ends. -/
theorem nextFrom?_updateStatus : Stage.updateStatus.nextFrom? a b =
    some (if a.cluster.isStillScaling = true then .deployWorkload else .reconciliationEnd) := by
  rw [Stage.nextFrom?, Stage.next?_updateStatus]
  simp only [isStillScaling_eq h]

/-- A stage before the deployment leads to another one or begins the deployment. -/
theorem nextFrom?_of_prepares (hprepares : stage.prepares = true) :
    ∃ next, stage.nextFrom? a b = some next ∧
      (next.prepares = true ∨ next = a.firstDeployment b) := by
  cases stage with
  | startFresh => exact ⟨_, rfl, .inl rfl⟩
  | validateSpec => exact ⟨_, rfl, .inl rfl⟩
  | createService =>
    refine ⟨_, nextFrom?_createService h, ?_⟩
    split
    · exact .inl rfl
    · exact .inr rfl
  | tlsValidation => exact ⟨_, rfl, .inl rfl⟩
  | createTlsResources => exact ⟨_, nextFrom?_createTlsResources h, .inr rfl⟩
  | deployAutomationConfig | deployWorkload | resetUpdateStrategy | updateStatus
  | reconciliationEnd => cases hprepares

end Routes

/-- A step before the deployment leads to another one or begins the deployment. -/
theorem Step.route_of_prepares {conclusion : Conclusion} {after : Stage}
    (hprepares : stage.prepares = true) (h : a.Step false stage conclusion after b) :
    after.prepares = true ∨ (a.NeedsConfigFirst b ∧ after = .deployAutomationConfig) ∨
      (¬ a.NeedsConfigFirst b ∧ after = .deployWorkload) := by
  rcases h.after_eq with ⟨rfl, -⟩ | hafter
  · exact .inl hprepares
  · obtain ⟨next, hnext, hroute⟩ := nextFrom?_of_prepares h.frame.sameSpec hprepares
    rw [hnext, Option.getD_some] at hafter
    subst hafter
    refine hroute.imp_right ?_
    rintro rfl
    exact a.firstDeployment_cases b

/-- **Where a step leads.** -/
theorem Step.route {conclusion : Conclusion} {after : Stage}
    (h : a.Step false stage conclusion after b) :
    match stage with
    | .deployAutomationConfig => after = .deployAutomationConfig ∨
        (a.NeedsConfigFirst b ∧ after = .deployWorkload) ∨
        (¬ a.NeedsConfigFirst b ∧ after = b.afterDeployment)
    | .deployWorkload => after = .deployWorkload ∨
        (a.next ≠ a.desired ∧ after = .updateStatus) ∨
        (a.next = a.desired ∧ a.desired < a.current ∧ after = b.afterDeployment) ∨
        (a.next = a.desired ∧ a.current ≤ a.desired ∧ after = .deployAutomationConfig)
    | .resetUpdateStrategy => after = .resetUpdateStrategy ∨ after = .updateStatus
    | .updateStatus => (a.next ≠ a.desired ∧ after = .deployWorkload) ∨
        (a.next = a.desired ∧ after = .reconciliationEnd)
    | .reconciliationEnd => after = initialStage
    | _ => after.prepares = true ∨ (a.NeedsConfigFirst b ∧ after = .deployAutomationConfig) ∨
        (¬ a.NeedsConfigFirst b ∧ after = .deployWorkload) := by
  have hspec := h.frame.sameSpec
  cases stage with
  | deployAutomationConfig =>
    rcases h.after_eq with ⟨rfl, -⟩ | hafter
    · exact .inl rfl
    · rw [nextFrom?_deployAutomationConfig hspec, Option.getD_some] at hafter
      split at hafter
      · exact .inr (.inl ⟨‹_›, hafter⟩)
      · exact .inr (.inr ⟨‹_›, hafter⟩)
  | deployWorkload =>
    rcases h.after_eq with ⟨rfl, -⟩ | hafter
    · exact .inl rfl
    · have hsome : b.workload ≠ none := Option.ne_none_iff_exists'.2 h.exists_workload
      rw [nextFrom?_deployWorkload hspec, Option.getD_some] at hafter
      split at hafter
      · exact .inr (.inl ⟨a.isStillScaling_iff.1 ‹_›, hafter⟩)
      · have hlast : a.next = a.desired := a.not_isStillScaling_iff.1 ‹_›
        split at hafter
        · rename_i hneeds
          exact .inr (.inr (.inl ⟨hlast, hneeds.resolve_left hsome, hafter⟩))
        · rename_i hneeds
          exact .inr (.inr (.inr ⟨hlast, Nat.le_of_not_lt fun hlt => hneeds (.inr hlt), hafter⟩))
  | resetUpdateStrategy =>
    rcases h.after_eq with ⟨rfl, -⟩ | hafter
    · exact .inl rfl
    · exact .inr hafter
  | updateStatus =>
    rcases h.after_eq with ⟨-, hne, -⟩ | hafter
    · exact absurd rfl hne
    · rw [nextFrom?_updateStatus hspec, Option.getD_some] at hafter
      split at hafter
      · exact .inl ⟨a.isStillScaling_iff.1 ‹_›, hafter⟩
      · exact .inr ⟨a.not_isStillScaling_iff.1 ‹_›, hafter⟩
  | reconciliationEnd =>
    rcases h.after_eq with ⟨-, -, hne⟩ | hafter
    · exact absurd rfl hne
    · exact hafter
  | startFresh | validateSpec | createService | tlsValidation | createTlsResources =>
    exact h.route_of_prepares rfl

end Scene
end Reconciliation
