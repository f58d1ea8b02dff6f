/-
# How a version change is rolled out

While the version changes, members are restarted one by one by hand.  Whether it changes
is told by the version remembered when the cluster was last published as running, and
what is remembered then is what is wanted then.  The workload runs what was wanted when
it was last written.  The two differ as soon as an edit comes in between: the cluster is
published with a version that its workload does not run, and the next pass writes that
version with rolling updates.  `version_change_of_run` says exactly when.
-/

import Reconciliation.Proofs.Cluster.Published
import Reconciliation.Proofs.Cluster.Respecs

namespace Reconciliation

/-! ## Versions in a scene -/

namespace Scene

variable {a b : Scene} {ctx : Context} {stage : Stage} {complete : Bool}

/-- The version that the workload is asked to run, if there is a workload. -/
def version? (a : Scene) : Option String := a.workload.map Workload.version

theorem version?_eq_asked (a : Scene) : a.version? = a.asked?.map Workload.version := by
  rw [asked?, Option.map_map]
  rfl

theorem Settles.version?_eq (h : a.Settles b) : b.version? = a.version? :=
  h.map_workload Workload.version fun _ _ => rfl

/-- The workload is asked to run what is wanted when it is written, and nothing else
changes its version. -/
theorem Acts.version?_eq (h : a.Acts ctx stage complete b) :
    b.version? = if stage = .deployWorkload then some a.cluster.spec.version else a.version? := by
  rw [version?_eq_asked b, version?_eq_asked a]
  split
  · rename_i hdeploy
    subst hdeploy
    rw [h.asked?_deployed]
    rfl
  · rename_i hdeploy
    by_cases hreset : stage = .resetUpdateStrategy
    · subst hreset
      cases h with
      | prepared hprepares => cases hprepares
      | reset before reset stored =>
        have hacts : a.Acts ctx .resetUpdateStrategy true b := .reset before reset stored
        rw [hacts.asked?_reset, Option.map_map]
        rfl
      | missing rest => rw [rest.asked?_eq]
    · rw [h.asked?_eq hdeploy hreset]

/-- The version that is wanted is remembered when the cluster is published as running,
and nothing else changes what is remembered. -/
theorem Acts.lastAppliedVersion?_eq (h : a.Acts ctx stage complete b) :
    b.cluster.lastAppliedVersion? =
      if stage = .updateStatus ∧ a.cluster.isStillScaling = false then
        some a.cluster.spec.version
      else a.cluster.lastAppliedVersion? := by
  have hmetadata : b.cluster.metadata = a.cluster.metadata →
      b.cluster.lastAppliedVersion? = a.cluster.lastAppliedVersion? := by
    intro hm
    rw [DbCluster.lastAppliedVersion?, hm]
    rfl
  cases h with
  | prepared hprepares rest =>
    rw [if_neg (by rintro ⟨rfl, -⟩; cases hprepares)]
    exact hmetadata rest.metadata_eq
  | published before publish rest =>
    have hcluster := publish.cluster_eq.trans before.cluster_eq
    exact hmetadata (rest.metadata_eq.trans (congrArg DbCluster.metadata hcluster))
  | deployed before deploy rest =>
    have hcluster := deploy.cluster_eq.trans before.cluster_eq
    exact hmetadata (rest.metadata_eq.trans (congrArg DbCluster.metadata hcluster))
  | reset before reset =>
    have hcluster := reset.cluster_eq.trans before.cluster_eq
    exact hmetadata (congrArg DbCluster.metadata hcluster)
  | missing rest => exact hmetadata rest.metadata_eq
  | counted scaling write =>
    rw [if_neg (by rintro ⟨-, hfinished⟩; rw [hfinished] at scaling; cases scaling)]
    exact hmetadata (by rw [write.cluster_eq]; rfl)
  | running finished write =>
    rw [if_pos ⟨rfl, finished⟩, write.cluster_eq]
    have hkey : appliedSpecAnnotation ≠ appliedVersionAnnotation := by decide
    simp [DbCluster.lastAppliedVersion?, withAppliedSpec, withCluster, DbCluster.annotate,
      DbCluster.written, hkey]
  | ended write =>
    rw [write.cluster_eq]
    have hkey : progressAnnotation ≠ appliedVersionAnnotation := by decide
    simp [DbCluster.lastAppliedVersion?, withFreshProgress, withCluster, DbCluster.annotate, hkey]

/-- A cluster is published with the version that is wanted. -/
theorem Acts.publishedVersion_eq (hknows : ctx.Knows a a)
    (h : a.Acts ctx .updateStatus complete b) (hfinished : a.cluster.isStillScaling = false) :
    b.cluster.status.version = a.cluster.spec.version := by
  have hlast : a.next = a.desired := a.not_isStillScaling_iff.1 (Bool.eq_false_iff.1 hfinished)
  have hpublished := h.published_running hknows hlast
  exact hpublished.version.trans (congrArg ClusterSpec.version h.frame.sameSpec.spec)

section Steps

variable {lossy : Bool} {conclusion : Conclusion} {after : Stage}

theorem Step.version?_eq (h : a.Step lossy stage conclusion after b) :
    b.version? = if stage = .deployWorkload then some a.cluster.spec.version else a.version? := by
  obtain ⟨ctx, complete, c, -, hacts, rfl | ⟨record, next, rfl⟩⟩ := h.exists_acts
  · exact hacts.version?_eq
  · exact hacts.version?_eq

theorem Step.lastAppliedVersion?_eq (h : a.Step lossy stage conclusion after b) :
    b.cluster.lastAppliedVersion? =
      if stage = .updateStatus ∧ a.cluster.isStillScaling = false then
        some a.cluster.spec.version
      else a.cluster.lastAppliedVersion? := by
  obtain ⟨ctx, complete, c, -, hacts, rfl | ⟨record, next, rfl⟩⟩ := h.exists_acts
  · exact hacts.lastAppliedVersion?_eq
  · rw [← hacts.lastAppliedVersion?_eq]
    have hkey : progressAnnotation ≠ appliedVersionAnnotation := by decide
    simp [DbCluster.lastAppliedVersion?, saved, withProgress, withCluster, DbCluster.annotate, hkey]

theorem Step.publishedVersion_eq (h : a.Step lossy .updateStatus conclusion after b)
    (hfinished : a.cluster.isStillScaling = false) :
    b.cluster.status.version = a.cluster.spec.version := by
  obtain ⟨ctx, complete, c, hknows, hacts, rfl | ⟨record, next, rfl⟩⟩ := h.exists_acts
  · exact hacts.publishedVersion_eq hknows hfinished
  · exact (hacts.publishedVersion_eq hknows hfinished :)

/-- The workload is written for restarts by hand exactly while the version changes. -/
theorem Step.updateStrategy_eq (h : a.Step lossy .deployWorkload conclusion after b) :
    b.asked?.map Workload.updateStrategy =
      some (if a.cluster.isChangingVersion then .onDelete else .rollingUpdate) := by
  obtain ⟨ctx, complete, c, -, hacts, rfl | ⟨record, next, rfl⟩⟩ := h.exists_acts
  · rw [hacts.asked?_deployed]
    rfl
  · show c.asked?.map _ = _
    rw [hacts.asked?_deployed]
    rfl

end Steps
end Scene

/-- The version changes when the one that is remembered is not the one that is wanted. -/
theorem DbCluster.isChangingVersion_iff {c : DbCluster} {version : String}
    (h : c.lastAppliedVersion? = some version) :
    c.isChangingVersion = true ↔ c.spec.version ≠ version := by
  rw [isChangingVersion, h]
  show decide (version ≠ c.spec.version) = true ↔ _
  rw [decide_eq_true_iff, ne_comm]

/-! ## Versions in a run -/

namespace Store

variable (s : Store) (name : ResourceName)

/-- The version that is wanted. -/
def wantedVersion? : Option String := (s.clusters name).map fun c => c.spec.version

/-- The version that the workload is asked to run. -/
def workloadVersion? : Option String := (s.workloads name).map Workload.version

/-- How the members of the workload get a new version. -/
def updateStrategy? : Option UpdateStrategy := (s.workloads name).map Workload.updateStrategy

/-- The version that is published. -/
def publishedVersion? : Option String := (s.clusters name).map fun c => c.status.version

/-- The version that is remembered as fully reconciled. -/
def appliedVersion? : Option String := (s.clusters name).bind DbCluster.lastAppliedVersion?

end Store

/-- The version that was wanted when the workload was last written. -/
def versionDeployed (name : ResourceName) (first : String) (calls : List Call) : Option String :=
  latest (fun call => call.Deploys name) (fun call => call.before.wantedVersion? name) (some first)
    calls

/-- The version that was wanted when the cluster was last published as running. -/
def versionPublished (name : ResourceName) (first : String) (calls : List Call) : Option String :=
  latest (fun call => call.PublishesRunning name) (fun call => call.before.wantedVersion? name)
    (some first) calls

/-- A store in which a cluster has the version that it wants and remembers it; a pass may
be under way. -/
structure Store.Converged (s : Store) (name : ResourceName) (version : String) : Prop where
  wellNamed : s.WellNamed
  resumes : ∃ c stage, s.clusters name = some c ∧ resumeStage c = .ok stage
  wanted : s.wantedVersion? name = some version
  applied : s.appliedVersion? name = some version
  runs : s.workloadVersion? name = some version

section Runs

variable {name : ResourceName} {s : Store} {a b : Scene}

namespace Store.Shows

variable (h : s.Shows name a)
include h

theorem wantedVersion?_eq : s.wantedVersion? name = some a.cluster.spec.version := by
  rw [Store.wantedVersion?, h.cluster]
  rfl

theorem workloadVersion?_eq : s.workloadVersion? name = a.version? := by
  rw [Store.workloadVersion?, h.workload]
  rfl

theorem updateStrategy?_eq : s.updateStrategy? name = a.asked?.map Workload.updateStrategy := by
  rw [Store.updateStrategy?, h.workload, Scene.asked?, Option.map_map]
  rfl

theorem publishedVersion?_eq : s.publishedVersion? name = some a.cluster.status.version := by
  rw [Store.publishedVersion?, h.cluster]
  rfl

theorem appliedVersion?_eq : s.appliedVersion? name = a.cluster.lastAppliedVersion? := by
  rw [Store.appliedVersion?, h.cluster]
  rfl

end Store.Shows

/-- The workload runs one version, and another one is remembered. -/
structure Scene.Recalls (a : Scene) (deployed published : Option String) : Prop where
  runs : a.version? = deployed
  applied : a.cluster.lastAppliedVersion? = published
  remembers : published ≠ none

/-- A scene recalls what was wanted when the workload was last written and when the
cluster was last published as running. -/
theorem Scene.Recalls.step {version : String} {last : Call} {calls : List Call} {lossy : Bool}
    {stage after : Stage}
    (h : a.Recalls (versionDeployed name version calls) (versionPublished name version calls))
    (hseen : last.Seen name lossy stage a after b) :
    b.Recalls (versionDeployed name version (last :: calls))
      (versionPublished name version (last :: calls)) := by
  have hwanted := hseen.before.wantedVersion?_eq
  refine ⟨?_, ?_, ?_⟩
  · rw [hseen.step.version?_eq, versionDeployed, latest, hwanted]
    simp only [hseen.deploys_iff, h.runs]
    rfl
  · rw [hseen.step.lastAppliedVersion?_eq, versionPublished, latest, hwanted]
    simp only [hseen.publishesRunning_iff, h.applied]
    rfl
  · rw [versionPublished, latest, hwanted]
    split
    · nofun
    · exact h.remembers

variable {r : Reconciler} {instant : Bool} {start : Store} {version : String} {calls : List Call}

/-- Edits change neither the workload nor what is remembered. -/
theorem Scene.Recalls.of_run (hr : r.pacer.Silent) (hstart : start.Converged name version)
    (hrun : Run (r.Calls instant name) (Store.Edited name fun _ _ => True) start calls s) :
    ∃ stage a, s.Shows name a ∧ resumeStage a.cluster = .ok stage ∧
      a.Recalls (versionDeployed name version calls) (versionPublished name version calls) := by
  obtain ⟨c, stage, hstored, hstage⟩ := hstart.resumes
  have hshows := hstart.wellNamed.shows hstored
  refine Run.invariant_of_edits (fun calls _ a =>
      a.Recalls (versionDeployed name version calls) (versionPublished name version calls))
    (r.stepsBy_calls hr instant name) hshows hstage hrun ?_
    (fun h hab => ⟨hab.version?_eq.trans h.runs, by rw [hab.cluster_eq]; exact h.applied,
      h.remembers⟩)
    (fun h _ _ => ⟨h.runs, h.applied, h.remembers⟩) fun h hseen => h.step hseen
  exact ⟨hshows.workloadVersion?_eq.symm.trans hstart.runs,
    hshows.appliedVersion?_eq.symm.trans hstart.applied, nofun⟩

/-- **When a version is published as running, and how it is rolled out.**  The spec may be
edited before any call.  The workload has the version that is published and remembered
exactly when that version was wanted when the workload was last written.  A workload that
is written gets another version when another one is wanted than at the last time, but it
is restarted by hand exactly when another one is wanted than when the cluster was last
published as running. -/
theorem version_change_of_run {last : Call} (hr : r.pacer.Silent)
    (hstart : start.Converged name version)
    (hrun : Run (r.Calls instant name) (Store.Edited name fun _ _ => True) start
      (last :: calls) s) :
    (last.PublishesRunning name →
      last.after.publishedVersion? name = last.before.wantedVersion? name ∧
      last.after.appliedVersion? name = last.before.wantedVersion? name ∧
      (last.after.workloadVersion? name = last.after.publishedVersion? name ↔
        versionDeployed name version calls = last.before.wantedVersion? name)) ∧
    (last.Deploys name →
      (last.after.workloadVersion? name ≠ last.before.workloadVersion? name ↔
        versionDeployed name version calls ≠ last.before.wantedVersion? name) ∧
      (last.after.updateStrategy? name = some .onDelete ↔
        versionPublished name version calls ≠ last.before.wantedVersion? name)) := by
  obtain ⟨hcalls, hlast⟩ := hrun.of_cons
  obtain ⟨stage, a, hs, hstage, hrecalls⟩ := Scene.Recalls.of_run hr hstart hcalls
  obtain ⟨after, b, hstep, hb⟩ := hlast.step hr hs hstage
  have hseen : last.Seen name false stage a after b := ⟨hs, hstage, hstep, hb⟩
  rw [hs.wantedVersion?_eq]
  constructor
  · intro hrunning
    obtain ⟨rfl, hfinished⟩ := hseen.publishesRunning_iff.1 hrunning
    have hpublished : last.after.publishedVersion? name = some a.cluster.spec.version := by
      rw [hb.publishedVersion?_eq, hstep.publishedVersion_eq hfinished]
    refine ⟨hpublished, ?_, ?_⟩
    · rw [hb.appliedVersion?_eq, hstep.lastAppliedVersion?_eq, if_pos ⟨rfl, hfinished⟩]
    · rw [hpublished, hb.workloadVersion?_eq, hstep.version?_eq, if_neg nofun, hrecalls.runs]
  · intro hdeploys
    obtain rfl := hseen.deploys_iff.1 hdeploys
    obtain ⟨published, hpublished⟩ := Option.ne_none_iff_exists'.1 hrecalls.remembers
    have hchanging := DbCluster.isChangingVersion_iff (hrecalls.applied.trans hpublished)
    constructor
    · rw [hb.workloadVersion?_eq, hs.workloadVersion?_eq, hstep.version?_eq, if_pos rfl,
        hrecalls.runs, ne_comm]
    · have hother : some published ≠ some a.cluster.spec.version ↔
          a.cluster.isChangingVersion = true := by
        rw [hchanging, Ne, Option.some.injEq, eq_comm]
      rw [hb.updateStrategy?_eq, hstep.updateStrategy_eq, hpublished, hother]
      cases a.cluster.isChangingVersion <;> decide

end Runs

/-! ## Two version changes -/

/-- A cluster of three members that runs version 6.0.5. -/
def DbCluster.upToDate : DbCluster :=
  (DbCluster.scaling 3 3).annotate appliedVersionAnnotation "6.0.5"

theorem Store.converged_deployedFor :
    (Store.deployedFor DbCluster.upToDate.spec .upToDate).Converged ⟨"db", "example"⟩ "6.0.5" where
  wellNamed := Store.wellNamed_deployedFor _ _
  resumes := ⟨.upToDate, .startFresh, by decide +kernel⟩
  wanted := by decide +kernel
  applied := by decide +kernel
  runs := by decide +kernel

/-- The user asks for version 6.0.6. -/
def Incident.upgrade : Incident := .respec fun spec => { spec with version := "6.0.6" }

/-- An upgrade at the beginning of a pass is rolled out by hand and then published. -/
theorem version_change_of_upgrade :
    (∃ last calls s, Run (Reconciler.standard.Calls true ⟨"db", "example"⟩)
      (Store.Edited ⟨"db", "example"⟩ fun _ _ => True)
      (.deployedFor DbCluster.upToDate.spec .upToDate) (last :: calls) s ∧
      last.Deploys ⟨"db", "example"⟩ ∧
      last.after.workloadVersion? ⟨"db", "example"⟩ ≠
        last.before.workloadVersion? ⟨"db", "example"⟩ ∧
      last.after.updateStrategy? ⟨"db", "example"⟩ = some .onDelete) ∧
    ∃ last calls s, Run (Reconciler.standard.Calls true ⟨"db", "example"⟩)
      (Store.Edited ⟨"db", "example"⟩ fun _ _ => True)
      (.deployedFor DbCluster.upToDate.spec .upToDate) (last :: calls) s ∧
      last.PublishesRunning ⟨"db", "example"⟩ ∧
      last.after.workloadVersion? ⟨"db", "example"⟩ = some "6.0.6" := by
  have hallowed : ∀ k, ∀ i ∈ Incident.upgrade :: List.replicate k .call,
      i.Allowed fun _ _ => True := by
    intro k i _
    cases i <;> simp [Incident.Allowed]
  constructor
  · obtain ⟨last, calls, s, hrun, hdeploys, hversion, hpublished⟩ :=
      Reconciler.standard.exists_run_of_incidents true default ⟨"db", "example"⟩
        (.deployedFor DbCluster.upToDate.spec .upToDate) _ (hallowed 3)
        (P := fun last calls => last.Deploys ⟨"db", "example"⟩ ∧
          versionDeployed ⟨"db", "example"⟩ "6.0.5" calls ≠
            last.before.wantedVersion? ⟨"db", "example"⟩ ∧
          versionPublished ⟨"db", "example"⟩ "6.0.5" calls ≠
            last.before.wantedVersion? ⟨"db", "example"⟩) (by decide +kernel)
    have hchange := (version_change_of_run Pacer.silent_none Store.converged_deployedFor hrun).2
      hdeploys
    exact ⟨last, calls, s, hrun, hdeploys, hchange.1.2 hversion, hchange.2.2 hpublished⟩
  · obtain ⟨last, calls, s, hrun, hrunning, hwanted, hversion⟩ :=
      Reconciler.standard.exists_run_of_incidents true default ⟨"db", "example"⟩
        (.deployedFor DbCluster.upToDate.spec .upToDate) _ (hallowed 6)
        (P := fun last calls => last.PublishesRunning ⟨"db", "example"⟩ ∧
          last.before.wantedVersion? ⟨"db", "example"⟩ = some "6.0.6" ∧
          versionDeployed ⟨"db", "example"⟩ "6.0.5" calls =
            last.before.wantedVersion? ⟨"db", "example"⟩) (by decide +kernel)
    have hchange := (version_change_of_run Pacer.silent_none Store.converged_deployedFor hrun).1
      hrunning
    exact ⟨last, calls, s, hrun, hrunning,
      (hchange.2.2.2 hversion).trans (hchange.1.trans hwanted)⟩

/-- It is not true that a version is published only when the workload has it and that
another version is always restarted by hand: an upgrade that comes when the pass is about
to publish the cluster is published at once, and the next pass rolls it out. -/
theorem not_forall_version_change_of_run : ¬ ∀ {r : Reconciler} {instant : Bool}
    {name : ResourceName} {start s : Store} {version : String} {last : Call} {calls : List Call},
    r.pacer.Silent → start.Converged name version →
    Run (r.Calls instant name) (Store.Edited name fun _ _ => True) start (last :: calls) s →
    (last.PublishesRunning name → ∀ v, last.after.publishedVersion? name = some v →
      last.after.appliedVersion? name = some v → last.after.workloadVersion? name = some v) ∧
    (last.Deploys name →
      last.after.workloadVersion? name ≠ last.before.workloadVersion? name →
      last.after.updateStrategy? name = some .onDelete) := by
  intro h
  have hallowed : ∀ i ∈ List.replicate 5 Incident.call ++ [ .upgrade],
      i.Allowed fun _ _ => True := by
    intro i _
    cases i <;> simp [Incident.Allowed]
  obtain ⟨last, calls, s, hrun, hrunning, hpublished, happlied, hworkload⟩ :=
    Reconciler.standard.exists_run_of_incidents true default ⟨"db", "example"⟩
      (.deployedFor DbCluster.upToDate.spec .upToDate) _ hallowed
      (P := fun last _ => last.PublishesRunning ⟨"db", "example"⟩ ∧
        last.after.publishedVersion? ⟨"db", "example"⟩ = some "6.0.6" ∧
        last.after.appliedVersion? ⟨"db", "example"⟩ = some "6.0.6" ∧
        last.after.workloadVersion? ⟨"db", "example"⟩ = some "6.0.5") (by decide +kernel)
  have hruns := (h Pacer.silent_none Store.converged_deployedFor hrun).1 hrunning "6.0.6"
    hpublished happlied
  rw [hworkload] at hruns
  exact absurd hruns (by decide)

end Reconciliation
