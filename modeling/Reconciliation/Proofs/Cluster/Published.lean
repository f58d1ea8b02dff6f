/-
# What a pass leaves behind

What the workload is asked for changes at two stages: it is written as it is wanted, and
it gets its rolling updates back.  The last two stages publish the cluster as running and
empty its progress record.
-/

import Reconciliation.Proofs.Cluster.Members

namespace Reconciliation

/-- What a workload is asked for: everything but its status. -/
def Workload.asked (w : Workload) : Workload := { w with status := .fresh }

/-- The workload with rolling updates. -/
def Workload.rolled (w : Workload) : Workload := { w with updateStrategy := .rollingUpdate }

/-- The cluster is published as running with what its spec wants. -/
structure DbCluster.Published (c : DbCluster) : Prop where
  phase : c.status.phase = .running
  message : c.status.message = ""
  members : c.status.currentMembers = c.spec.members
  workloadReplicas : c.status.currentWorkloadReplicas = c.spec.members
  version : c.status.version = c.spec.version
  uri : c.status.uri = c.connectionUri
  applied : c.lastAppliedVersion? = some c.spec.version

/-- Other annotations are not part of what is published. -/
theorem DbCluster.Published.annotate {c : DbCluster} (h : c.Published) {key : String}
    (hkey : key ≠ appliedVersionAnnotation) (value : String) :
    (c.annotate key value).Published where
  phase := h.phase
  message := h.message
  members := h.members
  workloadReplicas := h.workloadReplicas
  version := h.version
  uri := h.uri
  applied := by
    rw [← show c.lastAppliedVersion? = some (c.annotate key value).spec.version from h.applied]
    simp [lastAppliedVersion?, DbCluster.annotate, hkey]

namespace Scene

variable {a b : Scene} {ctx : Context} {stage : Stage} {complete : Bool}

/-! ## The workload -/

/-- What the workload is asked for, if there is one. -/
def asked? (a : Scene) : Option Workload := a.workload.map Workload.asked

theorem Settles.asked?_eq (h : a.Settles b) : b.asked? = a.asked? :=
  h.map_workload Workload.asked fun _ _ => rfl

theorem Rests.asked?_eq {now : Timestamp} (h : a.Rests now b) : b.asked? = a.asked? := by
  obtain ⟨cluster, h⟩ := h.exists_settles
  exact h.asked?_eq

/-- Only two stages change what the workload is asked for. -/
theorem Acts.asked?_eq (h : a.Acts ctx stage complete b) (hdeploy : stage ≠ .deployWorkload)
    (hreset : stage ≠ .resetUpdateStrategy) : b.asked? = a.asked? := by
  cases h with
  | prepared _ rest => exact rest.asked?_eq
  | @published _ b c d before publish rest =>
    calc b.asked? = c.published.asked? := rest.asked?_eq.trans publish.asked?_eq
      _ = c.asked? := rfl
      _ = a.asked? := before.asked?_eq
  | deployed => exact absurd rfl hdeploy
  | reset => exact absurd rfl hreset
  | missing => exact absurd rfl hreset
  | counted _ write => exact write.asked?_eq
  | running _ write => exact write.asked?_eq
  | ended write => exact write.asked?_eq

/-- The workload is written as it is wanted. -/
theorem Acts.asked?_deployed (h : a.Acts ctx .deployWorkload complete b) :
    b.asked? = some (wantedWorkload a.cluster) := by
  cases h with
  | prepared hprepares => cases hprepares
  | @deployed _ b c d before deploy rest =>
    calc b.asked? = c.deployed.asked? := rest.asked?_eq.trans deploy.asked?_eq
      _ = some (wantedWorkload c.cluster) := rfl
      _ = some (wantedWorkload a.cluster) := by rw [before.cluster_eq]

/-- The workload gets its rolling updates back, and nothing else is asked of it. -/
theorem Acts.asked?_reset (h : a.Acts ctx .resetUpdateStrategy true b) :
    b.asked? = a.asked?.map Workload.rolled := by
  cases h with
  | prepared hprepares => cases hprepares
  | @reset b c before reset =>
    calc b.asked? = c.reset.asked? := reset.asked?_eq
      _ = c.asked?.map Workload.rolled := by
        rw [asked?, asked?, Scene.reset, Option.map_map, Option.map_map]
        rfl
      _ = a.asked?.map Workload.rolled := by rw [before.asked?_eq]

/-- The workload runs the members and the version that are wanted. -/
def Fits (a : Scene) : Prop :=
  ∃ w ∈ a.asked?, w.replicas = a.cluster.spec.members ∧ w.version = a.cluster.spec.version

/-- The workload rolls its updates out. -/
def Rolls (a : Scene) : Prop := ∀ w ∈ a.asked?, w.updateStrategy = .rollingUpdate

theorem Fits.congr (h : a.Fits) (hspec : a.cluster.SameSpec b.cluster)
    (hasked : b.asked? = a.asked?) : b.Fits := by
  rwa [Fits, hasked, hspec.spec]

theorem Rolls.congr (h : a.Rolls) (hasked : b.asked? = a.asked?) : b.Rolls := by
  rwa [Rolls, hasked]

/-- A workload that was asked for all members fits. -/
theorem Acts.fits_deployed (h : a.Acts ctx .deployWorkload complete b)
    (hlast : a.next = a.desired) : b.Fits := by
  have hmembers : a.cluster.membersThisPass = a.cluster.spec.members := UInt32.toNat_inj.1 hlast
  refine ⟨_, h.asked?_deployed, ?_⟩
  rw [h.frame.sameSpec.spec]
  exact ⟨hmembers, rfl⟩

/-- While the version stays the workload is asked to roll its updates out. -/
theorem Acts.rolls_deployed (h : a.Acts ctx .deployWorkload complete b)
    (hversion : b.cluster.isChangingVersion = false) : b.Rolls := by
  have hversion : a.cluster.isChangingVersion = false := by
    rw [← h.frame.changing nofun]
    exact hversion
  rintro w hw
  rw [h.asked?_deployed] at hw
  obtain rfl := Option.some.inj hw
  show (if a.cluster.isChangingVersion = true then _ else _) = _
  rw [hversion]
  rfl

theorem Acts.fits_reset (h : a.Acts ctx .resetUpdateStrategy true b) (hfits : a.Fits) :
    b.Fits := by
  obtain ⟨w, hw, hfits⟩ := hfits
  refine ⟨w.rolled, ?_, ?_⟩
  · rw [h.asked?_reset, hw]
    rfl
  · rw [h.frame.sameSpec.spec]
    exact hfits

theorem Acts.rolls_reset (h : a.Acts ctx .resetUpdateStrategy true b) : b.Rolls := by
  intro w hw
  rw [h.asked?_reset] at hw
  obtain ⟨w', -, rfl⟩ := Option.map_eq_some_iff.1 hw
  rfl

/-! ## The status -/

/-- When nothing is left to scale the cluster is published. -/
theorem Acts.published_running (hknows : ctx.Knows a a) (h : a.Acts ctx .updateStatus complete b)
    (hlast : a.next = a.desired) : b.cluster.Published := by
  have hmembers : a.cluster.membersThisPass = a.cluster.spec.members := UInt32.toNat_inj.1 hlast
  obtain ⟨cluster, status, workload, requeue, now⟩ := ctx
  obtain rfl : cluster = a.cluster := hknows.cluster
  cases h with
  | prepared hprepares => cases hprepares
  | counted scaling => exact absurd hlast (a.isStillScaling_iff.1 scaling)
  | running _ write =>
    rw [write.cluster_eq]
    refine ⟨rfl, rfl, hmembers, hmembers, rfl, rfl, ?_⟩
    have hkey : appliedSpecAnnotation ≠ appliedVersionAnnotation := by decide
    simp [DbCluster.lastAppliedVersion?, withAppliedSpec, withCluster, DbCluster.annotate,
      DbCluster.written, hkey]

/-- The end of a pass leaves what is published alone. -/
theorem Acts.published_end (h : a.Acts ctx .reconciliationEnd complete b)
    (hpublished : a.cluster.Published) : b.cluster.Published := by
  cases h with
  | prepared hprepares => cases hprepares
  | ended write =>
    rw [write.cluster_eq]
    exact hpublished.annotate (by decide) _

end Scene
end Reconciliation
