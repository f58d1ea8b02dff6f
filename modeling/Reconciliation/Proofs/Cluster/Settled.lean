/-
# Stores with instant rollout

With instant rollout a workload settles with every change that concerns it, so in a store
that was written through its calls alone (`Store.Written`) every workload has caught up:
all its replicas are ready, and its agents know the automation config that is stored
(`Store.Settled`).  Nobody ever has to wait for one.
-/

import Reconciliation.Proofs.Cluster.Scene

namespace Reconciliation
namespace Store

/-- A store with instant rollout that was written through its calls alone. -/
inductive Written : Store → Prop
  | empty : Written .empty
  | perform {s : Store} (h : Written s) (r : Request) : Written (s.perform true r).2
  /-- A cluster is put in place with its status. -/
  | putCluster {s : Store} (h : Written s) (c : DbCluster) : Written (s.insert .cluster c)
  | putConfigMap {s : Store} (h : Written s) (c : ConfigMap) : Written (s.insert .configMap c)
  /-- A workload is told to catch up. -/
  | settle {s : Store} (h : Written s) (name : ResourceName) : Written (s.settle name)

/-- Every workload has caught up. -/
def Settled (s : Store) : Prop :=
  ∀ name w, s.workloads name = some w → w.status = ⟨w.replicas, s.goalVersion name⟩

variable {s t : Store}

/-- Nothing is stored, so nothing is left to be rolled out. -/
theorem settled_empty : empty.Settled := nofun

/-- Settled stores are told by their workloads and automation configs. -/
theorem Settled.congr (h : s.Settled) (hworkloads : t.workloads = s.workloads)
    (hconfigs : t.automationConfigs = s.automationConfigs) : t.Settled := by
  intro name w hw
  rw [hworkloads] at hw
  rw [h name w hw, goalVersion, goalVersion, hconfigs]

@[simp] theorem automationConfigs_settle (s : Store) (name : ResourceName) :
    (s.settle name).automationConfigs = s.automationConfigs := by
  unfold settle
  split <;> rfl

/-- A config that was put in place stays while the workload settles. -/
theorem automationConfigs_put_rollOut (s : Store) (name : ResourceName)
    (config : AutomationConfig) : ((s.put name .automationConfig config).rollOut true
      .automationConfig name).automationConfigs name = some config := by
  have hroll : (s.put name .automationConfig config).rollOut true .automationConfig name =
      (s.put name .automationConfig config).settle name := rfl
  rw [hroll, automationConfigs_settle]
  exact Collection.put_self _ _ _

/-- What a workload has to reach is not changed by its rollout. -/
theorem goalVersion_settle (s : Store) (name other : ResourceName) :
    (s.settle name).goalVersion other = s.goalVersion other := by
  rw [goalVersion, goalVersion, automationConfigs_settle]

/-- The workload that is settled runs all its replicas, with the config of its name. -/
theorem workloads_settle_self (s : Store) (name : ResourceName) :
    (s.settle name).workloads name =
      (s.workloads name).map fun w => { w with status := ⟨w.replicas, s.goalVersion name⟩ } := by
  unfold settle
  cases h : s.workloads name with
  | none => exact h
  | some w => exact Collection.put_self _ _ _

/-- A workload that was put in place has caught up. -/
theorem workloads_put_rollOut (s : Store) (name : ResourceName) (w : Workload) :
    ((s.put name .workload w).rollOut true .workload name).workloads name =
      some { w with status := ⟨w.replicas, s.goalVersion name⟩ } := by
  have hroll : (s.put name .workload w).rollOut true .workload name =
      (s.put name .workload w).settle name := rfl
  have hput : (s.put name .workload w).workloads name = some w := Collection.put_self _ _ _
  rw [hroll, workloads_settle_self, hput]
  rfl

/-- All others are left as they are. -/
theorem workloads_settle_of_ne (s : Store) {name other : ResourceName} (h : other ≠ name) :
    (s.settle name).workloads other = s.workloads other := by
  unfold settle
  split
  · exact Collection.put_of_ne _ _ h
  · rfl

/-- Settling one workload is enough if all others have caught up. -/
theorem settled_settle {name : ResourceName}
    (h : ∀ other ≠ name, ∀ w, s.workloads other = some w →
      w.status = ⟨w.replicas, s.goalVersion other⟩) : (s.settle name).Settled := by
  intro other w hw
  rw [goalVersion_settle]
  by_cases hother : other = name
  · subst hother
    rw [workloads_settle_self, Option.map_eq_some_iff] at hw
    obtain ⟨w', -, rfl⟩ := hw
    rfl
  · rw [workloads_settle_of_ne s hother] at hw
    exact h other hother w hw

/-- Settling one more workload unsettles none. -/
theorem Settled.settle (h : s.Settled) (name : ResourceName) : (s.settle name).Settled :=
  settled_settle fun other _ w hw => h other w hw

/-- A change that the workload of the same name follows leaves no workload behind. -/
theorem Settled.put_rollOut (h : s.Settled) (kind : Kind) (name : ResourceName)
    (object : kind.Object) : ((s.put name kind object).rollOut true kind name).Settled := by
  cases kind with
  | cluster | service | secret | configMap => exact h.congr rfl rfl
  | workload =>
    refine settled_settle fun other hother w hw => ?_
    have hkept : (s.put name .workload object).workloads other = s.workloads other :=
      Collection.put_of_ne _ _ hother
    rw [hkept] at hw
    exact h other w hw
  | automationConfig =>
    refine settled_settle fun other hother w hw => ?_
    have hkept : (s.put name .automationConfig object).automationConfigs other =
        s.automationConfigs other := Collection.put_of_ne _ _ hother
    rw [h other w hw, goalVersion, goalVersion, hkept]

/-- Every call leaves a settled store settled. -/
theorem Settled.perform (h : s.Settled) (r : Request) : (s.perform true r).2.Settled := by
  cases r with
  | get kind name =>
    simp only [Store.perform]
    split <;> exact h
  | create kind object =>
    simp only [Store.perform]
    split
    · exact h
    · have hname : kind.nameOf (kind.initial object) = kind.nameOf object := by cases kind <;> rfl
      rw [insert, hname]
      exact h.put_rollOut kind _ _
  | update kind object =>
    simp only [Store.perform]
    split
    · exact h.put_rollOut kind _ _
    · exact h
  | updateStatus cluster =>
    simp only [Store.perform]
    split
    · exact h.congr rfl rfl
    · exact h

/-- **A written store keeps every object under its name, and all its workloads have
caught up.** -/
theorem Written.wellNamed_and_settled (h : s.Written) : s.WellNamed ∧ s.Settled := by
  induction h with
  | empty => exact ⟨wellNamed_empty, settled_empty⟩
  | perform _ r ih => exact ⟨ih.1.perform true r, ih.2.perform r⟩
  | putCluster _ c ih => exact ⟨ih.1.put .cluster c, ih.2.congr rfl rfl⟩
  | putConfigMap _ c ih => exact ⟨ih.1.put .configMap c, ih.2.congr rfl rfl⟩
  | settle _ name ih => exact ⟨ih.1.settle name, ih.2.settle name⟩

/-- A store that was written by requests holds every object under its own name. -/
theorem Written.wellNamed (h : s.Written) : s.WellNamed := h.wellNamed_and_settled.1

/-- It is settled when rollouts are instant. -/
theorem Written.settled (h : s.Written) : s.Settled := h.wellNamed_and_settled.2

/-- Work that nobody disturbs leaves a written store written. -/
theorem Written.run {α : Type} (h : s.Written) (work : Work α) :
    (work.run (handle true false) s).2.Written := by
  induction work generalizing s with
  | done a => exact h
  | ask effect next ih =>
    cases effect with
    | call r => exact ih _ (h.perform r)
    | sleep d => exact ih _ h

/-- The agents of a settled workload follow the automation config. -/
theorem Settled.agentsReached (h : s.Settled) {name : ResourceName} {w : Workload}
    {config : AutomationConfig} (hw : s.workloads name = some w)
    (hconfig : s.automationConfigs name = some config) : w.agentsReached config.version = true := by
  rw [Workload.agentsReached, Workload.isReady, h name w hw, goalVersion, hconfig]
  simp

/-- In a settled store every workload is ready. -/
theorem Settled.isReady (h : s.Settled) {name : ResourceName} {w : Workload}
    (hw : s.workloads name = some w) : w.isReady = true := by
  rw [Workload.isReady, h name w hw]
  simp

end Store
end Reconciliation
