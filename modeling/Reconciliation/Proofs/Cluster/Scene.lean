/-
# What the store holds for one cluster

The reconciler of a cluster writes three objects under the name of the cluster: the
cluster itself, its workload and its automation config.  A `Scene` is these three.
Readiness is reported from outside at any time; `Scene.Settles` is what reports can
do to a scene, and nothing that a report leaves alone can be changed by it.
-/

import Reconciliation.Proofs.Cluster.Surroundings

namespace Reconciliation

/-! ## Reports -/

/-- What reports of readiness do to a store: some workload catches up. -/
def Store.Reports (s s' : Store) : Prop := ∃ name, s' = s.settle name

/-- The surroundings in which no call fails and others only report readiness. -/
def Surroundings.calm (instant : Bool) : Surroundings := ⟨instant, Store.Reports, false⟩

/-- The surroundings in which others only report readiness, but calls may fail. -/
def Surroundings.lossy (instant : Bool) : Surroundings := ⟨instant, Store.Reports, true⟩

/-- A workload that has caught up with a version of the automation config. -/
def Workload.caughtUp (w : Workload) (version : UInt64) : Workload :=
  { w with status := ⟨w.replicas, version⟩ }

/-! ## Scenes -/

/-- What is stored under the name of a cluster. -/
structure Scene where
  cluster : DbCluster
  workload : Option Workload
  config : Option AutomationConfig

namespace Scene

/-- The version that agents can reach. -/
def goalVersion (a : Scene) : UInt64 :=
  match a.config with
  | some config => config.version
  | none => 0

/-- What reports of readiness can do to a scene. -/
inductive Settles (a : Scene) : Scene → Prop
  | still : a.Settles a
  | caughtUp (w : Workload) (h : a.workload = some w) :
      a.Settles { a with workload := some (w.caughtUp a.goalVersion) }

namespace Settles

variable {a b c : Scene}

/-- Settling twice is settling. -/
theorem trans (h : a.Settles b) (h' : b.Settles c) : a.Settles c := by
  cases h with
  | still => exact h'
  | caughtUp w hw =>
    cases h' with
    | still => exact .caughtUp w hw
    | caughtUp w' hw' =>
      obtain rfl := Option.some.inj hw'
      exact .caughtUp w hw

/-- Rollouts do not touch the cluster. -/
theorem cluster_eq (h : a.Settles b) : b.cluster = a.cluster := by
  cases h <;> rfl

/-- They do not touch the config. -/
theorem config_eq (h : a.Settles b) : b.config = a.config := by
  cases h <;> rfl

/-- A workload that was there is still there, with another status at most. -/
theorem workload_eq (h : a.Settles b) :
    b.workload = a.workload ∨
      ∃ w, a.workload = some w ∧ b.workload = some (w.caughtUp a.goalVersion) := by
  cases h with
  | still => exact .inl rfl
  | caughtUp w hw => exact .inr ⟨w, hw, rfl⟩

/-- They add no workload and take none away. -/
theorem isNone_workload (h : a.Settles b) : b.workload.isNone = a.workload.isNone := by
  cases h with
  | still => rfl
  | caughtUp w hw => rw [hw]; rfl

theorem workload_eq_none (h : a.Settles b) (hnone : a.workload = none) : b.workload = none := by
  have hisNone := h.isNone_workload
  rw [hnone] at hisNone
  exact Option.isNone_iff_eq_none.1 hisNone

theorem workload_ne_none (h : a.Settles b) (hsome : a.workload ≠ none) : b.workload ≠ none := by
  intro hnone
  have hisNone := h.isNone_workload
  rw [hnone] at hisNone
  exact hsome (Option.isNone_iff_eq_none.1 hisNone.symm)

theorem exists_workload (h : a.Settles b) (hsome : a.workload ≠ none) :
    ∃ w, b.workload = some w :=
  Option.ne_none_iff_exists'.1 (h.workload_ne_none hsome)

/-- Reports do not change what a workload was asked for. -/
theorem map_workload {α : Type} (f : Workload → α) (hf : ∀ w status, f { w with status } = f w)
    (h : a.Settles b) : b.workload.map f = a.workload.map f := by
  cases h with
  | still => rfl
  | caughtUp w hw =>
    rw [hw]
    exact congrArg some (hf w _)

/-- A report changes the status of a workload only. -/
theorem withStatus_eq {w stored : Workload} (h : a.Settles b) (hw : a.workload = some w)
    (hstored : b.workload = some stored) :
    ({ w with status := stored.status } : Workload) = stored := by
  cases h with
  | still =>
    obtain rfl := Option.some.inj (hw.symm.trans hstored)
    rfl
  | caughtUp w' hw' =>
    obtain rfl := Option.some.inj (hw'.symm.trans hw)
    obtain rfl := Option.some.inj hstored
    rfl

/-- What the reconciler writes to the cluster can be written before or after. -/
theorem withCluster (h : a.Settles b) (cluster : DbCluster) :
    Settles { a with cluster } { b with cluster } := by
  cases h with
  | still => exact .still
  | caughtUp w hw => exact .caughtUp w hw

end Settles
end Scene

/-! ## Calls in a store -/

namespace Store

variable {instant : Bool} {s : Store} {name : ResourceName} {c new : DbCluster} {kind : Kind}

/-- What is put in place is found there. -/
theorem get?_put_self (s : Store) (name : ResourceName) (kind : Kind) (object : kind.Object) :
    (s.put name kind object).get? kind name = some object := by
  cases kind <;> exact Collection.put_self _ _ _

/-- So there is something in this place. -/
theorem get?_put_ne_none (s : Store) (name : ResourceName) (kind : Kind) (object : kind.Object) :
    (s.put name kind object).get? kind name ≠ none := by
  rw [get?_put_self]
  nofun

/-- Settling a workload takes no object away. -/
theorem get?_settle_ne_none (h : s.get? kind name ≠ none) (other : ResourceName) :
    (s.settle other).get? kind name ≠ none := by
  unfold settle
  split
  · cases kind with
    | workload =>
      by_cases hother : name = other
      · subst hother
        exact get?_put_ne_none s _ .workload _
      · rwa [show (s.put other .workload _).get? .workload name = _ from
          Collection.put_of_ne _ _ hother]
    | cluster | service | automationConfig | secret | configMap => exact h
  · exact h

/-- A rollout takes nothing away. -/
theorem get?_rollOut_ne_none (h : s.get? kind name ≠ none) (instant : Bool) (other : Kind)
    (settling : ResourceName) : (s.rollOut instant other settling).get? kind name ≠ none := by
  unfold rollOut
  split
  · exact get?_settle_ne_none h settling
  · exact h

/-- A stored cluster is read. -/
theorem perform_getCluster (h : s.clusters name = some c) :
    s.perform instant (.get .cluster name) = (.ok c, s) := by
  simp [perform, get?, h]

/-- An update of a stored cluster keeps the status that is stored. -/
theorem perform_updateCluster (h : s.clusters name = some c) (hname : new.resourceName = name) :
    s.perform instant (.update .cluster new) =
      (.ok (), s.put name .cluster { new with status := c.status }) := by
  subst hname
  simp [perform, get?, Kind.nameOf, h, Kind.updated, rollOut, Kind.settlesWorkload]

/-- A status update of a stored cluster keeps all but the status. -/
theorem perform_updateStatus (h : s.clusters name = some c) (hname : new.resourceName = name) :
    s.perform instant (.updateStatus new) =
      (.ok (), s.put name .cluster { c with status := new.status }) := by
  subst hname
  simp [perform, h]

end Store

/-! ## Scenes in a store -/

/-- The store holds a scene under a name, each object under its own name. -/
structure Store.Shows (s : Store) (name : ResourceName) (a : Scene) : Prop where
  cluster : s.clusters name = some a.cluster
  workload : s.workloads name = a.workload
  config : s.automationConfigs name = a.config
  cluster_name : a.cluster.resourceName = name
  workload_name : ∀ w ∈ a.workload, w.name = name

namespace Store.Shows

variable {s : Store} {name : ResourceName} {a : Scene}

/-- What the agents have to reach is seen in the scene. -/
theorem goalVersion_eq (h : s.Shows name a) : s.goalVersion name = a.goalVersion := by
  rw [Store.goalVersion, h.config]
  rfl

/-- A report about any workload changes at most the status of the scene's. -/
theorem settle (h : s.Shows name a) (other : ResourceName) :
    ∃ b, a.Settles b ∧ (s.settle other).Shows name b := by
  unfold Store.settle
  split
  · rename_i w hw
    by_cases hother : name = other
    · subst hother
      rw [h.workload] at hw
      refine ⟨_, .caughtUp w hw, h.cluster, ?_, h.config, h.cluster_name, ?_⟩
      · rw [h.goalVersion_eq]
        simp [Store.put, Workload.caughtUp]
      · intro w' hw'
        obtain rfl := Option.some.inj hw'
        exact h.workload_name w hw
    · refine ⟨a, .still, h.cluster, ?_, h.config, h.cluster_name, h.workload_name⟩
      rw [← h.workload]
      exact Collection.put_of_ne _ _ hother
  · exact ⟨a, .still, h⟩

/-- An instant rollout changes at most the status of the scene's workload. -/
theorem rollOut (h : s.Shows name a) (instant : Bool) (kind : Kind) (other : ResourceName) :
    ∃ b, a.Settles b ∧ (s.rollOut instant kind other).Shows name b := by
  unfold Store.rollOut
  split
  · exact h.settle other
  · exact ⟨a, .still, h⟩

/-- Reports change at most the status of the scene's workload. -/
theorem drifts {around : Surroundings} (haround : around.others = Store.Reports) {t : Store}
    (h : s.Shows name a) (hdrift : around.Drifts s t) : ∃ b, a.Settles b ∧ t.Shows name b := by
  unfold Surroundings.Drifts at hdrift
  rw [haround] at hdrift
  induction hdrift with
  | refl => exact ⟨a, .still, h⟩
  | tail _ change ih =>
    obtain ⟨b, hab, hb⟩ := ih
    obtain ⟨other, rfl⟩ := change
    obtain ⟨c, hbc, hc⟩ := hb.settle other
    exact ⟨c, hab.trans hbc, hc⟩

/-- The cluster of a scene is put in place. -/
theorem put_cluster (h : s.Shows name a) {c : DbCluster} (hname : c.resourceName = name) :
    (s.put name .cluster c).Shows name { a with cluster := c } where
  cluster := Collection.put_self _ _ _
  workload := h.workload
  config := h.config
  cluster_name := hname
  workload_name := h.workload_name

/-- Updating the cluster of a scene, its status apart. -/
theorem perform_updateCluster (h : s.Shows name a) {instant : Bool} {cluster : DbCluster}
    (hname : cluster.resourceName = name) :
    s.perform instant (.update .cluster cluster) =
      (.ok (), s.put name .cluster { cluster with status := a.cluster.status }) := by
  subst hname
  have hroll : ∀ u : Store, u.rollOut instant .cluster cluster.resourceName = u := by
    intro u
    cases instant <;> rfl
  simp only [Store.perform, Kind.nameOf, Store.get?, hroll]
  rw [h.cluster]
  rfl

/-- The workload of a scene is put in place. -/
theorem put_workload (h : s.Shows name a) {w : Workload} (hname : w.name = name) :
    (s.put name .workload w).Shows name { a with workload := some w } where
  cluster := h.cluster
  workload := Collection.put_self _ _ _
  config := h.config
  cluster_name := h.cluster_name
  workload_name := by
    intro w' hw'
    obtain rfl := Option.some.inj hw'
    exact hname

/-- The automation config of a scene is put in place. -/
theorem put_config (h : s.Shows name a) (config : AutomationConfig) :
    (s.put name .automationConfig config).Shows name { a with config := some config } where
  cluster := h.cluster
  workload := h.workload
  config := Collection.put_self _ _ _
  cluster_name := h.cluster_name
  workload_name := h.workload_name

/-- Objects of other kinds are no part of a scene. -/
theorem put_other (h : s.Shows name a) {kind : Kind} (other : ResourceName) (object : kind.Object)
    (hkind : kind = .service ∨ kind = .secret ∨ kind = .configMap) :
    (s.put other kind object).Shows name a := by
  rcases hkind with rfl | rfl | rfl <;>
    exact ⟨h.cluster, h.workload, h.config, h.cluster_name, h.workload_name⟩

end Store.Shows

/-! ## Stores that were written through their calls -/

/-- Every object is kept under its own name. -/
def Store.WellNamed (s : Store) : Prop :=
  ∀ kind name object, s.get? kind name = some object → kind.nameOf object = name

/-- A well-named store shows a scene for every cluster in it. -/
theorem Store.WellNamed.shows {s : Store} (h : s.WellNamed) {name : ResourceName}
    {cluster : DbCluster} (hcluster : s.clusters name = some cluster) :
    s.Shows name ⟨cluster, s.workloads name, s.automationConfigs name⟩ where
  cluster := hcluster
  workload := rfl
  config := rfl
  cluster_name := h .cluster name cluster hcluster
  workload_name := fun w hw => h .workload name w hw

/-- An empty store has no object under a wrong name. -/
theorem Store.wellNamed_empty : Store.empty.WellNamed := by
  intro kind name object h
  cases kind <;> cases h

/-- Objects are put under their own names. -/
theorem Store.WellNamed.put {s : Store} (h : s.WellNamed) (kind : Kind) (object : kind.Object) :
    (s.put (kind.nameOf object) kind object).WellNamed := by
  intro other name found hfound
  by_cases hkind : other = kind
  · subst hkind
    by_cases hname : name = other.nameOf object
    · subst hname
      have hsame : found = object := by
        cases other <;> exact (Option.some.inj ((Collection.put_self _ _ _).symm.trans hfound)).symm
      rw [hsame]
    · refine h other name found ?_
      cases other <;> exact (Collection.put_of_ne _ _ hname).symm.trans hfound
  · refine h other name found ?_
    cases other <;> cases kind <;> first | exact absurd rfl hkind | exact hfound

/-- A workload keeps its name when it settles. -/
theorem Store.WellNamed.settle {s : Store} (h : s.WellNamed) (name : ResourceName) :
    (s.settle name).WellNamed := by
  unfold Store.settle
  split
  · rename_i w hw
    have hname : w.name = name := h .workload name w hw
    subst hname
    exact h.put .workload { w with status := ⟨w.replicas, s.goalVersion w.name⟩ }
  · exact h

/-- Every call leaves a well-named store well-named. -/
theorem Store.WellNamed.perform {s : Store} (h : s.WellNamed) (instant : Bool) (r : Request) :
    (s.perform instant r).2.WellNamed := by
  have hroll : ∀ {t : Store}, t.WellNamed → ∀ kind name,
      (t.rollOut instant kind name).WellNamed := by
    intro t ht kind name
    unfold Store.rollOut
    split
    · exact ht.settle name
    · exact ht
  cases r with
  | get kind name =>
    simp only [Store.perform]
    split <;> exact h
  | create kind object =>
    simp only [Store.perform]
    split
    · exact h
    · have hname : kind.nameOf (kind.initial object) = kind.nameOf object := by cases kind <;> rfl
      rw [← hname]
      exact hroll (h.put kind (kind.initial object)) kind _
  | update kind object =>
    simp only [Store.perform]
    split
    · rename_i stored _
      have hname : kind.nameOf (kind.updated stored object) = kind.nameOf object := by
        cases kind <;> rfl
      rw [← hname]
      exact hroll (h.put kind (kind.updated stored object)) kind _
    · exact h
  | updateStatus cluster =>
    simp only [Store.perform]
    split
    · rename_i stored hstored
      have hname : stored.resourceName = cluster.resourceName := h .cluster _ stored hstored
      rw [← hname]
      exact h.put .cluster { stored with status := cluster.status }
    · exact h

end Reconciliation
