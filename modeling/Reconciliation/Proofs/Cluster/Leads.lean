/-
# Following work through scenes

In calm surroundings work leads from one scene to another.  There is one rule for
each call that the stages of the workflow make under the name of the cluster, and
one for each helper that they share; reports may come before any call.
-/

import Reconciliation.Cluster.Reconciler
import Reconciliation.Proofs.Cluster.Scene

namespace Reconciliation

/-- In calm surroundings the work leads from the scene to `Q`. -/
def Scene.Leads (instant : Bool) (name : ResourceName) (a : Scene) {α : Type} (work : Work α)
    (Q : α → Scene → Prop) : Prop :=
  ∀ s : Store, s.Shows name a →
    Ensures (.calm instant) work s fun x t => ∃ b, t.Shows name b ∧ Q x b

namespace Scene.Leads

variable {instant : Bool} {name : ResourceName} {a : Scene} {α β : Type}

/-- Less may be asked of the end. -/
theorem mono {work : Work α} {Q P : α → Scene → Prop} (h : a.Leads instant name work Q)
    (himp : ∀ x b, Q x b → P x b) : a.Leads instant name work P :=
  fun s hs => (h s hs).mono fun x _ ⟨b, hb, hQ⟩ => ⟨b, hb, himp x b hQ⟩

/-- Work that is done leaves the workload to settle. -/
theorem done {x : α} {Q : α → Scene → Prop} (h : ∀ b, a.Settles b → Q x b) :
    a.Leads instant name (.done x) Q := by
  intro s hs
  refine .done fun t hdrift => ?_
  obtain ⟨b, hab, hb⟩ := hs.drifts rfl hdrift
  exact ⟨b, hb, h b hab⟩

/-- The second piece begins where the first one leads. -/
theorem bind {work : Work α} {k : α → Work β} {Q : β → Scene → Prop}
    (h : a.Leads instant name work fun x b => b.Leads instant name (k x) Q) :
    a.Leads instant name (work >>= k) Q := by
  intro s hs
  exact .bind ((h s hs).mono fun x t ⟨b, hb, hnext⟩ => hnext t hb)

/-! ## Calls -/

/-- A call leads on with its reply, once reports had their turn. -/
theorem call {r : Request} {k : r.Reply → Work β} {Q : β → Scene → Prop}
    (h : ∀ b, a.Settles b → ∀ t : Store, t.Shows name b →
      ∃ c, (t.perform instant r).2.Shows name c ∧
        c.Leads instant name (k (t.perform instant r).1) Q) :
    a.Leads instant name (callStore r >>= k) Q := by
  intro s hs
  refine .call rfl fun t hdrift => ?_
  obtain ⟨b, hab, hb⟩ := hs.drifts rfl hdrift
  obtain ⟨c, hc, hnext⟩ := h b hab t hb
  exact hnext _ hc

/-- The reply to looking up what may be there. -/
def reply (kind : Kind) (name : ResourceName) : Option kind.Object → Except StoreError kind.Object
  | some object => .ok object
  | none => .error (.notFound kind name)

/-- What a lookup gives was found. -/
theorem eq_some_of_reply {kind : Kind} {name : ResourceName} {found : Option kind.Object}
    {object : kind.Object} (h : reply kind name found = .ok object) : found = some object := by
  cases found with
  | none => cases h
  | some found =>
    cases h
    rfl

/-- A lookup changes nothing. -/
theorem perform_get (kind : Kind) (other : ResourceName) (t : Store) :
    t.perform instant (.get kind other) = (reply kind other (t.get? kind other), t) := by
  cases hget : t.get? kind other <;> simp [Store.perform, reply, hget]

/-- The cluster is read as the scene has it. -/
theorem getCluster {k : Except StoreError DbCluster → Work β} {Q : β → Scene → Prop}
    (h : ∀ b, a.Settles b → b.Leads instant name (k (.ok b.cluster)) Q) :
    a.Leads instant name (callStore (.get .cluster name) >>= k) Q := by
  refine call fun b hab t hb => ⟨b, ?_, ?_⟩
  · rwa [perform_get]
  · rw [perform_get]
    show b.Leads instant name (k (reply .cluster name (t.clusters name))) Q
    rw [hb.cluster]
    exact h b hab

/-- The workload is read as the scene has it, once it has settled so far. -/
theorem getWorkload {k : Except StoreError Workload → Work β} {Q : β → Scene → Prop}
    (h : ∀ b, a.Settles b → b.Leads instant name (k (reply .workload name b.workload)) Q) :
    a.Leads instant name (callStore (.get .workload name) >>= k) Q := by
  refine call fun b hab t hb => ⟨b, ?_, ?_⟩
  · rwa [perform_get]
  · rw [perform_get]
    show b.Leads instant name (k (reply .workload name (t.workloads name))) Q
    rw [hb.workload]
    exact h b hab

/-- The config is read as the scene has it. -/
theorem getConfig {k : Except StoreError AutomationConfig → Work β} {Q : β → Scene → Prop}
    (h : ∀ b, a.Settles b → b.Leads instant name (k (reply .automationConfig name b.config)) Q) :
    a.Leads instant name (callStore (.get .automationConfig name) >>= k) Q := by
  refine call fun b hab t hb => ⟨b, ?_, ?_⟩
  · rwa [perform_get]
  · rw [perform_get]
    show b.Leads instant name (k (reply .automationConfig name (t.automationConfigs name))) Q
    rw [hb.config]
    exact h b hab

/-- Looking up an object that is no part of the scene. -/
theorem getOther {kind : Kind} {other : ResourceName}
    {k : Except StoreError kind.Object → Work β} {Q : β → Scene → Prop}
    (h : ∀ b, a.Settles b → ∀ found, b.Leads instant name (k (reply kind other found)) Q) :
    a.Leads instant name (callStore (.get kind other) >>= k) Q := by
  refine call fun b hab t hb => ⟨b, ?_, ?_⟩
  · rwa [perform_get]
  · rw [perform_get]
    exact h b hab _

/-- Adding an object that is no part of the scene. -/
theorem createOther {kind : Kind} (hkind : kind = .service ∨ kind = .secret ∨ kind = .configMap)
    {object : kind.Object} {k : Except StoreError Unit → Work β} {Q : β → Scene → Prop}
    (hcreated : ∀ b, a.Settles b → b.Leads instant name (k (.ok ())) Q)
    (htaken : ∀ b, a.Settles b →
      b.Leads instant name (k (.error (.alreadyExists kind (kind.nameOf object)))) Q) :
    a.Leads instant name (callStore (.create kind object) >>= k) Q := by
  refine call fun b hab t hb => ?_
  simp only [Store.perform]
  cases t.get? kind (kind.nameOf object) with
  | some found => exact ⟨b, hb, htaken b hab⟩
  | none =>
    obtain ⟨c, hbc, hc⟩ := (hb.put_other (kind.nameOf (kind.initial object)) (kind.initial object)
      hkind).rollOut instant kind (kind.nameOf object)
    exact ⟨c, hc, hcreated c (hab.trans hbc)⟩

/-- Replacing an object that is no part of the scene. -/
theorem updateOther {kind : Kind} (hkind : kind = .service ∨ kind = .secret ∨ kind = .configMap)
    {object : kind.Object} {k : Except StoreError Unit → Work β} {Q : β → Scene → Prop}
    (hupdated : ∀ b, a.Settles b → b.Leads instant name (k (.ok ())) Q)
    (hmissing : ∀ b, a.Settles b →
      b.Leads instant name (k (.error (.notFound kind (kind.nameOf object)))) Q) :
    a.Leads instant name (callStore (.update kind object) >>= k) Q := by
  refine call fun b hab t hb => ?_
  simp only [Store.perform]
  cases t.get? kind (kind.nameOf object) with
  | none => exact ⟨b, hb, hmissing b hab⟩
  | some stored =>
    obtain ⟨c, hbc, hc⟩ := (hb.put_other (kind.nameOf object) (kind.updated stored object)
      hkind).rollOut instant kind (kind.nameOf object)
    exact ⟨c, hc, hupdated c (hab.trans hbc)⟩

/-- Adding the automation config of the scene. -/
theorem createConfig {config : AutomationConfig} (hname : config.name = name)
    {k : Except StoreError Unit → Work β} {Q : β → Scene → Prop}
    (hcreated : ∀ b, a.Settles b → b.config = none → ∀ c,
      Settles { b with config := some config } c → c.Leads instant name (k (.ok ())) Q)
    (htaken : ∀ b, a.Settles b → b.config ≠ none →
      b.Leads instant name (k (.error (.alreadyExists .automationConfig name))) Q) :
    a.Leads instant name (callStore (.create .automationConfig config) >>= k) Q := by
  subst hname
  refine call fun b hab t hb => ?_
  simp only [Store.perform, Kind.nameOf, Store.get?]
  rw [hb.config]
  cases hconfig : b.config with
  | some found => exact ⟨b, hb, htaken b hab (by simp [hconfig])⟩
  | none =>
    obtain ⟨c, hbc, hc⟩ := (hb.put_config config).rollOut instant .automationConfig config.name
    exact ⟨c, hc, hcreated b hab hconfig c hbc⟩

/-- Replacing the automation config of the scene. -/
theorem updateConfig {config : AutomationConfig} (hname : config.name = name)
    (hstored : a.config ≠ none) {k : Except StoreError Unit → Work β} {Q : β → Scene → Prop}
    (h : ∀ b, a.Settles b → ∀ c, Settles { b with config := some config } c →
      c.Leads instant name (k (.ok ())) Q) :
    a.Leads instant name (callStore (.update .automationConfig config) >>= k) Q := by
  subst hname
  refine call fun b hab t hb => ?_
  obtain ⟨stored, hconfig⟩ := Option.ne_none_iff_exists'.1 (hab.config_eq ▸ hstored)
  simp only [Store.perform, Kind.nameOf, Store.get?]
  rw [hb.config, hconfig]
  obtain ⟨c, hbc, hc⟩ := (hb.put_config config).rollOut instant .automationConfig config.name
  exact ⟨c, hc, h b hab c hbc⟩

/-- Adding the workload of the scene: it starts with a fresh status. -/
theorem createWorkload {w : Workload} (hname : w.name = name)
    {k : Except StoreError Unit → Work β} {Q : β → Scene → Prop}
    (hcreated : ∀ b, a.Settles b → b.workload = none → ∀ c,
      Settles { b with workload := some { w with status := .fresh } } c →
        c.Leads instant name (k (.ok ())) Q)
    (htaken : ∀ b, a.Settles b → b.workload ≠ none →
      b.Leads instant name (k (.error (.alreadyExists .workload name))) Q) :
    a.Leads instant name (callStore (.create .workload w) >>= k) Q := by
  subst hname
  refine call fun b hab t hb => ?_
  simp only [Store.perform, Kind.nameOf, Store.get?]
  rw [hb.workload]
  cases hworkload : b.workload with
  | some found => exact ⟨b, hb, htaken b hab (by simp [hworkload])⟩
  | none =>
    obtain ⟨c, hbc, hc⟩ := (hb.put_workload (w := { w with status := .fresh }) rfl).rollOut
      instant .workload w.name
    exact ⟨c, hc, hcreated b hab hworkload c hbc⟩

/-- Replacing the workload of the scene: its status stays. -/
theorem updateWorkload {w : Workload} (hname : w.name = name) (hstored : a.workload ≠ none)
    {k : Except StoreError Unit → Work β} {Q : β → Scene → Prop}
    (h : ∀ b, a.Settles b → ∀ stored, b.workload = some stored → ∀ c,
      Settles { b with workload := some { w with status := stored.status } } c →
        c.Leads instant name (k (.ok ())) Q) :
    a.Leads instant name (callStore (.update .workload w) >>= k) Q := by
  subst hname
  refine call fun b hab t hb => ?_
  obtain ⟨stored, hworkload⟩ := hab.exists_workload hstored
  simp only [Store.perform, Kind.nameOf, Store.get?]
  rw [hb.workload, hworkload]
  obtain ⟨c, hbc, hc⟩ := (hb.put_workload (w := { w with status := stored.status }) rfl).rollOut
    instant .workload w.name
  exact ⟨c, hc, h b hab stored hworkload c hbc⟩

/-- Replacing the cluster of the scene: its status stays. -/
theorem updateCluster {cluster : DbCluster} (hname : cluster.resourceName = name)
    {k : Except StoreError Unit → Work β} {Q : β → Scene → Prop}
    (h : ∀ b, a.Settles b →
      Leads instant name { b with cluster := { cluster with status := b.cluster.status } }
        (k (.ok ())) Q) :
    a.Leads instant name (callStore (.update .cluster cluster) >>= k) Q := by
  refine call fun b hab t hb =>
    ⟨{ b with cluster := { cluster with status := b.cluster.status } }, ?_⟩
  rw [hb.perform_updateCluster hname]
  exact ⟨hb.put_cluster hname, h b hab⟩

/-- Replacing the status of the cluster of the scene. -/
theorem updateClusterStatus {cluster : DbCluster} (hname : cluster.resourceName = name)
    {k : Except StoreError Unit → Work β} {Q : β → Scene → Prop}
    (h : ∀ b, a.Settles b →
      Leads instant name { b with cluster := { b.cluster with status := cluster.status } }
        (k (.ok ())) Q) :
    a.Leads instant name (callStore (.updateStatus cluster) >>= k) Q := by
  subst hname
  refine call fun b hab t hb => ?_
  simp only [Store.perform]
  rw [hb.cluster]
  exact ⟨_, hb.put_cluster (c := { b.cluster with status := cluster.status }) hb.cluster_name,
    h b hab⟩

end Scene.Leads
end Reconciliation
