/-
# What belongs to a cluster

The reconciler keeps five objects for a cluster, under names made from the cluster's own
(`ResourceName.Owns`), and clusters with different names have none of them in common.  A
request that writes one of them leaves everything else alone.  Beyond its own objects a
call looks at config maps, which nobody but users writes, and at one secret of the user
(`Scope.Reads`).

The reconciler stamps every status that it writes with the clock and never looks at the
stamps.  `Store.unstamped` is the store without them.
-/

import Reconciliation.Proofs.Cluster.StoreLaws

namespace Reconciliation

/-! ## Owned objects -/

namespace ResourceName

section Names

variable (name : ResourceName)

/-- The service in front of the members of a cluster. -/
def service : ResourceName := ⟨name.space, name.name ++ "-svc"⟩

/-- The secret with the server certificate of a cluster. -/
def operatorSecret : ResourceName := ⟨name.space, name.name ++ "-server-certificate-key"⟩

end Names

/-- The objects that the reconciler writes for the cluster of a name. -/
def Owns (owner : ResourceName) : Kind → ResourceName → Prop
  | .cluster, name => name = owner
  | .service, name => name = owner.service
  | .workload, name => name = owner
  | .automationConfig, name => name = owner
  | .secret, name => name = owner.operatorSecret
  | .configMap, _ => False

/-- Names with the same ending in the same space are told apart by what stands before. -/
theorem eq_of_append {a b : ResourceName} {ending : String}
    (h : (⟨a.space, a.name ++ ending⟩ : ResourceName) = ⟨b.space, b.name ++ ending⟩) : a = b := by
  obtain ⟨space, name⟩ := a
  obtain ⟨space', name'⟩ := b
  obtain ⟨rfl, hname⟩ := ResourceName.mk.inj h
  exact congrArg (ResourceName.mk space) ((String.append_left_inj ending).1 hname)

/-- **No object belongs to two clusters.** -/
theorem Owns.owner_eq {a b : ResourceName} {kind : Kind} {name : ResourceName}
    (ha : a.Owns kind name) (hb : b.Owns kind name) : a = b := by
  cases kind with
  | cluster | workload | automationConfig => exact ha.symm.trans hb
  | service | secret => exact eq_of_append (ha.symm.trans hb)
  | configMap => exact ha.elim

end ResourceName

namespace Store

variable {s : Store} {kind : Kind} {owner name : ResourceName}

/-- **A request that writes what a cluster owns leaves everything else alone.** -/
theorem get?_perform_of_not_owns {r : Request}
    (hr : ∀ other, r.writes? = some other → owner.Owns other r.name)
    (h : ¬ owner.Owns kind name) (instant : Bool) (s : Store) :
    (s.perform instant r).2.get? kind name = s.get? kind name := by
  have hframe : owner.Owns r.kind r.name →
      (s.perform instant r).2.get? kind name = s.get? kind name := by
    intro howns
    have hother : kind ≠ r.kind ∨ name ≠ r.name :=
      Decidable.not_and_iff_or_not.1 fun ⟨hkind, hname⟩ => h (hkind ▸ hname ▸ howns)
    obtain hkept | ⟨-, hconfig, rfl, rfl, -⟩ := get?_perform_or_rollOut instant s r hother
    · exact hkept
    -- The workload that settles bears the name of the cluster, as the config does.
    · rw [hconfig] at howns
      exact absurd howns h
  cases r with
  | get other read =>
    simp only [perform]
    split <;> rfl
  | create other object => exact hframe (hr other rfl)
  | update other object => exact hframe (hr other rfl)
  | updateStatus cluster => exact hframe (hr .cluster rfl)

/-- Stores that hold the same are the same. -/
theorem ext_get? {s t : Store} (h : ∀ kind name, s.get? kind name = t.get? kind name) : s = t := by
  obtain ⟨_, _, _, _, _, _⟩ := s
  obtain ⟨_, _, _, _, _, _⟩ := t
  congr 1
  · exact funext (h .cluster)
  · exact funext (h .service)
  · exact funext (h .workload)
  · exact funext (h .automationConfig)
  · exact funext (h .secret)
  · exact funext (h .configMap)

end Store

/-! ## Stamps -/

/-- The status with another time of the last write. -/
def ClusterStatus.stamped (status : ClusterStatus) (stamp : Option Timestamp) : ClusterStatus :=
  { status with lastUpdated := stamp }

namespace DbCluster

/-- The cluster with another time of the last status write. -/
def stamped (c : DbCluster) (stamp : Option Timestamp) : DbCluster :=
  { c with status := c.status.stamped stamp }

/-- Clusters that are the same without their stamps differ in the stamps only. -/
theorem eq_stamped {c c' : DbCluster} (h : c'.stamped none = c.stamped none) :
    c' = c.stamped c'.status.lastUpdated := by
  obtain ⟨metadata, spec, phase, message, members, replicas, uri, version, stamp⟩ := c
  obtain ⟨metadata', spec', phase', message', members', replicas', uri', version', stamp'⟩ := c'
  simp only [stamped, ClusterStatus.stamped, DbCluster.mk.injEq, ClusterStatus.mk.injEq] at h ⊢
  simp [h]

end DbCluster

/-- The resource without the stamp of a cluster. -/
def Kind.unstamped : (kind : Kind) → kind.Object → kind.Object
  | .cluster, c => c.stamped none
  | .service, s => s
  | .workload, w => w
  | .automationConfig, c => c
  | .secret, s => s
  | .configMap, c => c

/-- Only clusters are stamped. -/
theorem Kind.unstamped_eq {kind : Kind} (h : kind ≠ .cluster) (object : kind.Object) :
    kind.unstamped object = object := by
  cases kind <;> first | rfl | exact absurd rfl h

namespace Store

/-- The store without the stamps of its clusters. -/
def unstamped (s : Store) : Store :=
  { s with clusters := fun name => (s.clusters name).map (·.stamped none) }

theorem get?_unstamped (s : Store) (kind : Kind) (name : ResourceName) :
    s.unstamped.get? kind name = (s.get? kind name).map kind.unstamped := by
  cases kind with
  | cluster => rfl
  | service | workload | automationConfig | secret | configMap => 
    exact (congrFun Option.map_id _).symm

theorem unstamped_put (s : Store) (name : ResourceName) (kind : Kind) (object : kind.Object) :
    (s.put name kind object).unstamped = s.unstamped.put name kind (kind.unstamped object) := by
  cases kind with
  | cluster =>
    simp only [unstamped, put, Kind.unstamped]
    congr 1
    funext other
    by_cases hname : other = name
    · rw [hname, Collection.put_self, Collection.put_self]
      rfl
    · rw [Collection.put_of_ne _ _ hname, Collection.put_of_ne _ _ hname]
  | service | workload | automationConfig | secret | configMap => rfl

theorem unstamped_settle (s : Store) (name : ResourceName) :
    (s.settle name).unstamped = s.unstamped.settle name := by
  have hworkloads : s.unstamped.workloads = s.workloads := rfl
  unfold settle
  rw [hworkloads]
  cases s.workloads name with
  | none => rfl
  | some w => exact s.unstamped_put name .workload _

theorem unstamped_rollOut (instant : Bool) (kind : Kind) (name : ResourceName) (s : Store) :
    (s.rollOut instant kind name).unstamped = s.unstamped.rollOut instant kind name := by
  unfold rollOut
  split
  · exact s.unstamped_settle name
  · rfl

end Store

/-! ## Scopes -/

/-- What a call of the reconciler is about. -/
structure Scope where
  /-- The cluster. -/
  owner : ResourceName
  /-- The secret in which the user provides the certificate of the cluster. -/
  certificate : ResourceName

namespace Scope

variable {p q : Scope} {s t : Store}

/-- The call may read an object. -/
def Reads (p : Scope) (kind : Kind) (name : ResourceName) : Prop :=
  p.owner.Owns kind name ∨ kind = .configMap ∨ kind = .secret ∧ name = p.certificate

/-- The cluster is the one that the scope is about. -/
structure Of (p : Scope) (c : DbCluster) : Prop where
  resourceName_eq : c.resourceName = p.owner
  certificate_eq : c.certificateSecretName = p.certificate

theorem Of.owns_service {c : DbCluster} (h : p.Of c) : p.owner.Owns .service c.serviceName := by
  rw [← h.resourceName_eq]
  rfl

theorem Of.owns_operatorSecret {c : DbCluster} (h : p.Of c) :
    p.owner.Owns .secret c.operatorSecretName := by
  rw [← h.resourceName_eq]
  rfl

theorem Of.reads_certificate {c : DbCluster} (h : p.Of c) :
    p.Reads .secret c.certificateSecretName :=
  .inr (.inr ⟨rfl, h.certificate_eq⟩)

/-- What is read under the name of a workload is followed by what its settling depends on. -/
theorem reads_automationConfig {name : ResourceName} (h : p.Reads .workload name) :
    p.Reads .automationConfig name := by
  rcases h with h | h | ⟨h, -⟩
  · exact .inl h
  · cases h
  · cases h

/-- **What one call writes the other does not read**, if the clusters have different names
and the certificate of the one is not the secret that is kept for the other. -/
theorem not_reads_of_owns (howner : p.owner ≠ q.owner)
    (hsecret : q.certificate ≠ p.owner.operatorSecret) {kind : Kind} {name : ResourceName}
    (h : p.owner.Owns kind name) : ¬ q.Reads kind name := by
  rintro (hq | rfl | ⟨rfl, rfl⟩)
  · exact howner (h.owner_eq hq)
  · exact h
  · exact hsecret h

/-- The stores hold the same wherever a call may look. -/
def AgreeOn (p : Scope) (s t : Store) : Prop :=
  ∀ kind name, p.Reads kind name → s.get? kind name = t.get? kind name

theorem AgreeOn.put (h : p.AgreeOn s t) (name : ResourceName) (kind : Kind) (object : kind.Object) :
    p.AgreeOn (s.put name kind object) (t.put name kind object) := by
  intro other read hread
  by_cases hkind : kind = other
  · subst hkind
    by_cases hname : read = name
    · rw [hname, Store.get?_put_self, Store.get?_put_self]
    · rw [s.get?_put_name_of_ne kind object hname, t.get?_put_name_of_ne kind object hname]
      exact h kind read hread
  · rw [Store.get?_put_of_ne hkind, Store.get?_put_of_ne hkind]
    exact h other read hread

theorem AgreeOn.settle (h : p.AgreeOn s t) (name : ResourceName) :
    p.AgreeOn (s.settle name) (t.settle name) := by
  intro kind read hread
  by_cases hkind : kind = .workload
  · subst hkind
    have hworkload : s.workloads read = t.workloads read := h .workload read hread
    show (s.settle name).workloads read = (t.settle name).workloads read
    by_cases hname : read = name
    · subst hname
      have hconfig : s.automationConfigs read = t.automationConfigs read :=
        h .automationConfig read (reads_automationConfig hread)
      rw [Store.workloads_settle_self, Store.workloads_settle_self, hworkload, Store.goalVersion,
        Store.goalVersion, hconfig]
    · rw [Store.workloads_settle_of_ne s hname, Store.workloads_settle_of_ne t hname, hworkload]
  · rw [Store.get?_settle hkind, Store.get?_settle hkind]
    exact h kind read hread

theorem AgreeOn.rollOut (h : p.AgreeOn s t) (instant : Bool) (kind : Kind) (name : ResourceName) :
    p.AgreeOn (s.rollOut instant kind name) (t.rollOut instant kind name) := by
  unfold Store.rollOut
  split
  · exact h.settle name
  · exact h

end Scope
end Reconciliation
