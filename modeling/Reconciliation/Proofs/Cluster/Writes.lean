/-
# What a request writes

A request changes at most the object that it writes, and what an instant rollout does to a
workload.  So whatever else is stored under a name afterwards was there before.
-/

import Reconciliation.Proofs.Cluster.Edits

namespace Reconciliation

/-- The kind of the resource that a request writes, if it writes one. -/
def Request.writes? : Request → Option Kind
  | .get _ _ => none
  | .create kind _ => some kind
  | .update kind _ => some kind
  | .updateStatus _ => some .cluster

/-- The request adds an object or replaces one by it. -/
def Request.Writes (r : Request) (kind : Kind) (object : kind.Object) : Prop :=
  r = .create kind object ∨ r = .update kind object

/-- A request that writes something of a kind writes some object. -/
theorem Request.exists_writes {r : Request} {kind : Kind} (h : r.writes? = some kind)
    (hkind : kind ≠ .cluster) : ∃ object, r.Writes kind object := by
  cases r with
  | get => cases h
  | updateStatus => exact absurd (Option.some.inj h).symm hkind
  | create other object =>
    obtain rfl := Option.some.inj h
    exact ⟨object, .inl rfl⟩
  | update other object =>
    obtain rfl := Option.some.inj h
    exact ⟨object, .inr rfl⟩

namespace Kind

variable {kind : Kind}

/-- What is created is stored as it is, the status of a workload apart. -/
theorem initial_eq (hworkload : kind ≠ .workload) (object : kind.Object) :
    kind.initial object = object := by
  cases kind <;> first | rfl | exact absurd rfl hworkload

/-- What is written over something is stored as it is, statuses apart. -/
theorem updated_eq (hworkload : kind ≠ .workload) (hcluster : kind ≠ .cluster)
    (stored object : kind.Object) : kind.updated stored object = object := by
  cases kind <;> first | rfl | exact absurd rfl hworkload | exact absurd rfl hcluster

end Kind

namespace Store

variable {kind : Kind} {instant : Bool}

/-- Settling changes workloads only. -/
theorem get?_settle (hkind : kind ≠ .workload) (s : Store) (name : ResourceName) :
    (s.settle name).get? kind = s.get? kind := by
  unfold settle
  split
  · cases kind <;> first | rfl | exact absurd rfl hkind
  · rfl

theorem get?_rollOut (hkind : kind ≠ .workload) (instant : Bool) (other : Kind)
    (name : ResourceName) (s : Store) : (s.rollOut instant other name).get? kind = s.get? kind := by
  unfold rollOut
  split
  · exact s.get?_settle hkind name
  · rfl

theorem get?_put_of_ne {other : Kind} (hkind : other ≠ kind) (s : Store) (name : ResourceName)
    (object : other.Object) : (s.put name other object).get? kind = s.get? kind := by
  cases kind <;> cases other <;> first | rfl | exact absurd rfl hkind

/-- A request leaves alone what it does not write, workloads apart. -/
theorem get?_perform {r : Request} (hkind : kind ≠ .workload) (hr : r.writes? ≠ some kind)
    (s : Store) : (s.perform instant r).2.get? kind = s.get? kind := by
  cases r with
  | get other name =>
    simp only [perform]
    split <;> rfl
  | create other object =>
    have hother : other ≠ kind := fun h => hr (congrArg some h)
    simp only [perform]
    split
    · rfl
    · rw [get?_rollOut hkind]
      exact get?_put_of_ne hother _ _ _
  | update other object =>
    have hother : other ≠ kind := fun h => hr (congrArg some h)
    simp only [perform]
    split
    · rw [get?_rollOut hkind, get?_put_of_ne hother]
    · rfl
  | updateStatus cluster =>
    have hother : .cluster ≠ kind := fun h => hr (congrArg some h)
    simp only [perform]
    split
    · exact get?_put_of_ne hother _ _ _
    · rfl

/-- An object is added under a name that is free, and a taken one is left alone. -/
theorem perform_create (hkind : kind ≠ .workload) (s : Store) (object : kind.Object) :
    (s.get? kind (kind.nameOf object) ≠ none ∧ s.perform instant (.create kind object) =
        (.error (.alreadyExists kind (kind.nameOf object)), s)) ∨
      (s.get? kind (kind.nameOf object) = none ∧ ∃ t,
        s.perform instant (.create kind object) = (.ok (), t) ∧
        t.get? kind (kind.nameOf object) = some object) := by
  simp only [perform]
  cases hstored : s.get? kind (kind.nameOf object) with
  | some stored => exact .inl ⟨Option.some_ne_none stored, rfl⟩
  | none =>
    refine .inr ⟨rfl, _, rfl, ?_⟩
    rw [get?_rollOut hkind, insert, Kind.initial_eq hkind, get?_put_self]

/-- An object replaces one of its name; without one nothing is written. -/
theorem perform_update (hkind : kind ≠ .workload) (hcluster : kind ≠ .cluster) (s : Store)
    (object : kind.Object) :
    (s.get? kind (kind.nameOf object) = none ∧ s.perform instant (.update kind object) =
        (.error (.notFound kind (kind.nameOf object)), s)) ∨
      (s.get? kind (kind.nameOf object) ≠ none ∧ ∃ t,
        s.perform instant (.update kind object) = (.ok (), t) ∧
        t.get? kind (kind.nameOf object) = some object) := by
  simp only [perform]
  cases hstored : s.get? kind (kind.nameOf object) with
  | none => exact .inl ⟨rfl, rfl⟩
  | some stored =>
    refine .inr ⟨Option.some_ne_none stored, _, rfl, ?_⟩
    rw [get?_rollOut hkind, Kind.updated_eq hkind hcluster, get?_put_self]

theorem get?_put_name_of_ne (s : Store) (kind : Kind) (object : kind.Object)
    {other name : ResourceName} (hname : name ≠ other) :
    (s.put other kind object).get? kind name = s.get? kind name := by
  cases kind <;> exact Collection.put_of_ne _ _ hname

theorem get?_put_or (s : Store) (kind : Kind) (object : kind.Object) (other name : ResourceName) :
    (s.put other kind object).get? kind name = s.get? kind name ∨
      (s.put other kind object).get? kind name = some object := by
  by_cases hname : name = other
  · subst hname
    exact .inr (get?_put_self s name kind object)
  · exact .inl (s.get?_put_name_of_ne kind object hname)

/-- What is stored after a request was stored before, or is what the request writes. -/
theorem get?_perform_or (instant : Bool) (hworkload : kind ≠ .workload)
    (hcluster : kind ≠ .cluster) (s : Store) (r : Request) (name : ResourceName) :
    (s.perform instant r).2.get? kind name = s.get? kind name ∨
      ∃ object, r.Writes kind object ∧ (s.perform instant r).2.get? kind name = some object := by
  by_cases hr : r.writes? = some kind
  · cases r with
    | get => cases hr
    | updateStatus => exact absurd (Option.some.inj hr).symm hcluster
    | create other object =>
      obtain rfl := Option.some.inj hr
      simp only [perform]
      split
      · exact .inl rfl
      · rw [get?_rollOut hworkload, insert, Kind.initial_eq hworkload]
        exact (s.get?_put_or other object _ name).imp_right fun h => ⟨object, .inl rfl, h⟩
    | update other object =>
      obtain rfl := Option.some.inj hr
      simp only [perform]
      split
      · rw [get?_rollOut hworkload, Kind.updated_eq hworkload hcluster]
        exact (s.get?_put_or other object _ name).imp_right fun h => ⟨object, .inr rfl, h⟩
      · exact .inl rfl
  · exact .inl (congrFun (get?_perform hworkload hr s) name)

/-! ### The cluster under a name -/

/-- A request leaves the cluster under a name as it is but for its status, or writes one of
that name; a new one is only added where there is none. -/
theorem clusters_perform_cases (instant : Bool) (s : Store) (r : Request) (name : ResourceName) :
    (s.perform instant r).2.clusters name = s.clusters name ∨
    (∃ c status, s.clusters name = some c ∧
      (s.perform instant r).2.clusters name = some { c with status }) ∨
    ∃ written status, written.resourceName = name ∧
      (s.perform instant r).2.clusters name = some { written with status } ∧
      ((r = .create .cluster written ∧ s.clusters name = none) ∨
        r = .update .cluster written) := by
  by_cases hkind : r.kind = .cluster
  · cases r with
    | get kind other =>
      simp only [perform]
      split <;> exact .inl rfl
    | create kind object =>
      obtain rfl : kind = .cluster := hkind
      simp only [perform]
      split
      · exact .inl rfl
      · rename_i hfree
        rw [clusters_rollOut]
        by_cases hname : name = DbCluster.resourceName object
        · subst hname
          exact .inr (.inr ⟨object, _, rfl, Collection.put_self _ _ _, .inl ⟨rfl, hfree⟩⟩)
        · exact .inl (Collection.put_of_ne _ _ hname)
    | update kind object =>
      obtain rfl : kind = .cluster := hkind
      simp only [perform]
      split
      · rw [clusters_rollOut]
        by_cases hname : name = DbCluster.resourceName object
        · subst hname
          exact .inr (.inr ⟨object, _, rfl, Collection.put_self _ _ _, .inr rfl⟩)
        · exact .inl (Collection.put_of_ne _ _ hname)
      · exact .inl rfl
    | updateStatus written =>
      simp only [perform]
      split
      · rename_i stored hstored
        by_cases hname : name = written.resourceName
        · subst hname
          exact .inr (.inl ⟨stored, _, hstored, Collection.put_self _ _ _⟩)
        · exact .inl (Collection.put_of_ne _ _ hname)
      · exact .inl rfl
  · exact .inl (congrFun (clusters_perform hkind s) name)

/-- A cluster that is stored is never lost, and only an update of it changes more than its
status. -/
theorem exists_clusters_perform (instant : Bool) {s : Store} {name : ResourceName} {c : DbCluster}
    (h : s.clusters name = some c) (r : Request) :
    ∃ new, (s.perform instant r).2.clusters name = some new ∧
      ((∃ status, new = { c with status }) ∨
        ∃ written status, r = .update .cluster written ∧ new = { written with status }) := by
  rcases clusters_perform_cases instant s r name with
    hsame | ⟨stored, status, hstored, hnew⟩ | ⟨written, status, -, hnew, hwrites⟩
  · exact ⟨c, hsame.trans h, .inl ⟨c.status, rfl⟩⟩
  · obtain rfl := Option.some.inj (h.symm.trans hstored)
    exact ⟨_, hnew, .inl ⟨status, rfl⟩⟩
  · rcases hwrites with ⟨-, hfree⟩ | hupdate
    · exact nomatch h.symm.trans hfree
    · exact ⟨_, hnew, .inr ⟨written, status, hupdate, rfl⟩⟩

/-- If there is a cluster under the name, it is its own. -/
def NamesCluster (s : Store) (name : ResourceName) : Prop :=
  ∀ c, s.clusters name = some c → c.resourceName = name

/-- A request leaves the cluster its name. -/
theorem NamesCluster.perform {s : Store} {name : ResourceName} (h : s.NamesCluster name)
    (r : Request) : (s.perform instant r).2.NamesCluster name := by
  intro found hfound
  rcases clusters_perform_cases instant s r name with
    hsame | ⟨stored, status, hstored, hnew⟩ | ⟨written, status, hname, hnew, -⟩
  · exact h found (hsame.symm.trans hfound)
  · obtain rfl := Option.some.inj (hnew.symm.trans hfound)
    exact h stored hstored
  · obtain rfl := Option.some.inj (hnew.symm.trans hfound)
    exact hname

end Store

end Reconciliation
