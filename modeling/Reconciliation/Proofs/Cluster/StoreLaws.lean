/-
# Laws of the store in memory

Whatever is done to a store, one operation after the other from the empty store on
(`Store.after`), each object stays under its own name, a write fails only because its name
is taken or free, and then changes nothing, and a write that succeeds changes one object
only (`Store.Laws`).  With instant rollout a write of an automation config reaches one
object more: the workload of the same name, whose status follows.

The laws about one operation hold in every store.  That every object is under its name and,
with instant rollout, that every workload has caught up is kept by each operation.
-/

import Reconciliation.Proofs.Cluster.Settled
import Reconciliation.Proofs.Cluster.Writes

namespace Reconciliation

/-! ## Operations -/

/-- One thing that is done to a store: a call, or a change from outside of the reconciler. -/
inductive Operation where
  | call (r : Request)
  /-- A cluster is put in place with its status. -/
  | putCluster (c : DbCluster)
  | putConfigMap (c : ConfigMap)
  /-- A workload is told to catch up. -/
  | markReady (name : ResourceName)

namespace Operation

/-- The kind of the object that an operation is about. -/
def kind : Operation → Kind
  | call r => r.kind
  | putCluster _ => .cluster
  | putConfigMap _ => .configMap
  | markReady _ => .workload

/-- The name of the object that an operation is about. -/
def name : Operation → ResourceName
  | call r => r.name
  | putCluster c => c.resourceName
  | putConfigMap c => c.name
  | markReady name => name

/-- Whether an operation succeeds, and the store after it. -/
def run (instant : Bool) : Operation → Store → Except StoreError Unit × Store
  | call r, s => ((s.perform instant r).1.map fun _ => (), (s.perform instant r).2)
  | putCluster c, s => (.ok (), s.insert .cluster c)
  | putConfigMap c, s => (.ok (), s.insert .configMap c)
  | markReady name, s => (.ok (), s.settle name)

end Operation

/-- The store after some operations, the first of them on an empty store. -/
def Store.after (instant : Bool) (operations : List Operation) : Store :=
  operations.foldl (fun s operation => (operation.run instant s).2) .empty

/-- The object without its status, if objects of its kind have one. -/
def Kind.bare : (kind : Kind) → kind.Object → kind.Object
  | .cluster, c => { c with status := .fresh }
  | .service, s => s
  | .workload, w => { w with status := .fresh }
  | .automationConfig, c => c
  | .secret, s => s
  | .configMap, c => c

namespace Kind

variable (kind : Kind)

@[simp] theorem nameOf_initial (object : kind.Object) :
    kind.nameOf (kind.initial object) = kind.nameOf object := by
  cases kind <;> rfl

@[simp] theorem bare_initial (object : kind.Object) :
    kind.bare (kind.initial object) = kind.bare object := by
  cases kind <;> rfl

@[simp] theorem bare_updated (stored object : kind.Object) :
    kind.bare (kind.updated stored object) = kind.bare object := by
  cases kind <;> rfl

end Kind

theorem Collection.put_put {α : Type} (collection : Collection α) (name : ResourceName)
    (first second : α) :
    (collection.put name first).put name second = collection.put name second := by
  funext other
  simp only [Collection.put]
  split <;> rfl

/-! ## The laws -/

namespace Store

/-- The laws of a store.  The store `s` is any store that operations have led to. -/
structure Laws (instant : Bool) (s : Store) : Prop where
  /-- Every object is under its own name. -/
  named : ∀ kind name object, s.get? kind name = some object → kind.nameOf object = name
  /-- A look-up gives what is stored, and changes nothing. -/
  get : ∀ kind name, s.perform instant (.get kind name) =
    ((s.get? kind name).elim (.error (.notFound kind name)) .ok, s)
  /-- An object is added exactly under a name that is free. -/
  create : ∀ kind object, (s.perform instant (.create kind object)).1 =
    if s.get? kind (kind.nameOf object) = none then .ok ()
    else .error (.alreadyExists kind (kind.nameOf object))
  /-- An object is replaced exactly under a name that is taken. -/
  update : ∀ kind object, (s.perform instant (.update kind object)).1 =
    if s.get? kind (kind.nameOf object) = none
    then .error (.notFound kind (kind.nameOf object)) else .ok ()
  updateStatus : ∀ c, (s.perform instant (.updateStatus c)).1 =
    if s.clusters c.resourceName = none then .error (.notFound .cluster c.resourceName) else .ok ()
  /-- An operation that fails changes nothing. -/
  failed : ∀ operation error t, Operation.run instant operation s = (.error error, t) → t = s
  /-- An operation changes only the object that it is about and, with instant rollout, the
  status of the workload of the same name. -/
  frame : ∀ (operation : Operation) kind name, (kind ≠ operation.kind ∨ name ≠ operation.name) →
    (operation.run instant s).2.get? kind name = s.get? kind name ∨
      (instant = true ∧ operation.kind = .automationConfig ∧ kind = .workload ∧
        name = operation.name ∧
        ((operation.run instant s).2.get? kind name).map kind.bare =
          (s.get? kind name).map kind.bare)
  /-- What was written is stored, its status apart. -/
  stored : ∀ r kind object t, r.Writes kind object →
    (Operation.call r).run instant s = (.ok (), t) →
      (t.get? kind (kind.nameOf object)).map kind.bare = some (kind.bare object)
  /-- An update of a cluster leaves its status. -/
  keepsStatus : ∀ c new, s.clusters new.resourceName = some c →
    (s.perform instant (.update .cluster new)).2.clusters new.resourceName =
      some ⟨new.metadata, new.spec, c.status⟩
  /-- A status write leaves metadata and spec. -/
  keepsSpec : ∀ c new, s.clusters new.resourceName = some c →
    (s.perform instant (.updateStatus new)).2.clusters new.resourceName =
      some ⟨c.metadata, c.spec, new.status⟩
  /-- The two writes of a cluster commute. -/
  commute : ∀ a b : DbCluster, a.resourceName = b.resourceName →
    (((s.perform instant (.updateStatus b)).2.perform instant (.update .cluster a)).1 =
      (s.perform instant (.update .cluster a)).1) ∧
    (((s.perform instant (.update .cluster a)).2.perform instant (.updateStatus b)).1 =
      (s.perform instant (.updateStatus b)).1) ∧
    ((s.perform instant (.update .cluster a)).2.perform instant (.updateStatus b)).2 =
      ((s.perform instant (.updateStatus b)).2.perform instant (.update .cluster a)).2
  /-- Without instant rollout an update of a workload leaves its status. -/
  updateWorkload : instant = false → ∀ stored w, s.workloads w.name = some stored →
    (s.perform instant (.update .workload w)).2.workloads w.name =
      some { w with status := stored.status }
  /-- Without instant rollout a new workload starts at zero. -/
  createWorkload : instant = false → ∀ w, s.workloads w.name = none →
    (s.perform instant (.create .workload w)).2.workloads w.name =
      some { w with status := ⟨0, 0⟩ }
  /-- With instant rollout every workload has caught up. -/
  caughtUp : instant = true → ∀ name w, s.workloads name = some w → w.isReady = true ∧
    w.status.agentsGoalVersion = ((s.automationConfigs name).map AutomationConfig.version).getD 0

/-! ## One operation -/

variable {instant : Bool} {s : Store} {kind other : Kind} {name written : ResourceName}

/-- Settling leaves every object but for its status. -/
theorem map_bare_settle (s : Store) (settling : ResourceName) (kind : Kind)
    (name : ResourceName) :
    ((s.settle settling).get? kind name).map kind.bare = (s.get? kind name).map kind.bare := by
  by_cases hkind : kind = .workload
  · subst hkind
    by_cases hname : name = settling
    · subst hname
      simp only [get?, workloads_settle_self, Option.map_map]
      rfl
    · simp only [get?, workloads_settle_of_ne s hname]
  · rw [get?_settle hkind]

theorem map_bare_rollOut (instant : Bool) (other : Kind) (settling : ResourceName) (s : Store)
    (kind : Kind) (name : ResourceName) :
    ((s.rollOut instant other settling).get? kind name).map kind.bare =
      (s.get? kind name).map kind.bare := by
  unfold rollOut
  split
  · exact s.map_bare_settle settling kind name
  · rfl

theorem get?_put_of_ne_or (s : Store) (other : Kind) (object : other.Object)
    (h : kind ≠ other ∨ name ≠ written) :
    (s.put written other object).get? kind name = s.get? kind name := by
  by_cases hkind : other = kind
  · subst hkind
    exact s.get?_put_name_of_ne other object (h.resolve_left fun hne => hne rfl)
  · rw [get?_put_of_ne hkind]

/-- A rollout reaches only the workload of a name, and only if it concerns it. -/
theorem get?_rollOut_or (instant : Bool) (other : Kind) (written : ResourceName) (s : Store)
    (kind : Kind) (name : ResourceName) :
    (s.rollOut instant other written).get? kind name = s.get? kind name ∨
      (instant = true ∧ other.settlesWorkload = true ∧ kind = .workload ∧ name = written) := by
  unfold rollOut
  split
  · rename_i hsettles
    obtain ⟨hinstant, hother⟩ := Bool.and_eq_true_iff.1 hsettles
    by_cases hkind : kind = .workload
    · subst hkind
      by_cases hname : name = written
      · exact .inr ⟨hinstant, hother, rfl, hname⟩
      · exact .inl (workloads_settle_of_ne s hname)
    · rw [get?_settle hkind]
      exact .inl rfl
  · exact .inl rfl

/-- Writing an object changes that object and what a rollout reaches. -/
theorem get?_write_or (instant : Bool) (s : Store) (object : other.Object)
    (h : kind ≠ other ∨ name ≠ written) :
    ((s.put written other object).rollOut instant other written).get? kind name =
        s.get? kind name ∨
      (instant = true ∧ other = .automationConfig ∧ kind = .workload ∧ name = written ∧
        (((s.put written other object).rollOut instant other written).get? kind name).map
          kind.bare = (s.get? kind name).map kind.bare) := by
  have hput := s.get?_put_of_ne_or other object h
  rcases get?_rollOut_or instant other written (s.put written other object) kind name with
    hsame | ⟨hinstant, hother, rfl, rfl⟩
  · exact .inl (hsame.trans hput)
  · refine .inr ⟨hinstant, ?_, rfl, rfl, ?_⟩
    · cases other with
      | automationConfig => rfl
      | workload => exact absurd rfl (h.resolve_right fun hne => hne rfl)
      | cluster | service | secret | configMap => cases hother
    · rw [map_bare_rollOut, hput]

/-- A call that fails changes nothing. -/
theorem perform_eq_of_error {r : Request} {error : StoreError}
    (h : (s.perform instant r).1 = .error error) : (s.perform instant r).2 = s := by
  cases r with
  | get kind name =>
    simp only [perform]
    split <;> rfl
  | create kind object =>
    simp only [perform] at h ⊢
    split
    · rfl
    · rename_i hfree
      rw [hfree] at h
      cases h
  | update kind object =>
    simp only [perform] at h ⊢
    split
    · rename_i hstored
      rw [hstored] at h
      cases h
    · rfl
  | updateStatus c =>
    simp only [perform] at h ⊢
    split
    · rename_i hstored
      rw [hstored] at h
      cases h
    · rfl

/-- A call changes what it writes and what a rollout reaches. -/
theorem get?_perform_or_rollOut (instant : Bool) (s : Store) (r : Request)
    (h : kind ≠ r.kind ∨ name ≠ r.name) :
    (s.perform instant r).2.get? kind name = s.get? kind name ∨
      (instant = true ∧ r.kind = .automationConfig ∧ kind = .workload ∧ name = r.name ∧
        ((s.perform instant r).2.get? kind name).map kind.bare =
          (s.get? kind name).map kind.bare) := by
  cases r with
  | get other read =>
    simp only [perform]
    split <;> exact .inl rfl
  | create other object =>
    simp only [perform]
    split
    · exact .inl rfl
    · rw [insert, Kind.nameOf_initial]
      exact get?_write_or instant s _ h
  | update other object =>
    simp only [perform]
    split
    · exact get?_write_or instant s _ h
    · exact .inl rfl
  | updateStatus c =>
    simp only [perform]
    split
    · rename_i stored _
      exact .inl (s.get?_put_of_ne_or .cluster { stored with status := c.status } h)
    · exact .inl rfl

theorem get?_run_or (instant : Bool) (s : Store) (operation : Operation)
    (h : kind ≠ operation.kind ∨ name ≠ operation.name) :
    (operation.run instant s).2.get? kind name = s.get? kind name ∨
      (instant = true ∧ operation.kind = .automationConfig ∧ kind = .workload ∧
        name = operation.name ∧
        ((operation.run instant s).2.get? kind name).map kind.bare =
          (s.get? kind name).map kind.bare) := by
  cases operation with
  | call r => exact get?_perform_or_rollOut instant s r h
  | putCluster c => exact .inl (s.get?_put_of_ne_or .cluster c h)
  | putConfigMap c => exact .inl (s.get?_put_of_ne_or .configMap c h)
  | markReady settling =>
    rcases get?_rollOut_or true .workload settling s kind name with hsame | ⟨-, -, hkind, hname⟩
    · exact .inl hsame
    · exact absurd hname (h.resolve_left fun hne => hne hkind)

/-- What a call has written is stored, its status apart. -/
theorem map_bare_of_writes {r : Request} {object : kind.Object} {t : Store}
    (hr : r.Writes kind object) (h : (Operation.call r).run instant s = (.ok (), t)) :
    (t.get? kind (kind.nameOf object)).map kind.bare = some (kind.bare object) := by
  have hput : ∀ new : kind.Object, kind.bare new = kind.bare object →
      (((s.put (kind.nameOf object) kind new).rollOut instant kind
        (kind.nameOf object)).get? kind (kind.nameOf object)).map kind.bare =
          some (kind.bare object) := by
    intro new hnew
    rw [map_bare_rollOut, get?_put_self, Option.map_some, hnew]
  obtain rfl | rfl := hr
  · simp only [Operation.run, perform] at h
    split at h
    · cases h
    · obtain ⟨-, rfl⟩ := Prod.mk.inj h
      rw [insert, Kind.nameOf_initial]
      exact hput _ (kind.bare_initial object)
  · simp only [Operation.run, perform] at h
    split at h
    · obtain ⟨-, rfl⟩ := Prod.mk.inj h
      exact hput _ (kind.bare_updated _ object)
    · cases h

/-- Of two objects put in place under one name the second stays. -/
theorem put_put (s : Store) (name : ResourceName) (kind : Kind) (first second : kind.Object) :
    (s.put name kind first).put name kind second = s.put name kind second := by
  cases kind <;> simp only [put, Collection.put_put]

/-- Writing the spec and the metadata of a cluster commutes with writing its status. -/
theorem perform_update_updateStatus_comm (instant : Bool) (s : Store) {a b : DbCluster}
    (h : a.resourceName = b.resourceName) :
    (((s.perform instant (.updateStatus b)).2.perform instant (.update .cluster a)).1 =
      (s.perform instant (.update .cluster a)).1) ∧
    (((s.perform instant (.update .cluster a)).2.perform instant (.updateStatus b)).1 =
      (s.perform instant (.updateStatus b)).1) ∧
    ((s.perform instant (.update .cluster a)).2.perform instant (.updateStatus b)).2 =
      ((s.perform instant (.updateStatus b)).2.perform instant (.update .cluster a)).2 := by
  cases hstored : s.clusters b.resourceName with
  | none =>
    have hupdate : s.perform instant (.update .cluster a) =
        (.error (.notFound .cluster a.resourceName), s) := by
      have hfree : s.clusters a.resourceName = none := h ▸ hstored
      simp [perform, get?, Kind.nameOf, hfree]
    have hstatus : s.perform instant (.updateStatus b) =
        (.error (.notFound .cluster b.resourceName), s) := by
      simp [perform, hstored]
    simp only [hupdate, hstatus, and_self]
  | some c =>
    have hupdate : ∀ {t : Store} {d}, t.clusters b.resourceName = some d →
        t.perform instant (.update .cluster a) =
          (.ok (), t.put b.resourceName .cluster { a with status := d.status }) :=
      fun ht => perform_updateCluster ht h
    have hstatus : ∀ {t : Store} {d}, t.clusters b.resourceName = some d →
        t.perform instant (.updateStatus b) =
          (.ok (), t.put b.resourceName .cluster { d with status := b.status }) :=
      fun ht => perform_updateStatus ht rfl
    rw [hupdate hstored, hstatus hstored, hstatus (Collection.put_self _ _ _),
      hupdate (Collection.put_self _ _ _), put_put, put_put]
    exact ⟨rfl, rfl, rfl⟩

/-! ## Any operations -/

theorem WellNamed.run (h : s.WellNamed) (instant : Bool) (operation : Operation) :
    (operation.run instant s).2.WellNamed := by
  cases operation with
  | call r => exact h.perform instant r
  | putCluster c => exact h.put .cluster c
  | putConfigMap c => exact h.put .configMap c
  | markReady name => exact h.settle name

theorem Settled.run (h : s.Settled) (operation : Operation) :
    (operation.run true s).2.Settled := by
  cases operation with
  | call r => exact h.perform r
  | putCluster c => exact h.congr rfl rfl
  | putConfigMap c => exact h.congr rfl rfl
  | markReady name => exact h.settle name

/-- What the empty store has and every operation keeps holds after any operations. -/
theorem after_of_step {P : Store → Prop} (instant : Bool) (hempty : P .empty)
    (hstep : ∀ operation s, P s → P (Operation.run instant operation s).2)
    (operations : List Operation) : P (after instant operations) :=
  List.foldlRecOn operations _ hempty fun s hs operation _ => hstep operation s hs

theorem wellNamed_after (instant : Bool) (operations : List Operation) :
    (after instant operations).WellNamed :=
  after_of_step instant wellNamed_empty (fun operation _ hs => hs.run instant operation) operations

theorem settled_after (operations : List Operation) : (after true operations).Settled :=
  after_of_step true settled_empty (fun operation _ hs => hs.run operation) operations

/-- **Whatever is done to it, the store in memory keeps its laws.** -/
theorem laws_after (instant : Bool) (operations : List Operation) :
    (after instant operations).Laws instant where
  named := wellNamed_after instant operations
  get kind name := by
    simp only [perform]
    split <;> rename_i h <;> simp [h]
  create kind object := by
    simp only [perform]
    split <;> rename_i h <;> simp [h]
  update kind object := by
    simp only [perform]
    split <;> rename_i h <;> simp [h]
  updateStatus c := by
    simp only [perform]
    split <;> rename_i h <;> simp [h]
  failed operation error t h := by
    cases operation with
    | call r =>
      obtain ⟨hreply, rfl⟩ := Prod.mk.inj h
      cases hr : (perform instant r (after instant operations)).1 with
      | ok answer =>
        rw [hr] at hreply
        cases hreply
      | error e => exact perform_eq_of_error hr
    | putCluster | putConfigMap | markReady => cases h
  frame operation kind name h := get?_run_or instant _ operation h
  stored r kind object t hr h := map_bare_of_writes hr h
  keepsStatus c new h := by
    rw [perform_updateCluster h rfl]
    exact Collection.put_self _ _ _
  keepsSpec c new h := by
    rw [perform_updateStatus h rfl]
    exact Collection.put_self _ _ _
  commute a b h := perform_update_updateStatus_comm instant _ h
  updateWorkload hslow stored w h := by
    subst hslow
    simp only [perform, get?, Kind.nameOf, h]
    exact Collection.put_self _ _ _
  createWorkload hslow w h := by
    subst hslow
    simp only [perform, get?, Kind.nameOf, h]
    exact Collection.put_self _ _ _
  caughtUp hinstant name w hw := by
    subst hinstant
    have hsettled := settled_after operations
    refine ⟨hsettled.isReady hw, ?_⟩
    rw [hsettled name w hw, goalVersion]
    split <;> rename_i h <;> simp [h]

end Store
end Reconciliation
