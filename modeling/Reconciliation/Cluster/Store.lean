/-
# The resource store

The reconciler knows the outside world only through a store of resources, one
collection for each kind, looked up by name.  A `Request` is one call to the
store.  Creating a resource under a taken name and updating one that does not
exist fail in ways that can be told apart, so that a caller can adopt what is
already there.

`Store` is the store kept in memory.  Updating a cluster leaves its status alone,
and updating a workload leaves the workload's status alone.  With instant rollout a
workload settles with every change: it reports all replicas ready and its agents at
the version of the automation config of the same name.
-/

import Reconciliation.Cluster.Scaling

namespace Reconciliation

/-! ## Kinds of resources -/

/-- The kinds of resources in a store. -/
inductive Kind where
  | cluster
  | service
  | workload
  | automationConfig
  | secret
  | configMap
deriving DecidableEq, Repr

namespace Kind

/-- The resources of a kind. -/
@[reducible] def Object : Kind → Type
  | cluster => DbCluster
  | service => Service
  | workload => Workload
  | automationConfig => AutomationConfig
  | secret => Secret
  | configMap => ConfigMap

/-- How a kind is called in messages. -/
def label : Kind → String
  | cluster => "cluster"
  | service => "service"
  | workload => "workload"
  | automationConfig => "automation config"
  | secret => "secret"
  | configMap => "config map"

/-- How a kind is called in the names of calls. -/
def slug : Kind → String
  | cluster => "cluster"
  | service => "service"
  | workload => "workload"
  | automationConfig => "automation_config"
  | secret => "secret"
  | configMap => "config_map"

/-- The name under which a resource is kept. -/
def nameOf : (kind : Kind) → kind.Object → ResourceName
  | cluster, c => c.resourceName
  | service, s => s.name
  | workload, w => w.name
  | automationConfig, c => c.name
  | secret, s => s.name
  | configMap, c => c.name

/-- What is kept when a new resource is created: a workload starts with a fresh
status. -/
def initial : (kind : Kind) → kind.Object → kind.Object
  | cluster, c => c
  | service, s => s
  | workload, w => { w with status := .fresh }
  | automationConfig, c => c
  | secret, s => s
  | configMap, c => c

/-- What is kept when a stored resource is updated: the statuses of clusters and
workloads stay. -/
def updated : (kind : Kind) → (stored new : kind.Object) → kind.Object
  | cluster, stored, new => { new with status := stored.status }
  | service, _, new => new
  | workload, stored, new => { new with status := stored.status }
  | automationConfig, _, new => new
  | secret, _, new => new
  | configMap, _, new => new

/-- Whether a change of a resource of this kind makes the workload of the same name
settle under instant rollout. -/
def settlesWorkload : Kind → Bool
  | workload => true
  | automationConfig => true
  | _ => false

end Kind

/-! ## Calls -/

/-- Why a call to the store failed. -/
inductive StoreError where
  | notFound (kind : Kind) (name : ResourceName)
  | alreadyExists (kind : Kind) (name : ResourceName)
  | other (message : String)
deriving DecidableEq, Repr

namespace StoreError

/-- The message of an error. -/
def message : StoreError → String
  | notFound kind name => kind.label ++ " " ++ name.text ++ " not found"
  | alreadyExists kind name => kind.label ++ " " ++ name.text ++ " already exists"
  | other message => message

/-- Whether the resource was not there. -/
def isNotFound : StoreError → Bool
  | notFound _ _ => true
  | _ => false

/-- Whether the name was taken. -/
def isAlreadyExists : StoreError → Bool
  | alreadyExists _ _ => true
  | _ => false

end StoreError

/-- One call to a store. -/
inductive Request where
  /-- Looks a resource up. -/
  | get (kind : Kind) (name : ResourceName)
  /-- Adds a resource under a name that is free. -/
  | create (kind : Kind) (object : kind.Object)
  /-- Replaces a stored resource, statuses of clusters and workloads apart. -/
  | update (kind : Kind) (object : kind.Object)
  /-- Replaces the status of a stored cluster. -/
  | updateStatus (cluster : DbCluster)

namespace Request

/-- What a call gives when it succeeds. -/
@[reducible] def Answer : Request → Type
  | get kind _ => kind.Object
  | create _ _ => Unit
  | update _ _ => Unit
  | updateStatus _ => Unit

/-- What a call gives. -/
@[reducible] def Reply (r : Request) : Type := Except StoreError r.Answer

/-- The kind of resource that a call is about. -/
def kind : Request → Kind
  | get kind _ => kind
  | create kind _ => kind
  | update kind _ => kind
  | updateStatus _ => .cluster

/-- The name of the resource that a call is about. -/
def name : Request → ResourceName
  | get _ name => name
  | create kind object => kind.nameOf object
  | update kind object => kind.nameOf object
  | updateStatus cluster => cluster.resourceName

/-- The name of the call itself. -/
def method : Request → String
  | get kind _ => "get_" ++ kind.slug
  | create kind _ => "create_" ++ kind.slug
  | update kind _ => "update_" ++ kind.slug
  | updateStatus _ => "update_cluster_status"

/-- How a call is noted down. -/
def describe (r : Request) : String := r.method ++ " " ++ r.name.text

end Request

/-! ## The store in memory -/

/-- A collection of resources by name. -/
abbrev Collection (α : Type) := ResourceName → Option α

/-- The collection with `a` under `name`. -/
def Collection.put {α : Type} (collection : Collection α) (name : ResourceName) (a : α) :
    Collection α :=
  fun other => if other = name then some a else collection other

@[simp] theorem Collection.put_self {α : Type} (collection : Collection α)
    (name : ResourceName) (a : α) : collection.put name a name = some a := by
  simp [Collection.put]

theorem Collection.put_of_ne {α : Type} (collection : Collection α) {name other : ResourceName}
    (a : α) (h : other ≠ name) : collection.put name a other = collection other := by
  simp [Collection.put, h]

/-- A store in memory. -/
structure Store where
  clusters : Collection DbCluster
  services : Collection Service
  workloads : Collection Workload
  automationConfigs : Collection AutomationConfig
  secrets : Collection Secret
  configMaps : Collection ConfigMap

namespace Store

/-- The store without resources. -/
def empty : Store :=
  ⟨fun _ => none, fun _ => none, fun _ => none, fun _ => none, fun _ => none, fun _ => none⟩

instance : Inhabited Store := ⟨empty⟩

/-- The resource of a kind under a name. -/
def get? (store : Store) : (kind : Kind) → (name : ResourceName) → Option kind.Object
  | .cluster => store.clusters
  | .service => store.services
  | .workload => store.workloads
  | .automationConfig => store.automationConfigs
  | .secret => store.secrets
  | .configMap => store.configMaps

/-- The store with a resource under a name. -/
def put (store : Store) (name : ResourceName) : (kind : Kind) → kind.Object → Store
  | .cluster, c => { store with clusters := store.clusters.put name c }
  | .service, s => { store with services := store.services.put name s }
  | .workload, w => { store with workloads := store.workloads.put name w }
  | .automationConfig, c =>
    { store with automationConfigs := store.automationConfigs.put name c }
  | .secret, s => { store with secrets := store.secrets.put name s }
  | .configMap, c => { store with configMaps := store.configMaps.put name c }

/-- Inserts or replaces a resource, its status included. -/
def insert (store : Store) (kind : Kind) (object : kind.Object) : Store :=
  store.put (kind.nameOf object) kind object

/-- The version of the automation config under a name, zero when there is none. -/
def goalVersion (store : Store) (name : ResourceName) : UInt64 :=
  match store.automationConfigs name with
  | some config => config.version
  | none => 0

/-- Lets the workload under a name catch up: all replicas ready, and the agents at
the version of the automation config. -/
def settle (store : Store) (name : ResourceName) : Store :=
  match store.workloads name with
  | some w =>
    store.put name .workload { w with status := ⟨w.replicas, store.goalVersion name⟩ }
  | none => store

/-- Lets a workload settle if rollouts are instant and the change concerns it. -/
def rollOut (instant : Bool) (kind : Kind) (name : ResourceName) (store : Store) : Store :=
  if instant && kind.settlesWorkload then store.settle name else store

/-- What a call does to the store, and its reply. -/
def perform (instant : Bool) : (r : Request) → Store → r.Reply × Store
  | .get kind name, store =>
    match store.get? kind name with
    | some object => (.ok object, store)
    | none => (.error (.notFound kind name), store)
  | .create kind object, store =>
    match store.get? kind (kind.nameOf object) with
    | some _ => (.error (.alreadyExists kind (kind.nameOf object)), store)
    | none =>
      (.ok (), (store.insert kind (kind.initial object)).rollOut instant kind
        (kind.nameOf object))
  | .update kind object, store =>
    match store.get? kind (kind.nameOf object) with
    | some stored =>
      (.ok (), (store.put (kind.nameOf object) kind (kind.updated stored object)).rollOut
        instant kind (kind.nameOf object))
    | none => (.error (.notFound kind (kind.nameOf object)), store)
  | .updateStatus cluster, store =>
    match store.clusters cluster.resourceName with
    | some stored =>
      (.ok (), store.put cluster.resourceName .cluster { stored with status := cluster.status })
    | none => (.error (.notFound .cluster cluster.resourceName), store)

end Store
end Reconciliation
