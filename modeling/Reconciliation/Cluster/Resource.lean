/-
# The resources of a database cluster

The managed resource is a `DbCluster`: what is wanted of it (its spec) and how it
was last seen (its status).  The reconciler keeps four kinds of objects for it:
a service in front of the members, a workload that runs them, an automation config
that their agents follow, and a secret with the server certificate.  Users provide
the certificate in a secret and the authority in a config map.

Each type is stored as JSON with its fields in the order of declaration.
-/

import Reconciliation.Json.Codec

namespace Reconciliation

open Json (Codec required optional toValue ofValue)

/-! ## Names -/

/-- The name of a resource inside a namespace. -/
structure ResourceName where
  space : String
  name : String
deriving DecidableEq, Repr

/-- The namespace and the name, parted by a slash. -/
def ResourceName.text (n : ResourceName) : String := n.space ++ "/" ++ n.name

instance : Codec ResourceName where
  shape := .record [required String "namespace", required String "name"]
  toValue n := .object [("namespace", toValue n.space), ("name", toValue n.name)]
  ofValue
    | .object [(_, space), (_, name)] => do some ⟨← ofValue space, ← ofValue name⟩
    | _ => none

/-- The name, namespace and annotations of a managed resource. -/
structure Metadata where
  name : String
  space : String
  annotations : Table
deriving DecidableEq

instance : Codec Metadata where
  shape := .record [required String "name", required String "namespace",
    optional "annotations" Table.empty]
  toValue m := .object [("name", toValue m.name), ("namespace", toValue m.space),
    ("annotations", toValue m.annotations)]
  ofValue
    | .object [(_, name), (_, space), (_, annotations)] => do
      some ⟨← ofValue name, ← ofValue space, ← ofValue annotations⟩
    | _ => none

/-! ## What is wanted of a cluster -/

/-- Encryption of the connections between members and clients. -/
structure TlsSpec where
  enabled : Bool
  /-- The secret that holds the certificate and its key. -/
  certificateKeySecret : String
  /-- The config map that holds the certificate of the authority. -/
  caConfigMap : String
deriving DecidableEq

/-- No encryption. -/
def TlsSpec.disabled : TlsSpec := ⟨false, "", ""⟩

instance : Inhabited TlsSpec := ⟨.disabled⟩

instance : Codec TlsSpec where
  shape := .record [required Bool "enabled", optional "certificate_key_secret" "",
    optional "ca_config_map" ""]
  toValue s := .object [("enabled", toValue s.enabled),
    ("certificate_key_secret", toValue s.certificateKeySecret),
    ("ca_config_map", toValue s.caConfigMap)]
  ofValue
    | .object [(_, enabled), (_, secret), (_, configMap)] => do
      some ⟨← ofValue enabled, ← ofValue secret, ← ofValue configMap⟩
    | _ => none

/-- The security section of a spec. -/
structure SecuritySpec where
  tls : TlsSpec
deriving DecidableEq

/-- The security of a spec that does not mention it. -/
def SecuritySpec.standard : SecuritySpec := ⟨.disabled⟩

instance : Inhabited SecuritySpec := ⟨.standard⟩

instance : Codec SecuritySpec where
  shape := .record [optional "tls" TlsSpec.disabled]
  toValue s := .object [("tls", toValue s.tls)]
  ofValue
    | .object [(_, tls)] => do some ⟨← ofValue tls⟩
    | _ => none

/-- What is wanted of a cluster. -/
structure ClusterSpec where
  /-- The number of members of the replica set. -/
  members : UInt32
  /-- The version of the database, of the form `X.Y.Z`. -/
  version : String
  security : SecuritySpec
deriving DecidableEq

instance : Codec ClusterSpec where
  shape := .record [required UInt32 "members", required String "version",
    optional "security" SecuritySpec.standard]
  toValue s := .object [("members", toValue s.members), ("version", toValue s.version),
    ("security", toValue s.security)]
  ofValue
    | .object [(_, members), (_, version), (_, security)] => do
      some ⟨← ofValue members, ← ofValue version, ← ofValue security⟩
    | _ => none

/-! ## How a cluster was last seen -/

/-- The phase of a cluster. -/
inductive Phase where
  | pending
  | running
  | failed
deriving DecidableEq, Repr

/-- How a phase is written. -/
def Phase.name : Phase → String
  | pending => "Pending"
  | running => "Running"
  | failed => "Failed"

/-- The phase of that name. -/
def Phase.ofName? (name : String) : Option Phase :=
  [pending, running, failed].find? fun phase => phase.name = name

instance : Codec Phase where
  shape := .choice [Phase.pending.name, Phase.running.name, Phase.failed.name]
  toValue phase := .text phase.name
  ofValue
    | .text name => Phase.ofName? name
    | _ => none

/-- How a cluster was last seen. -/
structure ClusterStatus where
  phase : Phase
  message : String
  /-- The members that are part of the replica set. -/
  currentMembers : UInt32
  /-- The replicas that the workload was asked for. -/
  currentWorkloadReplicas : UInt32
  uri : String
  version : String
  lastUpdated : Option Timestamp
deriving DecidableEq

/-- The status of a cluster that was never reconciled. -/
def ClusterStatus.fresh : ClusterStatus := ⟨.pending, "", 0, 0, "", "", none⟩

instance : Inhabited ClusterStatus := ⟨.fresh⟩

instance : Codec ClusterStatus where
  shape := .record [required Phase "phase", optional "message" "",
    optional "current_members" (0 : UInt32),
    optional "current_workload_replicas" (0 : UInt32), optional "uri" "",
    optional "version" "", optional "last_updated" (none : Option Timestamp)]
  toValue s := .object [("phase", toValue s.phase), ("message", toValue s.message),
    ("current_members", toValue s.currentMembers),
    ("current_workload_replicas", toValue s.currentWorkloadReplicas),
    ("uri", toValue s.uri), ("version", toValue s.version),
    ("last_updated", toValue s.lastUpdated)]
  ofValue
    | .object [(_, phase), (_, message), (_, members), (_, replicas), (_, uri), (_, version),
        (_, updated)] => do
      some ⟨← ofValue phase, ← ofValue message, ← ofValue members, ← ofValue replicas,
        ← ofValue uri, ← ofValue version, ← ofValue updated⟩
    | _ => none

/-- A replicated database cluster. -/
structure DbCluster where
  metadata : Metadata
  spec : ClusterSpec
  status : ClusterStatus
deriving DecidableEq

instance : Codec DbCluster where
  shape := .record [required Metadata "metadata", required ClusterSpec "spec",
    optional "status" ClusterStatus.fresh]
  toValue c := .object [("metadata", toValue c.metadata), ("spec", toValue c.spec),
    ("status", toValue c.status)]
  ofValue
    | .object [(_, metadata), (_, spec), (_, status)] => do
      some ⟨← ofValue metadata, ← ofValue spec, ← ofValue status⟩
    | _ => none

/-! ## The objects kept for a cluster -/

/-- The network endpoint in front of the members. -/
structure Service where
  name : ResourceName
  port : UInt16
  selector : Table
deriving DecidableEq

instance : Codec Service where
  shape := .record [required ResourceName "name", required UInt16 "port",
    required Table "selector"]
  toValue s := .object [("name", toValue s.name), ("port", toValue s.port),
    ("selector", toValue s.selector)]
  ofValue
    | .object [(_, name), (_, port), (_, selector)] => do
      some ⟨← ofValue name, ← ofValue port, ← ofValue selector⟩
    | _ => none

/-- How a workload replaces its replicas after a change. -/
inductive UpdateStrategy where
  | rollingUpdate
  | onDelete
deriving DecidableEq, Repr

/-- How a strategy is written. -/
def UpdateStrategy.name : UpdateStrategy → String
  | rollingUpdate => "RollingUpdate"
  | onDelete => "OnDelete"

/-- The strategy of that name. -/
def UpdateStrategy.ofName? (name : String) : Option UpdateStrategy :=
  [rollingUpdate, onDelete].find? fun strategy => strategy.name = name

instance : Codec UpdateStrategy where
  shape := .choice [UpdateStrategy.rollingUpdate.name, UpdateStrategy.onDelete.name]
  toValue strategy := .text strategy.name
  ofValue
    | .text name => UpdateStrategy.ofName? name
    | _ => none

/-- How far a workload has come. -/
structure WorkloadStatus where
  readyReplicas : UInt32
  /-- The version of the automation config that every agent has reached. -/
  agentsGoalVersion : UInt64
deriving DecidableEq

/-- The status of a workload that was just created. -/
def WorkloadStatus.fresh : WorkloadStatus := ⟨0, 0⟩

instance : Inhabited WorkloadStatus := ⟨.fresh⟩

instance : Codec WorkloadStatus where
  shape := .record [required UInt32 "ready_replicas", required UInt64 "agents_goal_version"]
  toValue s := .object [("ready_replicas", toValue s.readyReplicas),
    ("agents_goal_version", toValue s.agentsGoalVersion)]
  ofValue
    | .object [(_, ready), (_, goal)] => do some ⟨← ofValue ready, ← ofValue goal⟩
    | _ => none

/-- The replicated workload that runs the members. -/
structure Workload where
  name : ResourceName
  replicas : UInt32
  version : String
  tlsSecret : Option String
  updateStrategy : UpdateStrategy
  status : WorkloadStatus
deriving DecidableEq

instance : Codec Workload where
  shape := .record [required ResourceName "name", required UInt32 "replicas",
    required String "version", required (Option String) "tls_secret",
    required UpdateStrategy "update_strategy", optional "status" WorkloadStatus.fresh]
  toValue w := .object [("name", toValue w.name), ("replicas", toValue w.replicas),
    ("version", toValue w.version), ("tls_secret", toValue w.tlsSecret),
    ("update_strategy", toValue w.updateStrategy), ("status", toValue w.status)]
  ofValue
    | .object [(_, name), (_, replicas), (_, version), (_, secret), (_, strategy),
        (_, status)] => do
      some ⟨← ofValue name, ← ofValue replicas, ← ofValue version, ← ofValue secret,
        ← ofValue strategy, ← ofValue status⟩
    | _ => none

namespace Workload

/-- Whether every replica is ready. -/
def isReady (w : Workload) : Bool := w.status.readyReplicas = w.replicas

/-- Whether every replica is ready and every agent has reached a version of the
automation config. -/
def agentsReached (w : Workload) (version : UInt64) : Bool :=
  w.isReady && version ≤ w.status.agentsGoalVersion

end Workload

/-- The configuration that the agents next to the members follow. -/
structure AutomationConfig where
  name : ResourceName
  version : UInt64
  members : List String
  databaseVersion : String
  tlsEnabled : Bool
deriving DecidableEq

instance : Codec AutomationConfig where
  shape := .record [required ResourceName "name", required UInt64 "version",
    required (List String) "members", required String "database_version",
    required Bool "tls_enabled"]
  toValue c := .object [("name", toValue c.name), ("version", toValue c.version),
    ("members", toValue c.members), ("database_version", toValue c.databaseVersion),
    ("tls_enabled", toValue c.tlsEnabled)]
  ofValue
    | .object [(_, name), (_, version), (_, members), (_, database), (_, tls)] => do
      some ⟨← ofValue name, ← ofValue version, ← ofValue members, ← ofValue database,
        ← ofValue tls⟩
    | _ => none

/-- Whether two configs make the agents do the same. -/
def AutomationConfig.sameContent (a b : AutomationConfig) : Bool :=
  a.members = b.members && a.databaseVersion = b.databaseVersion &&
    a.tlsEnabled = b.tlsEnabled

theorem AutomationConfig.sameContent_self (config : AutomationConfig) :
    config.sameContent config = true := by
  simp [sameContent]

/-- A secret: named texts. -/
structure Secret where
  name : ResourceName
  data : Table
deriving DecidableEq

instance : Codec Secret where
  shape := .record [required ResourceName "name", required Table "data"]
  toValue s := .object [("name", toValue s.name), ("data", toValue s.data)]
  ofValue
    | .object [(_, name), (_, data)] => do some ⟨← ofValue name, ← ofValue data⟩
    | _ => none

/-- A config map: named texts that are no secret. -/
structure ConfigMap where
  name : ResourceName
  data : Table
deriving DecidableEq

instance : Codec ConfigMap where
  shape := .record [required ResourceName "name", required Table "data"]
  toValue c := .object [("name", toValue c.name), ("data", toValue c.data)]
  ofValue
    | .object [(_, name), (_, data)] => do some ⟨← ofValue name, ← ofValue data⟩
    | _ => none

end Reconciliation
