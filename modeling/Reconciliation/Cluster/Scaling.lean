/-
# Scaling and the names that go with a cluster

A replica set grows and shrinks by one member at a time.  Only a cluster that was
never deployed goes straight to the number of members that is wanted.
-/

import Reconciliation.Cluster.Resource

namespace Reconciliation

/-- The annotation that holds the progress record. -/
def progressAnnotation : String := "dbcluster.io/v1.stateMachine"

/-- The annotation that holds the version last fully reconciled. -/
def appliedVersionAnnotation : String := "dbcluster.io/v1.lastAppliedVersion"

/-- The annotation that holds the spec last fully reconciled. -/
def appliedSpecAnnotation : String := "dbcluster.io/v1.lastSuccessfulConfiguration"

/-- The port on which a member listens. -/
def databasePort : UInt16 := 27017

/-- One step from the current number of members towards the desired one. -/
def nextMemberCount (current desired : UInt32) : UInt32 :=
  if current = 0 ∨ current = desired then desired
  else if current < desired then current + 1
  else current - 1

/-- A cluster that has the members it wants keeps them. -/
@[simp] theorem nextMemberCount_self (n : UInt32) : nextMemberCount n n = n := by
  simp [nextMemberCount]

/-- A cluster that was never deployed goes straight to what is wanted. -/
@[simp] theorem nextMemberCount_zero (desired : UInt32) : nextMemberCount 0 desired = desired := by
  simp [nextMemberCount]

/-- The metadata with this annotation. -/
def Metadata.annotate (m : Metadata) (key value : String) : Metadata :=
  { m with annotations := m.annotations.insert key value }

namespace DbCluster

/-- The name of the cluster itself. -/
def resourceName (c : DbCluster) : ResourceName := ⟨c.metadata.space, c.metadata.name⟩

/-- The name of the service in front of the members. -/
def serviceName (c : DbCluster) : ResourceName :=
  ⟨c.metadata.space, c.metadata.name ++ "-svc"⟩

/-- The name of the secret with the server certificate. -/
def operatorSecretName (c : DbCluster) : ResourceName :=
  ⟨c.metadata.space, c.metadata.name ++ "-server-certificate-key"⟩

/-- The name of the secret in which the user provides the certificate. -/
def certificateSecretName (c : DbCluster) : ResourceName :=
  ⟨c.metadata.space, c.spec.security.tls.certificateKeySecret⟩

/-- The name of the config map in which the user provides the authority. -/
def authorityConfigMapName (c : DbCluster) : ResourceName :=
  ⟨c.metadata.space, c.spec.security.tls.caConfigMap⟩

/-- The cluster with this annotation. -/
def annotate (c : DbCluster) (key value : String) : DbCluster :=
  { c with metadata := c.metadata.annotate key value }

/-- The number of members that is wanted. -/
def desiredMembers (c : DbCluster) : UInt32 := c.spec.members

/-- The number of members at the last status write. -/
def currentMembers (c : DbCluster) : UInt32 := c.status.currentMembers

/-- The number of members to aim for in this pass. -/
def membersThisPass (c : DbCluster) : UInt32 :=
  nextMemberCount c.currentMembers c.desiredMembers

/-- Whether this pass will not reach the number of members that is wanted. -/
def isStillScaling (c : DbCluster) : Bool := c.membersThisPass ≠ c.desiredMembers

/-- Whether there are more members than are wanted. -/
def isScalingDown (c : DbCluster) : Bool := c.desiredMembers < c.currentMembers

/-- The version that was last fully reconciled. -/
def lastAppliedVersion? (c : DbCluster) : Option String :=
  c.metadata.annotations.get? appliedVersionAnnotation

/-- Whether another version is wanted than the one last fully reconciled. -/
def isChangingVersion (c : DbCluster) : Bool :=
  match c.lastAppliedVersion? with
  | some last => last ≠ c.spec.version
  | none => false

/-- The address of the member with an index. -/
def host (c : DbCluster) (index : Nat) : String :=
  c.metadata.name ++ "-" ++ toString index ++ "." ++ c.serviceName.name ++ "." ++
    c.serviceName.space ++ ".svc.cluster.local:" ++ toString databasePort.toNat

/-- The addresses of the first `count` members. -/
def hosts (c : DbCluster) (count : UInt32) : List String :=
  (List.range count.toNat).map c.host

/-- The text under which clients connect. -/
def connectionUri (c : DbCluster) : String :=
  "dbcluster://" ++ ",".intercalate (c.hosts c.desiredMembers)

end DbCluster
end Reconciliation
