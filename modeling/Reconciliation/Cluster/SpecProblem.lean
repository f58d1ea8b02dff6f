/-
# Which specs are accepted

A spec is looked at in a fixed order, and the first problem is reported.
-/

import Reconciliation.Cluster.Scaling
import Reconciliation.Text.DecimalDigit
import Reconciliation.Text.Pattern
import Reconciliation.Text.Quoted

namespace Reconciliation

/-- The greatest number of members of a replica set. -/
def maxMembers : UInt32 := 50

/-- The greatest length of a cluster name in bytes: member names append a hyphen
and an index to it. -/
def maxNameBytes : Nat := 60

/-- What is wrong with a spec. -/
inductive ValidationError where
  | invalidName (name : String)
  | invalidMembers (members : UInt32)
  | invalidVersion (version : String)
  | missingTlsReference (field : String)
deriving DecidableEq, Repr

/-- The message of an error. -/
def ValidationError.message : ValidationError → String
  | invalidName name => "name " ++ quoted name ++ " is not a valid DNS-1123 label"
  | invalidMembers members => "members must be between 1 and 50, got " ++ toString members.toNat
  | invalidVersion version => "version " ++ quoted version ++ " is not of the form X.Y.Z"
  | missingTlsReference field => "TLS is enabled but " ++ field ++ " is not set"

/-- The letters and digits of a DNS label. -/
def isLabelEdge (c : Char) : Bool := c.isLower || c.isDigit

/-- The characters of a DNS label. -/
def isLabelChar (c : Char) : Bool := isLabelEdge c || c = '-'

/-- A DNS label, `^[a-z0-9]([-a-z0-9]*[a-z0-9])?$`. -/
def dnsLabelPattern : Pattern :=
  .followedBy .start <| .followedBy (.oneOf isLabelEdge) <|
    .followedBy (.optional (.followedBy (.many isLabelChar) (.oneOf isLabelEdge))) .finish

/-- A version, `^\d+\.\d+\.\d+$`, with decimal digits of any scripts. -/
def versionPattern : Pattern :=
  .followedBy .start <| .followedBy (.run isDecimalDigit) <| .followedBy (.oneOf (· = '.')) <|
    .followedBy (.run isDecimalDigit) <| .followedBy (.oneOf (· = '.')) <|
      .followedBy (.run isDecimalDigit) .finish

/-- The first problem of a cluster's TLS references. -/
def tlsProblem? (tls : TlsSpec) : Option ValidationError :=
  if ¬ tls.enabled then none
  else if tls.certificateKeySecret = "" then some (.missingTlsReference "certificate_key_secret")
  else if tls.caConfigMap = "" then some (.missingTlsReference "ca_config_map")
  else none

/-- The first problem of a cluster, in the order name, members, version, TLS
references. -/
def specProblem? (c : DbCluster) : Option ValidationError :=
  if c.metadata.name.utf8ByteSize > maxNameBytes ∨ ¬ dnsLabelPattern.foundIn c.metadata.name then
    some (.invalidName c.metadata.name)
  else if c.spec.members = 0 ∨ c.spec.members > maxMembers then
    some (.invalidMembers c.spec.members)
  else if ¬ versionPattern.foundIn c.spec.version then some (.invalidVersion c.spec.version)
  else tlsProblem? c.spec.security.tls

/-- Accepts a cluster or reports its first problem. -/
def validateSpec (c : DbCluster) : Except ValidationError Unit :=
  match specProblem? c with
  | some problem => .error problem
  | none => .ok ()

end Reconciliation
