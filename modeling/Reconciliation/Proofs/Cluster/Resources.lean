/-
# Resources and settings survive being stored

Every type that is stored writes canonical documents: its fields in the order of its shape,
each with a document that its own type writes.  So a type follows its parts, and the two
sides of a codec agree field by field: reading a field that was written gives what was
written (`Json.bind_ofValue`), one field after the other.
-/

import Reconciliation.Cluster.Resource
import Reconciliation.Proofs.Json.Rearranged
import Reconciliation.Proofs.Time.Instants
import Reconciliation.Settings.Settings

namespace Reconciliation

namespace Json

/-! ## Single values -/

/-- Every text is its own document. -/
instance : Stored String where
  proper := trivial

/-- A table is written as the object of its entries. -/
instance : Stored Table where
  proper := trivial

/-- Both flags are their own documents. -/
instance : Stored Bool where
  fits b := ⟨b, rfl⟩
  ofValue_toValue _ := rfl
  proper := trivial

/-- A number below a bound fits the shape of the numbers below it, as long as all of them are read
exactly. -/
theorem fits_natural {bound n : Nat} (hbound : bound ≤ significandBound) (h : n < bound) :
    (Shape.natural bound).Fits (.natural n) :=
  ⟨n, h, Nat.lt_of_lt_of_le h hbound, rfl⟩

/-- Words of 16 bits are the numbers below their size. -/
instance : Stored UInt16 where
  fits n := fits_natural (by decide) n.toNat_lt
  ofValue_toValue _ := congrArg some UInt16.ofNat_toNat
  proper := (by decide : UInt16.size ≤ significandBound)

/-- Words of 32 bits are the numbers below their size. -/
instance : Stored UInt32 where
  fits n := fits_natural (by decide) n.toNat_lt
  ofValue_toValue _ := congrArg some UInt32.ofNat_toNat
  proper := (by decide : UInt32.size ≤ significandBound)

/-- Words of 64 bits are the numbers below their size: the greatest words that are read exactly.
-/
instance : Stored UInt64 where
  fits n := fits_natural (by decide) n.toNat_lt
  ofValue_toValue _ := congrArg some UInt64.ofNat_toNat
  proper := (by decide : UInt64.size ≤ significandBound)

/-- An instant is written as the text from which it is read. -/
instance : Stored Timestamp where
  fits t := ⟨t.toText, by rw [t.ofText?_toText, Option.map_some], rfl⟩
  ofValue_toValue t := t.ofText?_toText
  proper := trivial

/-- A phase is written as its name, and the names are different. -/
instance : Stored Phase where
  fits phase := ⟨phase.name, by cases phase <;> decide, rfl⟩
  ofValue_toValue phase := by cases phase <;> rfl
  proper := trivial

/-- An update strategy is written as its name, and the names are different. -/
instance : Stored UpdateStrategy where
  fits strategy := ⟨strategy.name, by cases strategy <;> decide, rfl⟩
  ofValue_toValue strategy := by cases strategy <;> rfl
  proper := trivial

/-! ## Lists, and values that may be missing -/

variable {α : Type} [Codec α]

/-- A list is read item by item, and each of its items is read back. -/
instance [Stored α] : Stored (List α) where
  fits items := by
    refine ⟨items.map toValue, rfl, fun item hitem => ?_⟩
    obtain ⟨a, -, rfl⟩ := List.mem_map.1 hitem
    exact Lawful.fits a
  ofValue_toValue items := by
    show (items.map toValue).mapM ofValue = some items
    induction items with
    | nil => rfl
    | cons a items ih => simp [Lawful.ofValue_toValue, ih]
  proper := Stored.proper (α := α)

/-- What is not `null` is looked at as a value. -/
theorem ofValue_option_of_ne {value : Value} (h : value ≠ .null) :
    (ofValue value : Option (Option α)) = (ofValue value).map some := by
  cases value <;> first | rfl | exact absurd rfl h

/-- A type none of whose values is written as `null` may be missing. -/
theorem stored_option [Stored α] (h : ∀ a : α, toValue a ≠ .null) : Stored (Option α) where
  fits
    | none => .inl ⟨rfl, rfl⟩
    | some a => .inr ⟨h a, Lawful.fits a⟩
  ofValue_toValue
    | none => rfl
    | some a => by
      have hread := ofValue_option_of_ne (α := α) (h a)
      rwa [Lawful.ofValue_toValue a] at hread
  proper := Stored.proper (α := α)

/-- The name of a certificate secret may be missing; a text is not `null`. -/
instance : Stored (Option String) := stored_option nofun

/-- A limit on the writes may be missing; a number is not `null`. -/
instance : Stored (Option UInt32) := stored_option nofun

/-- The stamp of a status may be missing; the text of an instant is not `null`. -/
instance : Stored (Option Timestamp) := stored_option fun _ h => Value.noConfusion h

/-! ## Records -/

/-- A document of the first field goes before the documents of the others. -/
theorem FitFields.cons [Lawful α] (name : String) (absent : Absent) (a : α)
    {fields : List (String × Absent × Shape)} {members : List (String × Value)}
    (h : FitFields fields members) :
    FitFields ((name, absent, Codec.shape α) :: fields) ((name, toValue a) :: members) :=
  ⟨_, _, rfl, Lawful.fits a, h⟩

/-- A field that was written is read back. -/
theorem bind_ofValue [Lawful α] {β : Type} (a : α) (next : α → Option β) :
    (ofValue (toValue a) >>= next) = next a := by
  rw [Lawful.ofValue_toValue]
  rfl

end Json

open Json

/-! ## The cluster -/

/-- A name is written with its namespace first. -/
instance : Stored ResourceName where
  fits n := ⟨by decide, _, rfl, .cons _ _ n.space <| .cons _ _ n.name rfl⟩
  ofValue_toValue n := (bind_ofValue n.space _).trans <| bind_ofValue n.name _
  proper := ⟨by decide, Stored.proper, Stored.proper, trivial⟩

/-- The annotations are stored whatever they say, those of the reconciler like all others. -/
instance : Stored Metadata where
  fits m := ⟨by decide, _, rfl, .cons _ _ m.name <| .cons _ _ m.space <|
    .cons _ _ m.annotations rfl⟩
  ofValue_toValue m := (bind_ofValue m.name _).trans <| (bind_ofValue m.space _).trans <|
    bind_ofValue m.annotations _
  proper := ⟨by decide, Stored.proper, Stored.proper, Stored.proper, trivial⟩

/-- What users ask of TLS is stored also where it is switched off. -/
instance : Stored TlsSpec where
  fits s := ⟨by decide, _, rfl, .cons _ _ s.enabled <| .cons _ _ s.certificateKeySecret <|
    .cons _ _ s.caConfigMap rfl⟩
  ofValue_toValue s := (bind_ofValue s.enabled _).trans <|
    (bind_ofValue s.certificateKeySecret _).trans <| bind_ofValue s.caConfigMap _
  proper := ⟨by decide, Stored.proper, Stored.proper, Stored.proper, trivial⟩

/-- The security section follows its one part. -/
instance : Stored SecuritySpec where
  fits s := ⟨by decide, _, rfl, .cons _ _ s.tls rfl⟩
  ofValue_toValue s := bind_ofValue s.tls _
  proper := ⟨by decide, Stored.proper, trivial⟩

/-- A spec is written in full, so what is remembered of an applied spec is the whole of it. -/
instance : Stored ClusterSpec where
  fits s := ⟨by decide, _, rfl, .cons _ _ s.members <| .cons _ _ s.version <|
    .cons _ _ s.security rfl⟩
  ofValue_toValue s := (bind_ofValue s.members _).trans <| (bind_ofValue s.version _).trans <|
    bind_ofValue s.security _
  proper := ⟨by decide, Stored.proper, Stored.proper, Stored.proper, trivial⟩

/-- A status is written in full, with the fields that may be left out by hand. -/
instance : Stored ClusterStatus where
  fits s := ⟨by decide, _, rfl, .cons _ _ s.phase <| .cons _ _ s.message <|
    .cons _ _ s.currentMembers <| .cons _ _ s.currentWorkloadReplicas <| .cons _ _ s.uri <|
    .cons _ _ s.version <| .cons _ _ s.lastUpdated rfl⟩
  ofValue_toValue s := (bind_ofValue s.phase _).trans <| (bind_ofValue s.message _).trans <|
    (bind_ofValue s.currentMembers _).trans <| (bind_ofValue s.currentWorkloadReplicas _).trans <|
    (bind_ofValue s.uri _).trans <| (bind_ofValue s.version _).trans <| bind_ofValue s.lastUpdated _
  proper := ⟨by decide, Stored.proper, Stored.proper, Stored.proper, Stored.proper, Stored.proper,
    Stored.proper, Stored.proper, trivial⟩

/-- A cluster follows its metadata, its spec and its status. -/
instance : Stored DbCluster where
  fits c := ⟨by decide, _, rfl, .cons _ _ c.metadata <| .cons _ _ c.spec <| .cons _ _ c.status rfl⟩
  ofValue_toValue c := (bind_ofValue c.metadata _).trans <| (bind_ofValue c.spec _).trans <|
    bind_ofValue c.status _
  proper := ⟨by decide, Stored.proper, Stored.proper, Stored.proper, trivial⟩

/-! ## The objects kept for a cluster -/

/-- A service is stored with its port and its selector. -/
instance : Stored Service where
  fits s := ⟨by decide, _, rfl, .cons _ _ s.name <| .cons _ _ s.port <| .cons _ _ s.selector rfl⟩
  ofValue_toValue s := (bind_ofValue s.name _).trans <| (bind_ofValue s.port _).trans <|
    bind_ofValue s.selector _
  proper := ⟨by decide, Stored.proper, Stored.proper, Stored.proper, trivial⟩

/-- A workload comes with the progress that its rollout has made. -/
instance : Stored WorkloadStatus where
  fits s := ⟨by decide, _, rfl, .cons _ _ s.readyReplicas <| .cons _ _ s.agentsGoalVersion rfl⟩
  ofValue_toValue s := (bind_ofValue s.readyReplicas _).trans <| bind_ofValue s.agentsGoalVersion _
  proper := ⟨by decide, Stored.proper, Stored.proper, trivial⟩

/-- A workload is stored with the strategy of its updates and with its status. -/
instance : Stored Workload where
  fits w := ⟨by decide, _, rfl, .cons _ _ w.name <| .cons _ _ w.replicas <| .cons _ _ w.version <|
    .cons _ _ w.tlsSecret <| .cons _ _ w.updateStrategy <| .cons _ _ w.status rfl⟩
  ofValue_toValue w := (bind_ofValue w.name _).trans <| (bind_ofValue w.replicas _).trans <|
    (bind_ofValue w.version _).trans <| (bind_ofValue w.tlsSecret _).trans <|
    (bind_ofValue w.updateStrategy _).trans <| bind_ofValue w.status _
  proper := ⟨by decide, Stored.proper, Stored.proper, Stored.proper, Stored.proper, Stored.proper,
    Stored.proper, trivial⟩

/-- A config keeps the order of its members. -/
instance : Stored AutomationConfig where
  fits c := ⟨by decide, _, rfl, .cons _ _ c.name <| .cons _ _ c.version <| .cons _ _ c.members <|
    .cons _ _ c.databaseVersion <| .cons _ _ c.tlsEnabled rfl⟩
  ofValue_toValue c := (bind_ofValue c.name _).trans <| (bind_ofValue c.version _).trans <|
    (bind_ofValue c.members _).trans <| (bind_ofValue c.databaseVersion _).trans <|
    bind_ofValue c.tlsEnabled _
  proper := ⟨by decide, Stored.proper, Stored.proper, Stored.proper, Stored.proper, Stored.proper,
    trivial⟩

/-- The data of a secret are a table of texts. -/
instance : Stored Secret where
  fits s := ⟨by decide, _, rfl, .cons _ _ s.name <| .cons _ _ s.data rfl⟩
  ofValue_toValue s := (bind_ofValue s.name _).trans <| bind_ofValue s.data _
  proper := ⟨by decide, Stored.proper, Stored.proper, trivial⟩

/-- The data of a config map are a table of texts. -/
instance : Stored ConfigMap where
  fits c := ⟨by decide, _, rfl, .cons _ _ c.name <| .cons _ _ c.data rfl⟩
  ofValue_toValue c := (bind_ofValue c.name _).trans <| bind_ofValue c.data _
  proper := ⟨by decide, Stored.proper, Stored.proper, trivial⟩

/-! ## Settings -/

/-- The pacing section is written with all its keys, so no standard value comes in when it is
read. -/
instance : Stored PacingSettings where
  fits s := ⟨by decide, _, rfl, .cons _ _ s.beforePersistMs <| .cons _ _ s.afterPersistMs <|
    .cons _ _ s.maxWritesPerMinute rfl⟩
  ofValue_toValue s := (bind_ofValue s.beforePersistMs _).trans <|
    (bind_ofValue s.afterPersistMs _).trans <| bind_ofValue s.maxWritesPerMinute _
  proper := ⟨by decide, Stored.proper, Stored.proper, Stored.proper, trivial⟩

/-- The workflow section follows its one key. -/
instance : Stored WorkflowSettings where
  fits s := ⟨by decide, _, rfl, .cons _ _ s.pendingRequeueSeconds rfl⟩
  ofValue_toValue s := bind_ofValue s.pendingRequeueSeconds _
  proper := ⟨by decide, Stored.proper, trivial⟩

/-- The section of the logs follows its two keys. -/
instance : Stored LogSettings where
  fits s := ⟨by decide, _, rfl, .cons _ _ s.logLevel <| .cons _ _ s.jsonLogs rfl⟩
  ofValue_toValue s := (bind_ofValue s.logLevel _).trans <| bind_ofValue s.jsonLogs _
  proper := ⟨by decide, Stored.proper, Stored.proper, trivial⟩

/-- The settings follow their three sections. -/
instance : Stored Settings where
  fits s := ⟨by decide, _, rfl, .cons _ _ s.pacing <| .cons _ _ s.workflow <|
    .cons _ _ s.observability rfl⟩
  ofValue_toValue s := (bind_ofValue s.pacing _).trans <| (bind_ofValue s.workflow _).trans <|
    bind_ofValue s.observability _
  proper := ⟨by decide, Stored.proper, Stored.proper, Stored.proper, trivial⟩

end Reconciliation
