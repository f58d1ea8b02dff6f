/-
# Progress records on a cluster

A progress record is written into an annotation and read back by the next tick.
Writing and reading are inverse (`progressRecord_withProgress`), and no other part
of the cluster is touched.
-/

import Reconciliation.Cluster.Workflow
import Reconciliation.Proofs.Json.ReadBack

namespace Reconciliation

instance : Json.Lawful Progress where
  fits record :=
    ⟨by decide, _, rfl, _, _, rfl, ⟨record.nextState, rfl⟩, _, _, rfl,
      .inr ⟨nofun, record.completion, rfl⟩, rfl⟩
  ofValue_toValue record := by
    have htable := Json.Lawful.ofValue_toValue record.completion
    show (do some ⟨← some record.nextState, ← Json.ofValue (Json.toValue record.completion)⟩) =
      some record
    rw [htable]
    rfl

/-- A record is read back from its text. -/
@[simp] theorem Progress.ofJson_toJson (record : Progress) :
    Progress.ofJson record.toJson = .ok record :=
  Json.decode_encode record

/-- The text of a record is not empty. -/
theorem Progress.toJson_ne_empty (record : Progress) : record.toJson ≠ "" := by
  intro h
  have hlist := congrArg String.toList h
  simp [Progress.toJson, Json.encode, Json.Value.compact, Json.toValue, Json.Value.print] at hlist

@[simp] theorem Metadata.get?_annotate (m : Metadata) (key value other : String) :
    (m.annotate key value).annotations.get? other =
      if key = other then some value else m.annotations.get? other :=
  Table.get?_insert m.annotations key value other

/-- **The record that was written is the record that is read.** -/
@[simp] theorem progressRecord_withProgress (c : DbCluster) (record : Progress) :
    progressRecord (withProgress c record) = .ok record := by
  have htext : progressText? (withProgress c record) = some record.toJson := by
    simp [progressText?, withProgress, DbCluster.annotate]
  simp [progressRecord, htext, record.toJson_ne_empty]

namespace DbCluster

/-! ## What an annotation leaves alone -/

variable (c : DbCluster) (key value : String)

/-- Whether the version changes is read off one annotation. -/
theorem isChangingVersion_annotate (h : key ≠ appliedVersionAnnotation) :
    (c.annotate key value).isChangingVersion = c.isChangingVersion := by
  have hlast : (c.annotate key value).lastAppliedVersion? = c.lastAppliedVersion? := by
    simp [lastAppliedVersion?, annotate, h]
  rw [isChangingVersion, hlast]
  rfl

end DbCluster
end Reconciliation
