/-
# What saving the progress changes

The name of the stage to resume at is written into a record that holds more, in an annotation
of a cluster that has others, in a store that holds more than this cluster.
`DbCluster.Repointed` says what a cluster is like afterwards: the record names the stage, and
all the rest is as it was.  So a name that is written over another leaves no trace of it
(`withProgress_withProgress`).

A save makes two calls, and either may fail before it reaches the store.  A save that fails
has changed nothing, and it fails only when there is nothing to write to, when what is there
cannot be read, or when one of its calls has failed (`repoints_or_changes_nothing`).
-/

import Reconciliation.Proofs.Cluster.Faults
import Reconciliation.Proofs.Cluster.Reruns

namespace Reconciliation

/-! ## Records with another resume point -/

/-- `d` is `c` with another resume point. -/
structure DbCluster.Repointed (c : DbCluster) (next : String) (d : DbCluster) : Prop where
  /-- The record names the stage, and what else it says is kept. -/
  record : ∃ record, progressRecord c = .ok record ∧
    progressRecord d = .ok { record with nextState := next }
  /-- A cluster without a record gets one that says nothing else. -/
  unannotated : progressText? c = none → progressRecord d = .ok ⟨next, .empty⟩
  annotations : ∀ key, key ≠ progressAnnotation →
    d.metadata.annotations.get? key = c.metadata.annotations.get? key
  name : d.metadata.name = c.metadata.name
  space : d.metadata.space = c.metadata.space
  spec : d.spec = c.spec
  status : d.status = c.status

/-- The cluster has a progress record that cannot be read. -/
def DbCluster.Unreadable (c : DbCluster) : Prop :=
  ∃ text, progressText? c = some text ∧ text ≠ "" ∧ ∀ record, Progress.ofJson text ≠ .ok record

section Records

variable {c : DbCluster} {record : Progress}

/-- Reading the record fails exactly when there is one that cannot be read. -/
theorem exists_progressRecord_eq_error_iff :
    (∃ error, progressRecord c = .error error) ↔ c.Unreadable := by
  unfold progressRecord DbCluster.Unreadable
  cases htext : progressText? c with
  | none => simp
  | some text =>
    by_cases hgiven : text = ""
    · simp [hgiven]
    · cases hread : Progress.ofJson text <;> simp [hgiven, hread]

theorem withProgress_repointed (hrecord : progressRecord c = .ok record) (next : String) :
    c.Repointed next (withProgress c { record with nextState := next }) where
  record := ⟨record, hrecord, progressRecord_withProgress _ _⟩
  unannotated hnone := by
    rw [progressRecord_of_none hnone] at hrecord
    cases hrecord
    exact progressRecord_withProgress _ _
  annotations key hkey := by simp [withProgress, DbCluster.annotate, hkey.symm]
  name := rfl
  space := rfl
  spec := rfl
  status := rfl

/-- A record that is written over another is written in its place. -/
theorem withProgress_withProgress (c : DbCluster) (first second : Progress) :
    withProgress (withProgress c first) second = withProgress c second :=
  c.annotate_annotate _ _ _

end Records

/-! ## Saves -/

/-- What a save of a resume point does to a store, whichever of its calls fail. -/
structure Store.SaveLaws (instant : Bool) (s : Store) (name : ResourceName) (next : String) :
    Prop where
  /-- A save that succeeds repoints the cluster and leaves every other object. -/
  saved : ∀ failures, (FaultyStore.mk s failures []).Ends instant (saveNextState name next)
    fun reply b => reply = .ok () → ∃ c d, s.clusters name = some c ∧
      b.store.clusters name = some d ∧ c.Repointed next d ∧
      ∀ kind other, (kind ≠ .cluster ∨ other ≠ name) → b.store.get? kind other = s.get? kind other
  /-- A save fails when there is nothing to write to, when what is there cannot be read or when
  one of its calls fails, and only then. -/
  fails_iff : ∀ failures, (FaultyStore.mk s failures []).Ends instant (saveNextState name next)
    fun reply b => (∃ cause, reply = .error cause) ↔ s.clusters name = none ∨
      (∃ c, s.clusters name = some c ∧ c.Unreadable) ∨ ∃ r error, (r, some error) ∈ b.calls
  /-- A save that fails changes nothing. -/
  failed : ∀ failures, (FaultyStore.mk s failures []).Ends instant (saveNextState name next)
    fun reply b => ∀ cause, reply = .error cause → b.store = s
  /-- The next save goes as it would have gone without this one, and leaves the same store. -/
  overridden : ∀ failures later failures', (FaultyStore.mk s failures []).Ends instant
    (saveNextState name next) fun _ b =>
      (FaultyStore.mk b.store failures' []).Ends instant (saveNextState name later)
        fun reply b₁ => (FaultyStore.mk s failures' []).Ends instant (saveNextState name later)
          fun reply' b₂ => reply = reply' ∧ (reply' = .ok () → b₁.store = b₂.store)

namespace FaultyStore

variable {b : FaultyStore} {instant : Bool} {s : Store} {name : ResourceName} {next : String}
  {c : DbCluster} {record : Progress}

/-- Ways for a save to end: the cluster could not be read, or not be written. -/
theorem Ends.saveNextState {Q : Except Failure Unit → FaultyStore → Prop}
    (hunread : ∀ error, Q (.error (.store error)) (b.failed (.get .cluster name) error))
    (hmissing : b.store.clusters name = none →
      Q (.error (.store (.notFound .cluster name))) (b.reached instant (.get .cluster name)))
    (hrefused : ∀ c error, b.store.clusters name = some c → progressRecord c = .error error →
      Q (.error (.config error)) (b.reached instant (.get .cluster name)))
    (hfound : ∀ c record, b.store.clusters name = some c → progressRecord c = .ok record →
      (b.reached instant (.get .cluster name)).Ends instant
        (callStore (.update .cluster (withProgress c { record with nextState := next })))
        fun reply b' => Q (reply.mapError .store) b') :
    b.Ends instant (saveNextState name next) Q := by
  refine bind (call (r := .get .cluster name) ?_ hunread)
  rw [Scene.Leads.perform_get]
  cases hstored : b.store.clusters name with
  | none =>
    rw [show b.store.get? .cluster name = none from hstored]
    exact hmissing hstored
  | some c =>
    rw [show b.store.get? .cluster name = some c from hstored]
    cases hrecord : progressRecord c with
    | error error =>
      simp only [Scene.Leads.reply, hrecord]
      exact hrefused c error hstored hrecord
    | ok record =>
      simp only [Scene.Leads.reply, hrecord]
      refine bind ((hfound c record hstored hrecord).mono fun reply b' hreply => ?_)
      cases reply <;> exact hreply

/-- A record is written on the cluster that is there. -/
theorem perform_withProgress (instant : Bool) (hs : s.clusters name = some c)
    (hname : c.resourceName = name) (record : Progress) :
    s.perform instant (.update .cluster (withProgress c record)) =
      (.ok (), s.put name .cluster (withProgress c record)) :=
  Store.perform_updateCluster hs hname

/-- **A save repoints the cluster, or fails and changes nothing.** -/
theorem ends_saveNextState (hnamed : s.WellNamed) (failures : List (Option StoreError))
    (next : String) :
    (FaultyStore.mk s failures []).Ends instant (saveNextState name next) fun reply b =>
      (reply = .ok () ∧ (∀ r error, (r, some error) ∉ b.calls) ∧ ∃ c record,
        s.clusters name = some c ∧ progressRecord c = .ok record ∧
        b.store = s.put name .cluster (withProgress c { record with nextState := next })) ∨
      ((∃ cause, reply = .error cause) ∧ b.store = s ∧
        (s.clusters name = none ∨ (∃ c, s.clusters name = some c ∧ c.Unreadable) ∨
          ∃ r error, (r, some error) ∈ b.calls)) := by
  refine .saveNextState (fun error => .inr ⟨⟨_, rfl⟩, rfl, .inr (.inr ⟨_, error, .head _⟩)⟩)
    (fun hmissing => .inr ⟨⟨_, rfl⟩, store_reached_get .., .inl hmissing⟩)
    (fun c error hc hrecord => .inr ⟨⟨_, rfl⟩, store_reached_get .., .inr (.inl ⟨c, hc,
      exists_progressRecord_eq_error_iff.1 ⟨error, hrecord⟩⟩)⟩) fun c record hc hrecord => ?_
  have hname : c.resourceName = name := hnamed .cluster name c hc
  have hwrite := perform_withProgress instant hc hname { record with nextState := next }
  refine .call (.inl ⟨?_, ?_, c, record, hc, hrecord, ?_⟩) fun error =>
    .inr ⟨⟨_, rfl⟩, store_reached_get .., .inr (.inr ⟨_, error, .head _⟩)⟩
  · rw [store_reached_get, hwrite]
    rfl
  · simp [reached]
  · rw [reached, store_reached_get, hwrite]

/-- A save does not see which stage the saves before it have named. -/
theorem ends_saveNextState_put (hs : s.clusters name = some c) (hname : c.resourceName = name)
    (hrecord : progressRecord c = .ok record) (failures : List (Option StoreError))
    (next later : String) :
    (FaultyStore.mk (s.put name .cluster (withProgress c { record with nextState := next }))
        failures []).Ends instant (saveNextState name later) fun reply b₁ =>
      (FaultyStore.mk s failures []).Ends instant (saveNextState name later) fun reply' b₂ =>
        reply = reply' ∧ (reply' = .ok () → b₁.store = b₂.store) := by
  have hput : (s.put name .cluster (withProgress c { record with nextState := next })).clusters
      name = some (withProgress c { record with nextState := next }) := Collection.put_self _ _ _
  have hread : ∀ {t : Store} {d : DbCluster}, t.clusters name = some d →
      t.perform instant (.get .cluster name) = (.ok d, t) := Store.perform_getCluster
  have hrecord' := progressRecord_withProgress c { record with nextState := next }
  have hwrite := perform_withProgress instant hs hname { record with nextState := later }
  have hwrite' := perform_withProgress instant hput hname { record with nextState := later }
  -- both saves meet the same failures, so they fail at the same call or not at all
  rcases failures with _ | ⟨_ | error, _ | ⟨_ | error, failures⟩⟩ <;>
    simp [Ends, saveNextState, callStore, Program.run_bind, Program.run_request, handle, answer,
      reached, failed, hread hs, hread hput, hrecord, hrecord', hwrite, hwrite', Store.put_put,
      withProgress_withProgress]

end FaultyStore

namespace Store

variable {instant : Bool} {s : Store}

theorem WellNamed.saveLaws (hnamed : s.WellNamed) (name : ResourceName) (next : String) :
    s.SaveLaws instant name next where
  saved failures := (FaultyStore.ends_saveNextState hnamed failures next).mono
    fun reply b h hreply => by
      obtain ⟨-, -, c, record, hc, hrecord, hstore⟩ | ⟨⟨cause, hcause⟩, -, -⟩ := h
      · rw [hstore]
        exact ⟨c, _, hc, Collection.put_self _ _ _, withProgress_repointed hrecord next,
          fun kind other hother => s.get?_put_of_ne_or .cluster _ hother⟩
      · cases hcause.symm.trans hreply
  fails_iff failures := (FaultyStore.ends_saveNextState hnamed failures next).mono
    fun reply b h => by
      obtain ⟨rfl, hcalls, c, record, hc, hrecord, -⟩ | ⟨hfails, -, hwhy⟩ := h
      · refine ⟨nofun, ?_⟩
        rintro (hmissing | ⟨d, hd, hunreadable⟩ | ⟨r, error, hmem⟩)
        · cases hmissing.symm.trans hc
        · obtain rfl := Option.some.inj (hd.symm.trans hc)
          obtain ⟨error, herror⟩ := exists_progressRecord_eq_error_iff.2 hunreadable
          cases herror.symm.trans hrecord
        · exact absurd hmem (hcalls r error)
      · exact iff_of_true hfails hwhy
  failed failures := (FaultyStore.ends_saveNextState hnamed failures next).mono
    fun reply b h cause hreply => by
      obtain ⟨hok, -⟩ | ⟨-, hstore, -⟩ := h
      · cases hok.symm.trans hreply
      · exact hstore
  overridden failures later failures' := (FaultyStore.ends_saveNextState hnamed failures next).mono
    fun reply b h => by
      obtain ⟨-, -, c, record, hc, hrecord, hstore⟩ | ⟨-, hstore, -⟩ := h
      · rw [hstore]
        exact FaultyStore.ends_saveNextState_put hc (hnamed .cluster name c hc) hrecord failures'
          next later
      · rw [hstore]
        exact ⟨rfl, fun _ => rfl⟩

/-- **Saving progress changes only the resume point**, or fails and changes nothing. -/
theorem saveLaws_after (instant : Bool) (operations : List Operation) (name : ResourceName)
    (next : String) : (after instant operations).SaveLaws instant name next :=
  (wellNamed_after instant operations).saveLaws name next

end Store
end Reconciliation
