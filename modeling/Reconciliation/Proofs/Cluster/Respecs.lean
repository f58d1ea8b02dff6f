/-
# Runs in which the spec is edited

A user may want something else at any time.  Here the edits come between two calls of
the reconciler, wherever the cluster stands in its pass; `Store.Edited` says which edits
a run allows.  What is remembered of the calls before is a value of the latest call of
some kind (`latest`): the stages themselves remember nothing else.
-/

import Reconciliation.Proofs.Cluster.Edits

namespace Reconciliation

/-! ## Edits between calls -/

/-- What may happen between two calls: a workload catches up, or the user wants something
else, if the cluster allows it. -/
inductive Store.Edited (name : ResourceName) (allowed : DbCluster → ClusterSpec → Prop)
    (s : Store) : Store → Prop
  | report (other : ResourceName) : Edited name allowed s (s.settle other)
  | respec {c : DbCluster} {spec : ClusterSpec} (stored : s.clusters name = some c)
      (wanted : allowed c spec) : Edited name allowed s (s.edit name (.respec spec))

/-- The scene after the user has asked for something else. -/
def Scene.respec (a : Scene) (spec : ClusterSpec) : Scene :=
  a.withCluster { a.cluster with spec }

theorem Store.Shows.respec {s : Store} {name : ResourceName} {a : Scene} (h : s.Shows name a)
    (spec : ClusterSpec) : (s.edit name (.respec spec)).Shows name (a.respec spec) := by
  rw [Store.edit, h.cluster]
  exact h.put_cluster h.cluster_name

/-- **What every step, every report and every edit keeps holds all along a run.** -/
theorem Run.invariant_of_edits {lossy : Bool} {name : ResourceName}
    {call : Store → Conclusion → Store → Prop} {allowed : DbCluster → ClusterSpec → Prop}
    (Inv : List Call → Stage → Scene → Prop) (hcall : StepsBy lossy name call) {start s : Store}
    {first : Scene} {opening : Stage} {calls : List Call} (hshows : start.Shows name first)
    (hresumes : resumeStage first.cluster = .ok opening)
    (hrun : Run call (Store.Edited name allowed) start calls s) (hstart : Inv [] opening first)
    (hreport : ∀ {calls stage a b}, Inv calls stage a → a.Settles b → Inv calls stage b)
    (hrespec : ∀ {calls stage a spec}, Inv calls stage a → resumeStage a.cluster = .ok stage →
      allowed a.cluster spec → Inv calls stage (a.respec spec))
    (hstep : ∀ {calls last stage a after b}, Inv calls stage a →
      Call.Seen last name lossy stage a after b → Inv (last :: calls) after b) :
    ∃ stage a, s.Shows name a ∧ resumeStage a.cluster = .ok stage ∧ Inv calls stage a := by
  refine Run.invariant_of_shows Inv hcall hshows hresumes hrun hstart
    (fun hinv hs hstage change => ?_) hstep
  cases change with
  | report other =>
    obtain ⟨b, hab, hb⟩ := hs.settle other
    exact ⟨b, hb, by rw [hab.cluster_eq], hreport hinv hab⟩
  | respec stored wanted =>
    obtain rfl := Option.some.inj (stored.symm.trans hs.cluster)
    exact ⟨_, hs.respec _, rfl, hrespec hinv hstage wanted⟩

/-! ## What is remembered -/

/-- The call wrote the workload. -/
def Call.Deploys (call : Call) (name : ResourceName) : Prop :=
  call.stage? name = some .deployWorkload

instance (call : Call) (name : ResourceName) : Decidable (call.Deploys name) :=
  inferInstanceAs (Decidable (_ = _))

/-- The call counted members. -/
def Call.Counts (call : Call) (name : ResourceName) : Prop :=
  call.stage? name = some .updateStatus

instance (call : Call) (name : ResourceName) : Decidable (call.Counts name) :=
  inferInstanceAs (Decidable (_ = _))

theorem Call.Seen.deploys_iff {call : Call} {name : ResourceName} {lossy : Bool}
    {stage after : Stage} {a b : Scene} (h : call.Seen name lossy stage a after b) :
    call.Deploys name ↔ stage = .deployWorkload := by
  rw [Call.Deploys, h.stage?_eq, Option.some.injEq]

theorem Call.Seen.counts_iff {call : Call} {name : ResourceName} {lossy : Bool}
    {stage after : Stage} {a b : Scene} (h : call.Seen name lossy stage a after b) :
    call.Counts name ↔ stage = .updateStatus := by
  rw [Call.Counts, h.stage?_eq, Option.some.injEq]

/-- What was read off the latest call with the property; `first` before there is one. -/
def latest {α : Type} (P : Call → Prop) [DecidablePred P] (read : Call → α) (first : α) :
    List Call → α
  | [] => first
  | call :: calls => if P call then read call else latest P read first calls

/-! ## Runs that are carried out -/

/-- One thing that happens in a run with edits. -/
inductive Incident where
  /-- The reconciler is called. -/
  | call
  /-- The user changes the spec. -/
  | respec (change : ClusterSpec → ClusterSpec)

/-- The spec is changed only as it is allowed. -/
def Incident.Allowed (allowed : DbCluster → ClusterSpec → Prop) : Incident → Prop
  | call => True
  | respec change => ∀ c, allowed c (change c.spec)

/-- The store after the user has changed the spec, if the cluster is there. -/
def Store.respec (s : Store) (name : ResourceName) (change : ClusterSpec → ClusterSpec) : Store :=
  match s.clusters name with
  | some c => s.edit name (.respec (change c.spec))
  | none => s

namespace Reconciler

variable (r : Reconciler) (instant : Bool) (now : Timestamp) (name : ResourceName)

/-- What an incident adds to the calls so far and does to the store. -/
def undergo : List Call × Store → Incident → List Call × Store
  | done, .call => r.carryOut instant now name done (.call false)
  | (calls, s), .respec change => (calls, s.respec name change)

/-- The calls and the store after the incidents, one after the other. -/
def chronicle (start : Store) (incidents : List Incident) : List Call × Store :=
  incidents.foldl (r.undergo instant now name) ([], start)

variable {allowed : DbCluster → ClusterSpec → Prop}

/-- Incidents make a run. -/
theorem run_undergo {start : Store} {done : List Call × Store}
    (hdone : Run (r.Calls instant name) (Store.Edited name allowed) start done.1 done.2)
    {incidents : List Incident} (hallowed : ∀ i ∈ incidents, i.Allowed allowed) :
    Run (r.Calls instant name) (Store.Edited name allowed) start
      (incidents.foldl (r.undergo instant now name) done).1
      (incidents.foldl (r.undergo instant now name) done).2 := by
  induction incidents generalizing done with
  | nil => exact hdone
  | cons incident incidents ih =>
    obtain ⟨hfirst, hrest⟩ := List.forall_mem_cons.1 hallowed
    refine ih ?_ hrest
    cases incident with
    | call => exact .call hdone (r.calls_callOnce instant now name done.2)
    | respec change =>
      show Run _ _ start done.1 (done.2.respec name change)
      unfold Store.respec
      split
      · exact .between hdone (.respec ‹_› (hfirst _))
      · exact hdone

/-- What a call after some incidents shows is shown by a run. -/
theorem exists_run_of_incidents (start : Store) (incidents : List Incident)
    (hallowed : ∀ i ∈ incidents, i.Allowed allowed) {P : Call → List Call → Prop}
    (h : P ⟨(r.chronicle instant now name start incidents).2,
        (r.callOnce instant now name false (r.chronicle instant now name start incidents).2).1,
        (r.callOnce instant now name false (r.chronicle instant now name start incidents).2).2⟩
      (r.chronicle instant now name start incidents).1) :
    ∃ last calls s, Run (r.Calls instant name) (Store.Edited name allowed) start
      (last :: calls) s ∧ P last calls :=
  ⟨_, _, _, .call (r.run_undergo instant now name .start hallowed)
    (r.calls_callOnce instant now name _), h⟩

end Reconciler
end Reconciliation
