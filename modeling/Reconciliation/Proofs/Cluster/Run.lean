/-
# Runs of the reconciler

A `Run` is a history of calls with readiness reported in between.  What holds of a
scene at the beginning, survives reports and is kept by every step holds all along
(`Run.invariant`); the history is part of the invariant, so that it may speak of what
has happened before.
-/

import Reconciliation.Proofs.Cluster.Members

namespace Reconciliation

/-- A call of the reconciler that has ended. -/
structure Call where
  before : Store
  conclusion : Conclusion
  after : Store

/-- `Run call between start calls s`: from the first store the calls, the latest first,
have led to the store `s`; `between` is what may happen between two calls. -/
inductive Run (call : Store → Conclusion → Store → Prop) (between : Store → Store → Prop)
    (start : Store) : List Call → Store → Prop
  | start : Run call between start [] start
  | call {calls : List Call} {s s' : Store} {conclusion : Conclusion}
      (run : Run call between start calls s) (ran : call s conclusion s') :
      Run call between start (⟨s, conclusion, s'⟩ :: calls) s'
  | between {calls : List Call} {s s' : Store} (run : Run call between start calls s)
      (change : between s s') : Run call between start calls s'

/-- A run is a run up to its last call, and that call. -/
theorem Run.of_cons {call : Store → Conclusion → Store → Prop} {between : Store → Store → Prop}
    {start s : Store} {last : Call} {calls : List Call}
    (h : Run call between start (last :: calls) s) :
    Run call between start calls last.before ∧ call last.before last.conclusion last.after := by
  generalize hcalls : last :: calls = all at h
  induction h with
  | start => cases hcalls
  | call run ran =>
    cases hcalls
    exact ⟨run, ran⟩
  | between _ _ ih => exact ih hcalls

/-! ## What a store says about a cluster -/

/-- The phase of the stored cluster. -/
def Store.phase? (s : Store) (name : ResourceName) : Option Phase :=
  (s.clusters name).map fun c => c.status.phase

/-- The replicas that the stored workload is asked for. -/
def Store.replicas? (s : Store) (name : ResourceName) : Option UInt32 :=
  (s.workloads name).map Workload.replicas

theorem Store.Shows.phase?_eq {s : Store} {name : ResourceName} {a : Scene}
    (h : s.Shows name a) : s.phase? name = some a.cluster.status.phase := by
  rw [Store.phase?, h.cluster]
  rfl

theorem Store.Shows.replicas?_eq {s : Store} {name : ResourceName} {a : Scene}
    (h : s.Shows name a) : s.replicas? name = a.replicas? := by
  rw [Store.replicas?, h.workload]
  rfl

/-- The stage that a call of the reconciler ran. -/
def Call.stage? (call : Call) (name : ResourceName) : Option Stage :=
  (call.before.clusters name).bind fun c => (resumeStage c).toOption

/-- The call published the cluster as running. -/
def Call.PublishesRunning (call : Call) (name : ResourceName) : Prop :=
  call.stage? name = some .updateStatus ∧ call.after.phase? name = some .running

instance (call : Call) (name : ResourceName) : Decidable (call.PublishesRunning name) :=
  inferInstanceAs (Decidable (_ ∧ _))

/-! ## The beginning of a pass -/

/-- The cluster has no progress record, or an empty one. -/
def DbCluster.AtRest (c : DbCluster) : Prop :=
  ∃ record, progressRecord c = .ok record ∧ record.nextState = ""

/-- A cluster at rest begins a pass. -/
theorem DbCluster.AtRest.resumeStage_eq {c : DbCluster} (h : c.AtRest) :
    resumeStage c = .ok initialStage := by
  obtain ⟨record, hrecord, hnext⟩ := h
  have hresume := (Progress.resumePoint?_eq_none_iff record).2 hnext
  unfold resumeStage
  rw [hrecord]
  simp [bind, Except.bind, hresume]

/-- A store in which a pass of a cluster may begin: it was written through its calls,
and the cluster is stored and at rest. -/
structure Store.Begins (s : Store) (name : ResourceName) (c : DbCluster) : Prop where
  wellNamed : s.WellNamed
  stored : s.clusters name = some c
  atRest : c.AtRest

/-- The scene in which a pass begins. -/
def Store.opening (s : Store) (name : ResourceName) (c : DbCluster) : Scene :=
  ⟨c, s.workloads name, s.automationConfigs name⟩

theorem Store.Begins.shows {s : Store} {name : ResourceName} {c : DbCluster}
    (h : s.Begins name c) : s.Shows name (s.opening name c) :=
  h.wellNamed.shows h.stored

/-- The store of a cluster whose workload and automation config are still those of an
earlier spec. -/
def Store.deployedFor (earlier : ClusterSpec) (c : DbCluster) : Store :=
  ((Store.empty.insert .cluster c).insert .workload
    (wantedWorkload { c with spec := earlier })).insert .automationConfig
      (wantedAutomationConfig { c with spec := earlier })

theorem Store.wellNamed_deployedFor (earlier : ClusterSpec) (c : DbCluster) :
    (Store.deployedFor earlier c).WellNamed :=
  ((Store.wellNamed_empty.put .cluster c).put .workload _).put .automationConfig _

theorem Store.begins_deployedFor (earlier : ClusterSpec) {c : DbCluster} (h : c.AtRest) :
    (Store.deployedFor earlier c).Begins c.resourceName c :=
  ⟨Store.wellNamed_deployedFor earlier c, Collection.put_self _ _ _, h⟩

/-! ## Invariants -/

/-- A call, as a step between the scenes that its stores show. -/
structure Call.Seen (call : Call) (name : ResourceName) (lossy : Bool) (stage : Stage) (a : Scene)
    (after : Stage) (b : Scene) : Prop where
  before : call.before.Shows name a
  resumes : resumeStage a.cluster = .ok stage
  step : a.Step lossy stage call.conclusion after b
  after : call.after.Shows name b

namespace Call.Seen

variable {call : Call} {name : ResourceName} {lossy : Bool} {stage after : Stage} {a b : Scene}

theorem stage?_eq (h : call.Seen name lossy stage a after b) : call.stage? name = some stage := by
  rw [Call.stage?, h.before.cluster, Option.bind_some, h.resumes]
  rfl

/-- The cluster is published as running by its stage, and only when nothing is left to
scale. -/
theorem publishesRunning_iff (h : call.Seen name lossy stage a after b) :
    call.PublishesRunning name ↔
      stage = .updateStatus ∧ a.cluster.isStillScaling = false := by
  rw [Call.PublishesRunning, h.stage?_eq, h.after.phase?_eq]
  constructor
  · rintro ⟨hstage, hphase⟩
    obtain rfl := Option.some.inj hstage
    exact ⟨rfl, h.step.phase_eq_running_iff.1 (Option.some.inj hphase)⟩
  · rintro ⟨rfl, hfinished⟩
    exact ⟨rfl, congrArg some (h.step.phase_eq_running_iff.2 hfinished)⟩

end Call.Seen

/-- Calls of this kind are steps of the scene under a name. -/
def StepsBy (lossy : Bool) (name : ResourceName) (call : Store → Conclusion → Store → Prop) :
    Prop :=
  ∀ {s s' : Store} {conclusion : Conclusion} {a : Scene} {stage : Stage}, call s conclusion s' →
    s.Shows name a → resumeStage a.cluster = .ok stage →
      ∃ after b, a.Step lossy stage conclusion after b ∧ s'.Shows name b

theorem Reconciler.stepsBy_calls {r : Reconciler} (hr : r.pacer.Silent) (instant : Bool)
    (name : ResourceName) : StepsBy false name (r.Calls instant name) :=
  fun h hs hstage => h.step hr hs hstage

theorem Reconciler.stepsBy_lossyCalls {r : Reconciler} (hr : r.pacer.Silent) (instant : Bool)
    (name : ResourceName) : StepsBy true name (r.LossyCalls instant name) :=
  fun h hs hstage => h.step hr hs hstage

/-- **What every step keeps, and whatever happens between two calls, holds all along a
run.**  What happens between two calls must leave the cluster where it resumes. -/
theorem Run.invariant_of_shows {lossy : Bool} {name : ResourceName}
    {call : Store → Conclusion → Store → Prop} {between : Store → Store → Prop}
    (Inv : List Call → Stage → Scene → Prop) (hcall : StepsBy lossy name call) {start s : Store}
    {first : Scene} {opening : Stage} {calls : List Call} (hshows : start.Shows name first)
    (hresumes : resumeStage first.cluster = .ok opening) (hrun : Run call between start calls s)
    (hstart : Inv [] opening first)
    (hbetween : ∀ {calls stage a s s'}, Inv calls stage a → s.Shows name a →
      resumeStage a.cluster = .ok stage → between s s' → ∃ b, s'.Shows name b ∧
        progressRecord b.cluster = progressRecord a.cluster ∧ Inv calls stage b)
    (hstep : ∀ {calls last stage a after b}, Inv calls stage a →
      Call.Seen last name lossy stage a after b → Inv (last :: calls) after b) :
    ∃ stage a, s.Shows name a ∧ resumeStage a.cluster = .ok stage ∧ Inv calls stage a := by
  induction hrun with
  | start => exact ⟨opening, first, hshows, hresumes, hstart⟩
  | call _ ran ih =>
    obtain ⟨stage, a, hs, hstage, hinv⟩ := ih
    obtain ⟨after, b, hab, hb⟩ := hcall ran hs hstage
    exact ⟨after, b, hb, hab.resumeStage_eq hstage, hstep hinv ⟨hs, hstage, hab, hb⟩⟩
  | between _ change ih =>
    obtain ⟨stage, a, hs, hstage, hinv⟩ := ih
    obtain ⟨b, hb, hrecord, hinv⟩ := hbetween hinv hs hstage change
    exact ⟨stage, b, hb, (resumeStage_congr hrecord).trans hstage, hinv⟩

/-- The same of a run from the beginning of a pass, in which nothing but readiness is
reported between the calls. -/
theorem Run.invariant {lossy : Bool} {name : ResourceName}
    {call : Store → Conclusion → Store → Prop} (Inv : List Call → Stage → Scene → Prop)
    (hcall : StepsBy lossy name call) {start s : Store} {c : DbCluster} {calls : List Call}
    (hbegins : start.Begins name c)
    (hrun : Run call Store.Reports start calls s)
    (hstart : Inv [] initialStage (start.opening name c))
    (hreport : ∀ {calls stage a b}, Inv calls stage a → a.Settles b → Inv calls stage b)
    (hstep : ∀ {calls last stage a after b}, Inv calls stage a →
      Call.Seen last name lossy stage a after b → Inv (last :: calls) after b) :
    ∃ stage a, s.Shows name a ∧ resumeStage a.cluster = .ok stage ∧ Inv calls stage a := by
  refine Run.invariant_of_shows Inv hcall hbegins.shows hbegins.atRest.resumeStage_eq hrun hstart
    (fun hinv hs _ change => ?_) hstep
  obtain ⟨other, rfl⟩ := change
  obtain ⟨b, hab, hb⟩ := hs.settle other
  exact ⟨b, hb, by rw [hab.cluster_eq], hreport hinv hab⟩

/-! ## Runs that are carried out -/

instance Except.decidableEqOk {ε α : Type} [DecidableEq α] (x : Except ε α) (a : α) :
    Decidable (x = .ok a) :=
  match x with
  | .ok b => decidable_of_iff (b = a) ⟨congrArg Except.ok, Except.ok.inj⟩
  | .error _ => isFalse nofun

/-- A cluster that counts some members and wants others. -/
def DbCluster.scaling (counted wanted : UInt32) : DbCluster :=
  ⟨⟨"example", "db", .empty⟩, ⟨wanted, "6.0.5", .standard⟩,
    { ClusterStatus.fresh with currentMembers := counted }⟩

theorem Store.begins_scaling (earlier : ClusterSpec) (counted wanted : UInt32) :
    (Store.deployedFor earlier (.scaling counted wanted)).Begins ⟨"db", "example"⟩
      (.scaling counted wanted) :=
  Store.begins_deployedFor earlier ⟨.fresh, rfl, rfl⟩

/-- One thing that happens in a run. -/
inductive Deed where
  /-- The reconciler is called, and its write of the resume point is lost or not. -/
  | call (lost : Bool)
  /-- A workload catches up. -/
  | report (name : ResourceName)
deriving DecidableEq

namespace Reconciler

variable (r : Reconciler) (instant : Bool) (now : Timestamp) (name : ResourceName)

/-- Calls the reconciler while nobody else changes the store. -/
def callOnce (lost : Bool) (s : Store) : Conclusion × Store :=
  let (x, t) := (r.attempt now name).run (Store.handle instant false) s
  (r.conclude x).run (Store.handle instant lost) t

/-- What a deed adds to the calls so far and does to the store. -/
def carryOut : List Call × Store → Deed → List Call × Store
  | (calls, s), .call lost =>
    let (conclusion, s') := r.callOnce instant now name lost s
    (⟨s, conclusion, s'⟩ :: calls, s')
  | (calls, s), .report other => (calls, s.settle other)

/-- The calls and the store after the deeds, one after the other. -/
def history (start : Store) (deeds : List Deed) : List Call × Store :=
  deeds.foldl (r.carryOut instant now name) ([], start)

theorem lossyCalls_callOnce (lost : Bool) (s : Store) :
    r.LossyCalls instant name s (r.callOnce instant now name lost s).1
      (r.callOnce instant now name lost s).2 :=
  ⟨now, _, _, .of_run false nofun _ s, .of_run lost (fun _ => rfl) _ _⟩

theorem calls_callOnce (s : Store) :
    r.Calls instant name s (r.callOnce instant now name false s).1
      (r.callOnce instant now name false s).2 := by
  refine ⟨now, ?_⟩
  rw [reconcile_eq]
  exact .bind (.of_run false nofun _ s) (.of_run false nofun _ _)

/-- Deeds make a run. -/
theorem run_foldl {call : Store → Conclusion → Store → Prop} {deeds : List Deed}
    (hcall : ∀ lost s, .call lost ∈ deeds → call s (r.callOnce instant now name lost s).1
      (r.callOnce instant now name lost s).2) {start : Store} {done : List Call × Store}
    (hdone : Run call Store.Reports start done.1 done.2) :
    Run call Store.Reports start (deeds.foldl (r.carryOut instant now name) done).1
      (deeds.foldl (r.carryOut instant now name) done).2 := by
  induction deeds generalizing done with
  | nil => exact hdone
  | cons deed deeds ih =>
    refine ih (fun lost s h => hcall lost s (.tail _ h)) ?_
    cases deed with
    | call lost => exact .call hdone (hcall lost _ (.head _))
    | report other => exact .between hdone ⟨other, rfl⟩

/-- Deeds make a run in which writes of the resume point may be lost. -/
theorem run_history_of_lossy (start : Store) (deeds : List Deed) :
    Run (r.LossyCalls instant name) Store.Reports start
      (r.history instant now name start deeds).1 (r.history instant now name start deeds).2 :=
  r.run_foldl instant now name (fun lost s _ => r.lossyCalls_callOnce instant now name lost s)
    .start

/-- Deeds that lose nothing make a calm run. -/
theorem run_history (start : Store) {deeds : List Deed} (hdeeds : .call true ∉ deeds) :
    Run (r.Calls instant name) Store.Reports start
      (r.history instant now name start deeds).1 (r.history instant now name start deeds).2 := by
  refine r.run_foldl instant now name (fun lost s hmem => ?_) .start
  cases lost with
  | false => exact r.calls_callOnce instant now name s
  | true => exact absurd hmem hdeeds

/-- What a call after some deeds shows is shown by a run. -/
theorem exists_run_of_lossy (start : Store) (deeds : List Deed) {P : Call → List Call → Prop}
    (h : P ⟨(r.history instant now name start deeds).2,
        (r.callOnce instant now name false (r.history instant now name start deeds).2).1,
        (r.callOnce instant now name false (r.history instant now name start deeds).2).2⟩
      (r.history instant now name start deeds).1) :
    ∃ last calls s, Run (r.LossyCalls instant name) Store.Reports start (last :: calls) s ∧
      P last calls :=
  ⟨_, _, _, .call (r.run_history_of_lossy instant now name start deeds)
    (r.lossyCalls_callOnce instant now name false _), h⟩

/-- If the deeds lose nothing, it is shown by a calm run. -/
theorem exists_run (start : Store) (deeds : List Deed) (hdeeds : .call true ∉ deeds)
    {P : Call → List Call → Prop}
    (h : P ⟨(r.history instant now name start deeds).2,
        (r.callOnce instant now name false (r.history instant now name start deeds).2).1,
        (r.callOnce instant now name false (r.history instant now name start deeds).2).2⟩
      (r.history instant now name start deeds).1) :
    ∃ last calls s, Run (r.Calls instant name) Store.Reports start (last :: calls) s ∧
      P last calls :=
  ⟨_, _, _, .call (r.run_history instant now name start hdeeds)
    (r.calls_callOnce instant now name _), h⟩

end Reconciler
end Reconciliation
