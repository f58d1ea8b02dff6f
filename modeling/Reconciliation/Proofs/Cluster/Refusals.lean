/-
# Records at which no pass resumes

The progress record of a cluster is a text that others can write.  It is refused when it
cannot be read and when it names a stage that there is not (`DbCluster.Refuses`); in every
other case the pass resumes at the named stage, or begins where the record names none
(`DbCluster.ResumesAt`).

A call that refuses the record ends right after it has read the cluster: no machine is
built, so there is nothing to act, to check or to decide, and nothing else is asked of the
surroundings, whatever they are (`Reconciler.run_of_refuses`).
-/

import Reconciliation.Proofs.Cluster.Attempt
import Reconciliation.Proofs.Cluster.Progress
import Reconciliation.Proofs.Cluster.Run

namespace Reconciliation

/-! ## Refused records -/

namespace DbCluster

/-- The record of the cluster is refused, and why. -/
inductive Refuses (c : DbCluster) : ConfigError → Prop
  /-- The text is no record. -/
  | unreadable {text : String} {fault : Json.Fault}
      (stored : c.metadata.annotations.get? progressAnnotation = some text) (given : text ≠ "")
      (unread : Progress.ofJson text = .error fault) : Refuses c (.invalidProgress fault)
  /-- The record names something, but none of the stages. -/
  | unregistered {text : String} {record : Progress}
      (stored : c.metadata.annotations.get? progressAnnotation = some text) (given : text ≠ "")
      (read : Progress.ofJson text = .ok record) (names : record.nextState ≠ "")
      (unknown : ∀ stage : Stage, stage.name ≠ record.nextState) :
      Refuses c (.unregisteredState record.nextState)

/-- The stage at which the next tick of the cluster resumes or begins. -/
inductive ResumesAt (c : DbCluster) : Stage → Prop
  | absent (stored : c.metadata.annotations.get? progressAnnotation = none) :
      ResumesAt c .startFresh
  | empty (stored : c.metadata.annotations.get? progressAnnotation = some "") :
      ResumesAt c .startFresh
  | unnamed {text : String} {record : Progress}
      (stored : c.metadata.annotations.get? progressAnnotation = some text)
      (read : Progress.ofJson text = .ok record) (names : record.nextState = "") :
      ResumesAt c .startFresh
  | named {text : String} {record : Progress} {stage : Stage}
      (stored : c.metadata.annotations.get? progressAnnotation = some text)
      (read : Progress.ofJson text = .ok record) (names : record.nextState = stage.name) :
      ResumesAt c stage

end DbCluster

/-- A name is unregistered when no stage has it. -/
theorem Stage.ofName?_eq_none_iff {name : String} :
    Stage.ofName? name = none ↔ ∀ stage : Stage, stage.name ≠ name := by
  constructor
  · rintro hnone stage rfl
    rw [Stage.ofName?_name] at hnone
    cases hnone
  · intro hunknown
    cases hstage : Stage.ofName? name with
    | none => rfl
    | some stage => exact absurd (Stage.name_of_ofName? hstage) (hunknown stage)

section Records

variable {c : DbCluster} {text : String}

/-- A cluster without the annotation begins a pass. -/
theorem progressRecord_of_none (h : c.metadata.annotations.get? progressAnnotation = none) :
    progressRecord c = .ok .fresh := by
  simp [progressRecord, progressText?, h]

/-- So does one whose annotation is empty. -/
theorem progressRecord_of_empty (h : c.metadata.annotations.get? progressAnnotation = some "") :
    progressRecord c = .ok .fresh := by
  simp [progressRecord, progressText?, h]

/-- Any other annotation has to be the text of a record. -/
theorem progressRecord_of_text (h : c.metadata.annotations.get? progressAnnotation = some text)
    (hgiven : text ≠ "") :
    progressRecord c = (Progress.ofJson text).mapError .invalidProgress := by
  simp only [progressRecord, progressText?, h, hgiven, if_false]
  cases Progress.ofJson text <;> rfl

/-- The empty text is no record. -/
theorem Progress.ne_empty_of_ofJson {record : Progress} (h : Progress.ofJson text = .ok record) :
    text ≠ "" := by
  rintro rfl
  have hempty : Progress.ofJson "" = .error .cutShort := by cbv
  rw [hempty] at h
  cases h

/-- Where a record resumes. -/
theorem resumeStage_of_record {record : Progress} (h : progressRecord c = .ok record) :
    resumeStage c =
      if record.nextState = "" then .ok .startFresh
      else (Stage.ofName? record.nextState).elim (.error (.unregisteredState record.nextState))
        .ok := by
  simp only [resumeStage, h, bind, Except.bind, Progress.resumePoint?]
  by_cases hname : record.nextState = ""
  · simp [hname, initialStage]
  · simp only [hname, if_false]
    cases Stage.ofName? record.nextState <;> rfl

/-- A record that is refused gives the error that it is refused with. -/
theorem DbCluster.Refuses.resumeStage_eq {error : ConfigError} (h : c.Refuses error) :
    resumeStage c = .error error := by
  cases h with
  | unreadable stored given unread =>
    have hrecord := progressRecord_of_text stored given
    rw [unread] at hrecord
    rw [resumeStage, hrecord]
    rfl
  | unregistered stored given read names unknown =>
    have hrecord := progressRecord_of_text stored given
    rw [read] at hrecord
    rw [resumeStage_of_record hrecord, if_neg names, Stage.ofName?_eq_none_iff.2 unknown]
    rfl

/-- A record that resumes gives the stage that it names. -/
theorem DbCluster.ResumesAt.resumeStage_eq {stage : Stage} (h : c.ResumesAt stage) :
    resumeStage c = .ok stage := by
  cases h with
  | absent stored => rw [resumeStage_of_record (progressRecord_of_none stored)]; rfl
  | empty stored => rw [resumeStage_of_record (progressRecord_of_empty stored)]; rfl
  | unnamed stored read names =>
    have hrecord := progressRecord_of_text stored (Progress.ne_empty_of_ofJson read)
    rw [read] at hrecord
    rw [resumeStage_of_record hrecord, if_pos names]
  | named stored read names =>
    have hrecord := progressRecord_of_text stored (Progress.ne_empty_of_ofJson read)
    rw [read] at hrecord
    rw [resumeStage_of_record hrecord, names, if_neg (Stage.name_ne_empty stage),
      Stage.ofName?_name]
    rfl

/-- **Every cluster is refused or resumes**, by its record. -/
theorem DbCluster.refuses_or_resumesAt (c : DbCluster) :
    (∃ error, c.Refuses error) ∨ ∃ stage, c.ResumesAt stage := by
  cases htext : c.metadata.annotations.get? progressAnnotation with
  | none => exact .inr ⟨_, .absent htext⟩
  | some text =>
    by_cases hgiven : text = ""
    · subst hgiven
      exact .inr ⟨_, .empty htext⟩
    · cases hread : Progress.ofJson text with
      | error fault => exact .inl ⟨_, .unreadable htext hgiven hread⟩
      | ok record =>
        by_cases hname : record.nextState = ""
        · exact .inr ⟨_, .unnamed htext hread hname⟩
        · cases hstage : Stage.ofName? record.nextState with
          | none =>
            exact .inl ⟨_, .unregistered htext hgiven hread hname
              (Stage.ofName?_eq_none_iff.1 hstage)⟩
          | some stage =>
            exact .inr ⟨stage, .named htext hread (Stage.name_of_ofName? hstage).symm⟩

/-- No other record gives a stage. -/
theorem resumeStage_eq_ok_iff {stage : Stage} : resumeStage c = .ok stage ↔ c.ResumesAt stage := by
  refine ⟨fun h => ?_, DbCluster.ResumesAt.resumeStage_eq⟩
  obtain ⟨error, hrefuses⟩ | ⟨other, hresumes⟩ := c.refuses_or_resumesAt
  · cases hrefuses.resumeStage_eq.symm.trans h
  · rwa [← Except.ok.inj (hresumes.resumeStage_eq.symm.trans h)]

end Records

/-! ## Calls -/

/-- Only a call that could not build a machine ends with such an error. -/
theorem Conclusion.result_eq_config_iff {conclusion : Conclusion} {error : ConfigError} :
    conclusion.result = .error (.config error) ↔ conclusion = .misconfigured error := by
  constructor
  · intro h
    cases conclusion with
    | absent | unreadable => cases h
    | misconfigured other =>
      cases h
      rfl
    | ticked ending => cases ending <;> cases h
  · rintro rfl
    rfl

namespace Reconciler

variable (r : Reconciler) {σ : Type} (handle : (e : Effect) → σ → e.Reply × σ) (now : Timestamp)
  {name : ResourceName} {c : DbCluster} {x y : σ}

/-- Without a record at which to resume there is no machine. -/
theorem buildMachine_of_refuses {error : ConfigError} (h : c.Refuses error) :
    buildMachine c r.pacer = .error error := by
  obtain ⟨_, -, -, hmachine⟩ := exists_buildMachine
  rw [hmachine, h.resumeStage_eq]
  rfl

/-- **A call that refuses the record does nothing but read it**, whatever answers. -/
theorem run_of_refuses {error : ConfigError} (h : c.Refuses error)
    (hread : handle (.call (.get .cluster name)) x = (.ok c, y)) :
    (r.reconcile now name).run handle x = (.misconfigured error, y) := by
  simp only [reconcile, Program.run_bind, callStore, Program.run_request, hread,
    r.buildMachine_of_refuses h, Program.pure_eq, Program.run_done]

/-- A call that resumes builds the machine at the stage, looks around and lets it tick. -/
theorem exists_machine_of_resumesAt (name : ResourceName) {stage : Stage}
    (h : c.ResumesAt stage) :
    ∃ machine, buildMachine c r.pacer = .ok machine ∧ machine.current = stage.state ∧
      ∀ {σ : Type} (handle : (e : Effect) → σ → e.Reply × σ) (x y z : σ) (ctx : Context),
        handle (.call (.get .cluster name)) x = (.ok c, y) →
        (Context.observe c r.pendingRequeue now).run.run handle y = (.ok ctx, z) →
        (r.reconcile now name).run handle x =
          (.ticked ((machine.tick ctx).run handle z).1.1, ((machine.tick ctx).run handle z).2) := by
  obtain ⟨graph, -, -, hmachine⟩ := exists_buildMachine
  have hbuild := hmachine c r.pacer
  rw [h.resumeStage_eq] at hbuild
  refine ⟨_, hbuild, rfl, fun handle x y z ctx hread hobserve => ?_⟩
  simp only [reconcile, Program.run_bind, callStore, Program.run_request, hread, hbuild,
    Except.map, hobserve, Program.pure_eq, Program.run_done]

end Reconciler

/-- Looking around in a store that answers finds the workload that is stored. -/
theorem Context.run_observe (s : Store) (instant : Bool) (c : DbCluster) (d : Duration)
    (now : Timestamp) :
    (Context.observe c d now).run.run (Store.handle instant false) s =
      (.ok ⟨c, c.status, s.workloads c.resourceName, d, now⟩, s) := by
  have hget : s.perform instant (.get .workload c.resourceName) =
      (Scene.Leads.reply .workload c.resourceName (s.workloads c.resourceName), s) :=
    Scene.Leads.perform_get .workload c.resourceName s
  simp only [Context.observe, findResource, ExceptT.run_bind, ExceptT.run_mk, callStore,
    Program.run_bind, Program.run_request, Store.handle, hget]
  cases s.workloads c.resourceName <;> rfl

/-- **A record that is corrupt or stale is refused without effects, and only such a one.** -/
theorem refused_records (r : Reconciler) (instant : Bool) (now : Timestamp) {s : Store}
    {name : ResourceName} {c : DbCluster} (h : s.clusters name = some c) :
    (∀ error, ((r.reconcile now name).run (Store.handle instant false) s).1.result =
      .error (.config error) ↔ c.Refuses error) ∧
    (∀ error, c.Refuses error →
      (r.reconcile now name).run (Store.handle instant false) s = (.misconfigured error, s) ∧
      buildMachine c r.pacer = .error error ∧
      (∀ counters : Counters,
        counters.recordAll (Conclusion.misconfigured error).events = counters) ∧
      ∀ (σ : Type) (handle : (e : Effect) → σ → e.Reply × σ) (x y : σ),
        handle (.call (.get .cluster name)) x = (.ok c, y) →
          (r.reconcile now name).run handle x = (.misconfigured error, y)) ∧
    ((∀ error, ¬ c.Refuses error) → ∃ stage machine ending ctx t, c.ResumesAt stage ∧
      buildMachine c r.pacer = .ok machine ∧ machine.current = stage.state ∧
      (machine.tick ⟨c, c.status, s.workloads c.resourceName, r.pendingRequeue, now⟩).run
        (Store.handle instant false) s = ((ending, ctx), t) ∧
      (r.reconcile now name).run (Store.handle instant false) s = (.ticked ending, t)) := by
  have hget : s.perform instant (.get .cluster name) = (.ok c, s) := Store.perform_getCluster h
  have hread : Store.handle instant false (.call (.get .cluster name)) s = (.ok c, s) := hget
  have hrun := fun stage (hstage : c.ResumesAt stage) =>
    r.exists_machine_of_resumesAt now name hstage
  refine ⟨fun error => ?_, fun error hrefuses =>
    ⟨?_, r.buildMachine_of_refuses hrefuses, fun _ => rfl, ?_⟩, fun hresumes => ?_⟩
  · rw [Conclusion.result_eq_config_iff]
    constructor
    · intro hconclusion
      obtain ⟨other, hrefuses⟩ | ⟨stage, hresumes⟩ := c.refuses_or_resumesAt
      · rw [r.run_of_refuses _ now hrefuses hread] at hconclusion
        cases hconclusion
        exact hrefuses
      · obtain ⟨machine, -, -, hticks⟩ := hrun stage hresumes
        rw [hticks _ s s s _ hread (Context.run_observe s instant c _ now)] at hconclusion
        cases hconclusion
    · intro hrefuses
      rw [r.run_of_refuses _ now hrefuses hread]
  · exact r.run_of_refuses _ now hrefuses hread
  · exact fun σ handle x y hread => r.run_of_refuses handle now hrefuses hread
  · obtain ⟨error, hrefuses⟩ | ⟨stage, hstage⟩ := c.refuses_or_resumesAt
    · exact absurd hrefuses (hresumes error)
    · obtain ⟨machine, hbuild, hcurrent, hticks⟩ := hrun stage hstage
      exact ⟨stage, machine, _, _, _, hstage, hbuild, hcurrent, rfl,
        hticks _ s s s _ hread (Context.run_observe s instant c _ now)⟩

/-- A cluster whose record names a stage that there is not. -/
def DbCluster.stale : DbCluster := withProgress (.scaling 3 5) (.resumingAt "DeployEverything")

/-- The stage of an older workflow is refused. -/
theorem DbCluster.refuses_stale :
    DbCluster.stale.Refuses (.unregisteredState "DeployEverything") := by
  have hstored : DbCluster.stale.metadata.annotations.get? progressAnnotation =
      some (Progress.resumingAt "DeployEverything").toJson := by
    simp [stale, withProgress, DbCluster.annotate]
  exact .unregistered hstored (Progress.toJson_ne_empty _) (Progress.ofJson_toJson _)
    (by decide) fun stage => by cases stage <;> decide

/-- The call that finds such a record ends with the error and leaves the store as it was. -/
theorem refused_records_of_stale :
    (Store.empty.insert .cluster .stale).clusters ⟨"db", "example"⟩ = some .stale ∧
    (Reconciler.standard.reconcile .earliest ⟨"db", "example"⟩).run (Store.handle true false)
        (Store.empty.insert .cluster .stale) =
      (.misconfigured (.unregisteredState "DeployEverything"),
        Store.empty.insert .cluster .stale) := by
  have hstored : (Store.empty.insert .cluster .stale).clusters ⟨"db", "example"⟩ =
      some DbCluster.stale := rfl
  exact ⟨hstored, ((refused_records Reconciler.standard true .earliest hstored).2.1 _
    DbCluster.refuses_stale).1⟩

end Reconciliation
