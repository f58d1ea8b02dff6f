/-
# From an action to the end of a call

With nobody else around a call of the reconciler is told by two things: what the action of the
stage leaves, and how the completion check judges that (`Stage.Judged`).  The check decides
where the pass goes on (`Stage.Judged.resumes`), and nothing but the action publishes anything
(`Reconciler.published_reconcile`).

What is published is what the status writes say that the store accepts (`Store.published`).
-/

import Reconciliation.Proofs.Cluster.Refusals
import Reconciliation.Proofs.Cluster.Undisturbed

namespace Reconciliation

/-! ## What is published -/

/-- The phase that a call publishes for the cluster under a name. -/
def Request.phase? (name : ResourceName) : Request → Option Phase
  | .updateStatus c => if c.resourceName = name then some c.status.phase else none
  | _ => none

/-- Calls about other kinds publish nothing. -/
theorem Request.phase?_of_kind_ne {r : Request} (h : r.kind ≠ .cluster) (name : ResourceName) :
    r.phase? name = none := by
  cases r with
  | updateStatus => exact absurd rfl h
  | get | create | update => rfl

namespace Store

/-- The phases that work publishes for the cluster under a name while nobody disturbs it, the
earliest first.  Only a write that the store accepts publishes something. -/
def published (instant : Bool) (name : ResourceName) {α : Type} : Work α → Store → List Phase
  | .done _, _ => []
  | .ask (.call r) next, s =>
    (if (s.perform instant r).1.isOk then (r.phase? name).toList else []) ++
      published instant name (next (s.perform instant r).1) (s.perform instant r).2
  | .ask (.sleep _) next, s => published instant name (next ()) s

variable {instant : Bool} {name : ResourceName} {α β : Type} {s : Store}

theorem published_bind (work : Work α) (next : α → Work β) (s : Store) :
    published instant name (work >>= next) s = published instant name work s ++
      published instant name (next (work.run (handle instant false) s).1)
        (work.run (handle instant false) s).2 := by
  induction work generalizing s with
  | done a => rfl
  | ask effect rest ih =>
    cases effect with
    | call r =>
      rw [Program.ask_bind, published, published, ih, List.append_assoc]
      rfl
    | sleep d => exact ih () s

/-- Work without status writes publishes nothing. -/
theorem published_of_only {Q : α → Prop} {work : Work α}
    (h : Only (fun r => r.phase? name = none) Q work) (s : Store) :
    published instant name work s = [] := by
  induction h generalizing s with
  | done => rfl
  | call hr _ ih =>
    rw [published, hr, ih, List.append_nil]
    split <;> rfl
  | sleep _ ih => exact ih s

theorem published_of_aloof {work : Work α} (h : Aloof work) (s : Store) :
    published instant name work s = [] := by
  refine published_of_only (Q := fun _ => True) ?_ s
  induction h with
  | done => exact .done trivial
  | call hr _ ih => exact .call (Request.phase?_of_kind_ne hr name) ih
  | sleep _ ih => exact .sleep ih

/-- A status write publishes its phase. -/
theorem published_updateStatus {ctx : Context} {c : DbCluster}
    (hs : s.clusters ctx.cluster.resourceName = some c) (o : StatusOptions) :
    published instant ctx.cluster.resourceName (updateStatus ctx o) s =
      [(ctx.withStatus o).cluster.status.phase] := by
  have hcall : s.perform instant (.updateStatus (ctx.withStatus o).cluster) =
      (.ok (), s.put ctx.cluster.resourceName .cluster
        { c with status := (ctx.withStatus o).cluster.status }) := perform_updateStatus hs rfl
  have hphase : (Request.updateStatus (ctx.withStatus o).cluster).phase?
      ctx.cluster.resourceName = some (ctx.withStatus o).cluster.status.phase := if_pos rfl
  unfold Context.withStatus at hcall hphase ⊢
  simp only [updateStatus, callStore, Program.request, Program.ask_bind, published, hcall, hphase]
  rfl

theorem published_publishStatus {ctx : Context} {c : DbCluster}
    (hs : s.clusters ctx.cluster.resourceName = some c) (o : StatusOptions) :
    published instant ctx.cluster.resourceName (publishStatus ctx o) s =
      [(ctx.withStatus o).cluster.status.phase] := by
  rw [publishStatus, published_bind, published_updateStatus hs]
  rfl

/-- Remembering the spec publishes nothing. -/
theorem published_recordAppliedSpec (ctx : Context) (s : Store) :
    published instant name (recordAppliedSpec ctx) s = [] := by
  refine published_of_only (Q := fun _ => True) (.bind (.callStore rfl fun reply => ?_)) s
  cases reply <;> exact .done trivial

/-- The spec of a cluster that is stored as it was observed can be remembered. -/
theorem run_recordAppliedSpec (instant : Bool) {ctx : Context}
    (hs : s.clusters ctx.cluster.resourceName = some ctx.cluster) :
    ∃ left t, (recordAppliedSpec ctx).run (handle instant false) s = (left, t) ∧
      t.clusters ctx.cluster.resourceName = some (withAppliedSpec ctx.cluster) ∧
      left.isStillScaling = ctx.isStillScaling := by
  have hcall : handle instant false (.call (.update .cluster (withAppliedSpec ctx.cluster))) s =
      (.ok (), s.put ctx.cluster.resourceName .cluster (withAppliedSpec ctx.cluster)) :=
    (handle_call ..).trans (perform_updateCluster (c := ctx.cluster) hs rfl)
  refine ⟨{ ctx with cluster := { ctx.cluster with
    metadata := (withAppliedSpec ctx.cluster).metadata } },
    s.put ctx.cluster.resourceName .cluster (withAppliedSpec ctx.cluster), ?_,
    Collection.put_self _ _ _, rfl⟩
  simp only [recordAppliedSpec, callStore, Program.run_bind, Program.run_request, hcall]
  rfl

theorem run_of_onlySleeps {work : Work Unit} (h : OnlySleeps work) (instant : Bool) (s : Store) :
    work.run (handle instant false) s = ((), s) := by
  induction h with
  | done => rfl
  | sleep d _ ih => exact ih

/-- The name of the next stage is written into the record. -/
theorem run_saveNextState (instant : Bool) {c : DbCluster} {record : Progress}
    (hs : s.clusters name = some c) (hname : c.resourceName = name)
    (hrecord : progressRecord c = .ok record) (next : String) :
    (saveNextState name next).run (handle instant false) s =
      (.ok (), s.put name .cluster (withProgress c { record with nextState := next })) := by
  have hread : handle instant false (.call (.get .cluster name)) s = (.ok c, s) :=
    (handle_call ..).trans (perform_getCluster hs)
  have hwrite : handle instant false (.call (.update .cluster
      (withProgress c { record with nextState := next }))) s =
      (.ok (), s.put name .cluster (withProgress c { record with nextState := next })) :=
    (handle_call ..).trans (perform_updateCluster hs hname)
  simp only [saveNextState, callStore, Program.run_bind, Program.run_request, hread, hrecord,
    hwrite]
  rfl

end Store

/-! ## From an action to the end of the call -/

namespace Stage

/-- With nobody else around the action of the stage succeeds, and the check judges what it
leaves.  Only a complete stage may give the cluster a new record. -/
structure Judged (stage : Stage) (instant : Bool) (s : Store) (ctx : Context) (outcome : Outcome)
    (complete : Bool) (left : Context) (t : Store) : Prop where
  acts : (stage.action ctx).run (Store.handle instant false) s = ((.ok outcome, left), t)
  judges : ((stage.isComplete left).run (Store.handle instant false) t).1 = .ok complete
  stored : ∃ d, t.clusters ctx.cluster.resourceName = some d ∧
    d.resourceName = ctx.cluster.resourceName ∧
    (progressRecord d = progressRecord ctx.cluster ∨
      complete = true ∧ progressRecord d = .ok .fresh)

/-- Where a pass goes on when the stage is complete: after the last one it starts again. -/
def following (stage : Stage) (ctx : Context) : Stage := (stage.next? ctx).getD .startFresh

variable {stage : Stage} {instant : Bool} {s t : Store} {ctx left : Context} {outcome : Outcome}
  {complete : Bool}

/-- A check changes nothing. -/
theorem run_isComplete (stage : Stage) (instant : Bool) (ctx : Context) (s : Store) :
    (stage.isComplete ctx).run (Store.handle instant false) s =
      (((stage.isComplete ctx).run (Store.handle instant false) s).1, s) :=
  s.run_of_lookups instant (Only.isComplete (fun _ _ => rfl) stage ctx) instant

end Stage

/-- What a call observes of a cluster. -/
def Reconciler.seen (r : Reconciler) (now : Timestamp) (s : Store) (c : DbCluster) : Context :=
  ⟨c, c.status, s.workloads c.resourceName, r.pendingRequeue, now⟩

/-- A cluster resumes where its record says that the pass goes on. -/
theorem DbCluster.resumeStage_withProgress (c : DbCluster) (record : Progress)
    (next : Option Stage) :
    resumeStage (withProgress c { record with nextState := nextName next }) =
      .ok (next.getD .startFresh) := by
  rw [resumeStage_of_record (progressRecord_withProgress c _)]
  cases next with
  | none => rfl
  | some stage =>
    show (if stage.name = "" then _ else (Stage.ofName? stage.name).elim _ _) = _
    rw [if_neg stage.name_ne_empty, Stage.ofName?_name]
    rfl

section Calls

variable {stage : Stage} {instant : Bool} {s t : Store} {c : DbCluster} {r : Reconciler}
  {now : Timestamp} {left : Context} {outcome : Outcome}

/-- The first part of a call runs the stage on what is observed. -/
theorem Reconciler.run_attempt (r : Reconciler) (now : Timestamp) (instant : Bool)
    (hs : s.clusters c.resourceName = some c) (hstage : resumeStage c = .ok stage) :
    (r.attempt now c.resourceName).run (Store.handle instant false) s =
      (runStage c.resourceName stage (r.seen now s c)).run (Store.handle instant false) s := by
  have hread : Store.handle instant false (.call (.get .cluster c.resourceName)) s = (.ok c, s) :=
    (Store.handle_call ..).trans (Store.perform_getCluster hs)
  simp only [attempt, callStore, Program.run_bind, Program.run_request, hread, hstage,
    Context.run_observe]
  rfl

/-- Nothing but the action of the stage publishes anything in the first part of a call. -/
theorem Reconciler.published_runStage (key name : ResourceName) (stage : Stage) (ctx : Context)
    (s : Store) : Store.published instant name (runStage key stage ctx) s =
      Store.published instant name (stage.action ctx) s := by
  rw [runStage, Store.published_bind]
  refine (congrArg _ ?_).trans (List.append_nil _)
  rcases ((stage.action ctx).run (Store.handle instant false) s) with ⟨⟨cause | outcome, left⟩, t⟩
  · rfl
  · refine Store.published_of_aloof ((Aloof.isComplete stage left).bind fun verdict => ?_) t
    rcases verdict with cause | (_ | _) <;> exact .done _

theorem Reconciler.published_conclude (hr : r.pacer.Silent) (name : ResourceName)
    (attempt : Attempt) (s : Store) :
    Store.published instant name (r.conclude attempt) s = [] :=
  Store.published_of_only (.conclude (fun _ _ => rfl) (fun _ => rfl) hr attempt) s

/-- **What a call publishes is what the action of its stage publishes.** -/
theorem Reconciler.published_reconcile (now : Timestamp) (hr : r.pacer.Silent)
    (hs : s.clusters c.resourceName = some c) (hstage : resumeStage c = .ok stage) :
    Store.published instant c.resourceName (r.reconcile now c.resourceName) s =
      Store.published instant c.resourceName (stage.action (r.seen now s c)) s := by
  have hread : Store.handle instant false (.call (.get .cluster c.resourceName)) s = (.ok c, s) :=
    (Store.handle_call ..).trans (Store.perform_getCluster hs)
  have hlookup : Store.published instant c.resourceName (callStore (.get .cluster c.resourceName))
      s = [] := Store.published_of_only (Only.callStore (Q := fun _ => True) rfl fun _ => trivial) s
  have hobserve : Store.published instant c.resourceName
      (Context.observe c r.pendingRequeue now).run s = [] :=
    Store.published_of_only (Only.observe (fun _ _ => rfl) c r.pendingRequeue now) s
  rw [reconcile_eq, Store.published_bind, published_conclude hr, List.append_nil, attempt,
    Store.published_bind, hlookup, callStore, Program.run_request, hread]
  simp only [hstage]
  rw [Store.published_bind, hobserve, Context.run_observe]
  exact published_runStage _ _ _ _ _

/-- A stage that is judged incomplete keeps the resume point. -/
theorem Stage.Judged.stays (h : stage.Judged instant s (r.seen now s c) outcome false left t)
    (hs : s.clusters c.resourceName = some c) (hstage : resumeStage c = .ok stage) :
    (r.reconcile now c.resourceName).run (Store.handle instant false) s =
        (.ticked (.incomplete outcome), t) ∧
      ∃ d, t.clusters c.resourceName = some d ∧ resumeStage d = .ok stage := by
  have hjudged := stage.run_isComplete instant left t
  rw [h.judges] at hjudged
  have hrun : (Reconciler.runStage c.resourceName stage (r.seen now s c)).run
      (Store.handle instant false) s = (.ended (.ticked (.incomplete outcome)), t) := by
    simp only [Reconciler.runStage, Program.run_bind, h.acts, hjudged]
    rfl
  refine ⟨?_, ?_⟩
  · rw [Reconciler.reconcile_eq, Program.run_bind, r.run_attempt now instant hs hstage, hrun]
    rfl
  · obtain ⟨d, hd, -, hrecord | ⟨hcomplete, -⟩⟩ := h.stored
    · exact ⟨d, hd, (resumeStage_congr hrecord).trans hstage⟩
    · cases hcomplete

/-- A stage that is judged complete moves the resume point to where the pass goes on. -/
theorem Stage.Judged.moves
    (h : stage.Judged instant s (r.seen now s c) outcome true left t) (hr : r.pacer.Silent)
    (hs : s.clusters c.resourceName = some c) (hstage : resumeStage c = .ok stage) :
    ∃ d, (r.reconcile now c.resourceName).run (Store.handle instant false) s =
        (.ticked (.advanced (nextName (stage.next? left)) outcome),
          t.put c.resourceName .cluster d) ∧
      resumeStage d = .ok (stage.following left) := by
  have hjudged := stage.run_isComplete instant left t
  rw [h.judges] at hjudged
  have hrun : (Reconciler.runStage c.resourceName stage (r.seen now s c)).run
      (Store.handle instant false) s =
        (.leaving c.resourceName stage (stage.next? left) outcome, t) := by
    simp only [Reconciler.runStage, Program.run_bind, h.acts, hjudged]
    rfl
  obtain ⟨d, hd, hname, hkept⟩ := h.stored
  obtain ⟨record, hrecord⟩ : ∃ record, progressRecord d = .ok record := by
    rcases hkept with hkept | ⟨-, hfresh⟩
    · cases hc : progressRecord c with
      | ok record => exact ⟨record, hkept.trans hc⟩
      | error error =>
        rw [resumeStage, hc] at hstage
        cases hstage
    · exact ⟨_, hfresh⟩
  refine ⟨withProgress d { record with nextState := nextName (stage.next? left) }, ?_,
    d.resumeStage_withProgress record _⟩
  have hsave : (saveNextState c.resourceName (nextName (stage.next? left))).run
      (Store.handle instant false) t = (.ok (), t.put c.resourceName .cluster
        (withProgress d { record with nextState := nextName (stage.next? left) })) :=
    Store.run_saveNextState instant hd hname hrecord _
  rw [Reconciler.reconcile_eq, Program.run_bind, r.run_attempt now instant hs hstage, hrun]
  simp only [Reconciler.conclude, Program.run_bind, Store.run_of_onlySleeps hr.before, hsave,
    Store.run_of_onlySleeps hr.after]
  rfl

/-- **The check decides where the pass goes on.** -/
theorem Stage.Judged.resumes {complete : Bool}
    (h : stage.Judged instant s (r.seen now s c) outcome complete left t) (hr : r.pacer.Silent)
    (hs : s.clusters c.resourceName = some c) (hstage : resumeStage c = .ok stage) :
    ∃ ending u d, (r.reconcile now c.resourceName).run (Store.handle instant false) s =
        (.ticked ending, u) ∧
      ending.result = .ok outcome ∧ u.workloads = t.workloads ∧
      u.clusters c.resourceName = some d ∧
      resumeStage d = .ok (if complete = true then stage.following left else stage) := by
  cases complete with
  | false =>
    obtain ⟨hrun, d, hd, hpoint⟩ := h.stays hs hstage
    exact ⟨_, t, d, hrun, rfl, rfl, hd, hpoint⟩
  | true =>
    obtain ⟨d, hrun, hpoint⟩ := h.moves hr hs hstage
    exact ⟨_, _, d, hrun, rfl, rfl, Collection.put_self _ _ _, hpoint⟩

end Calls

end Reconciliation
