/-
# Running a step again

A tick can be cut short at any point, and then the step is run again from the start.  A
`Stage.visit` reads the cluster, looks around and runs the action of one stage.  The first
visit creates, adopts or updates what the step is about, or finds that it has to wait or to
give up; what the next visit meets there is what the first has made of it.

An action does its work on the objects of the cluster and then ends in one of a few ways
(`StepEnd`).  If the work, done once more, changes nothing and leads to the same end, and if
what the end writes on the cluster does not matter for the work, then so it goes for ever
(`Stage.Steady.of_work`): every visit has the result of the first, and leaves the store that
the first has left, the time of the last status write apart (`Stage.safe_to_rerun`).
-/

import Reconciliation.Proofs.Cluster.Refusals
import Reconciliation.Proofs.Cluster.Undisturbed
import Reconciliation.Proofs.Engine.ProgressText

namespace Reconciliation

/-! ## Visits -/

namespace Stage

/-- Runs the action of a stage on the cluster as it is stored. -/
def visit (stage : Stage) (d : Duration) (name : ResourceName) (now : Timestamp) :
    Work (Except Failure Outcome) := do
  match ← callStore (.get .cluster name) with
  | .error error => pure (.error (.store error))
  | .ok c =>
    match ← (Context.observe c d now).run with
    | .error error => pure (.error (.store error))
    | .ok ctx => do
      let (result, _) ← stage.action ctx
      pure result

/-- Visits of a stage, one after the other, at these times. -/
def visits (stage : Stage) (d : Duration) (name : ResourceName) (times : List Timestamp) :
    Work (List (Except Failure Outcome)) :=
  times.mapM (stage.visit d name)

end Stage

/-! ## How a step ends -/

/-- Of two values that are written under one annotation the second stays. -/
theorem DbCluster.annotate_annotate (c : DbCluster) (key first second : String) :
    (c.annotate key first).annotate key second = c.annotate key second := by
  have htable : (c.metadata.annotations.insert key first).insert key second =
      c.metadata.annotations.insert key second := by
    refine Table.ext_get? fun other => ?_
    simp only [Table.get?_insert]
    split <;> rfl
  simp only [annotate, Metadata.annotate, htable]

/-- A way for a step to end: its result, and what it writes on the cluster.  Written at
another time, this differs in the stamp only. -/
structure StepEnd where
  result : Except Failure Outcome
  /-- The cluster with what is written on it at a time. -/
  mark : Timestamp → DbCluster → DbCluster
  resourceName_mark : ∀ now c, (mark now c).resourceName = c.resourceName
  mark_mark : ∀ now later c, mark later (mark now c) = mark later c
  stamped_mark : ∀ now later c, (mark later c).stamped none = (mark now c).stamped none

namespace StepEnd

/-- The end of a step that goes on. -/
def going : StepEnd where
  result := .ok .requeue
  mark _ c := c
  resourceName_mark _ _ := rfl
  mark_mark _ _ _ := rfl
  stamped_mark _ _ _ := rfl

/-- The end of a step that writes the status. -/
def publishing (o : StatusOptions) (result : Except Failure Outcome) : StepEnd where
  result
  mark now c := { c with status := o.apply now c.status }
  resourceName_mark _ _ := rfl
  mark_mark now later c := by
    obtain ⟨phase, message, members, replicas, uri, version, outcome⟩ := o
    cases phase <;> cases message <;> cases members <;> cases replicas <;> cases uri <;>
      cases version <;> rfl
  stamped_mark _ _ _ := rfl

/-- The end of a step that waits. -/
def waiting (d : Duration) (reason : String) : StepEnd :=
  publishing ((StatusOptions.unchanged.withMessage .info
    (reason ++ ", retrying in " ++ toString d.seconds ++ " seconds")).withPending d.seconds)
      (.ok (.retry d.seconds))

/-- The end of a step that fails. -/
def failing (message : String) : StepEnd :=
  publishing ((StatusOptions.unchanged.withMessage .error message).withFailed)
    (.error (.other message))

/-- The end of a pass. -/
def finishing : StepEnd where
  result := .ok .done
  mark _ c := withFreshProgress c
  resourceName_mark _ _ := rfl
  mark_mark _ _ c := c.annotate_annotate _ _ _
  stamped_mark _ _ _ := rfl

/-- With nobody else around the ending goes so, if the cluster is stored as it was observed. -/
def Ends (e : StepEnd) (ctx : Context) (ending : Work (Except Failure Outcome × Context)) : Prop :=
  ∀ (instant : Bool) (s : Store), s.clusters ctx.cluster.resourceName = some ctx.cluster →
    ∃ left, ending.run (Store.handle instant false) s =
      ((e.result, left), s.put ctx.cluster.resourceName .cluster (e.mark ctx.now ctx.cluster))

theorem ends_going (ctx left : Context) : going.Ends ctx (.done (.ok .requeue, left)) := by
  intro instant s hs
  refine ⟨left, ?_⟩
  have hput : s.put ctx.cluster.resourceName .cluster ctx.cluster = s := Store.put_of_get? hs
  rw [Program.run_done]
  exact congrArg _ hput.symm

theorem ends_waitStep (ctx : Context) (reason : String) :
    (waiting ctx.pendingRequeue reason).Ends ctx (waitStep ctx reason) :=
  fun instant _ hs => ⟨_, Store.run_publishStatus instant hs _⟩

theorem ends_failStep (ctx : Context) (message : String) :
    (failing message).Ends ctx (failStep ctx message) :=
  fun instant _ hs => Store.run_failStep instant hs message

theorem ends_reconciliationEnd (ctx : Context) :
    finishing.Ends ctx (reconciliationEnd ctx) := by
  intro instant s hs
  have hcall : Store.handle instant false (.call (.update .cluster
      (withFreshProgress ctx.cluster))) s =
      (.ok (), s.put ctx.cluster.resourceName .cluster (withFreshProgress ctx.cluster)) :=
    (Store.handle_call ..).trans (Store.perform_updateCluster hs rfl)
  refine ⟨{ ctx with cluster := { ctx.cluster with
    metadata := (withFreshProgress ctx.cluster).metadata } }, ?_⟩
  simp only [reconciliationEnd, callStore, Program.run_bind, Program.run_request, hcall]
  rfl

end StepEnd

/-! ## Steps that are steady -/

namespace Stage

/-- Run at any time on what is observed of the cluster `c` in the store `s`, the action ends
as `e` says, and leaves the store `t` but for what it has written on the cluster. -/
def LeadsTo (stage : Stage) (instant : Bool) (d : Duration) (s : Store) (c : DbCluster)
    (e : StepEnd) (t : Store) : Prop :=
  ∀ seen now, ∃ left, (stage.action ⟨c, c.status, seen, d, now⟩).run (Store.handle instant false) s =
    ((e.result, left), t.put c.resourceName .cluster (e.mark now c))

/-- The action ends in one way, in the store `s` as well as in every store that it leaves. -/
structure Steady (stage : Stage) (instant : Bool) (d : Duration) (s : Store) (c : DbCluster)
    (e : StepEnd) (t : Store) : Prop where
  first : stage.LeadsTo instant d s c e t
  again : ∀ earlier, stage.LeadsTo instant d (t.put c.resourceName .cluster (e.mark earlier c))
    (e.mark earlier c) e t

variable {stage : Stage} {instant : Bool} {d : Duration} {s t : Store} {c : DbCluster}
  {e : StepEnd} {name : ResourceName}

/-- **A step whose work can be repeated is steady**: the work is done away from the clusters,
gives `a` and then `b`, and changes nothing the second time; both results lead to one end,
and what that writes on the cluster does not matter for the work. -/
theorem Steady.of_work {α : Type} (work : DbCluster → Work α)
    (next : Context → α → Work (Except Failure Outcome × Context)) {a b : α}
    (haction : ∀ ctx, stage.action ctx = work ctx.cluster >>= next ctx)
    (haloof : Aloof (work c)) (hs : s.clusters c.resourceName = some c)
    (hfirst : (work c).run (Store.handle instant false) s = (a, t))
    (hagain : (work c).run (Store.handle instant false) t = (b, t))
    (hends : ∃ e : StepEnd, (∀ x, x = a ∨ x = b → ∀ c', work c' = work c → ∀ seen now,
        e.Ends ⟨c', c'.status, seen, d, now⟩ (next ⟨c', c'.status, seen, d, now⟩ x)) ∧
      ∀ earlier, work (e.mark earlier c) = work c) :
    ∃ e t, stage.Steady instant d s c e t := by
  obtain ⟨e, hends, hmark⟩ := hends
  refine ⟨e, t, fun seen now => ?_, fun earlier seen now => ?_⟩
  · have ht : t.clusters c.resourceName = some c := by
      have hclusters := Store.clusters_run haloof instant s
      rw [hfirst] at hclusters
      rw [hclusters, hs]
    obtain ⟨left, hend⟩ := hends a (.inl rfl) c rfl seen now instant t ht
    refine ⟨left, ?_⟩
    rw [haction, Program.run_bind, hfirst]
    exact hend
  · have hrun : (work (e.mark earlier c)).run (Store.handle instant false)
        (t.put c.resourceName .cluster (e.mark earlier c)) =
          (b, t.put c.resourceName .cluster (e.mark earlier c)) := by
      rw [hmark, Store.run_put_cluster haloof, hagain]
    have hput : (t.put c.resourceName .cluster (e.mark earlier c)).clusters
        (e.mark earlier c).resourceName = some (e.mark earlier c) := by
      rw [e.resourceName_mark]
      exact Collection.put_self _ _ _
    obtain ⟨left, hend⟩ := hends b (.inr rfl) _ (hmark earlier) seen now instant _ hput
    refine ⟨left, ?_⟩
    rw [haction, Program.run_bind, hrun]
    refine hend.trans ?_
    rw [e.resourceName_mark, Store.put_put]

/-- A visit runs the action on what is stored. -/
theorem LeadsTo.run_visit (h : stage.LeadsTo instant d s c e t) (hs : s.clusters name = some c)
    (hname : c.resourceName = name) (now : Timestamp) :
    (stage.visit d name now).run (Store.handle instant false) s =
      (e.result, t.put name .cluster (e.mark now c)) := by
  subst hname
  have hread : Store.handle instant false (.call (.get .cluster c.resourceName)) s = (.ok c, s) :=
    (Store.handle_call ..).trans (Store.perform_getCluster hs)
  obtain ⟨left, haction⟩ := h (s.workloads c.resourceName) now
  simp only [visit, callStore, Program.run_bind, Program.run_request, hread,
    Context.run_observe, haction, Program.pure_eq, Program.run_done]

/-- **Visits of a steady stage all have the same result**, and change the stamp only. -/
theorem Steady.run_visits (h : stage.Steady instant d s c e t) (hname : c.resourceName = name)
    (earlier : Timestamp) (times : List Timestamp) :
    ∃ last, (stage.visits d name times).run (Store.handle instant false)
        (t.put name .cluster (e.mark earlier c)) =
      (List.replicate times.length e.result, t.put name .cluster (e.mark last c)) := by
  subst hname
  induction times generalizing earlier with
  | nil => exact ⟨earlier, rfl⟩
  | cons now times ih =>
    obtain ⟨last, hlater⟩ := ih now
    have hvisit : (stage.visit d c.resourceName now).run (Store.handle instant false)
        (t.put c.resourceName .cluster (e.mark earlier c)) =
          (e.result, t.put c.resourceName .cluster (e.mark now c)) := by
      have hrun := (h.again earlier).run_visit (Collection.put_self _ _ _)
        (e.resourceName_mark earlier c) now
      rwa [e.mark_mark] at hrun
    refine ⟨last, ?_⟩
    rw [visits] at hlater
    rw [visits, Program.run_mapM_cons, hvisit, hlater]
    rfl

end Stage

/-! ## Work that can be repeated -/

namespace Store

variable (instant : Bool) (s : Store) (c : DbCluster)

variable {c}

/-- Once a config with the content that is wanted is stored, it is left alone. -/
theorem run_ensureAutomationConfig_of_stored {s : Store} {config : AutomationConfig}
    (hconfig : s.get? .automationConfig c.resourceName = some config)
    (hsame : config.sameContent (wantedAutomationConfig c) = true) :
    (ensureAutomationConfig c).run.run (handle instant false) s = (.ok config, s) := by
  have hfind := s.run_findResource instant .automationConfig c.resourceName
  rw [hconfig] at hfind
  rw [ensureAutomationConfig, run_bind_ok hfind]
  simp only [hsame, if_true]
  rfl

variable (c)

/-- A config that was published is stored, with the content that is wanted. -/
theorem exists_run_ensureAutomationConfig : ∃ config t,
    (ensureAutomationConfig c).run.run (handle instant false) s = (.ok config, t) ∧
      t.get? .automationConfig c.resourceName = some config ∧
      config.sameContent (wantedAutomationConfig c) = true := by
  have hfind := s.run_findResource instant .automationConfig c.resourceName
  cases hexisting : s.get? .automationConfig c.resourceName with
  | none =>
    obtain ⟨htaken, -⟩ | ⟨-, t, hcreate, hstored⟩ :=
      s.perform_create (nofun : Kind.automationConfig ≠ .workload)
        (wantedAutomationConfig c)
    · exact absurd hexisting htaken
    · refine ⟨_, t, ?_, hstored, (wantedAutomationConfig c).sameContent_self⟩
      rw [hexisting] at hfind
      rw [ensureAutomationConfig, run_bind_ok hfind]
      exact run_bind_ok ((run_createResource ..).trans hcreate) _
  | some existing =>
    by_cases hsame : existing.sameContent (wantedAutomationConfig c) = true
    · exact ⟨existing, s, run_ensureAutomationConfig_of_stored instant hexisting hsame, hexisting,
        hsame⟩
    · obtain ⟨hfree, -⟩ | ⟨-, t, hupdate, hstored⟩ :=
        s.perform_update (nofun : Kind.automationConfig ≠ .workload) nofun
          { wantedAutomationConfig c with version := existing.version + 1 }
      · cases hfree.symm.trans hexisting
      · refine ⟨_, t, ?_, hstored, (wantedAutomationConfig c).sameContent_self⟩
        rw [hexisting] at hfind
        rw [ensureAutomationConfig, run_bind_ok hfind]
        simp only [hsame]
        exact run_bind_ok ((run_updateResource ..).trans hupdate) _

/-- The config is looked at together with the workload that is stored when it is published. -/
theorem exists_run_publishAutomationConfig : ∃ config t,
    (publishAutomationConfig c).run.run (handle instant false) s =
      (.ok (config, t.workloads c.resourceName), t) ∧
      t.get? .automationConfig c.resourceName = some config ∧
      config.sameContent (wantedAutomationConfig c) = true := by
  obtain ⟨config, t, hensure, hstored⟩ := s.exists_run_ensureAutomationConfig instant c
  refine ⟨config, t, ?_, hstored⟩
  rw [publishAutomationConfig, run_bind_ok hensure]
  exact run_bind_ok (t.run_findResource instant .workload c.resourceName) _

theorem repeats_publishAutomationConfig : ∃ x t,
    (publishAutomationConfig c).run.run (handle instant false) s = (.ok x, t) ∧
      (publishAutomationConfig c).run.run (handle instant false) t = (.ok x, t) := by
  obtain ⟨config, t, hfirst, hstored, hsame⟩ := s.exists_run_publishAutomationConfig instant c
  refine ⟨_, t, hfirst, ?_⟩
  rw [publishAutomationConfig,
    run_bind_ok (run_ensureAutomationConfig_of_stored instant hstored hsame)]
  exact run_bind_ok (t.run_findResource instant .workload c.resourceName) _

/-- The workload that was written is found, with what it is asked for. -/
theorem exists_run_ensureWorkload : ∃ w,
    (s.overwrite instant .workload (wantedWorkload c)).workloads c.resourceName = some w ∧
      Kind.workload.bare w = wantedWorkload c ∧
      (ensureWorkload c).run.run (handle instant false) s =
        (.ok w, s.overwrite instant .workload (wantedWorkload c)) := by
  obtain ⟨w, hw, hbare⟩ :=
    Option.map_eq_some_iff.1 (s.map_bare_overwrite instant .workload (wantedWorkload c))
  have hstored : (s.overwrite instant .workload (wantedWorkload c)).get? .workload
      c.resourceName = some w := hw
  have hget := (s.overwrite instant .workload (wantedWorkload c)).run_getResource instant
    .workload c.resourceName
  rw [hstored] at hget
  exact ⟨w, hw, hbare, (run_bind_ok (s.run_createOrUpdate instant .workload _) _).trans hget⟩

theorem repeats_ensureWorkload : ∃ x t,
    (ensureWorkload c).run.run (handle instant false) s = (x, t) ∧
      (ensureWorkload c).run.run (handle instant false) t = (x, t) := by
  obtain ⟨w, hw, -, hfirst⟩ := s.exists_run_ensureWorkload instant c
  obtain ⟨w', hw', -, hagain⟩ :=
    (s.overwrite instant .workload (wantedWorkload c)).exists_run_ensureWorkload instant c
  rw [overwrite_overwrite] at hw' hagain
  obtain rfl := Option.some.inj (hw.symm.trans hw')
  exact ⟨_, _, hfirst, hagain⟩

variable {c}

/-- A workload that has its rolling updates is left alone. -/
theorem run_resetStrategy_of_rolling {s : Store} {w : Workload}
    (hw : s.get? .workload c.resourceName = some w)
    (hstrategy : w.updateStrategy = .rollingUpdate) :
    (resetStrategy c).run.run (handle instant false) s = (.ok w, s) := by
  have hget := s.run_getResource instant .workload c.resourceName
  rw [hw] at hget
  rw [resetStrategy, run_bind_ok hget]
  simp only [hstrategy, if_true]
  rfl

variable (c)

/-- A workload that is given its rolling updates back has them. -/
theorem exists_run_resetStrategy (hs : s.WellNamed) :
    (∃ error, (resetStrategy c).run.run (handle instant false) s = (.error error, s)) ∨
    ∃ w w' t, (resetStrategy c).run.run (handle instant false) s = (.ok w, t) ∧
      t.get? .workload c.resourceName = some w' ∧ w'.updateStrategy = .rollingUpdate := by
  have hget := s.run_getResource instant .workload c.resourceName
  cases hw : s.get? .workload c.resourceName with
  | none =>
    rw [hw] at hget
    exact .inl ⟨_, run_bind_error hget _⟩
  | some w =>
    by_cases hstrategy : w.updateStrategy = .rollingUpdate
    · exact .inr ⟨w, w, s, run_resetStrategy_of_rolling instant hw hstrategy, hw, hstrategy⟩
    · have hname : w.name = c.resourceName := hs .workload _ w hw
      have hstored : s.get? .workload w.name ≠ none := by
        rw [hname, hw]
        nofun
      have hupdate : s.perform instant (.update .workload
          { w with updateStrategy := .rollingUpdate }) =
            (.ok (), s.overwrite instant .workload { w with updateStrategy := .rollingUpdate }) :=
        perform_update_eq_overwrite instant hstored
      obtain ⟨w', hw', hbare⟩ := Option.map_eq_some_iff.1
        (s.map_bare_overwrite instant .workload { w with updateStrategy := .rollingUpdate })
      refine .inr ⟨{ w with updateStrategy := .rollingUpdate }, w', _, ?_, hname ▸ hw',
        congrArg Workload.updateStrategy hbare⟩
      rw [hw] at hget
      rw [resetStrategy, run_bind_ok hget]
      rw [if_neg hstrategy, hname]
      rw [hname] at hupdate
      exact run_bind_ok ((run_updateResource ..).trans hupdate) _

theorem repeats_resetStrategy (hs : s.WellNamed) :
    (∃ error, (resetStrategy c).run.run (handle instant false) s = (.error error, s)) ∨
    ∃ w w' t, (resetStrategy c).run.run (handle instant false) s = (.ok w, t) ∧
      (resetStrategy c).run.run (handle instant false) t = (.ok w', t) := by
  obtain hfails | ⟨w, w', t, hfirst, hw', hstrategy⟩ := s.exists_run_resetStrategy instant c hs
  · exact .inl hfails
  · exact .inr ⟨w, w', t, hfirst, run_resetStrategy_of_rolling instant hw' hstrategy⟩

end Store

/-! ## The stages -/

namespace Stage

variable {instant : Bool} {d : Duration} {s : Store} {c : DbCluster} {name : ResourceName}

/-- A step whose work is repeated to the letter. -/
theorem Steady.of_repeat {stage : Stage} {α : Type} (work : DbCluster → Work α)
    (next : Context → α → Work (Except Failure Outcome × Context)) {a : α} {t : Store}
    (haction : ∀ ctx, stage.action ctx = work ctx.cluster >>= next ctx)
    (haloof : Aloof (work c)) (hs : s.clusters c.resourceName = some c)
    (hfirst : (work c).run (Store.handle instant false) s = (a, t))
    (hagain : (work c).run (Store.handle instant false) t = (a, t))
    (hends : ∃ e : StepEnd, (∀ c', work c' = work c → ∀ seen now,
        e.Ends ⟨c', c'.status, seen, d, now⟩ (next ⟨c', c'.status, seen, d, now⟩ a)) ∧
      ∀ earlier, work (e.mark earlier c) = work c) :
    ∃ e t, stage.Steady instant d s c e t := by
  obtain ⟨e, hends, hmark⟩ := hends
  refine of_work work next haction haloof hs hfirst hagain ⟨e, fun x hx => ?_, hmark⟩
  obtain rfl : x = a := hx.elim id id
  exact hends

theorem exists_steady_startFresh (hs : s.clusters c.resourceName = some c) :
    ∃ e t, startFresh.Steady instant d s c e t :=
  Steady.of_repeat (fun _ => .done ()) (fun ctx _ => Reconciliation.startFresh ctx)
    (fun _ => rfl) (.done _) hs rfl rfl
    ⟨_, fun _ _ _ _ => StepEnd.ends_going _ _, fun _ => rfl⟩

/-- Whether the spec is valid does not depend on the status. -/
theorem exists_steady_validateSpec (hs : s.clusters c.resourceName = some c) :
    ∃ e t, validateSpec.Steady instant d s c e t := by
  refine Steady.of_repeat (fun c => .done (Reconciliation.validateSpec c))
    (fun ctx _ => validateSpecStep ctx) (fun _ => rfl) (.done _) hs rfl rfl ?_
  cases hvalid : Reconciliation.validateSpec c with
  | error problem =>
    refine ⟨.failing ("error validating new spec: " ++ problem.message), fun c' hc' seen now => ?_,
      fun _ => congrArg Program.done hvalid⟩
    simp only [validateSpecStep, Program.done.inj hc']
    exact StepEnd.ends_failStep _ _
  | ok =>
    refine ⟨.going, fun c' hc' seen now => ?_, fun _ => congrArg Program.done hvalid⟩
    simp only [validateSpecStep, Program.done.inj hc']
    exact StepEnd.ends_going _ _

theorem exists_steady_createService (hs : s.clusters c.resourceName = some c) :
    ∃ e t, createService.Steady instant d s c e t := by
  obtain ⟨-, hcreate⟩ | ⟨-, t, hcreate, hstored⟩ := s.perform_create
    (nofun : Kind.service ≠ .workload) (wantedService c)
  · refine Steady.of_repeat (fun c => (createResource .service (wantedService c)).run) _
      (fun _ => rfl) (.callStore (r := .create .service (wantedService c)) nofun) hs hcreate
        hcreate ?_
    exact ⟨_, fun _ _ _ _ => StepEnd.ends_going _ _, fun _ => rfl⟩
  · have htaken : t.perform instant (.create .service (wantedService c)) =
        (.error (.alreadyExists .service (Kind.service.nameOf (wantedService c))), t) := by
      simp only [Store.perform, hstored]
    refine Steady.of_work (fun c => (createResource .service (wantedService c)).run) _
      (fun _ => rfl) (.callStore (r := .create .service (wantedService c)) nofun) hs hcreate
        htaken ⟨.going, ?_, fun _ => rfl⟩
    rintro x (rfl | rfl) c' - seen now <;> exact StepEnd.ends_going _ _

theorem exists_steady_tlsValidation (hs : s.clusters c.resourceName = some c) :
    ∃ e t, tlsValidation.Steady instant d s c e t := by
  have hrun := s.run_of_lookups instant
    (Only.tlsObjectsValid (Q := fun _ => True) (fun _ _ => rfl) (fun _ => trivial) c) instant
  refine Steady.of_repeat (fun c => (tlsObjectsValid c).run) _ (fun _ => rfl)
    (.tlsObjectsValid c) hs hrun hrun ?_
  rcases ((tlsObjectsValid c).run.run (Store.handle instant false) s).1 with error | (_ | _)
  · exact ⟨_, fun _ _ _ _ => StepEnd.ends_failStep _ _, fun _ => rfl⟩
  · exact ⟨.waiting d _, fun c' _ seen now =>
      StepEnd.ends_waitStep ⟨c', c'.status, seen, d, now⟩ _, fun _ => rfl⟩
  · exact ⟨_, fun _ _ _ _ => StepEnd.ends_going _ _, fun _ => rfl⟩

theorem exists_steady_deployAutomationConfig (hs : s.clusters c.resourceName = some c) :
    ∃ e t, deployAutomationConfig.Steady instant d s c e t := by
  obtain ⟨⟨config, seen⟩, t, hfirst, hagain⟩ := s.repeats_publishAutomationConfig instant c
  refine Steady.of_repeat (fun c => (publishAutomationConfig c).run) _ (fun _ => rfl)
    (.publishAutomationConfig c) hs hfirst hagain ?_
  by_cases hfollow : agentsFollow config seen = true
  · simp only [hfollow, if_true]
    exact ⟨_, fun _ _ _ _ => StepEnd.ends_going _ _, fun _ => rfl⟩
  · simp only [hfollow]
    exact ⟨.waiting d _, fun c' _ _ now => StepEnd.ends_waitStep ⟨c', c'.status, seen, d, now⟩ _,
      fun _ => rfl⟩

theorem exists_steady_deployWorkload (hs : s.clusters c.resourceName = some c) :
    ∃ e t, deployWorkload.Steady instant d s c e t := by
  obtain ⟨x, t, hfirst, hagain⟩ := s.repeats_ensureWorkload instant c
  refine Steady.of_repeat (fun c => (ensureWorkload c).run) _ (fun _ => rfl)
    (.ensureWorkload c) hs hfirst hagain ?_
  cases x with
  | error error => exact ⟨_, fun _ _ _ _ => StepEnd.ends_failStep _ _, fun _ => rfl⟩
  | ok w =>
    by_cases hready : w.isReady = true
    · simp only [hready, if_true]
      exact ⟨_, fun _ _ _ _ => StepEnd.ends_going _ _, fun _ => rfl⟩
    · simp only [hready]
      exact ⟨.waiting d _, fun c' _ _ now =>
        StepEnd.ends_waitStep ⟨c', c'.status, some w, d, now⟩ _, fun _ => rfl⟩

theorem exists_steady_resetUpdateStrategy (hs : s.clusters c.resourceName = some c)
    (hwellNamed : s.WellNamed) : ∃ e t, resetUpdateStrategy.Steady instant d s c e t := by
  obtain ⟨error, hrun⟩ | ⟨w, w', t, hfirst, hagain⟩ := s.repeats_resetStrategy instant c hwellNamed
  · refine Steady.of_repeat (fun c => (resetStrategy c).run) _ (fun _ => rfl)
      (.resetStrategy c) hs hrun hrun ?_
    exact ⟨_, fun _ _ _ _ => StepEnd.ends_failStep _ _, fun _ => rfl⟩
  · refine Steady.of_work (fun c => (resetStrategy c).run) _ (fun _ => rfl)
      (.resetStrategy c) hs hfirst hagain ⟨.going, ?_, fun _ => rfl⟩
    rintro x (rfl | rfl) c' - seen now <;> exact StepEnd.ends_going _ _

theorem exists_steady_reconciliationEnd (hs : s.clusters c.resourceName = some c) :
    ∃ e t, reconciliationEnd.Steady instant d s c e t :=
  Steady.of_repeat (fun _ => .done ())
    (fun ctx _ => Reconciliation.reconciliationEnd ctx)
    (fun _ => rfl) (.done _) hs rfl rfl
    ⟨_, fun _ _ _ _ => StepEnd.ends_reconciliationEnd _, fun _ => rfl⟩

/-- **Every stage but two is steady.** -/
theorem exists_steady {stage : Stage} (instant : Bool) (d : Duration) (hs : s.WellNamed)
    (hstored : s.clusters c.resourceName = some c) (htls : stage ≠ .createTlsResources)
    (hstatus : stage ≠ .updateStatus) : ∃ e t, stage.Steady instant d s c e t := by
  cases stage with
  | startFresh => exact exists_steady_startFresh hstored
  | validateSpec => exact exists_steady_validateSpec hstored
  | createService => exact exists_steady_createService hstored
  | tlsValidation => exact exists_steady_tlsValidation hstored
  | createTlsResources => exact absurd rfl htls
  | deployAutomationConfig => exact exists_steady_deployAutomationConfig hstored
  | deployWorkload => exact exists_steady_deployWorkload hstored
  | resetUpdateStrategy => exact exists_steady_resetUpdateStrategy hstored hs
  | updateStatus => exact absurd rfl hstatus
  | reconciliationEnd => exact exists_steady_reconciliationEnd hstored

end Stage

/-- Without the cluster a visit finds that out, and does nothing. -/
theorem Stage.run_visit_of_none (stage : Stage) (instant : Bool) (d : Duration) (now : Timestamp)
    {s : Store} {name : ResourceName} (hs : s.clusters name = none) :
    (stage.visit d name now).run (Store.handle instant false) s =
      (.error (.store (.notFound .cluster name)), s) := by
  have hget : s.get? .cluster name = none := hs
  simp only [visit, callStore, Program.run_bind, Program.run_request, Store.handle_get, hget,
    Scene.Leads.reply, Program.pure_eq, Program.run_done]

theorem Stage.run_visits_of_none (stage : Stage) (instant : Bool) (d : Duration)
    (times : List Timestamp) {s : Store} {name : ResourceName} (hs : s.clusters name = none) :
    (stage.visits d name times).run (Store.handle instant false) s =
      (List.replicate times.length (.error (.store (.notFound .cluster name))), s) := by
  induction times with
  | nil => rfl
  | cons now times ih =>
    rw [visits] at ih
    rw [visits, Program.run_mapM_cons, stage.run_visit_of_none instant d now hs, ih]
    rfl

/-- **Running a step again is safe**: in every store that operations have led to, further
visits of a stage give what the first gave, and leave the store that the first left, the time
of the last status write apart. -/
theorem Stage.safe_to_rerun {stage : Stage} (htls : stage ≠ .createTlsResources)
    (hstatus : stage ≠ .updateStatus) (instant : Bool) (operations : List Operation)
    (d : Duration) (name : ResourceName) (first : Timestamp) (later : List Timestamp) :
    ∃ result t u,
      (stage.visit d name first).run (Store.handle instant false)
        (Store.after instant operations) = (result, t) ∧
      (stage.visits d name later).run (Store.handle instant false) t =
        (List.replicate later.length result, u) ∧
      u.unstamped = t.unstamped := by
  have hs := Store.wellNamed_after instant operations
  generalize Store.after instant operations = s at hs
  cases hstored : s.clusters name with
  | none =>
    exact ⟨_, s, s, stage.run_visit_of_none instant d first hstored,
      stage.run_visits_of_none instant d later hstored, rfl⟩
  | some c =>
    obtain rfl : c.resourceName = name := hs .cluster name c hstored
    obtain ⟨e, t, hsteady⟩ := exists_steady instant d hs hstored htls hstatus
    obtain ⟨last, hlater⟩ := hsteady.run_visits rfl first later
    refine ⟨e.result, _, _, hsteady.first.run_visit hstored rfl first, hlater, ?_⟩
    rw [Store.unstamped_put, Store.unstamped_put]
    exact congrArg _ (e.stamped_mark first last c)

/-- The workload of a new cluster is created once, and then waited for. -/
theorem Stage.safe_to_rerun_of_new_workload : ∃ t u,
    (deployWorkload.visit (.ofSeconds 10) ⟨"db", "example"⟩ .earliest).run
        (Store.handle false false) (Store.after false [.putCluster (.scaling 3 3)]) =
      (.ok (.retry 10), t) ∧
    (deployWorkload.visits (.ofSeconds 10) ⟨"db", "example"⟩ [.earliest, .earliest]).run
        (Store.handle false false) t = ([.ok (.retry 10), .ok (.retry 10)], u) ∧
    u.unstamped = t.unstamped := by
  obtain ⟨result, t, u, hfirst, hlater, hsame⟩ :=
    safe_to_rerun (nofun : deployWorkload ≠ .createTlsResources) nofun false
      [.putCluster (.scaling 3 3)] (.ofSeconds 10) ⟨"db", "example"⟩ .earliest
      [.earliest, .earliest]
  obtain rfl : result = .ok (.retry 10) := (congrArg Prod.fst hfirst).symm.trans rfl
  exact ⟨t, u, hfirst, hlater, hsame⟩

end Reconciliation
