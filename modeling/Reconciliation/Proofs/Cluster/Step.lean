/-
# What a call of the reconciler does to a scene

`Scene.Step` is a whole call as it looks from the scene: from the stage and scene
before it to the stage and scene after it.  In calm surroundings a call is one such
step (`Reconciler.Calls.step`), and so is a call whose write of the resume point may
be lost (`Reconciler.LossyCalls.step`); in that case the stage is complete, but the
next call runs it again.
-/

import Reconciliation.Proofs.Cluster.Turn

namespace Reconciliation

/-! ## The stage of a scene -/

/-- A cluster resumes where its record says. -/
@[simp] theorem resumeStage_withProgress (c : DbCluster) (record : Progress) (next : Option Stage) :
    resumeStage (withProgress c { record with nextState := nextName next }) =
      .ok (next.getD initialStage) := by
  unfold resumeStage
  rw [progressRecord_withProgress]
  cases next with
  | none => rfl
  | some stage =>
    have hname : Progress.resumePoint? { record with nextState := stage.name } = some stage.name :=
      if_neg stage.name_ne_empty
    simp [bind, Except.bind, nextName, hname]

/-- Without an annotation for the record two clusters resume alike. -/
theorem progressRecord_congr {c c' : DbCluster} (h : progressText? c' = progressText? c) :
    progressRecord c' = progressRecord c := by
  unfold progressRecord
  rw [h]

theorem resumeStage_congr {c c' : DbCluster} (h : progressRecord c' = progressRecord c) :
    resumeStage c' = resumeStage c := by
  unfold resumeStage
  rw [h]

/-- A stage that resumes has a record that can be read. -/
theorem exists_progressRecord {c : DbCluster} {stage : Stage} (h : resumeStage c = .ok stage) :
    ∃ record, progressRecord c = .ok record := by
  cases hrecord : progressRecord c with
  | ok record => exact ⟨record, rfl⟩
  | error error =>
    unfold resumeStage at h
    rw [hrecord] at h
    cases h

namespace Scene

/-- At rest the annotations of the cluster stay. -/
theorem Rests.metadata_eq {now : Timestamp} {a b : Scene} (h : a.Rests now b) :
    b.cluster.metadata = a.cluster.metadata := by
  rcases h with h | ⟨o, -, h⟩
  · rw [h.cluster_eq]
  · rw [h.cluster_eq]
    rfl

/-- Only the end of a pass changes the record. -/
theorem Acts.progressRecord_eq {ctx : Context} {a b : Scene} {stage : Stage} {complete : Bool}
    (h : a.Acts ctx stage complete b) : progressRecord b.cluster =
      if stage = .reconciliationEnd then .ok .fresh else progressRecord a.cluster := by
  have hmetadata : b.cluster.metadata = a.cluster.metadata →
      progressRecord b.cluster = progressRecord a.cluster := by
    intro hm
    exact progressRecord_congr (by rw [progressText?, progressText?, hm])
  cases h with
  | prepared hprepares rest =>
    rw [if_neg (by rintro rfl; cases hprepares)]
    exact hmetadata rest.metadata_eq
  | published before publish rest =>
    have hcluster := publish.cluster_eq.trans before.cluster_eq
    exact hmetadata (rest.metadata_eq.trans (congrArg DbCluster.metadata hcluster))
  | deployed before deploy rest =>
    have hcluster := deploy.cluster_eq.trans before.cluster_eq
    exact hmetadata (rest.metadata_eq.trans (congrArg DbCluster.metadata hcluster))
  | reset before reset =>
    have hcluster := reset.cluster_eq.trans before.cluster_eq
    exact hmetadata (congrArg DbCluster.metadata hcluster)
  | missing rest => exact hmetadata rest.metadata_eq
  | counted _ write => exact hmetadata (by rw [write.cluster_eq]; rfl)
  | running _ write =>
    refine progressRecord_congr ?_
    rw [write.cluster_eq]
    have hspec : appliedSpecAnnotation ≠ progressAnnotation := by decide
    have hversion : appliedVersionAnnotation ≠ progressAnnotation := by decide
    simp [progressText?, withAppliedSpec, withCluster, DbCluster.annotate, DbCluster.written, hspec,
      hversion]
  | ended write =>
    rw [if_pos rfl, write.cluster_eq]
    exact progressRecord_withProgress a.cluster .fresh

end Scene

/-! ## Steps -/

/-- The stage at which a cluster resumes when a stage was run but not left: the end
of a pass has emptied the record. -/
def Stage.again : Stage → Stage
  | .reconciliationEnd => initialStage
  | stage => stage

/-- The scene with its record resuming at another stage. -/
def Scene.saved (a : Scene) (record : Progress) (next : String) : Scene :=
  a.withCluster (withProgress a.cluster { record with nextState := next })

/-- A whole call of the reconciler as it looks from the scene; `lossy` says whether
the write of the resume point may be lost. -/
inductive Scene.Step (lossy : Bool) (a : Scene) (stage : Stage) :
    Conclusion → Stage → Scene → Prop
  /-- The stage is not complete and is run again by the next call. -/
  | stays {ctx : Context} {b : Scene} {conclusion : Conclusion} (knows : ctx.Knows a a)
      (acts : a.Acts ctx stage false b) (unfinished : conclusion.result ≠ .ok .done) :
      Step lossy a stage conclusion stage b
  /-- The stage is complete, and the next call runs the one that follows. -/
  | advances {ctx : Context} {b : Scene} {outcome : Outcome} {record : Progress}
      (knows : ctx.Knows a a) (acts : a.Acts ctx stage true b)
      (finished : outcome = .done ↔ stage = .reconciliationEnd) :
      Step lossy a stage (.ticked (.advanced (nextName (stage.nextFrom? a b)) outcome))
        ((stage.nextFrom? a b).getD initialStage)
        (b.saved record (nextName (stage.nextFrom? a b)))
  /-- The stage is complete, but the write of the resume point is lost. -/
  | unsaved {ctx : Context} {b : Scene} {cause : Failure} (lost : lossy = true)
      (knows : ctx.Knows a a) (acts : a.Acts ctx stage true b) :
      Step lossy a stage (.ticked (.saveFailed stage.name (nextName (stage.nextFrom? a b)) cause))
        stage.again b

/-- A scene resumes at the stage that a step leads to. -/
theorem Scene.Step.resumeStage_eq {lossy : Bool} {a b : Scene} {stage after : Stage}
    {conclusion : Conclusion} (h : a.Step lossy stage conclusion after b)
    (hstage : resumeStage a.cluster = .ok stage) : resumeStage b.cluster = .ok after := by
  cases h with
  | stays _ acts =>
    rw [← hstage]
    refine resumeStage_congr (acts.progressRecord_eq.trans (if_neg ?_))
    rintro rfl
    cases acts with
    | prepared hprepares => cases hprepares
  | advances => exact resumeStage_withProgress _ _ _
  | unsaved _ _ acts =>
    by_cases hend : stage = .reconciliationEnd
    · subst hend
      unfold resumeStage
      rw [acts.progressRecord_eq]
      rfl
    · have hagain : stage.again = stage := by
        cases stage <;> first | rfl | exact absurd rfl hend
      rw [hagain, ← hstage]
      exact resumeStage_congr (acts.progressRecord_eq.trans (if_neg hend))

/-! ## The first part of a call -/

/-- Reports before a turn are part of it. -/
theorem Scene.Settles.turn {name : ResourceName} {ctx : Context} {a b c : Scene} {stage : Stage}
    {x : Attempt} (hab : a.Settles b) (h : Turn name ctx b stage x c) :
    Turn name ctx a stage x c := by
  cases h with
  | stays acts unfinished => exact .stays (hab.acts acts) unfinished
  | leaves acts finished =>
    have hnext : stage.nextFrom? b c = stage.nextFrom? a c := by
      rw [Stage.nextFrom?, Stage.nextFrom?, hab.cluster_eq]
    rw [hnext]
    exact .leaves (hab.acts acts) finished

namespace Scene.Leads

variable {instant : Bool} {name : ResourceName} {a : Scene} {stage : Stage}

/-- The first part of a call is a turn of the stage at which the cluster resumes. -/
theorem attempt (r : Reconciler) (now : Timestamp) (hstage : resumeStage a.cluster = .ok stage) :
    a.Leads instant name (r.attempt now name) fun x b =>
      ∃ ctx : Context, ctx.Knows a a ∧ Turn name ctx a stage x b := by
  refine of_name fun hname => getCluster fun b hab => ?_
  dsimp only
  rw [hab.cluster_eq, hstage]
  refine bind ?_
  unfold Context.observe
  rw [hname]
  refine run_bind (findWorkload fun c d hbc hcd => done fun e hde => ?_)
  have hce := hcd.trans hde
  have hae : a.Settles e := (hab.trans hbc).trans hce
  have hknows : Context.Knows
      ⟨a.cluster, a.cluster.status, c.workload, r.pendingRequeue, now⟩ a a := by
    refine ⟨rfl, rfl, ?_⟩
    rw [← hae.isNone_workload, hce.isNone_workload]
  have hknows' : Context.Knows
      ⟨a.cluster, a.cluster.status, c.workload, r.pendingRequeue, now⟩ e e := by
    refine ⟨hae.cluster_eq.symm, ?_, hce.isNone_workload.symm⟩
    rw [hae.cluster_eq]
  exact (runStage stage hknows').mono fun x f hturn => ⟨_, hknows, hae.turn hturn⟩

end Scene.Leads

/-! ## The second part of a call -/

section Saving

variable {around : Surroundings} {s : Store} {name : ResourceName} {a : Scene}

/-- What others do after the resume point was written they could have done before. -/
theorem Scene.Settles.exists_saved {c : Scene} {record : Progress} {next : String}
    (h : (a.saved record next).Settles c) : ∃ b, a.Settles b ∧ c = b.saved record next := by
  refine ⟨c.withCluster a.cluster, h.withCluster a.cluster, ?_⟩
  have hcluster : c.cluster = withProgress a.cluster { record with nextState := next } :=
    h.cluster_eq
  show c = { c with cluster := withProgress a.cluster { record with nextState := next } }
  rw [← hcluster]

/-- Writing the resume point changes the record; a failing call is a lost write. -/
theorem ensures_saveNextState (haround : around.others = Store.Reports) (hs : s.Shows name a)
    {record : Progress} (hrecord : progressRecord a.cluster = .ok record) (next : String) :
    Ensures around (saveNextState name next) s fun result t => ∃ b, a.Settles b ∧
      ((result = .ok () ∧ t.Shows name (b.saved record next)) ∨
        (around.faulty = true ∧ (∃ cause, result = .error cause) ∧ t.Shows name b)) := by
  unfold saveNextState
  refine .call_or_fault fun t hdrift => ?_
  obtain ⟨b, hab, hb⟩ := hs.drifts haround hdrift
  refine ⟨?_, fun hfaulty error => .done fun u hu => ?_⟩
  · have hget : t.perform around.instant (.get .cluster name) = (.ok b.cluster, t) := by
      simp [Store.perform, Store.get?, hb.cluster]
    rw [hget]
    dsimp only
    rw [hab.cluster_eq, hrecord]
    refine .call_or_fault fun u hdrift => ?_
    obtain ⟨c, hbc, hc⟩ := hb.drifts haround hdrift
    have hac := hab.trans hbc
    refine ⟨?_, fun hfaulty error => .done fun v hv => ?_⟩
    · have hname : (withProgress c.cluster { record with nextState := next }).resourceName = name :=
        hc.cluster_name
      rw [← hac.cluster_eq, hc.perform_updateCluster hname]
      refine .done fun v hv => ?_
      obtain ⟨d, hcd, hd⟩ := (hc.put_cluster hname).drifts haround hv
      obtain ⟨e, hce, rfl⟩ := Scene.Settles.exists_saved (a := c) hcd
      exact ⟨e, hac.trans hce, .inl ⟨rfl, hd⟩⟩
    · obtain ⟨d, hcd, hd⟩ := hc.drifts haround hv
      exact ⟨d, hac.trans hcd, .inr ⟨hfaulty, ⟨_, rfl⟩, hd⟩⟩
  · obtain ⟨c, hbc, hc⟩ := hb.drifts haround hu
    exact ⟨c, hab.trans hbc, .inr ⟨hfaulty, ⟨_, rfl⟩, hc⟩⟩

/-- The record of a scene that a stage leaves behind can be read. -/
theorem Scene.Acts.exists_progressRecord {ctx : Context} {a b : Scene} {stage : Stage}
    {complete : Bool} (h : a.Acts ctx stage complete b)
    (hstage : resumeStage a.cluster = .ok stage) :
    ∃ record, progressRecord b.cluster = .ok record := by
  rw [h.progressRecord_eq]
  split
  · exact ⟨.fresh, rfl⟩
  · exact Reconciliation.exists_progressRecord hstage

/-- After a turn the second part of a call completes the step. -/
theorem ensures_conclude (haround : around.others = Store.Reports) {r : Reconciler}
    (hr : r.pacer.Silent) {ctx : Context} {b : Scene} {stage : Stage} {x : Attempt}
    (hknows : ctx.Knows a a) (hstage : resumeStage a.cluster = .ok stage)
    (hturn : a.Turn name ctx stage x b) (hs : s.Shows name b) :
    Ensures around (r.conclude x) s fun conclusion t =>
      ∃ after c, a.Step around.faulty stage conclusion after c ∧ t.Shows name c := by
  cases hturn with
  | stays acts unfinished =>
    refine .done fun t hdrift => ?_
    obtain ⟨c, hbc, hc⟩ := hs.drifts haround hdrift
    exact ⟨stage, c, .stays hknows (acts.settles hbc) unfinished, hc⟩
  | @leaves b outcome acts finished =>
    refine .bind (hr.before.ensures fun t hdrift => .bind ?_)
    obtain ⟨c, hbc, hc⟩ := hs.drifts haround hdrift
    have hac := acts.settles hbc
    obtain ⟨record, hrecord⟩ := hac.exists_progressRecord hstage
    refine (ensures_saveNextState haround hc hrecord _).mono fun result u ⟨d, hcd, hsave⟩ => ?_
    rcases hsave with ⟨rfl, hu⟩ | ⟨hfaulty, ⟨cause, rfl⟩, hu⟩
    · refine .bind (hr.after.ensures fun v hv => .done fun w hw => ?_)
      obtain ⟨e, hde, he⟩ := hu.drifts haround (hv.trans hw)
      obtain ⟨f, hdf, rfl⟩ := hde.exists_saved
      have hcf := hcd.trans hdf
      rw [← (hbc.trans hcf).nextFrom?_eq] at he ⊢
      exact ⟨_, _, .advances hknows (hac.settles hcf) finished, he⟩
    · refine .done fun v hv => ?_
      obtain ⟨e, hde, he⟩ := hu.drifts haround hv
      have hce := hcd.trans hde
      rw [← (hbc.trans hce).nextFrom?_eq]
      exact ⟨stage.again, e, .unsaved hfaulty hknows (hac.settles hce), he⟩

end Saving

/-! ## Calls -/

namespace Reconciler

variable {r : Reconciler} {instant : Bool} {name : ResourceName} {s s' : Store} {a : Scene}
  {stage : Stage} {conclusion : Conclusion}

/-- `r.Calls instant name s conclusion s'`: a call of the reconciler in calm surroundings
can end with the conclusion and lead from one store to the other. -/
def Calls (r : Reconciler) (instant : Bool) (name : ResourceName) (s : Store)
    (conclusion : Conclusion) (s' : Store) : Prop :=
  ∃ now, Ran (.calm instant) (r.reconcile now name) s conclusion s'

/-- The same, when the calls to the store that write the resume point may fail. -/
def LossyCalls (r : Reconciler) (instant : Bool) (name : ResourceName) (s : Store)
    (conclusion : Conclusion) (s' : Store) : Prop :=
  ∃ now x t, Ran (.calm instant) (r.attempt now name) s x t ∧
    Ran (.lossy instant) (r.conclude x) t conclusion s'

/-- **In calm surroundings a call is a step.** -/
theorem Calls.step (h : r.Calls instant name s conclusion s') (hr : r.pacer.Silent)
    (hs : s.Shows name a) (hstage : resumeStage a.cluster = .ok stage) :
    ∃ after b, a.Step false stage conclusion after b ∧ s'.Shows name b := by
  obtain ⟨now, h⟩ := h
  rw [reconcile_eq] at h
  obtain ⟨x, t, hattempt, hconclude⟩ := Ran.exists_of_bind h
  obtain ⟨b, hb, ctx, hknows, hturn⟩ := Scene.Leads.attempt r now hstage s hs x t hattempt
  exact ensures_conclude rfl hr hknows hstage hturn hb conclusion s' hconclude

/-- **A call whose write of the resume point may be lost is a step that may be
unsaved.** -/
theorem LossyCalls.step (h : r.LossyCalls instant name s conclusion s') (hr : r.pacer.Silent)
    (hs : s.Shows name a) (hstage : resumeStage a.cluster = .ok stage) :
    ∃ after b, a.Step true stage conclusion after b ∧ s'.Shows name b := by
  obtain ⟨now, x, t, hattempt, hconclude⟩ := h
  obtain ⟨b, hb, ctx, hknows, hturn⟩ := Scene.Leads.attempt r now hstage s hs x t hattempt
  exact ensures_conclude rfl hr hknows hstage hturn hb conclusion s' hconclude

end Reconciler
end Reconciliation
