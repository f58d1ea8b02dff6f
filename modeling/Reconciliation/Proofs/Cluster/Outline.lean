/-
# The outline of a call

A call reads the cluster, runs the stage at which it resumes and, if the stage is
complete, records the next one.  A proof about the requests of calls says what holds in
each of these phases (`CallOutline`): the steps of the call that are the same for every
stage are followed here once.
-/

import Reconciliation.Proofs.Cluster.Requests

namespace Reconciliation

/-- The outline of a proof about a call: what holds while no stage is run, while a stage is
run on the cluster that was read, and once it is complete and the next one is to be
recorded. -/
structure CallOutline (around : Surroundings) (gate : Request → Store → Prop)
    (name : ResourceName) (Idle : Store → Prop) (During : Stage → DbCluster → Store → Prop)
    (Leaving : Stage → Option Stage → Store → Prop) : Prop where
  lookup : ∀ kind found t, gate (.get kind found) t
  others : ∀ {s t}, Idle s → around.others s t → Idle t
  others_during : ∀ {stage c s t}, During stage c s → around.others s t → During stage c t
  others_leaving : ∀ {stage next s t}, Leaving stage next s → around.others s t →
    Leaving stage next t
  begins : ∀ {stage c s}, Idle s → s.clusters name = some c → resumeStage c = .ok stage →
    c.resourceName = name ∧ During stage c s
  idle : ∀ {stage c s}, During stage c s → Idle s
  act : ∀ {stage s} {ctx : Context}, During stage ctx.cluster s → Guarded around gate
    (fun x t =>
      match x.1 with
      | .error _ => Idle t
      | .ok _ => Guarded around gate
          (fun verdict u => Idle u ∧ (verdict = .ok true → Leaving stage (stage.next? x.2) u))
          (stage.isComplete x.2) t)
    (stage.action ctx) s
  save : ∀ {stage next s}, Leaving stage next s →
    Guarded around gate (fun _ => Idle) (saveNextState name (nextName next)) s

namespace CallOutline

variable {around : Surroundings} {gate : Request → Store → Prop} {name : ResourceName}
  {Idle : Store → Prop} {During : Stage → DbCluster → Store → Prop}
  {Leaving : Stage → Option Stage → Store → Prop} {s : Store}
  (outline : CallOutline around gate name Idle During Leaving)
include outline

theorem idle_drifts {t : Store} (hs : Idle s) (hdrift : around.Drifts s t) : Idle t :=
  hdrift.keeps outline.others hs

/-- Running a stage ends idle or with the next stage to be recorded. -/
theorem runStage {stage : Stage} {ctx : Context} (hs : During stage ctx.cluster s) :
    Guarded around gate (fun x t =>
      match x with
      | .ended _ => Idle t
      | .leaving key stage next _ => key = name ∧ Leaving stage next t)
      (Reconciler.runStage name stage ctx) s := by
  refine .bind ((outline.act hs).mono fun (result, ctx') t ht => ?_)
  cases result with
  | error cause => exact .done fun u hu => outline.idle_drifts ht hu
  | ok outcome =>
    refine .bind (ht.mono fun verdict u ⟨hidle, hleaving⟩ => ?_)
    rcases verdict with cause | (_ | _)
    · exact .done fun v hv => outline.idle_drifts hidle hv
    · exact .done fun v hv => outline.idle_drifts hidle hv
    · exact .done fun v hv => ⟨rfl, hv.keeps outline.others_leaving (hleaving rfl)⟩

/-- **A call that follows the outline is guarded.** -/
theorem guarded {r : Reconciler} (hr : r.pacer.Silent) (now : Timestamp) (hs : Idle s) :
    Guarded around gate (fun _ => Idle) (r.reconcile now name) s := by
  have hidle : ∀ {conclusion : Conclusion} {t}, Idle t →
      Guarded around gate (fun _ => Idle) (.done conclusion) t :=
    fun ht => .done fun u hu => outline.idle_drifts ht hu
  rw [Reconciler.reconcile_eq]
  refine .bind (Guarded.mono (Q := fun x t =>
    match x with
    | .ended _ => Idle t
    | .leaving key stage next _ => key = name ∧ Leaving stage next t) ?_ ?_)
  · refine .call (r := .get .cluster name) fun t ht =>
      ⟨outline.lookup _ _ _, ?_, fun _ error => .done fun u hu => ?_⟩
    · have ht := outline.idle_drifts hs ht
      simp only [Store.perform]
      cases hstored : t.clusters name with
      | none =>
        simp only [Store.get?, hstored]
        exact .done fun u hu => outline.idle_drifts ht hu
      | some c =>
        simp only [Store.get?, hstored]
        cases hstage : resumeStage c with
        | error error => exact .done fun u hu => outline.idle_drifts ht hu
        | ok stage =>
          obtain ⟨hname, hduring⟩ := outline.begins ht hstored hstage
          refine .bind ((Guarded.of_lookups (Only.observe (fun _ _ => rfl) c _ now) hduring
            outline.lookup outline.others_during).mono fun x u hobserved => ?_)
          obtain ⟨hctx, hduring⟩ := hobserved
          cases x with
          | error error => exact .done fun v hv => outline.idle_drifts (outline.idle hduring) hv
          | ok ctx =>
            obtain rfl := hctx ctx rfl
            rw [hname]
            exact outline.runStage hduring
    · exact outline.idle_drifts hs (ht.trans hu)
  · intro x t ht
    cases x with
    | ended conclusion => exact hidle ht
    | leaving key stage next outcome =>
      obtain ⟨rfl, hleaving⟩ := ht
      refine .bind (.of_onlySleeps hr.before fun u hu => .bind ?_)
      refine (outline.save (hu.keeps outline.others_leaving hleaving)).mono fun saved v hv => ?_
      cases saved with
      | error cause => exact hidle hv
      | ok =>
        refine .bind (.of_onlySleeps hr.after fun w hw => ?_)
        exact hidle (outline.idle_drifts hv hw)

end CallOutline
end Reconciliation
