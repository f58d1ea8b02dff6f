/-
# Convergence

The reconciler is called again and again with nobody else around, over a store with
instant rollout.  It never fails: a cluster that was sound stays so (`Sound.call`).  With
every call of a pass fewer remain (`Scene.Advances.achieves`), so the pass ends, and then
the cluster is what its spec wants (`converges`).

A pass adds or removes one member at a time.  Each of them but the last one takes two
calls, to write the workload and to count the member.
-/

import Mathlib.Data.Nat.Dist
import Reconciliation.Proofs.Cluster.Alone
import Reconciliation.Proofs.Cluster.Published
import Reconciliation.Proofs.Cluster.Run

namespace Reconciliation

/-! ## Calls one after the other -/

namespace Reconciler

variable (r : Reconciler) (clock : ℕ → Timestamp) (name : ResourceName) (s : Store)

/-- The store after so many calls with nobody else around; the clock says when each of
them takes place. -/
def storeAfter : ℕ → Store
  | 0 => s
  | n + 1 => ((r.reconcile (clock n) name).run (Store.handle true false) (storeAfter n)).2

/-- The result of the call after so many others. -/
def resultAfter (n : ℕ) : Except ReconcileError Outcome :=
  ((r.reconcile (clock n) name).run (Store.handle true false)
    (r.storeAfter clock name s n)).1.result

end Reconciler

/-! ## Where a stage leads -/

namespace Stage

/-- The stages that can follow when a stage completes. -/
def followers : Stage → List Stage
  | .startFresh => [.validateSpec]
  | .validateSpec => [.createService]
  | .createService => [.tlsValidation, .deployAutomationConfig, .deployWorkload]
  | .tlsValidation => [.createTlsResources]
  | .createTlsResources => [.deployAutomationConfig, .deployWorkload]
  | .deployAutomationConfig => [.deployWorkload, .resetUpdateStrategy, .updateStatus]
  | .deployWorkload => [.deployAutomationConfig, .resetUpdateStrategy, .updateStatus]
  | .resetUpdateStrategy => [.updateStatus]
  | .updateStatus => [.deployWorkload, .reconciliationEnd]
  | .reconciliationEnd => [.startFresh]

/-- Once a pass has found the user's certificate, it comes back before that at its end
only. -/
theorem beforeTls_of_followers (stage : Stage) : ∀ next ∈ stage.followers,
    next.beforeTls = true → stage.beforeTls = true ∨ stage = .reconciliationEnd := by
  cases stage <;> decide

/-- The operator's secret is written once the user's certificate is found. -/
theorem eq_tlsValidation_of_followers (stage : Stage) : ∀ next ∈ stage.followers,
    next = .createTlsResources → stage = .tlsValidation := by
  cases stage <;> decide

/-- Rolling updates are given back once everything is deployed. -/
theorem deploys_of_followers (stage : Stage) : ∀ next ∈ stage.followers,
    next = .resetUpdateStrategy → stage = .deployAutomationConfig ∨ stage = .deployWorkload := by
  cases stage <;> decide

end Stage

namespace Scene

variable {a b : Scene} {stage after : Stage} {conclusion : Conclusion}

theorem Advances.exists_acts (h : a.Advances stage conclusion after b) :
    ∃ ctx c record next, ctx.Knows a a ∧ a.Acts ctx stage true c ∧ b = c.saved record next := by
  cases h with
  | intro knows acts => exact ⟨_, _, _, _, knows, acts, rfl⟩

theorem Advances.after_eq (h : a.Advances stage conclusion after b) :
    after = (stage.nextFrom? a b).getD initialStage := by
  cases h with
  | intro => rw [nextFrom?_saved]

/-- The stage that follows when a stage that completes leads from one scene to another. -/
def follower (a b : Scene) : Stage → Stage
  | .startFresh => .validateSpec
  | .validateSpec => .createService
  | .createService =>
    if b.cluster.spec.security.tls.enabled = true then .tlsValidation else a.firstDeployment b
  | .tlsValidation => .createTlsResources
  | .createTlsResources => a.firstDeployment b
  | .deployAutomationConfig => if a.NeedsConfigFirst b then .deployWorkload else b.afterDeployment
  | .deployWorkload =>
    if a.next ≠ a.desired then .updateStatus
    else if a.NeedsConfigFirst b then b.afterDeployment else .deployAutomationConfig
  | .resetUpdateStrategy => .updateStatus
  | .updateStatus => if a.next ≠ a.desired then .deployWorkload else .reconciliationEnd
  | .reconciliationEnd => .startFresh

/-- **A call that advances goes on with the stage that follows.** -/
theorem Advances.eq_follower (h : a.Advances stage conclusion after b) :
    after = a.follower b stage := by
  have hspec := h.step.frame.sameSpec
  have hafter := h.after_eq
  cases stage with
  | createService => rwa [nextFrom?_createService hspec] at hafter
  | createTlsResources => rwa [nextFrom?_createTlsResources hspec] at hafter
  | deployAutomationConfig => rwa [nextFrom?_deployAutomationConfig hspec] at hafter
  | deployWorkload =>
    rw [nextFrom?_deployWorkload hspec] at hafter
    simp only [isStillScaling_iff] at hafter
    exact hafter
  | updateStatus =>
    rw [nextFrom?_updateStatus hspec] at hafter
    simp only [isStillScaling_iff] at hafter
    exact hafter
  | startFresh | validateSpec | tlsValidation | resetUpdateStrategy | reconciliationEnd =>
    exact hafter

theorem follower_mem (a b : Scene) (stage : Stage) : a.follower b stage ∈ stage.followers := by
  have hfirst : a.firstDeployment b ∈ Stage.createTlsResources.followers := by
    rcases a.firstDeployment_cases b with ⟨-, hfirst⟩ | ⟨-, hfirst⟩ <;> rw [hfirst] <;> decide
  have hlast : b.afterDeployment ∈ [Stage.resetUpdateStrategy, .updateStatus] := by
    rcases b.afterDeployment_cases with hlast | hlast <;> rw [hlast] <;> decide
  cases stage with
  | createService =>
    rw [follower]
    split
    · exact .head _
    · exact .tail _ hfirst
  | createTlsResources => exact hfirst
  | deployAutomationConfig =>
    rw [follower]
    split
    · exact .head _
    · exact .tail _ hlast
  | deployWorkload =>
    rw [follower]
    split
    · decide
    · split
      · exact .tail _ hlast
      · exact .head _
  | updateStatus =>
    rw [follower]
    split <;> decide
  | startFresh | validateSpec | tlsValidation | resetUpdateStrategy | reconciliationEnd =>
    exact .head _

theorem Advances.mem_followers (h : a.Advances stage conclusion after b) :
    after ∈ stage.followers := by
  rw [h.eq_follower]
  exact a.follower_mem b stage

/-- Rolling updates are given back to a workload that is there. -/
theorem Advances.workload_ne_none (h : a.Advances stage conclusion .resetUpdateStrategy b) :
    b.workload ≠ none := by
  rcases Stage.deploys_of_followers stage _ h.mem_followers rfl with rfl | rfl
  · have hfollower := h.eq_follower
    rw [follower] at hfollower
    split at hfollower
    · cases hfollower
    · exact fun hnone => absurd (.inl hnone) ‹¬ a.NeedsConfigFirst b›
  · exact Option.ne_none_iff_exists'.2 h.step.exists_workload

/-- What the next stage needs is there after a call that advances, unless the user has to
provide it. -/
theorem Advances.ready {s t : Store} {name : ResourceName}
    (h : a.Advances stage conclusion after b) (ht : t.Shows name b)
    (hready : stage.Ready s a.cluster)
    (htls : stage.beforeTls = true → t.secrets = s.secrets ∧ t.configMaps = s.configMaps)
    (hafter : after ≠ .tlsValidation) : after.Ready t b.cluster := by
  cases after with
  | createTlsResources =>
    obtain rfl := Stage.eq_tlsValidation_of_followers stage _ h.mem_followers rfl
    obtain ⟨hsecrets, hmaps⟩ := htls rfl
    have hserves : t.ServesTls b.cluster := hready.congr h.step.frame.sameSpec hsecrets hmaps
    obtain ⟨secret, hsecret, -⟩ := hserves.certificate
    show t.secrets _ ≠ none
    rw [hsecret]
    nofun
  | resetUpdateStrategy =>
    show t.workloads _ ≠ none
    rw [ht.cluster_name, ht.workload]
    exact h.workload_ne_none
  | tlsValidation => exact absurd rfl hafter
  | startFresh | validateSpec | createService | deployAutomationConfig | deployWorkload
  | updateStatus | reconciliationEnd => trivial

/-! ## How far a pass has come -/

/-- The members that are still to be added or removed after those of the pass. -/
def gap (a : Scene) : ℕ := a.next.dist a.desired

/-- How many calls a pass takes at most from a stage to its end. -/
def remaining (a : Scene) : Stage → ℕ
  | .startFresh => 2 * a.gap + 11
  | .validateSpec => 2 * a.gap + 10
  | .createService => 2 * a.gap + 9
  | .tlsValidation => 2 * a.gap + 8
  | .createTlsResources => 2 * a.gap + 7
  | .deployAutomationConfig => if a.NeedsConfigFirst a then 2 * a.gap + 6 else 4
  | .deployWorkload => 2 * a.gap + 5
  | .resetUpdateStrategy => 3
  | .updateStatus => if a.next = a.desired then 2 else 2 * a.gap + 4
  | .reconciliationEnd => 1

/-- What a pass has achieved when it comes to a stage. -/
def Achieves (a : Scene) : Stage → Prop
  | .tlsValidation => a.cluster.spec.security.tls.enabled = true
  | .deployAutomationConfig => a.NeedsConfigFirst a ∨
      (a.next = a.desired ∧ a.Fits ∧ (a.cluster.isChangingVersion = false → a.Rolls))
  | .resetUpdateStrategy => a.next = a.desired ∧ a.Fits
  | .updateStatus => a.next = a.desired → a.Fits ∧ a.Rolls
  | .reconciliationEnd => a.Fits ∧ a.Rolls ∧ a.cluster.Published
  | _ => True

/-- Until the members are counted, the pass aims at the same ones. -/
theorem Frame.gap_eq (h : Frame stage a b) (hstage : stage ≠ .updateStatus) : b.gap = a.gap := by
  rw [gap, gap, h.next_eq hstage, h.desired_eq]

theorem Frame.next_eq_desired_iff (h : Frame stage a b) (hstage : stage ≠ .updateStatus) :
    b.next = b.desired ↔ a.next = a.desired := by
  rw [h.next_eq hstage, h.desired_eq]

/-- Whether the config comes before the workload does not change in between. -/
theorem Frame.needsConfigFirst_iff (h : Frame stage a b) (hstage : stage ≠ .updateStatus) :
    b.NeedsConfigFirst b ↔ a.NeedsConfigFirst b := by
  rw [NeedsConfigFirst, NeedsConfigFirst, h.desired_eq, h.current_eq hstage]

/-- Each step of the scaling makes the next one shorter. -/
theorem gap_lt (hcounted : b.current = a.next) (hdesired : b.desired = a.desired)
    (hscaling : a.next ≠ a.desired) : b.gap < a.gap := by
  have ha := a.next_cases
  have hb := b.next_cases
  rw [gap, gap, Nat.dist, Nat.dist]
  omega

theorem gap_le (a : Scene) : a.gap ≤ a.current.dist a.desired := by
  have hnext := a.next_cases
  rw [gap, Nat.dist, Nat.dist]
  omega

/-- Deploying begins with at most this many calls left. -/
theorem achieves_firstDeployment (h : Frame stage a b) (hstage : stage ≠ .updateStatus) :
    b.Achieves (a.firstDeployment b) ∧ b.remaining (a.firstDeployment b) ≤ 2 * a.gap + 6 := by
  rw [← h.gap_eq hstage]
  rcases a.firstDeployment_cases b with ⟨hneeds, hfirst⟩ | ⟨-, hfirst⟩
  · have hneeds := (h.needsConfigFirst_iff hstage).2 hneeds
    rw [hfirst, remaining, if_pos hneeds]
    exact ⟨.inl hneeds, Nat.le_refl _⟩
  · rw [hfirst, remaining]
    exact ⟨trivial, by omega⟩

/-- Once the workload fits, at most three calls are left. -/
theorem achieves_afterDeployment (hlast : b.next = b.desired) (hfits : b.Fits)
    (hrolls : b.cluster.isChangingVersion = false → b.Rolls) :
    b.Achieves b.afterDeployment ∧ b.remaining b.afterDeployment ≤ 3 := by
  unfold afterDeployment
  split
  · exact ⟨⟨hlast, hfits⟩, Nat.le_refl 3⟩
  · rename_i hversion
    rw [remaining, if_pos hlast]
    exact ⟨fun _ => ⟨hfits, hrolls (Bool.eq_false_iff.2 hversion)⟩, by omega⟩

namespace Advances

theorem asked?_eq (h : a.Advances stage conclusion after b) (hdeploy : stage ≠ .deployWorkload)
    (hreset : stage ≠ .resetUpdateStrategy) : b.asked? = a.asked? := by
  obtain ⟨ctx, c, record, next, -, hacts, rfl⟩ := h.exists_acts
  exact hacts.asked?_eq hdeploy hreset

/-- The stages before the deployment take one call each. -/
theorem achieves_of_prepares (h : a.Advances stage conclusion after b)
    (hprepares : stage.prepares = true) :
    b.Achieves after ∧ b.remaining after < a.remaining stage := by
  have hframe := h.step.frame
  rw [h.eq_follower]
  cases stage with
  | startFresh | validateSpec | tlsValidation =>
    refine ⟨trivial, ?_⟩
    simp only [follower, remaining, hframe.gap_eq nofun]
    omega
  | createService =>
    rw [follower, remaining]
    split
    · refine ⟨‹_›, ?_⟩
      rw [remaining, hframe.gap_eq nofun]
      omega
    · obtain ⟨hfirst, hle⟩ := achieves_firstDeployment hframe nofun
      exact ⟨hfirst, by omega⟩
  | createTlsResources =>
    exact (achieves_firstDeployment hframe nofun).imp_right Nat.lt_succ_of_le
  | deployAutomationConfig | deployWorkload | resetUpdateStrategy | updateStatus
  | reconciliationEnd => cases hprepares

/-- The config comes before the workload, or it is the last to be deployed. -/
theorem achieves_deployAutomationConfig
    (h : a.Advances .deployAutomationConfig conclusion after b)
    (ha : a.Achieves .deployAutomationConfig) :
    b.Achieves after ∧ b.remaining after < a.remaining .deployAutomationConfig := by
  have hframe := h.step.frame
  have hcounts : Stage.deployAutomationConfig ≠ .updateStatus := by decide
  have hdeploys : Stage.deployAutomationConfig ≠ .deployWorkload := by decide
  have hneeds : a.NeedsConfigFirst b ↔ a.NeedsConfigFirst a := by
    rw [NeedsConfigFirst, NeedsConfigFirst, hframe.workload_eq_none_iff hdeploys]
  rw [h.eq_follower, follower, remaining]
  by_cases hfirst : a.NeedsConfigFirst a
  · rw [if_pos hfirst, if_pos (hneeds.2 hfirst), remaining, hframe.gap_eq hcounts]
    exact ⟨trivial, by omega⟩
  · rw [if_neg hfirst, if_neg (mt hneeds.1 hfirst)]
    obtain ⟨hlast, hfits, hrolls⟩ := ha.resolve_left hfirst
    have hasked := h.asked?_eq hdeploys (by decide)
    have hlast := (hframe.next_eq_desired_iff hcounts).2 hlast
    have hrolls : b.cluster.isChangingVersion = false → b.Rolls := by
      rw [hframe.changing hcounts]
      exact fun hversion => (hrolls hversion).congr hasked
    have hfits := hfits.congr hframe.sameSpec hasked
    exact (achieves_afterDeployment hlast hfits hrolls).imp_right Nat.lt_succ_of_le

/-- The workload fits once all members are aimed at. -/
theorem achieves_deployWorkload (h : a.Advances .deployWorkload conclusion after b) :
    b.Achieves after ∧ b.remaining after < a.remaining .deployWorkload := by
  have hframe := h.step.frame
  rw [h.eq_follower, follower, remaining]
  split
  · rename_i hscaling
    have hscaling := mt (hframe.next_eq_desired_iff nofun).1 hscaling
    rw [remaining, if_neg hscaling, hframe.gap_eq nofun]
    exact ⟨fun hlast => absurd hlast hscaling, by omega⟩
  · rename_i hlast
    have hlast := not_not.1 hlast
    obtain ⟨ctx, c, record, next, -, hacts, hb⟩ := h.exists_acts
    have hfits : b.Fits := hb ▸ hacts.fits_deployed hlast
    have hrolls : b.cluster.isChangingVersion = false → b.Rolls := by
      rw [hframe.changing nofun, ← hacts.frame.changing nofun, hb]
      exact hacts.rolls_deployed
    have hlast := (hframe.next_eq_desired_iff nofun).2 hlast
    split
    · obtain ⟨hafter, hle⟩ := achieves_afterDeployment hlast hfits hrolls
      exact ⟨hafter, by omega⟩
    · rename_i hneeds
      rw [remaining, if_neg (mt (hframe.needsConfigFirst_iff nofun).1 hneeds)]
      exact ⟨.inr ⟨hlast, hfits, hrolls⟩, by omega⟩

/-- The members are counted, and with the last of them the cluster is published. -/
theorem achieves_updateStatus (h : a.Advances .updateStatus conclusion after b)
    (ha : a.Achieves .updateStatus) :
    b.Achieves after ∧ b.remaining after < a.remaining .updateStatus := by
  have hframe := h.step.frame
  rw [h.eq_follower, follower, remaining]
  by_cases hlast : a.next = a.desired
  · obtain ⟨hfits, hrolls⟩ := ha hlast
    have hasked := h.asked?_eq nofun nofun
    obtain ⟨ctx, c, record, next, hknows, hacts, hb⟩ := h.exists_acts
    have hpublished : b.cluster.Published :=
      hb ▸ (hacts.published_running hknows hlast).annotate (by decide) _
    rw [if_neg (not_not.2 hlast), if_pos hlast]
    exact ⟨⟨hfits.congr hframe.sameSpec hasked, hrolls.congr hasked, hpublished⟩,
      Nat.lt_succ_self 1⟩
  · have hgap := gap_lt h.step.current_eq hframe.desired_eq hlast
    rw [if_pos hlast, if_neg hlast, remaining]
    exact ⟨trivial, by omega⟩

/-- **With every call a pass achieves what the next stage needs, and fewer calls
remain.** -/
theorem achieves (h : a.Advances stage conclusion after b) (ha : a.Achieves stage)
    (hend : stage ≠ .reconciliationEnd) :
    b.Achieves after ∧ b.remaining after < a.remaining stage := by
  cases stage with
  | startFresh | validateSpec | createService | tlsValidation | createTlsResources =>
    exact h.achieves_of_prepares rfl
  | deployAutomationConfig => exact h.achieves_deployAutomationConfig ha
  | deployWorkload => exact h.achieves_deployWorkload
  | resetUpdateStrategy =>
    obtain ⟨hlast, hfits⟩ := ha
    have hframe := h.step.frame
    obtain ⟨ctx, c, record, next, -, hacts, hb⟩ := h.exists_acts
    have hlast := (hframe.next_eq_desired_iff nofun).2 hlast
    rw [h.eq_follower, follower, remaining, remaining, if_pos hlast]
    refine ⟨fun _ => ?_, by omega⟩
    rw [hb]
    exact ⟨hacts.fits_reset hfits, hacts.rolls_reset⟩
  | updateStatus => exact h.achieves_updateStatus ha
  | reconciliationEnd => exact absurd rfl hend

/-- The end of a pass empties the record and keeps what the pass has achieved. -/
theorem achieved (h : a.Advances .reconciliationEnd conclusion after b)
    (ha : a.Achieves .reconciliationEnd) : b.Fits ∧ b.Rolls ∧ b.cluster.Published ∧
      progressRecord b.cluster = .ok .fresh := by
  obtain ⟨hfits, hrolls, hpublished⟩ := ha
  have hasked := h.asked?_eq nofun nofun
  refine ⟨hfits.congr h.step.frame.sameSpec hasked, hrolls.congr hasked, ?_⟩
  cases h with
  | intro _ acts _ recorded =>
    rw [acts.progressRecord_eq, if_pos rfl] at recorded
    obtain rfl := Except.ok.inj recorded
    exact ⟨(acts.published_end hpublished).annotate (by decide) _,
      progressRecord_withProgress _ .fresh⟩

end Advances
end Scene
/-! ## Calls that never fail -/

theorem DbCluster.SameSpec.specProblem?_eq {c c' : DbCluster} (h : c.SameSpec c') :
    specProblem? c' = specProblem? c := by
  rw [specProblem?, h.name, h.spec]
  rfl

/-- A store in which the cluster can be called about: all that is missing, if anything,
is what the user has to provide. -/
structure Store.Sound (s : Store) (c : DbCluster) (stage : Stage) (a : Scene) : Prop where
  written : s.Written
  shows : s.Shows c.resourceName a
  resumes : resumeStage a.cluster = .ok stage
  sameSpec : c.SameSpec a.cluster
  ready : stage ≠ .tlsValidation → stage.Ready s a.cluster

namespace Store.Sound

variable {r : Reconciler} {s : Store} {c : DbCluster} {stage : Stage} {a : Scene}

/-- A call about a sound cluster that is ready advances, and the cluster stays sound. -/
theorem advances (h : s.Sound c stage a) (hr : r.pacer.Silent) (hvalid : specProblem? c = none)
    (now : Timestamp) (hready : stage.Ready s a.cluster) :
    Alone (r.reconcile now c.resourceName) s fun conclusion t => ∃ after b,
      a.Advances stage conclusion after b ∧ t.Sound c after b ∧
        (stage.beforeTls = true → t.secrets = s.secrets ∧ t.configMaps = s.configMaps) := by
  have hvalid : specProblem? a.cluster = none := h.sameSpec.specProblem?_eq.trans hvalid
  refine ((Reconciler.alone_advances hr now h.written h.shows h.resumes hvalid hready).written
    h.written).mono ?_
  rintro conclusion t ⟨ht, after, b, hab, hb, htls⟩
  exact ⟨after, b, hab, ⟨ht, hb, hab.step.resumeStage_eq h.resumes,
    h.sameSpec.trans hab.step.frame.sameSpec, hab.ready hb hready htls⟩, htls⟩

/-- **A call about a sound cluster does not fail, and the cluster stays sound.** -/
theorem call (h : s.Sound c stage a) (hr : r.pacer.Silent) (hvalid : specProblem? c = none)
    (now : Timestamp) :
    Alone (r.reconcile now c.resourceName) s fun conclusion t =>
      (∃ outcome, conclusion.result = .ok outcome) ∧ ∃ after b, t.Sound c after b := by
  by_cases hready : stage.Ready s a.cluster
  · refine (h.advances hr hvalid now hready).mono ?_
    rintro conclusion t ⟨after, b, hab, ht, -⟩
    refine ⟨?_, after, b, ht⟩
    cases hab with
    | intro => exact ⟨_, rfl⟩
  · -- nothing is missing but what the user has to provide
    obtain rfl : stage = .tlsValidation := by
      by_contra hstage
      exact hready (h.ready hstage)
    have hstep := Alone.of_ensures fun conclusion t hran =>
      Reconciler.Calls.step (r := r) ⟨now, hran⟩ hr h.shows h.resumes
    refine (((Reconciler.alone_waits now h.shows h.resumes hready).and hstep).written
      h.written).mono ?_
    rintro conclusion t ⟨ht, ⟨outcome, rfl⟩, after, b, hab, hb⟩
    refine ⟨⟨outcome, rfl⟩, after, b, ?_⟩
    cases hab with
    | stays knows acts unfinished =>
      have hstep : a.Step false .tlsValidation (.ticked (.incomplete outcome)) .tlsValidation b :=
        .stays knows acts unfinished
      exact ⟨ht, hb, hstep.resumeStage_eq h.resumes, h.sameSpec.trans hstep.frame.sameSpec,
        fun hne => absurd rfl hne⟩

end Store.Sound

/-! ## Passes that end -/

/-- A pass of the cluster has come to a stage, and nothing is missing. -/
structure Store.OnPass (s : Store) (c : DbCluster) (stage : Stage) (a : Scene) : Prop where
  sound : s.Sound c stage a
  achieves : a.Achieves stage
  servesTls : stage.beforeTls = true → c.spec.security.tls.enabled = true → s.ServesTls a.cluster

/-- The workload and the status are what the spec of the cluster wants, and the progress
record is empty. -/
structure Store.Reached (s : Store) (c : DbCluster) : Prop where
  workload : ∃ w, s.workloads c.resourceName = some w ∧ w.replicas = c.spec.members ∧
    w.version = c.spec.version ∧ w.updateStrategy = .rollingUpdate
  cluster : ∃ c', s.clusters c.resourceName = some c' ∧ c.SameSpec c' ∧ c'.Published ∧
    progressRecord c' = .ok .fresh

namespace Store.OnPass

variable {r : Reconciler} {s : Store} {c : DbCluster} {stage : Stage} {a : Scene}

theorem ready (h : s.OnPass c stage a) : stage.Ready s a.cluster := by
  by_cases hstage : stage = .tlsValidation
  · subst hstage
    have henabled : a.cluster.spec.security.tls.enabled = true := h.achieves
    rw [h.sound.sameSpec.spec] at henabled
    exact h.servesTls rfl henabled
  · exact h.sound.ready hstage

/-- **A call before the end of a pass goes on with the pass.** -/
theorem call (h : s.OnPass c stage a) (hr : r.pacer.Silent) (hvalid : specProblem? c = none)
    (now : Timestamp) (hend : stage ≠ .reconciliationEnd) :
    Alone (r.reconcile now c.resourceName) s fun conclusion t =>
      conclusion.result ≠ .ok .done ∧ ∃ after b, t.OnPass c after b ∧
        b.remaining after < a.remaining stage := by
  refine (h.sound.advances hr hvalid now h.ready).mono ?_
  rintro conclusion t ⟨after, b, hab, ht, htls⟩
  obtain ⟨hachieves, hlt⟩ := hab.achieves h.achieves hend
  refine ⟨fun hdone => hend (hab.step.eq_end_of_done hdone), after, b, ⟨ht, hachieves, ?_⟩, hlt⟩
  intro hafter henabled
  have hbefore : stage.beforeTls = true :=
    (Stage.beforeTls_of_followers stage after hab.mem_followers hafter).resolve_right hend
  obtain ⟨hsecrets, hmaps⟩ := htls hbefore
  exact (h.servesTls hbefore henabled).congr hab.step.frame.sameSpec hsecrets hmaps

/-- **A call at the end of a pass is done**, and the spec is reached. -/
theorem finish (h : s.OnPass c .reconciliationEnd a) (hr : r.pacer.Silent)
    (hvalid : specProblem? c = none) (now : Timestamp) :
    Alone (r.reconcile now c.resourceName) s fun conclusion t =>
      conclusion.result = .ok .done ∧ t.Reached c := by
  refine (h.sound.advances hr hvalid now h.ready).mono ?_
  rintro conclusion t ⟨after, b, hab, ht, -⟩
  obtain ⟨⟨asked, hasked, hreplicas, hversion⟩, hrolls, hpublished, hrecord⟩ :=
    hab.achieved h.achieves
  have hrolling := hrolls asked hasked
  obtain ⟨w, hw, rfl⟩ := Option.map_eq_some_iff.1 hasked
  rw [ht.sameSpec.spec] at hreplicas hversion
  exact ⟨hab.step.done_of_end, ⟨w, ht.shows.workload.trans hw, hreplicas, hversion, hrolling⟩,
    b.cluster, ht.shows.cluster, ht.sameSpec, hpublished, hrecord⟩

end Store.OnPass

section Runs

variable {r : Reconciler} {s : Store} {c : DbCluster}

/-- A sound cluster stays so with every call. -/
theorem Store.Sound.storeAfter {stage : Stage} {a : Scene} (h : s.Sound c stage a)
    (hr : r.pacer.Silent) (hvalid : specProblem? c = none) (clock : ℕ → Timestamp) (n : ℕ) :
    ∃ stage a, (r.storeAfter clock c.resourceName s n).Sound c stage a := by
  induction n with
  | zero => exact ⟨stage, a, h⟩
  | succ n ih =>
    obtain ⟨stage, a, hsound⟩ := ih
    exact (hsound.call hr hvalid (clock n)).2

/-- A pass ends before as many calls were made as remain. -/
theorem Store.OnPass.exists_done (hr : r.pacer.Silent) (hvalid : specProblem? c = none)
    (clock : ℕ → Timestamp) {n : ℕ} {stage : Stage} {a : Scene}
    (h : (r.storeAfter clock c.resourceName s n).OnPass c stage a) :
    ∃ k, n ≤ k ∧ k < n + a.remaining stage ∧
      (∀ m, n ≤ m → m < k → r.resultAfter clock c.resourceName s m ≠ .ok .done) ∧
      r.resultAfter clock c.resourceName s k = .ok .done ∧
      (r.storeAfter clock c.resourceName s (k + 1)).Reached c := by
  -- by induction on the calls that remain
  induction hremaining : a.remaining stage using Nat.strongRecOn generalizing n stage a with
  | ind remaining ih =>
    by_cases hend : stage = .reconciliationEnd
    · subst hend
      obtain ⟨hdone, hreached⟩ := h.finish hr hvalid (clock n)
      refine ⟨n, Nat.le_refl n, ?_, fun m hle hlt => by omega, hdone, hreached⟩
      rw [← hremaining]
      exact Nat.lt_succ_self n
    · obtain ⟨hnot, after, b, hb, hlt⟩ := h.call hr hvalid (clock n) hend
      obtain ⟨k, hle, hk, hearlier, hdone, hreached⟩ := ih _ (hremaining ▸ hlt) (n := n + 1) hb rfl
      refine ⟨k, by omega, by omega, fun m hm hmk => ?_, hdone, hreached⟩
      rcases Nat.eq_or_lt_of_le hm with rfl | hm
      · exact hnot
      · exact hearlier m hm hmk

/-- The store of a cluster with the certificate and the authority that the user provides. -/
def Store.provided (c : DbCluster) : Store :=
  let certificate : Secret := ⟨c.certificateSecretName,
    (Table.empty.insert certificateKey "certificate").insert privateKeyKey "key"⟩
  let authority : ConfigMap :=
    ⟨c.authorityConfigMapName, Table.empty.insert authorityKey "authority"⟩
  ((Store.empty.insert .cluster c).perform true (.create .secret certificate)).2.insert .configMap
    authority

theorem Store.written_provided (c : DbCluster) : (Store.provided c).Written :=
  ((Written.empty.putCluster c).perform _).putConfigMap _

theorem Store.servesTls_provided (c : DbCluster) : (Store.provided c).ServesTls c where
  certificate := ⟨_, Collection.put_self _ _ _, rfl, rfl⟩
  authority := ⟨_, Collection.put_self _ _ _, rfl⟩

/-- A cluster that counts one member and wants three of them, encrypted. -/
def DbCluster.encrypted : DbCluster :=
  ⟨⟨"example", "db", .empty⟩, ⟨3, "6.0.5", ⟨⟨true, "certificate", "authority"⟩⟩⟩,
    { ClusterStatus.fresh with currentMembers := 1 }⟩

/-- **The reconciler converges.**  It is called again and again with nobody else around,
about a cluster at rest with a valid spec, in a store with instant rollout that was
written through its calls alone; if the spec wants TLS, the user has provided what it
takes.  No call fails, and after a number of calls that is bounded by the members to be
added or removed the reconciler is done and has reached what the spec wants. -/
theorem converges {name : ResourceName} (hr : r.pacer.Silent) (clock : ℕ → Timestamp)
    (hs : s.Written) (hstored : s.clusters name = some c) (hrest : c.AtRest)
    (hvalid : specProblem? c = none)
    (htls : c.spec.security.tls.enabled = true → s.ServesTls c) :
    (∀ n, ∃ outcome, r.resultAfter clock name s n = .ok outcome) ∧
    ∃ n, n + 1 ≤ 2 * c.currentMembers.toNat.dist c.desiredMembers.toNat + 11 ∧
      (∀ m < n, r.resultAfter clock name s m ≠ .ok .done) ∧
      r.resultAfter clock name s n = .ok .done ∧
      (r.storeAfter clock name s (n + 1)).Reached c := by
  obtain rfl : c.resourceName = name := hs.wellNamed .cluster name c hstored
  have hpass : s.OnPass c initialStage (s.opening c.resourceName c) :=
    ⟨⟨hs, hs.wellNamed.shows hstored, hrest.resumeStage_eq, .refl c, fun _ => trivial⟩, trivial,
      fun _ => htls⟩
  refine ⟨fun n => ?_, ?_⟩
  · obtain ⟨stage, a, hsound⟩ := hpass.sound.storeAfter hr hvalid clock n
    exact (hsound.call hr hvalid (clock n)).1
  · obtain ⟨n, -, hlt, hearlier, hdone, hreached⟩ :=
      Store.OnPass.exists_done (n := 0) hr hvalid clock hpass
    have hgap := (s.opening c.resourceName c).gap_le
    refine ⟨n, ?_, fun m hm => hearlier m (Nat.zero_le m) hm, hdone, hreached⟩
    calc n + 1 ≤ 2 * (s.opening c.resourceName c).gap + 11 := by
          rwa [Nat.zero_add] at hlt
      _ ≤ 2 * c.currentMembers.toNat.dist c.desiredMembers.toNat + 11 :=
          Nat.add_le_add_right (Nat.mul_le_mul_left 2 hgap) 11

/-- Two members are added within fifteen calls. -/
theorem converges_encrypted : (∀ n, ∃ outcome, Reconciler.standard.resultAfter (fun _ => default)
      ⟨"db", "example"⟩ (.provided .encrypted) n = .ok outcome) ∧
    ∃ n, n + 1 ≤ 15 ∧
      (∀ m < n, Reconciler.standard.resultAfter (fun _ => default) ⟨"db", "example"⟩
        (.provided .encrypted) m ≠ .ok .done) ∧
      Reconciler.standard.resultAfter (fun _ => default) ⟨"db", "example"⟩
        (.provided .encrypted) n = .ok .done ∧
      (Reconciler.standard.storeAfter (fun _ => default) ⟨"db", "example"⟩
        (.provided .encrypted) (n + 1)).Reached .encrypted :=
  converges Pacer.silent_none (fun _ => default) (Store.written_provided .encrypted) rfl
    ⟨.fresh, rfl, rfl⟩ (by decide +kernel) fun _ => Store.servesTls_provided .encrypted

end Runs
end Reconciliation
