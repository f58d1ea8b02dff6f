/-
# Members leave the config before the workload shrinks

The replicas of a member that is removed go away once the workload is written, so its
address should have left the automation config by then.  A pass publishes the config
once when it removes members, before its first step.  That is in time for the first
member that is removed; every further one goes away while it is still listed.
-/

import Reconciliation.Proofs.Scaling.Configuration

namespace Reconciliation

/-! ## What is listed and what is asked for -/

/-- How many replicas the workload is asked for, none when it is not there. -/
def Store.replicaCount (s : Store) (name : ResourceName) : Nat :=
  ((s.workloads name).map fun w => w.replicas.toNat).getD 0

/-- How many members the automation config lists, none when it is not there. -/
def Store.listedCount (s : Store) (name : ResourceName) : Nat :=
  ((s.automationConfigs name).map fun config => config.members.length).getD 0

/-- After the call the config lists no more members than there are replicas, and if the
call wrote a workload with fewer replicas, that was so before. -/
def Call.Orderly (call : Call) (name : ResourceName) : Prop :=
  call.after.listedCount name ≤ call.after.replicaCount name ∧
    (call.stage? name = some .deployWorkload →
      call.after.replicaCount name < call.before.replicaCount name →
      call.before.listedCount name ≤ call.after.replicaCount name)

instance (call : Call) (name : ResourceName) : Decidable (call.Orderly name) :=
  inferInstanceAs (Decidable (_ ∧ (_ → _ → _)))

namespace Scene

/-- How many replicas the workload of the scene is asked for. -/
def replicaCount (a : Scene) : Nat := (a.workload.map fun w => w.replicas.toNat).getD 0

/-- How many members the config of the scene lists. -/
def listedCount (a : Scene) : Nat := (a.config.map fun config => config.members.length).getD 0

variable {stage after : Stage} {a b : Scene} {conclusion : Conclusion}

theorem replicaCount_eq_of_replicas? (h : b.replicas? = a.replicas?) :
    b.replicaCount = a.replicaCount := by
  have hmap : ∀ c : Scene, c.replicaCount = (c.replicas?.map UInt32.toNat).getD 0 := by
    intro c
    rw [replicaCount, replicas?, Option.map_map]
    rfl
  rw [hmap, hmap, h]

theorem listedCount_eq_of_config (h : b.config = a.config) : b.listedCount = a.listedCount := by
  rw [listedCount, listedCount, h]

/-- A published config lists the members of the pass. -/
theorem listedCount_published (a : Scene) : a.published.listedCount = a.next := by
  obtain ⟨config, hconfig, hserves⟩ := serves_published (.refl a.cluster)
  rw [listedCount, hconfig, Option.map_some, Option.getD_some, hserves.1]
  simp [DbCluster.hosts, next]

/-- Each step changes one number at most, and sets it to the members of the pass. -/
structure Counts (stage : Stage) (a b : Scene) : Prop where
  desired : b.desired = a.desired
  current : b.current = if stage = .updateStatus then a.next else a.current
  replicas : b.replicaCount = if stage = .deployWorkload then a.next else a.replicaCount
  listed : b.listedCount = if stage = .deployAutomationConfig then a.next else a.listedCount

theorem Step.counts (h : a.Step false stage conclusion after b) : Counts stage a b where
  desired := h.frame.desired_eq
  current := by
    split
    · subst stage
      exact h.current_eq
    · exact h.frame.current_eq ‹_›
  replicas := by
    split
    · subst stage
      have hreplicas := h.replicas?_eq
      obtain ⟨w, hw, hcount⟩ := Option.map_eq_some_iff.1 hreplicas
      rw [replicaCount, hw, Option.map_some, Option.getD_some, hcount, next]
    · exact replicaCount_eq_of_replicas? (h.frame.replicas ‹_›)
  listed := by
    split
    · subst stage
      rw [listedCount_eq_of_config h.config_eq, listedCount_published]
    · exact listedCount_eq_of_config (h.frame.config ‹_›)

theorem Settles.counts (h : a.Settles b) : Counts .startFresh a b where
  desired := (h.frame .startFresh).desired_eq
  current := (h.frame .startFresh).current_eq nofun
  replicas := replicaCount_eq_of_replicas? h.replicas?_eq
  listed := listedCount_eq_of_config h.config_eq

end Scene

/-! ## Passes that remove at most one member -/

/-- What the numbers of a scene are before a stage, when at most one member is to be
removed. -/
def Scene.InOrder (a : Scene) : Stage → Prop
  | .deployAutomationConfig => (a.current = a.desired + 1 ∧ a.replicaCount = a.current) ∨
      (a.current ≤ a.desired ∧ a.next = a.desired ∧ a.replicaCount = a.desired)
  | .deployWorkload => (a.current = a.desired + 1 ∧ a.listedCount = a.desired) ∨
      (a.current ≤ a.desired ∧ a.listedCount ≤ a.current)
  | .resetUpdateStrategy =>
      a.next = a.desired ∧ a.listedCount = a.desired ∧ a.replicaCount = a.desired
  | .updateStatus =>
      (a.next = a.desired ∧ a.listedCount = a.desired ∧ a.replicaCount = a.desired) ∨
      (a.next ≠ a.desired ∧ a.current < a.desired ∧ a.listedCount ≤ a.current ∧
        a.replicaCount = a.next)
  | _ => a.current ≤ a.desired + 1 ∧ a.listedCount = a.current ∧ a.replicaCount = a.current

theorem Scene.inOrder_of_prepares {a : Scene} {stage : Stage} (hstage : stage.prepares = true)
    (h : a.current ≤ a.desired + 1 ∧ a.listedCount = a.current ∧ a.replicaCount = a.current) :
    a.InOrder stage := by
  cases stage <;> first | exact h | cases hstage

theorem Scene.inOrder_of_deployed {a : Scene} {stage : Stage}
    (hstage : stage = .resetUpdateStrategy ∨ stage = .updateStatus)
    (h : a.next = a.desired ∧ a.listedCount = a.desired ∧ a.replicaCount = a.desired) :
    a.InOrder stage := by
  rcases hstage with rfl | rfl
  · exact h
  · exact .inl h

/-- What holds before a stage when at most one member is to be removed. -/
structure Scene.Ordered (stage : Stage) (a : Scene) : Prop where
  deployed : a.workload ≠ none
  listed_le : a.listedCount ≤ a.replicaCount
  inOrder : a.InOrder stage

namespace Scene.Ordered

variable {stage after : Stage} {a b : Scene} {conclusion : Conclusion}

theorem of_settles (h : Ordered stage a) (hab : a.Settles b) : Ordered stage b := by
  obtain ⟨hdesired, hcurrent, hreplicas, hlisted⟩ := hab.counts
  have hnext := (hab.frame .startFresh).next_eq nofun
  simp only [reduceCtorEq, if_false] at hcurrent hreplicas hlisted
  refine ⟨hab.workload_ne_none h.deployed, ?_, ?_⟩
  · rw [hlisted, hreplicas]
    exact h.listed_le
  · have hin := h.inOrder
    unfold InOrder at hin ⊢
    rw [hdesired, hcurrent, hreplicas, hlisted, hnext]
    exact hin

/-- A step needs the config first exactly when members are to be removed. -/
theorem needsConfigFirst_iff (h : Ordered stage a) (hstep : a.Step false stage conclusion after b) :
    a.NeedsConfigFirst b ↔ a.desired < a.current :=
  ⟨fun hneeds => hneeds.resolve_left (hstep.workload_ne_none h.deployed), .inr⟩

/-- A step before the deployment begins with the config when a member is to be removed. -/
theorem step_of_prepares (h : Ordered stage a) (hprepares : stage.prepares = true)
    (hin : a.current ≤ a.desired + 1 ∧ a.listedCount = a.current ∧ a.replicaCount = a.current)
    (hstep : a.Step false stage conclusion after b) :
    b.listedCount ≤ b.replicaCount ∧ b.InOrder after := by
  obtain ⟨hdesired, hcurrent, hreplicas, hlisted⟩ := hstep.counts
  have hneeds := h.needsConfigFirst_iff hstep
  have hnext := a.next_cases
  have hother : ∀ other, other.prepares = false → stage ≠ other := by
    rintro other hother rfl
    exact absurd hprepares (Bool.eq_false_iff.1 hother)
  rw [if_neg (hother _ rfl)] at hcurrent hreplicas hlisted
  refine ⟨by omega, ?_⟩
  rcases hstep.route_of_prepares hprepares with hprepares | ⟨hfirst, rfl⟩ | ⟨hfirst, rfl⟩
  · exact inOrder_of_prepares hprepares (by omega)
  · rw [hneeds] at hfirst
    simp only [InOrder]
    omega
  · rw [hneeds] at hfirst
    simp only [InOrder]
    omega

/-- The config lists the wanted members once it is published. -/
theorem step_deployAutomationConfig (h : Ordered .deployAutomationConfig a)
    (hstep : a.Step false .deployAutomationConfig conclusion after b) :
    b.listedCount ≤ b.replicaCount ∧ b.InOrder after := by
  obtain ⟨hdesired, hcurrent, hreplicas, hlisted⟩ := hstep.counts
  have hneeds := h.needsConfigFirst_iff hstep
  have hin := h.inOrder
  have hnext := a.next_cases
  have hnext' := hstep.frame.next_eq nofun
  simp only [reduceCtorEq, if_false, if_true] at hcurrent hreplicas hlisted
  simp only [InOrder] at hin
  refine ⟨by omega, ?_⟩
  rcases hstep.route with rfl | ⟨hfirst, rfl⟩ | ⟨hfirst, hafter⟩
  · simp only [InOrder]
    omega
  · rw [hneeds] at hfirst
    simp only [InOrder]
    omega
  · rw [hneeds] at hfirst
    refine inOrder_of_deployed (hafter ▸ b.afterDeployment_cases) ?_
    omega

/-- The workload has at least the replicas that are listed once it is written. -/
theorem step_deployWorkload (h : Ordered .deployWorkload a)
    (hstep : a.Step false .deployWorkload conclusion after b) :
    b.listedCount ≤ b.replicaCount ∧ b.InOrder after := by
  obtain ⟨hdesired, hcurrent, hreplicas, hlisted⟩ := hstep.counts
  have hin := h.inOrder
  have hnext := a.next_cases
  have hnext' := hstep.frame.next_eq nofun
  simp only [reduceCtorEq, if_false, if_true] at hcurrent hreplicas hlisted
  simp only [InOrder] at hin
  refine ⟨by omega, ?_⟩
  rcases hstep.route with rfl | ⟨hlast, rfl⟩ | ⟨hlast, hdown, hafter⟩ | ⟨hlast, hup, rfl⟩
  · simp only [InOrder]
    omega
  · simp only [InOrder]
    omega
  · refine inOrder_of_deployed (hafter ▸ b.afterDeployment_cases) ?_
    omega
  · simp only [InOrder]
    omega

/-- Every step keeps the numbers in order. -/
theorem step (h : Ordered stage a) (hstep : a.Step false stage conclusion after b) :
    Ordered after b := by
  obtain ⟨hdesired, hcurrent, hreplicas, hlisted⟩ := hstep.counts
  have hroute := hstep.route
  have hin := h.inOrder
  suffices b.listedCount ≤ b.replicaCount ∧ b.InOrder after from
    ⟨hstep.workload_ne_none h.deployed, this.1, this.2⟩
  cases stage with
  | startFresh | validateSpec | createService | tlsValidation | createTlsResources =>
    exact h.step_of_prepares rfl hin hstep
  | deployAutomationConfig => exact h.step_deployAutomationConfig hstep
  | deployWorkload => exact h.step_deployWorkload hstep
  | resetUpdateStrategy =>
    have hnext := hstep.frame.next_eq nofun
    simp only [reduceCtorEq, if_false] at hcurrent hreplicas hlisted
    simp only [InOrder] at hin
    refine ⟨by omega, inOrder_of_deployed hroute ?_⟩
    omega
  | updateStatus =>
    have hnext := a.next_cases
    simp only [reduceCtorEq, if_false, if_true] at hcurrent hreplicas hlisted
    simp only [InOrder] at hin
    refine ⟨by omega, ?_⟩
    rcases hroute with ⟨hmore, rfl⟩ | ⟨hlast, rfl⟩
    · simp only [InOrder]
      omega
    · simp only [InOrder]
      omega
  | reconciliationEnd =>
    obtain rfl : after = .startFresh := hroute
    simp only [reduceCtorEq, if_false] at hcurrent hreplicas hlisted
    simp only [InOrder] at hin ⊢
    omega

end Scene.Ordered

/-! ## Passes that remove more members -/

/-- What the numbers of a scene are before a stage that is reached before a second one
of the first members is removed. -/
def Scene.AtFirst (first : Nat) (a : Scene) : Stage → Prop
  | .deployAutomationConfig => a.current = first ∧ a.replicaCount = first ∧
      (a.listedCount = first ∨ a.listedCount + 1 = first)
  | .deployWorkload => a.listedCount + 1 = first ∧
      (a.current = first ∧ (a.replicaCount = first ∨ a.replicaCount + 1 = first) ∨
        a.current + 1 = first ∧ a.replicaCount + 1 = first)
  | .updateStatus =>
      a.current = first ∧ a.replicaCount + 1 = first ∧ a.listedCount + 1 = first
  | .resetUpdateStrategy | .reconciliationEnd => False
  | _ => a.current = first ∧ a.replicaCount = first ∧ a.listedCount = first

theorem Scene.atFirst_of_prepares {first : Nat} {a : Scene} {stage : Stage}
    (hstage : stage.prepares = true)
    (h : a.current = first ∧ a.replicaCount = first ∧ a.listedCount = first) :
    a.AtFirst first stage := by
  cases stage <;> first | exact h | cases hstage

/-- What holds before a stage while at most one of several members is removed. -/
structure Scene.RemovesOne (first : Nat) (stage : Stage) (a : Scene) : Prop where
  deployed : a.workload ≠ none
  several : a.desired + 2 ≤ first
  atFirst : a.AtFirst first stage

namespace Scene.RemovesOne

variable {first : Nat} {stage after : Stage} {a b : Scene} {conclusion : Conclusion}

theorem of_settles (h : RemovesOne first stage a) (hab : a.Settles b) :
    RemovesOne first stage b := by
  obtain ⟨hdesired, hcurrent, hreplicas, hlisted⟩ := hab.counts
  simp only [reduceCtorEq, if_false] at hcurrent hreplicas hlisted
  refine ⟨hab.workload_ne_none h.deployed, ?_, ?_⟩
  · rw [hdesired]
    exact h.several
  · have hat := h.atFirst
    unfold AtFirst at hat ⊢
    rw [hcurrent, hreplicas, hlisted]
    exact hat

/-- While the first member is removed there are more to follow. -/
theorem isStillScaling (h : RemovesOne first .updateStatus a) :
    a.cluster.isStillScaling = true := by
  have hnext := a.next_cases
  have hseveral := h.several
  obtain ⟨hcurrent, -, -⟩ : a.current = first ∧ a.replicaCount + 1 = first ∧
    a.listedCount + 1 = first := h.atFirst
  rw [a.isStillScaling_iff]
  omega

/-- A step leaves all but one of the first members, or it removes a second one that is
still listed. -/
theorem step (h : RemovesOne first stage a) (hstep : a.Step false stage conclusion after b) :
    (RemovesOne first after b ∧ b.listedCount ≤ b.replicaCount ∧ first ≤ b.replicaCount + 1) ∨
      (b.replicaCount < b.listedCount ∧ b.replicaCount + 1 < first) := by
  obtain ⟨hdesired, hcurrent, hreplicas, hlisted⟩ := hstep.counts
  have hroute := hstep.route
  have hat := h.atFirst
  have hseveral := h.several
  have hnext := a.next_cases
  have hkeeps : b.AtFirst first after → b.listedCount ≤ b.replicaCount →
      first ≤ b.replicaCount + 1 → RemovesOne first after b ∧
        b.listedCount ≤ b.replicaCount ∧ first ≤ b.replicaCount + 1 := fun hat hle hmany =>
    ⟨⟨hstep.workload_ne_none h.deployed, by omega, hat⟩, hle, hmany⟩
  cases stage with
  | startFresh | validateSpec | createService | tlsValidation | createTlsResources =>
    simp only [reduceCtorEq, if_false] at hcurrent hreplicas hlisted
    simp only [AtFirst] at hat
    refine .inl (hkeeps ?_ (by omega) (by omega))
    rcases hroute with hprepares | ⟨-, rfl⟩ | ⟨hfirst, -⟩
    · exact atFirst_of_prepares hprepares (by omega)
    · simp only [AtFirst]
      omega
    · exact absurd (.inr (by omega)) hfirst
  | deployAutomationConfig =>
    simp only [reduceCtorEq, if_false, if_true] at hcurrent hreplicas hlisted
    simp only [AtFirst] at hat
    refine .inl (hkeeps ?_ (by omega) (by omega))
    rcases hroute with rfl | ⟨-, rfl⟩ | ⟨hfirst, -⟩
    · simp only [AtFirst]
      omega
    · simp only [AtFirst]
      omega
    · exact absurd (.inr (by omega)) hfirst
  | deployWorkload =>
    simp only [reduceCtorEq, if_false, if_true] at hcurrent hreplicas hlisted
    simp only [AtFirst] at hat
    by_cases hsecond : a.current = first
    · refine .inl (hkeeps ?_ (by omega) (by omega))
      rcases hroute with rfl | ⟨-, rfl⟩ | ⟨hlast, -, -⟩ | ⟨hlast, -, -⟩
      · simp only [AtFirst]
        omega
      · simp only [AtFirst]
        omega
      · omega
      · omega
    · exact .inr (by omega)
  | updateStatus =>
    simp only [reduceCtorEq, if_false, if_true] at hcurrent hreplicas hlisted
    simp only [AtFirst] at hat
    refine .inl (hkeeps ?_ (by omega) (by omega))
    rcases hroute with ⟨-, rfl⟩ | ⟨hlast, -⟩
    · simp only [AtFirst]
      omega
    · omega
  | resetUpdateStrategy | reconciliationEnd => exact hat.elim

end Scene.RemovesOne

/-! ## Runs -/

namespace Store.Shows

variable {s : Store} {name : ResourceName} {a : Scene}

theorem replicaCount_eq (h : s.Shows name a) : s.replicaCount name = a.replicaCount := by
  rw [Store.replicaCount, h.workload, Scene.replicaCount]

theorem listedCount_eq (h : s.Shows name a) : s.listedCount name = a.listedCount := by
  rw [Store.listedCount, h.config, Scene.listedCount]

end Store.Shows

/-- The workload is not written in the same call as the config, so it is enough to look
at the store after a call. -/
theorem Call.Seen.orderly_iff_listed_le {call : Call} {name : ResourceName} {stage after : Stage}
    {a b : Scene} (h : call.Seen name false stage a after b) :
    call.Orderly name ↔ b.listedCount ≤ b.replicaCount := by
  rw [Call.Orderly, h.stage?_eq, h.after.listedCount_eq, h.after.replicaCount_eq,
    h.before.listedCount_eq]
  refine ⟨And.left, fun hle => ⟨hle, fun hstage _ => ?_⟩⟩
  obtain rfl := Option.some.inj hstage
  rwa [← Scene.listedCount_eq_of_config (h.step.frame.config nofun)]

section Runs

variable {r : Reconciler} {instant : Bool} {name : ResourceName} {start s : Store} {c : DbCluster}
  {calls : List Call}

/-- A run is orderly when at most one member is to be removed. -/
theorem Scene.Ordered.of_run (hr : r.pacer.Silent) (hbegins : start.Begins name c)
    (hrun : Run (r.Calls instant name) Store.Reports start calls s)
    (hstart : Ordered initialStage (start.opening name c)) :
    ∀ call ∈ calls, call.Orderly name := by
  obtain ⟨_, _, -, -, -, horderly⟩ := Run.invariant
    (fun calls stage a => Ordered stage a ∧ ∀ call ∈ calls, call.Orderly name)
    (r.stepsBy_calls hr instant name) hbegins hrun ⟨hstart, nofun⟩
    (fun ⟨h, hcalls⟩ hab => ⟨h.of_settles hab, hcalls⟩)
    (fun ⟨h, hcalls⟩ hseen => by
      have hb := h.step hseen.step
      exact ⟨hb, List.forall_mem_cons.2 ⟨hseen.orderly_iff_listed_le.2 hb.listed_le, hcalls⟩⟩)
  exact horderly

/-- When several members are to be removed, a run is orderly and does not publish the
cluster as running as long as all but one of the first members are left, and no longer. -/
theorem Scene.RemovesOne.of_run {first : Nat} (hr : r.pacer.Silent) (hbegins : start.Begins name c)
    (hrun : Run (r.Calls instant name) Store.Reports start calls s)
    (hstart : RemovesOne first initialStage (start.opening name c)) :
    (∀ call ∈ calls, call.Orderly name ∧ first ≤ call.after.replicaCount name + 1 ∧
        ¬ call.PublishesRunning name) ∨
      ∃ call ∈ calls, ¬ call.Orderly name ∧ call.after.replicaCount name + 1 < first := by
  obtain ⟨_, _, -, -, hcalls⟩ := Run.invariant
    (fun calls stage a => (RemovesOne first stage a ∧ ∀ call ∈ calls, call.Orderly name ∧
        first ≤ call.after.replicaCount name + 1 ∧ ¬ call.PublishesRunning name) ∨
      ∃ call ∈ calls, ¬ call.Orderly name ∧ call.after.replicaCount name + 1 < first)
    (r.stepsBy_calls hr instant name) hbegins hrun (.inl ⟨hstart, nofun⟩)
    (fun h hab => h.imp_left fun ⟨h, hcalls⟩ => ⟨h.of_settles hab, hcalls⟩)
    (fun h hseen => by
      rcases h with ⟨h, hcalls⟩ | ⟨call, hcall, hlate⟩
      · rcases h.step hseen.step with ⟨hb, hle, hmany⟩ | ⟨hlt, hfew⟩
        · refine .inl ⟨hb, List.forall_mem_cons.2 ⟨⟨?_, ?_, ?_⟩, hcalls⟩⟩
          · exact hseen.orderly_iff_listed_le.2 hle
          · rwa [hseen.after.replicaCount_eq]
          · intro hrunning
            obtain ⟨rfl, hfinished⟩ := hseen.publishesRunning_iff.1 hrunning
            rw [h.isStillScaling] at hfinished
            cases hfinished
        · refine .inr ⟨_, .head _, ?_, ?_⟩
          · rw [hseen.orderly_iff_listed_le]
            omega
          · rwa [hseen.after.replicaCount_eq]
      · exact .inr ⟨call, .tail _ hcall, hlate⟩)
  exact hcalls.imp_left And.right

/-- **A run from a cluster whose counts agree is orderly exactly when at most one member
is to be removed or all but one are still there.**  Once such a run has published the
cluster as running, it was orderly exactly when at most one was to be removed. -/
theorem orderly_run_iff (hr : r.pacer.Silent) (hbegins : start.Begins name c)
    (hreplicas : start.replicas? name = some c.currentMembers)
    (hlisted : start.listedCount name = c.currentMembers.toNat)
    (hrun : Run (r.Calls instant name) Store.Reports start calls s) :
    ((∀ call ∈ calls, call.Orderly name) ↔
      c.currentMembers.toNat ≤ c.desiredMembers.toNat + 1 ∨
        ∀ call ∈ calls, c.currentMembers.toNat ≤ call.after.replicaCount name + 1) ∧
    ((∃ call ∈ calls, call.PublishesRunning name) →
      ((∀ call ∈ calls, call.Orderly name) ↔
        c.currentMembers.toNat ≤ c.desiredMembers.toNat + 1)) := by
  obtain ⟨w, hw, hcount⟩ := Option.map_eq_some_iff.1 hreplicas
  have hdeployed : (start.opening name c).workload ≠ none := by
    show start.workloads name ≠ none
    rw [hw]
    nofun
  have hreplicas' : (start.opening name c).replicaCount = c.currentMembers.toNat := by
    show ((start.workloads name).map _).getD 0 = _
    rw [hw, Option.map_some, Option.getD_some, hcount]
  by_cases hone : c.currentMembers.toNat ≤ c.desiredMembers.toNat + 1
  · have horderly := Scene.Ordered.of_run hr hbegins hrun
      ⟨hdeployed, by rw [hreplicas']; exact Nat.le_of_eq hlisted, hone, hlisted, hreplicas'⟩
    exact ⟨iff_of_true horderly (.inl hone), fun _ => iff_of_true horderly hone⟩
  · have hseveral := Scene.RemovesOne.of_run hr hbegins hrun
      ⟨hdeployed, Nat.not_le.1 hone, rfl, hreplicas', hlisted⟩
    rcases hseveral with hcalls | ⟨late, hlate, hnot, hfew⟩
    · refine ⟨iff_of_true (fun call h => (hcalls call h).1)
        (.inr fun call h => (hcalls call h).2.1), ?_⟩
      rintro ⟨call, hcall, hrunning⟩
      exact absurd hrunning (hcalls call hcall).2.2
    · have hdisorder : ¬ ∀ call ∈ calls, call.Orderly name := fun h => hnot (h late hlate)
      refine ⟨iff_of_false hdisorder ?_, fun _ => iff_of_false hdisorder hone⟩
      rintro (h | h)
      · exact hone h
      · have hmany := h late hlate
        omega

end Runs

/-- Of two members one is removed, and its address leaves the config in time. -/
theorem orderly_run_of_one_removed : ∃ last calls s,
    Run (Reconciler.standard.Calls true ⟨"db", "example"⟩) Store.Reports
      (.deployedFor ⟨2, "6.0.5", .standard⟩ (.scaling 2 1)) (last :: calls) s ∧
    last.PublishesRunning ⟨"db", "example"⟩ ∧
    ∀ call ∈ last :: calls, call.Orderly ⟨"db", "example"⟩ := by
  obtain ⟨last, calls, s, hrun, hrunning⟩ :=
    Reconciler.standard.exists_run true default ⟨"db", "example"⟩
      (.deployedFor ⟨2, "6.0.5", .standard⟩ (.scaling 2 1)) (.replicate 5 (.call false)) (by decide)
      (P := fun last _ => last.PublishesRunning ⟨"db", "example"⟩) (by decide +kernel)
  have horderly := orderly_run_iff Pacer.silent_none (Store.begins_scaling _ 2 1) (by decide)
    (by decide) hrun
  exact ⟨last, calls, s, hrun, hrunning, (horderly.2 ⟨last, .head _, hrunning⟩).2 (by decide)⟩

/-- It is not true that every run is orderly: of five members two are removed, and the
second one loses its replica while the config lists four members. -/
theorem not_forall_orderly_run : ¬ ∀ {r : Reconciler} {instant : Bool} {name : ResourceName}
    {start s : Store} {c : DbCluster} {calls : List Call}, r.pacer.Silent →
    specProblem? c = none → start.Begins name c →
    start.replicas? name = some c.currentMembers →
    start.listedCount name = c.currentMembers.toNat →
    Run (r.Calls instant name) Store.Reports start calls s →
    ∀ call ∈ calls, call.Orderly name := by
  intro h
  obtain ⟨last, calls, s, hrun, hlast⟩ :=
    Reconciler.standard.exists_run true default ⟨"db", "example"⟩
      (.deployedFor ⟨5, "6.0.5", .standard⟩ (.scaling 5 3)) (.replicate 6 (.call false)) (by decide)
      (P := fun last _ => ¬ last.Orderly ⟨"db", "example"⟩) (by decide +kernel)
  exact hlast (h Pacer.silent_none (by decide +kernel) (Store.begins_scaling _ 5 3) (by decide)
    (by decide) hrun last (.head _))

end Reconciliation
