/-
# The way to the wanted members

A step of the scaling adds or removes one member, or takes a cluster that was never deployed
to all its members at once.  It stays between the members there are and the wanted ones
(`nextMemberCount_between`), so it never wraps around, and it comes to no members at all only
where none are wanted (`nextMemberCount_ne_zero`): nothing on the way down is taken for a
cluster that was never deployed.

`scalingSteps` ranks the numbers of members.  Every step takes one off the rank
(`scalingSteps_nextMemberCount`), so the wanted number is reached after exactly that many
steps (`iterate_nextMemberCount_eq_desired_iff`).  A cluster is still scaling as long as the
rank is two or more: the last step is one that ends the scaling
(`nextMemberCount_ne_desired_iff`).
-/

import Mathlib.Data.Nat.Dist
import Mathlib.Logic.Function.Iterate
import Reconciliation.Proofs.Cluster.Run

namespace Reconciliation

/-- How many steps of the scaling lead from one number of members to another: one for each
member that is added or removed, and a single one if the cluster was never deployed. -/
def scalingSteps (current desired : UInt32) : ℕ :=
  if current = desired then 0
  else if current = 0 then 1
  else current.toNat.dist desired.toNat

variable (current desired : UInt32)

/-! ## One step -/

/-- **A step is worked out without wrap-around**: it is the same one over the integers. -/
theorem nextMemberCount_exact : ((nextMemberCount current desired).toNat : ℤ) =
    if current = 0 ∨ current = desired then (desired.toNat : ℤ)
    else if current < desired then (current.toNat : ℤ) + 1
    else (current.toNat : ℤ) - 1 := by
  have hnext := toNat_nextMemberCount current desired
  have hzero : current = 0 ↔ current.toNat = 0 := UInt32.toNat_inj.symm
  simp only [hzero, ← UInt32.toNat_inj, UInt32.lt_iff_toNat_lt]
  split_ifs at hnext ⊢ <;> omega

/-- A step stays between the members there are and the wanted ones. -/
theorem nextMemberCount_between :
    (current ≤ nextMemberCount current desired ∧ nextMemberCount current desired ≤ desired) ∨
      (desired ≤ nextMemberCount current desired ∧
        nextMemberCount current desired ≤ current) := by
  have hnext := nextMemberCount_cases current desired
  simp only [UInt32.le_iff_toNat_le]
  omega

/-- The members stay as they are only if they are the wanted ones. -/
theorem nextMemberCount_eq_current_iff :
    nextMemberCount current desired = current ↔ current = desired := by
  have hnext := nextMemberCount_cases current desired
  simp only [← UInt32.toNat_inj]
  omega

/-- A cluster that was deployed comes one member closer. -/
theorem dist_nextMemberCount (hdeployed : current ≠ 0) (hother : current ≠ desired) :
    (nextMemberCount current desired).toNat.dist desired.toNat + 1 =
      current.toNat.dist desired.toNat := by
  have hnext := nextMemberCount_cases current desired
  have hpositive : current.toNat ≠ 0 := fun h => hdeployed (UInt32.toNat_inj.1 h)
  have hapart : current.toNat ≠ desired.toNat := fun h => hother (UInt32.toNat_inj.1 h)
  rw [Nat.dist, Nat.dist]
  omega

variable {desired} in
/-- **No step leads to a cluster without members**, unless none are wanted. -/
theorem nextMemberCount_ne_zero (hdesired : desired ≠ 0) : nextMemberCount current desired ≠ 0 := by
  have hnext := nextMemberCount_cases current desired
  have hpositive : desired.toNat ≠ 0 := fun h => hdesired (UInt32.toNat_inj.1 h)
  intro hzero
  rw [hzero, UInt32.toNat_zero] at hnext
  omega

/-! ## The rank -/

theorem scalingSteps_eq_zero_iff : scalingSteps current desired = 0 ↔ current = desired := by
  refine ⟨fun hzero => by_contra fun hother => ?_, fun hsame => if_pos hsame⟩
  rw [scalingSteps, if_neg hother] at hzero
  split at hzero
  · exact one_ne_zero hzero
  · exact hother (UInt32.toNat_inj.1 (Nat.eq_of_dist_eq_zero hzero))

variable {current} in
/-- A cluster that was deployed makes one step for each member. -/
theorem scalingSteps_of_ne_zero (hdeployed : current ≠ 0) :
    scalingSteps current desired = current.toNat.dist desired.toNat := by
  rw [scalingSteps, if_neg hdeployed]
  split
  · rename_i hsame
    rw [hsame, Nat.dist_self]
  · rfl

/-- **Every step takes one off the rank.** -/
theorem scalingSteps_nextMemberCount :
    scalingSteps (nextMemberCount current desired) desired = scalingSteps current desired - 1 := by
  rcases eq_or_ne current desired with rfl | hother
  · rw [nextMemberCount_self, (scalingSteps_eq_zero_iff current current).2 rfl]
  rcases eq_or_ne current 0 with rfl | hdeployed
  · rw [nextMemberCount_zero, (scalingSteps_eq_zero_iff desired desired).2 rfl, scalingSteps,
      if_neg hother, if_pos rfl]
  · have hcloser := dist_nextMemberCount current desired hdeployed hother
    rw [scalingSteps_of_ne_zero desired hdeployed, ← hcloser, Nat.add_sub_cancel]
    by_cases hreached : nextMemberCount current desired = desired
    · rw [hreached, Nat.dist_self, scalingSteps_eq_zero_iff]
    · refine scalingSteps_of_ne_zero desired fun hnone => ?_
      -- a step that ends at no members is one to what is wanted
      obtain rfl : desired = 0 := by_contra fun h => nextMemberCount_ne_zero current h hnone
      exact hreached hnone

/-! ## Many steps -/

/-- After so many steps the rank is smaller by their number. -/
theorem scalingSteps_iterate (k : ℕ) :
    scalingSteps ((nextMemberCount · desired)^[k] current) desired =
      scalingSteps current desired - k := by
  induction k with
  | zero => rfl
  | succ k ih =>
    rw [Function.iterate_succ_apply', scalingSteps_nextMemberCount, ih, Nat.sub_sub]

/-- **The wanted members are reached after as many steps as the rank says**, not before, and
they stay. -/
theorem iterate_nextMemberCount_eq_desired_iff (k : ℕ) :
    (nextMemberCount · desired)^[k] current = desired ↔ scalingSteps current desired ≤ k := by
  rw [← scalingSteps_eq_zero_iff, scalingSteps_iterate, Nat.sub_eq_zero_iff_le]

variable {desired} in
/-- On the way the members are none only at the start. -/
theorem of_iterate_nextMemberCount_eq_zero (hdesired : desired ≠ 0) {k : ℕ}
    (h : (nextMemberCount · desired)^[k] current = 0) : k = 0 ∧ current = 0 := by
  cases k with
  | zero => exact ⟨rfl, h⟩
  | succ k =>
    rw [Function.iterate_succ_apply'] at h
    exact absurd h (nextMemberCount_ne_zero _ hdesired)

/-! ## Still scaling -/

/-- A step falls short if two or more are to be made. -/
theorem nextMemberCount_ne_desired_iff :
    nextMemberCount current desired ≠ desired ↔ 2 ≤ scalingSteps current desired :=
  (not_congr (iterate_nextMemberCount_eq_desired_iff current desired 1)).trans Nat.not_le

theorem DbCluster.isStillScaling_iff_two_le (c : DbCluster) :
    c.isStillScaling = true ↔ 2 ≤ scalingSteps c.currentMembers c.desiredMembers := by
  rw [← nextMemberCount_ne_desired_iff, isStillScaling, decide_eq_true_iff, membersThisPass]

theorem Context.isStillScaling_iff_two_le (ctx : Context) :
    ctx.isStillScaling = true ↔
      2 ≤ scalingSteps ctx.observedStatus.currentMembers ctx.cluster.desiredMembers := by
  rw [← nextMemberCount_ne_desired_iff, isStillScaling, decide_eq_true_iff]

variable {current desired} in
/-- After so many steps, two more are left if the rank is greater by two. -/
theorem two_le_scalingSteps_iff {count : UInt32} {k : ℕ}
    (hcount : count = (nextMemberCount · desired)^[k] current) :
    2 ≤ scalingSteps count desired ↔ k + 2 ≤ scalingSteps current desired := by
  rw [hcount, scalingSteps_iterate]
  omega

/-- **Steps of the scaling are safe and reach what is wanted**, whatever the numbers.  A step
is exact, stays between both numbers, moves unless they are the same, and brings a cluster
that was deployed one member closer.  Step by step the wanted number is reached after
exactly `scalingSteps` steps; unless none are wanted, the members are none at most before the
first one.  A cluster that counts what some of these steps lead to, or a tick that has
observed it, is still scaling exactly as long as two or more steps are left. -/
theorem scaling_reaches_desired :
    let next := nextMemberCount current desired
    let reached := fun k => (nextMemberCount · desired)^[k] current
    ((next.toNat : ℤ) =
      if current = 0 ∨ current = desired then (desired.toNat : ℤ)
      else if current < desired then (current.toNat : ℤ) + 1
      else (current.toNat : ℤ) - 1) ∧
    ((current ≤ next ∧ next ≤ desired) ∨ (desired ≤ next ∧ next ≤ current)) ∧
    (next = current ↔ current = desired) ∧
    (current ≠ 0 → current ≠ desired →
      next.toNat.dist desired.toNat + 1 = current.toNat.dist desired.toNat) ∧
    (∀ k, reached k = desired ↔ scalingSteps current desired ≤ k) ∧
    (desired ≠ 0 → ∀ k, reached k = 0 → k = 0 ∧ current = 0) ∧
    (∀ k, ∀ c : DbCluster, c.currentMembers = reached k → c.desiredMembers = desired →
      (c.isStillScaling = true ↔ k + 2 ≤ scalingSteps current desired)) ∧
    (∀ k, ∀ ctx : Context, ctx.observedStatus.currentMembers = reached k →
      ctx.cluster.desiredMembers = desired →
        (ctx.isStillScaling = true ↔ k + 2 ≤ scalingSteps current desired)) := by
  refine ⟨nextMemberCount_exact current desired, nextMemberCount_between current desired,
    nextMemberCount_eq_current_iff current desired, dist_nextMemberCount current desired,
    iterate_nextMemberCount_eq_desired_iff current desired,
    fun hdesired k => of_iterate_nextMemberCount_eq_zero current hdesired, ?_, ?_⟩
  · rintro k c hcount rfl
    exact c.isStillScaling_iff_two_le.trans (two_le_scalingSteps_iff hcount)
  · rintro k ctx hcount rfl
    exact ctx.isStillScaling_iff_two_le.trans (two_le_scalingSteps_iff hcount)

/-- A tick that has observed some members and counted others since. -/
def Context.counting (observed counted wanted : UInt32) : Context :=
  ⟨.scaling counted wanted, (DbCluster.scaling observed wanted).status, none, .ofSeconds 0, default⟩

/-- The largest cluster is scaled down to one member without ever losing all of them.  With
three members it is still scaling and with two it is not, but a tick that has observed three
goes on even if it has counted two since. -/
theorem scaling_reaches_desired_of_largest :
    let reached := fun k => (nextMemberCount · 1)^[k] 4294967295
    (nextMemberCount 4294967295 1).toNat.dist 1 + 1 = 4294967294 ∧
      reached 4294967294 = 1 ∧ reached 4294967293 ≠ 1 ∧ (∀ k, reached k ≠ 0) ∧
      (DbCluster.scaling (reached 4294967292) 1).isStillScaling = true ∧
      ¬ (DbCluster.scaling (reached 4294967293) 1).isStillScaling = true ∧
      (Context.counting (reached 4294967292) (reached 4294967293) 1).isStillScaling = true := by
  intro reached
  have hsteps : scalingSteps 4294967295 1 = 4294967294 := by decide +kernel
  obtain ⟨-, -, -, hcloser, hreached, hzero, hscaling, hobserved⟩ :=
    scaling_reaches_desired 4294967295 1
  simp only [hsteps] at hreached hscaling hobserved
  have hcounted : ∀ k, (DbCluster.scaling (reached k) 1).isStillScaling = true ↔
      k + 2 ≤ 4294967294 := fun k => hscaling k (.scaling (reached k) 1) rfl rfl
  have hguard : ∀ k, (Context.counting (reached k) (reached (k + 1)) 1).isStillScaling = true ↔
      k + 2 ≤ 4294967294 :=
    fun k => hobserved k (.counting (reached k) (reached (k + 1)) 1) rfl rfl
  refine ⟨hcloser (by decide) (by decide), (hreached _).2 le_rfl, fun h => ?_, fun k h => ?_,
    (hcounted _).2 le_rfl, fun h => ?_, (hguard 4294967292).2 le_rfl⟩
  · exact absurd ((hreached _).1 h) (by decide)
  · exact absurd (hzero (by decide) k h).2 (by decide)
  · exact absurd ((hcounted _).1 h) (by decide)

end Reconciliation
