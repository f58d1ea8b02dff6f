/-
# The resume point

A call of the reconciler leaves the record of its cluster readable, whatever fails.  The
record is followed through the pieces of a call: before the save nothing writes another one
but the end of a pass, which empties it, and the save moves it along the edge that the
machine has chosen (`Reconciler.Went.moves`).

So a call that fails does not move the resume point (`resume_point_of_error`), and along a
run it always names a stage or none (`resume_points_of_run`).
-/

import Reconciliation.Proofs.Cluster.Run
import Reconciliation.Proofs.Cluster.Ticks

namespace Reconciliation

/-! ## The record in the store -/

/-- The store has the cluster under its own name, with the property and with this record. -/
def Store.Records (s : Store) (name : ResourceName) (P : DbCluster → Prop) (record : Progress) :
    Prop :=
  s.Has name fun c => P c ∧ progressRecord c = .ok record

section Records

variable {around : Surroundings} {name : ResourceName} {P : DbCluster → Prop}
  {record : Progress} {stage : Stage} {c : DbCluster} {ctx : Context} {s t : Store}

/-- A request that a stage may make keeps the record, unless the stage ends the pass. -/
theorem Store.Records.perform (hs : s.Records name P record) (hP : Lasting P)
    (hstage : stage ≠ .reconciliationEnd) (hc : P c) (hrecord : progressRecord c = .ok record)
    {r : Request} (hr : stage.May c r) (instant : Bool) :
    (s.perform instant r).2.Records name P record := by
  obtain ⟨stored, hstored, hname, hkept, hread⟩ := hs
  rcases s.clusters_perform_cases instant r name with
    hsame | ⟨_, status, hfound, hnew⟩ | ⟨written, status, hwritten, hnew, hwrites⟩
  · exact ⟨stored, hsame.trans hstored, hname, hkept, hread⟩
  · obtain rfl := Option.some.inj (hstored.symm.trans hfound)
    exact ⟨_, hnew, hname, hP (stored.agrees_withStatus status).symm hkept, hread⟩
  · rcases hwrites with ⟨-, hfree⟩ | rfl
    · exact nomatch hstored.symm.trans hfree
    · obtain ⟨hagrees, hend | ⟨-, hkeeps⟩⟩ := hr
      · exact absurd hend hstage
      · exact ⟨_, hnew, hwritten,
          hP ((written.agrees_withStatus status).trans hagrees).symm hc, hkeeps.trans hrecord⟩

/-- A copy of the cluster is written over it, with the record of the copy. -/
theorem Store.Records.exists_update (hs : s.Records name P record) (hP : Lasting P)
    {new : DbCluster} (hagrees : new.Agrees c) (hname : c.resourceName = name) (hc : P c)
    {written : Progress} (hrecord : progressRecord new = .ok written) (instant : Bool) :
    ∃ t, s.perform instant (.update .cluster new) = (.ok (), t) ∧
      t.Records name P written := by
  obtain ⟨stored, hstored, -⟩ := hs
  have hnew : new.resourceName = name := hagrees.resourceName_eq.trans hname
  exact ⟨_, Store.perform_updateCluster hstored hnew,
    Store.has_put hnew ⟨hP ((new.agrees_withStatus stored.status).trans hagrees).symm hc, hrecord⟩⟩

section Pieces

variable (hothers : ∀ {record : Progress} {s t : Store}, s.Records name P record →
  around.others s t → t.Records name P record)
include hothers

/-- What others do keeps the record. -/
theorem Store.Records.drifts (hs : s.Records name P record) (hdrift : around.Drifts s t) :
    t.Records name P record :=
  hdrift.keeps hothers hs

/-- The cluster that is read has the record; a stored one is found unless the call fails. -/
theorem Store.Records.of_lookup (hs : s.Records name P record)
    {reply : Except StoreError DbCluster}
    (hran : Ran around (callStore (.get .cluster name)) s reply t) :
    t.Records name P record ∧
      ((∃ c, reply = .ok c ∧ c.resourceName = name ∧ P c ∧ progressRecord c = .ok record) ∨
        around.faulty = true ∧ ∃ error, reply = .error error) := by
  obtain ⟨u, hdrift, h | ⟨hfaulty, error, h⟩⟩ := Ran.call_iff.1 hran
  · have hu := hs.drifts hothers hdrift
    obtain ⟨c, hstored, hname, hc, hrecord⟩ := id hu
    rw [Store.perform_getCluster hstored] at h
    obtain ⟨rfl, hdrift⟩ := Ran.done_iff.1 h
    exact ⟨hu.drifts hothers hdrift, .inl ⟨c, rfl, hname, hc, hrecord⟩⟩
  · obtain ⟨rfl, hdrift'⟩ := Ran.done_iff.1 h
    exact ⟨hs.drifts hothers (hdrift.trans hdrift'), .inr ⟨hfaulty, error, rfl⟩⟩

/-- Looking around keeps the record. -/
theorem Store.Records.of_lookups {α : Type} {Q : α → Prop} {work : Work α} {x : α}
    (hs : s.Records name P record) (hwork : Only (fun r => r.writes? = none) Q work)
    (hran : Ran around work s x t) : t.Records name P record ∧ Q x := by
  have hguarded : Guarded around (fun _ _ => True)
      (fun x t => Q x ∧ Store.Records t name P record) work s :=
    .of_lookups hwork hs (fun _ _ _ => trivial) hothers
  exact (hguarded.of_ran hran).symm

/-- An action keeps the record and is not done, unless it ends the pass. -/
theorem Store.Records.of_action (hs : s.Records name P record) (hP : Lasting P)
    (hstage : stage ≠ .reconciliationEnd) (hc : P ctx.cluster)
    (hrecord : progressRecord ctx.cluster = .ok record) {x : Except Failure Outcome × Context}
    (hran : Ran around (stage.action ctx) s x t) :
    t.Records name P record ∧ Only.Leaves stage ctx.cluster x := by
  have hguarded : Guarded around (fun _ _ => True)
      (fun x t => Only.Leaves stage ctx.cluster x ∧ Store.Records t name P record)
      (stage.action ctx) s :=
    .of_only (Only.action stage ctx) hs hothers
      fun hr ht => ⟨trivial, ht.perform hP hstage hc hrecord hr _⟩
  exact (hguarded.of_ran hran).symm

/-- The end of a pass empties the record, or fails and keeps it. -/
theorem Store.Records.of_end (hs : s.Records name P record) (hP : Lasting P)
    (hname : ctx.cluster.resourceName = name) (hc : P ctx.cluster)
    {x : Except Failure Outcome × Context}
    (hran : Ran around (Stage.action .reconciliationEnd ctx) s x t) :
    (t.Records name P record ∧ ∃ cause, x.1 = .error cause) ∨
      t.Records name P .fresh ∧ x.1 = .ok .done := by
  obtain ⟨u, hdrift, h | ⟨-, error, h⟩⟩ := Ran.call_iff.1 hran
  · have hempty : progressRecord (withFreshProgress ctx.cluster) = .ok .fresh :=
      progressRecord_withProgress ctx.cluster .fresh
    obtain ⟨v, hperform, hv⟩ := (hs.drifts hothers hdrift).exists_update hP
      ctx.cluster.agrees_withFreshProgress hname hc hempty around.instant
    rw [hperform] at h
    obtain ⟨rfl, hdrift⟩ := Ran.done_iff.1 h
    exact .inr ⟨hv.drifts hothers hdrift, rfl⟩
  · obtain ⟨rfl, hdrift'⟩ := Ran.done_iff.1 h
    exact .inl ⟨hs.drifts hothers (hdrift.trans hdrift'), _, rfl⟩

/-- The save writes the name of the next state into the record, or fails and keeps it. -/
theorem Store.Records.of_save (hs : s.Records name P record) (hP : Lasting P) {next : String}
    {x : Except Failure Unit} (hran : Ran around (saveNextState name next) s x t) :
    (t.Records name P record ∧ ∃ error, x = .error (.store error)) ∨
      t.Records name P { record with nextState := next } ∧ x = .ok () := by
  obtain ⟨reply, u, hlookup, h⟩ := hran.exists_of_bind
  obtain ⟨hu, ⟨c, rfl, hname, hc, hrecord⟩ | ⟨-, error, rfl⟩⟩ := hs.of_lookup hothers hlookup
  · dsimp only at h
    rw [hrecord] at h
    obtain ⟨v, hdrift, h | ⟨-, error, h⟩⟩ := Ran.call_iff.1 h
    · obtain ⟨w, hperform, hw⟩ := (hu.drifts hothers hdrift).exists_update hP
        (c.agrees_withProgress { record with nextState := next }) hname hc
        (progressRecord_withProgress c _) around.instant
      rw [hperform] at h
      obtain ⟨rfl, hdrift⟩ := Ran.done_iff.1 h
      exact .inr ⟨hw.drifts hothers hdrift, rfl⟩
    · obtain ⟨rfl, hdrift'⟩ := Ran.done_iff.1 h
      exact .inl ⟨hu.drifts hothers (hdrift.trans hdrift'), _, rfl⟩
  · obtain ⟨rfl, hdrift⟩ := Ran.done_iff.1 h
    exact .inl ⟨hu.drifts hothers hdrift, _, rfl⟩

/-! ## What a tick makes of the record -/

/-- What a tick at a stage, that left the context behind, can make of the record. -/
inductive Stage.Moves (stage : Stage) (ctx : Context) (record : Progress) :
    Ending Failure → Progress → Prop
  /-- Nothing was saved, and the pass was not ended. -/
  | stays {ending : Ending Failure} (hdone : ending.result ≠ .ok .done)
      (hsave : ∀ next cause,
        ending.result ≠ .error (.persistence Stage.reconciliationEnd.name next cause)) :
      Moves stage ctx record ending record
  /-- The pass was ended, but that there is no next stage could not be saved. -/
  | empties {cause : Failure} (hstage : stage = .reconciliationEnd) :
      Moves stage ctx record (.saveFailed stage.name "" cause) .fresh
  | advances {before : Progress} {outcome : Outcome}
      (hdone : outcome = .done → stage = .reconciliationEnd) :
      Moves stage ctx record (.advanced (nextName (stage.next? ctx)) outcome)
        { before with nextState := nextName (stage.next? ctx) }

/-- The machine that leaves a stage saves the name of the next one, or fails and keeps the
record. -/
theorem Store.Records.of_advance (hs : s.Records name P record) (hP : Lasting P)
    {graph : Graph Work Failure Context} (hgraph : graph.IsWorkflow) {pacer : Pacer Work}
    (hpacer : pacer.Silent) {outcome : Outcome} {ending : Ending Failure}
    (hran : Ran around (Machine.advance ⟨graph, stage.state, saveNextState name, pacer⟩
      outcome ctx) s ending t) :
    (t.Records name P record ∧
        ∃ cause, ending = .saveFailed stage.name (nextName (stage.next? ctx)) cause) ∨
      t.Records name P { record with nextState := nextName (stage.next? ctx) } ∧
        ending = .advanced (nextName (stage.next? ctx)) outcome := by
  obtain ⟨edge?, hedge, htarget⟩ := hgraph.resolveNext stage ctx
  have hnext : (edge?.map Edge.target).getD "" = nextName (stage.next? ctx) := by
    rw [htarget, nextName]
  simp only [Machine.advance, Machine.persist, Stage.name_state, hedge, Program.done_bind,
    hnext, bind_assoc] at hran
  obtain ⟨⟨⟩, u, hbefore, hran⟩ := hran.exists_of_bind
  obtain ⟨x, v, hsave, hran⟩ := hran.exists_of_bind
  have hu : u.Records name P record :=
    hpacer.before.ensures (Q := fun _ u => u.Records name P record)
      (fun _ hdrift => hs.drifts hothers hdrift) () u hbefore
  rcases hu.of_save hothers hP hsave with ⟨hv, error, rfl⟩ | ⟨hv, rfl⟩
  · obtain ⟨rfl, hdrift⟩ := Ran.done_iff.1 hran
    exact .inl ⟨hv.drifts hothers hdrift, _, rfl⟩
  · simp only [bind_assoc] at hran
    obtain ⟨⟨⟩, w, hafter, hran⟩ := hran.exists_of_bind
    have hw := hpacer.after.ensures (Q := fun _ w => w.Records name P _)
      (fun _ hdrift => hv.drifts hothers hdrift) () w hafter
    obtain ⟨rfl, hdrift⟩ := Ran.done_iff.1 hran
    exact .inr ⟨hw.drifts hothers hdrift, rfl⟩

/-- **A tick keeps the record readable**, and moves it only by a save or at the end of a
pass. -/
theorem Store.Records.of_tick (hs : s.Records name P record) (hP : Lasting P)
    {graph : Graph Work Failure Context} (hgraph : graph.IsWorkflow) {pacer : Pacer Work}
    (hpacer : pacer.Silent) {seen : Context} (hname : seen.cluster.resourceName = name)
    (hc : P seen.cluster) (hrecord : progressRecord seen.cluster = .ok record)
    {ending : Ending Failure}
    (hran : Ran around (Machine.tick ⟨graph, stage.state, saveNextState name, pacer⟩ seen) s
      (ending, ctx) t) :
    ∃ record', t.Records name P record' ∧ stage.Moves ctx record ending record' := by
  have hverdict : ∀ {verdict u v}, u.Records name P record →
      Ran around (Machine.verdict stage.state ctx) u verdict v → v.Records name P record := by
    intro verdict u v hu hjudged
    rw [Stage.verdict_state] at hjudged
    exact (hu.of_lookups hothers (Only.isComplete (fun _ _ => rfl) stage ctx) hjudged).1
  by_cases hstage : stage = .reconciliationEnd
  · subst hstage
    -- The end of a pass has no completion check.
    have hcomplete : ∀ {verdict u v}, Ran around (Machine.verdict
        (Stage.state .reconciliationEnd) ctx) u verdict v →
        verdict = .ok true ∧ around.Drifts u v := Ran.done_iff.1
    cases Machine.went_of_ran hran with
    | actionFailed acts =>
      rcases hs.of_end hothers hP hname hc acts with ⟨ht, -⟩ | ⟨-, hdone⟩
      · exact ⟨record, ht, .stays nofun nofun⟩
      · cases hdone
    | checkFailed _ judged | incomplete _ judged => cases (hcomplete judged).1
    | advances acts judged advances =>
      rcases hs.of_end hothers hP hname hc acts with ⟨-, cause, hfailed⟩ | ⟨hu, -⟩
      · cases hfailed
      · have hv := hu.drifts hothers (hcomplete judged).2
        rcases hv.of_advance hothers hP hgraph hpacer advances with ⟨ht, cause, rfl⟩ | ⟨ht, rfl⟩
        · exact ⟨_, ht, .empties rfl⟩
        · exact ⟨_, ht, .advances fun _ => rfl⟩
  · cases Machine.went_of_ran hran with
    | actionFailed acts =>
      obtain ⟨ht, -⟩ := hs.of_action hothers hP hstage hc hrecord acts
      exact ⟨record, ht, .stays nofun nofun⟩
    | checkFailed acts judged =>
      obtain ⟨hu, -⟩ := hs.of_action hothers hP hstage hc hrecord acts
      exact ⟨record, hverdict hu judged,
        .stays nofun nofun⟩
    | incomplete acts judged =>
      obtain ⟨hu, hleaves⟩ := hs.of_action hothers hP hstage hc hrecord acts
      refine ⟨record, hverdict hu judged,
        .stays (fun hdone => hstage (hleaves.done ?_)) nofun⟩
      exact congrArg Except.ok (Except.ok.inj hdone)
    | advances acts judged advances =>
      obtain ⟨hu, hleaves⟩ := hs.of_action hothers hP hstage hc hrecord acts
      have hv := hverdict hu judged
      rcases hv.of_advance hothers hP hgraph hpacer advances with ⟨ht, cause, rfl⟩ | ⟨ht, rfl⟩
      · refine ⟨record, ht, .stays nofun fun next cause h => hstage ?_⟩
        exact Stage.name_injective (TickError.persistence.inj (Except.error.inj h)).1
      · exact ⟨_, ht, .advances fun hdone => hleaves.done (congrArg Except.ok hdone)⟩

/-! ## What a call makes of the record -/

/-- **A call keeps the record readable.**  It ends before it ticks because the cluster or its
workload could not be read, or the machine ticks at the stage at which the record resumes. -/
theorem Store.Records.of_call (hs : s.Records name P record) (hP : Lasting P)
    (hresumes : ∀ {c}, progressRecord c = .ok record → resumeStage c = .ok stage)
    {r : Reconciler} (hr : r.pacer.Silent) {now : Timestamp} {conclusion : Conclusion}
    (hran : Ran around (r.reconcile now name) s conclusion t) :
    (t.Records name P record ∧
        (conclusion = .absent ∧ around.faulty = true ∨ ∃ error, conclusion = .unreadable error)) ∨
      ∃ machine ctx ending record', r.Ticks around now name s machine ctx ending t ∧
        conclusion = .ticked ending ∧ transitionGraph = .ok machine.graph ∧
        machine.graph.IsWorkflow ∧ machine.current = stage.state ∧
        t.Records name P record' ∧ stage.Moves ctx record ending record' := by
  obtain ⟨graph, hgraph, hworkflow, hbuild⟩ := exists_buildMachine
  cases Reconciler.went_of_ran hran with
  | @unread error _ lookup =>
    obtain ⟨ht, ⟨c, hreply, -⟩ | ⟨hfaulty, -⟩⟩ := hs.of_lookup hothers lookup
    · cases hreply
    · refine .inl ⟨ht, ?_⟩
      split
      · exact .inl ⟨rfl, hfaulty⟩
      · exact .inr ⟨error, rfl⟩
  | misconfigured lookup refused =>
    obtain ⟨-, ⟨c, hreply, -, -, hrecord⟩ | ⟨-, error, hreply⟩⟩ := hs.of_lookup hothers lookup
    · cases hreply
      rw [hbuild, hresumes hrecord] at refused
      cases refused
    · cases hreply
  | unobserved lookup built observes =>
    obtain ⟨hu, -⟩ := hs.of_lookup hothers lookup
    obtain ⟨ht, -⟩ := hu.of_lookups hothers (Only.observe (fun _ _ => rfl) _ _ _) observes
    exact .inl ⟨ht, .inr ⟨_, rfl⟩⟩
  | ticked ticks =>
    obtain ⟨c, seen, u, v, lookup, built, observes, tick⟩ := id ticks
    obtain ⟨hu, ⟨_, hreply, hname, hc, hrecord⟩ | ⟨-, error, hreply⟩⟩ :=
      hs.of_lookup hothers lookup
    · cases hreply
      obtain ⟨hv, hseen⟩ := hu.of_lookups hothers (Only.observe (fun _ _ => rfl) _ _ _) observes
      rw [hbuild, hresumes hrecord] at built
      cases built
      obtain rfl := hseen seen rfl
      rw [hname] at ticks tick
      obtain ⟨record', ht, hmoves⟩ := hv.of_tick hothers hP hworkflow hr hname hc hrecord tick
      exact .inr ⟨_, _, _, record', ticks, rfl, hgraph, hworkflow, rfl, ht, hmoves⟩
    · cases hreply

end Pieces
end Records

/-- A record that names a stage, or none. -/
def Progress.Resumable (record : Progress) : Prop :=
  record.nextState = "" ∨ ∃ stage : Stage, record.nextState = stage.name

/-- Such a record tells the stage to resume at. -/
theorem Progress.Resumable.exists_stage {record : Progress} (h : record.Resumable) :
    ∃ stage, ∀ {c}, progressRecord c = .ok record → resumeStage c = .ok stage := by
  rcases h with hempty | ⟨stage, hstage⟩
  · exact ⟨initialStage, fun hrecord => DbCluster.AtRest.resumeStage_eq ⟨record, hrecord, hempty⟩⟩
  · have hresume : record.resumePoint? = some stage.name := by
      rw [Progress.resumePoint?, hstage, if_neg stage.name_ne_empty]
    refine ⟨stage, fun hrecord => ?_⟩
    simp [resumeStage, hrecord, hresume, bind, Except.bind]

/-! ## Calls that fail -/

/-- The error of a call at the end of a pass that could not save that there is no next
stage. -/
def ReconcileError.LeavesEnd (error : ReconcileError) : Prop :=
  ∃ next cause, error = .tick (.persistence Stage.reconciliationEnd.name next cause)

/-- **A call that fails does not move the resume point.**  Calls may fail at any point and
others may do what they like but write the cluster.  The spec of the cluster stays as it is.
If the call gives an error, the record names the same stage as before, and the next call
builds the same machine; only when the end of a pass could not be saved does the record name
none, and the next call starts over. -/
theorem resume_point_of_error {r : Reconciler} (hr : r.pacer.Silent) {around : Surroundings}
    {name : ResourceName} (hothers : ∀ s t, around.others s t → t.clusters name = s.clusters name)
    {s t : Store} {c : DbCluster} {record : Progress} (hstored : s.clusters name = some c)
    (hname : c.resourceName = name) (hrecord : progressRecord c = .ok record)
    (hpoint : record.Resumable) {now : Timestamp} {conclusion : Conclusion}
    (hran : Ran around (r.reconcile now name) s conclusion t) :
    ∃ c', t.clusters name = some c' ∧ c'.spec = c.spec ∧
      ∀ error, conclusion.result = .error error →
        ∃ record', progressRecord c' = .ok record' ∧
          ((error.LeavesEnd ∧ record'.nextState = "" ∧
              (buildMachine c' r.pacer).map Machine.current = .ok Stage.startFresh.state) ∨
            ¬ error.LeavesEnd ∧ record'.nextState = record.nextState ∧
              buildMachine c' r.pacer = buildMachine c r.pacer) := by
  obtain ⟨graph, -, -, hbuild⟩ := exists_buildMachine
  obtain ⟨stage, hresumes⟩ := hpoint.exists_stage
  have hlasting : Lasting fun other => other.spec = c.spec :=
    fun _ _ hagrees hspec => hagrees.spec_eq.symm.trans hspec
  have hkept : ∀ {record : Progress} {s t : Store}, s.Records name (·.spec = c.spec) record →
      around.others s t → t.Records name (·.spec = c.spec) record := by
    rintro record s t ⟨stored, hfound, hrest⟩ change
    exact ⟨stored, (hothers s t change).trans hfound, hrest⟩
  have hs : s.Records name (·.spec = c.spec) record := ⟨c, hstored, hname, rfl, hrecord⟩
  have hstays : ∀ {c' : DbCluster}, c'.resourceName = name → progressRecord c' = .ok record →
      buildMachine c' r.pacer = buildMachine c r.pacer := fun {c'} hname' hrecord' => by
    rw [hbuild, hbuild, hresumes hrecord, hresumes hrecord', hname, hname']
  rcases hs.of_call hkept hlasting hresumes hr hran with
    ⟨⟨c', hc', hname', hspec, hrecord'⟩, hends⟩ |
      ⟨machine, ctx, ending, record', -, rfl, -, -, -, ⟨c', hc', hname', hspec, hrecord'⟩, hmoves⟩
  · refine ⟨c', hc', hspec, fun error herror => ⟨record, hrecord', .inr ⟨?_, rfl, hstays hname' hrecord'⟩⟩⟩
    rintro ⟨next, cause, rfl⟩
    rcases hends with ⟨rfl, -⟩ | ⟨other, rfl⟩ <;> cases herror
  · refine ⟨c', hc', hspec, fun error herror => ⟨record', hrecord', ?_⟩⟩
    cases hmoves with
    | stays hdone hsave =>
      refine .inr ⟨?_, rfl, hstays hname' hrecord'⟩
      rintro ⟨next, cause, rfl⟩
      cases hresult : ending.result with
      | ok outcome =>
        rw [Conclusion.result, hresult] at herror
        cases herror
      | error lost =>
        rw [Conclusion.result, hresult] at herror
        cases herror
        exact hsave next cause hresult
    | empties hstage =>
      subst hstage
      cases herror
      refine .inl ⟨⟨_, _, rfl⟩, rfl, ?_⟩
      rw [hbuild, DbCluster.AtRest.resumeStage_eq ⟨.fresh, hrecord', rfl⟩]
      rfl
    | advances => cases herror

/-- A call whose save is lost is one of the ways in which a call can go. -/
theorem Reconciler.ran_callOnce (r : Reconciler) (around : Surroundings) (lost : Bool)
    (hlost : lost = true → around.faulty = true) (now : Timestamp) (name : ResourceName)
    (s : Store) :
    Ran around (r.reconcile now name) s (r.callOnce around.instant now name lost s).1
      (r.callOnce around.instant now name lost s).2 := by
  rw [reconcile_eq]
  exact .bind (.of_run false nofun _ s) (.of_run lost hlost _ _)

/-- A pass ends whose end cannot be saved: the call fails, and the next one starts over. -/
theorem resume_point_of_lost_end : ∃ conclusion t c' record',
    Ran ⟨true, fun _ _ => False, true⟩ (Reconciler.standard.reconcile default ⟨"db", "example"⟩)
      (Store.empty.insert .cluster .ending) conclusion t ∧
    conclusion.result = .error (.tick (.persistence "ReconciliationEnd" ""
      (.store (.other "unavailable")))) ∧
    t.clusters ⟨"db", "example"⟩ = some c' ∧ c'.spec = DbCluster.ending.spec ∧
    progressRecord c' = .ok record' ∧ record'.nextState = "" ∧
    (buildMachine c' .none).map Machine.current = .ok Stage.startFresh.state := by
  have hstored : (Store.empty.insert .cluster .ending).clusters ⟨"db", "example"⟩ =
      some .ending := Collection.put_self Store.empty.clusters DbCluster.ending.resourceName _
  have hname : DbCluster.ending.resourceName = ⟨"db", "example"⟩ := rfl
  have hrecord : progressRecord .ending = .ok (.resumingAt "ReconciliationEnd") :=
    progressRecord_withProgress _ _
  have hran := Reconciler.standard.ran_callOnce ⟨true, fun _ _ => False, true⟩ true
    (fun _ => rfl) default ⟨"db", "example"⟩ (Store.empty.insert .cluster .ending)
  have hresult : (Reconciler.standard.callOnce true default ⟨"db", "example"⟩ true
      (Store.empty.insert .cluster .ending)).1.result = .error (.tick (.persistence
        "ReconciliationEnd" "" (.store (.other "unavailable")))) := by decide +kernel
  obtain ⟨c', hc', hspec, herror⟩ := resume_point_of_error (r := .standard) Pacer.silent_none
    (fun _ _ => False.elim) hstored hname hrecord (.inr ⟨.reconciliationEnd, rfl⟩) hran
  obtain ⟨record', hrecord', ⟨-, hempty, hstarts⟩ | ⟨hkept, -⟩⟩ := herror _ hresult
  · exact ⟨_, _, c', record', hran, hresult, hc', hspec, hrecord', hempty, hstarts⟩
  · exact absurd ⟨_, _, rfl⟩ hkept

end Reconciliation
