/-
# A version of the automation config names one content

Agents say how far they are by the version of the config that they follow, so a version
must not be given to two contents.  The reconciler gives the next version whenever it
writes another content over a config, and otherwise writes nothing: every request of a run
is one that publishes a config in this way (`Request.Publishes`), whatever fails and
whatever else changes meanwhile.  So versions only grow along a history and never come
back with another content (`config_versions`).
-/

import Mathlib.Algebra.Group.Nat.Defs
import Reconciliation.Proofs.Cluster.Outline

namespace Reconciliation

/-! ## How a config is published -/

/-- How a wanted config may be published, while other things are read and written: the
stored one is only replaced by another content, under the next version. -/
inductive Request.Publishes (around : Surroundings) (wanted : AutomationConfig) :
    Request → Store → Prop
  | other {r : Request} {s : Store} (other : r.writes? ≠ some .automationConfig) :
      Publishes around wanted r s
  /-- There is no config, or a call has failed as if there were none. -/
  | create {s : Store} (missing : s.automationConfigs wanted.name = none ∨ around.faulty = true) :
      Publishes around wanted (.create .automationConfig wanted) s
  | update {s : Store} {stored : AutomationConfig}
      (hstored : s.automationConfigs wanted.name = some stored)
      (other : stored.sameContent wanted = false) :
      Publishes around wanted
        (.update .automationConfig { wanted with version := stored.version + 1 }) s

/-- The requests that publish some config under a name. -/
def Request.PublishesFor (around : Surroundings) (name : ResourceName) (r : Request) (s : Store) :
    Prop :=
  ∃ wanted : AutomationConfig, wanted.name = name ∧ r.Publishes around wanted s

theorem Request.PublishesFor.other {around : Surroundings} {name : ResourceName} {r : Request}
    {s : Store} (h : r.writes? ≠ some .automationConfig) :
    r.PublishesFor around name s :=
  ⟨⟨name, 1, [], "", false⟩, rfl, .other h⟩

/-- The stored config has the wanted content. -/
def Store.HasContent (s : Store) (wanted : AutomationConfig) : Prop :=
  ∃ config, s.automationConfigs wanted.name = some config ∧ config.sameContent wanted = true

theorem Store.HasContent.congr {s t : Store} {wanted : AutomationConfig} (h : s.HasContent wanted)
    (hconfig : t.automationConfigs wanted.name = s.automationConfigs wanted.name) :
    t.HasContent wanted := by
  obtain ⟨config, hstored, hsame⟩ := h
  exact ⟨config, hconfig.trans hstored, hsame⟩

/-- Others leave the config under the name alone, and the cluster its name. -/
structure Store.SparesConfig (name : ResourceName) (s s' : Store) : Prop where
  config : s'.automationConfigs name = s.automationConfigs name
  namesCluster : s'.NamesCluster name

/-- How the config under a name may change: it is never lost, and another content gets the
next version. -/
inductive AutomationConfig.Evolves : Option AutomationConfig → Option AutomationConfig → Prop
  | kept (stored : Option AutomationConfig) : Evolves stored stored
  | added (config : AutomationConfig) : Evolves none (some config)
  | replaced {old new : AutomationConfig} (next : new.version = old.version + 1)
      (other : old.sameContent new = false) : Evolves (some old) (some new)

section Requests

variable {instant : Bool} {wanted : AutomationConfig} {r : Request} {s : Store}

theorem Store.automationConfigs_perform (hr : r.writes? ≠ some .automationConfig) (s : Store) :
    (s.perform instant r).2.automationConfigs = s.automationConfigs :=
  s.get?_perform (nofun : Kind.automationConfig ≠ .workload) hr

/-- A config is added where there is none. -/
theorem Store.perform_createConfig (instant : Bool) (wanted : AutomationConfig) (s : Store) :
    (s.automationConfigs wanted.name ≠ none ∧ s.perform instant (.create .automationConfig wanted) =
        (.error (.alreadyExists .automationConfig wanted.name), s)) ∨
      (s.automationConfigs wanted.name = none ∧ ∃ t,
        s.perform instant (.create .automationConfig wanted) = (.ok (), t) ∧
        t.automationConfigs wanted.name = some wanted) :=
  s.perform_create (nofun : Kind.automationConfig ≠ .workload) wanted

/-- A config replaces one of its name. -/
theorem Store.perform_updateConfig (instant : Bool) (wanted : AutomationConfig) (s : Store) :
    (s.automationConfigs wanted.name = none ∧ s.perform instant (.update .automationConfig wanted) =
        (.error (.notFound .automationConfig wanted.name), s)) ∨
      (s.automationConfigs wanted.name ≠ none ∧ ∃ t,
        s.perform instant (.update .automationConfig wanted) = (.ok (), t) ∧
        t.automationConfigs wanted.name = some wanted) :=
  s.perform_update (nofun : Kind.automationConfig ≠ .workload) nofun wanted

namespace Request.Publishes

variable {around : Surroundings} (h : r.Publishes around wanted s)
include h

/-- **A request that publishes a config lets the stored one evolve.** -/
theorem evolves : AutomationConfig.Evolves (s.automationConfigs wanted.name)
    ((s.perform around.instant r).2.automationConfigs wanted.name) := by
  cases h with
  | other other =>
    rw [Store.automationConfigs_perform other]
    exact .kept _
  | create missing =>
    rcases s.perform_createConfig around.instant wanted with
      ⟨-, hperform⟩ | ⟨hfree, t, hperform, ht⟩
    · rw [hperform]
      exact .kept _
    · rw [hperform, hfree, ht]
      exact .added wanted
  | @update _ stored hstored other =>
    rcases s.perform_updateConfig around.instant { wanted with version := stored.version + 1 } with
      ⟨-, hperform⟩ | ⟨-, t, hperform, ht⟩
    · rw [hperform]
      exact .kept _
    · rw [hperform, hstored]
      exact ht ▸ .replaced rfl other

/-- While the wanted content is stored, nobody asks to replace it. -/
theorem eq_create (hs : s.HasContent wanted) (hwrites : r.writes? = some .automationConfig) :
    around.faulty = true ∧ r = .create .automationConfig wanted := by
  obtain ⟨config, hconfig, hsame⟩ := hs
  cases h with
  | other other => exact absurd hwrites other
  | create missing => exact ⟨missing.resolve_left (by rw [hconfig]; nofun), rfl⟩
  | update hstored other =>
    obtain rfl := Option.some.inj (hconfig.symm.trans hstored)
    rw [hsame] at other
    cases other

/-- The wanted content stays. -/
theorem config_eq (hs : s.HasContent wanted) :
    (s.perform around.instant r).2.automationConfigs wanted.name =
      s.automationConfigs wanted.name := by
  by_cases hwrites : r.writes? = some .automationConfig
  · obtain ⟨-, rfl⟩ := h.eq_create hs hwrites
    obtain ⟨config, hconfig, -⟩ := hs
    rcases s.perform_createConfig around.instant wanted with ⟨-, hperform⟩ | ⟨hfree, -⟩
    · rw [hperform]
    · rw [hconfig] at hfree
      cases hfree
  · rw [Store.automationConfigs_perform hwrites]

end Request.Publishes

/-- A config that was added is stored. -/
theorem Store.hasContent_create {instant : Bool} (s : Store) {u : Unit}
    (h : (s.perform instant (.create .automationConfig wanted)).1 = .ok u) :
    (s.perform instant (.create .automationConfig wanted)).2.HasContent wanted := by
  rcases s.perform_createConfig instant wanted with ⟨-, hperform⟩ | ⟨-, t, hperform, ht⟩
  · rw [hperform] at h
    cases h
  · rw [hperform]
    exact ⟨wanted, ht, wanted.sameContent_self⟩

/-- A config that was written over another is stored. -/
theorem Store.hasContent_update {instant : Bool} {version : UInt64} (s : Store) {u : Unit}
    (h : (s.perform instant (.update .automationConfig { wanted with version })).1 = .ok u) :
    (s.perform instant (.update .automationConfig { wanted with version })).2.HasContent
      wanted := by
  rcases s.perform_updateConfig instant { wanted with version } with
    ⟨-, hperform⟩ | ⟨-, t, hperform, ht⟩
  · rw [hperform] at h
    cases h
  · rw [hperform]
    exact ⟨_, ht, wanted.sameContent_self⟩

end Requests

/-- Only one stage writes configs. -/
theorem Stage.May.writes?_ne {stage : Stage} {c : DbCluster} {r : Request}
    (hstage : stage ≠ .deployAutomationConfig) (h : stage.May c r) :
    r.writes? ≠ some .automationConfig := by
  rintro hwrites
  cases r with
  | get | updateStatus => cases hwrites
  | create kind object =>
    obtain rfl := Option.some.inj hwrites
    exact hstage h.1
  | update kind object =>
    obtain rfl := Option.some.inj hwrites
    exact hstage h.1

/-! ## The stage that publishes -/

/-- The store after work that was to publish a config: if it succeeded, the wanted content
is stored. -/
structure Store.Published (s : Store) (name : ResourceName) (wanted : AutomationConfig)
    {ε α : Type} (x : Except ε α) : Prop where
  namesCluster : s.NamesCluster name
  content : ∀ a, x = .ok a → s.HasContent wanted

namespace Store.Published

variable {s : Store} {name : ResourceName} {wanted : AutomationConfig} {ε δ α β : Type}

theorem of_error (hs : s.NamesCluster name) (error : ε) :
    s.Published name wanted (.error error : Except ε α) := ⟨hs, nofun⟩

/-- What is returned after the success does not matter. -/
theorem ok {a : α} (h : s.Published name wanted (.ok a : Except ε α)) (x : Except δ β) :
    s.Published name wanted x := ⟨h.namesCluster, fun _ _ => h.content a rfl⟩

end Store.Published

section Publishing

variable {around : Surroundings} {name : ResourceName} {s t : Store}
  (hothers : ∀ s t, around.others s t → s.SparesConfig name t)
include hothers

theorem Surroundings.Drifts.config_eq (h : around.Drifts s t) :
    t.automationConfigs name = s.automationConfigs name := by
  induction h with
  | refl => rfl
  | tail _ change ih => exact (hothers _ _ change).config.trans ih

theorem Surroundings.Drifts.namesCluster (h : around.Drifts s t) (hs : s.NamesCluster name) :
    t.NamesCluster name :=
  h.keeps (fun _ change => (hothers _ _ change).namesCluster) hs

/-- Work that writes other things leaves the config alone. -/
theorem Guarded.of_other_writes {gate : Request → Store → Prop} {α : Type} {Q : α → Prop}
    {work : Work α} (hgate : ∀ {r t}, r.writes? ≠ some .automationConfig → gate r t)
    (h : Only (fun r => r.writes? ≠ some .automationConfig) Q work) (hs : s.NamesCluster name) :
    Guarded around gate (fun a t => Q a ∧ t.NamesCluster name ∧
      t.automationConfigs name = s.automationConfigs name) work s := by
  refine Guarded.of_only h ⟨hs, rfl⟩ (fun ⟨ht, hconfig⟩ change => ?_)
    fun hr ⟨ht, hconfig⟩ => ⟨hgate hr, ht.perform _, ?_⟩
  · have hspares := hothers _ _ change
    exact ⟨hspares.namesCluster, hspares.config.trans hconfig⟩
  · rw [Store.automationConfigs_perform hr]
    exact hconfig

theorem Store.HasContent.drifts {wanted : AutomationConfig} (h : s.HasContent wanted)
    (hname : wanted.name = name) (hdrift : around.Drifts s t) : t.HasContent wanted := by
  subst hname
  exact h.congr (hdrift.config_eq hothers)

theorem Store.Published.drifts {wanted : AutomationConfig} {ε α : Type} {x : Except ε α}
    (h : s.Published name wanted x) (hname : wanted.name = name) (hdrift : around.Drifts s t) :
    t.Published name wanted x :=
  ⟨hdrift.namesCluster hothers h.namesCluster,
    fun a hx => (h.content a hx).drifts hothers hname hdrift⟩

/-- A call that writes the config succeeds or leaves the store as it is; then the written
config is returned. -/
theorem Guarded.writeConfig {wanted written : AutomationConfig} (hname : wanted.name = name)
    (hs : s.NamesCluster name) {r : Request}
    (hgate : ∀ t, around.Drifts s t → r.Publishes around wanted t)
    (hwritten : ∀ (t : Store) a, (t.perform around.instant r).1 = .ok a →
      (t.perform around.instant r).2.HasContent wanted) :
    Guarded around (Request.Publishes around wanted) (fun x t => t.Published name wanted x)
      (ExceptT.mk (callStore r) >>= fun _ => pure written : StoreWork AutomationConfig).run s := by
  refine .run_bind (.call fun t ht => ?_)
  have hnames := ht.namesCluster hothers hs
  refine ⟨hgate t ht, .done fun u hu => ?_, fun _ error => .done fun u hu => ?_⟩
  · have hpublished : u.Published name wanted (t.perform around.instant r).1 :=
      Store.Published.drifts hothers ⟨hnames.perform r, hwritten t⟩ hname hu
    cases hreply : (t.perform around.instant r).1 with
    | error error => exact fun v hv => .of_error (hv.namesCluster hothers hpublished.namesCluster) _
    | ok a =>
      rw [hreply] at hpublished
      exact .done fun v hv => (hpublished.ok _).drifts hothers hname hv
  · exact fun v hv => .of_error ((hu.trans hv).namesCluster hothers hnames) error

/-- A config is only published as it is wanted, and when that has succeeded it is stored. -/
theorem Guarded.ensureAutomationConfig {c : DbCluster} (hname : c.resourceName = name)
    (hs : s.NamesCluster name) :
    Guarded around (Request.Publishes around (wantedAutomationConfig c))
      (fun x t => t.Published name (wantedAutomationConfig c) x)
      (ensureAutomationConfig c).run s := by
  have hcreate : ∀ t : Store, t.NamesCluster name →
      (t.automationConfigs name = none ∨ around.faulty = true) →
      Guarded around (Request.Publishes around (wantedAutomationConfig c))
        (fun x t => t.Published name (wantedAutomationConfig c) x)
        (do
          createResource .automationConfig (wantedAutomationConfig c)
          pure (wantedAutomationConfig c) : StoreWork AutomationConfig).run t := by
    intro t ht hmissing
    refine Guarded.writeConfig hothers hname ht (fun u hu => .create ?_)
      fun u _ => u.hasContent_create
    subst hname
    exact hmissing.imp_left (hu.config_eq hothers).trans
  refine .run_bind (.findResource (fun t _ => .other nofun) ?_ ?_)
  · intro t u ht hu
    have hnames := (ht.trans hu).namesCluster hothers hs
    have hstored : u.automationConfigs name = t.get? .automationConfig c.resourceName :=
      (hu.config_eq hothers).trans (congrArg t.automationConfigs hname.symm)
    cases hget : t.get? .automationConfig c.resourceName with
    | none =>
      rw [hget] at hstored
      exact hcreate u hnames (.inl hstored)
    | some stored =>
      rw [hget] at hstored
      dsimp only
      split
      · rename_i hsame
        subst hname
        exact .done fun v hv => Store.Published.drifts hothers
          ⟨hnames, fun _ _ => ⟨stored, hstored, hsame⟩⟩ rfl hv
      · rename_i hother
        refine Guarded.writeConfig hothers hname hnames
          (fun v hv => .update ?_ (Bool.eq_false_iff.2 hother)) fun v _ => v.hasContent_update
        subst hname
        exact (hv.config_eq hothers).trans hstored
  · intro hfaulty x u hu hx
    have hnames := hu.namesCluster hothers hs
    rcases x with error | (_ | stored)
    · exact fun v hv => .of_error (hv.namesCluster hothers hnames) error
    · exact hcreate u hnames (.inr hfaulty)
    · exact absurd rfl (hx stored)

/-- Publishing is over when the workload is looked up. -/
theorem Guarded.publishAutomationConfig {c : DbCluster} (hname : c.resourceName = name)
    (hs : s.NamesCluster name) :
    Guarded around (Request.Publishes around (wantedAutomationConfig c))
      (fun x t => t.Published name (wantedAutomationConfig c) x)
      (publishAutomationConfig c).run s := by
  refine .run_bind ((Guarded.ensureAutomationConfig hothers hname hs).mono fun x t ht => ?_)
  cases x with
  | error error => exact fun u hu => .of_error (hu.namesCluster hothers ht.namesCluster) error
  | ok config =>
    refine .run_bind (.findResource (fun _ _ => .other nofun) ?_ ?_)
    · exact fun u v hu hv => .done fun w hw =>
        (ht.ok _).drifts hothers hname ((hu.trans hv).trans hw)
    · intro _ x u hu hx
      rcases x with error | workload
      · exact fun v hv => (ht.ok _).drifts hothers hname (hu.trans hv)
      · exact .done fun v hv => (ht.ok _).drifts hothers hname (hu.trans hv)

/-- **The stage publishes only what is wanted, and when it has succeeded that is
stored.** -/
theorem Guarded.deployAutomationConfig {ctx : Context} (hname : ctx.cluster.resourceName = name)
    (hs : s.NamesCluster name) :
    Guarded around (Request.Publishes around (wantedAutomationConfig ctx.cluster))
      (fun x t => t.Published name (wantedAutomationConfig ctx.cluster) x.1)
      (deployAutomationConfig ctx) s := by
  refine .bind ((Guarded.publishAutomationConfig hothers hname hs).mono fun x t ht => ?_)
  cases x with
  | error error =>
    have hfails := (Only.failStep (.refl ctx.cluster)
      ("Error deploying automation config: " ++ error.message)).widen
      fun r => Stage.May.writes?_ne (nofun : Stage.updateStatus ≠ .deployAutomationConfig)
    refine (Guarded.of_other_writes hothers .other hfails ht.namesCluster).mono ?_
    rintro ⟨result, ctx'⟩ u ⟨⟨-, failure, rfl⟩, hnames, -⟩
    exact .of_error hnames failure
  | ok published =>
    dsimp only
    split
    · exact .done fun u hu => (ht.ok _).drifts hothers hname hu
    · refine (Guarded.of_other_writes hothers .other (Only.waitStep ?_ _ |>.widen fun r =>
        Stage.May.writes?_ne (c := ctx.cluster)
          (nofun : Stage.updateStatus ≠ .deployAutomationConfig))
        ht.namesCluster).mono ?_
      · exact .refl ctx.cluster
      · subst hname
        exact fun x u ⟨_, hnames, hconfig⟩ => ⟨hnames, fun _ _ => (ht.content _ rfl).congr hconfig⟩

/-- A call publishes configs in one stage, and otherwise writes other things. -/
theorem CallOutline.publishing : CallOutline around (Request.PublishesFor around name) name
    (fun t => t.NamesCluster name) (fun _ c t => c.resourceName = name ∧ t.NamesCluster name)
    (fun _ _ t => t.NamesCluster name) where
  lookup _ _ _ := .other nofun
  others _ change := (hothers _ _ change).namesCluster
  others_during h change := ⟨h.1, (hothers _ _ change).namesCluster⟩
  others_leaving _ change := (hothers _ _ change).namesCluster
  begins h hstored _ := ⟨h _ hstored, h _ hstored, h⟩
  idle h := h.2
  act := by
    intro stage s ctx ⟨hname, hs⟩
    have hcomplete : ∀ ctx' {t : Store}, t.NamesCluster name →
        Guarded around (Request.PublishesFor around name)
          (fun verdict u => u.NamesCluster name ∧ (verdict = .ok true → u.NamesCluster name))
          (stage.isComplete ctx') t := fun ctx' _ ht =>
      (Guarded.of_other_writes hothers .other (Only.isComplete (fun _ _ => nofun) stage ctx')
        ht).mono fun _ _ hu => ⟨hu.2.1, fun _ => hu.2.1⟩
    have hact : Guarded around (Request.PublishesFor around name)
        (fun _ t => t.NamesCluster name) (stage.action ctx) s := by
      by_cases hstage : stage = .deployAutomationConfig
      · subst hstage
        exact ((Guarded.deployAutomationConfig hothers hname hs).mono
          fun _ _ ht => ht.namesCluster).widen fun _ _ h => ⟨_, hname, h⟩
      · exact (Guarded.of_other_writes hothers .other ((Only.action stage ctx).widen
          fun _ => Stage.May.writes?_ne hstage) hs).mono fun _ _ ht => ht.2.1
    refine hact.mono fun x t ht => ?_
    obtain ⟨result, ctx'⟩ := x
    cases result with
    | error failure => exact ht
    | ok outcome => exact hcomplete ctx' ht
  save h := (Guarded.of_other_writes hothers .other
    (Only.saveNextState (fun _ _ => nofun) (fun _ => nofun) _ _) h).mono fun _ _ ht => ht.2.1

/-- A stage whose content is already stored keeps the config, and asks to write one only
after a call has failed. -/
theorem deployAutomationConfig_of_hasContent {ctx : Context}
    (hname : ctx.cluster.resourceName = name) (hs : s.NamesCluster name)
    (hcontent : s.HasContent (wantedAutomationConfig ctx.cluster))
    {rest : Work (Except Failure Outcome × Context)}
    (hreach : Relation.ReflTransGen (Advances around) (deployAutomationConfig ctx, s) (rest, t)) :
    t.automationConfigs name = s.automationConfigs name ∧
      ∀ request, nextRequest? rest = some request → request.writes? = some .automationConfig →
        around.faulty = true ∧
          request = .create .automationConfig (wantedAutomationConfig ctx.cluster) := by
  have hguarded := Guarded.deployAutomationConfig hothers hname hs
  have hwanted : (wantedAutomationConfig ctx.cluster).name = name := hname
  have hconfig : t.automationConfigs name = s.automationConfigs name := by
    generalize hp : (rest, t) = p at hreach
    induction hreach generalizing rest t with
    | refl => cases hp; rfl
    | @tail q _ hbefore hnext ih =>
      subst hp
      obtain ⟨work, u⟩ := q
      have hu := ih rfl
      have hcontent : u.HasContent (wantedAutomationConfig ctx.cluster) :=
        hcontent.congr (by rw [hwanted, hu])
      rw [← hu]
      cases hnext with
      | call =>
        have hkept := ((hguarded.reaches hbefore).gate_of_next rfl).config_eq hcontent
        rwa [hwanted] at hkept
      | fault | sleep => rfl
      | others change => exact (hothers _ _ change).config
  refine ⟨hconfig, fun request hrequest hwrites => ?_⟩
  refine ((hguarded.reaches hreach).gate_of_next hrequest).eq_create ?_ hwrites
  exact hcontent.congr (by rw [hwanted, hconfig])

end Publishing

/-! ## Histories of configs -/

/-- Seen from an earlier store, the config is still there, its version has not fallen, and
the same version means the same config. -/
def Store.KeepsVersions (name : ResourceName) (s s' : Store) : Prop :=
  ∀ old, s.automationConfigs name = some old → ∃ new, s'.automationConfigs name = some new ∧
    old.version ≤ new.version ∧ (new.version = old.version → new = old)

theorem Store.KeepsVersions.trans {name : ResourceName} {s t u : Store}
    (h : s.KeepsVersions name t) (h' : t.KeepsVersions name u) : s.KeepsVersions name u := by
  intro old hold
  obtain ⟨middle, hmiddle, hle, heq⟩ := h old hold
  obtain ⟨new, hnew, hle', heq'⟩ := h' middle hmiddle
  refine ⟨new, hnew, UInt64.le_trans hle hle', fun hsame => ?_⟩
  -- Between two equal versions there is no other one.
  have hversion : middle.version = old.version := UInt64.le_antisymm (hsame ▸ hle') hle
  rw [heq' (hsame.trans hversion.symm), heq hversion]

/-- Below the greatest version an evolving config is never lost, and it stays or gets another
content under the next number. -/
theorem AutomationConfig.Evolves.exists_eq_or_succ {a b : Option AutomationConfig}
    (h : Evolves a b) {old : AutomationConfig} (hold : a = some old)
    (hbound : old.version.toNat < 2 ^ 64 - 1) :
    ∃ new, b = some new ∧ (new = old ∨
      new.version.toNat = old.version.toNat + 1 ∧ old.sameContent new = false) := by
  cases h with
  | kept => exact ⟨old, hold, .inl rfl⟩
  | added => cases hold
  | @replaced _ new next other =>
    obtain rfl := Option.some.inj hold
    refine ⟨new, rfl, .inr ⟨?_, other⟩⟩
    have hone : (1 : UInt64).toNat = 1 := rfl
    rw [next, UInt64.toNat_add, hone]
    omega

section Histories

variable {r : Reconciler} {name : ResourceName} {around : Surroundings}
  {between : Store → Store → Prop} {start : Store} {moments : List Moment}
  (hothers : ∀ s t, around.others s t → s.SparesConfig name t)
  (hbetween : ∀ s t, between s t → s.SparesConfig name t)
include hothers hbetween

/-- From one moment of a safe history to the next the config evolves. -/
theorem Moment.Next.evolves {m m' : Moment} (h : m.Next r name around between m')
    (hsafe : m.Safe around (Request.PublishesFor around name) (fun t => t.NamesCluster name)) :
    AutomationConfig.Evolves (m.store.automationConfigs name)
      (m'.store.automationConfigs name) := by
  cases h with
  | begins | ends => exact .kept _
  | between change =>
    rw [(hbetween _ _ change).config]
    exact .kept _
  | advances h =>
    cases h with
    | call =>
      obtain ⟨wanted, rfl, hpublishes⟩ := Moment.Safe.gate_of_request hsafe rfl
      exact hpublishes.evolves
    | fault | sleep => exact .kept _
    | others change =>
      rw [(hothers _ _ change).config]
      exact .kept _

/-- Along a history the config is never lost, and it stays or gets another content under
the next version. -/
theorem History.isChain_configs (hr : r.pacer.Silent) (hstart : start.NamesCluster name)
    (h : History r name around between start moments)
    (hbound : ∀ m ∈ moments, (m.store.goalVersion name).toNat < 2 ^ 64 - 1) :
    moments.IsChain fun later earlier =>
      ∀ old, earlier.store.automationConfigs name = some old →
        ∃ new, later.store.automationConfigs name = some new ∧ (new = old ∨
          new.version.toNat = old.version.toNat + 1 ∧ old.sameContent new = false) := by
  have hsafe := h.safe hstart (fun _ change => (hbetween _ _ change).namesCluster)
    fun now {s} hs => (CallOutline.publishing hothers).guarded hr now hs
  refine h.isChain (fun m hm => And.intro (hsafe m hm) (hbound m hm)) ?_
  intro earlier later ⟨hsafe, hbound⟩ hnext old hold
  refine (hnext.evolves hothers hbetween hsafe).exists_eq_or_succ hold ?_
  simpa [Store.goalVersion, hold] using hbound

/-- **A version of the automation config names one content.**  Others may do what they like
but write the config, calls may fail at any point, and versions must not run out.  From one
moment to the next a config stays as it is or gets another content under the next version.
So of two moments the later one has no smaller version, the same version means the same
config, and agents that have reached the stored version and stand at the version of some
earlier config know what is stored now.  A run of the stage whose content is stored already
keeps the config, and asks to write one only if a call has failed as if there were none;
after a run that succeeds the wanted content is stored. -/
theorem config_versions (hr : r.pacer.Silent) (hstart : start.NamesCluster name)
    (h : History r name around between start moments)
    (hbound : ∀ m ∈ moments, (m.store.goalVersion name).toNat < 2 ^ 64 - 1) :
    (moments.IsChain fun later earlier =>
      ∀ old, earlier.store.automationConfigs name = some old →
        ∃ new, later.store.automationConfigs name = some new ∧ (new = old ∨
          new.version.toNat = old.version.toNat + 1 ∧ old.sameContent new = false)) ∧
    (moments.Pairwise fun later earlier =>
      ∀ old, earlier.store.automationConfigs name = some old →
        ∃ new, later.store.automationConfigs name = some new ∧ old.version ≤ new.version ∧
          (new.version = old.version → new = old) ∧
          ∀ w, later.store.workloads name = some w → w.status.agentsGoalVersion = old.version →
            w.agentsReached new.version = true → new.sameContent old = true) ∧
    ∀ (ctx : Context) (s : Store), ctx.cluster.resourceName = name → s.NamesCluster name →
      (s.HasContent (wantedAutomationConfig ctx.cluster) → ∀ rest t,
        Relation.ReflTransGen (Advances around) (deployAutomationConfig ctx, s) (rest, t) →
        t.automationConfigs name = s.automationConfigs name ∧
        ∀ request, nextRequest? rest = some request →
          request.writes? = some .automationConfig →
          around.faulty = true ∧
            request = .create .automationConfig (wantedAutomationConfig ctx.cluster)) ∧
      ∀ outcome ctx' t, Ran around (deployAutomationConfig ctx) s (.ok outcome, ctx') t →
        t.HasContent (wantedAutomationConfig ctx.cluster) := by
  have hchain := h.isChain_configs hothers hbetween hr hstart hbound
  refine ⟨hchain, ?_, fun ctx s hname hs => ⟨?_, ?_⟩⟩
  · have hkeeps : moments.IsChain fun later earlier =>
        earlier.store.KeepsVersions name later.store := by
      refine hchain.imp fun later earlier hnext old hold => ?_
      obtain ⟨new, hnew, rfl | ⟨hversion, -⟩⟩ := hnext old hold
      · exact ⟨new, hnew, UInt64.le_refl _, fun _ => rfl⟩
      · refine ⟨new, hnew, UInt64.le_iff_toNat_le.2 (by omega), fun hsame => ?_⟩
        rw [hsame] at hversion
        omega
    let _ : Trans (fun later earlier : Moment => earlier.store.KeepsVersions name later.store)
        (fun later earlier : Moment => earlier.store.KeepsVersions name later.store)
        (fun later earlier : Moment => earlier.store.KeepsVersions name later.store) :=
      ⟨fun hlater hearlier => hearlier.trans hlater⟩
    refine (List.isChain_iff_pairwise.1 hkeeps).imp fun {later earlier} hlater old hold => ?_
    obtain ⟨new, hnew, hle, heq⟩ := hlater old hold
    refine ⟨new, hnew, hle, heq, fun w _ hstands hreached => ?_⟩
    -- Agents at the old version have reached the new one, so the two are the same.
    have hgoal : new.version ≤ old.version :=
      hstands ▸ (Workload.agentsReached_iff.1 hreached).2
    rw [heq (UInt64.le_antisymm hgoal hle)]
    exact old.sameContent_self
  · exact fun hcontent rest t => deployAutomationConfig_of_hasContent hothers hname hs hcontent
  · intro outcome ctx' t hran
    exact ((Guarded.deployAutomationConfig hothers hname hs).of_ran hran).content outcome rfl

end Histories

/-! ## A config that is replaced -/

/-- Calls may fail, and others do what they like but write the config under a name. -/
def Surroundings.sparing (name : ResourceName) : Surroundings :=
  ⟨true, Store.SparesConfig name, true⟩

/-- The config of three members is replaced by one of four under the next version, although
the first lookup of it has failed. -/
theorem config_versions_of_fourth_member : ∃ last earlier,
    History .standard ⟨"db", "example"⟩ (.sparing ⟨"db", "example"⟩)
      (Store.SparesConfig ⟨"db", "example"⟩)
      (.deployedFor (DbCluster.scaling 3 3).spec (.scaling 3 4)) (last :: earlier) ∧
    last.store.goalVersion ⟨"db", "example"⟩ = 2 ∧
    (∃ m ∈ earlier, m.store.goalVersion ⟨"db", "example"⟩ = 1) ∧
    ∀ m ∈ earlier, ∀ old, m.store.automationConfigs ⟨"db", "example"⟩ = some old →
      ∃ new, last.store.automationConfigs ⟨"db", "example"⟩ = some new ∧
        old.version ≤ new.version ∧ (new.version = old.version → new = old) := by
  -- The first lookup of the config fails, the next one does not.
  obtain ⟨last, earlier, hhistory, hlast, hfirst, hbound⟩ :=
    History.exists_of_schedule .standard (.sparing ⟨"db", "example"⟩) rfl default
      ⟨"db", "example"⟩ (Store.SparesConfig ⟨"db", "example"⟩)
      (.deployedFor (DbCluster.scaling 3 3).spec (.scaling 3 4))
      (.replicate 33 none ++ some (.notFound .automationConfig ⟨"db", "example"⟩) ::
        .replicate 8 none)
      (P := fun last earlier => last.store.goalVersion ⟨"db", "example"⟩ = 2 ∧
        (∃ m ∈ earlier, m.store.goalVersion ⟨"db", "example"⟩ = 1) ∧
        ∀ m ∈ last :: earlier, (m.store.goalVersion ⟨"db", "example"⟩).toNat < 2 ^ 64 - 1)
      (by decide +kernel)
  have hnames : (Store.deployedFor (DbCluster.scaling 3 3).spec (.scaling 3 4)).NamesCluster
      ⟨"db", "example"⟩ := by
    rintro c hc
    obtain rfl := Option.some.inj hc
    rfl
  have hversions := (config_versions (fun _ _ => id) (fun _ _ => id) Pacer.silent_none hnames
    hhistory hbound).2.1
  refine ⟨last, earlier, hhistory, hlast, hfirst, fun m hm old hold => ?_⟩
  obtain ⟨new, hnew, hle, heq, -⟩ := List.rel_of_pairwise_cons hversions hm old hold
  exact ⟨new, hnew, hle, heq⟩

end Reconciliation
