/-
# Running a stage

Each action and each completion check is followed through its calls once.  The
result is `Scene.Leads.runStage`: in calm surroundings running a stage on what was
observed is a turn of the scene, and nothing else can happen.
-/

import Reconciliation.Proofs.Cluster.Acts

namespace Reconciliation
namespace Scene.Leads

variable {instant : Bool} {name : ResourceName} {a : Scene} {ctx : Context}

/-- The cluster of a scene has its name. -/
theorem of_name {α : Type} {work : Work α} {Q : α → Scene → Prop}
    (h : a.cluster.resourceName = name → a.Leads instant name work Q) :
    a.Leads instant name work Q :=
  fun s hs => h hs.cluster_name s hs

/-- The workload of a scene has its name. -/
theorem of_workload_name {α : Type} {work : Work α} {Q : α → Scene → Prop}
    (h : (∀ w ∈ a.workload, w.name = name) → a.Leads instant name work Q) :
    a.Leads instant name work Q :=
  fun s hs => h hs.workload_name s hs

/-! ## Helpers -/

/-- Work that a failing call ends goes on after a call that succeeded. -/
theorem run_bind {α β : Type} {work : StoreWork α} {next : α → StoreWork β}
    {Q : Except StoreError β → Scene → Prop}
    (h : a.Leads instant name work.run fun x b =>
      match x with
      | .ok v => b.Leads instant name (next v).run Q
      | .error e => ∀ c, b.Settles c → Q (.error e) c) :
    a.Leads instant name (work >>= next).run Q := by
  rw [ExceptT.run_bind]
  refine bind (h.mono fun x b hx => ?_)
  cases x with
  | ok v => exact hx
  | error e => exact done hx

/-- The workload that is found, if any, is that of the scene. -/
theorem findWorkload {Q : Except StoreError (Option Workload) → Scene → Prop}
    (h : ∀ b c, a.Settles b → b.Settles c → Q (.ok b.workload) c) :
    a.Leads instant name (findResource .workload name).run Q := by
  refine getWorkload fun b hab => ?_
  cases hworkload : b.workload with
  | none => exact done fun c hbc => hworkload ▸ h b c hab hbc
  | some w => exact done fun c hbc => hworkload ▸ h b c hab hbc

/-- So is the config. -/
theorem findConfig {Q : Except StoreError (Option AutomationConfig) → Scene → Prop}
    (h : ∀ b, a.Settles b → Q (.ok b.config) b) :
    a.Leads instant name (findResource .automationConfig name).run Q := by
  refine getConfig fun b hab => ?_
  cases hconfig : b.config with
  | none => exact done fun c hbc => hconfig ▸ hbc.config_eq ▸ h c (hab.trans hbc)
  | some config => exact done fun c hbc => hconfig ▸ hbc.config_eq ▸ h c (hab.trans hbc)

/-- Of other resources the scene says nothing, and nothing happens to it. -/
theorem findOther {kind : Kind} {other : ResourceName}
    {Q : Except StoreError (Option kind.Object) → Scene → Prop}
    (h : ∀ b found, a.Settles b → Q (.ok found) b) :
    a.Leads instant name (findResource kind other).run Q := by
  refine getOther fun b hab found => ?_
  cases found with
  | none => exact done fun c hbc => h c none (hab.trans hbc)
  | some object => exact done fun c hbc => h c (some object) (hab.trans hbc)

/-- A workload is written over the one that is there. -/
theorem createOrUpdateWorkload {w : Workload} (hname : w.name = name)
    {Q : Except StoreError Unit → Scene → Prop}
    (h : ∀ b c, a.Settles b → (b.deploy w).Settles c → Q (.ok ()) c) :
    a.Leads instant name (createOrUpdate .workload w).run Q := by
  refine createWorkload hname ?_ ?_
  · intro b hab hnone c hbc
    refine done fun d hcd => h b d hab (Settles.trans ?_ hcd)
    rw [deploy, hnone]
    exact hbc
  · intro b hab hsome
    refine updateWorkload (k := .done) hname hsome fun c hbc stored hstored d hcd => ?_
    refine done fun e hde => h c e (hab.trans hbc) (Settles.trans ?_ hde)
    rw [deploy, hstored]
    exact hcd

/-- A status write changes the status on both sides. -/
theorem updateStatus {o : StatusOptions} (hctx : ctx.cluster = a.cluster)
    {Q : Except StoreError Outcome × Context → Scene → Prop}
    (h : ∀ b, (a.withCluster (a.cluster.written o ctx.now)).Settles b →
      Q (.ok o.outcome, { ctx with cluster := a.cluster.written o ctx.now }) b) :
    a.Leads instant name (updateStatus ctx o) Q := by
  refine of_name fun hname => ?_
  refine updateClusterStatus (by rw [hctx]; exact hname) fun b hab => done fun c hbc => ?_
  have hwritten : (a.withCluster (a.cluster.written o ctx.now)).Settles c := by
    refine (hab.withCluster _).trans ?_
    rw [hctx, hab.cluster_eq] at hbc
    exact hbc
  have hcluster := h c hwritten
  rwa [← hctx] at hcluster

/-- The outcomes of waiting are not final. -/
theorem retry_ne_done (n : Nat) : Outcome.retry n ≠ .done := by
  unfold Outcome.retry
  split <;> nofun

/-! ## Ends of actions -/

/-- What an action leaves behind: its result and its context. -/
abbrev Result := Except Failure Outcome × Context

/-- An action that waits has written a status. -/
theorem waitStep {before : Scene} {reason : String} (hknows : ctx.Knows before a)
    {Q : Result → Scene → Prop}
    (h : ∀ outcome ctx' b, outcome ≠ .done → a.Rests ctx.now b → ctx'.Knows before b →
      Q (.ok outcome, ctx') b) :
    a.Leads instant name (waitStep ctx reason) Q := by
  refine bind (updateStatus hknows.cluster fun b hb => done fun c hbc => ?_)
  have hc := hb.trans hbc
  exact h _ _ c (retry_ne_done ctx.pendingSeconds) (.inr ⟨_, ⟨rfl, .inl rfl⟩, hc⟩)
    (hknows.withCluster hc)

/-- An action that fails has tried to write a status. -/
theorem failStep {message : String} (hctx : ctx.cluster = a.cluster) {Q : Result → Scene → Prop}
    (h : ∀ failure ctx' b, a.Rests ctx.now b → Q (.error failure, ctx') b) :
    a.Leads instant name (failStep ctx message) Q := by
  refine bind (bind (updateStatus hctx fun b hb => done fun c hbc => done fun d hcd => ?_))
  exact h _ _ d (.inr ⟨_, ⟨rfl, .inr rfl⟩, (hb.trans hbc).trans hcd⟩)

/-! ## Actions -/

/-- The wanted automation config is stored in the end. -/
theorem ensureAutomationConfig (hname : a.cluster.resourceName = name)
    {Q : Except StoreError AutomationConfig → Scene → Prop}
    (h : ∀ b c config, a.Settles b → b.published.Settles c → c.config = some config →
      Q (.ok config) c) :
    a.Leads instant name (ensureAutomationConfig a.cluster).run Q := by
  unfold Reconciliation.ensureAutomationConfig
  rw [hname]
  refine run_bind (findConfig fun b hab => ?_)
  have hpublished : ∀ c, b.Settles c → c.published =
      { c with config := some ((wantedAutomationConfig a.cluster).publishedOver b.config) } := by
    intro c hbc
    rw [published, hbc.config_eq, hbc.cluster_eq, hab.cluster_eq]
  cases hconfig : b.config with
  | none =>
    rw [hconfig] at hpublished
    refine run_bind (createConfig (k := .done) hname (fun c hbc _ d hcd => ?_)
      fun c hbc hsome => absurd (hbc.config_eq.trans hconfig) hsome)
    refine done fun e hde => done fun f hef => ?_
    have hcf : c.published.Settles f := by
      rw [hpublished c hbc]
      exact hcd.trans (hde.trans hef)
    exact h c f _ (hab.trans hbc) hcf (by rw [hcf.config_eq, hpublished c hbc]; rfl)
  | some existing =>
    rw [hconfig] at hpublished
    dsimp only
    split
    · rename_i hsame
      have hkept : b.published = b := by
        rw [hpublished b .still, AutomationConfig.publishedOver, if_pos hsame, ← hconfig]
      refine done fun c hbc => h b c existing hab (by rwa [hkept]) ?_
      rw [hbc.config_eq, hconfig]
    · rename_i hsame
      simp only [AutomationConfig.publishedOver, if_neg hsame] at hpublished
      refine run_bind (updateConfig (k := .done) hname (by simp [hconfig])
        fun c hbc d hcd => ?_)
      refine done fun e hde => done fun f hef => ?_
      have hcf : c.published.Settles f := by
        rw [hpublished c hbc]
        exact hcd.trans (hde.trans hef)
      exact h c f _ (hab.trans hbc) hcf (by rw [hcf.config_eq, hpublished c hbc])

/-- The published config and a workload that was seen after it was published. -/
theorem publishAutomationConfig {cluster : DbCluster} (hcluster : cluster = a.cluster)
    (hname : a.cluster.resourceName = name)
    {Q : Except StoreError (AutomationConfig × Option Workload) → Scene → Prop}
    (h : ∀ b c d config, a.Settles b → b.published.Settles c → c.Settles d →
      Q (.ok (config, c.workload)) d) :
    a.Leads instant name (publishAutomationConfig cluster).run Q := by
  subst hcluster
  unfold Reconciliation.publishAutomationConfig
  refine run_bind (ensureAutomationConfig hname fun b c config hab hbc _ => ?_)
  rw [hname]
  refine run_bind (findWorkload fun d e hcd hde => ?_)
  exact done fun f hef => h b d f config hab (hbc.trans hcd) (hde.trans hef)

/-- The stage publishes the config; whether it waits is up to the agents. -/
theorem deployAutomationConfig (hknows : ctx.Knows a a) {Q : Result → Scene → Prop}
    (h : ∀ outcome ctx' b c d, outcome ≠ .done → a.Settles c → c.published.Settles d →
      d.Rests ctx.now b → ctx'.Knows a b → Q (.ok outcome, ctx') b) :
    a.Leads instant name (deployAutomationConfig ctx) Q := by
  refine of_name fun hname => ?_
  unfold Reconciliation.deployAutomationConfig
  refine bind (publishAutomationConfig hknows.cluster hname fun b c d config hab hbc hcd => ?_)
  have hd : b.published.Settles d := hbc.trans hcd
  have hseen := hknows.observe (hd.cluster_eq.trans hab.cluster_eq) hcd.isNone_workload.symm
  dsimp only
  split
  · exact done fun e hde =>
      h _ _ e b e nofun hab (hd.trans hde) (.inl .still) (hseen.settles hde)
  · exact waitStep hseen fun outcome ctx' e houtcome hrest hctx' =>
      h outcome ctx' e b d houtcome hab hd hrest hctx'

/-- The check of the automation config says whether the agents follow it. -/
theorem automationConfigReached (hctx : ctx.cluster = a.cluster) (hstored : a.config ≠ none)
    {Q : Except Failure Bool → Scene → Prop}
    (h : ∀ complete b, a.Settles b → (complete = true → b.Followed) → Q (.ok complete) b) :
    a.Leads instant name (automationConfigReached ctx) Q := by
  refine of_name fun hname => ?_
  unfold Reconciliation.automationConfigReached
  rw [hctx, hname]
  refine bind (findWorkload fun b c hab hbc => ?_)
  cases hworkload : b.workload with
  | none =>
    refine done fun d hcd => h true d ((hab.trans hbc).trans hcd) fun _ w hw => ?_
    rw [(hbc.trans hcd).workload_eq_none hworkload] at hw
    cases hw
  | some w =>
    refine getConfig fun d hcd => ?_
    obtain ⟨config, hconfig⟩ := Option.ne_none_iff_exists'.1 hstored
    have hbconfig : b.config = some config := hab.config_eq.trans hconfig
    have hdconfig : d.config = some config := (hbc.trans hcd).config_eq.trans hbconfig
    rw [hdconfig]
    refine done fun e hde => h _ e (((hab.trans hbc).trans hcd).trans hde) fun hreached => ?_
    have hfollowed : b.Followed := by
      intro w' hw' config' hconfig'
      rw [hworkload] at hw'
      rw [hbconfig] at hconfig'
      obtain rfl := Option.some.inj hw'
      obtain rfl := Option.some.inj hconfig'
      exact hreached
    exact ((hfollowed.of_settles hbc).of_settles hcd).of_settles hde

/-- The wanted workload is stored in the end. -/
theorem ensureWorkload {cluster : DbCluster} (hcluster : cluster = a.cluster)
    (hname : a.cluster.resourceName = name) {Q : Except StoreError Workload → Scene → Prop}
    (h : ∀ b c w, a.Settles b → b.deployed.Settles c → c.workload ≠ none → Q (.ok w) c) :
    a.Leads instant name (ensureWorkload cluster).run Q := by
  subst hcluster
  unfold Reconciliation.ensureWorkload
  refine run_bind (createOrUpdateWorkload hname fun b c hab hbc => ?_)
  rw [hname]
  refine getWorkload (k := .done) fun d hcd => ?_
  have hd : b.deployed.Settles d := by
    rw [deployed, hab.cluster_eq]
    exact hbc.trans hcd
  obtain ⟨w, hw⟩ := hd.exists_workload nofun
  rw [hw]
  exact done fun e hde => h b e w hab (hd.trans hde) ((hd.trans hde).workload_ne_none nofun)

/-- The stage writes the workload; whether it waits is up to the replicas. -/
theorem deployWorkload (hknows : ctx.Knows a a) {Q : Result → Scene → Prop}
    (h : ∀ outcome ctx' b c d, outcome ≠ .done → a.Settles c → c.deployed.Settles d →
      d.Rests ctx.now b → ctx'.Knows a b → Q (.ok outcome, ctx') b) :
    a.Leads instant name (deployWorkload ctx) Q := by
  refine of_name fun hname => ?_
  unfold Reconciliation.deployWorkload
  refine bind (ensureWorkload hknows.cluster hname fun b c w hab hc hsome => ?_)
  have hseen : Context.Knows { ctx with observedWorkload := some w } a c :=
    hknows.observe (hc.cluster_eq.trans hab.cluster_eq) hc.isNone_workload.symm
  dsimp only
  split
  · exact done fun d hcd =>
      h _ _ d b d nofun hab (hc.trans hcd) (.inl .still) (hseen.settles hcd)
  · exact waitStep hseen fun outcome ctx' d houtcome hrest hctx' =>
      h outcome ctx' d b c houtcome hab hc hrest hctx'

/-- The check of the workload says whether it is deployed. -/
theorem workloadDeployed (hctx : ctx.cluster = a.cluster) (hstored : a.workload ≠ none)
    {Q : Except Failure Bool → Scene → Prop}
    (h : ∀ complete b, a.Settles b → (complete = true → b.Deployed) → Q (.ok complete) b) :
    a.Leads instant name (workloadDeployed ctx) Q := by
  refine of_name fun hname => ?_
  unfold Reconciliation.workloadDeployed
  rw [hctx, hname]
  refine bind (getWorkload (k := .done) fun b hab => done fun c hbc => ?_)
  obtain ⟨w, hw⟩ := hab.exists_workload hstored
  rw [hw]
  refine done fun d hcd => h _ d ((hab.trans hbc).trans hcd) fun hcomplete => ?_
  have hdeployed : b.Deployed := ⟨w, hw, by simpa using hcomplete⟩
  exact (hdeployed.of_settles hbc).of_settles hcd

/-- The stored workload has its rolling updates in the end. -/
theorem resetStrategy {cluster : DbCluster} (hcluster : cluster = a.cluster)
    {Q : Except StoreError Workload → Scene → Prop}
    (hmissing : ∀ b, a.Settles b → b.workload = none → Q (.error (.notFound .workload name)) b)
    (h : ∀ b c w, a.Settles b → b.reset.Settles c → c.workload ≠ none → Q (.ok w) c) :
    a.Leads instant name (resetStrategy cluster).run Q := by
  subst hcluster
  refine of_name fun hname => ?_
  unfold Reconciliation.resetStrategy
  rw [hname]
  refine run_bind (getWorkload (k := .done) fun b hab => ?_)
  cases hw : b.workload with
  | none =>
    exact done fun c hbc d hcd => hmissing d ((hab.trans hbc).trans hcd)
      ((hbc.trans hcd).workload_eq_none hw)
  | some w =>
    refine done fun c hbc => ?_
    show c.Leads instant name (ExceptT.run (if w.updateStrategy = .rollingUpdate then _ else _)) Q
    split
    · rename_i hrolling
      have hkept : b.reset = b := by
        rw [reset, hw, Option.map_some, ← hrolling, ← hw]
      exact done fun d hcd => h b d w hab (hkept.symm ▸ hbc.trans hcd)
        ((hbc.trans hcd).workload_ne_none (by rw [hw]; nofun))
    · have hstored : c.workload ≠ none := hbc.workload_ne_none (by rw [hw]; nofun)
      refine of_workload_name fun hnames => ?_
      have hname' : ({ w with updateStrategy := .rollingUpdate } : Workload).name = name := by
        obtain ⟨w', hw'⟩ := Option.ne_none_iff_exists'.1 hstored
        rw [← hnames w' hw', ← hbc.withStatus_eq hw hw']
      refine run_bind (updateWorkload (k := .done) hname' hstored fun d hcd stored hd e hde => ?_)
      have hstatus : ({ w with status := stored.status } : Workload) = stored :=
        (hbc.trans hcd).withStatus_eq hw hd
      have hreset : d.reset.Settles e := by
        rw [reset, hd, Option.map_some, ← hstatus]
        exact hde
      refine done fun f hef => done fun g hfg => ?_
      have hg : d.reset.Settles g := (hreset.trans hef).trans hfg
      exact h d g _ (hab.trans (hbc.trans hcd)) hg (hg.workload_ne_none (by rw [reset, hd]; nofun))

/-- A stored workload gets its rolling updates back; without one the stage fails. -/
theorem resetUpdateStrategy (hknows : ctx.Knows a a) {Q : Result → Scene → Prop}
    (hfailed : ∀ failure ctx' b, a.Rests ctx.now b → Q (.error failure, ctx') b)
    (h : ∀ ctx' b c, a.Settles c → c.reset.Settles b → b.workload ≠ none → ctx'.Knows a b →
      Q (.ok .requeue, ctx') b) :
    a.Leads instant name (resetUpdateStrategy ctx) Q := by
  unfold Reconciliation.resetUpdateStrategy
  refine bind (resetStrategy hknows.cluster (fun b hab _ => ?_) fun b c w hab hbc hsome => ?_)
  · refine failStep (hknows.cluster.trans hab.cluster_eq.symm) fun failure ctx' c hc => ?_
    exact hfailed failure ctx' c (hab.rests hc)
  · refine done fun d hcd => h _ d b hab (hbc.trans hcd) (hcd.workload_ne_none hsome) ?_
    obtain ⟨w', hw'⟩ := hcd.exists_workload hsome
    have hcluster : d.cluster = a.cluster := (hbc.trans hcd).cluster_eq.trans hab.cluster_eq
    exact ⟨hknows.cluster.trans hcluster.symm, hknows.status, by rw [hw']; rfl⟩

/-- The check of the update strategy holds once it was reset. -/
theorem updateStrategyReset (hctx : ctx.cluster = a.cluster)
    (hreset : ∀ w ∈ a.workload, w.updateStrategy = .rollingUpdate) (hstored : a.workload ≠ none)
    {Q : Except Failure Bool → Scene → Prop} (h : ∀ b, a.Settles b → Q (.ok true) b) :
    a.Leads instant name (updateStrategyReset ctx) Q := by
  refine of_name fun hname => ?_
  unfold Reconciliation.updateStrategyReset storeCheck
  rw [hctx, hname]
  refine bind (run_bind (getWorkload (k := .done) fun b hab => ?_))
  obtain ⟨w, hw⟩ := hab.exists_workload hstored
  rw [hw]
  refine done fun c hbc => done fun d hcd => done fun e hde => ?_
  have hrolling : w.updateStrategy = .rollingUpdate := by
    rcases hab.workload_eq with heq | ⟨w', hw', heq⟩
    · exact hreset w (heq ▸ hw)
    · rw [heq] at hw
      obtain rfl := Option.some.inj hw
      exact hreset w' hw'
  have hcheck := h e (((hab.trans hbc).trans hcd).trans hde)
  simpa [hrolling, Except.mapError] using hcheck

/-- The result is published; it counts as running once no member is left to be
added or removed. -/
theorem updateStatusStep (hknows : ctx.Knows a a) {Q : Result → Scene → Prop}
    (h : ∀ outcome ctx' b, outcome ≠ .done → a.Acts ctx .updateStatus true b →
      ctx'.Knows a b → Q (.ok outcome, ctx') b) :
    a.Leads instant name (updateStatusStep ctx) Q := by
  refine of_name fun hname => ?_
  unfold Reconciliation.updateStatusStep
  split
  · rename_i hscaling
    refine bind (updateStatus hknows.cluster fun b hb => done fun c hbc => ?_)
    have hc := hb.trans hbc
    exact h _ _ c (retry_ne_done _) (.counted (hknows.cluster ▸ hscaling) hc)
      (hknows.withCluster hc)
  · rename_i hscaling
    refine bind (updateStatus hknows.cluster fun b hb => bind ?_)
    have hcluster : b.cluster = a.cluster.written (runningStatus ctx) ctx.now := hb.cluster_eq
    unfold recordAppliedSpec
    dsimp only
    have hname' : (withAppliedSpec (a.cluster.written (runningStatus ctx) ctx.now)).resourceName =
        name := hname
    refine updateCluster hname' fun c hbc => done fun d hcd => done fun e hde => ?_
    have hwritten : (a.withCluster (withAppliedSpec
        (a.cluster.written (runningStatus ctx) ctx.now))).Settles e := by
      have hc := (hb.trans hbc).withCluster (withAppliedSpec
        (a.cluster.written (runningStatus ctx) ctx.now))
      refine hc.trans (Settles.trans ?_ (hcd.trans hde))
      have hstatus := (hbc.cluster_eq.trans hcluster)
      rw [hstatus]
      exact .still
    have hfinished : a.cluster.isStillScaling = false := by
      rw [← hknows.cluster]
      exact Bool.eq_false_iff.2 hscaling
    exact h _ _ e nofun (.running hfinished hwritten) (hknows.withCluster hwritten)

/-- The end of a pass leaves an empty progress record. -/
theorem reconciliationEnd (hknows : ctx.Knows a a) {Q : Result → Scene → Prop}
    (h : ∀ ctx' b, a.Acts ctx .reconciliationEnd true b → ctx'.Knows a b →
      Q (.ok .done, ctx') b) :
    a.Leads instant name (reconciliationEnd ctx) Q := by
  refine of_name fun hname => ?_
  unfold Reconciliation.reconciliationEnd
  rw [hknows.cluster]
  have hname' : (withFreshProgress a.cluster).resourceName = name := hname
  refine updateCluster hname' fun b hab => done fun c hbc => ?_
  have hc : (a.withCluster (withFreshProgress a.cluster)).Settles c := by
    refine (hab.withCluster _).trans ?_
    rw [hab.cluster_eq] at hbc
    exact hbc
  exact h _ c (.ended hc) (hknows.withCluster hc)

/-! ## The stages before the deployment -/

/-- Looking at the objects of TLS leaves the scene alone. -/
theorem tlsObjectsValid {cluster : DbCluster} {Q : Except StoreError Bool → Scene → Prop}
    (h : ∀ result b, a.Settles b → Q result b) :
    a.Leads instant name (tlsObjectsValid cluster).run Q := by
  unfold Reconciliation.tlsObjectsValid
  refine run_bind (findOther fun b found hab => ?_)
  cases found with
  | none => exact done fun c hbc => h _ c (hab.trans hbc)
  | some secret =>
    dsimp only
    split
    · refine run_bind (findOther fun c found hbc => ?_)
      cases found with
      | none => exact done fun d hcd => h _ d ((hab.trans hbc).trans hcd)
      | some configMap => exact done fun d hcd => h _ d ((hab.trans hbc).trans hcd)
    · exact done fun c hbc => h _ c (hab.trans hbc)

/-- The operator secret is no part of the scene. -/
theorem ensureOperatorSecret {cluster : DbCluster} {Q : Except StoreError Unit → Scene → Prop}
    (h : ∀ result b, a.Settles b → Q result b) :
    a.Leads instant name (ensureOperatorSecret cluster).run Q := by
  unfold Reconciliation.ensureOperatorSecret
  refine run_bind (getOther (k := .done) fun b hab found => ?_)
  cases found with
  | none => exact done fun c hbc d hcd => h _ d ((hab.trans hbc).trans hcd)
  | some certificates =>
    refine done fun c hbc => ?_
    have hkind : Kind.secret = .service ∨ Kind.secret = .secret ∨ Kind.secret = .configMap :=
      .inr (.inl rfl)
    refine createOther hkind ?_ ?_
    · exact fun d hcd => done fun e hde => h _ e (((hab.trans hbc).trans hcd).trans hde)
    · refine fun d hcd => updateOther (k := .done) hkind ?_ ?_
      · exact fun e hde => done fun f hef =>
          h _ f ((((hab.trans hbc).trans hcd).trans hde).trans hef)
      · exact fun e hde => done fun f hef =>
          h _ f ((((hab.trans hbc).trans hcd).trans hde).trans hef)

/-- What a stage before the deployment leaves behind: the scene at rest. -/
def AtRest (ctx : Context) (a : Scene) (x : Result) (b : Scene) : Prop :=
  a.Rests ctx.now b ∧ ∀ outcome, x.1 = .ok outcome → outcome ≠ .done ∧ x.2.Knows a b

/-- Waiting writes nothing but a status. -/
theorem atRest_waitStep {reason : String} {b : Scene} (hknows : ctx.Knows a a)
    (hab : a.Settles b) : b.Leads instant name (Reconciliation.waitStep ctx reason)
      (AtRest ctx a) := by
  refine waitStep (hknows.settles hab) fun outcome ctx' c houtcome hrest hctx' =>
    ⟨hab.rests hrest, fun outcome' heq => ?_⟩
  obtain rfl := Except.ok.inj heq
  exact ⟨houtcome, hctx'⟩

/-- Failing writes nothing but a status. -/
theorem atRest_failStep {message : String} {b : Scene} (hknows : ctx.Knows a a)
    (hab : a.Settles b) : b.Leads instant name (Reconciliation.failStep ctx message)
      (AtRest ctx a) :=
  failStep (hknows.cluster.trans hab.cluster_eq.symm) fun _ _ _ hrest =>
    ⟨hab.rests hrest, fun _ heq => nomatch heq⟩

/-- Work that is done leaves the scene as it was. -/
theorem atRest_done {b : Scene} (hknows : ctx.Knows a a) (hab : a.Settles b) :
    b.Leads instant name (.done (.ok .requeue, ctx)) (AtRest ctx a) := by
  refine done fun c hbc => ⟨.inl (hab.trans hbc), fun outcome heq => ?_⟩
  obtain rfl := Except.ok.inj heq
  exact ⟨nofun, hknows.settles (hab.trans hbc)⟩

/-- The first stage does nothing. -/
theorem startFresh (hknows : ctx.Knows a a) :
    a.Leads instant name (startFresh ctx) (AtRest ctx a) :=
  atRest_done hknows .still

/-- Validating the spec writes a status, if anything. -/
theorem validateSpecStep (hknows : ctx.Knows a a) :
    a.Leads instant name (validateSpecStep ctx) (AtRest ctx a) := by
  unfold Reconciliation.validateSpecStep
  split
  · exact atRest_failStep hknows .still
  · exact atRest_done hknows .still

/-- A service is no part of the scene. -/
theorem createService (hknows : ctx.Knows a a) :
    a.Leads instant name (createService ctx) (AtRest ctx a) := by
  unfold Reconciliation.createService
  refine createOther (.inl rfl) ?_ ?_
  · exact fun b hab => atRest_done hknows hab
  · exact fun b hab => atRest_done hknows hab

/-- Validating TLS looks around. -/
theorem tlsValidation (hknows : ctx.Knows a a) :
    a.Leads instant name (tlsValidation ctx) (AtRest ctx a) := by
  unfold Reconciliation.tlsValidation
  refine bind (tlsObjectsValid fun result b hab => ?_)
  rcases result with error | ⟨_ | _⟩
  · exact atRest_failStep hknows hab
  · exact atRest_waitStep hknows hab
  · exact atRest_done hknows hab

/-- The resources of TLS are no part of the scene. -/
theorem createTlsResources (hknows : ctx.Knows a a) :
    a.Leads instant name (createTlsResources ctx) (AtRest ctx a) := by
  unfold Reconciliation.createTlsResources
  refine bind (ensureOperatorSecret fun result b hab => ?_)
  cases result with
  | error error => exact atRest_failStep hknows hab
  | ok => exact atRest_done hknows hab

/-- The checks before the deployment leave the scene alone. -/
theorem storeCheck {work : StoreWork Bool}
    (hwork : a.Leads instant name work.run fun _ b => a.Settles b) :
    a.Leads instant name (storeCheck work) fun _ b => a.Settles b :=
  bind (hwork.mono fun _ _ hab => done fun _ hbc => hab.trans hbc)

/-- The check of the service looks around. -/
theorem serviceExists :
    a.Leads instant name (serviceExists ctx) fun _ b => a.Settles b :=
  storeCheck (run_bind (findOther fun _ _ hab => done fun _ hbc => hab.trans hbc))

/-- The check of TLS looks around. -/
theorem tlsValidated :
    a.Leads instant name (tlsValidated ctx) fun _ b => a.Settles b :=
  storeCheck (tlsObjectsValid fun _ _ hab => hab)

/-! ## Running a stage -/

/-- What has to be known of an action and of the check after it. -/
def Runs (instant : Bool) (name : ResourceName) (ctx : Context) (a : Scene) (stage : Stage)
    (x : Result) (b : Scene) : Prop :=
  match x with
  | (.error _, _) => a.Acts ctx stage false b
  | (.ok outcome, ctx') =>
    (outcome = .done ↔ stage = .reconciliationEnd) ∧ ctx'.Knows a b ∧
      b.Leads instant name (stage.isComplete ctx') fun verdict c => b.Settles c ∧
        match verdict with
        | .error _ => a.Acts ctx stage false c
        | .ok complete => a.Acts ctx stage complete c

/-- A stage is run by its action and its check. -/
theorem runStage_of_runs {stage : Stage}
    (h : a.Leads instant name (stage.action ctx) (Runs instant name ctx a stage)) :
    a.Leads instant name (Reconciler.runStage name stage ctx) (Turn name ctx a stage) := by
  refine bind (h.mono fun (result, ctx') b hruns => ?_)
  cases result with
  | error cause => exact done fun c hbc => .stays (Acts.settles hruns hbc) nofun
  | ok outcome =>
    obtain ⟨houtcome, hknows, hcheck⟩ := hruns
    refine bind (hcheck.mono fun verdict c ⟨hbc, hacts⟩ => ?_)
    rcases verdict with cause | ⟨_ | _⟩
    · exact done fun d hcd => .stays (hacts.settles hcd) nofun
    · refine done fun d hcd => .stays (hacts.settles hcd) fun heq => ?_
      obtain rfl := houtcome.1 (Except.ok.inj heq)
      cases hacts with
      | prepared hprepares => cases hprepares
    · refine done fun d hcd => ?_
      rw [(hknows.settles (hbc.trans hcd)).next?_eq]
      exact .leaves (hacts.settles hcd) houtcome

/-- A stage before the deployment is run by an action and a check that leave the
scene at rest. -/
theorem runs_of_atRest {stage : Stage} (hprepares : stage.prepares = true)
    (haction : a.Leads instant name (stage.action ctx) (AtRest ctx a))
    (hcheck : ∀ ctx' (b : Scene),
      b.Leads instant name (stage.isComplete ctx') fun _ c => b.Settles c) :
    a.Leads instant name (stage.action ctx) (Runs instant name ctx a stage) := by
  refine haction.mono fun (result, ctx') b ⟨hrest, hok⟩ => ?_
  cases result with
  | error cause => exact .prepared hprepares hrest
  | ok outcome =>
    obtain ⟨houtcome, hknows⟩ := hok outcome rfl
    have hend : stage ≠ .reconciliationEnd := by
      rintro rfl
      cases hprepares
    refine ⟨iff_of_false houtcome hend, hknows, (hcheck ctx' b).mono fun verdict c hbc => ⟨hbc, ?_⟩⟩
    cases verdict with
    | error cause => exact .prepared hprepares (hrest.settles hbc)
    | ok complete => exact .prepared hprepares (hrest.settles hbc)

/-- A stage without a check is complete when its action was. -/
theorem isComplete_of_none {stage : Stage} (hcheck : stage.check? = none) {b : Scene}
    {ctx' : Context} {Q : Except Failure Bool → Scene → Prop}
    (h : ∀ c, b.Settles c → Q (.ok true) c) :
    b.Leads instant name (stage.isComplete ctx') Q := by
  unfold Stage.isComplete
  rw [hcheck]
  exact done h

/-- Without a check there is nothing to do. -/
theorem settles_isComplete {stage : Stage} (hcheck : stage.check? = none) {b : Scene}
    {ctx' : Context} : b.Leads instant name (stage.isComplete ctx') fun _ c => b.Settles c :=
  isComplete_of_none hcheck fun _ hbc => hbc

/-- **Running a stage is a turn of the scene.** -/
theorem runStage (stage : Stage) (hknows : ctx.Knows a a) :
    a.Leads instant name (Reconciler.runStage name stage ctx) (Turn name ctx a stage) := by
  refine runStage_of_runs ?_
  cases stage with
  | startFresh =>
    exact runs_of_atRest rfl (startFresh hknows) fun _ _ => settles_isComplete rfl
  | validateSpec =>
    exact runs_of_atRest rfl (validateSpecStep hknows) fun _ _ => settles_isComplete rfl
  | createService => exact runs_of_atRest rfl (createService hknows) fun _ _ => serviceExists
  | tlsValidation => exact runs_of_atRest rfl (tlsValidation hknows) fun _ _ => tlsValidated
  | createTlsResources =>
    exact runs_of_atRest rfl (createTlsResources hknows) fun _ _ => settles_isComplete rfl
  | deployAutomationConfig =>
    refine deployAutomationConfig hknows fun outcome ctx' b c d houtcome hac hcd hrest hctx' => ?_
    refine ⟨iff_of_false houtcome nofun, hctx', ?_⟩
    have hstored : b.config ≠ none := by
      rw [hrest.config_eq, hcd.config_eq]
      nofun
    refine automationConfigReached hctx'.cluster hstored fun complete e hbe hfollowed => ⟨hbe, ?_⟩
    exact .published hac hcd (hrest.settles hbe) hfollowed
  | deployWorkload =>
    refine deployWorkload hknows fun outcome ctx' b c d houtcome hac hcd hrest hctx' => ?_
    refine ⟨iff_of_false houtcome nofun, hctx', ?_⟩
    have hstored : b.workload ≠ none := hrest.workload_ne_none (hcd.workload_ne_none nofun)
    refine workloadDeployed hctx'.cluster hstored fun complete e hbe hdeployed => ⟨hbe, ?_⟩
    exact .deployed hac hcd (hrest.settles hbe) hdeployed
  | resetUpdateStrategy =>
    refine resetUpdateStrategy hknows (fun failure ctx' b hrest => .missing hrest)
      fun ctx' b c hac hcb hstored hctx' => ?_
    refine ⟨iff_of_false nofun nofun, hctx', ?_⟩
    have hrolling : ∀ w ∈ b.workload, w.updateStrategy = .rollingUpdate := by
      intro w hw
      have hmap := hcb.map_workload Workload.updateStrategy fun _ _ => rfl
      rw [hw, reset, Option.map_map] at hmap
      obtain ⟨w', -, hw'⟩ := Option.map_eq_some_iff.1 hmap.symm
      exact hw'.symm
    refine updateStrategyReset hctx'.cluster hrolling hstored fun d hbd => ⟨hbd, ?_⟩
    exact .reset hac (hcb.trans hbd) (hbd.workload_ne_none hstored)
  | updateStatus =>
    refine updateStatusStep hknows fun outcome ctx' b houtcome hacts hctx' => ?_
    refine ⟨iff_of_false houtcome nofun, hctx', isComplete_of_none rfl fun c hbc => ?_⟩
    exact ⟨hbc, hacts.settles hbc⟩
  | reconciliationEnd =>
    refine reconciliationEnd hknows fun ctx' b hacts hctx' => ?_
    refine ⟨iff_of_true rfl rfl, hctx', isComplete_of_none rfl fun c hbc => ?_⟩
    exact ⟨hbc, hacts.settles hbc⟩

end Scene.Leads
end Reconciliation
