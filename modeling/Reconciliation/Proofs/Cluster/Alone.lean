/-
# Calls with nobody else around

A call that nobody disturbs goes one way only (`Alone`).  In a store with instant rollout
that was written through its calls alone, every stage completes in one call
(`Stage.Completes`), with one exception: the certificate and the authority have to be
provided by the user (`Store.ServesTls`).  So the reconciler advances with every call
(`Reconciler.Advances`), or it waits for the user.
-/

import Reconciliation.Proofs.Cluster.Members
import Reconciliation.Proofs.Cluster.Settled

namespace Reconciliation

/-! ## Undisturbed work -/

/-- With nobody else around the work ends with `Q`. -/
def Alone {α : Type} (work : Work α) (s : Store) (Q : α → Store → Prop) : Prop :=
  Q (work.run (Store.handle true false) s).1 (work.run (Store.handle true false) s).2

namespace Alone

variable {α β : Type} {s : Store}

/-- Less may be asked of the end. -/
theorem mono {work : Work α} {Q P : α → Store → Prop} (h : Alone work s Q)
    (himp : ∀ a t, Q a t → P a t) : Alone work s P :=
  himp _ _ h

theorem done {a : α} {Q : α → Store → Prop} (h : Q a s) : Alone (.done a) s Q := h

/-- Work that is done alone ends where the rest begins. -/
theorem bind {work : Work α} {next : α → Work β} {Q : β → Store → Prop}
    (h : Alone work s fun a t => Alone (next a) t Q) : Alone (work >>= next) s Q := by
  rw [Alone, Program.run_bind]
  exact h

/-- A call that nobody disturbs reaches the store. -/
theorem call {r : Request} {k : r.Reply → Work β} {Q : β → Store → Prop}
    (h : Alone (k (s.perform true r).1) (s.perform true r).2 Q) :
    Alone (callStore r >>= k) s Q := h

/-- What is ensured in calm surroundings happens with nobody else around. -/
theorem of_ensures {work : Work α} {Q : α → Store → Prop} (h : Ensures (.calm true) work s Q) :
    Alone work s Q :=
  h _ _ (.of_run false nofun work s)

/-- The end is one and the same, so what holds of it holds together. -/
theorem and {work : Work α} {Q P : α → Store → Prop} (h : Alone work s Q) (h' : Alone work s P) :
    Alone work s fun a t => Q a t ∧ P a t :=
  ⟨h, h'⟩

/-- A store that was written stays so. -/
theorem written {work : Work α} {Q : α → Store → Prop} (hs : s.Written) (h : Alone work s Q) :
    Alone work s fun a t => t.Written ∧ Q a t :=
  ⟨hs.run work, h⟩

/-- A failing call ends the work with its error. -/
theorem run_bind {work : StoreWork α} {k : α → StoreWork β}
    {Q : Except StoreError β → Store → Prop}
    (h : Alone work.run s fun x t =>
      match x with
      | .ok a => Alone (k a).run t Q
      | .error error => Q (.error error) t) : Alone (work >>= k).run s Q := by
  rw [ExceptT.run_bind]
  refine bind (h.mono fun x t hx => ?_)
  cases x with
  | ok a => exact hx
  | error error => exact hx

/-- Sleeping leaves the store as it is. -/
theorem of_onlySleeps {work : Work Unit} (h : OnlySleeps work) {Q : Unit → Store → Prop}
    (hQ : Q () s) : Alone work s Q := by
  induction h with
  | done => exact hQ
  | sleep d _ ih => exact ih

variable {kind : Kind} {name : ResourceName}

/-- Looking a resource up. -/
theorem get {k : Except StoreError kind.Object → Work β} {Q : β → Store → Prop}
    (h : Alone (k (Scene.Leads.reply kind name (s.get? kind name))) s Q) :
    Alone (callStore (.get kind name) >>= k) s Q := by
  refine call ?_
  rwa [Scene.Leads.perform_get]

/-- What is stored is found. -/
theorem getResource {object : kind.Object} (hstored : s.get? kind name = some object)
    {Q : Except StoreError kind.Object → Store → Prop} (h : Q (.ok object) s) :
    Alone (getResource kind name).run s Q := by
  refine get (k := .done) ?_
  rw [hstored]
  exact h

/-- What is looked up is what is stored, also when nothing is. -/
theorem findResource {Q : Except StoreError (Option kind.Object) → Store → Prop}
    (h : Q (.ok (s.get? kind name)) s) : Alone (findResource kind name).run s Q := by
  refine get ?_
  cases hget : s.get? kind name <;> rwa [hget] at h

/-- Adding a resource fails only if there is one already. -/
theorem create {object : kind.Object} {k : Except StoreError Unit → Work β}
    {Q : β → Store → Prop}
    (hfree : s.get? kind (kind.nameOf object) = none →
      Alone (k (.ok ())) ((s.insert kind (kind.initial object)).rollOut true kind
        (kind.nameOf object)) Q)
    (htaken : s.get? kind (kind.nameOf object) ≠ none →
      Alone (k (.error (.alreadyExists kind (kind.nameOf object)))) s Q) :
    Alone (callStore (.create kind object) >>= k) s Q := by
  refine call ?_
  cases hget : s.get? kind (kind.nameOf object) with
  | none =>
    have hfree := hfree hget
    simpa [Store.perform, hget] using hfree
  | some stored =>
    have htaken := htaken (by simp [hget])
    simpa [Store.perform, hget] using htaken

/-- Replacing a resource that is there. -/
theorem update {object stored : kind.Object}
    (hstored : s.get? kind (kind.nameOf object) = some stored)
    {k : Except StoreError Unit → Work β} {Q : β → Store → Prop}
    (h : Alone (k (.ok ())) ((s.put (kind.nameOf object) kind (kind.updated stored object)).rollOut
      true kind (kind.nameOf object)) Q) :
    Alone (callStore (.update kind object) >>= k) s Q := by
  refine call ?_
  simpa [Store.perform, hstored] using h

/-- A resource that was added is there. -/
theorem get?_created_ne_none (s : Store) (kind : Kind) (object : kind.Object) :
    ((s.insert kind (kind.initial object)).rollOut true kind (kind.nameOf object)).get? kind
      (kind.nameOf object) ≠ none := by
  have hname : kind.nameOf (kind.initial object) = kind.nameOf object := by cases kind <;> rfl
  refine Store.get?_rollOut_ne_none ?_ true kind _
  rw [Store.insert, hname]
  exact Store.get?_put_ne_none s _ kind _

/-- A resource that is written over what may be there is there in the end. -/
theorem createOrUpdate {object : kind.Object} {Q : Except StoreError Unit → Store → Prop}
    (h : ∀ t : Store, t.get? kind (kind.nameOf object) ≠ none → Q (.ok ()) t) :
    Alone (createOrUpdate kind object).run s Q := by
  refine create (fun hfree => h _ (get?_created_ne_none s kind object)) fun htaken => ?_
  · obtain ⟨stored, hstored⟩ := Option.ne_none_iff_exists'.1 htaken
    exact update (k := .done) hstored
      (h _ (Store.get?_rollOut_ne_none (Store.get?_put_ne_none s _ kind _) true kind _))

/-- A stored cluster can be replaced, and its status as well. -/
theorem replace {name : ResourceName} {c new : DbCluster} (hstored : s.clusters name = some c)
    (hname : new.resourceName = name) {k : Except StoreError Unit → Work β}
    {Q : β → Store → Prop}
    (h : Alone (k (.ok ())) (s.put name .cluster { new with status := c.status }) Q) :
    Alone (callStore (.update .cluster new) >>= k) s Q := by
  refine call ?_
  rwa [Store.perform_updateCluster hstored hname]

/-- A new status goes to the stored cluster, whose other parts stay. -/
theorem publish {name : ResourceName} {c new : DbCluster} (hstored : s.clusters name = some c)
    (hname : new.resourceName = name) {k : Except StoreError Unit → Work β}
    {Q : β → Store → Prop}
    (h : Alone (k (.ok ())) (s.put name .cluster { c with status := new.status }) Q) :
    Alone (callStore (.updateStatus new) >>= k) s Q := by
  refine call ?_
  rwa [Store.perform_updateStatus hstored hname]

/-- A status is written to both sides, with the outcome that goes with it. -/
theorem updateStatus {ctx : Context} {o : StatusOptions}
    (hstored : s.clusters ctx.cluster.resourceName ≠ none)
    {Q : Except StoreError Outcome × Context → Store → Prop}
    (h : ∀ status c, Q (.ok o.outcome, { ctx with cluster := { ctx.cluster with status } })
      (s.put ctx.cluster.resourceName .cluster c)) :
    Alone (updateStatus ctx o) s Q := by
  obtain ⟨c, hc⟩ := Option.ne_none_iff_exists'.1 hstored
  exact publish hc (by rfl) (h _ _)

end Alone

/-! ## The user's certificate -/

/-- The certificate, its key and the authority of a cluster are there. -/
structure Store.ServesTls (s : Store) (c : DbCluster) : Prop where
  certificate : ∃ secret, s.secrets c.certificateSecretName = some secret ∧
    secret.data.contains certificateKey = true ∧ secret.data.contains privateKeyKey = true
  authority : ∃ configMap, s.configMaps c.authorityConfigMapName = some configMap ∧
    configMap.data.contains authorityKey = true

namespace DbCluster.SameSpec

variable {c c' : DbCluster}

/-- The certificate secret is named by the spec. -/
theorem certificateSecretName_eq (h : c.SameSpec c') :
    c'.certificateSecretName = c.certificateSecretName := by
  rw [DbCluster.certificateSecretName, h.spec, h.space]
  rfl

/-- So is the config map of the authority. -/
theorem authorityConfigMapName_eq (h : c.SameSpec c') :
    c'.authorityConfigMapName = c.authorityConfigMapName := by
  rw [DbCluster.authorityConfigMapName, h.spec, h.space]
  rfl

end DbCluster.SameSpec

/-- The certificate and the authority are looked for under names that the spec gives. -/
theorem Store.ServesTls.congr {s t : Store} {c c' : DbCluster} (h : s.ServesTls c)
    (hspec : c.SameSpec c') (hsecrets : t.secrets = s.secrets)
    (hmaps : t.configMaps = s.configMaps) : t.ServesTls c' where
  certificate := by
    rw [hspec.certificateSecretName_eq, hsecrets]
    exact h.certificate
  authority := by
    rw [hspec.authorityConfigMapName_eq, hmaps]
    exact h.authority

/-- TLS is served when both objects have the entries that are looked for. -/
theorem Store.servesTls_iff {s : Store} {c : DbCluster} : s.ServesTls c ↔
    (s.secrets c.certificateSecretName).any (fun secret =>
      secret.data.contains certificateKey && secret.data.contains privateKeyKey) = true ∧
    (s.configMaps c.authorityConfigMapName).any (fun configMap =>
      configMap.data.contains authorityKey) = true := by
  constructor
  · rintro ⟨⟨secret, hsecret, hkeys⟩, configMap, hmap, hkey⟩
    rw [hsecret, hmap]
    exact ⟨by simpa using hkeys, hkey⟩
  · rintro ⟨hkeys, hkey⟩
    obtain ⟨secret, hsecret, hkeys⟩ := (Option.any_eq_true _ _).1 hkeys
    obtain ⟨configMap, hmap, hkey⟩ := (Option.any_eq_true _ _).1 hkey
    exact ⟨⟨secret, hsecret, by simpa using hkeys⟩, configMap, hmap, hkey⟩

/-- Looking for the certificate finds out whether it is there, and nothing else. -/
theorem Alone.tlsObjectsValid {s : Store} {c : DbCluster}
    {Q : Except StoreError Bool → Store → Prop}
    (h : ∀ valid, (valid = true ↔ s.ServesTls c) → Q (.ok valid) s) :
    Alone (tlsObjectsValid c).run s Q := by
  refine run_bind (findResource ?_)
  dsimp only [Store.get?]
  cases hsecret : s.secrets c.certificateSecretName with
  | none => exact h false (by simp [Store.servesTls_iff, hsecret])
  | some secret =>
    dsimp only
    split
    · rename_i hkeys
      refine run_bind (findResource ?_)
      dsimp only [Store.get?]
      cases hmap : s.configMaps c.authorityConfigMapName with
      | none => exact h false (by simp [Store.servesTls_iff, hmap])
      | some configMap =>
        refine h _ ?_
        rw [Store.servesTls_iff, hsecret, hmap, Option.any_some, Option.any_some, hkeys]
        simp
    · rename_i hkeys
      exact h false (by simp [Store.servesTls_iff, hsecret, Bool.eq_false_iff.2 hkeys])

/-! ## Stages that complete -/

/-- With nobody else around the stage completes, and leaves a store with `Q` behind. -/
def Stage.Completes (stage : Stage) (ctx : Context) (s : Store) (Q : Store → Prop) : Prop :=
  Alone (stage.action ctx) s fun x t => ∃ outcome, x.1 = .ok outcome ∧
    Alone (stage.isComplete x.2) t fun verdict u => verdict = .ok true ∧ Q u

namespace Stage

variable {ctx : Context} {s : Store}

/-- The first stage has nothing to do. -/
theorem completes_startFresh : Completes .startFresh ctx s (· = s) := ⟨_, rfl, rfl, rfl⟩

/-- A spec without a problem is found valid. -/
theorem completes_validateSpec (h : specProblem? ctx.cluster = none) :
    Completes .validateSpec ctx s (· = s) := by
  have hvalid : Reconciliation.validateSpec ctx.cluster = .ok () := by
    rw [Reconciliation.validateSpec, h]
  have haction : action .validateSpec ctx = .done (.ok .requeue, ctx) := by
    show validateSpecStep ctx = _
    rw [validateSpecStep, hvalid]
    rfl
  rw [Completes, haction]
  exact ⟨_, rfl, rfl, rfl⟩

/-- The service is there once it was created, and nothing else changes. -/
theorem completes_createService : Completes .createService ctx s fun t =>
    t.secrets = s.secrets ∧ t.configMaps = s.configMaps := by
  have hexists : ∀ t : Store, t.services ctx.cluster.serviceName ≠ none →
      t.secrets = s.secrets ∧ t.configMaps = s.configMaps →
      Alone (isComplete .createService ctx) t fun verdict u =>
        verdict = .ok true ∧ u.secrets = s.secrets ∧ u.configMaps = s.configMaps := by
    intro t hservice hkept
    refine .bind (.run_bind (.findResource ⟨?_, hkept⟩))
    show Except.ok (t.services ctx.cluster.serviceName).isSome = _
    rw [Option.isSome_iff_ne_none.2 hservice]
  refine .create (fun _ => ?_) fun htaken => ?_
  · have hcreated := Alone.get?_created_ne_none s .service (wantedService ctx.cluster)
    exact ⟨_, rfl, hexists _ hcreated ⟨rfl, rfl⟩⟩
  · exact ⟨_, rfl, hexists _ htaken ⟨rfl, rfl⟩⟩

/-- TLS is found valid where it is served. -/
theorem completes_tlsValidation (h : s.ServesTls ctx.cluster) :
    Completes .tlsValidation ctx s (· = s) := by
  have hvalid : ∀ {Q : Except StoreError Bool → Store → Prop}, Q (.ok true) s →
      Alone (tlsObjectsValid ctx.cluster).run s Q := by
    intro Q hQ
    refine .tlsObjectsValid fun valid hserves => ?_
    rwa [hserves.2 h]
  exact .bind (hvalid ⟨_, rfl, .bind (hvalid ⟨rfl, rfl⟩)⟩)

/-- The operator secret can be written as soon as there are certificates. -/
theorem completes_createTlsResources
    (h : s.secrets ctx.cluster.certificateSecretName ≠ none) :
    Completes .createTlsResources ctx s fun _ => True := by
  obtain ⟨certificates, hstored⟩ := Option.ne_none_iff_exists'.1 h
  have hget : s.get? .secret ctx.cluster.certificateSecretName = some certificates := hstored
  exact .bind (.run_bind (.getResource hget (.createOrUpdate fun _ _ => ⟨_, rfl, rfl, trivial⟩)))

end Stage

/-- The published config is the stored one. -/
theorem Alone.ensureAutomationConfig (s : Store) (c : DbCluster) :
    Alone (ensureAutomationConfig c).run s fun x t =>
      ∃ config, x = .ok config ∧ t.automationConfigs c.resourceName = some config := by
  refine run_bind (findResource ?_)
  dsimp only [Store.get?]
  cases hconfig : s.automationConfigs c.resourceName with
  | none =>
    refine run_bind (create (k := .done) (fun _ => ?_) fun htaken => absurd hconfig htaken)
    exact ⟨_, rfl, s.automationConfigs_put_rollOut _ _⟩
  | some existing =>
    dsimp only
    split
    · exact ⟨existing, rfl, hconfig⟩
    · have hstored : s.get? .automationConfig c.resourceName = some existing := hconfig
      refine run_bind (update (k := .done) hstored ?_)
      exact ⟨_, rfl, s.automationConfigs_put_rollOut _ _⟩

/-- A published config is the stored one, and comes with the workload that is stored. -/
theorem Alone.publishAutomationConfig (s : Store) (c : DbCluster) :
    Alone (publishAutomationConfig c).run s fun x t =>
      ∃ config, x = .ok (config, t.workloads c.resourceName) ∧
        t.automationConfigs c.resourceName = some config := by
  refine run_bind ((ensureAutomationConfig s c).mono ?_)
  rintro x t ⟨config, rfl, hconfig⟩
  exact run_bind (findResource ⟨config, rfl, hconfig⟩)

/-- The workload that was written is the stored one. -/
theorem Alone.ensureWorkload (s : Store) (c : DbCluster) :
    Alone (ensureWorkload c).run s fun x t =>
      ∃ w, x = .ok w ∧ t.workloads c.resourceName = some w := by
  refine run_bind (createOrUpdate fun t hstored => ?_)
  obtain ⟨w, hw⟩ := Option.ne_none_iff_exists'.1 hstored
  exact getResource hw ⟨w, rfl, hw⟩

namespace Stage

variable {ctx : Context} {s : Store}

/-- The agents follow the config at once. -/
theorem completes_deployAutomationConfig (hs : s.Written) :
    Completes .deployAutomationConfig ctx s fun _ => True := by
  have hcheck : ∀ {t : Store} {config : AutomationConfig} {ctx' : Context}, t.Written →
      ctx'.cluster = ctx.cluster → t.automationConfigs ctx.cluster.resourceName = some config →
      Alone (isComplete .deployAutomationConfig ctx') t fun verdict _ =>
        verdict = .ok true ∧ True := by
    intro t config ctx' ht hctx' hconfig
    rw [← hctx'] at hconfig
    refine .bind (.findResource ?_)
    cases hw : t.get? .workload ctx'.cluster.resourceName with
    | none => exact ⟨rfl, trivial⟩
    | some w =>
      have hget : t.get? .automationConfig ctx'.cluster.resourceName = some config := hconfig
      refine .bind (.getResource hget ⟨?_, trivial⟩)
      exact congrArg Except.ok (ht.settled.agentsReached hw hconfig)
  refine .bind ((Alone.publishAutomationConfig s ctx.cluster).written hs |>.mono ?_)
  rintro x t ⟨ht, config, rfl, hconfig⟩
  have hfollow : agentsFollow config (t.workloads ctx.cluster.resourceName) = true := by
    cases hw : t.workloads ctx.cluster.resourceName with
    | none => rfl
    | some w => exact ht.settled.agentsReached hw hconfig
  show Alone
    (if agentsFollow config (t.workloads ctx.cluster.resourceName) = true then _ else _) t _
  rw [if_pos hfollow]
  exact ⟨_, rfl, hcheck ht rfl hconfig⟩

/-- The workload is ready at once. -/
theorem completes_deployWorkload (hs : s.Written) :
    Completes .deployWorkload ctx s fun _ => True := by
  refine .bind ((Alone.ensureWorkload s ctx.cluster).written hs |>.mono ?_)
  rintro x t ⟨ht, w, rfl, hw⟩
  have hready : w.isReady = true := ht.settled.isReady hw
  have hget : t.get? .workload ctx.cluster.resourceName = some w := hw
  show Alone (if w.isReady = true then _ else _) t _
  rw [if_pos hready]
  refine ⟨_, rfl, .bind (.getResource hget ⟨?_, trivial⟩)⟩
  show Except.ok (w.isReady || _) = _
  rw [hready]
  rfl

/-- A stored workload gets its rolling updates back. -/
theorem completes_resetUpdateStrategy (hs : s.Written)
    (h : s.workloads ctx.cluster.resourceName ≠ none) :
    Completes .resetUpdateStrategy ctx s fun _ => True := by
  have hcheck : ∀ {t : Store} {w : Workload} {ctx' : Context} {name : ResourceName},
      name = ctx'.cluster.resourceName → t.workloads name = some w →
      w.updateStrategy = .rollingUpdate →
      Alone (isComplete .resetUpdateStrategy ctx') t fun verdict _ =>
        verdict = .ok true ∧ True := by
    rintro t w ctx' name rfl hw hrolling
    have hget : t.get? .workload ctx'.cluster.resourceName = some w := hw
    refine .bind (.run_bind (.getResource hget ⟨?_, trivial⟩))
    rw [hrolling]
    rfl
  obtain ⟨w, hw⟩ := Option.ne_none_iff_exists'.1 h
  have hget : s.get? .workload ctx.cluster.resourceName = some w := hw
  refine .bind (.run_bind (.getResource hget ?_))
  dsimp only
  split
  · exact ⟨_, rfl, hcheck rfl hw ‹_›⟩
  · have hname : w.name = ctx.cluster.resourceName := hs.wellNamed .workload _ w hw
    have hstored : s.get? .workload w.name = some w := hname ▸ hget
    refine .run_bind (.update (k := .done) (by exact hstored) ?_)
    have hreset := s.workloads_put_rollOut w.name
      { w with updateStrategy := .rollingUpdate, status := w.status }
    exact ⟨_, rfl, hcheck hname hreset rfl⟩

/-- A cluster that is stored can be published. -/
theorem completes_updateStatus (h : s.clusters ctx.cluster.resourceName ≠ none) :
    Completes .updateStatus ctx s fun _ => True := by
  show Alone (updateStatusStep ctx) s _
  unfold updateStatusStep
  split
  · exact .bind (.updateStatus h fun _ _ => ⟨_, rfl, rfl, trivial⟩)
  · refine .bind (.updateStatus h fun status c => .bind ?_)
    have hstored : (s.put ctx.cluster.resourceName .cluster c).clusters ctx.cluster.resourceName =
        some c := Collection.put_self _ _ _
    refine Alone.replace hstored (by rfl) ?_
    exact ⟨_, rfl, rfl, trivial⟩

/-- A pass ends wherever the cluster is stored. -/
theorem completes_reconciliationEnd (h : s.clusters ctx.cluster.resourceName ≠ none) :
    Completes .reconciliationEnd ctx s fun _ => True := by
  obtain ⟨c, hc⟩ := Option.ne_none_iff_exists'.1 h
  refine Alone.replace hc (by rfl) ?_
  exact ⟨_, rfl, rfl, trivial⟩

/-- What a stage needs to find in order to complete. -/
def Ready (stage : Stage) (s : Store) (c : DbCluster) : Prop :=
  match stage with
  | .tlsValidation => s.ServesTls c
  | .createTlsResources => s.secrets c.certificateSecretName ≠ none
  | .resetUpdateStrategy => s.workloads c.resourceName ≠ none
  | _ => True

/-- The stages up to the one that waits for the user's certificate. -/
def beforeTls : Stage → Bool
  | .startFresh | .validateSpec | .createService | .tlsValidation => true
  | _ => false

/-- **A stage that finds what it needs completes.**  Up to the one that waits for the
user's certificate, the certificate and the authority are left alone. -/
theorem completes {stage : Stage} (hs : s.Written)
    (hstored : s.clusters ctx.cluster.resourceName ≠ none)
    (hvalid : specProblem? ctx.cluster = none) (hready : stage.Ready s ctx.cluster) :
    stage.Completes ctx s fun t =>
      stage.beforeTls = true → t.secrets = s.secrets ∧ t.configMaps = s.configMaps := by
  have hmono : ∀ {Q P : Store → Prop}, stage.Completes ctx s Q → (∀ t, Q t → P t) →
      stage.Completes ctx s P := by
    intro Q P h himp
    refine h.mono fun x t ⟨outcome, hok, hcheck⟩ => ⟨outcome, hok, hcheck.mono ?_⟩
    exact fun verdict u ⟨hverdict, hu⟩ => ⟨hverdict, himp u hu⟩
  have hkept : ∀ t : Store, t = s → stage.beforeTls = true →
      t.secrets = s.secrets ∧ t.configMaps = s.configMaps := by
    rintro t rfl -
    exact ⟨rfl, rfl⟩
  cases stage with
  | startFresh => exact hmono completes_startFresh hkept
  | validateSpec => exact hmono (completes_validateSpec hvalid) hkept
  | createService => exact hmono completes_createService fun _ ht _ => ht
  | tlsValidation => exact hmono (completes_tlsValidation hready) hkept
  | createTlsResources => exact hmono (completes_createTlsResources hready) nofun
  | deployAutomationConfig => exact hmono (completes_deployAutomationConfig hs) nofun
  | deployWorkload => exact hmono (completes_deployWorkload hs) nofun
  | resetUpdateStrategy => exact hmono (completes_resetUpdateStrategy hs hready) nofun
  | updateStatus => exact hmono (completes_updateStatus hstored) nofun
  | reconciliationEnd => exact hmono (completes_reconciliationEnd hstored) nofun

end Stage

/-! ## Calls -/

/-- A call that runs a stage to its end and leaves it, as it looks from the scene: the
next call runs the stage that follows. -/
inductive Scene.Advances (a : Scene) (stage : Stage) : Conclusion → Stage → Scene → Prop
  | intro {ctx : Context} {b : Scene} {outcome : Outcome} {record : Progress}
      (knows : ctx.Knows a a) (acts : a.Acts ctx stage true b)
      (finished : outcome = .done ↔ stage = .reconciliationEnd)
      (recorded : progressRecord b.cluster = .ok record) :
      Advances a stage (.ticked (.advanced (nextName (stage.nextFrom? a b)) outcome))
        ((stage.nextFrom? a b).getD initialStage)
        (b.saved record (nextName (stage.nextFrom? a b)))

/-- A call that advances is a step without a loss. -/
theorem Scene.Advances.step {a b : Scene} {stage after : Stage} {conclusion : Conclusion}
    (h : a.Advances stage conclusion after b) : a.Step false stage conclusion after b := by
  cases h with
  | intro knows acts finished => exact .advances knows acts finished

namespace Alone

variable {s : Store} {name : ResourceName} {a b : Scene} {stage : Stage}

/-- A stage that completes is left. -/
theorem runStage {ctx : Context} {Q : Store → Prop} (h : stage.Completes ctx s Q) :
    Alone (Reconciler.runStage name stage ctx) s fun x t =>
      (∃ next outcome, x = .leaving name stage next outcome) ∧ Q t := by
  refine bind (h.mono ?_)
  rintro ⟨result, ctx'⟩ t ⟨outcome, rfl, hcheck⟩
  refine bind (hcheck.mono ?_)
  rintro verdict u ⟨rfl, hu⟩
  exact ⟨⟨_, _, rfl⟩, hu⟩

/-- The first part of a call runs the stage at which the cluster resumes. -/
theorem attempt (r : Reconciler) (now : Timestamp) (hs : s.Shows name a)
    (hstage : resumeStage a.cluster = .ok stage) {Q : Attempt → Store → Prop}
    (h : ∀ ctx : Context, ctx.cluster = a.cluster →
      Alone (Reconciler.runStage name stage ctx) s Q) : Alone (r.attempt now name) s Q := by
  refine call ?_
  rw [Store.perform_getCluster hs.cluster]
  dsimp only
  rw [hstage]
  refine bind ?_
  unfold Context.observe
  refine run_bind (findResource ?_)
  rw [← hs.cluster_name] at h
  exact h _ rfl

/-- The second part of a call writes the resume point. -/
theorem conclude {r : Reconciler} (hr : r.pacer.Silent) (hs : s.Shows name a) {record : Progress}
    (hrecord : progressRecord a.cluster = .ok record) (next : Option Stage) (outcome : Outcome) :
    Alone (r.conclude (.leaving name stage next outcome)) s fun conclusion t =>
      conclusion = .ticked (.advanced (nextName next) outcome) ∧
        t = s.put name .cluster
          (withProgress a.cluster { record with nextState := nextName next }) := by
  refine bind (of_onlySleeps hr.before (bind ?_))
  refine call ?_
  rw [Store.perform_getCluster hs.cluster]
  dsimp only
  rw [hrecord]
  dsimp only
  refine replace hs.cluster (by exact hs.cluster_name) ?_
  refine done ?_
  exact bind (of_onlySleeps hr.after ⟨rfl, rfl⟩)

end Alone

namespace Reconciler

variable {r : Reconciler} {s : Store} {name : ResourceName} {a : Scene} {stage : Stage}

/-- **With nobody else around the reconciler advances** when the stage finds what it
needs. -/
theorem alone_advances (hr : r.pacer.Silent) (now : Timestamp) (hs : s.Written)
    (ha : s.Shows name a) (hstage : resumeStage a.cluster = .ok stage)
    (hvalid : specProblem? a.cluster = none) (hready : stage.Ready s a.cluster) :
    Alone (r.reconcile now name) s fun conclusion t => ∃ after b,
      a.Advances stage conclusion after b ∧ t.Shows name b ∧
        (stage.beforeTls = true → t.secrets = s.secrets ∧ t.configMaps = s.configMaps) := by
  have hleaving : Alone (r.attempt now name) s fun x t =>
      (∃ next outcome, x = .leaving name stage next outcome) ∧ (stage.beforeTls = true →
        t.secrets = s.secrets ∧ t.configMaps = s.configMaps) := by
    refine .attempt r now ha hstage fun ctx hctx => .runStage (Stage.completes hs ?_ ?_ ?_)
    · rw [hctx, ha.cluster_name, ha.cluster]
      nofun
    · rwa [hctx]
    · rwa [hctx]
  have hturn := Alone.of_ensures (Scene.Leads.attempt r now hstage s ha)
  rw [reconcile_eq]
  refine .bind ((hleaving.and hturn).mono ?_)
  rintro x t ⟨⟨⟨next, outcome, rfl⟩, htls⟩, b, hb, ctx, hknows, hturn⟩
  cases hturn with
  | leaves acts finished =>
    obtain ⟨record, hrecord⟩ := acts.exists_progressRecord hstage
    refine (Alone.conclude hr hb hrecord _ outcome).mono ?_
    rintro conclusion u ⟨rfl, rfl⟩
    exact ⟨_, _, .intro hknows acts finished hrecord, hb.put_cluster hb.cluster_name, htls⟩

/-- **Without the user's certificate the reconciler waits.** -/
theorem alone_waits (now : Timestamp) (ha : s.Shows name a)
    (hstage : resumeStage a.cluster = .ok .tlsValidation) (hserves : ¬ s.ServesTls a.cluster) :
    Alone (r.reconcile now name) s fun conclusion _ =>
      ∃ outcome, conclusion = .ticked (.incomplete outcome) := by
  have hinvalid : ∀ {t : Store} {c : DbCluster} {Q : Except StoreError Bool → Store → Prop},
      a.cluster.SameSpec c → t.secrets = s.secrets → t.configMaps = s.configMaps →
      Q (.ok false) t → Alone (tlsObjectsValid c).run t Q := by
    intro t c Q hspec hsecrets hmaps hQ
    refine .tlsObjectsValid fun valid hvalid => ?_
    cases valid with
    | false => exact hQ
    | true =>
      have hback : c.SameSpec a.cluster := ⟨hspec.spec.symm, hspec.name.symm, hspec.space.symm⟩
      exact absurd ((hvalid.1 rfl).congr hback hsecrets.symm hmaps.symm) hserves
  rw [reconcile_eq]
  refine .bind (.attempt r now ha hstage fun ctx hctx => .bind ?_)
  refine .bind (hinvalid (hctx ▸ .refl _) rfl rfl ?_)
  refine .bind (.updateStatus ?_ fun status c => ?_)
  · rw [hctx, ha.cluster_name, ha.cluster]
    nofun
  · have hsame : a.cluster.SameSpec { ctx.cluster with status } := by
      rw [hctx]
      exact ⟨rfl, rfl, rfl⟩
    refine .done (.bind (.bind (hinvalid hsame rfl rfl (.done ?_))))
    exact ⟨_, rfl⟩

end Reconciler
end Reconciliation
