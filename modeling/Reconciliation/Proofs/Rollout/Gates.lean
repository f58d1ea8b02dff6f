/-
# What has to be there before a cluster is deployed

Nothing in the stages that deploy looks whether the spec was accepted, whether the service
is there or whether the operator's secret holds a certificate.  It is so because of the
stages before them: each of them leaves behind what the next one needs
(`Store.Equipped.next`), whatever fails and whatever others write, as long as nobody edits
the spec after it was accepted.  So every request of a run passes the gate
(`gated_of_history`).
-/

import Reconciliation.Proofs.Cluster.Outline
import Reconciliation.Proofs.Rollout.Equipment

namespace Reconciliation

/-! ## The stages -/

/-- What a stage writes for a cluster; only the reset of a workload writes what it has
found. -/
def Stage.Provides (stage : Stage) (c : DbCluster) : (kind : Kind) → kind.Object → Prop
  | .cluster, _ => True
  | .service, _ => stage = .createService
  | .secret, secret => stage = .createTlsResources ∧ secret.data.contains pemKey = true
  | .automationConfig, _ => stage = .deployAutomationConfig
  | .workload, w => stage = .deployWorkload ∧ w = wantedWorkload c
  | .configMap, _ => False

theorem Stage.May.provides {stage : Stage} {c : DbCluster} {r : Request} (h : stage.May c r)
    (hstage : stage ≠ .resetUpdateStrategy) {kind : Kind} {object : kind.Object}
    (hwrites : r.Writes kind object) : stage.Provides c kind object := by
  rcases hwrites with rfl | rfl
  · cases kind with
    | cluster => trivial
    | configMap => exact h
    | service | automationConfig => exact h.1
    | secret => exact ⟨h.1, h.2.2⟩
    | workload => exact h
  · cases kind with
    | cluster => trivial
    | service | configMap => exact h.elim
    | automationConfig => exact h.1
    | secret => exact ⟨h.1, h.2.2⟩
    | workload => exact h.resolve_right hstage

/-- Others report and write what is theirs, and calls may fail. -/
def Surroundings.disturbed (name : ResourceName) (instant : Bool) : Surroundings :=
  ⟨instant, Store.Disturbed name editableMeanwhile, true⟩

section Stages

variable {start s : Store} {name : ResourceName} {instant : Bool} {c : DbCluster} {stage : Stage}

namespace Store

variable {t : Store} (hdrift : (Surroundings.disturbed name instant).Drifts s t)
include hdrift

theorem HasPem.drifts (h : s.HasPem name) : t.HasPem name :=
  hdrift.keeps (fun ht change => change.hasPem ht) h

theorem Idle.drifts (h : start.Idle name s) : start.Idle name t :=
  hdrift.keeps (fun ht change => change.idle (fun _ => .inl) ht) h

theorem During.drifts (h : start.During name stage c s) : start.During name stage c t :=
  hdrift.keeps (fun ht change => Disturbed.during change ht) h

theorem Leaving.drifts {next : Option Stage} (h : start.Leaving name next s) :
    start.Leaving name next t :=
  hdrift.keeps (fun ht change => Disturbed.leaving change ht) h

end Store

/-! ### What passes the gate -/

/-- A stage that writes something finds an accepted spec. -/
theorem Store.During.accepted (h : start.During name stage c s) (hindex : 2 ≤ stage.index) :
    ∃ stored, s.clusters name = some stored ∧ specProblem? stored = none := by
  obtain ⟨hnamed, -, hequipped, stored, hstands, hsame⟩ := h
  refine ⟨stored, hstands.stored, ?_⟩
  rw [specProblem?_congr (hstands.named.trans hnamed.symm) (hsame (by rintro rfl; cases hindex))]
  exact hequipped.accepted hindex

/-- A request that writes nothing or a cluster passes the gate. -/
theorem Request.Permitted.of_cluster {r : Request}
    (h : ∀ kind, r.writes? = some kind → kind = .cluster) : r.Permitted start name s where
  accepted kind hwrites hkind := absurd (h kind hwrites) hkind
  service hwrites := by
    rcases hwrites with hwrites | hwrites <;> exact nomatch h _ hwrites
  certificate secret hwrites := by
    have hkind : r.writes? = some .secret := by rcases hwrites with rfl | rfl <;> rfl
    exact nomatch h _ hkind
  mounted secret hmounts := by
    obtain ⟨w, hwrites, -⟩ := r.exists_of_mounts? hmounts
    have hkind : r.writes? = some .workload := by rcases hwrites with rfl | rfl <;> rfl
    exact nomatch h _ hkind

theorem Request.Permitted.update_cluster {written : DbCluster} :
    Request.Permitted start name (.update .cluster written) s :=
  .of_cluster fun _ hkind => (Option.some.inj hkind).symm

/-- What a stage may request passes the gate, the reset of a workload apart. -/
theorem Store.During.permitted (h : start.During name stage c s) {r : Request}
    (hmay : stage.May c r) (hstage : stage ≠ .resetUpdateStrategy) :
    r.Permitted start name s where
  accepted kind hwrites hkind := by
    obtain ⟨object, hobject⟩ := r.exists_writes hwrites hkind
    have hprovides := hmay.provides hstage hobject
    refine h.accepted ?_
    cases kind with
    | cluster => exact absurd rfl hkind
    | configMap => exact hprovides.elim
    | service | automationConfig =>
      obtain rfl : stage = _ := hprovides
      decide
    | secret | workload =>
      obtain rfl := hprovides.1
      decide
  service hwrites := by
    have hindex : 3 ≤ stage.index := by
      rcases hwrites with hwrites | hwrites
      · obtain ⟨config, hconfig⟩ := r.exists_writes hwrites nofun
        obtain rfl : stage = _ := hmay.provides hstage hconfig
        decide
      · obtain ⟨w, hw⟩ := r.exists_writes hwrites nofun
        obtain rfl := (hmay.provides hstage hw).1
        decide
    rw [← h.named]
    exact h.equipped.service hindex
  certificate secret hsecret := (hmay.provides hstage hsecret).2
  mounted secret hmounts := by
    obtain ⟨w, hw, hsecret⟩ := r.exists_of_mounts? hmounts
    obtain ⟨rfl, rfl⟩ := hmay.provides hstage hw
    rw [← h.named]
    by_cases htls : c.spec.security.tls.enabled = true
    · rw [wantedWorkload, if_pos htls] at hsecret
      exact .inl ⟨(Option.some.inj hsecret).symm, h.equipped.certificate (by decide) htls⟩
    · rw [wantedWorkload, if_neg htls] at hsecret
      cases hsecret

/-- A workload may be reset, whatever it mounts. -/
theorem Store.During.permitted_reset (h : start.During name .resetUpdateStrategy c s) {r : Request}
    (hr : r.Resets name s) : r.Permitted start name s where
  accepted _ _ _ := h.accepted (by decide)
  service _ := by
    rw [← h.named]
    exact h.equipped.service (by decide)
  certificate secret hwrites := by
    obtain ⟨w, status, -, rfl⟩ := hr
    rcases hwrites with hwrites | hwrites <;> cases hwrites
  mounted secret hsecret := by
    have hmounts := hr.tlsSecret?_eq.trans hsecret
    rw [← h.named] at hmounts hr ⊢
    exact (h.equipped.mounted secret hmounts).imp_right fun h => ⟨hr, h⟩

/-! ### What is guarded -/

/-- Work that requests what a stage may is guarded, the reset of a workload and the end of a
pass apart. -/
theorem Store.During.guarded (h : start.During name stage c s) {α : Type} {Q : α → Prop}
    {work : Work α} (hwork : Only (stage.May c) Q work) (hreset : stage ≠ .resetUpdateStrategy)
    (hend : stage ≠ .reconciliationEnd) :
    Guarded (.disturbed name instant) (Request.Permitted start name)
      (fun a t => Q a ∧ start.During name stage c t) work s := by
  refine .of_only hwork h (fun ht change => change.during ht) fun {r t} hmay ht => ?_
  have hpermitted := ht.permitted hmay hreset
  refine ⟨hpermitted, ht.perform instant hpermitted fun written hwritten => ?_⟩
  subst hwritten
  exact ⟨hmay.1, (hmay.2.resolve_left hend).2⟩

/-- Status writes are guarded at every stage. -/
theorem Store.During.guarded_status (h : start.During name stage c s) {α : Type} {Q : α → Prop}
    {work : Work α} (hwork : Only (initialStage.May c) Q work) :
    Guarded (.disturbed name instant) (Request.Permitted start name)
      (fun a t => Q a ∧ start.During name stage c t) work s := by
  refine .of_only hwork h (fun ht change => change.during ht) fun {r t} hmay ht => ?_
  have hcluster : ∀ kind, r.writes? = some kind → kind = .cluster := by
    intro kind hwrites
    by_contra hkind
    obtain ⟨object, hobject⟩ := r.exists_writes hwrites hkind
    have hprovides := hmay.provides (nofun : initialStage ≠ .resetUpdateStrategy) hobject
    cases kind with
    | cluster => exact hkind rfl
    | service | automationConfig => cases hprovides
    | secret | workload => cases hprovides.1
    | configMap => exact hprovides
  have hpermitted : r.Permitted start name t := .of_cluster hcluster
  refine ⟨hpermitted, ht.perform instant hpermitted fun written hwritten => ?_⟩
  subst hwritten
  rcases hmay.2 with hend | ⟨hpublish, -⟩
  · cases hend
  · cases hpublish

/-! ### What is achieved -/

/-- If the secret could be written, it holds the certificate. -/
theorem guarded_createOrUpdateSecret {secret : Secret} (hname : secret.name = name.operatorSecret)
    (hpem : secret.data.contains pemKey = true) (s : Store) :
    Guarded (.disturbed name instant) (fun _ _ => True)
      (fun x t => ∀ u, x = .ok u → t.HasPem name) (createOrUpdate .secret secret).run s := by
  have hupdate : ∀ t : Store, Guarded (.disturbed name instant) (fun _ _ => True)
      (fun x t => ∀ u, x = .ok u → t.HasPem name) (callStore (.update .secret secret)) t := by
    intro t u hu
    refine ⟨trivial, .done fun v hv => ?_, fun _ error => .done fun _ _ => nofun⟩
    rcases u.perform_update (nofun : Kind.secret ≠ .workload) nofun secret with
      ⟨-, hperform⟩ | ⟨-, w, hperform, hw⟩ <;> rw [hperform] at hv ⊢
    · nofun
    · exact fun _ _ => .drifts hv ⟨secret, hname ▸ hw, hpem⟩
  refine .call (r := .create .secret secret) fun t ht => ⟨trivial, ?_, fun _ error => ?_⟩
  · rcases t.perform_create (nofun : Kind.secret ≠ .workload) secret with
      ⟨-, hperform⟩ | ⟨-, u, hperform, hu⟩ <;> rw [hperform]
    · exact hupdate t
    · exact .done fun v hv _ _ => .drifts hv ⟨secret, hname ▸ hu, hpem⟩
  · dsimp only
    split
    · exact hupdate t
    · exact .done fun _ _ => nofun

theorem guarded_ensureOperatorSecret (hname : c.resourceName = name) (s : Store) :
    Guarded (.disturbed name instant) (fun _ _ => True)
      (fun x t => ∀ u, x = .ok u → t.HasPem name) (ensureOperatorSecret c).run s := by
  have hwrite : ∀ certificates t, Guarded (.disturbed name instant) (fun _ _ => True)
      (fun x t => ∀ u, x = .ok u → t.HasPem name)
      (createOrUpdate .secret
        ⟨c.operatorSecretName, Table.empty.insert pemKey (serverPem certificates)⟩).run t := by
    intro certificates t
    refine guarded_createOrUpdateSecret ?_ ?_ t
    · rw [← hname]
      rfl
    · rw [Table.contains_eq_isSome, Table.get?_insert, if_pos rfl]
      rfl
  refine .run_bind (.call (r := .get .secret _) fun t ht => ⟨trivial, ?_, fun _ error => ?_⟩)
  · refine .done fun u hu => ?_
    split
    · exact hwrite _ u
    · exact fun _ _ => nofun
  · exact .done fun _ _ _ _ => nofun

/-- **An action that succeeds has achieved what its stage is for**; whether there is a
service is left to the check. -/
theorem guarded_achieved (stage : Stage) {ctx : Context} (hname : ctx.cluster.resourceName = name)
    (s : Store) :
    Guarded (.disturbed name instant) (fun _ _ => True)
      (fun x t => ∀ outcome, x.1 = .ok outcome → stage ≠ .createService →
        stage.Achieved ctx.cluster t) (stage.action ctx) s := by
  have hnothing : (∀ t, stage.Achieved ctx.cluster t) → Guarded (.disturbed name instant)
      (fun _ _ => True) (fun x t => ∀ outcome, x.1 = .ok outcome →
        stage ≠ .createService → stage.Achieved ctx.cluster t) (stage.action ctx) s :=
    fun h => ((Only.action stage ctx).guarded s).mono fun _ t _ _ _ _ => h t
  cases stage with
  | validateSpec => exact (Only.validateSpecStep.guarded s).mono fun _ _ h o ho _ => h.2 o ho
  | createService => exact ((Only.action _ ctx).guarded s).mono fun _ _ _ _ _ h => absurd rfl h
  | createTlsResources =>
    subst hname
    refine .bind ((guarded_ensureOperatorSecret rfl s).mono fun x t ht => ?_)
    cases x with
    | error error =>
      have hfails : Only (initialStage.May ctx.cluster) _ (failStep ctx _) :=
        Only.failStep (.refl ctx.cluster) ("Error ensuring TLS resources: " ++ error.message)
      refine (hfails.guarded t).mono ?_
      rintro ⟨result, ctx'⟩ u ⟨-, failure, rfl⟩
      nofun
    | ok => exact .done fun u hu _ _ _ => (ht () rfl).drifts hu
  | _ => exact hnothing fun _ => trivial

/-- If the check of the service is complete, the service is there. -/
theorem guarded_serviceExists {ctx : Context} (hname : ctx.cluster.resourceName = name)
    (s : Store) :
    Guarded (.disturbed name instant) (fun _ _ => True)
      (fun verdict t => verdict = .ok true → t.services name.service ≠ none)
      (serviceExists ctx) s := by
  subst hname
  have hkept : ∀ {t u : Store},
      (Surroundings.disturbed ctx.cluster.resourceName instant).Drifts t u →
      u.services = t.services := fun hdrift =>
    hdrift.keeps (fun ht change => change.services_eq.trans ht) rfl
  refine .bind (.run_bind (.findResource (fun _ _ => trivial) ?_ ?_))
  · intro t u ht hu
    refine .done fun v hv => .done fun w hw hverdict hnone => ?_
    have hmissing : t.get? .service ctx.cluster.serviceName = none := by
      have hsame := (hkept ((hu.trans hv).trans hw)).symm
      exact (congrFun hsame _).trans hnone
    rw [hmissing] at hverdict
    cases hverdict
  · intro _ x t ht hx
    rcases x with error | (_ | service)
    · exact fun u _ => .done fun _ _ => nofun
    · exact .done fun u _ => .done fun _ _ => nofun
    · exact absurd rfl (hx service)

/-- After a complete check the stage has achieved what it is for. -/
theorem Store.During.guarded_isComplete (h : start.During name stage c s) {ctx : Context}
    (hctx : ctx.cluster.Agrees c) (hachieved : stage ≠ .createService → stage.Achieved c s) :
    Guarded (.disturbed name instant) (Request.Permitted start name)
      (fun verdict t => start.During name stage c t ∧
        (verdict = .ok true → stage.Achieved c t)) (stage.isComplete ctx) s := by
  have hlookup : ∀ kind found t, Request.Permitted start name (.get kind found) t :=
    fun _ _ _ => .of_cluster nofun
  have hothers : ∀ {t u}, start.During name stage c t →
      (Surroundings.disturbed name instant).others t u → start.During name stage c u :=
    fun ht change => change.during ht
  by_cases hservice : stage = .createService
  · subst hservice
    have hname := hctx.resourceName_eq.trans h.named
    refine (((Guarded.of_lookups (Only.isComplete (fun _ _ => rfl) _ ctx) h hlookup hothers).and
      (guarded_serviceExists hname s)).widen fun _ _ h => h.1).mono fun _ t ht => ⟨ht.1.2, ?_⟩
    rw [← h.named] at ht
    exact ht.2
  · have hkept : Guarded (.disturbed name instant) (Request.Permitted start name)
        (fun _ t => True ∧ start.During name stage c t ∧ stage.Achieved c t)
        (stage.isComplete ctx) s := by
      refine .of_lookups (Only.isComplete (fun _ _ => rfl) _ ctx) ⟨h, hachieved hservice⟩ hlookup ?_
      exact fun ⟨ht, hachieved⟩ change => ⟨hothers ht change, change.achieved h.named hachieved⟩
    exact hkept.mono fun _ _ ht => ⟨ht.2.1, fun _ => ht.2.2⟩

/-- Resetting a workload is guarded, whatever is reported of it meanwhile. -/
theorem Store.During.guarded_update (h : start.During name .resetUpdateStrategy c s)
    {w : Workload} (hw : ∃ status, s.workloads name = some { w with status }) :
    Guarded (.disturbed name instant) (Request.Permitted start name)
      (fun _ t => start.During name .resetUpdateStrategy c t)
      (callStore (.update .workload { w with updateStrategy := .rollingUpdate })) s := by
  intro t ht
  obtain ⟨status, hstored⟩ := ht.keeps (fun ht change => Disturbed.workload change ht) hw
  have ht := h.drifts ht
  have hpermitted := ht.permitted_reset ⟨_, w.status, hstored, rfl⟩
  refine ⟨hpermitted, .done fun u hu => ?_, fun _ error => .done fun u hu => ht.drifts hu⟩
  exact During.drifts hu
    (ht.perform instant hpermitted fun written hwritten => by cases hwritten)

/-- The stored workload is written back with rolling updates. -/
theorem Store.During.guarded_resetStrategy (h : start.During name .resetUpdateStrategy c s) :
    Guarded (.disturbed name instant) (Request.Permitted start name)
      (fun _ t => start.During name .resetUpdateStrategy c t) (resetStrategy c).run s := by
  refine .run_bind (.call (r := .get .workload c.resourceName) fun t ht =>
    ⟨.of_cluster nofun, ?_, fun _ error => .done fun u hu => fun v hv =>
      h.drifts ((ht.trans hu).trans hv)⟩)
  have ht := h.drifts ht
  cases hstored : t.workloads c.resourceName with
  | none =>
    simp only [Store.perform, Store.get?, hstored]
    exact .done fun u hu => fun v hv => ht.drifts (hu.trans hv)
  | some w =>
    simp only [Store.perform, Store.get?, hstored]
    have hw : ∃ status, t.workloads name = some { w with status } := ⟨w.status, h.named ▸ hstored⟩
    refine .done fun u hu => ?_
    have hw := hu.keeps (fun ht change => Store.Disturbed.workload change ht) hw
    have hu := ht.drifts hu
    dsimp only
    split
    · exact .done fun v hv => hu.drifts hv
    · refine .run_bind ((hu.guarded_update hw).mono fun x v hv => ?_)
      cases x with
      | error error => exact fun x hx => hv.drifts hx
      | ok => exact .done fun x hx => hv.drifts hx

/-- **Every action is guarded**, that of the end of a pass apart. -/
theorem Store.During.guarded_action {ctx : Context} (h : start.During name stage ctx.cluster s)
    (hend : stage ≠ .reconciliationEnd) :
    Guarded (.disturbed name instant) (Request.Permitted start name)
      (fun _ t => start.During name stage ctx.cluster t) (stage.action ctx) s := by
  by_cases hreset : stage = .resetUpdateStrategy
  · subst hreset
    refine .bind (h.guarded_resetStrategy.mono fun x t ht => ?_)
    cases x with
    | error error =>
      exact (ht.guarded_status (Only.fails (.refl ctx.cluster) _)).mono fun _ _ h => h.2
    | ok w => exact .done fun u hu => ht.drifts hu
  · exact (h.guarded (Only.action stage ctx) hreset hend).mono fun _ _ h => h.2

/-- At the end of a pass the record is emptied, and the cluster stands at the start. -/
theorem Store.During.stands_end (h : start.During name .reconciliationEnd c s) (instant : Bool) :
    ∃ t new, s.perform instant (.update .cluster (withFreshProgress c)) = (.ok (), t) ∧
      start.Stands t name new initialStage := by
  obtain ⟨hnamed, -, hequipped, stored, hstands, -⟩ := h
  have hname : (withFreshProgress c).resourceName = name := hnamed
  have hperform : s.perform instant (.update .cluster (withFreshProgress c)) = _ :=
    Store.perform_updateCluster hstands.stored hname
  have hafter := hequipped.perform instant (r := .update .cluster (withFreshProgress c))
    .update_cluster
  rw [hperform] at hafter
  have hnew : DbCluster.resourceName { withFreshProgress c with status := stored.status } =
    c.resourceName := rfl
  refine ⟨_, _, hperform, Collection.put_self _ _ _, hname, ?_,
    hafter.early hnew (Nat.zero_le 1)⟩
  exact DbCluster.AtRest.resumeStage_eq ⟨.fresh, progressRecord_withProgress c .fresh, rfl⟩

/-- **Running a stage is guarded, and leaves what the next one needs.** -/
theorem Store.During.act {ctx : Context} (h : start.During name stage ctx.cluster s) :
    Guarded (.disturbed name instant) (Request.Permitted start name)
      (fun x t =>
        match x.1 with
        | .error _ => start.Idle name t
        | .ok _ => Guarded (.disturbed name instant) (Request.Permitted start name)
            (fun verdict u => start.Idle name u ∧
              (verdict = .ok true → start.Leaving name (stage.next? x.2) u))
            (stage.isComplete x.2) t)
      (stage.action ctx) s := by
  by_cases hend : stage = .reconciliationEnd
  · subst hend
    refine .call (r := .update .cluster (withFreshProgress ctx.cluster)) fun t ht =>
      ⟨.update_cluster, ?_, fun _ error => .done fun u hu => h.idle.drifts (ht.trans hu)⟩
    have ht := h.drifts ht
    obtain ⟨u, new, hperform, hstands⟩ := ht.stands_end instant
    have hidle : start.Idle name u := ⟨new, initialStage, hstands⟩
    have hleaving : start.Leaving name none u :=
      ⟨new, initialStage, hstands, hstands.equipped, fun _ => Nat.zero_le 1⟩
    rw [show t.perform (Surroundings.disturbed name instant).instant _ = _ from hperform]
    refine .done fun v hv => .done fun w hw => ⟨hidle.drifts (hv.trans hw), fun _ => ?_⟩
    exact hleaving.drifts (hv.trans hw)
  · refine (((h.guarded_action hend).and ((guarded_achieved stage h.named s).and
      ((Only.action stage ctx).guarded s))).widen fun _ _ h => h.1).mono ?_
    rintro ⟨result, ctx'⟩ t ⟨ht, hachieved, hleaves⟩
    cases result with
    | error cause => exact ht.idle
    | ok outcome =>
      refine (ht.guarded_isComplete hleaves.agrees (hachieved outcome rfl)).mono
        fun verdict u ⟨hu, hachieved⟩ => ⟨hu.idle, fun hcomplete => ?_⟩
      exact hu.leaving (hachieved hcomplete) hleaves.agrees.spec_eq

theorem Store.Leaving.idle {next : Option Stage} (h : start.Leaving name next s) :
    start.Idle name s := by
  obtain ⟨c, stage, hstands, -⟩ := h
  exact ⟨c, stage, hstands⟩

/-- A cluster whose next stage is recorded stands there. -/
theorem Store.Idle.stands_saved (h : start.Idle name s) (hname : c.resourceName = name)
    {next : Option Stage} (hnext : start.Equipped s c (next.getD initialStage)) (instant : Bool)
    (record : Progress) :
    ∃ t, s.perform instant
        (.update .cluster (withProgress c { record with nextState := nextName next })) =
          (.ok (), t) ∧ start.Idle name t := by
  obtain ⟨stored, stage, hstands⟩ := h
  have hsaved : (withProgress c { record with nextState := nextName next }).resourceName = name :=
    hname
  have hperform : s.perform instant
      (.update .cluster (withProgress c { record with nextState := nextName next })) = _ :=
    Store.perform_updateCluster hstands.stored hsaved
  have hafter := hnext.perform instant
    (r := .update .cluster (withProgress c { record with nextState := nextName next }))
    .update_cluster
  rw [hperform] at hafter
  refine ⟨_, hperform, _, next.getD initialStage, Collection.put_self _ _ _, hsaved, ?_,
    hafter.congr rfl rfl⟩
  exact resumeStage_withProgress c record next

/-- Recording the next stage is guarded. -/
theorem Store.Leaving.guarded_save {next : Option Stage} (h : start.Leaving name next s) :
    Guarded (.disturbed name instant) (Request.Permitted start name)
      (fun _ t => start.Idle name t) (saveNextState name (nextName next)) s := by
  refine .call (r := .get .cluster name) fun t ht =>
    ⟨.of_cluster nofun, ?_, fun _ error => .done fun u hu => h.idle.drifts (ht.trans hu)⟩
  obtain ⟨c, stage, hstands, hequipped, -⟩ := h.drifts ht
  have hidle : start.Idle name t := ⟨c, stage, hstands⟩
  obtain ⟨record, hrecord⟩ := exists_progressRecord hstands.resumes
  rw [Store.perform_getCluster hstands.stored]
  dsimp only
  rw [hrecord]
  refine .call (r := .update .cluster _) fun u hu =>
    ⟨.update_cluster, ?_, fun _ error => .done fun v hv => hidle.drifts (hu.trans hv)⟩
  -- What was read may be outdated by now, but not where it matters to the next stage.
  have hequipped : start.Equipped u c (next.getD initialStage) :=
    hu.keeps (fun ht change => Store.Disturbed.equipped change hstands.named ht) hequipped
  obtain ⟨v, hperform, hv⟩ :=
    (hidle.drifts hu).stands_saved hstands.named hequipped instant record
  rw [show u.perform (Surroundings.disturbed name instant).instant _ = _ from hperform]
  exact .done fun w hw => hv.drifts hw

/-- **A call is guarded in each of its phases.** -/
theorem CallOutline.gated (start : Store) (name : ResourceName) (instant : Bool) :
    CallOutline (.disturbed name instant) (Request.Permitted start name) name
      (fun t => start.Idle name t) (fun stage c t => start.During name stage c t)
      (fun _ next t => start.Leaving name next t) where
  lookup _ _ _ := .of_cluster nofun
  others h change := change.idle (fun _ => .inl) h
  others_during h change := change.during h
  others_leaving h change := change.leaving h
  begins := by
    rintro stage c t ⟨stored, stage', hstands⟩ hstored hstage
    obtain rfl := Option.some.inj (hstands.stored.symm.trans hstored)
    obtain rfl := Except.ok.inj (hstands.resumes.symm.trans hstage)
    exact ⟨hstands.named, hstands.during⟩
  idle h := h.idle
  act h := h.act
  save h := h.guarded_save

end Stages

/-! ## Runs -/

/-- **What is there whenever a cluster is deployed.**  A pass begins; workloads report, users
write their secrets and config maps, the spec is edited between two calls until its
validation is over and during a call at the start of a pass, and calls to the store fail.
A service, secret, automation config or workload is written only while the stored spec is
accepted; a config or workload only while the service is stored; and a workload that is
written mounts a secret only while the operator's secret holds the certificate, unless the
stored workload is merely given back its rolling updates and has mounted that secret from
the start on. -/
theorem gated_of_history {r : Reconciler} {name : ResourceName} {instant : Bool} {start : Store}
    {c : DbCluster} {moments : List Moment} {m : Moment} {request : Request}
    (hr : r.pacer.Silent) (hstart : start.Begins name c)
    (h : History r name (.disturbed name instant) (Store.Disturbed name editableBetween) start
      moments)
    (hm : m ∈ moments) (hrequest : m.request? = some request) :
    (∀ kind, request.writes? = some kind → kind ≠ .cluster →
      ∃ stored, m.store.clusters name = some stored ∧ validateSpec stored = .ok ()) ∧
    (request.writes? = some .automationConfig ∨ request.writes? = some .workload →
      m.store.services name.service ≠ none) ∧
    ∀ secret, request.mounts? = some secret →
      (secret = name.operatorSecret.name ∧ m.store.HasPem name) ∨
        request.Resets name m.store ∧ start.tlsSecret? name = some secret := by
  have hname : c.resourceName = name := hstart.wellNamed .cluster name c hstart.stored
  have hidle : start.Idle name start :=
    ⟨c, initialStage, hstart.stored, hname, hstart.atRest.resumeStage_eq,
      nofun, nofun, nofun, fun secret hsecret => .inr (hname ▸ hsecret)⟩
  have hsafe := h.safe hidle (fun hs change => change.idle (fun _ => id) hs)
    fun now {s} hs => (CallOutline.gated start name instant).guarded hr now hs
  have hpermitted := (hsafe m hm).gate_of_request hrequest
  refine ⟨fun kind hwrites hkind => ?_, hpermitted.service, hpermitted.mounted⟩
  obtain ⟨stored, hstored, haccepted⟩ := hpermitted.accepted kind hwrites hkind
  exact ⟨stored, hstored, by rw [validateSpec, haccepted]⟩

/-- A cluster of three members that wants certificates. -/
def DbCluster.certified : DbCluster :=
  ⟨⟨"example", "db", .empty⟩, ⟨3, "6.0.5", ⟨⟨true, "certificate", "authority"⟩⟩⟩, .fresh⟩

/-- The cluster with what the user provides. -/
def Store.certified : Store :=
  ((Store.empty.insert .cluster .certified).insert .secret ⟨⟨"db", "certificate"⟩,
      (Table.empty.insert certificateKey "certificate").insert privateKeyKey "key"⟩).insert
    .configMap ⟨⟨"db", "authority"⟩, Table.empty.insert authorityKey "authority"⟩

theorem Store.begins_certified : Store.certified.Begins ⟨"db", "example"⟩ .certified where
  wellNamed := ((Store.wellNamed_empty.put .cluster _).put .secret _).put .configMap _
  stored := rfl
  atRest := ⟨.fresh, rfl, rfl⟩

/-- A first deployment creates a workload that mounts the operator's secret, and that secret
holds the certificate. -/
theorem gated_of_certificate : ∃ moments m request,
    History .standard ⟨"db", "example"⟩ (.disturbed ⟨"db", "example"⟩ true)
      (Store.Disturbed ⟨"db", "example"⟩ editableBetween) .certified moments ∧
    m ∈ moments ∧ m.request? = some request ∧
    request.mounts? = some "example-server-certificate-key" ∧
    (∃ stored, m.store.clusters ⟨"db", "example"⟩ = some stored ∧ validateSpec stored = .ok ()) ∧
    m.store.services ⟨"db", "example-svc"⟩ ≠ none ∧ m.store.HasPem ⟨"db", "example"⟩ := by
  obtain ⟨last, earlier, hhistory, hlast⟩ :=
    History.exists_of_schedule .standard (.disturbed ⟨"db", "example"⟩ true) rfl default
      ⟨"db", "example"⟩ (Store.Disturbed ⟨"db", "example"⟩ editableBetween) .certified
      (.replicate 51 none)
      (P := fun last _ => last.request?.bind Request.mounts? =
        some "example-server-certificate-key") (by decide +kernel)
  obtain ⟨request, hrequest, hmounts⟩ := Option.bind_eq_some_iff.1 hlast
  have hwrites : request.writes? = some .workload := by
    obtain ⟨w, rfl | rfl, -⟩ := request.exists_of_mounts? hmounts <;> rfl
  obtain ⟨haccepted, hservice, hsecret⟩ := gated_of_history Pacer.silent_none
    Store.begins_certified hhistory List.mem_cons_self hrequest
  refine ⟨_, last, request, hhistory, List.mem_cons_self, hrequest, hmounts,
    haccepted .workload hwrites nofun, hservice (.inr hwrites), ?_⟩
  rcases hsecret _ hmounts with ⟨-, hpem⟩ | ⟨-, hstart⟩
  · exact hpem
  · cases hstart

/-- A cluster whose version is being changed by hand and that no longer wants certificates:
its workload still mounts a secret that is gone. -/
def Store.uncertified : Store :=
  (Store.empty.insert .cluster
    ((DbCluster.scaling 3 3).annotate appliedVersionAnnotation "6.0.4")).insert .workload
      ⟨⟨"db", "example"⟩, 3, "6.0.4", some "example-server-certificate-key", .onDelete, .fresh⟩

theorem Store.begins_uncertified : Store.uncertified.Begins ⟨"db", "example"⟩
    ((DbCluster.scaling 3 3).annotate appliedVersionAnnotation "6.0.4") where
  wellNamed := (Store.wellNamed_empty.put .cluster _).put .workload _
  stored := rfl
  atRest := ⟨.fresh, by decide +kernel, rfl⟩

/-- A cluster of three members whose spec is being validated. -/
def DbCluster.validating : DbCluster :=
  withProgress (.scaling 3 3) (.resumingAt Stage.validateSpec.name)

/-- Its spec is edited to one that is not accepted. -/
def Store.unmanned (s : Store) : Store :=
  s.put ⟨"db", "example"⟩ .cluster
    { DbCluster.validating with spec := { DbCluster.validating.spec with members := 0 } }

/-- It is not true that a workload mounts the operator's secret only while that is stored:
if the workload is not found when the first stage that deploys is chosen, its restarts by
hand are ended without its being written anew.  Nor is it true that everything is written
for an accepted spec if the spec may be edited while its validation is under way. -/
theorem not_forall_gated :
    (¬ ∀ {r : Reconciler} {name : ResourceName} {instant : Bool} {start : Store} {c : DbCluster}
      {moments : List Moment} {m : Moment} {request : Request}, r.pacer.Silent →
      start.Begins name c →
      History r name (.disturbed name instant) (Store.Disturbed name editableBetween) start
        moments → m ∈ moments → m.request? = some request →
      ∀ secret, request.mounts? = some secret →
        secret = name.operatorSecret.name ∧ m.store.HasPem name) ∧
    ¬ ∀ {r : Reconciler} {name : ResourceName} {instant : Bool} {start : Store} {c : DbCluster}
      {moments : List Moment} {m : Moment} {request : Request}, r.pacer.Silent →
      start.Begins name c →
      History r name ⟨instant, Store.Disturbed name editableBetween, true⟩
        (Store.Disturbed name editableBetween) start moments → m ∈ moments →
      m.request? = some request →
      ∀ kind, request.writes? = some kind → kind ≠ .cluster →
        ∃ stored, m.store.clusters name = some stored ∧ validateSpec stored = .ok () := by
  constructor
  · intro h
    obtain ⟨last, earlier, hhistory, hlast, hgone⟩ :=
      History.exists_of_schedule .standard (.disturbed ⟨"db", "example"⟩ true) rfl default
        ⟨"db", "example"⟩ (Store.Disturbed ⟨"db", "example"⟩ editableBetween) .uncertified
        (.replicate 14 none ++ some (.notFound .workload ⟨"db", "example"⟩) :: .replicate 20 none)
        (P := fun last _ => last.request?.bind Request.mounts? =
            some "example-server-certificate-key" ∧
          last.store.secrets ⟨"db", "example-server-certificate-key"⟩ = none) (by decide +kernel)
    obtain ⟨request, hrequest, hmounts⟩ := Option.bind_eq_some_iff.1 hlast
    obtain ⟨-, secret, hsecret, -⟩ := h Pacer.silent_none Store.begins_uncertified hhistory
      List.mem_cons_self hrequest _ hmounts
    exact nomatch hgone.symm.trans hsecret
  · intro h
    -- The edit comes between the validation and the write of the next stage.
    obtain ⟨last, earlier, hhistory, hcall, hstored, hlast, hproblem⟩ :=
      History.exists_of_schedule .standard
        ⟨true, Store.Disturbed ⟨"db", "example"⟩ editableBetween, true⟩ rfl default
        ⟨"db", "example"⟩ (Store.Disturbed ⟨"db", "example"⟩ editableBetween)
        (.deployedFor (DbCluster.scaling 3 3).spec (.scaling 3 3)) (.replicate 9 none)
        (P := fun last earlier => last.rest.isSome = true ∧
          last.store.clusters ⟨"db", "example"⟩ = some .validating ∧
          (Reconciler.standard.goOn true default ⟨"db", "example"⟩ (.replicate 6 none)
            (⟨last.rest, last.store.unmanned⟩, last :: earlier)).1.request?.bind
              Request.writes? = some .service ∧
          ((Reconciler.standard.goOn true default ⟨"db", "example"⟩ (.replicate 6 none)
            (⟨last.rest, last.store.unmanned⟩, last :: earlier)).1.store.clusters
              ⟨"db", "example"⟩).bind specProblem? = some (.invalidMembers 0))
        (by decide +kernel)
    have hedit : Store.Disturbed ⟨"db", "example"⟩ editableBetween last.store last.store.unmanned :=
      .respec hstored (progressRecord_withProgress _ _) (.inr rfl) _
    have hhistory := (History.next hhistory (Moment.next_of_others hcall hedit)).goOn rfl default
      (.replicate 6 none)
    obtain ⟨request, hrequest, hwrites⟩ := Option.bind_eq_some_iff.1 hlast
    obtain ⟨stored, hstored, haccepted⟩ := h Pacer.silent_none (Store.begins_scaling _ 3 3) hhistory
      List.mem_cons_self hrequest _ hwrites nofun
    rw [hstored, Option.bind_some] at hproblem
    rw [validateSpec, hproblem] at haccepted
    cases haccepted

end Reconciliation
