/-
# What is there for a cluster

When a cluster resumes at a stage, what the earlier stages were to achieve is there
(`Store.Equipped`): the spec was accepted, the service is stored, the operator's secret holds
the certificate.  Others keep this whatever they write of what is theirs
(`Store.Disturbed`), and so does every request that passes the gate (`Request.Permitted`).
-/

import Reconciliation.Proofs.Cluster.Regions
import Reconciliation.Proofs.Cluster.Requests

namespace Reconciliation

/-! ## What is stored -/

namespace Store

/-- The operator's secret of a cluster holds certificate and key. -/
def HasPem (s : Store) (name : ResourceName) : Prop :=
  ∃ secret, s.secrets name.operatorSecret = some secret ∧ secret.data.contains pemKey = true

/-- The secret that the workload mounts, if there is one. -/
def tlsSecret? (s : Store) (name : ResourceName) : Option String :=
  (s.workloads name).bind Workload.tlsSecret

/-- What others may do: workloads report how far they are, users write their secrets and
config maps but not the operator's secret, and edit the spec while the record names a stage
at which it may be edited. -/
inductive Disturbed (name : ResourceName) (editable : String → Prop) : Store → Store → Prop
  | progress {s : Store} {w : Workload} {other : ResourceName}
      (stored : s.workloads other = some w) (status : WorkloadStatus) :
      Disturbed name editable s (s.put other .workload { w with status })
  | provided {s : Store} {secrets : Collection Secret} {configMaps : Collection ConfigMap}
      (kept : secrets name.operatorSecret = s.secrets name.operatorSecret) :
      Disturbed name editable s { s with secrets, configMaps }
  | respec {s : Store} {c : DbCluster} {record : Progress} (stored : s.clusters name = some c)
      (read : progressRecord c = .ok record) (allowed : editable record.nextState)
      (spec : ClusterSpec) : Disturbed name editable s (s.put name .cluster { c with spec })

end Store

/-- The secret that the written workload mounts, if a workload is written and mounts one. -/
def Request.mounts? : Request → Option String
  | .create .workload w => w.tlsSecret
  | .update .workload w => w.tlsSecret
  | _ => none

theorem Request.exists_of_mounts? {r : Request} {secret : String} (h : r.mounts? = some secret) :
    ∃ w, r.Writes .workload w ∧ w.tlsSecret = some secret := by
  cases r with
  | get | updateStatus => cases h
  | create kind object =>
    cases kind with
    | workload => exact ⟨object, .inl rfl, h⟩
    | cluster | service | automationConfig | secret | configMap => cases h
  | update kind object =>
    cases kind with
    | workload => exact ⟨object, .inr rfl, h⟩
    | cluster | service | automationConfig | secret | configMap => cases h

/-- The request writes the stored workload back with rolling updates, and nothing else of it
changes but perhaps the status. -/
def Request.Resets (name : ResourceName) (r : Request) (s : Store) : Prop :=
  ∃ stored status, s.workloads name = some stored ∧
    r = .update .workload { stored with updateStrategy := .rollingUpdate, status }

theorem Request.Resets.tlsSecret?_eq {name : ResourceName} {r : Request} {s : Store}
    (h : r.Resets name s) : s.tlsSecret? name = r.mounts? := by
  obtain ⟨stored, status, hstored, rfl⟩ := h
  rw [Store.tlsSecret?, hstored]
  rfl

/-! ## What a request does to it -/

namespace Store

variable {instant : Bool} {name : ResourceName} {s : Store} {r : Request}

/-- Requests take no service away. -/
theorem services_perform_ne_none (h : s.services name ≠ none) (r : Request) :
    (s.perform instant r).2.services name ≠ none := by
  rcases get?_perform_or instant (nofun : Kind.service ≠ .workload) nofun s r name with
    hsame | ⟨service, -, hnew⟩
  · exact fun hnone => h (hsame.symm.trans hnone)
  · exact fun hnone => nomatch hnew.symm.trans hnone

/-- A certificate stays if only certificates are written over it. -/
theorem HasPem.perform (h : s.HasPem name)
    (hr : ∀ secret, r.Writes .secret secret → secret.data.contains pemKey = true) :
    (s.perform instant r).2.HasPem name := by
  obtain ⟨secret, hstored, hpem⟩ := h
  rcases get?_perform_or instant (nofun : Kind.secret ≠ .workload) nofun s r
    name.operatorSecret with hsame | ⟨new, hwrites, hnew⟩
  · exact ⟨secret, hsame.trans hstored, hpem⟩
  · exact ⟨new, hnew, hr new hwrites⟩

theorem tlsSecret?_put_workload (s : Store) (w : Workload) (other : ResourceName) :
    (s.put other .workload w).tlsSecret? name =
      if name = other then w.tlsSecret else s.tlsSecret? name := by
  unfold tlsSecret?
  split
  · rename_i hname
    subst hname
    exact congrArg (Option.bind · Workload.tlsSecret) (Collection.put_self _ _ _)
  · rename_i hname
    exact congrArg (Option.bind · Workload.tlsSecret) (Collection.put_of_ne _ _ hname)

/-- A report does not change what a workload mounts. -/
theorem tlsSecret?_put_status {w : Workload} {other : ResourceName}
    (hstored : s.workloads other = some w) (status : WorkloadStatus) :
    (s.put other .workload { w with status }).tlsSecret? name = s.tlsSecret? name := by
  rw [tlsSecret?_put_workload]
  split
  · rename_i hname
    rw [tlsSecret?, hname, hstored]
    rfl
  · rfl

theorem tlsSecret?_rollOut (instant : Bool) (kind : Kind) (other : ResourceName) (s : Store) :
    (s.rollOut instant kind other).tlsSecret? name = s.tlsSecret? name := by
  unfold rollOut settle
  split
  · split
    · exact tlsSecret?_put_status ‹_› _
    · rfl
  · rfl

/-- A workload mounts what it did before or, if the request writes one, what that one
mounts. -/
theorem tlsSecret?_perform_or (s : Store) (r : Request) (name : ResourceName) :
    (s.perform instant r).2.tlsSecret? name = s.tlsSecret? name ∨
      (s.perform instant r).2.tlsSecret? name = r.mounts? := by
  have hput : ∀ w (other : ResourceName), (s.put other .workload w).tlsSecret? name =
      s.tlsSecret? name ∨ (s.put other .workload w).tlsSecret? name = w.tlsSecret := by
    intro w other
    rw [tlsSecret?_put_workload]
    split
    · exact .inr rfl
    · exact .inl rfl
  have hother : ∀ {kind : Kind} (other : ResourceName) (object : kind.Object), kind ≠ .workload →
      (s.put other kind object).tlsSecret? name = s.tlsSecret? name := by
    intro kind other object hkind
    cases kind <;> first | rfl | exact absurd rfl hkind
  cases r with
  | get kind other =>
    simp only [perform]
    split <;> exact .inl rfl
  | updateStatus c =>
    simp only [perform]
    split <;> exact .inl rfl
  | create kind object =>
    simp only [perform]
    split
    · exact .inl rfl
    · rw [tlsSecret?_rollOut, insert]
      by_cases hkind : kind = .workload
      · subst hkind
        exact hput _ _
      · exact .inl (hother _ _ hkind)
  | update kind object =>
    simp only [perform]
    split
    · rw [tlsSecret?_rollOut]
      by_cases hkind : kind = .workload
      · subst hkind
        exact hput _ _
      · exact .inl (hother _ _ hkind)
    · exact .inl rfl

end Store

/-! ## What is there at a stage -/

/-- Whether a spec is accepted is a matter of the name and the spec. -/
theorem specProblem?_congr {c c' : DbCluster} (hname : c'.resourceName = c.resourceName)
    (hspec : c'.spec = c.spec) : specProblem? c' = specProblem? c := by
  have hname : c'.metadata.name = c.metadata.name := congrArg ResourceName.name hname
  rw [specProblem?, specProblem?, hname, hspec]

/-- What the earlier stages were to achieve is there when a cluster comes to a stage.  A
workload may still mount what it did at the start. -/
structure Store.Equipped (start s : Store) (c : DbCluster) (stage : Stage) : Prop where
  accepted : 2 ≤ stage.index → specProblem? c = none
  service : 3 ≤ stage.index → s.services c.resourceName.service ≠ none
  certificate : 5 ≤ stage.index → c.spec.security.tls.enabled = true → s.HasPem c.resourceName
  mounted : ∀ secret, s.tlsSecret? c.resourceName = some secret →
    (secret = c.resourceName.operatorSecret.name ∧ s.HasPem c.resourceName) ∨
      start.tlsSecret? c.resourceName = some secret

/-- What a complete stage has achieved. -/
def Stage.Achieved (c : DbCluster) (s : Store) : Stage → Prop
  | .validateSpec => specProblem? c = none
  | .createService => s.services c.resourceName.service ≠ none
  | .createTlsResources => s.HasPem c.resourceName
  | _ => True

/-- The gate: what has to be so when a request is made. -/
structure Request.Permitted (start : Store) (name : ResourceName) (r : Request) (s : Store) :
    Prop where
  accepted : ∀ kind, r.writes? = some kind → kind ≠ .cluster →
    ∃ c, s.clusters name = some c ∧ specProblem? c = none
  service : r.writes? = some .automationConfig ∨ r.writes? = some .workload →
    s.services name.service ≠ none
  certificate : ∀ secret, r.Writes .secret secret → secret.data.contains pemKey = true
  mounted : ∀ secret, r.mounts? = some secret →
    (secret = name.operatorSecret.name ∧ s.HasPem name) ∨
      r.Resets name s ∧ start.tlsSecret? name = some secret

namespace Store.Equipped

variable {start s t : Store} {c c' : DbCluster} {stage : Stage}

/-- What is there stays there while nothing is taken away. -/
theorem of_store (h : start.Equipped s c stage)
    (hservice : s.services c.resourceName.service ≠ none →
      t.services c.resourceName.service ≠ none)
    (hpem : s.HasPem c.resourceName → t.HasPem c.resourceName)
    (hmounted : ∀ secret, t.tlsSecret? c.resourceName = some secret →
      s.tlsSecret? c.resourceName = some secret ∨
        secret = c.resourceName.operatorSecret.name ∧ t.HasPem c.resourceName) :
    start.Equipped t c stage where
  accepted := h.accepted
  service hstage := hservice (h.service hstage)
  certificate hstage htls := hpem (h.certificate hstage htls)
  mounted secret hsecret := by
    rcases hmounted secret hsecret with hbefore | hnew
    · exact (h.mounted secret hbefore).imp_left fun ⟨hname, hs⟩ => ⟨hname, hpem hs⟩
    · exact .inl hnew

/-- It is a matter of the name and the spec. -/
theorem congr (h : start.Equipped s c stage) (hname : c'.resourceName = c.resourceName)
    (hspec : c'.spec = c.spec) : start.Equipped s c' stage where
  accepted hstage := (specProblem?_congr hname hspec).trans (h.accepted hstage)
  service hstage := by
    rw [hname]
    exact h.service hstage
  certificate hstage htls := by
    rw [hname]
    exact h.certificate hstage (hspec ▸ htls)
  mounted secret hsecret := by
    rw [hname] at hsecret ⊢
    exact h.mounted secret hsecret

/-- Up to the validation it does not depend on the spec. -/
theorem early (h : start.Equipped s c stage) (hname : c'.resourceName = c.resourceName)
    {stage' : Stage} (hearly : stage'.index ≤ 1) : start.Equipped s c' stage' where
  accepted hstage := by omega
  service hstage := by omega
  certificate hstage := by omega
  mounted secret hsecret := by
    rw [hname] at hsecret ⊢
    exact h.mounted secret hsecret

/-- From the deployment on nothing more is needed. -/
theorem late (h : start.Equipped s c stage) (hlate : 5 ≤ stage.index) (stage' : Stage) :
    start.Equipped s c stage' where
  accepted _ := h.accepted (by omega)
  service _ := h.service (by omega)
  certificate _ := h.certificate hlate
  mounted := h.mounted

/-- A request that passes the gate takes nothing away. -/
theorem perform (h : start.Equipped s c stage) {r : Request} (instant : Bool)
    (hr : r.Permitted start c.resourceName s) :
    start.Equipped (s.perform instant r).2 c stage := by
  have hpem : s.HasPem c.resourceName → (s.perform instant r).2.HasPem c.resourceName :=
    fun hs => hs.perform hr.certificate
  refine h.of_store (fun hs => services_perform_ne_none hs r) hpem fun secret hsecret => ?_
  rcases s.tlsSecret?_perform_or r c.resourceName with hsame | hmounts
  · exact .inl (hsame.symm.trans hsecret)
  · have hsecret := hmounts.symm.trans hsecret
    rcases hr.mounted secret hsecret with ⟨hname, hs⟩ | ⟨hresets, -⟩
    · exact .inr ⟨hname, hpem hs⟩
    · exact .inl (hresets.tlsSecret?_eq.trans hsecret)

/-- **What a stage has achieved is what the next one needs.** -/
theorem next (h : start.Equipped s c stage) (hachieved : stage.Achieved c s) {ctx : Context}
    (hspec : ctx.cluster.spec = c.spec) :
    start.Equipped s c ((stage.next? ctx).getD initialStage) := by
  have hdeploys : 2 ≤ stage.index → s.services c.resourceName.service ≠ none →
      (c.spec.security.tls.enabled = true → s.HasPem c.resourceName) → ∀ stage',
      start.Equipped s c stage' := fun hstage hservice hpem _ =>
    ⟨fun _ => h.accepted hstage, fun _ => hservice, fun _ => hpem, h.mounted⟩
  cases stage with
  | startFresh => exact h.early rfl le_rfl
  | validateSpec =>
    exact ⟨fun _ => hachieved,
      fun hlate => absurd hlate (show ¬ 3 ≤ Stage.createService.index by decide),
      fun hlate => absurd hlate (show ¬ 5 ≤ Stage.createService.index by decide), h.mounted⟩
  | createService =>
    rw [Stage.next?_createService]
    by_cases htls : ctx.tlsEnabled = true
    · rw [if_pos htls]
      exact ⟨fun _ => h.accepted le_rfl, fun _ => hachieved,
        fun hlate => absurd hlate (show ¬ 5 ≤ Stage.tlsValidation.index by decide), h.mounted⟩
    · refine hdeploys le_rfl hachieved (fun henabled => absurd ?_ htls) _
      rw [Context.tlsEnabled, hspec, henabled]
  | tlsValidation =>
    exact ⟨fun _ => h.accepted (by decide), fun _ => h.service le_rfl,
      fun hlate => absurd hlate (show ¬ 5 ≤ Stage.createTlsResources.index by decide), h.mounted⟩
  | createTlsResources =>
    exact hdeploys (by decide) (h.service (by decide)) (fun _ => hachieved) _
  | deployAutomationConfig | deployWorkload | resetUpdateStrategy | updateStatus
  | reconciliationEnd => exact h.late (by decide) _

end Store.Equipped

/-! ## The phases of a call -/

/-- The cluster that is stored stands at a stage, with what it needs there. -/
structure Store.Stands (start s : Store) (name : ResourceName) (c : DbCluster) (stage : Stage) :
    Prop where
  stored : s.clusters name = some c
  named : c.resourceName = name
  resumes : resumeStage c = .ok stage
  equipped : start.Equipped s c stage

/-- While no stage is run. -/
def Store.Idle (start : Store) (name : ResourceName) (s : Store) : Prop :=
  ∃ c stage, start.Stands s name c stage

/-- While a stage is run on a copy of the cluster: only at the start of a pass the spec that
is stored may be another one. -/
structure Store.During (start : Store) (name : ResourceName) (stage : Stage) (c : DbCluster)
    (s : Store) : Prop where
  named : c.resourceName = name
  resumes : resumeStage c = .ok stage
  equipped : start.Equipped s c stage
  stands : ∃ stored, start.Stands s name stored stage ∧
    (stage ≠ initialStage → stored.spec = c.spec)

/-- While the next stage is to be recorded: what it needs is there, and where the spec may
be edited it needs nothing. -/
def Store.Leaving (start : Store) (name : ResourceName) (next : Option Stage) (s : Store) : Prop :=
  ∃ c stage, start.Stands s name c stage ∧ start.Equipped s c (next.getD initialStage) ∧
    (stage = initialStage → (next.getD initialStage).index ≤ 1)

/-- The spec may be edited before its validation is over. -/
def editableBetween (next : String) : Prop := next = "" ∨ next = Stage.validateSpec.name

/-- While a call is under way the spec may be edited at the start of a pass only. -/
def editableMeanwhile (next : String) : Prop := next = ""

/-- A record that names no stage, or the validation, resumes there. -/
theorem index_le_one_of_editable {c : DbCluster} {stage : Stage} {record : Progress}
    (hresumes : resumeStage c = .ok stage) (hread : progressRecord c = .ok record)
    (heditable : editableBetween record.nextState) : stage.index ≤ 1 := by
  rcases heditable with hempty | hvalidate
  · have hstage := hresumes.symm.trans (DbCluster.AtRest.resumeStage_eq ⟨record, hread, hempty⟩)
    obtain rfl := Except.ok.inj hstage
    exact Nat.zero_le 1
  · have hresume : record.resumePoint? = some Stage.validateSpec.name := by
      rw [← hvalidate]
      exact if_neg (hvalidate ▸ Stage.validateSpec.name_ne_empty)
    unfold resumeStage at hresumes
    simp only [hread, bind, Except.bind, hresume, Stage.ofName?_name] at hresumes
    obtain rfl := Except.ok.inj hresumes
    exact le_rfl

namespace Store

variable {start s t : Store} {name : ResourceName} {c : DbCluster} {stage : Stage}
  {editable : String → Prop}

section Others

variable (hd : s.Disturbed name editable t)
include hd

theorem Disturbed.services_eq : t.services = s.services := by
  cases hd <;> rfl

theorem Disturbed.tlsSecret?_eq : t.tlsSecret? name = s.tlsSecret? name := by
  cases hd with
  | progress stored status => exact tlsSecret?_put_status stored status
  | provided | respec => rfl

/-- Others change at most the status of a workload. -/
theorem Disturbed.workload {w : Workload}
    (h : ∃ status, s.workloads name = some { w with status }) :
    ∃ status, t.workloads name = some { w with status } := by
  obtain ⟨status, hw⟩ := h
  cases hd with
  | @progress found other stored new =>
    by_cases hname : name = other
    · subst hname
      obtain rfl := Option.some.inj (hw.symm.trans stored)
      exact ⟨new, Collection.put_self _ _ _⟩
    · exact ⟨status, (Collection.put_of_ne _ _ hname).trans hw⟩
  | provided | respec => exact ⟨status, hw⟩

theorem Disturbed.hasPem (h : s.HasPem name) : t.HasPem name := by
  obtain ⟨secret, hstored, hpem⟩ := h
  cases hd with
  | provided kept => exact ⟨secret, kept.trans hstored, hpem⟩
  | progress | respec => exact ⟨secret, hstored, hpem⟩

/-- Whatever others do, what is there stays there. -/
theorem Disturbed.equipped (hname : c.resourceName = name) (h : start.Equipped s c stage) :
    start.Equipped t c stage := by
  subst hname
  exact h.of_store (by rw [hd.services_eq]; exact id) hd.hasPem
    fun secret hsecret => .inl (hd.tlsSecret?_eq.symm.trans hsecret)

/-- What a stage has achieved stays. -/
theorem Disturbed.achieved (hname : c.resourceName = name) (h : stage.Achieved c s) :
    stage.Achieved c t := by
  subst hname
  cases stage with
  | createService => exact fun hnone => h (hd.services_eq ▸ hnone)
  | createTlsResources => exact hd.hasPem h
  | validateSpec => exact h
  | _ => trivial

end Others

/-- Whatever others do, the cluster stands where it did; another spec is stored only where
it may be edited. -/
theorem Disturbed.stands (hd : s.Disturbed name editable t) (h : start.Stands s name c stage)
    (heditable : ∀ next, editable next → editableBetween next) :
    ∃ c', start.Stands t name c' stage ∧ (c'.spec = c.spec ∨
      ∃ record, progressRecord c = .ok record ∧ editable record.nextState) := by
  have hequipped := hd.equipped h.named h.equipped
  cases hd with
  | progress stored status => exact ⟨c, ⟨h.stored, h.named, h.resumes, hequipped⟩, .inl rfl⟩
  | provided kept => exact ⟨c, ⟨h.stored, h.named, h.resumes, hequipped⟩, .inl rfl⟩
  | @respec stored record hstored read allowed spec =>
    obtain rfl := Option.some.inj (h.stored.symm.trans hstored)
    refine ⟨{ c with spec }, ⟨Collection.put_self _ _ _, h.named, h.resumes, ?_⟩,
      .inr ⟨record, read, allowed⟩⟩
    have hname : DbCluster.resourceName { c with spec } = c.resourceName := rfl
    exact hequipped.early hname
      (index_le_one_of_editable h.resumes read (heditable _ allowed))

theorem Disturbed.idle (hd : s.Disturbed name editable t)
    (heditable : ∀ next, editable next → editableBetween next) (h : start.Idle name s) :
    start.Idle name t := by
  obtain ⟨c, stage, hstands⟩ := h
  obtain ⟨c', hstands', -⟩ := hd.stands hstands heditable
  exact ⟨c', stage, hstands'⟩

section Meanwhile

variable (hd : s.Disturbed name editableMeanwhile t)
include hd

theorem Disturbed.during (h : start.During name stage c s) : start.During name stage c t := by
  obtain ⟨stored, hstands, hspec⟩ := h.stands
  obtain ⟨stored', hstands', hedited⟩ := hd.stands hstands fun _ => .inl
  refine ⟨h.named, h.resumes, hd.equipped h.named h.equipped, stored', hstands', fun hstage => ?_⟩
  rcases hedited with hsame | ⟨record, hread, hempty⟩
  · exact hsame.trans (hspec hstage)
  · have hrest : stored.AtRest := ⟨record, hread, hempty⟩
    exact absurd (Except.ok.inj (hstands.resumes.symm.trans hrest.resumeStage_eq)) hstage

theorem Disturbed.leaving {next : Option Stage} (h : start.Leaving name next s) :
    start.Leaving name next t := by
  obtain ⟨c, stage, hstands, hequipped, hnext⟩ := h
  obtain ⟨c', hstands', hedited⟩ := hd.stands hstands fun _ => .inl
  have hequipped := hd.equipped hstands.named hequipped
  have hname := hstands'.named.trans hstands.named.symm
  refine ⟨c', stage, hstands', ?_, hnext⟩
  rcases hedited with hsame | ⟨record, hread, hempty⟩
  · exact hequipped.congr hname hsame
  · have hrest : c.AtRest := ⟨record, hread, hempty⟩
    exact hequipped.early hname
      (hnext (Except.ok.inj (hstands.resumes.symm.trans hrest.resumeStage_eq)))

end Meanwhile

theorem During.idle (h : start.During name stage c s) : start.Idle name s := by
  obtain ⟨stored, hstands, -⟩ := h.stands
  exact ⟨stored, stage, hstands⟩

theorem Stands.during (h : start.Stands s name c stage) : start.During name stage c s :=
  ⟨h.named, h.resumes, h.equipped, c, h, fun _ => rfl⟩

/-- A complete stage is left with what the next one needs. -/
theorem During.leaving (h : start.During name stage c s) (hachieved : stage.Achieved c s)
    {ctx : Context} (hspec : ctx.cluster.spec = c.spec) :
    start.Leaving name (stage.next? ctx) s := by
  obtain ⟨stored, hstands, hsame⟩ := h.stands
  have hname := hstands.named.trans h.named.symm
  refine ⟨stored, stage, hstands, ?_, by rintro rfl; exact le_rfl⟩
  by_cases hstage : stage = initialStage
  · subst hstage
    exact hstands.equipped.early rfl le_rfl
  · exact (h.equipped.next hachieved hspec).congr hname (hsame hstage)

/-- A request that passes the gate and writes no other cluster than the copy changes nothing
of it. -/
theorem During.perform (h : start.During name stage c s) {r : Request} (instant : Bool)
    (hr : r.Permitted start name s) (hcluster : ∀ written, r = .update .cluster written →
      written.Agrees c ∧ progressRecord written = progressRecord c) :
    start.During name stage c (s.perform instant r).2 := by
  obtain ⟨hnamed, hresumes, hequipped, stored, hstands, hsame⟩ := h
  subst hnamed
  refine ⟨rfl, hresumes, hequipped.perform instant hr, ?_⟩
  have hkept : start.Equipped (s.perform instant r).2 stored stage :=
    hstands.equipped.perform instant (hstands.named ▸ hr)
  obtain ⟨new, hnew, ⟨status, rfl⟩ | ⟨written, status, rfl, rfl⟩⟩ :=
    exists_clusters_perform instant hstands.stored r
  · exact ⟨_, ⟨hnew, hstands.named, hstands.resumes, hkept.congr rfl rfl⟩, hsame⟩
  · obtain ⟨hagrees, hrecord⟩ := hcluster written rfl
    refine ⟨_, ⟨hnew, hagrees.resourceName_eq, ?_, ?_⟩, fun _ => hagrees.spec_eq⟩
    · exact (resumeStage_congr hrecord).trans hresumes
    · exact (hequipped.perform instant hr).congr hagrees.resourceName_eq hagrees.spec_eq

end Store

end Reconciliation
