/-
# The certificate of the user

Users provide the certificate of a cluster in a secret of their own, and one step keeps a
second secret with the certificate as the server wants it.  The step writes nothing but this
second secret and the status of the cluster, whatever calls fail
(`FaultyStore.ends_renewals`).  So the secret of the user is safe from it, however often it
is run, exactly if the two secrets have different names (`sparesCertificate_iff`).

The name of the first is any text that the user gives, and the name of the second is made
from that of the cluster.  If the user gives that name, the spec is valid, and the step
replaces the certificate by its own form of it (`not_forall_sparesCertificate`).
-/

import Reconciliation.Proofs.Cluster.Alone
import Reconciliation.Proofs.Cluster.Faults
import Reconciliation.Proofs.Cluster.Undisturbed

namespace Reconciliation

/-- A run of the step that keeps the operator's secret. -/
def renewal (ctx : Context) : Work (Except Failure Outcome) := do
  let (result, _) ← createTlsResources ctx
  pure result

/-- Runs of the step, in one context after the other. -/
def renewals (ctxs : List Context) : Work (List (Except Failure Outcome)) := ctxs.mapM renewal

/-! ## What the step writes -/

/-- The requests of work that writes secrets of some names and statuses only. -/
def Request.WritesSecretsIn (names : ResourceName → Prop) : Request → Prop
  | .get _ _ => True
  | .updateStatus _ => True
  | .create .secret secret => names secret.name
  | .update .secret secret => names secret.name
  | _ => False

/-- The stores hold the same, statuses and the secrets of these names apart. -/
def Store.SameBesides (s t : Store) (names : ResourceName → Prop) : Prop :=
  ∀ kind name, ¬ (kind = .secret ∧ names name) →
    (t.get? kind name).map kind.bare = (s.get? kind name).map kind.bare

namespace Store

variable {instant : Bool} {s t u : Store} {names : ResourceName → Prop}

theorem SameBesides.refl (s : Store) (names : ResourceName → Prop) : s.SameBesides s names :=
  fun _ _ _ => rfl

theorem SameBesides.trans (h : s.SameBesides t names) (h' : t.SameBesides u names) :
    s.SameBesides u names :=
  fun kind name hname => (h' kind name hname).trans (h kind name hname)

theorem SameBesides.secrets_eq (h : s.SameBesides t names) {name : ResourceName}
    (hname : ¬ names name) : t.secrets name = s.secrets name := by
  have hsecret := h .secret name fun hwritten => hname hwritten.2
  rwa [show Kind.secret.bare = id from rfl, Option.map_id] at hsecret

theorem SameBesides.configMaps_eq (h : s.SameBesides t names) : t.configMaps = s.configMaps := by
  funext name
  have hmap := h .configMap name nofun
  rwa [show Kind.configMap.bare = id from rfl, Option.map_id] at hmap

/-- A status write leaves everything but the status. -/
theorem map_bare_updateStatus (s : Store) (c : DbCluster) (kind : Kind) (name : ResourceName) :
    ((s.perform instant (.updateStatus c)).2.get? kind name).map kind.bare =
      (s.get? kind name).map kind.bare := by
  simp only [perform]
  cases hstored : s.clusters c.resourceName with
  | none => rfl
  | some stored =>
    by_cases hsame : kind = .cluster ∧ name = c.resourceName
    · obtain ⟨rfl, rfl⟩ := hsame
      have hget : s.get? .cluster c.resourceName = some stored := hstored
      rw [get?_put_self, hget]
      rfl
    · exact congrArg (Option.map kind.bare)
        (s.get?_put_of_ne_or .cluster _ (Decidable.not_and_iff_or_not.1 hsame))

/-- Requests for some secrets leave everything else. -/
theorem sameBesides_perform {r : Request} (hr : r.WritesSecretsIn names) (instant : Bool)
    (s : Store) : s.SameBesides (s.perform instant r).2 names := by
  have hsecret : r.kind = .secret → names r.name →
      s.SameBesides (s.perform instant r).2 names := by
    intro hkind hname kind name hother
    have hne : kind ≠ r.kind ∨ name ≠ r.name := by
      refine Decidable.not_and_iff_or_not.1 ?_
      rintro ⟨rfl, rfl⟩
      exact hother ⟨hkind, hname⟩
    obtain hsame | ⟨-, hconfig, -⟩ := get?_perform_or_rollOut instant s r hne
    · rw [hsame]
    · cases hkind.symm.trans hconfig
  cases r with
  | get kind name =>
    rw [Scene.Leads.perform_get]
    exact .refl s names
  | updateStatus c => exact fun kind name _ => s.map_bare_updateStatus c kind name
  | create kind object =>
    cases kind with
    | secret => exact hsecret rfl hr
    | cluster | service | workload | automationConfig | configMap => exact hr.elim
  | update kind object =>
    cases kind with
    | secret => exact hsecret rfl hr
    | cluster | service | workload | automationConfig | configMap => exact hr.elim

end Store

variable {instant : Bool} {s t : Store} {c : DbCluster} {ctxs : List Context}

theorem DbCluster.SameSpec.operatorSecretName_eq {c' : DbCluster} (h : c.SameSpec c') :
    c'.operatorSecretName = c.operatorSecretName := by
  rw [DbCluster.operatorSecretName, h.name, h.space]
  rfl

theorem Only.mapM {allowed : Request → Prop} {α β : Type} {f : α → Work β} {items : List α}
    (h : ∀ a ∈ items, Only allowed (fun _ => True) (f a)) :
    Only allowed (fun _ => True) (items.mapM f) := by
  induction items with
  | nil => exact .done trivial
  | cons a items ih =>
    rw [List.mapM_cons]
    refine bind ((h a (.head _)).mono fun b _ => bind ?_)
    exact (ih fun other hother => h other (.tail _ hother)).mono fun _ _ => .done trivial

/-- The step writes the operator's secret and the status. -/
theorem Only.renewals (hctxs : ∀ ctx ∈ ctxs, c.SameSpec ctx.cluster) :
    Only (Request.WritesSecretsIn (· = c.operatorSecretName)) (fun _ => True)
      (renewals ctxs) := by
  refine mapM fun ctx hctx => bind (Only.imp (action .createTlsResources ctx) ?_ ?_)
  · intro r hr
    cases r with
    | get | updateStatus => trivial
    | create kind object =>
      cases kind with
      | secret => exact hr.2.1.trans (hctxs ctx hctx).operatorSecretName_eq
      | service | workload | automationConfig => cases hr.1
      | cluster | configMap => exact hr.elim
    | update kind object =>
      cases kind with
      | secret => exact hr.2.1.trans (hctxs ctx hctx).operatorSecretName_eq
      | cluster => obtain ⟨-, h | ⟨h, -⟩⟩ := hr <;> cases h
      | workload => obtain ⟨h, -⟩ | h := hr <;> cases h
      | automationConfig => cases hr.1
      | service | configMap => exact hr.elim
  · exact fun x _ => .done trivial

/-- **Whatever calls fail, the step leaves everything but the operator's secret and
statuses.** -/
theorem FaultyStore.ends_renewals (b : FaultyStore)
    (hctxs : ∀ ctx ∈ ctxs, c.SameSpec ctx.cluster) (instant : Bool) :
    b.Ends instant (renewals ctxs) fun _ b' =>
      b.store.SameBesides b'.store (· = c.operatorSecretName) := by
  have hends : b.Ends instant (renewals ctxs) fun _ b' =>
      True ∧ b.store.SameBesides b'.store (· = c.operatorSecretName) :=
    .of_only (Only.renewals hctxs) (.refl _ _) fun hr hb =>
      ⟨hb.trans (Store.sameBesides_perform hr instant _), fun _ => hb⟩
  exact hends.mono fun _ _ h => h.2

/-- In a store none of whose calls fail the work goes as with nobody else around. -/
theorem FaultyStore.run_of_no_failures {α : Type} (work : Work α) (instant : Bool) (s : Store)
    (calls : List (Request × Option StoreError)) :
    (work.run (handle instant) ⟨s, [], calls⟩).2.store =
      (work.run (Store.handle instant false) s).2 := by
  induction work generalizing s calls with
  | done => rfl
  | ask effect next ih =>
    cases effect with
    | call r => exact ih _ _ _
    | sleep d => exact ih _ _ _

/-! ## What the step does -/

/-- Writing over a secret is putting it in place. -/
theorem Store.overwrite_secret (s : Store) (instant : Bool) (secret : Secret) :
    s.overwrite instant .secret secret = s.put secret.name .secret secret := by
  have hkept : (s.get? .secret secret.name).elim secret (fun _ => secret) = secret := by
    cases s.get? .secret secret.name <;> rfl
  show ((s.put secret.name .secret ((s.get? .secret secret.name).elim secret
    fun _ => secret)).rollOut instant .secret secret.name) = _
  rw [hkept]
  cases instant <;> rfl

/-- The secret that the operator keeps for a certificate. -/
def operatorSecret (c : DbCluster) (certificates : Secret) : Secret :=
  ⟨c.operatorSecretName, Table.empty.insert pemKey (serverPem certificates)⟩

/-- With nobody else around the step puts the operator's secret in place. -/
theorem run_renewal (instant : Bool) {ctx : Context} (hctx : c.SameSpec ctx.cluster)
    {certificates : Secret} (hs : s.secrets c.certificateSecretName = some certificates) :
    (renewal ctx).run (Store.handle instant false) s =
      (.ok .requeue, s.put c.operatorSecretName .secret (operatorSecret c certificates)) := by
  have hget := s.run_getResource instant .secret ctx.cluster.certificateSecretName
  have hfound : s.get? .secret ctx.cluster.certificateSecretName = some certificates := by
    rw [hctx.certificateSecretName_eq]
    exact hs
  rw [hfound] at hget
  have hensure : (ensureOperatorSecret ctx.cluster).run.run (Store.handle instant false) s =
      (.ok (), s.put c.operatorSecretName .secret (operatorSecret c certificates)) := by
    rw [ensureOperatorSecret, Store.run_bind_ok hget, hctx.operatorSecretName_eq]
    exact (s.run_createOrUpdate instant .secret (operatorSecret c certificates)).trans
      (by rw [Store.overwrite_secret]; rfl)
  rw [renewal, createTlsResources, Program.run_bind, Program.run_bind, hensure]
  rfl

/-- Where it has put the operator's secret in place, it does the same again. -/
theorem run_renewals (instant : Bool) (hctxs : ∀ ctx ∈ ctxs, c.SameSpec ctx.cluster) {certificates : Secret}
    (hs : s.secrets c.certificateSecretName = some certificates)
    (hput : s.put c.operatorSecretName .secret (operatorSecret c certificates) = s) :
    (renewals ctxs).run (Store.handle instant false) s =
      (List.replicate ctxs.length (.ok .requeue), s) := by
  induction ctxs with
  | nil => rfl
  | cons ctx ctxs ih =>
    have hfirst := run_renewal instant (hctxs ctx (.head _)) hs
    have hlater := ih fun other hother => hctxs other (.tail _ hother)
    rw [hput] at hfirst
    rw [renewals] at hlater
    rw [renewals, Program.run_mapM_cons, hfirst, hlater]
    rfl

/-- A step that fails writes the status. -/
theorem Only.failStep_of_updateStatus {allowed : Request → Prop}
    (h : ∀ c, allowed (.updateStatus c)) (ctx : Context) (message : String) :
    Only allowed (fun _ => True) (Reconciliation.failStep ctx message) := by
  refine bind (bind (bind (callStore (r := .updateStatus _) (h _) fun reply => ?_)))
  cases reply <;> exact .done (.done (.done trivial))

/-- Without a certificate the step writes nothing but the status, whatever calls fail. -/
theorem FaultyStore.ends_renewal_of_missing (b : FaultyStore) {ctx : Context}
    (hctx : c.SameSpec ctx.cluster) (instant : Bool)
    (hb : b.store.secrets c.certificateSecretName = none) :
    b.Ends instant (renewal ctx) fun _ b' => b.store.SameBesides b'.store fun _ => False := by
  have hfails : ∀ b' : FaultyStore, b'.store = b.store → ∀ message,
      b'.Ends instant (failStep ctx message) fun _ b'' =>
        True ∧ b.store.SameBesides b''.store fun _ => False := by
    intro b' hb' message
    have honly : Only (Request.WritesSecretsIn fun _ => False) (fun _ => True)
        (failStep ctx message) := .failStep_of_updateStatus (fun _ => trivial) ctx message
    refine .of_only honly ?_ fun hr h =>
      ⟨h.trans (Store.sameBesides_perform hr instant _), fun _ => h⟩
    rw [hb']
    exact .refl _ _
  have hfound : b.store.get? .secret ctx.cluster.certificateSecretName = none := by
    rw [hctx.certificateSecretName_eq]
    exact hb
  refine .bind (.bind (.run_bind (.getResource (fun certificates hget => ?_) (fun _ => ?_)
    fun error => ?_)))
  · cases hfound.symm.trans hget
  · exact (hfails _ (store_reached_get ..) _).mono fun _ _ h => h.2
  · exact (hfails (b.failed _ error) rfl _).mono fun _ _ h => h.2

theorem FaultyStore.ends_renewals_of_missing (b : FaultyStore)
    (hctxs : ∀ ctx ∈ ctxs, c.SameSpec ctx.cluster) (instant : Bool)
    (hb : b.store.secrets c.certificateSecretName = none) :
    b.Ends instant (renewals ctxs) fun _ b' => b.store.SameBesides b'.store fun _ => False := by
  induction ctxs generalizing b with
  | nil => exact .refl _ _
  | cons ctx ctxs ih =>
    rw [renewals, List.mapM_cons]
    refine .bind ((b.ends_renewal_of_missing (hctxs ctx (.head _)) instant hb).mono ?_)
    intro result b' hb'
    refine .bind ((ih b' (fun other hother => hctxs other (.tail _ hother)) ?_).mono ?_)
    · exact (hb'.secrets_eq id).trans hb
    · exact fun results b'' hb'' => hb'.trans hb''

/-! ## The validation -/

/-- Looking for the certificate finds out whether it is there. -/
theorem Store.run_tlsObjectsValid (instant : Bool) (s : Store) (c : DbCluster) :
    ∃ valid, (tlsObjectsValid c).run.run (handle instant false) s = (.ok valid, s) ∧
      (valid = true ↔ s.ServesTls c) := by
  have hsame := s.run_of_lookups instant
    (Only.tlsObjectsValid (Q := fun _ => True) (fun _ _ => rfl) (fun _ => trivial) c) true
  have hvalid : Alone (tlsObjectsValid c).run s fun x _ =>
      ∃ valid, x = .ok valid ∧ (valid = true ↔ s.ServesTls c) :=
    .tlsObjectsValid fun valid hvalid => ⟨valid, rfl, hvalid⟩
  obtain ⟨valid, hok, hserves⟩ := hvalid
  exact ⟨valid, by rw [hsame, hok], hserves⟩

/-- The validation passes: it goes on and leaves everything as it is, and the step counts
as complete. -/
def Store.PassesTls (s : Store) (instant : Bool) (ctx : Context) : Prop :=
  (tlsValidation ctx).run (handle instant false) s = ((.ok .requeue, ctx), s) ∧
    (tlsValidated ctx).run (handle instant false) s = (.ok true, s)

/-- The validation passes exactly if the certificate and the authority are there. -/
theorem Store.passesTls_iff {ctx : Context} :
    s.PassesTls instant ctx ↔ s.ServesTls ctx.cluster := by
  obtain ⟨valid, hrun, hserves⟩ := s.run_tlsObjectsValid instant ctx.cluster
  rw [PassesTls, tlsValidation, tlsValidated, storeCheck, Program.run_bind, Program.run_bind,
    hrun, ← hserves]
  cases valid with
  | true => exact iff_of_true ⟨rfl, rfl⟩ rfl
  | false => exact iff_of_false (fun h => nomatch h.2) nofun

/-! ## The law -/

/-- The certificate of the user is safe from the step, and the step has done its work when
it has been run once. -/
structure Store.SparesCertificate (s : Store) (instant : Bool) (c : DbCluster) : Prop where
  /-- Whatever calls fail, the user's secret keeps its data. -/
  data : ∀ ctxs, (∀ ctx ∈ ctxs, c.SameSpec ctx.cluster) → ∀ failures,
    (((renewals ctxs).run (FaultyStore.handle instant) ⟨s, failures, []⟩).2.store.secrets
        c.certificateSecretName).map Secret.data =
      (s.secrets c.certificateSecretName).map Secret.data
  /-- If the user's secret is there and no call fails, the operator's secret holds certificate
  and key, nothing else has changed, and no further run changes anything. -/
  operator : ∀ certificates, s.secrets c.certificateSecretName = some certificates →
    ∀ ctx ctxs, (∀ other ∈ ctx :: ctxs, c.SameSpec other.cluster) →
      (renewals (ctx :: ctxs)).run (Store.handle instant false) s =
        (List.replicate (ctxs.length + 1) (.ok .requeue),
          s.put c.operatorSecretName .secret ⟨c.operatorSecretName,
            Table.empty.insert pemKey (serverPem certificates)⟩)
  /-- If the user's secret is not there, no run changes anything but statuses. -/
  missing : s.secrets c.certificateSecretName = none →
    ∀ ctxs, (∀ ctx ∈ ctxs, c.SameSpec ctx.cluster) → ∀ failures,
      s.SameBesides ((renewals ctxs).run (FaultyStore.handle instant) ⟨s, failures, []⟩).2.store
        fun _ => False
  /-- The validation keeps passing. -/
  validation : ∀ ctx ctxs, (∀ other ∈ ctx :: ctxs, c.SameSpec other.cluster) → ∀ failures,
    s.PassesTls instant ctx →
      ((renewals ctxs).run (FaultyStore.handle instant) ⟨s, failures, []⟩).2.store.PassesTls
        instant ctx

theorem sparesCertificate_of_ne (hnames : c.certificateSecretName ≠ c.operatorSecretName)
    (instant : Bool) (s : Store) : s.SparesCertificate instant c where
  data ctxs hctxs failures := by
    have hends := FaultyStore.ends_renewals ⟨s, failures, []⟩ hctxs instant
    exact congrArg (Option.map Secret.data) (hends.secrets_eq hnames)
  operator certificates hs ctx ctxs hctxs := by
    have hfirst := run_renewal instant (hctxs ctx (.head _)) hs
    have hlater := run_renewals instant
      (s := s.put c.operatorSecretName .secret (operatorSecret c certificates))
      (fun other hother => hctxs other (.tail _ hother))
      ((Collection.put_of_ne _ _ hnames).trans hs) (s.put_put _ .secret _ _)
    rw [renewals] at hlater
    rw [renewals, Program.run_mapM_cons, hfirst, hlater]
    rfl
  missing hs ctxs hctxs failures :=
    FaultyStore.ends_renewals_of_missing ⟨s, failures, []⟩ hctxs instant hs
  validation ctx ctxs hctxs failures hvalid := by
    have hends := FaultyStore.ends_renewals ⟨s, failures, []⟩
      (fun other hother => hctxs other (.tail _ hother)) instant
    rw [Store.passesTls_iff, Store.servesTls_iff] at hvalid ⊢
    rw [hends.configMaps_eq, hends.secrets_eq]
    · exact hvalid
    · rw [(hctxs ctx (.head _)).certificateSecretName_eq]
      exact hnames

/-- Under the name of the operator's secret, the step replaces the certificate of the user by
its own form of it. -/
theorem not_sparesCertificate_of_eq (hnames : c.certificateSecretName = c.operatorSecretName) :
    ¬ ∀ (instant : Bool) (s : Store), s.SparesCertificate instant c := by
  intro h
  -- A secret without entries is enough: the step adds one.
  let given : Secret := ⟨c.operatorSecretName, .empty⟩
  let s : Store := Store.empty.put given.name .secret given
  have hgiven : s.secrets c.certificateSecretName = some given :=
    (congrArg s.secrets hnames).trans (Collection.put_self _ _ _)
  let ctx : Context := ⟨c, c.status, none, .none, .earliest⟩
  have hctxs : ∀ other ∈ [ctx], c.SameSpec other.cluster := fun other hother =>
    List.mem_singleton.1 hother ▸ .refl c
  have hkept := (h false s).data [ctx] hctxs []
  rw [renewals, FaultyStore.run_of_no_failures, ← renewals,
    (h false s).operator given hgiven ctx [] hctxs, hgiven, hnames] at hkept
  have hput : (s.put c.operatorSecretName .secret (operatorSecret c given)).secrets
      c.operatorSecretName = some (operatorSecret c given) := Collection.put_self _ _ _
  have hdata : Table.empty.insert pemKey (serverPem given) = .empty :=
    Option.some.inj ((congrArg (Option.map Secret.data) hput).symm.trans hkept)
  have hentry := congrArg (fun table => table.get? pemKey) hdata
  simp only [Table.get?_insert, if_true, Table.get?_empty] at hentry
  cases hentry

/-- **The certificate of the user is safe exactly if its secret is not called like the
operator's.** -/
theorem sparesCertificate_iff :
    (∀ (instant : Bool) (s : Store), s.SparesCertificate instant c) ↔
      c.certificateSecretName ≠ c.operatorSecretName where
  mp h hnames := not_sparesCertificate_of_eq hnames h
  mpr hnames instant s := sparesCertificate_of_ne hnames instant s

/-- A spec can give the name of the operator's secret and still be valid. -/
theorem not_forall_sparesCertificate :
    ¬ ∀ c : DbCluster, specProblem? c = none → c.spec.security.tls.enabled = true →
      ∀ (instant : Bool) (s : Store), s.SparesCertificate instant c := by
  intro h
  let c : DbCluster := ⟨⟨"example", "db", .empty⟩,
    ⟨3, "6.0.5", ⟨⟨true, "example-server-certificate-key", "tls-ca"⟩⟩⟩, .fresh⟩
  exact not_sparesCertificate_of_eq (c := c) (by decide +kernel) (h c (by decide +kernel) rfl)

end Reconciliation
