/-
# The steps of the deployment

Every step is safe to run again from the start: what is to be created may be there
already, and an update writes the whole object that is wanted.

An action gives an outcome or a failure, and the context as it leaves it.  A step
whose work fails writes a failed status first; a step that has to wait writes a
pending status and asks to be called again later.
-/

import Reconciliation.Cluster.StatusWrite
import Reconciliation.Cluster.SpecProblem

namespace Reconciliation

/-- The action of a step. -/
abbrev StepAction := Context → Work (Except Failure Outcome × Context)

/-- The completion check of a step. -/
abbrev StepCheck := Context → Work (Except Failure Bool)

/-- Ends an action with a failure, after writing it to the status. -/
def failStep (ctx : Context) (message : String) : Work (Except Failure Outcome × Context) := do
  let (failure, ctx) ← failWithStatus ctx message
  pure (.error failure, ctx)

/-- Ends an action with a status write. -/
def publishStatus (ctx : Context) (o : StatusOptions) :
    Work (Except Failure Outcome × Context) := do
  let (result, ctx) ← updateStatus ctx o
  pure (result.mapError Failure.store, ctx)

/-- Ends an action that has to wait. -/
def waitStep (ctx : Context) (reason : String) : Work (Except Failure Outcome × Context) :=
  publishStatus ctx ((StatusOptions.unchanged.withMessage .info
    (reason ++ ", retrying in " ++ toString ctx.pendingSeconds ++ " seconds")).withPending
      ctx.pendingSeconds)

/-- A check that only calls to the store can fail. -/
def storeCheck (work : StoreWork Bool) : Work (Except Failure Bool) := do
  pure ((← work.run).mapError Failure.store)

/-! ## Starting and validating -/

/-- Starts a pass. -/
def startFresh : StepAction := fun ctx => pure (.ok .requeue, ctx)

/-- Refuses a spec that is not valid. -/
def validateSpecStep : StepAction := fun ctx =>
  match validateSpec ctx.cluster with
  | .error problem => failStep ctx ("error validating new spec: " ++ problem.message)
  | .ok () => pure (.ok .requeue, ctx)

/-! ## The service -/

/-- The service that a cluster should have. -/
def wantedService (c : DbCluster) : Service :=
  ⟨c.serviceName, databasePort, Table.empty.insert "app" c.serviceName.name⟩

/-- Makes sure that the service exists. -/
def createService : StepAction := fun ctx => do
  match ← callStore (.create .service (wantedService ctx.cluster)) with
  | .ok () => pure (.ok .requeue, ctx)
  | .error error =>
    if error.isAlreadyExists then pure (.ok .requeue, ctx)
    else failStep ctx ("Error ensuring the service exists: " ++ error.message)

/-- Whether the service exists. -/
def serviceExists : StepCheck := fun ctx => storeCheck do
  let service ← findResource .service ctx.cluster.serviceName
  pure service.isSome

/-! ## Certificates -/

/-- The entry of a secret that holds the certificate. -/
def certificateKey : String := "tls.crt"

/-- The entry of a secret that holds the key of the certificate. -/
def privateKeyKey : String := "tls.key"

/-- The entry of a config map that holds the certificate of the authority. -/
def authorityKey : String := "ca.crt"

/-- The entry of the operator's secret that holds certificate and key together. -/
def pemKey : String := "server.pem"

/-- Whether the user's certificate and authority are there with their entries. -/
def tlsObjectsValid (c : DbCluster) : StoreWork Bool := do
  match ← findResource .secret c.certificateSecretName with
  | none => pure false
  | some secret =>
    if secret.data.contains certificateKey && secret.data.contains privateKeyKey then do
      match ← findResource .configMap c.authorityConfigMapName with
      | none => pure false
      | some configMap => pure (configMap.data.contains authorityKey)
    else pure false

/-- Waits for the user's certificate and authority. -/
def tlsValidation : StepAction := fun ctx => do
  match ← (tlsObjectsValid ctx.cluster).run with
  | .error error => failStep ctx ("Error validating TLS config: " ++ error.message)
  | .ok false => waitStep ctx "TLS config is not yet valid"
  | .ok true => pure (.ok .requeue, ctx)

/-- Whether the user's certificate and authority are there. -/
def tlsValidated : StepCheck := fun ctx => storeCheck (tlsObjectsValid ctx.cluster)

/-- Certificate and key in one text. -/
def serverPem (certificates : Secret) : String :=
  (certificates.data.get? certificateKey).getD "" ++ "\n" ++
    (certificates.data.get? privateKeyKey).getD ""

/-- Keeps the operator's secret up to date with the user's certificate. -/
def ensureOperatorSecret (c : DbCluster) : StoreWork Unit := do
  let certificates ← getResource .secret c.certificateSecretName
  createOrUpdate .secret
    ⟨c.operatorSecretName, Table.empty.insert pemKey (serverPem certificates)⟩

/-- Makes sure that the operator's secret holds the certificate. -/
def createTlsResources : StepAction := fun ctx => do
  match ← (ensureOperatorSecret ctx.cluster).run with
  | .error error => failStep ctx ("Error ensuring TLS resources: " ++ error.message)
  | .ok () => pure (.ok .requeue, ctx)

/-! ## The automation config -/

/-- The first automation config that a cluster should have. -/
def wantedAutomationConfig (c : DbCluster) : AutomationConfig :=
  ⟨c.resourceName, 1, c.hosts c.membersThisPass, c.spec.version, c.spec.security.tls.enabled⟩

/-- Publishes the wanted automation config.  The version goes up only when the
agents have something else to do. -/
def ensureAutomationConfig (c : DbCluster) : StoreWork AutomationConfig := do
  let wanted := wantedAutomationConfig c
  match ← findResource .automationConfig c.resourceName with
  | some existing =>
    if existing.sameContent wanted then pure existing
    else do
      let next := { wanted with version := existing.version + 1 }
      updateResource .automationConfig next
      pure next
  | none => do
    createResource .automationConfig wanted
    pure wanted

/-- Publishes the automation config and looks at the workload. -/
def publishAutomationConfig (c : DbCluster) : StoreWork (AutomationConfig × Option Workload) := do
  let config ← ensureAutomationConfig c
  let workload ← findResource .workload c.resourceName
  pure (config, workload)

/-- Whether the agents of a workload follow a config; without a workload nobody is
waited for. -/
def agentsFollow (config : AutomationConfig) : Option Workload → Bool
  | none => true
  | some workload => workload.agentsReached config.version

/-- Publishes the automation config and waits for the agents. -/
def deployAutomationConfig : StepAction := fun ctx => do
  match ← (publishAutomationConfig ctx.cluster).run with
  | .error error => failStep ctx ("Error deploying automation config: " ++ error.message)
  | .ok (config, workload) =>
    let ctx := { ctx with observedWorkload := workload }
    if agentsFollow config workload then pure (.ok .requeue, ctx)
    else waitStep ctx "Agents are not yet ready"

/-- Whether the agents of the stored workload follow the stored config. -/
def automationConfigReached : StepCheck := fun ctx => do
  match ← (findResource .workload ctx.cluster.resourceName).run with
  | .error error => pure (.error (.other ("failed to get workload: " ++ error.message)))
  | .ok none => pure (.ok true)
  | .ok (some workload) => do
    match ← (getResource .automationConfig ctx.cluster.resourceName).run with
    | .error error =>
      pure (.error (.other ("failed to get automation config: " ++ error.message)))
    | .ok config => pure (.ok (workload.agentsReached config.version))

/-! ## The workload -/

/-- The workload that a cluster should have.  While the version changes, members
are restarted one by one by hand. -/
def wantedWorkload (c : DbCluster) : Workload where
  name := c.resourceName
  replicas := c.membersThisPass
  version := c.spec.version
  tlsSecret := if c.spec.security.tls.enabled then some c.operatorSecretName.name else none
  updateStrategy := if c.isChangingVersion then .onDelete else .rollingUpdate
  status := .fresh

/-- Writes the wanted workload and looks at what is stored then. -/
def ensureWorkload (c : DbCluster) : StoreWork Workload := do
  createOrUpdate .workload (wantedWorkload c)
  getResource .workload c.resourceName

/-- Writes the workload and waits until it is ready. -/
def deployWorkload : StepAction := fun ctx => do
  match ← (ensureWorkload ctx.cluster).run with
  | .error error => failStep ctx ("Error deploying workload: " ++ error.message)
  | .ok workload =>
    let ctx := { ctx with observedWorkload := some workload }
    if workload.isReady then pure (.ok .requeue, ctx)
    else waitStep ctx "Workload is not yet ready"

/-- Whether the stored workload is ready, or is restarted by hand. -/
def workloadDeployed : StepCheck := fun ctx => do
  match ← (getResource .workload ctx.cluster.resourceName).run with
  | .error error => pure (.error (.other ("error getting workload: " ++ error.message)))
  | .ok workload => pure (.ok (workload.isReady || workload.updateStrategy = .onDelete))

/-- Gives the stored workload back its rolling updates. -/
def resetStrategy (c : DbCluster) : StoreWork Workload := do
  let workload ← getResource .workload c.resourceName
  if workload.updateStrategy = .rollingUpdate then pure workload
  else do
    let reset := { workload with updateStrategy := .rollingUpdate }
    updateResource .workload reset
    pure reset

/-- Ends the restarts by hand. -/
def resetUpdateStrategy : StepAction := fun ctx => do
  match ← (resetStrategy ctx.cluster).run with
  | .error error => failStep ctx ("Error resetting workload update strategy: " ++ error.message)
  | .ok workload => pure (.ok .requeue, { ctx with observedWorkload := some workload })

/-- Whether the stored workload rolls its updates out. -/
def updateStrategyReset : StepCheck := fun ctx => storeCheck do
  let workload ← getResource .workload ctx.cluster.resourceName
  pure (workload.updateStrategy = .rollingUpdate)

/-! ## Publishing the result -/

/-- The cluster with its spec remembered as fully reconciled. -/
def withAppliedSpec (c : DbCluster) : DbCluster :=
  (c.annotate appliedVersionAnnotation c.spec.version).annotate appliedSpecAnnotation
    (Json.encode c.spec)

/-- Remembers the spec as fully reconciled, so that a later pass can tell that the
version changes.  The status is published already, so a failure is passed over. -/
def recordAppliedSpec (ctx : Context) : Work Context := do
  let cluster := withAppliedSpec ctx.cluster
  match ← callStore (.update .cluster cluster) with
  | .ok () =>
    pure { ctx with cluster := { ctx.cluster with metadata := cluster.metadata } }
  | .error _ => pure ctx

/-- The status while members are still to be added or removed. -/
def scalingStatus (ctx : Context) : StatusOptions :=
  let members := ctx.cluster.membersThisPass
  (((StatusOptions.unchanged.withMembers members).withWorkloadReplicas members).withMessage
    .info ("Performing scaling operation, currentMembers=" ++
      toString ctx.cluster.currentMembers.toNat ++ ", desiredMembers=" ++
      toString ctx.cluster.desiredMembers.toNat)).withPending ctx.pendingSeconds

/-- The status of a cluster that is as it should be. -/
def runningStatus (ctx : Context) : StatusOptions :=
  let members := ctx.cluster.membersThisPass
  (((((StatusOptions.unchanged.withUri ctx.cluster.connectionUri).withMembers
    members).withWorkloadReplicas members).withVersion ctx.cluster.spec.version).withMessage
      .clear "").withRunning

/-- Publishes how far the cluster has come. -/
def updateStatusStep : StepAction := fun ctx =>
  if ctx.cluster.isStillScaling then publishStatus ctx (scalingStatus ctx)
  else do
    let (result, ctx) ← updateStatus ctx (runningStatus ctx)
    match result with
    | .error error => pure (.error (.store error), ctx)
    | .ok outcome => do
      let ctx ← recordAppliedSpec ctx
      pure (.ok outcome, ctx)

/-- The cluster with an empty progress record. -/
def withFreshProgress (c : DbCluster) : DbCluster :=
  c.annotate progressAnnotation Progress.fresh.toJson

/-- Ends a pass: the next one starts afresh. -/
def reconciliationEnd : StepAction := fun ctx => do
  let cluster := withFreshProgress ctx.cluster
  match ← callStore (.update .cluster cluster) with
  | .error error => pure (.error (.store error), ctx)
  | .ok () =>
    pure (.ok .done,
      { ctx with cluster := { ctx.cluster with metadata := cluster.metadata } })

end Reconciliation
