import Reconciliation.Cluster.Backend
import Reconciliation.Cluster.Reconciler
import Reconciliation.Engine.Script
import Reconciliation.Proofs.Cluster.AppliedSpec
import Reconciliation.Proofs.Cluster.Certificates
import Reconciliation.Proofs.Cluster.Edits
import Reconciliation.Proofs.Cluster.Hostnames
import Reconciliation.Proofs.Cluster.Interleavings
import Reconciliation.Proofs.Cluster.MemberLists
import Reconciliation.Proofs.Cluster.SavedProgress
import Reconciliation.Proofs.Cluster.StatusCalls
import Reconciliation.Proofs.Cluster.StatusWrites
import Reconciliation.Proofs.Engine.PacedRuns
import Reconciliation.Proofs.Engine.Pointing
import Reconciliation.Proofs.Engine.Registrations
import Reconciliation.Proofs.Engine.Walk
import Reconciliation.Proofs.Json.ReadBack
import Reconciliation.Proofs.Rollout.ConfigVersions
import Reconciliation.Proofs.Rollout.Gates
import Reconciliation.Proofs.Rollout.VersionChange
import Reconciliation.Proofs.Rollout.Waiting
import Reconciliation.Proofs.Scaling.Configuration
import Reconciliation.Proofs.Scaling.Convergence
import Reconciliation.Proofs.Scaling.Distance
import Reconciliation.Proofs.Scaling.LostWrites
import Reconciliation.Proofs.Scaling.Order
import Reconciliation.Proofs.Scaling.Readiness
import Reconciliation.Proofs.Scaling.SingleSteps
import Reconciliation.Proofs.Settings.SaveLoad
import Reconciliation.Settings.Load
import Reconciliation.Settings.Save
