import HamiCloud.Library.Table
import HamiCloud.Library.Count
import HamiCloud.Library.RowNumber
import HamiCloud.Library.FairScan
import HamiCloud.Library.Transition
import HamiCloud.Library.Lease
import HamiCloud.Library.Total
import HamiCloud.Library.History
import HamiCloud.Library.Sequential
import HamiCloud.Domain.JobState
import HamiCloud.Store.Schema
import HamiCloud.Store.Jobs
import HamiCloud.Store.Releases
import HamiCloud.Api.Quotas
import HamiCloud.Api.Jobs
import HamiCloud.Api.Apps
import HamiCloud.Runtime.World
import HamiCloud.Runtime.Scheduler
import HamiCloud.Runtime.Reconcile
import HamiCloud.Runtime.Builds
import HamiCloud.Runtime.Passes
import HamiCloud.Runtime.Process
import HamiCloud.Runtime.Recoveries
import HamiCloud.Runtime.JobRunner
import HamiCloud.Api.Idempotency
import HamiCloud.Runtime.Requests
import HamiCloud.Runtime.AppLocks
import HamiCloud.Runtime.Deliveries
import HamiCloud.Protocol.Intents
import HamiCloud.Protocol.Jobs
import HamiCloud.Protocol.JobEvolution
import HamiCloud.Protocol.Exclusive
import HamiCloud.Protocol.Outcomes
import HamiCloud.Protocol.Recoverable
import HamiCloud.Protocol.Releases
import HamiCloud.Protocol.Generations
import HamiCloud.Protocol.Rollout
import HamiCloud.Protocol.Supersession
import HamiCloud.Protocol.Serving
import HamiCloud.Proofs.JobRefinement
import HamiCloud.Proofs.JobSimulation
import HamiCloud.Proofs.ReleaseRefinement
import HamiCloud.Proofs.ReleaseSimulation
import HamiCloud.Proofs.Frames
import HamiCloud.Proofs.WorldInvariant
import HamiCloud.Proofs.Generations
import HamiCloud.Proofs.Promotions
import HamiCloud.Proofs.Images
import HamiCloud.Proofs.Supersession
import HamiCloud.Proofs.Serving
import HamiCloud.Proofs.Enabled
import HamiCloud.Proofs.JobContract
import HamiCloud.Proofs.SingleIntent
import HamiCloud.Proofs.Recoverability
import HamiCloud.Proofs.Fencing
import HamiCloud.Proofs.Reconcile
import HamiCloud.Proofs.Teardown
import HamiCloud.Proofs.Cleanup
import HamiCloud.Proofs.Builds
import HamiCloud.Proofs.Quotas
import HamiCloud.Proofs.Reservations
import HamiCloud.Proofs.Passes
import HamiCloud.Proofs.Attempts
import HamiCloud.Proofs.Records
import HamiCloud.Proofs.Process
import HamiCloud.Proofs.Outcomes
import HamiCloud.Proofs.DeadLetters
import HamiCloud.Proofs.Events
import HamiCloud.Proofs.AttemptEvents
import HamiCloud.Proofs.Requests
import HamiCloud.Proofs.Cancellation
import HamiCloud.Proofs.AppLocks
import HamiCloud.Proofs.Numbering
import HamiCloud.Proofs.Deliveries
import HamiCloud.Proofs.Budget
import HamiCloud.Proofs.RetryTiming
import HamiCloud.Proofs.Timestamps
import HamiCloud.Proofs.GracePeriod
import HamiCloud.Proofs.FairAdmission
import HamiCloud.Proofs.JobRunner
import HamiCloud.Proofs.FailureRecords
import HamiCloud.Proofs.Branches
import HamiCloud.Proofs.Naming
import HamiCloud.Api.Listings
import HamiCloud.Api.Formats
import HamiCloud.Proofs.Formats
import HamiCloud.Proofs.Listings
import HamiCloud.Library.Keyset
import HamiCloud.Library.Base64
import HamiCloud.Library.Numerals
import HamiCloud.Library.Calendar
import HamiCloud.Runtime.Naming
import HamiCloud.Api.Repositories
import HamiCloud.Proofs.RepositoryHosts
import HamiCloud.Library.UniqueTable
import HamiCloud.Api.Access
import HamiCloud.Api.Secrets
import HamiCloud.Proofs.Secrets
import HamiCloud.Proofs.ResourceNames
import HamiCloud.Api.Audit
import HamiCloud.Proofs.Audit
import HamiCloud.Library.Aead
import HamiCloud.Library.Sha256
import HamiCloud.Api.Crypto
import HamiCloud.Proofs.Crypto
import HamiCloud.Library.LexicalPath
import HamiCloud.Runtime.BuildPaths
import HamiCloud.Proofs.BuildPaths
import HamiCloud.Runtime.RepoMirrors
import HamiCloud.Proofs.RepoMirrors
import HamiCloud.Library.Program
import HamiCloud.Runtime.ServiceReconciler
import HamiCloud.Proofs.ServiceReconciler
import HamiCloud.Runtime.Containers
import HamiCloud.Proofs.Containers
import HamiCloud.Runtime.Executor
import HamiCloud.Proofs.Liveness
import HamiCloud.Library.Segments
import HamiCloud.Web.DeadLetterList
import HamiCloud.Proofs.DeadLetterList
import HamiCloud.Library.RowLocks
import HamiCloud.Api.Outbox
import HamiCloud.Proofs.Outbox
import HamiCloud.Proofs.OutboxDelivery
import HamiCloud.Api.Members
import HamiCloud.Proofs.Members
import HamiCloud.Api.Server
import HamiCloud.Api.Endpoints
import HamiCloud.Proofs.Tenants
import HamiCloud.Proofs.TenantRows
import HamiCloud.Proofs.TenantReads
