import HamiCloud.Store.Jobs

/-!
# Settings and workspace quotas of the API

`app/core/quotas.py` and `app/core/image_policy.py`. A handler is one transaction that holds
its row lock or advisory lock from the first read to the commit; an error rolls it back.
Authentication, rate limits, idempotency records and audit events are not part of the model: they
can refuse a request or answer it without effect, and never change a row modelled here.
-/

namespace HamiCloud

open Library JobState

structure Settings where
  approvedImageRegistries : List String
  defaultJobTimeoutSeconds : Nat
  defaultBuildTimeoutSeconds : Nat
  defaultWorkspaceJobConcurrency : Nat
  defaultWorkspaceServiceCap : Nat
  defaultWorkspaceBuildConcurrency : Nat
  defaultWorkspacePendingOperations : Nat
  maxConcurrentJobsPerWS : Nat

def Settings.default : Settings where
  approvedImageRegistries :=
    ["registry.example.com/", "ghcr.io/hami9/", "docker.io/library/", "quay.io/", "gcr.io/",
      "sha256:"]
  defaultJobTimeoutSeconds := 600
  defaultBuildTimeoutSeconds := 900
  defaultWorkspaceJobConcurrency := 2
  defaultWorkspaceServiceCap := 2
  defaultWorkspaceBuildConcurrency := 1
  defaultWorkspacePendingOperations := 100
  maxConcurrentJobsPerWS := 2

inductive ApiError
  | notFound (detail : String)
  | badRequest (detail : String)
  | forbidden (detail : String)
  | conflict (detail : String)
  | validation (field : String)
  | unprocessable (detail : String)
  | imagePolicyViolation (imageDigest : String)
  | cannotCancel (reason : TransitionError)
  | cannotRerun (state : JobState)
  | slugExists (slug : String)
  | noRepository
  /-- The class is `none` for `PENDING_OPERATIONS`. -/
  | quotaExceeded (resourceClass : Option QuotaResourceClass) (limit retryAfter : Nat)
  | integrity
  /-- A text does not fit its column. -/
  | dataError
  /-- A library function has raised an exception. -/
  | exception
  deriving DecidableEq

/-- A pattern of the allowlist ends in `*`, or is itself what an image has to start with. -/
def matchesImagePattern (imageDigest pattern : String) : Bool :=
  let stem := if pattern.toList.getLast? = some '*' then pattern.toList.dropLast else pattern.toList
  stem.isPrefixOf imageDigest.toList

def validateImagePolicy (cfg : Settings) (imageDigest : String) : Except ApiError Unit :=
  ensure ("*" ∈ cfg.approvedImageRegistries ∨
    cfg.approvedImageRegistries.any (matchesImagePattern imageDigest)) (.imagePolicyViolation imageDigest)

def quotaActiveJobStates : List JobState := [admitted, starting, running]

def quotaPendingJobStates : List JobState :=
  [queued, admitted, starting, running, retryWait, recoveryPending]

def activeServiceReleaseStatuses : List ReleaseStatus := [.imageReady, .deploying, .healthy]

structure QuotaUsage where
  jobs : Nat
  builds : Nat
  services : Nat
  pending : Nat
  deriving DecidableEq

def reservedUnits (db : Db) (workspaceId : Uuid) (cls : QuotaResourceClass) : Nat :=
  ((db.reservations.rows.filter fun r => r.workspaceId = workspaceId && r.status = .active &&
    db.now < r.expiresAt && r.resourceClass = cls).map QuotaReservation.units).sum

def countJobs (db : Db) (workspaceId : Uuid) (states : List JobState) : Nat :=
  db.jobs.rows.countP (fun j => j.workspaceId = workspaceId && j.state ∈ states)

def activeBuilds (db : Db) (workspaceId : Uuid) : Nat :=
  db.releases.rows.countP fun r => r.workspaceId = workspaceId && r.repositoryId.isSome &&
    (r.status = .requested || r.status = .building)

/-- Distinct applications with an active release, without the excluded one. -/
def deployedApps (db : Db) (workspaceId : Uuid) (excluded : Option Uuid) : Nat :=
  ((db.releases.rows.filter fun r => r.workspaceId = workspaceId &&
    r.status ∈ activeServiceReleaseStatuses && some r.applicationId ≠ excluded).map
      Release.applicationId).dedup.length

/-- `get_workspace_quota_summary`, after its call of `expire_stale_reservations`. -/
def workspaceQuotaSummary (db : Db) (workspaceId : Uuid) : QuotaUsage where
  jobs := max (countJobs db workspaceId quotaActiveJobStates) (reservedUnits db workspaceId .concurrentJob)
  builds := max (activeBuilds db workspaceId) (reservedUnits db workspaceId .concurrentBuild)
  services := max (deployedApps db workspaceId none) (reservedUnits db workspaceId .deployedService)
  pending := countJobs db workspaceId quotaPendingJobStates + activeBuilds db workspaceId

/-- `get_workspace_quota_usage_for_admission`. -/
def quotaUsageForAdmission (db : Db) (workspaceId : Uuid) (applicationId : Option Uuid) : QuotaUsage :=
  let usage := workspaceQuotaSummary db workspaceId
  match applicationId with
  | none => usage
  | some app => { usage with services := deployedApps db workspaceId (some app) }

/-- The check of one resource class: what is used, its limit, the `Retry-After` header of a
refusal, and how long a reservation lives. -/
structure QuotaCheck where
  used : Nat
  limit : Nat
  retryAfter : Nat
  ttlSeconds : Nat

def quotaCheck (cfg : Settings) (usage : QuotaUsage) : QuotaResourceClass → QuotaCheck
  | .concurrentJob =>
    ⟨usage.jobs, cfg.defaultWorkspaceJobConcurrency, 15, cfg.defaultJobTimeoutSeconds⟩
  | .concurrentBuild =>
    ⟨usage.builds, cfg.defaultWorkspaceBuildConcurrency, 15, cfg.defaultBuildTimeoutSeconds⟩
  | .deployedService => ⟨usage.services, cfg.defaultWorkspaceServiceCap, 60, 86400⟩

def enforceWorkspaceQuota (cfg : Settings) (db : Db) (workspaceId : Uuid) (cls : QuotaResourceClass)
    (applicationId : Option Uuid) (reserve : Bool) : Except ApiError Db := do
  let db₁ := expireStaleReservations db workspaceId
  let usage := quotaUsageForAdmission db₁ workspaceId applicationId
  ensure (usage.pending < cfg.defaultWorkspacePendingOperations)
    (.quotaExceeded none cfg.defaultWorkspacePendingOperations 30)
  let check := quotaCheck cfg usage cls
  ensure (check.used < check.limit) (.quotaExceeded (some cls) check.limit check.retryAfter)
  if reserve then orError (insertReservation db₁ workspaceId cls check.ttlSeconds) .integrity
  else pure db₁

end HamiCloud
