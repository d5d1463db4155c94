import HamiCloud.Api.Listings
import HamiCloud.Api.Members
import HamiCloud.Api.Repositories
import HamiCloud.Api.Secrets
import HamiCloud.Library.Handler

/-!
# What the handlers share

The state that the handlers of `app/api/v1` work on, and the steps that they have in common: the access check of
`app/core/auth.py`, the rate limit of `app/core/rate_limit.py`, the idempotency check and the audit events. A handler
runs alone, from its first read to its commit.
-/

namespace HamiCloud

open Library

/-- The errors of the HTTP layer. Status code and body of a response are determined by its error. -/
inductive HttpError
  | api (err : ApiError)
  | idempotencyConflict
  | rateLimited (limit : Nat)
  | unavailable (detail : String)
  | notImplemented (detail : String)
  | internal (detail : String)
  deriving DecidableEq

inductive AuditTarget
  | row (id : Uuid)
  | name (text : String)
  deriving DecidableEq

/-- A row of `audit_events`, without its details. -/
structure AuditRow where
  id : Uuid
  workspaceId : Uuid
  actorSubject : String
  action : String
  targetType : String
  target : AuditTarget
  deriving DecidableEq

/-- `hc:ratelimit:{workspace_id}:{route_class}:{bucket}`. -/
structure RateKey where
  workspaceId : Uuid
  routeClass : String
  bucket : Nat
  deriving DecidableEq

structure ApiState where
  db : Db
  workspaces : UniqueTable Workspace.id Workspace.slug
  memberships : Memberships
  secrets : Secrets
  records : Table IdempotencyRecord.key
  audit : List AuditRow
  /-- the increments of Redis, if it is available -/
  redis : Option (List RateKey)

/-- Settings, and what the handlers take from their libraries. -/
structure ApiEnv where
  cfg : Settings
  formats : TextFormats
  urls : UrlRules
  approvedRepositoryHosts : List String
  /-- zero switches the limit off -/
  rateLimitRequestsPerMinute : Nat
  /-- `REDIS_FAIL_CLOSED or ENVIRONMENT != "development"` -/
  failClosed : Bool
  payloadHash : Operation → String
  /-- the `created_at` columns, by the id of the row -/
  createdAt : Uuid → Instant
  hasArtifactsDir : Bool
  /-- the contents of `output.txt`, by workspace and job -/
  artifact : Uuid → Uuid → Option String

abbrev ApiHandler (α : Type) := Handler ApiState HttpError α

/-- A result of the model's transactions as one of the HTTP layer. -/
def toHttp {α : Type} (x : Except ApiError α) : Except HttpError α := x.mapError .api

def notFound {α : Type} (o : Option α) (detail : String) : Except HttpError α := toHttp (orError o (.notFound detail))

/-! ### Access -/

def authorize (caller : Caller) (workspaceId : Uuid) (minRole : WorkspaceRole) (notFoundDetail : String) :
    ApiHandler WorkspaceMembership :=
  .observe fun s => toHttp (authorizeWorkspaceAccess s.memberships caller workspaceId minRole notFoundDetail)

/-- A row is looked up by its id, and the caller has to be a member of its workspace. The two refusals have one text. -/
def accessRow {α : Type} (row : ApiState → Option α) (workspaceId : α → Uuid) (caller : Caller)
    (minRole : WorkspaceRole) (detail : String) : ApiHandler α := do
  let a ← Handler.observe fun s => notFound (row s) detail
  let _ ← authorize caller (workspaceId a) minRole detail
  pure a

def accessJob (caller : Caller) (jobId : Uuid) (minRole : WorkspaceRole) : ApiHandler Job :=
  accessRow (fun s => s.db.jobs.get jobId) Job.workspaceId caller minRole "Job not found"

def accessApplication (caller : Caller) (appId : Uuid) (minRole : WorkspaceRole) : ApiHandler Application :=
  accessRow (fun s => s.db.apps.get appId) Application.workspaceId caller minRole "Application not found"

def accessRepository (caller : Caller) (repositoryId : Uuid) (minRole : WorkspaceRole) : ApiHandler Repository :=
  accessRow (fun s => s.db.repositories.get repositoryId) Repository.workspaceId caller minRole "Repository not found"

inductive OperationRow
  | release (rel : Release)
  | job (job : Job)
  deriving DecidableEq

def OperationRow.workspaceId : OperationRow → Uuid
  | .release rel => rel.workspaceId
  | .job j => j.workspaceId

/-- A release, or else a job. -/
def findOperation (s : ApiState) (operationId : Uuid) : Option OperationRow :=
  match s.db.releases.get operationId with
  | some rel => some (.release rel)
  | none => (s.db.jobs.get operationId).map .job

def accessOperation (caller : Caller) (operationId : Uuid) : ApiHandler OperationRow :=
  accessRow (findOperation · operationId) OperationRow.workspaceId caller .viewer "Operation not found"

/-! ### Rate limit -/

def minute : Time := 60 * second

/-- The counter is incremented whether or not the request is let through. -/
def checkWorkspaceRateLimit (env : ApiEnv) (workspaceId : Uuid) (routeClass : String) : ApiHandler Unit :=
  .charge fun s =>
    let limit := env.rateLimitRequestsPerMinute
    if limit = 0 then (.ok (), s)
    else
      match s.redis with
      | none => (if env.failClosed then .error (.unavailable "Rate limiter store unavailable") else .ok (), s)
      | some hits =>
        let key : RateKey := ⟨workspaceId, routeClass, s.db.now / minute⟩
        let current := (hits ++ [key]).count key
        (if limit < current then .error (.rateLimited limit) else .ok (), { s with redis := some (hits ++ [key]) })

/-! ### Audit events -/

/-- `record_audit_event`. -/
def ApiState.record (s : ApiState) (workspaceId : Uuid) (caller : Caller) (action targetType : String)
    (target : AuditTarget) : ApiState :=
  { s with
    audit := s.audit ++ [⟨s.db.nextUuid, workspaceId, caller.subject, action, targetType, target⟩]
    db := { s.db with nextUuid := s.db.nextUuid + 1 } }

def AuditAction.text : AuditAction → String
  | .jobSubmitted => "job.submitted"
  | .jobCancelRequested => "job.cancel.requested"
  | .jobRerunSubmitted => "job.rerun.submitted"
  | .appReleaseDeployed => "app.release.deployed"
  | .appReleaseRolledBack => "app.release.rolled_back"

def AuditAction.targetType : AuditAction → String
  | .jobSubmitted | .jobCancelRequested | .jobRerunSubmitted => "JOB"
  | .appReleaseDeployed | .appReleaseRolledBack => "RELEASE"

/-! ### Operations -/

/-- What the handlers of the five operations do for a member, before the rate limit. -/
def Operation.precheck (db : Db) : Operation → Except ApiError Unit
  | .rerunJob jobId => do
    let job ← orError (db.jobs.get jobId) (.notFound "Job not found")
    ensure (job.state.isTerminal = true) (.cannotRerun job.state)
  | .rollbackRelease appId targetReleaseId => do
    let _ ← orError ((db.releases.get targetReleaseId).filter (fun r => r.applicationId = appId))
      (.notFound "Target release not found for this application")
    pure ()
  | _ => .ok ()

def Operation.routeClass : Operation → String
  | .submitJob _ _ => "jobs.submit"
  | .cancelJob _ => "jobs.cancel"
  | .rerunJob _ => "jobs.rerun"
  | .deployRelease _ _ => "apps.deploy"
  | .rollbackRelease _ _ => "apps.rollback"

def Operation.run (cfg : Settings) (db : Db) : Operation → Except ApiError Db
  | .submitJob workspaceId payload => HamiCloud.submitJob cfg db workspaceId payload
  | .cancelJob jobId => HamiCloud.cancelJob db jobId
  | .rerunJob jobId => HamiCloud.rerunJob cfg db jobId
  | .deployRelease appId payload => HamiCloud.deployRelease cfg db appId payload
  | .rollbackRelease appId targetReleaseId => HamiCloud.rollbackRelease cfg db appId targetReleaseId

/-- The transaction of an operation: its own rows, the audit events and the idempotency record. -/
def commitOperation (env : ApiEnv) (caller : Caller) (workspaceId : Uuid) (op : Operation) (key : RecordKey)
    (purged : Option Uuid) (s : ApiState) : Except HttpError (Uuid × ApiState) := do
  let db ← toHttp (op.run env.cfg s.db)
  let operationId := op.operationId db
  let s₁ := (op.auditEvents s.db db).foldl
    (fun s e => s.record workspaceId caller e.action.text e.action.targetType (.row e.targetId)) { s with db := db }
  let records ← toHttp (orError ((purgeRecord s.records key purged).insert
    ⟨s₁.db.nextUuid, key, env.payloadHash op, operationId, s.db.now + recordLifetime⟩) .integrity)
  pure (operationId, { s₁ with records := records, db := { s₁.db with nextUuid := s₁.db.nextUuid + 1 } })

/-- The part of the five handlers that follows their access check. -/
def runOperation (env : ApiEnv) (caller : Caller) (workspaceId : Uuid) (op : Operation) (idempotencyKey : String) :
    ApiHandler Uuid := do
  let key : RecordKey := ⟨workspaceId, op.endpoint, idempotencyKey⟩
  let found ← Handler.observe fun s => .ok (checkIdempotency s.db.now s.records key (env.payloadHash op))
  match found with
  | .replay operationId => pure operationId
  | .conflict => throw .idempotencyConflict
  | .proceed purged => do
    Handler.observe fun s => toHttp (op.precheck s.db)
    checkWorkspaceRateLimit env workspaceId op.routeClass
    Handler.transact (commitOperation env caller workspaceId op key purged)

end HamiCloud
