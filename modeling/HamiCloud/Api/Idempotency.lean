import HamiCloud.Runtime.World

/-!
# Idempotency records

`app/core/idempotency.py`, and what the five requests that take an `Idempotency-Key` store besides their own
rows. A payload is represented by its hash.
-/

namespace HamiCloud

open Library JobState

/-- The requests that take an `Idempotency-Key`. -/
inductive Operation
  | submitJob (workspaceId : Uuid) (payload : SubmitJobRequest)
  | cancelJob (jobId : Uuid)
  | rerunJob (jobId : Uuid)
  | deployRelease (appId : Uuid) (payload : DeployReleaseRequest)
  | rollbackRelease (appId targetReleaseId : Uuid)
  deriving DecidableEq

/-- The path that an idempotency record stores as its `endpoint`. -/
inductive Endpoint
  /-- `/v1/workspaces/{workspace_id}/jobs` -/
  | jobs (workspaceId : Uuid)
  /-- `/v1/jobs/{job_id}/cancel` -/
  | cancel (jobId : Uuid)
  /-- `/v1/jobs/{job_id}/reruns` -/
  | reruns (jobId : Uuid)
  /-- `/v1/apps/{app_id}/deployments` -/
  | deployments (appId : Uuid)
  /-- `/v1/apps/{app_id}/rollbacks` -/
  | rollbacks (appId : Uuid)
  deriving DecidableEq

def Operation.endpoint : Operation → Endpoint
  | .submitJob ws _ => .jobs ws
  | .cancelJob id => .cancel id
  | .rerunJob id => .reruns id
  | .deployRelease app _ => .deployments app
  | .rollbackRelease app _ => .rollbacks app

/-- The transaction of an operation. -/
def Operation.action : Operation → Action
  | .submitJob ws payload => .job (.submitJob ws payload)
  | .cancelJob id => .job (.cancelJob id)
  | .rerunJob id => .job (.rerunJob id)
  | .deployRelease app payload => .service (.deployRelease app payload)
  | .rollbackRelease app target => .service (.rollbackRelease app target)

/-- The actions that only a request with an `Idempotency-Key` takes. -/
def Action.isOperation : Action → Bool
  | .job (.submitJob _ _) => true
  | .job (.cancelJob _) => true
  | .job (.rerunJob _) => true
  | .service (.deployRelease _ _) => true
  | .service (.rollbackRelease _ _) => true
  | _ => false

/-- The workspace of an operation: its own, or that of the job or application it names. -/
def Operation.workspaceId (db : Db) : Operation → Option Uuid
  | .submitJob ws _ => some ws
  | .cancelJob id => (db.jobs.get id).map Job.workspaceId
  | .rerunJob id => (db.jobs.get id).map Job.workspaceId
  | .deployRelease app _ => (db.apps.get app).map Application.workspaceId
  | .rollbackRelease app _ => (db.apps.get app).map Application.workspaceId

/-- The `operation_id` of an accepted operation: the row it creates, which takes the identifier drawn
last, or the cancelled job. -/
def Operation.operationId (db' : Db) : Operation → Uuid
  | .cancelJob id => id
  | _ => db'.nextUuid - 1

/-! ### Audit events -/

inductive AuditAction
  /-- `job.submitted` -/
  | jobSubmitted
  /-- `job.cancel.requested` -/
  | jobCancelRequested
  /-- `job.rerun.submitted` -/
  | jobRerunSubmitted
  /-- `app.release.deployed` -/
  | appReleaseDeployed
  /-- `app.release.rolled_back` -/
  | appReleaseRolledBack
  deriving DecidableEq

structure AuditEvent where
  action : AuditAction
  targetId : Uuid
  deriving DecidableEq

/-- The audit events that the transaction of an operation writes; a cancellation that finds the job
`CANCEL_REQUESTED` writes none. -/
def Operation.auditEvents (db db' : Db) (op : Operation) : List AuditEvent :=
  match op with
  | .submitJob _ _ => [⟨.jobSubmitted, op.operationId db'⟩]
  | .cancelJob id =>
    if (db.jobs.get id).any (fun j => j.state = .cancelRequested) then [] else [⟨.jobCancelRequested, id⟩]
  | .rerunJob _ => [⟨.jobRerunSubmitted, op.operationId db'⟩]
  | .deployRelease _ _ => [⟨.appReleaseDeployed, op.operationId db'⟩]
  | .rollbackRelease _ _ => [⟨.appReleaseRolledBack, op.operationId db'⟩]

/-! ### Records -/

/-- The characters that `str.strip` removes. -/
def isSpace (c : Char) : Bool :=
  (9 ≤ c.toNat && c.toNat ≤ 13) || (28 ≤ c.toNat && c.toNat ≤ 32) ||
    c.toNat ∈ [0x85, 0xA0, 0x1680, 0x2028, 0x2029, 0x202F, 0x205F, 0x3000] ||
    (0x2000 ≤ c.toNat && c.toNat ≤ 0x200A)

def strip (s : String) : String :=
  String.ofList ((s.toList.dropWhile isSpace).reverse.dropWhile isSpace).reverse

def getIdempotencyKey (header : String) : Except ApiError String := do
  ensure (1 ≤ header.length ∧ header.length ≤ 255) (.validation "Idempotency-Key")
  ensure (strip header ≠ "") (.validation "Idempotency-Key")
  pure (strip header)

/-- The columns of `uq_idempotency_workspace_key`. -/
structure RecordKey where
  workspaceId : Uuid
  endpoint : Endpoint
  idempotencyKey : String
  deriving DecidableEq

/-- The `response_body` is determined by the identifier of the operation. -/
structure IdempotencyRecord where
  id : Uuid
  key : RecordKey
  requestHash : String
  operationId : Uuid
  expiresAt : Time
  deriving DecidableEq

/-- 24 hours. -/
def recordLifetime : Time := 24 * 3600 * second

inductive CheckResult
  /-- the stored response is returned -/
  | replay (operationId : Uuid)
  /-- `IDEMPOTENCY_CONFLICT` -/
  | conflict
  /-- the request goes on; an expired record with this identifier was deleted -/
  | proceed (purged : Option Uuid)
  deriving DecidableEq

def checkIdempotency (now : Time) (records : Table IdempotencyRecord.key) (key : RecordKey)
    (payloadHash : String) : CheckResult :=
  match records.get key with
  | none => .proceed none
  | some existing =>
    if existing.expiresAt ≤ now then .proceed (some existing.id)
    else if existing.requestHash = payloadHash then .replay existing.operationId
    else .conflict

/-- What the statements of a transaction leave of the table once it has deleted the row that it found
expired; the row may be gone by then. -/
def purgeRecord (records : Table IdempotencyRecord.key) (key : RecordKey) (purged : Option Uuid) :
    Table IdempotencyRecord.key :=
  if (records.get key).any (fun existing => purged = some existing.id) then records.erase key else records

/-- The second query of `handle_idempotency_race`, which does not look at `expires_at`. -/
def handleIdempotencyRace (records : Table IdempotencyRecord.key) (key : RecordKey) (payloadHash : String) :
    Option Uuid :=
  ((records.get key).filter (fun existing => existing.requestHash = payloadHash)).map
    IdempotencyRecord.operationId

end HamiCloud
