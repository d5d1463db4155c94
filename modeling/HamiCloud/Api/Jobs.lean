import HamiCloud.Api.Quotas

/-!
# Job requests

`submit_job`, `cancel_job` and `rerun_job` of `app/api/v1/jobs.py`.
-/

namespace HamiCloud

open Library JobState

structure SubmitJobRequest where
  imageDigest : String
  timeoutSeconds : Nat
  maxRetries : Nat
  deriving DecidableEq

/-- The field constraints of `SubmitJobRequest`. -/
def SubmitJobRequest.validate (payload : SubmitJobRequest) : Except ApiError Unit := do
  ensure (5 ≤ payload.imageDigest.length) (.validation "image_digest")
  ensure (10 ≤ payload.timeoutSeconds ∧ payload.timeoutSeconds ≤ 3600) (.validation "timeout_seconds")
  ensure (payload.maxRetries ≤ 5) (.validation "max_retries")

/-- The insertion of a queued job and of its `job.submitted` event. -/
def insertJob (db : Db) (workspaceId : Uuid) (timeoutSeconds maxRetries : Nat) (parent : Option Uuid) :
    Except ApiError Db := do
  let jobs ← orError (db.jobs.insert
    { id := db.nextUuid, workspaceId := workspaceId, timeoutSeconds := timeoutSeconds,
      maxRetries := maxRetries, currentAttemptNumber := 0, state := .queued,
      createdAt := db.now, updatedAt := db.now }) .integrity
  pure (insertOutbox { db with jobs := jobs, nextUuid := db.nextUuid + 1 } workspaceId
    (.jobSubmitted db.nextUuid timeoutSeconds maxRetries parent))

def submitJob (cfg : Settings) (db : Db) (workspaceId : Uuid) (payload : SubmitJobRequest) :
    Except ApiError Db := do
  payload.validate
  validateImagePolicy cfg payload.imageDigest
  let db₁ ← enforceWorkspaceQuota cfg db workspaceId .concurrentJob none false
  insertJob db₁ workspaceId payload.timeoutSeconds payload.maxRetries none

def cancelJob (db : Db) (jobId : Uuid) : Except ApiError Db := do
  let job ← orError (db.jobs.get jobId) (.notFound "Job not found")
  if job.state = .cancelRequested then pure db
  else
    match validateJobTransition job.state .cancelRequested with
    | .error e => .error (.cannotCancel e)
    | .ok () =>
      let jobs := db.jobs.set jobId (fun j => { j with state := .cancelRequested, updatedAt := db.now })
      pure (insertOutbox { db with jobs := jobs } job.workspaceId (.jobCancellationRequested jobId))

def rerunJob (cfg : Settings) (db : Db) (jobId : Uuid) : Except ApiError Db := do
  let job ← orError (db.jobs.get jobId) (.notFound "Job not found")
  ensure (job.state.isTerminal = true) (.cannotRerun job.state)
  let db₁ ← enforceWorkspaceQuota cfg db job.workspaceId .concurrentJob none false
  insertJob db₁ job.workspaceId job.timeoutSeconds job.maxRetries (some jobId)

end HamiCloud
