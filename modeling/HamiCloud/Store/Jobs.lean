import HamiCloud.Store.Schema

/-!
# Job transactions of the runtime store

The functions of `runtime/internal/store/postgres.go` that act on jobs, their attempts and
their execution intents. Each definition is one transaction: a result `.ok` is a commit, an
error is a rollback, and `none` inside `.ok` is the early `return nil, nil`, which rolls back too.
-/

namespace HamiCloud

open Library JobState

/-! ### Statements shared by several transactions -/

/-- `lease_expires_at < now`; a null lease compares as false. -/
def ExecutionIntent.leaseExpired (i : ExecutionIntent) (now : Time) : Bool :=
  match i.leaseExpiresAt with
  | some t => t < now
  | none => false

/-- The fence `lease_epoch = e AND status = 'CLAIMED'`. -/
def ExecutionIntent.fenced (epoch : Nat) (i : ExecutionIntent) : Bool :=
  i.leaseEpoch = epoch && i.status = .claimed

/-- `INSERT INTO dead_letter_records … ON CONFLICT (job_id) DO UPDATE`. -/
def upsertDeadLetter (t : Table DeadLetterRecord.jobId) (r : DeadLetterRecord) :
    Table DeadLetterRecord.jobId :=
  match t.insert r with
  | some t' => t'
  | none => t.set r.jobId (fun old =>
      { old with lastAttempt := r.lastAttempt, exitCode := r.exitCode,
                 failureReason := r.failureReason, createdAt := r.createdAt })

/-- `dead_letter_records` after the trigger `fn_jobs_insert_dead_letter` for a row that has become
`FAILED`. -/
def jobsInsertDeadLetter (db : Db) (job : Job) : Table DeadLetterRecord.jobId :=
  match db.attempts.rows.find?
      (fun a => a.jobId = job.id && a.attemptNumber = job.currentAttemptNumber) with
  | some a => upsertDeadLetter db.deadLetters
      ⟨job.id, job.workspaceId, job.currentAttemptNumber, a.exitCode, a.failureReason, db.now⟩
  | none => (db.deadLetters.insert ⟨job.id, job.workspaceId, job.currentAttemptNumber, none,
      some "Job reached FAILED state", db.now⟩).getD db.deadLetters

/-- `UPDATE jobs SET … WHERE id = … AND state IN (…) RETURNING *`, with the trigger on `state`. -/
def updateJob (db : Db) (jobId : Uuid) (sources : List JobState) (f : Job → Job)
    (hf : ∀ j, (f j).id = j.id := by intro _; rfl) : Option (Job × Db) :=
  match db.jobs.modify jobId (fun j => j.state ∈ sources) f hf with
  | none => none
  | some (old, jobs) =>
    let fires := (f old).state = .failed ∧ old.state ≠ .failed
    some (f old, { db with
      jobs := jobs
      deadLetters := if fires then jobsInsertDeadLetter db (f old) else db.deadLetters })

/-- `UPDATE quota_reservations SET status = 'EXPIRED'` for the stale rows of a workspace. -/
def expireStaleReservations (db : Db) (workspaceId : Uuid) : Db :=
  let stale := fun r : QuotaReservation =>
    r.workspaceId = workspaceId && r.status = .active && r.expiresAt ≤ db.now
  { db with
    reservations := db.reservations.update stale (fun r => { r with status := .expired, updatedAt := db.now }) }

/-- `INSERT INTO quota_reservations` of one `ACTIVE` unit. -/
def insertReservation (db : Db) (workspaceId : Uuid) (cls : QuotaResourceClass) (ttlSeconds : Nat) :
    Option Db :=
  (db.reservations.insert ⟨db.nextUuid, workspaceId, cls, 1, .active, db.now + ttlSeconds * second,
    db.now, db.now⟩).map fun reservations =>
      { db with reservations := reservations, nextUuid := db.nextUuid + 1 }

/-- Releases the oldest `ACTIVE` reservation of a workspace and class, if there is one. -/
def releaseReservation (db : Db) (workspaceId : Uuid) (cls : QuotaResourceClass) : Db :=
  let active := db.reservations.rows.filter fun r =>
    r.workspaceId = workspaceId && r.resourceClass = cls && r.status = .active
  { db with
    reservations := match (orderBy QuotaReservation.createdAt active).head? with
      | none => db.reservations
      | some oldest => db.reservations.set oldest.id
          (fun r => { r with status := .released, updatedAt := db.now }) }

def insertOutbox (db : Db) (workspaceId : Uuid) (payload : OutboxPayload) : Db :=
  { db with outbox := db.outbox ++ [⟨workspaceId, payload, db.now⟩] }

/-! ### Admission -/

structure UnadmittedJob where
  jobId : Uuid
  workspaceId : Uuid
  timeoutSeconds : Nat
  maxRetries : Nat
  currentAttemptNumber : Nat
  state : JobState
  deriving DecidableEq

def activeJobStates : List JobState :=
  [admitted, starting, running, cancelRequested, recoveryPending]

/-- `ws_active`: the number of active jobs of a workspace. -/
def activeJobs (db : Db) (workspaceId : Uuid) : Nat :=
  db.jobs.rows.countP (fun j => j.workspaceId = workspaceId && j.state ∈ activeJobStates)

/-- `ranked_queued`: each queued job with its `ROW_NUMBER()` in its workspace by `created_at`. -/
def rankedQueued (db : Db) : List (Nat × Job) :=
  let queued := orderBy Job.createdAt (db.jobs.rows.filter (fun j => j.state = queued))
  queued.zipIdx.map (fun (j, i) => ((queued.take i).countP (fun k => k.workspaceId = j.workspaceId) + 1, j))

def scanUnadmittedJobs (db : Db) (maxConcurrentJobsPerWS limit : Nat) : List UnadmittedJob :=
  let maxPerWS := if maxConcurrentJobsPerWS ≤ 0 then 2 else maxConcurrentJobsPerWS
  let ranked := (rankedQueued db).filter (fun (rank, j) => activeJobs db j.workspaceId + rank ≤ maxPerWS)
  let ordered := ranked.insertionSort
    (fun a b => a.1 < b.1 ∨ (a.1 = b.1 ∧ a.2.createdAt ≤ b.2.createdAt))
  (ordered.take limit).map fun (_, j) =>
    ⟨j.id, j.workspaceId, j.timeoutSeconds, j.maxRetries, j.currentAttemptNumber, j.state⟩

def createJobAttemptIntent (db : Db) (job : UnadmittedJob) :
    Except StoreError (Option (ExecutionIntent × Db)) := do
  let nextAttemptNumber := job.currentAttemptNumber + 1
  ensure (nextAttemptNumber ≤ job.maxRetries + 1) (.retryBudgetExhausted nextAttemptNumber job.maxRetries)
  if db.attempts.rows.any (fun a => a.jobId = job.jobId && a.attemptNumber = nextAttemptNumber) then
    pure none
  else
    let attempts ← orError (db.attempts.insert
      { id := db.nextUuid, jobId := job.jobId, workspaceId := job.workspaceId,
        attemptNumber := nextAttemptNumber, state := .admitted, leaseEpoch := 0, exitCode := none,
        failureReason := none, startedAt := none, finishedAt := none,
        createdAt := db.now, updatedAt := db.now }) .uniqueViolation
    match updateJob { db with attempts := attempts } job.jobId (legalSources [.admitted])
        (fun j => { j with state := .admitted, currentAttemptNumber := nextAttemptNumber,
                           updatedAt := db.now }) with
    | none => pure none
    | some (_, db₁) =>
      let intent : ExecutionIntent :=
        { id := db.nextUuid + 1, workspaceId := job.workspaceId, resourceId := db.nextUuid,
          targetGeneration := nextAttemptNumber,
          deterministicResourceName := .job job.jobId nextAttemptNumber, status := .pending,
          claimedBy := none, leaseEpoch := 0, leaseExpiresAt := none, resourceUid := none,
          createdAt := db.now, updatedAt := db.now }
      if db₁.jobIntents.rows.any (fun i => i.resourceId = intent.resourceId &&
          i.targetGeneration = intent.targetGeneration) then
        pure none
      else
        let jobIntents ← orError (db₁.jobIntents.insert intent) .uniqueViolation
        let ttlSec := if job.timeoutSeconds ≤ 0 then 600 else job.timeoutSeconds
        let db₂ := expireStaleReservations
          { db₁ with jobIntents := jobIntents, nextUuid := db.nextUuid + 2 } job.workspaceId
        let db₃ ← orError (insertReservation db₂ job.workspaceId .concurrentJob ttlSec) .uniqueViolation
        pure (some (intent, db₃))

/-! ### Retry and recovery -/

structure RetryJob where
  id : Uuid
  attemptNumber : Nat
  updatedAt : Time
  deriving DecidableEq

/-- The scan of `RequeueRetryWaitJobs`. -/
def scanRetryWaitJobs (db : Db) (limit : Nat) : List RetryJob :=
  ((orderBy Job.updatedAt (db.jobs.rows.filter (fun j => j.state = .retryWait))).take limit).map
    fun j => ⟨j.id, j.currentAttemptNumber, j.updatedAt⟩

def retryBackoff (baseBackoff : Time) (attemptNumber : Nat) : Time :=
  let shift := min (attemptNumber - 1) 5
  min (baseBackoff * 2 ^ shift) (60 * second)

/-- The backoff in the arithmetic of the code, where a duration and an `int` have 64 bits. -/
def retryBackoff64 (baseBackoff attemptNumber : Int64) : Int64 :=
  let shift := attemptNumber - 1
  let shift := if shift < 0 then 0 else shift
  let shift := if 5 < shift then 5 else shift
  let backoff := baseBackoff * (1 <<< shift)
  if 60000000000 < backoff then 60000000000 else backoff

/-- One iteration of `RequeueRetryWaitJobs`; `now` is read once, after the scan. -/
def requeueRetryWaitJob (db : Db) (baseBackoff : Time) (now : Time) (r : RetryJob) : Option Db :=
  if r.updatedAt + retryBackoff baseBackoff r.attemptNumber ≤ now then
    (updateJob db r.id (legalSources [.queued])
      (fun j => { j with state := .queued, updatedAt := now })).map Prod.snd
  else none

structure ExpiredJobRecoveryInfo where
  intentId : Uuid
  attemptId : Uuid
  jobId : Uuid
  attemptNumber : Nat
  maxRetries : Nat
  leaseEpoch : Nat
  jobState : JobState
  deterministicResourceName : ResourceName
  needsBegin : Bool
  jobUpdatedAt : Time
  deriving DecidableEq

/-- The `WHERE` clause of `FindExpiredJobIntents` on a joined row. -/
def needsRecovery (now : Time) (ei : ExecutionIntent) (ja : JobAttempt) (j : Job) : Bool :=
  ja.attemptNumber = j.currentAttemptNumber &&
    ((ei.status = .claimed && ei.leaseExpired now && j.state ∈ [starting, running, cancelRequested]) ||
      j.state = .recoveryPending ||
      (j.state ∈ [starting, running, cancelRequested] && ei.status = .terminated))

def findExpiredJobIntents (db : Db) : List ExpiredJobRecoveryInfo :=
  (orderBy ExecutionIntent.createdAt db.jobIntents.rows).filterMap fun ei =>
    match db.attempts.get ei.resourceId with
    | none => none
    | some ja =>
      match db.jobs.get ja.jobId with
      | none => none
      | some j =>
        if needsRecovery db.now ei ja j then
          some
            { intentId := ei.id, attemptId := ja.id, jobId := j.id, attemptNumber := ja.attemptNumber,
              maxRetries := j.maxRetries, leaseEpoch := ei.leaseEpoch, jobState := j.state,
              deterministicResourceName := ei.deterministicResourceName,
              needsBegin := ei.status = .claimed && ei.leaseExpired db.now,
              jobUpdatedAt := j.updatedAt }
        else none

/-- Step 1 of `BeginJobRecovery`: only a job scanned as `RUNNING` moves to `RECOVERY_PENDING`. -/
def beginRecoveryJob (db : Db) (item : ExpiredJobRecoveryInfo) : Except StoreError Db :=
  if item.jobState = .running then
    match updateJob db item.jobId (legalSources [.recoveryPending])
        (fun j => { j with state := .recoveryPending, updatedAt := db.now }) with
    | some (_, db₁) => .ok db₁
    | none => .error (.jobNotTransitioned item.jobId .recoveryPending)
  else .ok db

/-- Step 2 of `BeginJobRecovery` on the attempt row. -/
def finalizeExpired (item : ExpiredJobRecoveryInfo) (now : Time) (a : JobAttempt) : JobAttempt :=
  let isCancel := item.jobState = .cancelRequested
  { a with
    state := if isCancel then .cancelled else .failed
    failureReason := some (if isCancel then "Job cancellation confirmed during recovery"
      else "Worker lease expired; executor lost")
    exitCode := some (if isCancel then 130 else -1)
    finishedAt := some now
    updatedAt := now }

def beginJobRecovery (db : Db) (item : ExpiredJobRecoveryInfo) : Except StoreError Db := do
  let db₁ ← beginRecoveryJob db item
  let (_, attempts) ← orError (db₁.attempts.modify item.attemptId
    (fun a => a.state ∈ [starting, running]) (finalizeExpired item db.now))
    (.attemptNotTransitioned item.attemptId)
  let (_, jobIntents) ← orError (db₁.jobIntents.modify item.intentId
    (fun i => i.fenced item.leaseEpoch && i.leaseExpired db.now)
    (fun i => { i with status := .terminated, updatedAt := db.now })) (.intentNotTerminated item.intentId)
  pure { db₁ with attempts := attempts, jobIntents := jobIntents }

/-- The state `ConfirmJobRecovery` moves a job to. -/
def recoveryTarget (shouldRetry isCancel : Bool) : JobState :=
  if isCancel then .cancelled else if shouldRetry then .retryWait else .failed

/-- The dead letter that `ConfirmJobRecovery` writes for a job it fails. -/
def recoveryDeadLetter (db : Db) (job : Job) : DeadLetterRecord :=
  let attempt := db.attempts.rows.find?
    (fun a => a.jobId = job.id && a.attemptNumber = job.currentAttemptNumber)
  let reason := match attempt.bind JobAttempt.failureReason with
    | some reason => if reason = "" then "Job reached FAILED state" else reason
    | none => "Job reached FAILED state"
  ⟨job.id, job.workspaceId, job.currentAttemptNumber, attempt.bind JobAttempt.exitCode, some reason, db.now⟩

def confirmJobRecovery (db : Db) (jobId : Uuid) (shouldRetry isCancel : Bool) : Except StoreError Db := do
  let target := recoveryTarget shouldRetry isCancel
  let (job, db₁) ← orError (updateJob db jobId (legalSources [target])
    (fun j => { j with state := target, updatedAt := db.now })) (.jobNotTransitioned jobId target)
  let deadLetters :=
    if target = .failed then upsertDeadLetter db₁.deadLetters (recoveryDeadLetter db₁ job)
    else db₁.deadLetters
  pure (releaseReservation { db₁ with deadLetters := deadLetters } job.workspaceId .concurrentJob)

/-- The retry decision of `RecoverExpiredJobIntents` for one item. -/
def ExpiredJobRecoveryInfo.isCancel (item : ExpiredJobRecoveryInfo) : Bool :=
  item.jobState = .cancelRequested

def recoveryTimeout : Time := 5 * 60 * second

/-- `shouldRetry` of an item, given whether the deletion of its Kubernetes Job was confirmed;
`none` when the item is left for the next pass. -/
def recoveryShouldRetry (now : Time) (item : ExpiredJobRecoveryInfo) (deleteConfirmed : Bool) :
    Option Bool :=
  if deleteConfirmed then some (!item.isCancel && item.attemptNumber ≤ item.maxRetries)
  else if item.jobUpdatedAt + recoveryTimeout ≤ now then some false
  else none

/-! ### Execution -/

structure ClaimedJobWorkload where
  intentId : Uuid
  jobAttemptId : Uuid
  jobId : Uuid
  workspaceId : Uuid
  timeoutSeconds : Nat
  maxRetries : Nat
  attemptNumber : Nat
  deterministicResourceName : ResourceName
  leaseEpoch : Nat
  deriving DecidableEq

/-- `ei.workspace_id = ANY(…)`, without effect when no workspace is named. -/
def workspaceFilter (workspaceIds : List Uuid) (workspaceId : Uuid) : Bool :=
  workspaceIds.isEmpty || workspaceIds.contains workspaceId

/-- The row that `FOR UPDATE SKIP LOCKED LIMIT 1` returns: the oldest pending intent that is not
locked, joined with its attempt and its job. -/
def nextJobIntent (db : Db) (workspaceIds locked : List Uuid) : Option (ExecutionIntent × JobAttempt × Job) :=
  (orderBy ExecutionIntent.createdAt db.jobIntents.rows).findSome? fun ei =>
    if ei.status = .pending ∧ workspaceFilter workspaceIds ei.workspaceId ∧ ei.id ∉ locked then
      match db.attempts.get ei.resourceId with
      | none => none
      | some ja => (db.jobs.get ja.jobId).map (fun j => (ei, ja, j))
    else none

/-- The update of an intent by a claim, the same statement for both resource types. -/
def ExecutionIntent.claim (workerId : String) (leaseDuration now : Time) (i : ExecutionIntent) :
    ExecutionIntent :=
  { i with status := .claimed, claimedBy := some workerId, leaseEpoch := i.leaseEpoch + 1,
           leaseExpiresAt := some (now + leaseDuration), updatedAt := now }

def JobAttempt.claim (newEpoch : Nat) (now : Time) (a : JobAttempt) : JobAttempt :=
  { a with state := .starting, leaseEpoch := newEpoch, startedAt := some (a.startedAt.getD now),
           updatedAt := now }

def Job.claim (now : Time) (j : Job) : Job :=
  { j with state := if j.state = .cancelRequested then .cancelRequested else .starting, updatedAt := now }

def claimNextJobAttempt (db : Db) (workerId : String) (leaseDuration : Time)
    (workspaceIds locked : List Uuid) : Option (ClaimedJobWorkload × Db) :=
  match nextJobIntent db workspaceIds locked with
  | none => none
  | some (ei, ja, j) =>
    let newEpoch := ei.leaseEpoch + 1
    let jobIntents := db.jobIntents.set ei.id (ExecutionIntent.claim workerId leaseDuration db.now)
    let attempts := db.attempts.set ja.id (JobAttempt.claim newEpoch db.now)
    let db₁ := { db with jobIntents := jobIntents, attempts := attempts }
    let db₂ := match updateJob db₁ j.id (legalSources [.starting] ++ [.cancelRequested])
        (Job.claim db.now) with
      | none => db₁
      | some (_, db₂) => db₂
    some ({ intentId := ei.id, jobAttemptId := ja.id, jobId := j.id, workspaceId := ja.workspaceId,
            timeoutSeconds := j.timeoutSeconds, maxRetries := j.maxRetries,
            attemptNumber := ja.attemptNumber,
            deterministicResourceName := ei.deterministicResourceName, leaseEpoch := newEpoch }, db₂)

/-- `UPDATE execution_intents … WHERE id = … AND lease_epoch = … AND status = 'CLAIMED'` on the
job partition, the first statement of every `MarkJobAttempt*` transaction. -/
def fenceJobIntent (db : Db) (intentId : Uuid) (leaseEpoch : Nat)
    (f : ExecutionIntent → ExecutionIntent) (hf : ∀ i, (f i).id = i.id := by intro _; rfl) :
    Except StoreError Db := do
  ensure (0 < leaseEpoch) (.leaseEpochNotPositive leaseEpoch)
  let (_, jobIntents) ← orError (db.jobIntents.modify intentId (ExecutionIntent.fenced leaseEpoch) f hf)
    (.fencing intentId leaseEpoch)
  pure { db with jobIntents := jobIntents }

def markJobAttemptRunning (db : Db) (intentId attemptId jobId : Uuid) (leaseEpoch : Nat) :
    Except StoreError Db := do
  let db₁ ← fenceJobIntent db intentId leaseEpoch (fun i => { i with updatedAt := db.now })
  let (_, attempts) ← orError (db₁.attempts.modify attemptId (fun a => a.state = .starting)
    (fun a => { a with state := .running, updatedAt := db.now })) (.attemptNotTransitioned attemptId)
  let (_, db₂) ← orError (updateJob { db₁ with attempts := attempts } jobId (legalSources [.running])
    (fun j => { j with state := .running, updatedAt := db.now })) (.jobNotTransitioned jobId .running)
  pure db₂

def markJobAttemptSucceeded (db : Db) (intentId attemptId jobId : Uuid) (resourceUid : String)
    (leaseEpoch : Nat) : Except StoreError Db := do
  let db₁ ← fenceJobIntent db intentId leaseEpoch
    (fun i => { i with status := .applied, resourceUid := some resourceUid, updatedAt := db.now })
  let attempts := db₁.attempts.set attemptId (fun a =>
    { a with state := .succeeded, exitCode := some 0, finishedAt := some db.now, updatedAt := db.now })
  let (job, db₂) ← orError (updateJob { db₁ with attempts := attempts } jobId
    (legalSources [.succeeded, .cancelled])
    (fun j => { j with state := if j.state = .cancelRequested then .cancelled else .succeeded,
                       updatedAt := db.now })) (.jobNotTransitioned jobId .succeeded)
  let attempt ← orError (db₂.attempts.get attemptId) .noRows
  let attemptJob ← orError (db₂.jobs.get attempt.jobId) .noRows
  let db₃ := insertOutbox db₂ attemptJob.workspaceId
    (.jobAttemptSucceeded jobId attemptId attempt.attemptNumber 0)
  pure (releaseReservation db₃ job.workspaceId .concurrentJob)

/-- `character varying(limit)`. -/
def ensureVarchar (limit : Nat) (text : String) : Except StoreError Unit :=
  ensure (text.length ≤ limit) (.valueTooLong text.length limit)

def markJobAttemptFailed (db : Db) (intentId attemptId jobId : Uuid) (reason : String) (exitCode : Int)
    (leaseEpoch : Nat) (shouldRetry : Bool) : Except StoreError Db := do
  let db₁ ← fenceJobIntent db intentId leaseEpoch
    (fun i => { i with status := .terminated, updatedAt := db.now })
  ensureVarchar 500 reason
  let attempts := db₁.attempts.set attemptId (fun a =>
    { a with state := .failed, exitCode := some exitCode, failureReason := some reason,
             finishedAt := some db.now, updatedAt := db.now })
  let (job, db₂) ← orError (updateJob { db₁ with attempts := attempts } jobId
    (legalSources [.retryWait, .failed, .cancelled])
    (fun j => { j with
      state := if j.state = .cancelRequested then .cancelled
        else if shouldRetry then .retryWait else .failed
      updatedAt := db.now })) (.jobNotTransitioned jobId .failed)
  let deadLetters :=
    if job.state = .failed then upsertDeadLetter db₂.deadLetters
      ⟨jobId, job.workspaceId, job.currentAttemptNumber, some exitCode, some reason, db.now⟩
    else db₂.deadLetters
  let db₃ := insertOutbox { db₂ with deadLetters := deadLetters } job.workspaceId
    (.jobAttemptFailed jobId attemptId job.currentAttemptNumber exitCode reason shouldRetry)
  pure (releaseReservation db₃ job.workspaceId .concurrentJob)

def markJobAttemptCancelled (db : Db) (intentId attemptId jobId : Uuid) (leaseEpoch : Nat) :
    Except StoreError Db := do
  let db₁ ← fenceJobIntent db intentId leaseEpoch
    (fun i => { i with status := .terminated, updatedAt := db.now })
  let attempts := db₁.attempts.set attemptId (fun a =>
    { a with state := .cancelled, finishedAt := some db.now, updatedAt := db.now })
  let (job, db₂) ← orError (updateJob { db₁ with attempts := attempts } jobId (legalSources [.cancelled])
    (fun j => { j with state := .cancelled, updatedAt := db.now })) (.jobNotTransitioned jobId .cancelled)
  pure (releaseReservation db₂ job.workspaceId .concurrentJob)

end HamiCloud
