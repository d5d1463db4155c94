import HamiCloud.Library.Table
import HamiCloud.Domain.JobState

/-!
# The relational schema

Rows of the tables that the scheduler, the executors and the API share. Columns that no
modelled statement reads (names, images, arguments, environments, build logs) are left out.
`execution_intents` is kept as its two partitions by `resource_type`: the check constraint
`ck_execution_intents_typed_resource` says exactly that a row belongs to one of them, so the
reference `resourceId` is a `job_attempt_id` in the first and a `release_id` in the second.
-/

namespace HamiCloud

open Library

abbrev Uuid := Nat

/-- Instants and durations in nanoseconds, as in Go's `time` package. -/
abbrev Time := Nat

def second : Time := 1000000000

structure Job where
  id : Uuid
  workspaceId : Uuid
  timeoutSeconds : Nat
  maxRetries : Nat
  currentAttemptNumber : Nat
  state : JobState
  createdAt : Time
  updatedAt : Time
  deriving DecidableEq

structure JobAttempt where
  id : Uuid
  jobId : Uuid
  workspaceId : Uuid
  attemptNumber : Nat
  state : JobState
  leaseEpoch : Nat
  exitCode : Option Int
  failureReason : Option String
  startedAt : Option Time
  finishedAt : Option Time
  createdAt : Time
  updatedAt : Time
  deriving DecidableEq

inductive IntentStatus
  | pending
  | claimed
  | applied
  | terminated
  deriving DecidableEq

/-- A deterministic resource name: `hc-svc-{application}-{generation}` or
`hc-job-{job}-{attempt}`. -/
inductive ResourceName
  | svc (applicationId : Uuid) (generation : Nat)
  | job (jobId : Uuid) (attemptNumber : Nat)
  deriving DecidableEq

def ResourceName.text (uuidText : Uuid → String) : ResourceName → String
  | svc applicationId generation => "hc-svc-" ++ uuidText applicationId ++ "-" ++ toString generation
  | job jobId attemptNumber => "hc-job-" ++ uuidText jobId ++ "-" ++ toString attemptNumber

structure ExecutionIntent where
  id : Uuid
  workspaceId : Uuid
  resourceId : Uuid
  targetGeneration : Nat
  deterministicResourceName : ResourceName
  status : IntentStatus
  claimedBy : Option String
  leaseEpoch : Nat
  leaseExpiresAt : Option Time
  resourceUid : Option String
  createdAt : Time
  updatedAt : Time
  deriving DecidableEq

structure Repository where
  id : Uuid
  workspaceId : Uuid
  deriving DecidableEq

structure Application where
  id : Uuid
  workspaceId : Uuid
  slug : String
  desiredGeneration : Nat
  currentReleaseId : Option Uuid
  repositoryId : Option Uuid
  gitBranch : Option String
  updatedAt : Time
  deriving DecidableEq

inductive ReleaseStatus
  | requested
  | building
  | imageReady
  | deploying
  | healthy
  | buildFailed
  | deployFailed
  | superseded
  deriving DecidableEq

structure ReleaseConfig where
  port : Nat
  healthPath : String
  deriving DecidableEq

structure Release where
  id : Uuid
  applicationId : Uuid
  workspaceId : Uuid
  releaseNumber : Nat
  imageDigest : String
  config : ReleaseConfig
  status : ReleaseStatus
  statusReason : Option String
  repositoryId : Option Uuid
  commitSha : Option String
  gitRef : Option String
  createdAt : Time
  updatedAt : Time
  deriving DecidableEq

/-- `image_digest != 'pending'`. -/
def Release.deployable (r : Release) : Bool := r.imageDigest != "pending"

inductive QuotaResourceClass
  | concurrentJob
  | concurrentBuild
  | deployedService
  deriving DecidableEq

inductive QuotaStatus
  | active
  | released
  | expired
  deriving DecidableEq

structure QuotaReservation where
  id : Uuid
  workspaceId : Uuid
  resourceClass : QuotaResourceClass
  units : Nat
  status : QuotaStatus
  expiresAt : Time
  createdAt : Time
  updatedAt : Time
  deriving DecidableEq

structure DeadLetterRecord where
  jobId : Uuid
  workspaceId : Uuid
  lastAttempt : Nat
  exitCode : Option Int
  failureReason : Option String
  createdAt : Time
  deriving DecidableEq

/-- Payload of an outbox event; the constructor is its topic. -/
inductive OutboxPayload
  | jobSubmitted (jobId : Uuid) (timeoutSeconds maxRetries : Nat) (parentJobId : Option Uuid)
  | jobCancellationRequested (jobId : Uuid)
  | jobAttemptSucceeded (jobId attemptId : Uuid) (attemptNumber : Nat) (exitCode : Int)
  | jobAttemptFailed (jobId attemptId : Uuid) (attemptNumber : Nat) (exitCode : Int)
      (failureReason : String) (isRetryable : Bool)
  | appDeploymentRequested (applicationId releaseId : Uuid) (generation : Nat) (imageDigest : String)
      (config : ReleaseConfig) (targetReleaseId : Option Uuid)
  | appBuildRequested (releaseId applicationId : Uuid) (repositoryId : Uuid)
      (commitSha : Option String) (gitRef : String)
  | appBuildCompleted (applicationId releaseId : Uuid) (imageDigest : String)
      (commitSha : Option String) (status : ReleaseStatus)
  deriving DecidableEq

structure OutboxEvent where
  workspaceId : Uuid
  payload : OutboxPayload
  createdAt : Time
  deriving DecidableEq

/-- The database: one clock shared with all its clients, a supply of fresh identifiers, and
the tables. -/
structure Db where
  now : Time
  nextUuid : Uuid
  jobs : Table Job.id
  attempts : Table JobAttempt.id
  jobIntents : Table ExecutionIntent.id
  repositories : Table Repository.id
  apps : Table Application.id
  releases : Table Release.id
  releaseIntents : Table ExecutionIntent.id
  reservations : Table QuotaReservation.id
  deadLetters : Table DeadLetterRecord.jobId
  /-- the events of all committed transactions in their order: what the dispatcher does with the rows, and their purge,
  is in `Api/Outbox` -/
  outbox : List OutboxEvent

def Db.empty : Db where
  now := 0
  nextUuid := 0
  jobs := .empty
  attempts := .empty
  jobIntents := .empty
  repositories := .empty
  apps := .empty
  releases := .empty
  releaseIntents := .empty
  reservations := .empty
  deadLetters := .empty
  outbox := []

/-- The database after its clock has advanced. -/
def Db.tick (db : Db) (d : Time) : Db := { db with now := db.now + d }

/-- `ORDER BY column ASC`. -/
def orderBy {α : Type} (column : α → Nat) (rows : List α) : List α :=
  rows.insertionSort (fun a b => column a ≤ column b)

inductive StoreError
  | leaseEpochNotPositive (epoch : Nat)
  | fencing (intentId : Uuid) (epoch : Nat)
  | retryBudgetExhausted (attempt maxRetries : Nat)
  | attemptNotTransitioned (attemptId : Uuid)
  | jobNotTransitioned (jobId : Uuid) (target : JobState)
  | intentNotTerminated (intentId : Uuid)
  | releaseNotBuilding (releaseId : Uuid)
  | valueTooLong (length limit : Nat)
  | noRows
  | uniqueViolation
  deriving DecidableEq

/-- A statement of a transaction whose failure aborts it; the database is then left as it was. -/
def ensure {ε : Type} (c : Prop) [Decidable c] (e : ε) : Except ε Unit :=
  if c then .ok () else .error e

/-- A statement that must affect a row. -/
def orError {ε α : Type} (o : Option α) (e : ε) : Except ε α :=
  match o with
  | some a => .ok a
  | none => .error e

section Transactions

variable {ε α β : Type}

@[simp] lemma bind_eq_ok {x : Except ε α} {f : α → Except ε β} {b : β} :
    x >>= f = .ok b ↔ ∃ a, x = .ok a ∧ f a = .ok b := by
  cases x <;> simp [bind, Except.bind]

@[simp] lemma ensure_eq_ok {c : Prop} [Decidable c] {e : ε} {u : Unit} :
    ensure c e = .ok u ↔ c := by
  unfold ensure
  by_cases h : c <;> simp [h]

@[simp] lemma orError_eq_ok {o : Option α} {e : ε} {a : α} : orError o e = .ok a ↔ o = some a := by
  cases o <;> simp [orError]

lemma bind_eq_error {x : Except ε α} {f : α → Except ε β} {e : ε} :
    x >>= f = .error e ↔ x = .error e ∨ ∃ a, x = .ok a ∧ f a = .error e := by
  cases x with
  | error e' => simp [bind, Except.bind]
  | ok a => simp [bind, Except.bind]

lemma ensure_eq_error {c : Prop} [Decidable c] {e e' : ε} : ensure c e = .error e' ↔ ¬c ∧ e = e' := by
  unfold ensure
  split <;> simp_all

lemma orError_eq_error {o : Option α} {e e' : ε} : orError o e = .error e' ↔ o = none ∧ e = e' := by
  cases o <;> simp [orError]

@[simp] lemma pure_eq_ok {a b : α} : (pure a : Except ε α) = .ok b ↔ a = b := by
  simp [pure, Except.pure]

end Transactions

lemma mem_orderBy {α : Type} {column : α → Nat} {rows : List α} {r : α} :
    r ∈ orderBy column rows ↔ r ∈ rows :=
  List.mem_insertionSort _

end HamiCloud
