import HamiCloud.Library.Transition
import HamiCloud.Store.Releases
import HamiCloud.Api.Jobs
import HamiCloud.Api.Apps

/-!
# The system

Any number of API handlers, scheduler passes and executors over one database. Every transaction
is one step. What a scan or a claim has returned stays available to the process that
received it, however old it is: the world keeps all such rows, and a later step may act on any of them.
Crashes need no step of their own, since nobody is obliged to act.
-/

namespace HamiCloud

open Library

/-- Rows of the job side held by scheduler passes and executors. -/
structure JobClients where
  /-- rows returned by `ScanUnadmittedJobs` -/
  unadmitted : List UnadmittedJob
  /-- rows returned by the scan of `RequeueRetryWaitJobs`, with the time of the scan -/
  retries : List (Time × RetryJob)
  /-- rows returned by `FindExpiredJobIntents` -/
  expired : List ExpiredJobRecoveryInfo
  /-- the rows among them that are past step 1 of `RecoverExpiredJobIntents` -/
  begun : List ExpiredJobRecoveryInfo
  /-- workloads returned by `ClaimNextJobAttempt` -/
  claims : List ClaimedJobWorkload

/-- A promotion: `MarkReleaseHealthy` returned `becameCurrent = true`. -/
structure Promotion where
  applicationId : Uuid
  releaseId : Uuid
  generation : Nat
  desiredGeneration : Nat
  deriving DecidableEq

/-- Rows of the service side held by scheduler passes, executors and webhook handlers, and the
history of promotions. -/
structure ServiceClients where
  unadmitted : List UnadmittedRelease
  claims : List ClaimedWorkload
  builds : List ClaimedBuildTask
  webhooks : List WebhookPlan
  promotions : List Promotion

structure World where
  db : Db
  jobs : JobClients
  services : ServiceClients

def World.init : World where
  db := .empty
  jobs := ⟨[], [], [], [], []⟩
  services := ⟨[], [], [], [], []⟩

inductive JobAction
  | submitJob (workspaceId : Uuid) (payload : SubmitJobRequest)
  | cancelJob (jobId : Uuid)
  | rerunJob (jobId : Uuid)
  | findExpiredJobIntents
  | beginJobRecovery (item : ExpiredJobRecoveryInfo)
  | confirmJobRecovery (item : ExpiredJobRecoveryInfo) (deleteConfirmed : Bool)
  | scanRetryWaitJobs (limit : Nat)
  | requeueRetryWaitJob (scannedAt : Time) (row : RetryJob) (now : Time)
  | scanUnadmittedJobs (limit : Nat)
  | createJobAttemptIntent (job : UnadmittedJob)
  | claimNextJobAttempt (workerId : String) (leaseDuration : Time) (workspaceIds locked : List Uuid)
  | renewLease (workload : ClaimedJobWorkload) (extension : Time)
  | markJobAttemptRunning (workload : ClaimedJobWorkload)
  | markJobAttemptSucceeded (workload : ClaimedJobWorkload) (resourceUid : String)
  | markJobAttemptFailed (workload : ClaimedJobWorkload) (reason : String) (exitCode : Int)
  | markJobAttemptCancelled (workload : ClaimedJobWorkload)

inductive ServiceAction
  | createRepository (workspaceId : Uuid)
  | createApplication (workspaceId : Uuid) (payload : CreateApplicationRequest)
  | updateApplication (appId : Uuid) (payload : UpdateApplicationRequest)
  | deployRelease (appId : Uuid) (payload : DeployReleaseRequest)
  | rollbackRelease (appId targetReleaseId : Uuid)
  | triggerBuild (appId : Uuid) (payload : TriggerBuildRequest)
  | readWebhook (repositoryId : Uuid) (commitSha branch : String)
  | commitWebhook (plan : WebhookPlan)
  | supersedeReleases
  | selectUnadmittedReleases (limit : Nat)
  | createServiceReleaseIntent (rel : UnadmittedRelease)
  | claimNextServiceRelease (workerId : String) (leaseDuration : Time) (workspaceIds locked : List Uuid)
  | renewLease (workload : ClaimedWorkload) (extension : Time)
  | markReleaseHealthy (workload : ClaimedWorkload) (resourceUid : String)
  | markReleaseFailed (workload : ClaimedWorkload) (reason : String)
  | claimNextBuildRelease (workspaceIds locked : List Uuid)
  | markBuildSucceeded (task : ClaimedBuildTask) (imageDigest : String)
  | markBuildFailed (task : ClaimedBuildTask) (reason : String)

inductive Action
  | tick (d : Time)
  | job (a : JobAction)
  | service (a : ServiceAction)

/-- `baseBackoff` of the call in `Scheduler.RunOnce`. -/
def schedulerBackoff : Time := 5 * second

/-- The result of a transaction that leaves the database as it was, or changes it. -/
def committed {ε : Type} (r : Except ε Db) : Option Db := r.toOption

/-- The transaction of a job action and what its client learns; `none` when the transaction
fails, returns nothing, or uses a row its client was never given. -/
def jobStep (cfg : Settings) (db : Db) (c : JobClients) : JobAction → Option (Db × JobClients)
  | .submitJob ws payload => (committed (submitJob cfg db ws payload)).map (·, c)
  | .cancelJob id => (committed (cancelJob db id)).map (·, c)
  | .rerunJob id => (committed (rerunJob cfg db id)).map (·, c)
  | .findExpiredJobIntents =>
    let items := findExpiredJobIntents db
    some (db, { c with expired := c.expired ++ items, begun := c.begun ++ items.filter (!·.needsBegin) })
  | .beginJobRecovery item =>
    if item ∈ c.expired ∧ item.needsBegin then
      (committed (beginJobRecovery db item)).map (·, { c with begun := c.begun ++ [item] })
    else none
  | .confirmJobRecovery item deleteConfirmed =>
    if item ∈ c.begun then
      match recoveryShouldRetry db.now item deleteConfirmed with
      | some shouldRetry =>
        (committed (confirmJobRecovery db item.jobId shouldRetry item.isCancel)).map (·, c)
      | none => none
    else none
  | .scanRetryWaitJobs limit =>
    some (db, { c with retries := c.retries ++ (scanRetryWaitJobs db limit).map (db.now, ·) })
  | .requeueRetryWaitJob scannedAt row now =>
    if (scannedAt, row) ∈ c.retries ∧ scannedAt ≤ now ∧ now ≤ db.now then
      (requeueRetryWaitJob db schedulerBackoff now row).map (·, c)
    else none
  | .scanUnadmittedJobs limit =>
    some (db, { c with unadmitted := c.unadmitted ++ scanUnadmittedJobs db cfg.maxConcurrentJobsPerWS limit })
  | .createJobAttemptIntent job =>
    if job ∈ c.unadmitted then
      match createJobAttemptIntent db job with
      | .ok (some (_, db')) => some (db', c)
      | _ => none
    else none
  | .claimNextJobAttempt workerId lease wss locked =>
    (claimNextJobAttempt db workerId lease wss locked).map
      fun (workload, db') => (db', { c with claims := c.claims ++ [workload] })
  | .renewLease wl extension =>
    if wl ∈ c.claims then
      (renewLease db.jobIntents db.now wl.intentId wl.leaseEpoch extension).toOption.map
        fun intents => ({ db with jobIntents := intents }, c)
    else none
  | .markJobAttemptRunning wl =>
    if wl ∈ c.claims then
      (committed (markJobAttemptRunning db wl.intentId wl.jobAttemptId wl.jobId wl.leaseEpoch)).map (·, c)
    else none
  | .markJobAttemptSucceeded wl uid =>
    if wl ∈ c.claims then
      (committed (markJobAttemptSucceeded db wl.intentId wl.jobAttemptId wl.jobId uid
        wl.leaseEpoch)).map (·, c)
    else none
  | .markJobAttemptFailed wl reason exitCode =>
    -- `ReconcileJob` retries while the attempt number does not exceed `max_retries`
    if wl ∈ c.claims then
      (committed (markJobAttemptFailed db wl.intentId wl.jobAttemptId wl.jobId reason exitCode
        wl.leaseEpoch (wl.attemptNumber ≤ wl.maxRetries))).map (·, c)
    else none
  | .markJobAttemptCancelled wl =>
    if wl ∈ c.claims then
      (committed (markJobAttemptCancelled db wl.intentId wl.jobAttemptId wl.jobId wl.leaseEpoch)).map (·, c)
    else none

/-- The promotion that a committed `MarkReleaseHealthy` records. -/
def promotionOf (db : Db) (wl : ClaimedWorkload) : List Promotion :=
  match db.apps.get wl.applicationId, db.releaseIntents.get wl.intentId with
  | some a, some i => [⟨wl.applicationId, wl.releaseId, i.targetGeneration, a.desiredGeneration⟩]
  | _, _ => []

def serviceStep (cfg : Settings) (db : Db) (c : ServiceClients) : ServiceAction → Option (Db × ServiceClients)
  | .createRepository ws => (committed (createRepository db ws)).map (·, c)
  | .createApplication ws payload => (committed (createApplication db ws payload)).map (·, c)
  | .updateApplication app payload => (committed (updateApplication db app payload)).map (·, c)
  | .deployRelease app payload => (committed (deployRelease cfg db app payload)).map (·, c)
  | .rollbackRelease app target => (committed (rollbackRelease cfg db app target)).map (·, c)
  | .triggerBuild app payload => (committed (triggerBuild cfg db app payload)).map (·, c)
  | .readWebhook repo sha branch =>
    (readWebhook db repo sha branch).toOption.map
      fun plan => (db, { c with webhooks := c.webhooks ++ [plan] })
  | .commitWebhook plan =>
    if plan ∈ c.webhooks then (committed (commitWebhook db plan)).map (·, c) else none
  | .supersedeReleases => some (supersedeReleases db, c)
  | .selectUnadmittedReleases limit =>
    some (db, { c with unadmitted := c.unadmitted ++ selectUnadmittedReleases db limit })
  | .createServiceReleaseIntent rel =>
    if rel ∈ c.unadmitted then
      match createServiceReleaseIntent db rel with
      | .ok (some (_, db')) => some (db', c)
      | _ => none
    else none
  | .claimNextServiceRelease workerId lease wss locked =>
    (claimNextServiceRelease db workerId lease wss locked).map
      fun (workload, db') => (db', { c with claims := c.claims ++ [workload] })
  | .renewLease wl extension =>
    if wl ∈ c.claims then
      (renewLease db.releaseIntents db.now wl.intentId wl.leaseEpoch extension).toOption.map
        fun intents => ({ db with releaseIntents := intents }, c)
    else none
  | .markReleaseHealthy wl uid =>
    if wl ∈ c.claims then
      (markReleaseHealthy db wl.intentId wl.releaseId wl.applicationId uid wl.leaseEpoch).toOption.map
        fun (becameCurrent, db') =>
          (db', { c with promotions := c.promotions ++ if becameCurrent then promotionOf db wl else [] })
    else none
  | .markReleaseFailed wl reason =>
    if wl ∈ c.claims then
      (committed (markReleaseFailed db wl.intentId wl.releaseId reason wl.leaseEpoch)).map (·, c)
    else none
  | .claimNextBuildRelease wss locked =>
    (claimNextBuildRelease db wss locked).map
      fun (task, db') => (db', { c with builds := c.builds ++ [task] })
  | .markBuildSucceeded task digest =>
    if task ∈ c.builds then (committed (markBuildSucceeded db task.releaseId digest)).map (·, c) else none
  | .markBuildFailed task reason =>
    if task ∈ c.builds then (committed (markBuildFailed db task.releaseId reason)).map (·, c) else none

def World.step (cfg : Settings) (w : World) : Action → Option World
  | .tick d => some { w with db := w.db.tick d }
  | .job a => (jobStep cfg w.db w.jobs a).map fun (db, c) => { w with db := db, jobs := c }
  | .service a => (serviceStep cfg w.db w.services a).map fun (db, c) => { w with db := db, services := c }

def system (cfg : Settings) : System World Action := ⟨World.init, World.step cfg⟩

end HamiCloud
