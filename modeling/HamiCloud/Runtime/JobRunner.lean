import HamiCloud.Runtime.Scheduler

/-!
# Job reconciliation

`ReconcileJob` of `runtime/internal/reconciler/job_reconciler.go` over `KubeJobTaskRunner.RunJob`, run by any number
of executors beside the rest of the system. Every request to the cluster and every transaction is one step, and the
cluster may answer a request in any way. The context of a reconciliation may be cancelled or time out at any moment;
an executor may crash at any moment. Each worker keeps the requests it has made for its Kubernetes Job.
-/

namespace HamiCloud

open Library

/-- A request for the Kubernetes Job of an attempt; of a creation, whether it was successful. -/
inductive JobRequest
  | create (ok : Bool)
  | delete
  deriving DecidableEq

/-- What `RunJob` returns; the error is its text. -/
structure RunResult where
  exitCode : Int
  failureReason : String
  runErr : Option String
  deriving DecidableEq

/-- Why the context of a reconciliation has ended. -/
inductive StopCause
  | cancelled
  | deadlineExceeded
  deriving DecidableEq

/-- Where a `ReconcileJob` is; each phase stands before one request or transaction. -/
inductive JobPhase
  | checkCancelled
  | markRunning
  | checkNotRunning
  | isolate
  | create
  | deleteExisting
  | recreate
  | poll
  | get
  | deleteFinished (result : RunResult)
  | returned (result : RunResult)
  | checkInterrupted (result : RunResult)
  | markSucceeded
  | markCancelled
  | markFailed (reason : String) (exitCode : Int)
  | done
  | crashed
  deriving DecidableEq

structure JobWorker where
  workload : ClaimedJobWorkload
  stopped : Option StopCause
  phase : JobPhase
  requests : List JobRequest
  deriving DecidableEq

structure JobCloud where
  world : World
  /-- the Kubernetes Jobs that exist -/
  cluster : List ResourceName
  workers : List JobWorker

def JobCloud.init : JobCloud := ⟨World.init, [], []⟩

/-- How the request or the transaction of a phase ends. -/
inductive JobReply
  | ok
  | alreadyExists
  | notFound
  /-- any other error, with its text -/
  | error (text : String)
  /-- the status of a Kubernetes Job that runs, has succeeded, or has failed with these details -/
  | active
  | succeeded
  | failed (exitCode : Int) (reason : String)
  deriving DecidableEq

/-- How identifiers are written. -/
structure JobRunnerConfig where
  uuidText : Uuid → String

def ClaimedJobWorkload.jobName (rc : JobRunnerConfig) (wl : ClaimedJobWorkload) : String :=
  wl.deterministicResourceName.text rc.uuidText

def isJobCancelRequested (db : Db) (jobId : Uuid) : Bool :=
  (db.jobs.get jobId).any fun j => j.state = .cancelRequested

/-- The result of a run whose context has ended. -/
def StopCause.result : StopCause → RunResult
  | deadlineExceeded => ⟨-1, "job execution timed out", some "context deadline exceeded"⟩
  | cancelled => ⟨-1, "job execution cancelled", some "context canceled"⟩

/-- The reason that is recorded for a failed run. -/
def RunResult.reason (r : RunResult) : String :=
  if r.failureReason = "" then
    match r.runErr with
    | some text => text
    | none => "process exited with status " ++ toString r.exitCode
  else r.failureReason

def ClaimedJobWorkload.resourceUid (rc : JobRunnerConfig) (wl : ClaimedJobWorkload) : String :=
  "res-job-" ++ ((rc.uuidText wl.jobId).take 8).toString ++ "-" ++ toString wl.attemptNumber

/-- The part of a step that concerns the cluster: the cluster and the phase after it. -/
def runJob (rc : JobRunnerConfig) (cluster : List ResourceName) (wk : JobWorker) :
    JobPhase → JobReply → Option (List ResourceName × List JobRequest × JobPhase)
  | .isolate, .ok => some (cluster, [], .create)
  | .isolate, .error text =>
    some (cluster, [], .returned ⟨1, "failed to ensure workspace isolation: " ++ text, some text⟩)
  | .create, .ok => some (wk.workload.deterministicResourceName :: cluster, [.create true], .poll)
  | .create, .alreadyExists => some (cluster, [.create false], .deleteExisting)
  | .create, .error text => some (cluster, [.create false], .returned (creationFailed text))
  | .deleteExisting, .ok => some (cluster.erase wk.workload.deterministicResourceName, [.delete], .recreate)
  | .deleteExisting, .notFound => some (cluster, [.delete], .recreate)
  | .deleteExisting, .error _ => some (cluster, [.delete], .recreate)
  | .recreate, .ok => some (wk.workload.deterministicResourceName :: cluster, [.create true], .poll)
  | .recreate, .alreadyExists =>
    some (cluster, [.create false], .returned (creationFailed ("jobs.batch \"" ++ wk.workload.jobName rc ++
      "\" already exists")))
  | .recreate, .error text => some (cluster, [.create false], .returned (creationFailed text))
  -- the ticker fires
  | .poll, .ok => some (cluster, [], .get)
  -- `ctx.Done()`
  | .poll, .error _ => wk.stopped.map fun cause => (cluster, [], .deleteFinished cause.result)
  | .get, .active => some (cluster, [], .poll)
  | .get, .notFound => some (cluster, [], .poll)
  | .get, .error text =>
    some (cluster, [], .returned ⟨1, "failed to get job " ++ wk.workload.jobName rc ++ " status: " ++ text, some text⟩)
  | .get, .succeeded => some (cluster, [], .deleteFinished ⟨0, "", none⟩)
  | .get, .failed exitCode reason => some (cluster, [], .deleteFinished ⟨exitCode, reason, none⟩)
  | .deleteFinished result, .ok =>
    some (cluster.erase wk.workload.deterministicResourceName, [.delete], .returned result)
  | .deleteFinished result, .notFound => some (cluster, [.delete], .returned result)
  | .deleteFinished result, .error _ => some (cluster, [.delete], .returned result)
  | _, _ => none
where
  creationFailed (text : String) : RunResult :=
    ⟨1, "failed to create kubernetes job " ++ wk.workload.jobName rc ++ ": " ++ text, some text⟩

/-- The part of a step that concerns the database: the world and the phase after it. -/
def finalizeJob (cfg : Settings) (rc : JobRunnerConfig) (w : World) (wl : ClaimedJobWorkload) :
    JobPhase → JobReply → Option (World × JobPhase)
  | .checkCancelled, .ok =>
    some (w, if isJobCancelRequested w.db wl.jobId then .markCancelled else .markRunning)
  | .checkCancelled, .error _ => some (w, .markRunning)
  | .markRunning, .ok => (w.step cfg (.job (.markJobAttemptRunning wl))).map (·, .isolate)
  | .markRunning, .error _ => some (w, .checkNotRunning)
  | .checkNotRunning, .ok => some (w, if isJobCancelRequested w.db wl.jobId then .markCancelled else .done)
  | .checkNotRunning, .error _ => some (w, .done)
  | .returned result, .ok =>
    some (w, if result.exitCode = 0 ∧ result.runErr = none then .markSucceeded else .checkInterrupted result)
  | .checkInterrupted result, .ok =>
    some (w, if isJobCancelRequested w.db wl.jobId then .markCancelled else .markFailed result.reason result.exitCode)
  | .checkInterrupted result, .error _ => some (w, .markFailed result.reason result.exitCode)
  | .markSucceeded, .ok => (w.step cfg (.job (.markJobAttemptSucceeded wl (wl.resourceUid rc)))).map (·, .done)
  | .markSucceeded, .error _ => some (w, .done)
  | .markCancelled, .ok => (w.step cfg (.job (.markJobAttemptCancelled wl))).map (·, .done)
  | .markCancelled, .error _ => some (w, .done)
  | .markFailed reason exitCode, .ok => (w.step cfg (.job (.markJobAttemptFailed wl reason exitCode))).map (·, .done)
  | .markFailed _ _, .error _ => some (w, .done)
  | _, _ => none

inductive JobCloudAction
  /-- a step of the rest of the system -/
  | other (a : Action)
  | claim (workerId : String) (leaseDuration : Time) (workspaceIds locked : List Uuid)
  | renew (worker : Nat) (extension : Time)
  | stop (worker : Nat) (cause : StopCause)
  | crash (worker : Nat)
  | reconcile (worker : Nat) (reply : JobReply)

/-- The transactions that only an executor makes, for a job attempt it has claimed. -/
def Action.ofJobExecutor : Action → Bool
  | .job a => a.byExecutor
  | _ => false

/-- The reconciliation has ended, and with it its heartbeat. -/
def JobPhase.hasEnded : JobPhase → Bool
  | done => true
  | crashed => true
  | _ => false

def JobCloud.step (cfg : Settings) (rc : JobRunnerConfig) (c : JobCloud) : JobCloudAction → Option JobCloud
  | .other a => if a.ofJobExecutor then none else (c.world.step cfg a).map fun w => { c with world := w }
  | .claim workerId lease wss locked =>
    (c.world.step cfg (.job (.claimNextJobAttempt workerId lease wss locked))).bind fun w =>
      w.jobs.claims.getLast?.map fun wl =>
        { c with world := w, workers := c.workers ++ [⟨wl, none, .checkCancelled, []⟩] }
  | .renew n extension =>
    c.workers[n]?.bind fun wk =>
      if wk.phase.hasEnded then none
      else (c.world.step cfg (.job (.renewLease wk.workload extension))).map fun w => { c with world := w }
  | .stop n cause => c.workers[n]?.map fun wk => { c with workers := c.workers.set n { wk with stopped := some cause } }
  | .crash n => c.workers[n]?.map fun wk => { c with workers := c.workers.set n { wk with phase := .crashed } }
  | .reconcile n reply =>
    c.workers[n]?.bind fun wk =>
      match runJob rc c.cluster wk wk.phase reply with
      | some (cluster, requests, phase) =>
        some { c with
          cluster := cluster
          workers := c.workers.set n { wk with phase := phase, requests := wk.requests ++ requests } }
      | none =>
        (finalizeJob cfg rc c.world wk.workload wk.phase reply).map fun (w, phase) =>
          { c with world := w, workers := c.workers.set n { wk with phase := phase } }

def jobCloudSystem (cfg : Settings) (rc : JobRunnerConfig) : System JobCloud JobCloudAction :=
  ⟨JobCloud.init, JobCloud.step cfg rc⟩

end HamiCloud
