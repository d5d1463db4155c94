import HamiCloud.Runtime.Scheduler

/-!
# One scheduler process

`Scheduler.Start` runs one pass after the other. Here a pass is interrupted between any two of its
transactions by requests, executors and time; the process may also be restarted at any point, and then begins
a new pass. `RunOnce` checks nothing between its phases, and an error within a phase skips what it concerns.
-/

namespace HamiCloud

open Library

/-- Where the process is in its pass, with the rows it has still to go through. -/
inductive PassPhase
  | idle
  | recover (items : List ExpiredJobRecoveryInfo)
  /-- step 1 of the recovery of `item` is done, its Kubernetes Job is being deleted -/
  | confirm (item : ExpiredJobRecoveryInfo) (rest : List ExpiredJobRecoveryInfo)
  | retries (scannedAt : Time) (rows : List RetryJob)
  /-- `now` has been read -/
  | requeue (scannedAt now : Time) (rows : List RetryJob)
  /-- older releases are superseded -/
  | superseded
  | releases (rows : List UnadmittedRelease)
  | jobs (rows : List UnadmittedJob)
  deriving DecidableEq

/-- The rows of the scan that the process has still to recover. -/
def PassPhase.items : PassPhase → List ExpiredJobRecoveryInfo
  | .recover items => items
  | .confirm item rest => item :: rest
  | _ => []

structure ProcessWorld where
  world : World
  phase : PassPhase

def ProcessWorld.init : ProcessWorld := ⟨World.init, .idle⟩

inductive ProcessAction
  /-- a step of the rest of the system -/
  | other (a : Action)
  /-- the next transaction of the pass; what the deletion of a Kubernetes Job returns is chosen here -/
  | proceed (deleteConfirmed : Bool)
  | restart

def ProcessWorld.proceed (cfg : Settings) (p : ProcessWorld) (deleteConfirmed : Bool) : ProcessWorld :=
  let w := p.world
  match p.phase with
  | .idle => ⟨w.attempt cfg (.job .findExpiredJobIntents), .recover (findExpiredJobIntents w.db)⟩
  | .recover (item :: rest) =>
    if item.needsBegin then
      match w.step cfg (.job (.beginJobRecovery item)) with
      | none => ⟨w, .recover rest⟩
      | some w' => ⟨w', .confirm item rest⟩
    else ⟨w, .confirm item rest⟩
  | .confirm item rest => ⟨w.attempt cfg (.job (.confirmJobRecovery item deleteConfirmed)), .recover rest⟩
  | .recover [] =>
    ⟨w.attempt cfg (.job (.scanRetryWaitJobs scanLimit)), .retries w.db.now (scanRetryWaitJobs w.db scanLimit)⟩
  | .retries scannedAt rows => ⟨w, .requeue scannedAt w.db.now rows⟩
  | .requeue scannedAt now (row :: rows) =>
    ⟨w.attempt cfg (.job (.requeueRetryWaitJob scannedAt row now)), .requeue scannedAt now rows⟩
  | .requeue _ _ [] => ⟨w.attempt cfg (.service .supersedeReleases), .superseded⟩
  | .superseded =>
    ⟨w.attempt cfg (.service (.selectUnadmittedReleases scanLimit)),
      .releases (selectUnadmittedReleases w.db scanLimit)⟩
  | .releases (rel :: rows) => ⟨w.attempt cfg (.service (.createServiceReleaseIntent rel)), .releases rows⟩
  | .releases [] =>
    ⟨w.attempt cfg (.job (.scanUnadmittedJobs scanLimit)),
      .jobs (scanUnadmittedJobs w.db cfg.maxConcurrentJobsPerWS scanLimit)⟩
  | .jobs (job :: rows) => ⟨w.attempt cfg (.job (.createJobAttemptIntent job)), .jobs rows⟩
  | .jobs [] => ⟨w, .idle⟩

def ProcessWorld.step (cfg : Settings) (p : ProcessWorld) : ProcessAction → Option ProcessWorld
  | .other a => if a.ofPass then none else (p.world.step cfg a).map fun w => { p with world := w }
  | .proceed deleteConfirmed => some (p.proceed cfg deleteConfirmed)
  | .restart => some { p with phase := .idle }

def processSystem (cfg : Settings) : System ProcessWorld ProcessAction := ⟨ProcessWorld.init, ProcessWorld.step cfg⟩

/-- A number of transactions of the process, with every deletion confirmed. -/
def proceeds (n : Nat) : List ProcessAction := List.replicate n (.proceed true)

end HamiCloud
