import HamiCloud.Runtime.BuildPaths
import HamiCloud.Runtime.Scheduler

/-!
# Source builds

`ReconcileBuild` of `runtime/internal/reconciler/build_reconciler.go`, run by any number of executors
beside the rest of the system. A build has no lease: from `ClaimNextBuildRelease` to the transaction that
records its result the release belongs to the executor that claimed it. An executor may crash at any moment,
and its context may be cancelled at any moment; the transaction runs under that context and fails
once it is cancelled.
-/

namespace HamiCloud

open Library

/-- What `Build` returns beside an error, with texts as `redactBuildLogs` leaves them. -/
structure BuildResult where
  imageDigest : String
  failureReason : String
  deriving DecidableEq

inductive BuildPhase
  | build
  | markSucceeded (imageDigest : String)
  | markFailed (reason : String)
  | done
  deriving DecidableEq

structure Builder where
  task : ClaimedBuildTask
  /-- the context of the executor has been cancelled -/
  cancelled : Bool
  phase : BuildPhase
  deriving DecidableEq

structure BuildWorld where
  world : World
  builders : List Builder

def BuildWorld.init : BuildWorld := ⟨World.init, []⟩

def buildFailureReason (res : Option BuildResult) (err : Option String) : String :=
  match res with
  | some r => if r.failureReason ≠ "" then r.failureReason else err.getD "build execution failed"
  | none => err.getD "build execution failed"

/-- The branch of `ReconcileBuild` on what `Build` returns. -/
def buildOutcome (res : Option BuildResult) (err : Option String) : BuildPhase :=
  match res, err with
  | some r, none =>
    if r.failureReason = "" ∧ trimSpace r.imageDigest ≠ "" then .markSucceeded r.imageDigest
    else .markFailed (buildFailureReason res err)
  | _, _ => .markFailed (buildFailureReason res err)

/-- The transaction that records a result; if it fails the error is logged and the executor goes on. -/
def Builder.record (cfg : Settings) (w : World) (b : Builder) : Option World :=
  match b.phase with
  | .markSucceeded digest =>
    some (if b.cancelled then w else w.attempt cfg (.service (.markBuildSucceeded b.task digest)))
  | .markFailed reason =>
    some (if b.cancelled then w else w.attempt cfg (.service (.markBuildFailed b.task reason)))
  | _ => none

inductive BuildAction
  /-- a step of the rest of the system -/
  | other (a : Action)
  | claim (workspaceIds locked : List Uuid)
  | cancel (builder : Nat)
  | crash (builder : Nat)
  | built (builder : Nat) (res : Option BuildResult) (err : Option String)
  | record (builder : Nat)

/-- The transactions of an executor for a build. -/
def Action.ofBuilder : Action → Bool
  | .service (.claimNextBuildRelease _ _) => true
  | .service (.markBuildSucceeded _ _) => true
  | .service (.markBuildFailed _ _) => true
  | _ => false

def BuildWorld.step (cfg : Settings) (b : BuildWorld) : BuildAction → Option BuildWorld
  | .other a =>
    if a.ofBuilder then none else (b.world.step cfg a).map fun w => { b with world := w }
  | .claim wss locked =>
    (b.world.step cfg (.service (.claimNextBuildRelease wss locked))).bind fun w =>
      w.services.builds.getLast?.map fun task => ⟨w, b.builders ++ [⟨task, false, .build⟩]⟩
  | .cancel n => b.builders[n]?.map fun bd => { b with builders := b.builders.set n { bd with cancelled := true } }
  | .crash n => b.builders[n]?.map fun bd => { b with builders := b.builders.set n { bd with phase := .done } }
  | .built n res err =>
    b.builders[n]?.bind fun bd =>
      if bd.phase = .build then
        some { b with builders := b.builders.set n { bd with phase := buildOutcome res err } }
      else none
  | .record n =>
    b.builders[n]?.bind fun bd =>
      (bd.record cfg b.world).map fun w => ⟨w, b.builders.set n { bd with phase := .done }⟩

def buildSystem (cfg : Settings) : System BuildWorld BuildAction := ⟨BuildWorld.init, BuildWorld.step cfg⟩

/-! ### What happens without any request -/

/-- The operations of an executor on a service release. -/
def ServiceAction.byExecutor : ServiceAction → Bool
  | .claimNextServiceRelease _ _ _ _ => true
  | .renewLease _ _ => true
  | .markReleaseHealthy _ _ => true
  | .markReleaseFailed _ _ => true
  | _ => false

/-- The steps of live executors. -/
def BuildAction.byExecutor : BuildAction → Bool
  | .other (.job a) => a.byExecutor
  | .other (.service a) => a.byExecutor
  | .claim _ _ => true
  | .built _ _ _ => true
  | .record _ => true
  | _ => false

inductive BuildContinues (cfg : Settings) : BuildWorld → BuildWorld → Prop
  | tick (b : BuildWorld) (d : Time) :
      BuildContinues cfg b { b with world := { b.world with db := b.world.db.tick d } }
  | pass (b : BuildWorld) : BuildContinues cfg b { b with world := runOnce cfg b.world }
  | executor {b b' : BuildWorld} {act : BuildAction} : act.byExecutor = true → b.step cfg act = some b' →
      BuildContinues cfg b b'

end HamiCloud
