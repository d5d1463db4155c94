import HamiCloud.Library.Transition
import HamiCloud.Store.Releases

/-!
# The executor loop and its liveness probe

`Start`, `RunOnce` and the lease heartbeat of `runtime/internal/executor/executor.go`, beside the `/healthz` handler of
`runtime/internal/health/server.go` and the probe that the deployment configures on it. Time, in nanoseconds, passes
between any two steps; the store may answer a claim with any workload, and a workload ends whenever its reconciler
returns.
-/

namespace HamiCloud

open Library

/-- The three claims of `RunOnce`. -/
inductive ClaimStage
  | build
  | job
  | service
  deriving DecidableEq

inductive ExecutorWorkload
  | build (task : ClaimedBuildTask)
  | job (workload : ClaimedJobWorkload)
  | service (workload : ClaimedWorkload)
  deriving DecidableEq

def ExecutorWorkload.stage : ExecutorWorkload → ClaimStage
  | build _ => .build
  | job _ => .job
  | service _ => .service

/-- The intent and the epoch whose lease the workload holds; a build has none. -/
def ExecutorWorkload.lease : ExecutorWorkload → Option (Uuid × Nat)
  | build _ => none
  | job wl => some (wl.intentId, wl.leaseEpoch)
  | service wl => some (wl.intentId, wl.leaseEpoch)

/-- The goroutine of `startLeaseHeartbeat`. -/
structure LeaseHeartbeat where
  intentId : Uuid
  leaseEpoch : Nat
  nextRenewal : Nat
  /-- a renewal failed: the goroutine has ended and the context of the workload is cancelled -/
  lost : Bool
  deriving DecidableEq

/-- Where `Start` is. -/
inductive ExecutorPhase
  /-- before the first tick -/
  | starting
  /-- at the head of the loop -/
  | loopHead
  /-- after the tick of the loop, before `RunOnce` -/
  | ticked
  /-- in the first of these claims of `RunOnce` -/
  | claiming (stage : ClaimStage) (later : List ClaimStage)
  | working (workload : ExecutorWorkload) (heartbeat : Option LeaseHeartbeat)
  /-- in the wait for `idlePollInterval` or a notification -/
  | idle
  | stopped
  /-- the container was restarted -/
  | killed
  deriving DecidableEq

structure ExecutorState where
  now : Nat
  /-- `lastTick` of the health server -/
  lastTick : Nat
  /-- when the loop came to where it is -/
  entered : Nat
  stopClaiming : Bool
  /-- liveness probes that have failed in a row -/
  failures : Nat
  phase : ExecutorPhase
  deriving DecidableEq

/-- `NewServer` records the time of its creation as a tick. -/
def ExecutorState.init : ExecutorState := ⟨0, 0, 0, false, 0, .starting⟩

structure ExecutorConfig where
  leaseDuration : Nat
  idlePollInterval : Nat
  hasBuildReconciler : Bool
  hasJobReconciler : Bool
  stalenessWindow : Nat
  /-- failures in a row after which the container is restarted -/
  failureThreshold : Nat
  deriving DecidableEq

def millisecond : Nat := 1000000

/-- The configuration of `cmd/hamicloud-executor/main.go`; the probe of the deployment leaves the threshold at its
default. -/
def ExecutorConfig.deployed : ExecutorConfig := ⟨60 * second, 2 * second, true, true, 30 * second, 3⟩

def ExecutorConfig.renewInterval (cfg : ExecutorConfig) : Nat := max (cfg.leaseDuration / 3) (10 * millisecond)

/-- The claims before the one for a service release, which is always made. -/
def ExecutorConfig.stages (cfg : ExecutorConfig) : ExecutorPhase :=
  match cfg.hasBuildReconciler, cfg.hasJobReconciler with
  | true, true => .claiming .build [.job, .service]
  | true, false => .claiming .build [.service]
  | false, true => .claiming .job [.service]
  | false, false => .claiming .service []

/-- The status of `handleHealthz`. -/
def handleHealthz (cfg : ExecutorConfig) (s : ExecutorState) : Nat :=
  if cfg.stalenessWindow < s.now - s.lastTick then 503 else 200

inductive ExecutorAction
  | elapse (d : Nat)
  /-- `Start` is called -/
  | start
  /-- the loop looks at its context and at `stopClaiming`, and ticks -/
  | tick (done : Bool)
  /-- `RunOnce` is called -/
  | runOnce
  /-- the store answers a claim: an error, nothing, or a workload -/
  | claimFailed
  | claimedNothing
  | claimed (workload : ExecutorWorkload)
  /-- the ticker of the heartbeat fires, and `RenewLease` succeeds or not -/
  | renew (ok : Bool)
  /-- the reconciler returns -/
  | finish
  /-- the wait of an idle loop ends: its context is done, the interval has passed, or it is notified -/
  | idleDone
  | idleTimeout
  | wake
  /-- `Stop` -/
  | stop
  /-- a liveness probe -/
  | probe
  deriving DecidableEq

def ExecutorState.enter (s : ExecutorState) (phase : ExecutorPhase) : ExecutorState :=
  { s with entered := s.now, phase := phase }

/-- `e.tick()`, which is `RecordTick` of the health server. -/
def ExecutorState.recordTick (s : ExecutorState) : ExecutorState := { s with lastTick := s.now }

def startLeaseHeartbeat (cfg : ExecutorConfig) (now : Nat) (wl : ExecutorWorkload) : Option LeaseHeartbeat :=
  wl.lease.map fun (intentId, leaseEpoch) => ⟨intentId, leaseEpoch, now + cfg.renewInterval, false⟩

def ExecutorState.step (cfg : ExecutorConfig) (s : ExecutorState) : ExecutorAction → Option ExecutorState
  | .elapse d => some { s with now := s.now + d }
  | .start => if s.phase = .starting then some (s.recordTick.enter .loopHead) else none
  | .tick done =>
    if s.phase = .loopHead then
      some (if done || s.stopClaiming then s.enter .stopped else s.recordTick.enter .ticked)
    else none
  | .runOnce =>
    if s.phase = .ticked then some (s.enter (if s.stopClaiming then .idle else cfg.stages)) else none
  | .claimFailed =>
    match s.phase with
    | .claiming _ _ => some (s.enter .idle)
    | _ => none
  | .claimedNothing =>
    match s.phase with
    | .claiming _ [] => some (s.enter .idle)
    | .claiming _ (stage :: later) => some (s.enter (.claiming stage later))
    | _ => none
  | .claimed wl =>
    match s.phase with
    | .claiming stage _ =>
      if wl.stage = stage then some (s.enter (.working wl (startLeaseHeartbeat cfg s.now wl))) else none
    | _ => none
  | .renew ok =>
    match s.phase with
    | .working wl (some hb) =>
      if hb.nextRenewal ≤ s.now ∧ hb.lost = false then
        -- the time of entry stays, since the reconciler goes on
        some { s with phase := .working wl (some (if ok then
          { hb with nextRenewal := hb.nextRenewal + cfg.renewInterval } else { hb with lost := true })) }
      else none
    | _ => none
  | .finish =>
    match s.phase with
    | .working _ _ => some (s.enter .loopHead)
    | _ => none
  | .idleDone => if s.phase = .idle then some (s.enter .stopped) else none
  | .idleTimeout =>
    if s.phase = .idle ∧ s.entered + cfg.idlePollInterval ≤ s.now then some (s.enter .loopHead) else none
  | .wake => if s.phase = .idle then some (s.enter .loopHead) else none
  | .stop => some { s with stopClaiming := true }
  | .probe =>
    if handleHealthz cfg s = 200 then some { s with failures := 0 }
    else some { s with failures := s.failures + 1
                       phase := if s.failures + 1 < cfg.failureThreshold then s.phase else .killed }

def executorSystem (cfg : ExecutorConfig) : System ExecutorState ExecutorAction := ⟨.init, ExecutorState.step cfg⟩

end HamiCloud
