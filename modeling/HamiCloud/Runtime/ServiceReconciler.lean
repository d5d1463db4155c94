import HamiCloud.Library.Program
import HamiCloud.Store.Releases

/-!
# The service reconciler over its interfaces

`ReconcileOne` of `runtime/internal/reconciler/reconciler.go` as a program that calls a `WorkloadRunner`, a
`ServiceStore` and its context. Nothing is assumed about the answers: any call may fail, and the context may be
done at any of the points where the program looks at it.
-/

namespace HamiCloud

open Library

/-- The context of a call: that of the reconciliation, or the one that a cleanup detaches from it
(`context.WithoutCancel` with a timeout of 15 seconds). -/
inductive CallContext
  | reconciliation
  | cleanup
  deriving DecidableEq

inductive ReconcilerCall
  | deploy (ctx : CallContext) (workload : ClaimedWorkload)
  | checkReadiness (ctx : CallContext) (workload : ClaimedWorkload)
  | teardown (ctx : CallContext) (workload : ClaimedWorkload)
  | teardownSupersededGenerations (ctx : CallContext) (applicationId : Uuid) (currentGeneration : Nat)
  | markReleaseHealthy (ctx : CallContext) (intentId releaseId appId : Uuid) (resourceUid : String)
    (leaseEpoch : Nat)
  | markReleaseFailed (ctx : CallContext) (intentId releaseId : Uuid) (reason : String) (leaseEpoch : Nat)
  /-- `select` between `ctx.Done()` and `default` -/
  | contextDone
  /-- `select` between `ctx.Done()` and `time.After(r.retryInterval)`; either may be taken when both are ready -/
  | retryWait

/-- The answers of a call; an error is its text, and the context answers with `ctx.Err()` when it is done. -/
abbrev ReconcilerCall.Answer : ReconcilerCall → Type
  | deploy .. => Except String String
  | checkReadiness .. => Except String (Bool × String)
  | teardown .. => Except String Unit
  | teardownSupersededGenerations .. => Except String Unit
  | markReleaseHealthy .. => Except String Bool
  | markReleaseFailed .. => Except String Unit
  | contextDone => Option String
  | retryWait => Option String

abbrev ReconcilerEvent := Answered ReconcilerCall ReconcilerCall.Answer

abbrev Reconciliation := Program ReconcilerCall ReconcilerCall.Answer

/-- The retry interval only sets how long `retryWait` waits. -/
structure ServiceReconciler where
  maxRetries : Nat
  positive : 0 < maxRetries

def newServiceReconciler : ServiceReconciler := ⟨3, by decide⟩

/-- A number of retries that is not positive is ignored. -/
def ServiceReconciler.setRetryPolicy (r : ServiceReconciler) (maxRetries : Int) : ServiceReconciler :=
  if h : 0 < maxRetries then ⟨maxRetries.toNat, by omega⟩ else r

abbrev request (q : ReconcilerCall) : Reconciliation q.Answer := Program.ask q

/-- The cleanup of the four exits that give a release up. The error of `Teardown` is dropped. -/
def giveUp (wl : ClaimedWorkload) (reason : String) : Reconciliation (Except String Unit) := do
  let _ ← request (.teardown .cleanup wl)
  request (.markReleaseFailed .cleanup wl.intentId wl.releaseId reason wl.leaseEpoch)

/-- How the readiness loop is left. -/
inductive Probing
  | ready
  | cancelled (err : String)
  | exhausted (lastFailureReason : String)

/-- The `lastFailureReason` after a probe, unless it reported ready. -/
def failureReason : Except String (Bool × String) → Option String
  | .ok (true, _) => none
  | .ok (false, failureReason) => some failureReason
  | .error probeErr => some s!"probe error: {probeErr}"

/-- One attempt: with `left` more attempts it waits and goes on with `next`, which gets the `lastFailureReason`. -/
def attemptProbe (wl : ClaimedWorkload) (left : Nat) (next : String → Reconciliation Probing) :
    Reconciliation Probing := do
  let done : Option String ← request .contextDone
  match done with
  | some err => pure (.cancelled err)
  | none =>
    let answer : Except String (Bool × String) ← request (.checkReadiness .reconciliation wl)
    match failureReason answer with
    | none => pure .ready
    | some lastFailureReason =>
      if 0 < left then
        let done : Option String ← request .retryWait
        match done with
        | some err => pure (.cancelled err)
        | none => next lastFailureReason
      else next lastFailureReason

/-- The readiness loop with the number of attempts that are left. -/
def probeReadiness (wl : ClaimedWorkload) : Nat → String → Reconciliation Probing
  | 0, lastFailureReason => pure (.exhausted lastFailureReason)
  | left + 1, _ => attemptProbe wl left (probeReadiness wl left)

/-- `MarkReleaseHealthy`, and the teardown of older generations when the release became the current one. -/
def finishHealthy (wl : ClaimedWorkload) (resUid : String) : Reconciliation (Except String Unit) := do
  let marked : Except String Bool ←
    request (.markReleaseHealthy .reconciliation wl.intentId wl.releaseId wl.applicationId resUid wl.leaseEpoch)
  match marked with
  | .error err => pure (.error err)
  | .ok true => do
    let _ ← request (.teardownSupersededGenerations .reconciliation wl.applicationId wl.targetGeneration)
    pure (.ok ())
  | .ok false => pure (.ok ())

/-- `ReconcileOne`; the errors of a cleanup are returned only when the probes are exhausted. -/
def ServiceReconciler.reconcileOne (r : ServiceReconciler) (wl : ClaimedWorkload) :
    Reconciliation (Except String Unit) := do
  let deployed : Except String String ← request (.deploy .reconciliation wl)
  match deployed with
  | .error err => do
    let _ ← giveUp wl s!"workload deployment failed: {err}"
    pure (.error err)
  | .ok resUid =>
    match ← probeReadiness wl r.maxRetries "" with
    | .ready => finishHealthy wl resUid
    | .cancelled err => do
      let _ ← giveUp wl s!"reconciliation context cancelled: {err}"
      pure (.error err)
    | .exhausted lastFailureReason => giveUp wl lastFailureReason

end HamiCloud
