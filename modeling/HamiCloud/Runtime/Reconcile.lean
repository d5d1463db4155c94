import HamiCloud.Runtime.World

/-!
# Service reconciliation

`ReconcileOne` of `runtime/internal/reconciler/reconciler.go` over the requests of
`KubeWorkloadRunner`, run by any number of executors beside the rest of the system. Every request to the
cluster and every transaction is one step. The cluster is a store of resources keyed by kind and name.
The lease heartbeat of an executor may renew the lease at any moment, and may find it lost and cancel
the context of the reconciliation at any moment; an executor may crash at any moment.
-/

namespace HamiCloud

open Library

inductive ResourceKind
  | deployment
  | service
  | ingress
  deriving DecidableEq

/-- A resource of the cluster with the two labels that a selector reads: `hamicloud.io/application-id` and
`hamicloud.io/generation`. -/
structure Resource where
  kind : ResourceKind
  name : ResourceName
  applicationId : Uuid
  generation : Nat
  deriving DecidableEq

def Resource.key (r : Resource) : ResourceKind × ResourceName := (r.kind, r.name)

/-- Whether an ingress domain is configured, and the number of readiness probes. -/
structure RunnerConfig where
  ingressDomain : Bool
  maxRetries : Nat

/-- The kinds in the order in which the runner goes through them. -/
def ResourceKind.next (rc : RunnerConfig) : ResourceKind → Option ResourceKind
  | deployment => some service
  | service => if rc.ingressDomain then some ingress else none
  | ingress => none

/-- Where a `ReconcileOne` is; each phase stands before one request. -/
inductive Phase
  | deploy (kind : ResourceKind)
  | probe (attempt : Nat)
  | check (attempt : Nat)
  | wait (attempt : Nat)
  | markHealthy
  | teardown (kind : ResourceKind)
  | markFailed
  | listSuperseded (kind : ResourceKind)
  | deleteSuperseded (kind : ResourceKind) (names : List ResourceName)
  | done
  deriving DecidableEq

structure Worker where
  workload : ClaimedWorkload
  /-- the context of the reconciliation has been cancelled -/
  cancelled : Bool
  phase : Phase
  deriving DecidableEq

structure Cloud where
  world : World
  cluster : Table Resource.key
  workers : List Worker

def Cloud.init : Cloud := ⟨World.init, .empty, []⟩

/-- How the request of a phase ends. A failed request has no effect. The text is the UID of the deployment, or
the reason of a failure. -/
inductive Reply
  | ok (text : String)
  | failed
  /-- the lookup of an ingress fails for another reason than its absence: `Deploy` goes on without it -/
  | skipped
  deriving DecidableEq

/-- What `Deploy` writes for one kind. -/
def ClaimedWorkload.resource (wl : ClaimedWorkload) (kind : ResourceKind) : Resource :=
  ⟨kind, wl.deterministicResourceName, wl.applicationId, wl.targetGeneration⟩

/-- The label selector of `TeardownSupersededGenerations`. -/
def supersededNames (cluster : Table Resource.key) (wl : ClaimedWorkload) (kind : ResourceKind) :
    List ResourceName :=
  (cluster.rows.filter fun r => r.kind = kind && r.applicationId = wl.applicationId &&
    r.generation ≠ wl.targetGeneration).map Resource.name

/-- The readiness loop is entered with its first attempt, or not at all. -/
def startProbing (rc : RunnerConfig) : Phase :=
  if 1 ≤ rc.maxRetries then .probe 1 else .teardown .deployment

def afterDeploy (rc : RunnerConfig) (kind : ResourceKind) : Phase :=
  match kind.next rc with
  | some kind' => .deploy kind'
  | none => startProbing rc

def afterTeardown (rc : RunnerConfig) (kind : ResourceKind) : Phase :=
  match kind.next rc with
  | some kind' => .teardown kind'
  | none => .markFailed

def afterSuperseded (rc : RunnerConfig) (kind : ResourceKind) : Phase :=
  match kind.next rc with
  | some kind' => .listSuperseded kind'
  | none => .done

/-- `MarkReleaseHealthy` and the branch on `becameCurrent`. -/
def reconcileHealthy (cfg : Settings) (w : World) (wl : ClaimedWorkload) (uid : String) : Option (World × Phase) :=
  match markReleaseHealthy w.db wl.intentId wl.releaseId wl.applicationId uid wl.leaseEpoch,
      w.step cfg (.service (.markReleaseHealthy wl uid)) with
  | .ok (becameCurrent, _), some w' => some (w', if becameCurrent then .listSuperseded .deployment else .done)
  | _, _ => none

/-- One step of `ReconcileOne`: the database, the cluster and the phase after it. -/
def reconcileOne (cfg : Settings) (rc : RunnerConfig) (c : Cloud) (wk : Worker) :
    Phase → Reply → Option (World × Table Resource.key × Phase)
  | .deploy kind, .ok _ => some (c.world, c.cluster.upsert (wk.workload.resource kind), afterDeploy rc kind)
  | .deploy _, .failed => some (c.world, c.cluster, .teardown .deployment)
  | .deploy .ingress, .skipped => some (c.world, c.cluster, startProbing rc)
  | .probe n, .ok _ => some (c.world, c.cluster, if wk.cancelled then .teardown .deployment else .check n)
  | .check _, .ok _ =>
    -- a deployment that does not exist is not ready
    if (c.cluster.get (.deployment, wk.workload.deterministicResourceName)).isSome then
      some (c.world, c.cluster, .markHealthy)
    else none
  | .check n, .failed =>
    some (c.world, c.cluster, if n < rc.maxRetries then .wait n else .teardown .deployment)
  | .wait n, .ok _ => some (c.world, c.cluster, .probe (n + 1))
  | .wait _, .failed => if wk.cancelled then some (c.world, c.cluster, .teardown .deployment) else none
  | .markHealthy, .ok uid =>
    (reconcileHealthy cfg c.world wk.workload uid).map fun (w', phase) => (w', c.cluster, phase)
  | .markHealthy, .failed => some (c.world, c.cluster, .done)
  | .teardown kind, .ok _ =>
    some (c.world, c.cluster.erase (kind, wk.workload.deterministicResourceName), afterTeardown rc kind)
  | .teardown kind, .failed => some (c.world, c.cluster, afterTeardown rc kind)
  | .markFailed, .ok reason =>
    (c.world.step cfg (.service (.markReleaseFailed wk.workload reason))).map fun w' => (w', c.cluster, .done)
  | .markFailed, .failed => some (c.world, c.cluster, .done)
  | .listSuperseded kind, .ok _ =>
    some (c.world, c.cluster, .deleteSuperseded kind (supersededNames c.cluster wk.workload kind))
  | .listSuperseded kind, .failed => some (c.world, c.cluster, afterSuperseded rc kind)
  | .deleteSuperseded kind [], .ok _ => some (c.world, c.cluster, afterSuperseded rc kind)
  | .deleteSuperseded kind (name :: names), .ok _ =>
    some (c.world, c.cluster.erase (kind, name), .deleteSuperseded kind names)
  | .deleteSuperseded kind (_ :: names), .failed => some (c.world, c.cluster, .deleteSuperseded kind names)
  | _, _ => none

inductive CloudAction
  /-- a step of the rest of the system -/
  | other (a : Action)
  | claim (workerId : String) (leaseDuration : Time) (workspaceIds locked : List Uuid)
  | renew (worker : Nat) (extension : Time)
  | cancel (worker : Nat)
  | crash (worker : Nat)
  | reconcile (worker : Nat) (reply : Reply)

/-- The transactions that only an executor makes, for a service release it has claimed. -/
def Action.ofReconciler : Action → Bool
  | .service (.claimNextServiceRelease _ _ _ _) => true
  | .service (.renewLease _ _) => true
  | .service (.markReleaseHealthy _ _) => true
  | .service (.markReleaseFailed _ _) => true
  | _ => false

def Cloud.step (cfg : Settings) (rc : RunnerConfig) (c : Cloud) : CloudAction → Option Cloud
  | .other a =>
    if a.ofReconciler then none else (c.world.step cfg a).map fun w => { c with world := w }
  | .claim workerId lease wss locked =>
    (c.world.step cfg (.service (.claimNextServiceRelease workerId lease wss locked))).bind fun w =>
      w.services.claims.getLast?.map fun wl =>
        { c with world := w, workers := c.workers ++ [⟨wl, false, .deploy .deployment⟩] }
  | .renew n extension =>
    c.workers[n]?.bind fun wk =>
      if wk.phase = .done then none
      else (c.world.step cfg (.service (.renewLease wk.workload extension))).map fun w => { c with world := w }
  | .cancel n => c.workers[n]?.map fun wk => { c with workers := c.workers.set n { wk with cancelled := true } }
  | .crash n => c.workers[n]?.map fun wk => { c with workers := c.workers.set n { wk with phase := .done } }
  | .reconcile n reply =>
    c.workers[n]?.bind fun wk =>
      (reconcileOne cfg rc c wk wk.phase reply).map fun (w, cluster, phase) =>
        ⟨w, cluster, c.workers.set n { wk with phase := phase }⟩

def cloudSystem (cfg : Settings) (rc : RunnerConfig) : System Cloud CloudAction :=
  ⟨Cloud.init, Cloud.step cfg rc⟩

end HamiCloud
