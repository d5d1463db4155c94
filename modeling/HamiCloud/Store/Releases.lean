import HamiCloud.Store.Jobs

/-!
# Release and build transactions of the runtime store

The functions of `runtime/internal/store/postgres.go` that act on applications, releases and
`SERVICE_RELEASE` intents, in the conventions of the job transactions.
-/

namespace HamiCloud

open Library

/-! ### Updates that keep the key of a row

The job transactions and the requests of the API make the same assignments, so the transactions
below take the fact that the row keeps its key from here. -/

lemma terminated_id (db : Db) (i : ExecutionIntent) :
    { i with status := .terminated, updatedAt := db.now }.id = i.id := rfl

lemma claim_id (db : Db) (workerId : String) (leaseDuration : Time) (i : ExecutionIntent) :
    (ExecutionIntent.claim workerId leaseDuration db.now i).id = i.id := rfl

lemma applied_id (db : Db) (resourceUid : String) (i : ExecutionIntent) :
    { i with status := .applied, resourceUid := some resourceUid, updatedAt := db.now }.id = i.id := rfl

lemma nextGeneration_id (db : Db) (a : Application) :
    { a with desiredGeneration := a.desiredGeneration + 1, updatedAt := db.now }.id = a.id := rfl

/-! ### Admission -/

structure UnadmittedRelease where
  releaseId : Uuid
  applicationId : Uuid
  workspaceId : Uuid
  releaseNumber : Nat
  imageDigest : String
  config : ReleaseConfig
  desiredGeneration : Nat
  deriving DecidableEq

/-- `SELECT MAX(release_number)` over the deployable releases of an application. -/
def maxDeployable (releases : Table Release.id) (applicationId : Uuid) : Option Nat :=
  ((releases.rows.filter (fun r => r.applicationId = applicationId && r.deployable)).map
    Release.releaseNumber).max?

/-- The releases that the first statement of `ScanUnadmittedReleases` supersedes. -/
def outdated (db : Db) (r : Release) : Bool :=
  (r.status = .imageReady || r.status = .requested) &&
    (maxDeployable db.releases r.applicationId).any (fun newest => r.releaseNumber < newest)

/-- The first transaction of `ScanUnadmittedReleases`: older releases become `SUPERSEDED` and
their unclaimed intents are terminated. -/
def supersedeReleases (db : Db) : Db :=
  let releases := db.releases.update (outdated db) (fun r =>
    { r with status := .superseded, statusReason := some "Superseded by newer release",
             updatedAt := db.now })
  let unclaimed := fun i : ExecutionIntent =>
    i.status = .pending && (releases.get i.resourceId).any (fun r => r.status = .superseded)
  let releaseIntents := db.releaseIntents.update unclaimed (fun i =>
    { i with status := .terminated, updatedAt := db.now }) (terminated_id db)
  { db with releases := releases, releaseIntents := releaseIntents }

/-- The `WHERE` clause of the scan on a release joined with its application. -/
def unadmitted (db : Db) (r : Release) (a : Application) : Bool :=
  (r.status = .imageReady || r.status = .requested) && r.deployable &&
    maxDeployable db.releases r.applicationId = some r.releaseNumber &&
    !db.releaseIntents.rows.any (fun ei => ei.resourceId = r.id &&
      ei.targetGeneration = a.desiredGeneration &&
      (ei.status = .pending || ei.status = .claimed || ei.status = .applied))

/-- The second statement of `ScanUnadmittedReleases`. -/
def selectUnadmittedReleases (db : Db) (limit : Nat) : List UnadmittedRelease :=
  ((orderBy Release.createdAt db.releases.rows).filterMap fun r =>
    match db.apps.get r.applicationId with
    | none => none
    | some a =>
      if unadmitted db r a then
        some ⟨r.id, r.applicationId, r.workspaceId, r.releaseNumber, r.imageDigest, r.config,
          a.desiredGeneration⟩
      else none).take limit

def createServiceReleaseIntent (db : Db) (rel : UnadmittedRelease) :
    Except StoreError (Option (ExecutionIntent × Db)) := do
  let intent : ExecutionIntent :=
    { id := db.nextUuid, workspaceId := rel.workspaceId, resourceId := rel.releaseId,
      targetGeneration := rel.desiredGeneration,
      deterministicResourceName := .svc rel.applicationId rel.desiredGeneration, status := .pending,
      claimedBy := none, leaseEpoch := 0, leaseExpiresAt := none, resourceUid := none,
      createdAt := db.now, updatedAt := db.now }
  if db.releaseIntents.rows.any (fun i => i.resourceId = intent.resourceId &&
      i.targetGeneration = intent.targetGeneration) then
    pure none
  else
    let releaseIntents ← orError (db.releaseIntents.insert intent) .uniqueViolation
    pure (some (intent, { db with releaseIntents := releaseIntents, nextUuid := db.nextUuid + 1 }))

/-! ### Deployment -/

structure ClaimedWorkload where
  intentId : Uuid
  workspaceId : Uuid
  releaseId : Uuid
  applicationId : Uuid
  releaseNumber : Nat
  imageDigest : String
  port : Nat
  healthPath : String
  targetGeneration : Nat
  deterministicResourceName : ResourceName
  leaseEpoch : Nat
  deriving DecidableEq

/-- `ei.status = 'PENDING' OR (ei.status = 'CLAIMED' AND ei.lease_expires_at < NOW())`. -/
def ExecutionIntent.claimable (i : ExecutionIntent) (now : Time) : Bool :=
  i.status = .pending || (i.status = .claimed && i.leaseExpired now)

def nextReleaseIntent (db : Db) (workspaceIds locked : List Uuid) : Option (ExecutionIntent × Release) :=
  (orderBy ExecutionIntent.createdAt db.releaseIntents.rows).findSome? fun ei =>
    if ei.claimable db.now ∧ workspaceFilter workspaceIds ei.workspaceId ∧ ei.id ∉ locked then
      match db.releases.get ei.resourceId with
      | none => none
      | some r => if r.status ≠ .superseded ∧ (db.apps.get r.applicationId).isSome then some (ei, r) else none
    else none

def claimNextServiceRelease (db : Db) (workerId : String) (leaseDuration : Time)
    (workspaceIds locked : List Uuid) : Option (ClaimedWorkload × Db) :=
  match nextReleaseIntent db workspaceIds locked with
  | none => none
  | some (ei, r) =>
    let newEpoch := ei.leaseEpoch + 1
    let releaseIntents := db.releaseIntents.set ei.id (ExecutionIntent.claim workerId leaseDuration db.now)
      (claim_id db workerId leaseDuration)
    match db.releases.modify r.id (fun r => r.status ≠ .superseded)
        (fun r => { r with status := .deploying, updatedAt := db.now }) with
    | none => none
    | some (_, releases) =>
      some ({ intentId := ei.id, workspaceId := ei.workspaceId, releaseId := r.id,
              applicationId := r.applicationId, releaseNumber := r.releaseNumber,
              imageDigest := r.imageDigest,
              port := if 0 < r.config.port then r.config.port else 8080,
              healthPath := if r.config.healthPath ≠ "" then r.config.healthPath else "/healthz",
              targetGeneration := ei.targetGeneration,
              deterministicResourceName := ei.deterministicResourceName, leaseEpoch := newEpoch },
            { db with releaseIntents := releaseIntents, releases := releases })

/-- The fenced update of an intent on the service partition. -/
def fenceReleaseIntent (db : Db) (intentId : Uuid) (leaseEpoch : Nat)
    (f : ExecutionIntent → ExecutionIntent) (hf : ∀ i, (f i).id = i.id := by intro _; rfl) :
    Except StoreError (ExecutionIntent × Db) := do
  ensure (0 < leaseEpoch) (.leaseEpochNotPositive leaseEpoch)
  let (intent, releaseIntents) ← orError
    (db.releaseIntents.modify intentId (ExecutionIntent.fenced leaseEpoch) f hf)
    (.fencing intentId leaseEpoch)
  pure (intent, { db with releaseIntents := releaseIntents })

/-- The boolean is `becameCurrent`. -/
def markReleaseHealthy (db : Db) (intentId releaseId appId : Uuid) (resourceUid : String)
    (leaseEpoch : Nat) : Except StoreError (Bool × Db) := do
  let (intent, db₁) ← fenceReleaseIntent db intentId leaseEpoch
    (fun i => { i with status := .applied, resourceUid := some resourceUid, updatedAt := db.now })
    (applied_id db resourceUid)
  let releases := db₁.releases.set releaseId (fun r =>
    { r with status := .healthy, statusReason := none, updatedAt := db.now })
  let db₂ := { db₁ with releases := releases }
  match db₂.apps.modify appId (fun a => a.desiredGeneration = intent.targetGeneration)
      (fun a => { a with currentReleaseId := some releaseId, updatedAt := db.now }) with
  | some (_, apps) => pure (true, { db₂ with apps := apps })
  | none => pure (false, db₂)

def markReleaseFailed (db : Db) (intentId releaseId : Uuid) (reason : String) (leaseEpoch : Nat) :
    Except StoreError Db := do
  let (_, db₁) ← fenceReleaseIntent db intentId leaseEpoch
    (fun i => { i with status := .terminated, updatedAt := db.now }) (terminated_id db)
  ensureVarchar 500 reason
  let releases := db₁.releases.set releaseId (fun r =>
    { r with status := .deployFailed, statusReason := some reason, updatedAt := db.now })
  pure { db₁ with releases := releases }

/-- `RenewLease` names no resource type: the statement is the same on both partitions of
`execution_intents`, and it acts on the one that holds the intent. -/
def renewLease (intents : Table ExecutionIntent.id) (now : Time) (intentId : Uuid) (currentEpoch : Nat)
    (extension : Time) : Except StoreError (Table ExecutionIntent.id) := do
  ensure (0 < currentEpoch) (.leaseEpochNotPositive currentEpoch)
  let (_, intents) ← orError (intents.modify intentId (ExecutionIntent.fenced currentEpoch)
    (fun i => { i with leaseExpiresAt := some (now + extension), updatedAt := now }))
    (.fencing intentId currentEpoch)
  pure intents

/-! ### Builds -/

structure ClaimedBuildTask where
  releaseId : Uuid
  applicationId : Uuid
  workspaceId : Uuid
  releaseNumber : Nat
  repositoryId : Uuid
  commitSha : String
  gitRef : String
  deriving DecidableEq

def nextBuildRelease (db : Db) (workspaceIds locked : List Uuid) :
    Option (Release × Application × Repository) :=
  (orderBy Release.createdAt db.releases.rows).findSome? fun r =>
    if r.status = .requested ∧ r.imageDigest = "pending" ∧
        workspaceFilter workspaceIds r.workspaceId ∧ r.id ∉ locked then
      match r.repositoryId.bind db.repositories.get, db.apps.get r.applicationId with
      | some repo, some a => some (r, a, repo)
      | _, _ => none
    else none

def claimNextBuildRelease (db : Db) (workspaceIds locked : List Uuid) : Option (ClaimedBuildTask × Db) :=
  match nextBuildRelease db workspaceIds locked with
  | none => none
  | some (r, a, repo) =>
    match db.releases.modify r.id (fun r => r.status = .requested)
        (fun r => { r with status := .building, updatedAt := db.now }) with
    | none => none
    | some (_, releases) =>
      some ({ releaseId := r.id, applicationId := r.applicationId, workspaceId := r.workspaceId,
              releaseNumber := r.releaseNumber, repositoryId := repo.id,
              commitSha := r.commitSha.getD "",
              gitRef := (r.gitRef.orElse (fun _ => a.gitBranch)).getD "main" },
            { db with releases := releases })

/-- `durationMs` and `buildLogs` are left out: the same statement writes them to `build_duration_ms` and `build_logs`,
which nothing reads but the answers of the API. Like every text here the logs are valid UTF-8 without NUL; others make
the statement fail. -/
def markBuildSucceeded (db : Db) (releaseId : Uuid) (imageDigest : String) : Except StoreError Db := do
  ensureVarchar 255 imageDigest
  let (r, releases) ← orError (db.releases.modify releaseId (fun r => r.status = .building)
    (fun r => { r with status := .imageReady, imageDigest := imageDigest, statusReason := none,
                       updatedAt := db.now })) (.releaseNotBuilding releaseId)
  let apps := db.apps.set r.applicationId (fun a =>
    { a with desiredGeneration := a.desiredGeneration + 1, updatedAt := db.now }) (nextGeneration_id db)
  let db₁ := insertOutbox { db with releases := releases, apps := apps } r.workspaceId
    (.appBuildCompleted r.applicationId releaseId imageDigest (r.commitSha.filter (· ≠ "")) .imageReady)
  pure (releaseReservation db₁ r.workspaceId .concurrentBuild)

/-- `durationMs` and `buildLogs` are left out as in `markBuildSucceeded`. -/
def markBuildFailed (db : Db) (releaseId : Uuid) (reason : String) : Except StoreError Db := do
  ensureVarchar 500 reason
  let (r, releases) ← orError (db.releases.modify releaseId (fun r => r.status = .building)
    (fun r => { r with status := .buildFailed, statusReason := some reason, updatedAt := db.now }))
    (.releaseNotBuilding releaseId)
  let db₁ := insertOutbox { db with releases := releases } r.workspaceId
    (.appBuildCompleted r.applicationId releaseId "pending" (r.commitSha.filter (· ≠ "")) .buildFailed)
  pure (releaseReservation db₁ r.workspaceId .concurrentBuild)

end HamiCloud
