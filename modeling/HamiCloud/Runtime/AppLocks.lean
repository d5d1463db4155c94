import HamiCloud.Runtime.World

/-!
# Application row locks

The requests on an application at the grain of their statements. `deploy_release` and `rollback_release` load the
application under its row lock in one step and commit in a later one, writing the generation of the loaded
entity plus one. `update_application` loads the row without a lock, and its flush writes the columns whose value
it has changed. What else writes or locks the row waits while the lock is held.
-/

namespace HamiCloud

open Library

/-- The two requests that bump the generation of an application. -/
inductive ReleaseRequest
  | deploy (payload : DeployReleaseRequest)
  | rollback (targetReleaseId : Uuid)
  deriving DecidableEq

/-- What the handlers check before they take the lock. -/
def ReleaseRequest.validate (cfg : Settings) : ReleaseRequest → Except ApiError Unit
  | .deploy payload => do
    payload.validate
    validateImagePolicy cfg payload.imageDigest
  | .rollback _ => pure ()

/-- A transaction that holds the row lock of an application, with the entity it loaded under the lock. -/
structure LockedRelease where
  app : Application
  request : ReleaseRequest
  deriving DecidableEq

def LockedRelease.appId (s : LockedRelease) : Uuid := s.app.id

/-- As `acceptRelease`, from the loaded entity: the flush writes `desired_generation` as a value. -/
def acceptLocked (cfg : Settings) (db : Db) (app : Application) (imageDigest : String)
    (config : ReleaseConfig) (rollbackOf : Option Uuid) : Except ApiError Db := do
  let db₁ ← enforceWorkspaceQuota cfg db app.workspaceId .deployedService (some app.id) true
  let release := readyRelease db₁ app imageDigest config
  let apps := db₁.apps.set app.id (fun a =>
    { a with desiredGeneration := app.desiredGeneration + 1, updatedAt := db.now })
  let db₂ ← orError (insertRelease { db₁ with apps := apps } release) .integrity
  pure (insertOutbox db₂ app.workspaceId (.appDeploymentRequested app.id release.id
    (app.desiredGeneration + 1) imageDigest config rollbackOf))

/-- The rest of `deploy_release` or `rollback_release` once the lock is held. -/
def commitLocked (cfg : Settings) (db : Db) (s : LockedRelease) : Except ApiError Db :=
  match s.request with
  | .deploy payload => acceptLocked cfg db s.app payload.imageDigest payload.config none
  | .rollback targetReleaseId => do
    let target ← orError ((db.releases.get targetReleaseId).filter (fun r => r.applicationId = s.app.id))
      (.notFound "Target release not found for this application")
    acceptLocked cfg db s.app target.imageDigest target.config (some targetReleaseId)

/-- An `update_application` that has loaded its row. -/
structure PendingUpdate where
  app : Application
  payload : UpdateApplicationRequest
  deriving DecidableEq

/-- The columns that the flush writes: those whose new value differs from the loaded one. -/
def PendingUpdate.changes (u : PendingUpdate) : UpdateApplicationRequest where
  repositoryId := u.payload.repositoryId.filter (fun id => id ≠ u.app.repositoryId)
  gitBranch := u.payload.gitBranch.filter (fun branch => some branch ≠ u.app.gitBranch)

/-- The application whose row an action locks: with `FOR UPDATE`, or by an `UPDATE` that matches it. -/
def Action.lockedRow (db : Db) : Action → Option Uuid
  | .service (.triggerBuild appId _) => some appId
  | .service (.markBuildSucceeded task _) => (db.releases.get task.releaseId).map Release.applicationId
  | .service (.markReleaseHealthy wl _) =>
    match db.apps.get wl.applicationId, db.releaseIntents.get wl.intentId with
    | some a, some i => if a.desiredGeneration = i.targetGeneration then some wl.applicationId else none
    | _, _ => none
  | _ => none

/-- The application whose generation an action bumps. -/
def Action.bumps (db : Db) : Action → Option Uuid
  | .service (.deployRelease appId _) => some appId
  | .service (.rollbackRelease appId _) => some appId
  | .service (.markBuildSucceeded task _) => (db.releases.get task.releaseId).map Release.applicationId
  | _ => none

/-- The requests that take more than one step here. -/
def Action.loadsApplication : Action → Bool
  | .service (.deployRelease _ _) => true
  | .service (.rollbackRelease _ _) => true
  | .service (.updateApplication _ _) => true
  | _ => false

/-- A row has at most one holder of its lock: `locked` is keyed by the application. -/
structure LockWorld where
  world : World
  locked : Table LockedRelease.appId
  updates : List PendingUpdate
  /-- the applications of the committed deploys, rollbacks and successful builds -/
  bumped : List Uuid

def LockWorld.init : LockWorld := ⟨.init, .empty, [], []⟩

inductive LockAction
  | other (a : Action)
  | lockApplication (appId : Uuid) (request : ReleaseRequest)
  | commitRelease (s : LockedRelease)
  /-- the request fails or its handler dies: the transaction is rolled back -/
  | abandon (appId : Uuid)
  | loadApplication (appId : Uuid) (payload : UpdateApplicationRequest)
  | commitUpdate (u : PendingUpdate)

/-- A step of the system that locks the given row, if any, and so waits for its lock. -/
def LockWorld.waits (cfg : Settings) (f : LockWorld) (row : Option Uuid) (a : Action) : Option LockWorld :=
  if row.all (fun id => (f.locked.get id).isNone) then
    (World.step cfg f.world a).map fun w =>
      { f with world := w, bumped := f.bumped ++ (a.bumps f.world.db).toList }
  else none

def LockWorld.step (cfg : Settings) (f : LockWorld) : LockAction → Option LockWorld
  | .other a => if a.loadsApplication then none else f.waits cfg (a.lockedRow f.world.db) a
  | .lockApplication appId request =>
    match request.validate cfg, f.world.db.apps.get appId with
    | .ok (), some app => (f.locked.insert ⟨app, request⟩).map fun locked => { f with locked := locked }
    | _, _ => none
  | .commitRelease s =>
    if f.locked.get s.app.id = some s then
      (committed (commitLocked cfg f.world.db s)).map fun db =>
        { f with world := { f.world with db := db }, locked := f.locked.erase s.app.id,
                 bumped := f.bumped ++ [s.app.id] }
    else none
  | .abandon appId => some { f with locked := f.locked.erase appId }
  | .loadApplication appId payload =>
    match f.world.db.apps.get appId with
    | some app =>
      if ensureRepository f.world.db app.workspaceId payload.repositoryId.join = .ok () then
        some { f with updates := f.updates ++ [⟨app, payload⟩] }
      else none
    | none => none
  | .commitUpdate u =>
    if u ∈ f.updates then
      f.waits cfg (some u.app.id) (.service (.updateApplication u.app.id u.changes))
    else none

def lockSystem (cfg : Settings) : System LockWorld LockAction := ⟨LockWorld.init, LockWorld.step cfg⟩

end HamiCloud
