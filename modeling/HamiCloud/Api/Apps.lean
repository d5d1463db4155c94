import HamiCloud.Api.Quotas

/-!
# Application and webhook requests

`app/api/v1/apps.py`, and the push branch of `app/api/v1/webhooks.py`. The handlers of
`apps.py` hold the row lock of their application; the webhook handler takes no lock, so its reads and
its commit are two separate definitions.
-/

namespace HamiCloud

open Library

def createRepository (db : Db) (workspaceId : Uuid) : Except ApiError Db := do
  let repositories ← orError (db.repositories.insert ⟨db.nextUuid, workspaceId⟩) .integrity
  pure { db with repositories := repositories, nextUuid := db.nextUuid + 1 }

/-- A repository reference has to name a repository of the workspace. -/
def ensureRepository (db : Db) (workspaceId : Uuid) (repositoryId : Option Uuid) : Except ApiError Unit :=
  match repositoryId with
  | none => .ok ()
  | some id => ensure ((db.repositories.get id).any (fun repo => repo.workspaceId = workspaceId))
      (.notFound "Repository not found in this workspace")

def isSlugChar (c : Char) : Bool := ('a' ≤ c && c ≤ 'z') || ('0' ≤ c && c ≤ '9') || c = '-'

/-- The slugs that the request schemas accept: `^[a-z0-9-]+$`, of 3 to 100 characters. -/
def isSlug (s : String) : Bool := 3 ≤ s.length && s.length ≤ 100 && s.toList.all isSlugChar

/-- The `max_length` of `git_branch` in the request schemas. -/
def isGitBranch (branch : Option String) : Bool := branch.all fun b => b.length ≤ 100

structure CreateApplicationRequest where
  slug : String
  repositoryId : Option Uuid
  gitBranch : Option String
  deriving DecidableEq

def createApplication (db : Db) (workspaceId : Uuid) (payload : CreateApplicationRequest) :
    Except ApiError Db := do
  ensure (isSlug payload.slug) (.validation "slug")
  ensure (isGitBranch payload.gitBranch) (.validation "git_branch")
  ensure (¬db.apps.rows.any (fun a => a.workspaceId = workspaceId && a.slug = payload.slug))
    (.slugExists payload.slug)
  ensureRepository db workspaceId payload.repositoryId
  -- a branch that is null is left to the default of its column
  let apps ← orError (db.apps.insert
    { id := db.nextUuid, workspaceId := workspaceId, slug := payload.slug, desiredGeneration := 1,
      currentReleaseId := none, repositoryId := payload.repositoryId,
      gitBranch := some (payload.gitBranch.getD "main"), updatedAt := db.now }) .integrity
  pure { db with apps := apps, nextUuid := db.nextUuid + 1 }

/-- The outer option of `repositoryId` says whether the field is set in the request. -/
structure UpdateApplicationRequest where
  repositoryId : Option (Option Uuid)
  gitBranch : Option String
  deriving DecidableEq

def updateApplication (db : Db) (appId : Uuid) (payload : UpdateApplicationRequest) :
    Except ApiError Db := do
  ensure (isGitBranch payload.gitBranch) (.validation "git_branch")
  let app ← orError (db.apps.get appId) (.notFound "Application not found")
  ensureRepository db app.workspaceId payload.repositoryId.join
  pure { db with
    apps := db.apps.set appId (fun a =>
      { a with repositoryId := payload.repositoryId.getD a.repositoryId,
               gitBranch := payload.gitBranch.orElse (fun _ => a.gitBranch), updatedAt := db.now }) }

/-! ### Releases -/

def releaseNumbers (db : Db) (appId : Uuid) : List Nat :=
  (db.releases.rows.filter (fun r => r.applicationId = appId)).map Release.releaseNumber

/-- `COALESCE(MAX(release_number), 0) + 1`. -/
def nextReleaseNumber (db : Db) (appId : Uuid) : Nat := (releaseNumbers db appId).max?.getD 0 + 1

/-- `INSERT INTO releases` under `uq_release_app_number`. -/
def insertRelease (db : Db) (r : Release) : Option Db :=
  if r.releaseNumber ∈ releaseNumbers db r.applicationId then none
  else (db.releases.insert r).map fun releases =>
    { db with releases := releases, nextUuid := db.nextUuid + 1 }

/-- A release as both deployment requests create it: ready, for the image it names. -/
def readyRelease (db : Db) (app : Application) (imageDigest : String) (config : ReleaseConfig) : Release :=
  { id := db.nextUuid, applicationId := app.id, workspaceId := app.workspaceId,
    releaseNumber := nextReleaseNumber db app.id, imageDigest := imageDigest, config := config,
    status := .imageReady, statusReason := none, repositoryId := none, commitSha := none,
    gitRef := none, createdAt := db.now, updatedAt := db.now }

/-- What `deploy_release` and `rollback_release` do once their image is known: reserve the service
quota, bump the generation, insert the release and announce it. -/
def acceptRelease (cfg : Settings) (db : Db) (app : Application) (imageDigest : String)
    (config : ReleaseConfig) (rollbackOf : Option Uuid) : Except ApiError Db := do
  let db₁ ← enforceWorkspaceQuota cfg db app.workspaceId .deployedService (some app.id) true
  let release := readyRelease db₁ app imageDigest config
  let apps := db₁.apps.set app.id (fun a =>
    { a with desiredGeneration := a.desiredGeneration + 1, updatedAt := db.now })
  let db₂ ← orError (insertRelease { db₁ with apps := apps } release) .integrity
  pure (insertOutbox db₂ app.workspaceId (.appDeploymentRequested app.id release.id
    (app.desiredGeneration + 1) imageDigest config rollbackOf))

structure DeployReleaseRequest where
  imageDigest : String
  config : ReleaseConfig
  deriving DecidableEq

def DeployReleaseRequest.validate (payload : DeployReleaseRequest) : Except ApiError Unit := do
  ensure (5 ≤ payload.imageDigest.length) (.validation "image_digest")
  ensure (1 ≤ payload.config.port ∧ payload.config.port ≤ 65535) (.validation "port")

def deployRelease (cfg : Settings) (db : Db) (appId : Uuid) (payload : DeployReleaseRequest) :
    Except ApiError Db := do
  payload.validate
  let app ← orError (db.apps.get appId) (.notFound "Application not found")
  validateImagePolicy cfg payload.imageDigest
  acceptRelease cfg db app payload.imageDigest payload.config none

def rollbackRelease (cfg : Settings) (db : Db) (appId targetReleaseId : Uuid) : Except ApiError Db := do
  let app ← orError (db.apps.get appId) (.notFound "Application not found")
  let target ← orError ((db.releases.get targetReleaseId).filter (fun r => r.applicationId = appId))
    (.notFound "Target release not found for this application")
  acceptRelease cfg db app target.imageDigest target.config (some targetReleaseId)

/-! ### Source builds -/

def defaultReleaseConfig : ReleaseConfig := ⟨8080, "/healthz"⟩

/-- The configuration of the newest release of an application. -/
def latestConfig (db : Db) (appId : Uuid) : ReleaseConfig :=
  match (db.releases.rows.filter (fun r => r.applicationId = appId)).find?
      (fun r => some r.releaseNumber = (releaseNumbers db appId).max?) with
  | some r => r.config
  | none => defaultReleaseConfig

/-- The commit is taken after `strip()`. -/
structure TriggerBuildRequest where
  commitSha : Option String
  gitRef : String
  port : Option Nat
  healthPath : Option String
  deriving DecidableEq

def isHexDigit (c : Char) : Bool :=
  ('0' ≤ c && c ≤ '9') || ('a' ≤ c && c ≤ 'f') || ('A' ≤ c && c ≤ 'F')

/-- `^[0-9a-fA-F]{7,40}$`. -/
def isCommitSha (s : String) : Bool := 7 ≤ s.length && s.length ≤ 40 && s.toList.all isHexDigit

/-- A release that waits for its image. -/
def pendingRelease (db : Db) (app : Application) (repositoryId : Uuid) (releaseNumber : Nat)
    (config : ReleaseConfig) (commitSha : Option String) (gitRef : String) : Release :=
  { id := db.nextUuid, applicationId := app.id, workspaceId := app.workspaceId,
    releaseNumber := releaseNumber, imageDigest := "pending", config := config,
    status := .requested, statusReason := none, repositoryId := some repositoryId,
    commitSha := commitSha, gitRef := some gitRef, createdAt := db.now, updatedAt := db.now }

def triggerBuild (cfg : Settings) (db : Db) (appId : Uuid) (payload : TriggerBuildRequest) :
    Except ApiError Db := do
  let app ← orError (db.apps.get appId) (.notFound "Application not found")
  let repositoryId ← orError app.repositoryId .noRepository
  ensure (payload.commitSha.all (fun s => s = "" || isCommitSha s)) (.validation "commit_sha")
  let gitRef := if payload.gitRef ≠ "" then payload.gitRef else (app.gitBranch.filter (· ≠ "")).getD "main"
  let db₁ ← enforceWorkspaceQuota cfg db app.workspaceId .concurrentBuild none true
  let base := latestConfig db₁ appId
  let config := ⟨payload.port.getD base.port, payload.healthPath.getD base.healthPath⟩
  let release := pendingRelease db₁ app repositoryId (nextReleaseNumber db₁ appId) config
    payload.commitSha gitRef
  let db₂ ← orError (insertRelease db₁ release) .integrity
  pure (insertOutbox db₂ app.workspaceId
    (.appBuildRequested release.id appId repositoryId payload.commitSha gitRef))

/-- What the push branch of the webhook handler has read for one matched application. -/
structure PlannedBuild where
  app : Application
  releaseNumber : Nat
  config : ReleaseConfig
  deriving DecidableEq

structure WebhookPlan where
  repositoryId : Uuid
  commitSha : String
  branch : String
  builds : List PlannedBuild
  deriving DecidableEq

/-- The widths of `releases.commit_sha` and `releases.git_ref`. -/
def WebhookPlan.fitsColumns (plan : WebhookPlan) : Bool := plan.commitSha.length ≤ 40 && plan.branch.length ≤ 100

/-- The reads of `handle_github_webhook` for a push to a branch. -/
def readWebhook (db : Db) (repositoryId : Uuid) (commitSha branch : String) : Except ApiError WebhookPlan := do
  let repo ← orError (db.repositories.get repositoryId) (.notFound "Repository not found")
  let matched := db.apps.rows.filter fun a => a.workspaceId = repo.workspaceId &&
    a.repositoryId = some repositoryId && (a.gitBranch = some branch || a.gitBranch = none)
  pure ⟨repositoryId, commitSha, branch,
    matched.map (fun a => ⟨a, nextReleaseNumber db a.id, latestConfig db a.id⟩)⟩

/-- The release and the event of one planned build. -/
def insertPlanned (plan : WebhookPlan) (db : Db) (build : PlannedBuild) : Except ApiError Db := do
  ensure plan.fitsColumns .dataError
  let release := pendingRelease db build.app plan.repositoryId build.releaseNumber build.config
    (some plan.commitSha) plan.branch
  let db₁ ← orError (insertRelease db release) .integrity
  pure (insertOutbox db₁ build.app.workspaceId
    (.appBuildRequested release.id build.app.id plan.repositoryId (some plan.commitSha) plan.branch))

/-- The commit of `handle_github_webhook`: one pending release and one event per planned build. -/
def commitWebhook (db : Db) (plan : WebhookPlan) : Except ApiError Db := plan.builds.foldlM (insertPlanned plan) db

end HamiCloud
