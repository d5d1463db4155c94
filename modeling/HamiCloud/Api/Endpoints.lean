import HamiCloud.Api.Server

/-!
# The endpoints

The handlers of `app/api/v1` that are addressed by a workspace, an application, a job, an operation or a repository, each
under its name in the source. What FastAPI checks before a handler starts (the schema of the payload, path, query and
headers) depends on the request alone and comes first.
-/

namespace HamiCloud

open Library

/-- An item of a listing: its row, and what is loaded with it. -/
inductive ListedItem
  | application (app : Application)
  | release (rel : Release)
  | job (job : Job) (attempts : List JobAttempt)
  /-- the job is loaded for its name -/
  | deadLetter (record : DeadLetterRecord) (job : Option Job)
  | repository (repo : Repository)
  | auditEvent (event : AuditRow)
  deriving DecidableEq

/-- The bodies of the responses. -/
inductive ApiResponse
  | accepted (operationId : Uuid)
  | workspace (ws : Workspace)
  | member (m : WorkspaceMembership)
  | members (items : List WorkspaceMembership)
  | memberRemoved (userSubject : String)
  | application (app : Application)
  | release (rel : Release)
  | job (job : Job) (attempts : List JobAttempt)
  | output (text : String)
  | operation (row : OperationRow)
  | repository (repo : Repository)
  | secret (id : Uuid) (name : String) (keyVersion : Nat)
  | secrets (items : List (Uuid × String × Nat))
  | page (items : List ListedItem) (nextCursor : Option String)
  | quotas (usage : QuotaUsage) (reservations : List QuotaReservation)
  | telemetry (activeLeases queuedJobs runningJobs healthyServices totalAttempts retryAttempts deadLetters : Nat)
      (oldestQueuedAge : Time)
  | noContent
  deriving DecidableEq

namespace Endpoints

variable (env : ApiEnv) (caller : Caller)

/-! ### Workspaces -/

def getWorkspace (workspaceId : Uuid) : ApiHandler ApiResponse := do
  let _ ← authorize caller workspaceId .viewer "Workspace not found"
  let ws ← Handler.observe fun s => notFound (s.workspaces.get workspaceId) "Workspace not found"
  pure (.workspace ws)

def listWorkspaceMembers (workspaceId : Uuid) : ApiHandler ApiResponse := do
  let _ ← authorize caller workspaceId .viewer "Workspace not found"
  let members ← Handler.observe fun s => .ok (s.memberships.rows.filter fun m => m.key.workspaceId = workspaceId)
  pure (.members (orderBy (fun m => (env.createdAt m.id).val) members))

/-- The tables of the member handlers, as a part of the state. -/
def memberDb (s : ApiState) : MemberDb := ⟨s.workspaces, s.memberships, [], s.db.nextUuid⟩

def putMembers (s : ApiState) (db : MemberDb) : ApiState :=
  { s with memberships := db.memberships, db := { s.db with nextUuid := db.nextUuid } }

/-- The steps of a member handler without interruption. -/
def runMemberRequest (db : MemberDb) (h : MemberHandler) : Except ApiError MemberDb := do
  match ← h.select db with
  | .ready existing => h.commit db existing
  | .locking existing => do
    let _ ← h.count db existing
    h.commit db (some existing)
  | _ => .error .exception

def upsertWorkspaceMember (workspaceId : Uuid) (userSubject : String) (role : WorkspaceRole) :
    ApiHandler ApiResponse := do
  let request : MemberRequest := .upsert workspaceId userSubject role
  Handler.check (toHttp (ensure request.isValid (.validation "user_subject")))
  let membership ← authorize caller workspaceId .admin "Workspace not found"
  Handler.check (toHttp (ensure (role = .owner → membership.role = .owner)
    (.forbidden "Only workspace OWNER can grant OWNER role")))
  Handler.transact fun s => do
    let db ← toHttp (runMemberRequest (memberDb s) ⟨caller, request, membership, .authorized⟩)
    let s₁ := (putMembers s db).record workspaceId caller "workspace.member.upserted" "WORKSPACE_MEMBER"
      (.name (strip userSubject))
    let m ← notFound (db.memberships.find request.key) "Workspace member not found"
    pure (.member m, s₁)

def removeWorkspaceMember (workspaceId : Uuid) (userSubject : String) : ApiHandler ApiResponse := do
  let request : MemberRequest := .remove workspaceId userSubject
  Handler.check (toHttp (ensure request.isValid (.validation "user_subject")))
  let membership ← authorize caller workspaceId .admin "Workspace not found"
  Handler.transact fun s => do
    let db ← toHttp (runMemberRequest (memberDb s) ⟨caller, request, membership, .authorized⟩)
    pure (.memberRemoved userSubject,
      (putMembers s db).record workspaceId caller "workspace.member.removed" "WORKSPACE_MEMBER" (.name userSubject))

/-! ### Listings -/

/-- The checks of a listing's parameters. -/
def validateListing (l : Listing) (limit : Option Nat) : Except ApiError Unit := do
  ensure (1 ≤ limit.getD l.defaultLimit ∧ limit.getD l.defaultLimit ≤ 100) (.validation "limit")
  ensure l.validAction (.validation "action")

/-- The attempts of a job, in the order of the relationship. -/
def jobAttempts (s : ApiState) (jobId : Uuid) : List JobAttempt :=
  orderBy JobAttempt.attemptNumber (s.db.attempts.rows.filter fun a => a.jobId = jobId)

/-- How a listing reads its rows: the table, the id, the scope and the action of a row, and the item that is made of
it. -/
structure ListedTable (α : Type) where
  rows : ApiState → List α
  id : α → Uuid
  scopeId : α → Uuid
  action : α → String
  item : ApiState → α → ListedItem

def ListedTable.row {α : Type} (t : ListedTable α) (a : α) : ListedRow :=
  ⟨t.id a, t.scopeId a, env.createdAt (t.id a), t.action a⟩

def listPage {α : Type} (l : Listing) (t : ListedTable α) (scopeId : Uuid) (limit : Option Nat)
    (cursor : Option String) : ApiHandler ApiResponse :=
  Handler.observe fun s => do
    let (found, nextCursor) ← toHttp (l.list env.formats (t.row env) scopeId (t.rows s) limit cursor)
    pure (.page (found.map (t.item s)) nextCursor)

/-- A listing of a workspace. -/
def listWorkspaceRows {α : Type} (l : Listing) (minRole : WorkspaceRole) (t : ListedTable α) (workspaceId : Uuid)
    (limit : Option Nat) (cursor : Option String) : ApiHandler ApiResponse := do
  Handler.check (toHttp (validateListing l limit))
  let _ ← authorize caller workspaceId minRole "Workspace not found"
  listPage env l t workspaceId limit cursor

def listedApplications : ListedTable Application :=
  ⟨fun s => s.db.apps.rows, Application.id, Application.workspaceId, fun _ => "", fun _ a => .application a⟩

def listWorkspaceApplications : Uuid → Option Nat → Option String → ApiHandler ApiResponse :=
  listWorkspaceRows env caller .workspaceApplications .viewer listedApplications

def listedJobs : ListedTable Job :=
  ⟨fun s => s.db.jobs.rows, Job.id, Job.workspaceId, fun _ => "", fun s j => .job j (jobAttempts s j.id)⟩

def listWorkspaceJobs : Uuid → Option Nat → Option String → ApiHandler ApiResponse :=
  listWorkspaceRows env caller .workspaceJobs .viewer listedJobs

def listedDeadLetters : ListedTable DeadLetterRecord :=
  ⟨fun s => s.db.deadLetters.rows, DeadLetterRecord.jobId, DeadLetterRecord.workspaceId, fun _ => "",
    fun s r => .deadLetter r (s.db.jobs.get r.jobId)⟩

def listWorkspaceDeadLetterRecords : Uuid → Option Nat → Option String → ApiHandler ApiResponse :=
  listWorkspaceRows env caller .workspaceDeadLetterRecords .viewer listedDeadLetters

def listedRepositories : ListedTable Repository :=
  ⟨fun s => s.db.repositories.rows, Repository.id, Repository.workspaceId, fun _ => "", fun _ r => .repository r⟩

def listRepositories : Uuid → Option Nat → Option String → ApiHandler ApiResponse :=
  listWorkspaceRows env caller .repositories .viewer listedRepositories

def listedAuditEvents : ListedTable AuditRow :=
  ⟨fun s => s.audit, AuditRow.id, AuditRow.workspaceId, AuditRow.action, fun _ e => .auditEvent e⟩

def listWorkspaceAuditEvents (action : Option String) : Uuid → Option Nat → Option String → ApiHandler ApiResponse :=
  listWorkspaceRows env caller (.workspaceAuditEvents action) .admin listedAuditEvents

def listedReleases : ListedTable Release :=
  ⟨fun s => s.db.releases.rows, Release.id, Release.applicationId, fun _ => "", fun _ r => .release r⟩

def listReleases (appId : Uuid) (limit : Option Nat) (cursor : Option String) : ApiHandler ApiResponse := do
  Handler.check (toHttp (validateListing .releases limit))
  let app ← accessApplication caller appId .viewer
  listPage env .releases listedReleases app.id limit cursor

/-! ### Applications -/

def CreateApplicationRequest.validate (payload : CreateApplicationRequest) : Except ApiError Unit := do
  ensure (isSlug payload.slug) (.validation "slug")
  ensure (isGitBranch payload.gitBranch) (.validation "git_branch")

def createApplication (workspaceId : Uuid) (payload : CreateApplicationRequest) : ApiHandler ApiResponse := do
  Handler.check (toHttp (CreateApplicationRequest.validate payload))
  let _ ← authorize caller workspaceId .developer "Workspace not found"
  Handler.transact fun s => do
    let db ← toHttp (HamiCloud.createApplication s.db workspaceId payload)
    let app ← notFound (db.apps.get s.db.nextUuid) "Application not found"
    pure (.application app, { s with db := db }.record workspaceId caller "app.created" "APPLICATION" (.row app.id))

def getApplication (appId : Uuid) : ApiHandler ApiResponse := do
  let app ← accessApplication caller appId .viewer
  pure (.application app)

def updateApplication (appId : Uuid) (payload : UpdateApplicationRequest) : ApiHandler ApiResponse := do
  Handler.check (toHttp (ensure (isGitBranch payload.gitBranch) (.validation "git_branch")))
  let _ ← accessApplication caller appId .developer
  Handler.transact fun s => do
    let db ← toHttp (HamiCloud.updateApplication s.db appId payload)
    let app ← notFound (db.apps.get appId) "Application not found"
    pure (.application app, { s with db := db })

def deployRelease (header : String) (appId : Uuid) (payload : DeployReleaseRequest) : ApiHandler ApiResponse := do
  let idempotencyKey ← Handler.check (toHttp (getIdempotencyKey header))
  Handler.check (toHttp payload.validate)
  let app ← accessApplication caller appId .developer
  Handler.check (toHttp (validateImagePolicy env.cfg payload.imageDigest))
  let operationId ← runOperation env caller app.workspaceId (.deployRelease appId payload) idempotencyKey
  pure (.accepted operationId)

def rollbackRelease (header : String) (appId targetReleaseId : Uuid) : ApiHandler ApiResponse := do
  let idempotencyKey ← Handler.check (toHttp (getIdempotencyKey header))
  let app ← accessApplication caller appId .developer
  let operationId ← runOperation env caller app.workspaceId (.rollbackRelease appId targetReleaseId) idempotencyKey
  pure (.accepted operationId)

/-- The schema of the payload. -/
def TriggerBuildRequest.validate (payload : TriggerBuildRequest) : Except ApiError Unit := do
  ensure (payload.gitRef.length ≤ 100) (.validation "git_ref")
  ensure (payload.port.all fun p => 1 ≤ p ∧ p ≤ 65535) (.validation "port")
  ensure (payload.healthPath.all fun p => p.length ≤ 255) (.validation "health_path")

def triggerBuild (appId : Uuid) (payload : TriggerBuildRequest) : ApiHandler ApiResponse := do
  Handler.check (toHttp (TriggerBuildRequest.validate payload))
  let app ← accessApplication caller appId .developer
  Handler.check (toHttp (do
    let _ ← orError app.repositoryId .noRepository
    ensure (payload.commitSha.all (fun sha => sha = "" || isCommitSha sha)) (.validation "commit_sha")))
  checkWorkspaceRateLimit env app.workspaceId "apps.build"
  Handler.transact fun s => do
    let db ← toHttp (HamiCloud.triggerBuild env.cfg s.db appId payload)
    let rel ← notFound (db.releases.get (db.nextUuid - 1)) "Release not found"
    pure (.release rel, { s with db := db }.record app.workspaceId caller "app.build.triggered" "RELEASE" (.row rel.id))

/-! ### Jobs -/

def submitJob (header : String) (workspaceId : Uuid) (payload : SubmitJobRequest) : ApiHandler ApiResponse := do
  let idempotencyKey ← Handler.check (toHttp (getIdempotencyKey header))
  Handler.check (toHttp payload.validate)
  let _ ← authorize caller workspaceId .developer "Workspace not found"
  Handler.check (toHttp (validateImagePolicy env.cfg payload.imageDigest))
  let operationId ← runOperation env caller workspaceId (.submitJob workspaceId payload) idempotencyKey
  pure (.accepted operationId)

def getJob (jobId : Uuid) : ApiHandler ApiResponse := do
  let job ← accessJob caller jobId .viewer
  let attempts ← Handler.observe fun s => .ok (jobAttempts s jobId)
  pure (.job job attempts)

def cancelJob (header : String) (jobId : Uuid) : ApiHandler ApiResponse := do
  let idempotencyKey ← Handler.check (toHttp (getIdempotencyKey header))
  let job ← accessJob caller jobId .developer
  let operationId ← runOperation env caller job.workspaceId (.cancelJob jobId) idempotencyKey
  pure (.accepted operationId)

def rerunJob (header : String) (jobId : Uuid) : ApiHandler ApiResponse := do
  let idempotencyKey ← Handler.check (toHttp (getIdempotencyKey header))
  let job ← accessJob caller jobId .developer
  let operationId ← runOperation env caller job.workspaceId (.rerunJob jobId) idempotencyKey
  pure (.accepted operationId)

def getJobOutput (jobId : Uuid) : ApiHandler ApiResponse := do
  let job ← accessJob caller jobId .viewer
  Handler.check (toHttp (ensure (job.state.isTerminal = true)
    (.conflict "Job is still executing, output is not yet available")))
  if env.hasArtifactsDir then
    let text ← Handler.check (notFound (env.artifact job.workspaceId job.id) "Job output artifact not found")
    pure (.output text)
  else throw (.internal "Artifacts storage directory is not configured")

/-! ### Operations -/

def getOperationStatus (operationId : Uuid) : ApiHandler ApiResponse := do
  let row ← accessOperation caller operationId
  pure (.operation row)

def streamOperationEvents (operationId : Uuid) : ApiHandler ApiResponse := do
  let _ ← accessOperation caller operationId
  throw (.notImplemented "Server-Sent Events streaming is not yet implemented in M0 baseline")

/-! ### Repositories -/

def createRepository (workspaceId : Uuid) (repoUrl : String) : ApiHandler ApiResponse := do
  Handler.check (toHttp (ensure (5 ≤ repoUrl.length ∧ repoUrl.length ≤ 255) (.validation "repo_url")))
  let _ ← authorize caller workspaceId .developer "Workspace not found"
  let _ ← Handler.check (toHttp (validateRepoUrl env.urls env.approvedRepositoryHosts repoUrl))
  Handler.transact fun s => do
    let db ← toHttp (HamiCloud.createRepository s.db workspaceId)
    let repo ← notFound (db.repositories.get s.db.nextUuid) "Repository not found"
    pure (.repository repo, { s with db := db })

def getRepository (repositoryId : Uuid) : ApiHandler ApiResponse := do
  let repo ← accessRepository caller repositoryId .viewer
  pure (.repository repo)

/-! ### Secrets -/

/-- The tables of the secret handlers, as a part of the state. -/
def secretStore (s : ApiState) : SecretStore := ⟨s.secrets, [], s.db.nextUuid⟩

def putSecrets (s : ApiState) (store : SecretStore) : ApiState :=
  { s with secrets := store.secrets, db := { s.db with nextUuid := store.nextUuid } }

def upsertWorkspaceSecret (key : SecretKey) (encryptedValue : String) : ApiHandler ApiResponse := do
  Handler.check (toHttp (ensure (isSecretName key.name) (.validation "name")))
  let _ ← authorize caller key.workspaceId .developer "Workspace not found"
  Handler.transact fun s => do
    let existing := s.secrets.find key
    let store ← toHttp (match existing with
      | none => createSecret (secretStore s) caller key encryptedValue
      | some existing => rotateSecret (secretStore s) caller key encryptedValue existing)
    let stored ← notFound (store.secrets.find key) "Secret not found"
    pure (.secret stored.id key.name stored.keyVersion,
      (putSecrets s store).record key.workspaceId caller
        (if existing.isSome then "secret.rotated" else "secret.created") "SECRET" (.name key.name))

def listWorkspaceSecrets (workspaceId : Uuid) : ApiHandler ApiResponse := do
  let _ ← authorize caller workspaceId .viewer "Workspace not found"
  let rows ← Handler.observe fun s => .ok (s.secrets.rows.filter fun x => x.key.workspaceId = workspaceId)
  pure (.secrets ((rows.insertionSort (fun x y => x.key.name ≤ y.key.name)).map
    fun x => (x.id, x.key.name, x.keyVersion)))

def deleteWorkspaceSecret (key : SecretKey) : ApiHandler ApiResponse := do
  Handler.check (toHttp (ensure (key.name ≠ "" ∧ key.name.length ≤ 100) (.validation "secret_name")))
  let _ ← authorize caller key.workspaceId .admin "Workspace not found"
  Handler.transact fun s => do
    let target ← notFound (s.secrets.find key) "Secret not found"
    pure (.noContent, (putSecrets s (deleteSecret (secretStore s) caller key target)).record key.workspaceId caller
      "secret.deleted" "SECRET" (.name key.name))

/-! ### Quotas and telemetry -/

/-- The stale reservations are expired, and the transaction is committed. -/
def getWorkspaceQuotas (workspaceId : Uuid) : ApiHandler ApiResponse := do
  let _ ← authorize caller workspaceId .viewer "Workspace not found"
  Handler.transact fun s =>
    let db := expireStaleReservations s.db workspaceId
    let active := db.reservations.rows.filter fun r =>
      r.workspaceId = workspaceId && r.status = .active && db.now < r.expiresAt
    .ok (.quotas (workspaceQuotaSummary db workspaceId) (orderBy QuotaReservation.createdAt active).reverse,
      { s with db := db })

/-- The gauges of `collect_metrics` for a workspace. -/
def workspaceTelemetry (db : Db) (workspaceId : Uuid) : ApiResponse :=
  let intents := (db.jobIntents.rows ++ db.releaseIntents.rows).filter fun i => i.workspaceId = workspaceId
  let jobs := db.jobs.rows.filter fun j => j.workspaceId = workspaceId
  let queued := jobs.filter fun j => j.state = .queued
  let attempts := db.attempts.rows.filter fun a => a.workspaceId = workspaceId
  .telemetry (intents.countP fun i => i.status = .claimed) queued.length
    (jobs.countP fun j => j.state ∈ quotaActiveJobStates)
    (db.releases.rows.countP fun r => r.workspaceId = workspaceId && r.status = .healthy) attempts.length
    (attempts.countP fun a => 1 < a.attemptNumber)
    (db.deadLetters.rows.countP fun r => r.workspaceId = workspaceId)
    (((queued.map Job.createdAt).min?.map fun oldest => db.now - oldest).getD 0)

def getWorkspaceTelemetry (workspaceId : Uuid) : ApiHandler ApiResponse := do
  let _ ← authorize caller workspaceId .viewer "Workspace not found"
  Handler.observe fun s => .ok (workspaceTelemetry s.db workspaceId)

end Endpoints

/-! ### Requests -/

inductive ApiRequest
  | getWorkspace (workspaceId : Uuid)
  | listWorkspaceMembers (workspaceId : Uuid)
  | upsertWorkspaceMember (workspaceId : Uuid) (userSubject : String) (role : WorkspaceRole)
  | removeWorkspaceMember (workspaceId : Uuid) (userSubject : String)
  | listWorkspaceApplications (workspaceId : Uuid) (limit : Option Nat) (cursor : Option String)
  | listWorkspaceJobs (workspaceId : Uuid) (limit : Option Nat) (cursor : Option String)
  | listWorkspaceDeadLetterRecords (workspaceId : Uuid) (limit : Option Nat) (cursor : Option String)
  | listRepositories (workspaceId : Uuid) (limit : Option Nat) (cursor : Option String)
  | listWorkspaceAuditEvents (action : Option String) (workspaceId : Uuid) (limit : Option Nat) (cursor : Option String)
  | listReleases (appId : Uuid) (limit : Option Nat) (cursor : Option String)
  | createApplication (workspaceId : Uuid) (payload : CreateApplicationRequest)
  | getApplication (appId : Uuid)
  | updateApplication (appId : Uuid) (payload : UpdateApplicationRequest)
  | deployRelease (header : String) (appId : Uuid) (payload : DeployReleaseRequest)
  | rollbackRelease (header : String) (appId targetReleaseId : Uuid)
  | triggerBuild (appId : Uuid) (payload : TriggerBuildRequest)
  | submitJob (header : String) (workspaceId : Uuid) (payload : SubmitJobRequest)
  | getJob (jobId : Uuid)
  | cancelJob (header : String) (jobId : Uuid)
  | rerunJob (header : String) (jobId : Uuid)
  | getJobOutput (jobId : Uuid)
  | getOperationStatus (operationId : Uuid)
  | streamOperationEvents (operationId : Uuid)
  | createRepository (workspaceId : Uuid) (repoUrl : String)
  | getRepository (repositoryId : Uuid)
  | upsertWorkspaceSecret (key : SecretKey) (encryptedValue : String)
  | listWorkspaceSecrets (workspaceId : Uuid)
  | deleteWorkspaceSecret (key : SecretKey)
  | getWorkspaceQuotas (workspaceId : Uuid)
  | getWorkspaceTelemetry (workspaceId : Uuid)

def ApiRequest.handler (env : ApiEnv) (caller : Caller) : ApiRequest → ApiHandler ApiResponse
  | .getWorkspace ws => Endpoints.getWorkspace caller ws
  | .listWorkspaceMembers ws => Endpoints.listWorkspaceMembers env caller ws
  | .upsertWorkspaceMember ws subject role => Endpoints.upsertWorkspaceMember caller ws subject role
  | .removeWorkspaceMember ws subject => Endpoints.removeWorkspaceMember caller ws subject
  | .listWorkspaceApplications ws limit cursor => Endpoints.listWorkspaceApplications env caller ws limit cursor
  | .listWorkspaceJobs ws limit cursor => Endpoints.listWorkspaceJobs env caller ws limit cursor
  | .listWorkspaceDeadLetterRecords ws limit cursor =>
    Endpoints.listWorkspaceDeadLetterRecords env caller ws limit cursor
  | .listRepositories ws limit cursor => Endpoints.listRepositories env caller ws limit cursor
  | .listWorkspaceAuditEvents action ws limit cursor =>
    Endpoints.listWorkspaceAuditEvents env caller action ws limit cursor
  | .listReleases app limit cursor => Endpoints.listReleases env caller app limit cursor
  | .createApplication ws payload => Endpoints.createApplication caller ws payload
  | .getApplication app => Endpoints.getApplication caller app
  | .updateApplication app payload => Endpoints.updateApplication caller app payload
  | .deployRelease header app payload => Endpoints.deployRelease env caller header app payload
  | .rollbackRelease header app target => Endpoints.rollbackRelease env caller header app target
  | .triggerBuild app payload => Endpoints.triggerBuild env caller app payload
  | .submitJob header ws payload => Endpoints.submitJob env caller header ws payload
  | .getJob job => Endpoints.getJob caller job
  | .cancelJob header job => Endpoints.cancelJob env caller header job
  | .rerunJob header job => Endpoints.rerunJob env caller header job
  | .getJobOutput job => Endpoints.getJobOutput env caller job
  | .getOperationStatus op => Endpoints.getOperationStatus caller op
  | .streamOperationEvents op => Endpoints.streamOperationEvents caller op
  | .createRepository ws url => Endpoints.createRepository env caller ws url
  | .getRepository repo => Endpoints.getRepository caller repo
  | .upsertWorkspaceSecret key value => Endpoints.upsertWorkspaceSecret caller key value
  | .listWorkspaceSecrets ws => Endpoints.listWorkspaceSecrets caller ws
  | .deleteWorkspaceSecret key => Endpoints.deleteWorkspaceSecret caller key
  | .getWorkspaceQuotas ws => Endpoints.getWorkspaceQuotas caller ws
  | .getWorkspaceTelemetry ws => Endpoints.getWorkspaceTelemetry caller ws

/-- The response to a request, and the state after it. -/
def ApiRequest.serve (env : ApiEnv) (caller : Caller) (request : ApiRequest) (s : ApiState) :
    Except HttpError ApiResponse × ApiState :=
  (request.handler env caller).outcome s

end HamiCloud
