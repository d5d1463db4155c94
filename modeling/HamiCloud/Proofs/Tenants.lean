import HamiCloud.Api.Endpoints
import HamiCloud.Proofs.Listings
import HamiCloud.Proofs.RepositoryHosts

/-!
# Tenants

`ApiState.restrict` keeps the rows of some workspaces. A caller that is not a member of a workspace gets for every id of
the workspace the response that it would get if the workspace and its rows did not exist, and nothing is changed: each
handler asks for the membership before it does anything else, and both refusals have one text.
-/

namespace HamiCloud

open Library

def Db.restrict (p : Uuid → Bool) (db : Db) : Db :=
  { db with
    jobs := db.jobs.filter fun r => p r.workspaceId
    attempts := db.attempts.filter fun r => p r.workspaceId
    jobIntents := db.jobIntents.filter fun r => p r.workspaceId
    repositories := db.repositories.filter fun r => p r.workspaceId
    apps := db.apps.filter fun r => p r.workspaceId
    releases := db.releases.filter fun r => p r.workspaceId
    releaseIntents := db.releaseIntents.filter fun r => p r.workspaceId
    reservations := db.reservations.filter fun r => p r.workspaceId
    deadLetters := db.deadLetters.filter fun r => p r.workspaceId
    outbox := db.outbox.filter fun r => p r.workspaceId }

/-- The state with the workspaces that the predicate selects, and their rows. -/
def ApiState.restrict (p : Uuid → Bool) (s : ApiState) : ApiState :=
  { s with
    db := s.db.restrict p
    workspaces := s.workspaces.filter fun r => p r.id
    memberships := s.memberships.filter fun r => p r.key.workspaceId
    secrets := s.secrets.filter fun r => p r.key.workspaceId
    records := s.records.filter fun r => p r.key.workspaceId
    audit := s.audit.filter fun r => p r.workspaceId }

/-- The state with a workspace and all its rows removed. -/
def ApiState.without (s : ApiState) (ws : Uuid) : ApiState := s.restrict (· ≠ ws)

/-- What the path of a request names. -/
inductive RequestTarget
  | workspace (id : Uuid)
  | application (id : Uuid)
  | job (id : Uuid)
  | operation (id : Uuid)
  | repository (id : Uuid)

def ApiRequest.target : ApiRequest → RequestTarget
  | .getWorkspace ws | .listWorkspaceMembers ws | .upsertWorkspaceMember ws _ _ | .removeWorkspaceMember ws _
  | .listWorkspaceApplications ws _ _ | .listWorkspaceJobs ws _ _ | .listWorkspaceDeadLetterRecords ws _ _
  | .listRepositories ws _ _ | .listWorkspaceAuditEvents _ ws _ _ | .createApplication ws _ | .submitJob _ ws _
  | .createRepository ws _ | .listWorkspaceSecrets ws | .getWorkspaceQuotas ws | .getWorkspaceTelemetry ws =>
    .workspace ws
  | .upsertWorkspaceSecret key _ | .deleteWorkspaceSecret key => .workspace key.workspaceId
  | .listReleases app _ _ | .getApplication app | .updateApplication app _ | .deployRelease _ app _
  | .rollbackRelease _ app _ | .triggerBuild app _ => .application app
  | .getJob job | .cancelJob _ job | .rerunJob _ job | .getJobOutput job => .job job
  | .getOperationStatus op | .streamOperationEvents op => .operation op
  | .getRepository repo => .repository repo

namespace Proofs

/-- The workspace owns the id: it is the workspace itself, or the row that has the id is one of its rows. An operation may
be a release or a job. -/
def Owns (s : ApiState) (ws : Uuid) : RequestTarget → Prop
  | .workspace id => id = ws
  | .application id => (s.db.apps.get id).map Application.workspaceId = some ws
  | .job id => (s.db.jobs.get id).map Job.workspaceId = some ws
  | .repository id => (s.db.repositories.get id).map Repository.workspaceId = some ws
  | .operation id =>
    (findOperation s id).isSome = true ∧ (∀ r ∈ s.db.releases.get id, r.workspaceId = ws) ∧
      ∀ j ∈ s.db.jobs.get id, j.workspaceId = ws

variable {α β : Type} {s t : ApiState} {ws : Uuid} {caller : Caller} {minRole : WorkspaceRole} {detail : String}

/-! ### Refusals -/

/-- The program stops in both states with one error, and changes neither. -/
def Refuses (x : ApiHandler α) (s t : ApiState) : Prop :=
  ∃ e, x.outcome s = (.error e, s) ∧ x.outcome t = (.error e, t)

lemma Refuses.bind {x : ApiHandler α} (h : Refuses x s t) (f : α → ApiHandler β) : Refuses (x >>= f) s t := by
  obtain ⟨e, hs, ht⟩ := h
  exact ⟨e, Handler.outcome_bind_error hs, Handler.outcome_bind_error ht⟩

/-- Checks of the request come first, and are the same in both states. -/
lemma Refuses.check (x : Except HttpError α) {f : α → ApiHandler β} (h : ∀ a, Refuses (f a) s t) :
    Refuses (Handler.check x >>= f) s t := by
  cases x with
  | error e => exact ⟨e, Handler.outcome_bind_error rfl, Handler.outcome_bind_error rfl⟩
  | ok a =>
    obtain ⟨e, hs, ht⟩ := h a
    exact ⟨e, (Handler.outcome_bind_ok rfl).trans hs, (Handler.outcome_bind_ok rfl).trans ht⟩

lemma authorize_of_none (h : s.memberships.find ⟨ws, caller.subject⟩ = none) :
    (authorize caller ws minRole detail).outcome s = (.error (.api (.notFound detail)), s) := by
  rw [authorize, Handler.outcome_observe, authorizeWorkspaceAccess, h]
  rfl

lemma refuses_authorize (hnone : s.memberships.find ⟨ws, caller.subject⟩ = none) :
    Refuses (authorize caller ws minRole detail) s (s.without ws) := by
  refine ⟨_, authorize_of_none hnone, authorize_of_none ?_⟩
  rw [ApiState.without, ApiState.restrict, UniqueTable.find_filter, hnone]
  rfl

/-- A row of the workspace, and no row: the texts are the same. -/
lemma refuses_accessRow (hnone : s.memberships.find ⟨ws, caller.subject⟩ = none) {row : ApiState → Option α}
    {workspaceId : α → Uuid} (hrow : (row s).map workspaceId = some ws) (hgone : row (s.without ws) = none) :
    Refuses (accessRow row workspaceId caller minRole detail) s (s.without ws) := by
  obtain ⟨a, ha, rfl⟩ := Option.map_eq_some_iff.mp hrow
  refine ⟨.api (.notFound detail), ?_, ?_⟩
  · have hfound : (Handler.observe fun s => notFound (row s) detail : ApiHandler α).outcome s = (.ok a, s) := by
      rw [Handler.outcome_observe, ha]
      rfl
    exact (Handler.outcome_bind_ok hfound).trans (Handler.outcome_bind_error (authorize_of_none hnone))
  · refine Handler.outcome_bind_error ?_
    rw [Handler.outcome_observe, hgone]
    rfl

/-- A row whose workspace is removed is gone. -/
lemma get_without {κ : Type} [DecidableEq κ] {key : α → κ} {table : Table key} {workspaceId : α → Uuid} {k : κ}
    (h : ∀ r ∈ table.get k, workspaceId r = ws) : (table.filter fun r => decide (workspaceId r ≠ ws)).get k = none := by
  rw [Table.get_filter]
  cases hget : table.get k with
  | none => rfl
  | some r =>
    rw [Option.filter_some, if_neg]
    simp [h r hget]

lemma forall_of_map_eq_some {o : Option α} {f : α → Uuid} (h : o.map f = some ws) : ∀ r ∈ o, f r = ws := by
  rintro r hr
  rw [hr] at h
  exact Option.some.inj h

lemma refuses_accessApplication (hnone : s.memberships.find ⟨ws, caller.subject⟩ = none) {id : Uuid}
    (h : Owns s ws (.application id)) : Refuses (accessApplication caller id minRole) s (s.without ws) :=
  refuses_accessRow hnone h (get_without (forall_of_map_eq_some h))

lemma refuses_accessJob (hnone : s.memberships.find ⟨ws, caller.subject⟩ = none) {id : Uuid}
    (h : Owns s ws (.job id)) : Refuses (accessJob caller id minRole) s (s.without ws) :=
  refuses_accessRow hnone h (get_without (forall_of_map_eq_some h))

lemma refuses_accessRepository (hnone : s.memberships.find ⟨ws, caller.subject⟩ = none) {id : Uuid}
    (h : Owns s ws (.repository id)) : Refuses (accessRepository caller id minRole) s (s.without ws) :=
  refuses_accessRow hnone h (get_without (forall_of_map_eq_some h))

lemma refuses_accessOperation (hnone : s.memberships.find ⟨ws, caller.subject⟩ = none) {id : Uuid}
    (h : Owns s ws (.operation id)) : Refuses (accessOperation caller id) s (s.without ws) := by
  obtain ⟨hsome, hreleases, hjobs⟩ := h
  refine refuses_accessRow hnone ?_ ?_
  · obtain ⟨row, hrow⟩ := Option.isSome_iff_exists.mp hsome
    rw [hrow]
    unfold findOperation at hrow
    split at hrow
    · rename_i rel hrel
      cases hrow
      exact congrArg some (hreleases rel hrel)
    · obtain ⟨j, hj, rfl⟩ := Option.map_eq_some_iff.mp hrow
      exact congrArg some (hjobs j hj)
  · show findOperation (s.without ws) id = none
    have hrel : (s.without ws).db.releases.get id = none := get_without hreleases
    have hjob : (s.without ws).db.jobs.get id = none := get_without hjobs
    rw [findOperation, hrel, hjob]
    rfl

/-! ### Every endpoint -/

lemma refuses_listWorkspaceRows (env : ApiEnv) (hnone : s.memberships.find ⟨ws, caller.subject⟩ = none) (l : Listing)
    (t : Endpoints.ListedTable α) (limit : Option Nat) (cursor : Option String) :
    Refuses (Endpoints.listWorkspaceRows env caller l minRole t ws limit cursor) s (s.without ws) :=
  .check _ fun _ => (refuses_authorize hnone).bind _

lemma refuses_handler (env : ApiEnv) (hnone : s.memberships.find ⟨ws, caller.subject⟩ = none) (request : ApiRequest)
    (h : Owns s ws request.target) : Refuses (request.handler env caller) s (s.without ws) := by
  cases request with
  | getWorkspace | listWorkspaceMembers | listWorkspaceSecrets | getWorkspaceQuotas | getWorkspaceTelemetry =>
    obtain rfl : _ = ws := h
    exact (refuses_authorize hnone).bind _
  | upsertWorkspaceMember | removeWorkspaceMember | createApplication | createRepository | upsertWorkspaceSecret
  | deleteWorkspaceSecret =>
    obtain rfl : _ = ws := h
    exact .check _ fun _ => (refuses_authorize hnone).bind _
  | listWorkspaceApplications | listWorkspaceJobs | listWorkspaceDeadLetterRecords | listRepositories
  | listWorkspaceAuditEvents =>
    obtain rfl : _ = ws := h
    exact refuses_listWorkspaceRows env hnone _ _ _ _
  | submitJob =>
    obtain rfl : _ = ws := h
    exact .check _ fun _ => .check _ fun _ => (refuses_authorize hnone).bind _
  | getApplication => exact (refuses_accessApplication hnone h).bind _
  | listReleases | updateApplication | triggerBuild | rollbackRelease =>
    exact .check _ fun _ => (refuses_accessApplication hnone h).bind _
  | deployRelease => exact .check _ fun _ => .check _ fun _ => (refuses_accessApplication hnone h).bind _
  | getJob | getJobOutput => exact (refuses_accessJob hnone h).bind _
  | cancelJob | rerunJob => exact .check _ fun _ => (refuses_accessJob hnone h).bind _
  | getOperationStatus | streamOperationEvents => exact (refuses_accessOperation hnone h).bind _
  | getRepository => exact (refuses_accessRepository hnone h).bind _

/-- A caller without a membership in the workspace that owns the id gets the response of a state in which the workspace
does not exist, and changes nothing. -/
theorem cross_tenant_indistinguishable (env : ApiEnv) (caller : Caller) (request : ApiRequest) (s : ApiState) (ws : Uuid)
    (howns : Owns s ws request.target) (hnone : ∀ m ∈ s.memberships.rows, m.key ≠ ⟨ws, caller.subject⟩) :
    (request.serve env caller s).1 = (request.serve env caller (s.without ws)).1 ∧
      (request.serve env caller s).2 = s := by
  have hfind : s.memberships.find ⟨ws, caller.subject⟩ = none := by
    cases hfind : s.memberships.find ⟨ws, caller.subject⟩ with
    | none => rfl
    | some m => exact absurd (UniqueTable.alt_of_find hfind) (hnone m (UniqueTable.mem_of_find hfind))
  obtain ⟨e, hs, ht⟩ := refuses_handler env hfind request howns
  rw [ApiRequest.serve, ApiRequest.serve, hs, ht]
  exact ⟨rfl, rfl⟩

def plainEnv : ApiEnv where
  cfg := .default
  formats := pythonFormats
  urls := asciiRules
  approvedRepositoryHosts := []
  rateLimitRequestsPerMinute := 120
  failClosed := true
  payloadHash _ := ""
  createdAt _ := ⟨0, by decide⟩
  hasArtifactsDir := true
  artifact _ _ := none

/-- A workspace with one member and one queued job. -/
def oneTenant : ApiState where
  db := { Db.empty with nextUuid := 6, jobs := ⟨[⟨5, 0, 600, 3, 0, .queued, 0, 0⟩], by decide⟩ }
  workspaces := ⟨⟨[⟨0, "team"⟩], by decide⟩, by decide⟩
  memberships := ⟨⟨[⟨1, ⟨0, "a"⟩, .owner⟩], by decide⟩, by decide⟩
  secrets := .empty
  records := .empty
  audit := []
  redis := some []

theorem cross_tenant_indistinguishable_job :
    Owns oneTenant 0 (.job 5) ∧
      ((ApiRequest.cancelJob "key" 5).serve plainEnv ⟨"b"⟩ oneTenant).1 =
        ((ApiRequest.cancelJob "key" 5).serve plainEnv ⟨"b"⟩ (oneTenant.without 0)).1 ∧
      ((ApiRequest.cancelJob "key" 5).serve plainEnv ⟨"b"⟩ oneTenant).2 = oneTenant :=
  ⟨rfl, cross_tenant_indistinguishable plainEnv ⟨"b"⟩ (.cancelJob "key" 5) oneTenant 0 rfl (by decide)⟩

end Proofs

end HamiCloud
