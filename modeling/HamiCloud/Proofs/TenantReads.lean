import HamiCloud.Proofs.TenantRows
import HamiCloud.Proofs.Tenants

/-!
# What a read depends on

Requests that only read. What such a request answers about something that a workspace owns is determined by the rows
of that workspace, and it changes nothing: a read commutes with the restriction of the state to the workspace. The rows
have to be under the workspace of their parent, as they are in every reachable database.
-/

namespace HamiCloud

open Library

/-- The state with one workspace and its rows. -/
def ApiState.only (s : ApiState) (ws : Uuid) : ApiState := s.restrict (· = ws)

/-- The requests that read rows and commit nothing. `get_workspace_quotas` is none of them, since it expires reservations,
nor is `get_workspace_telemetry`: its answer has the request counts and latencies of the whole process, which are not part
of the state. -/
def ApiRequest.isRead : ApiRequest → Bool
  | .getWorkspace _ | .listWorkspaceMembers _ | .listWorkspaceApplications _ _ _ | .listWorkspaceJobs _ _ _
  | .listWorkspaceDeadLetterRecords _ _ _ | .listRepositories _ _ _ | .listWorkspaceAuditEvents _ _ _ _
  | .listReleases _ _ _ | .getApplication _ | .getJob _ | .getJobOutput _ | .getOperationStatus _
  | .streamOperationEvents _ | .getRepository _ | .listWorkspaceSecrets _ => true
  | _ => false

namespace Proofs

variable {α β : Type} {s : ApiState} {ws : Uuid} {caller : Caller} {minRole : WorkspaceRole} {detail : String}

/-! ### Programs that read -/

/-- The program leaves the state as it is, and its result is the one that the rows of the workspace give. -/
def ReadsWithin (ws : Uuid) (x : ApiHandler α) (s : ApiState) : Prop :=
  Handler.KeepsAt id x s ∧ Handler.CommutesAt (ApiState.only · ws) x s

lemma ReadsWithin.pure (a : α) : ReadsWithin ws (pure a) s := ⟨.pure a, .pure a⟩

lemma ReadsWithin.throw (e : HttpError) : ReadsWithin ws (throw e : ApiHandler α) s := ⟨.throw e, .throw e⟩

lemma ReadsWithin.check (x : Except HttpError α) : ReadsWithin ws (Handler.check x) s := ⟨.check x, .check x⟩

lemma ReadsWithin.observe {f : ApiState → Except HttpError α} (h : f (s.only ws) = f s) :
    ReadsWithin ws (Handler.observe f) s :=
  ⟨.observe f, .observe h⟩

lemma ReadsWithin.bind {x : ApiHandler α} {f : α → ApiHandler β} (hx : ReadsWithin ws x s)
    (hf : ∀ a, x.outcome s = (.ok a, s) → ReadsWithin ws (f a) s) : ReadsWithin ws (x >>= f) s := by
  obtain ⟨hkeeps, hcommutes⟩ := hx
  have hnext : ∀ a t, x.outcome s = (.ok a, t) → ReadsWithin ws (f a) t := by
    intro a t h
    obtain rfl : t = s := by
      rw [Handler.KeepsAt, h] at hkeeps
      exact hkeeps
    exact hf a h
  exact ⟨hkeeps.bind fun a t h => (hnext a t h).1, hcommutes.bind fun a t h => (hnext a t h).2⟩

/-! ### Rows of the workspace -/

lemma filter_filter_of_imp {rows : List α} {p q : α → Bool} (h : ∀ a ∈ rows, p a = true → q a = true) :
    (rows.filter q).filter p = rows.filter p := by
  rw [List.filter_filter]
  refine List.filter_congr fun a ha => ?_
  cases hp : p a with
  | false => rfl
  | true => rw [h a ha hp, Bool.and_self]

lemma filter_eq_self_of_mem {o : Option α} {p : α → Bool} (h : ∀ a ∈ o, p a = true) : o.filter p = o := by
  cases o with
  | none => rfl
  | some a => rw [Option.filter_some, if_pos (h a rfl)]

lemma get_only {κ : Type} [DecidableEq κ] {key : α → κ} {table : Table key} {workspaceId : α → Uuid} {k : κ}
    (h : ∀ r ∈ table.get k, workspaceId r = ws) :
    (table.filter fun r => decide (workspaceId r = ws)).get k = table.get k := by
  rw [Table.get_filter]
  exact filter_eq_self_of_mem fun r hr => decide_eq_true (h r hr)

lemma reads_authorize : ReadsWithin ws (authorize caller ws minRole detail) s := by
  have hfind : (s.only ws).memberships.find ⟨ws, caller.subject⟩ = s.memberships.find ⟨ws, caller.subject⟩ := by
    rw [ApiState.only, ApiState.restrict, UniqueTable.find_filter]
    refine filter_eq_self_of_mem fun m hm => decide_eq_true ?_
    rw [UniqueTable.alt_of_find hm]
  refine .observe ?_
  rw [authorizeWorkspaceAccess, authorizeWorkspaceAccess, hfind]

/-! ### Access to a row -/

lemma notFound_eq_ok {o : Option α} {a : α} (h : notFound o detail = .ok a) : o = some a := by
  cases o with
  | none => cases h
  | some b =>
    cases h
    rfl

lemma reads_accessRow {row : ApiState → Option α} {workspaceId : α → Uuid} (hrow : row (s.only ws) = row s)
    (hws : ∀ a ∈ row s, workspaceId a = ws) : ReadsWithin ws (accessRow row workspaceId caller minRole detail) s := by
  refine .bind (.observe (by rw [hrow])) fun a ha => ?_
  obtain rfl := hws a (notFound_eq_ok (congrArg Prod.fst ha))
  exact reads_authorize.bind fun _ _ => .pure a

/-- A row that a caller may access exists. -/
lemma row_of_accessRow {row : ApiState → Option α} {workspaceId : α → Uuid} {a : α}
    (h : (accessRow row workspaceId caller minRole detail).outcome s = (.ok a, s)) : row s = some a := by
  unfold accessRow at h
  cases hrow : row s with
  | none =>
    rw [Handler.outcome_bind, Handler.outcome_observe, hrow] at h
    cases h
  | some b =>
    have hfound : (Handler.observe fun s => notFound (row s) detail : ApiHandler α).outcome s = (.ok b, s) := by
      rw [Handler.outcome_observe, hrow]
      rfl
    rw [Handler.outcome_bind_ok hfound, Handler.outcome_bind] at h
    split at h
    · cases h
      rfl
    · cases h

lemma reads_accessApplication {id : Uuid} (h : Owns s ws (.application id)) :
    ReadsWithin ws (accessApplication caller id minRole) s :=
  reads_accessRow (get_only (forall_of_map_eq_some h)) (forall_of_map_eq_some h)

lemma reads_accessJob {id : Uuid} (h : Owns s ws (.job id)) : ReadsWithin ws (accessJob caller id minRole) s :=
  reads_accessRow (get_only (forall_of_map_eq_some h)) (forall_of_map_eq_some h)

lemma reads_accessRepository {id : Uuid} (h : Owns s ws (.repository id)) :
    ReadsWithin ws (accessRepository caller id minRole) s :=
  reads_accessRow (get_only (forall_of_map_eq_some h)) (forall_of_map_eq_some h)

lemma reads_accessOperation {id : Uuid} (h : Owns s ws (.operation id)) :
    ReadsWithin ws (accessOperation caller id) s := by
  obtain ⟨-, hreleases, hjobs⟩ := h
  refine reads_accessRow ?_ fun row hrow => ?_
  · have hrel : (s.only ws).db.releases.get id = s.db.releases.get id := get_only hreleases
    have hjob : (s.only ws).db.jobs.get id = s.db.jobs.get id := get_only hjobs
    rw [findOperation, findOperation, hrel, hjob]
  · have hrow : findOperation s id = some row := hrow
    unfold findOperation at hrow
    split at hrow
    · rename_i rel hrel
      cases hrow
      exact hreleases rel hrel
    · obtain ⟨j, hj, rfl⟩ := Option.map_eq_some_iff.mp hrow
      exact hjobs j hj

/-! ### Listings -/

/-- A listing sees the rows of its scope only. -/
lemma list_filter {F : TextFormats} {l : Listing} {rows : List α} {row : α → ListedRow} {q : α → Bool} {scopeId : Uuid}
    {limit : Option Nat} {cursor : Option String} (hq : ∀ a ∈ rows, (row a).scopeId = scopeId → q a = true) :
    l.list F row scopeId (rows.filter q) limit cursor = l.list F row scopeId rows limit cursor := by
  have hrows : ((rows.filter q).filter fun a => l.selects scopeId (row a)) =
      rows.filter fun a => l.selects scopeId (row a) := by
    refine filter_filter_of_imp fun a ha hsel => ?_
    exact hq a ha (of_decide_eq_true (Bool.and_eq_true_iff.mp hsel).1)
  unfold Listing.list
  rw [hrows]

/-- What is listed are rows of the scope. -/
lemma mem_of_list {F : TextFormats} {l : Listing} {rows found : List α} {row : α → ListedRow} {scopeId : Uuid}
    {limit : Option Nat} {cursor next : Option String} (h : l.list F row scopeId rows limit cursor = .ok (found, next)) :
    ∀ a ∈ found, a ∈ rows ∧ (row a).scopeId = scopeId := by
  have hmem : ∀ {position : Option (Instant ×ₗ Uuid)} {a : α}, a ∈ Library.remaining (fun a => (row a).key) position
      (rows.filter fun a => l.selects scopeId (row a)) → a ∈ rows ∧ (row a).scopeId = scopeId := by
    intro position a ha
    obtain ⟨hrow, hsel⟩ := List.mem_filter.mp (mem_remaining.mp ha).1
    exact ⟨hrow, of_decide_eq_true (Bool.and_eq_true_iff.mp hsel).1⟩
  simp only [Listing.list, bind_eq_ok] at h
  obtain ⟨-, -, -, -, position, -, h⟩ := h
  intro a ha
  split at h
  · cases h
    exact hmem (List.mem_of_mem_take (List.mem_of_mem_take ha))
  · cases h
    exact hmem (List.mem_of_mem_take ha)

/-- A page depends on the rows of the workspace only, if the rows of the scope are rows of the workspace and what is
loaded with them is too. -/
lemma reads_listPage (env : ApiEnv) {l : Listing} {t : Endpoints.ListedTable α} {scopeId : Uuid} {q : α → Bool}
    (limit : Option Nat) (cursor : Option String) (honly : t.rows (s.only ws) = (t.rows s).filter q)
    (hq : ∀ a ∈ t.rows s, t.scopeId a = scopeId → q a = true)
    (hitem : ∀ a ∈ t.rows s, t.scopeId a = scopeId → t.item (s.only ws) a = t.item s a) :
    ReadsWithin ws (Endpoints.listPage env l t scopeId limit cursor) s := by
  refine .observe ?_
  dsimp only
  have hlists : l.list env.formats (t.row env) scopeId ((t.rows s).filter q) limit cursor =
      l.list env.formats (t.row env) scopeId (t.rows s) limit cursor := list_filter hq
  rw [honly, hlists]
  cases hlist : l.list env.formats (t.row env) scopeId (t.rows s) limit cursor with
  | error e => rfl
  | ok page =>
    obtain ⟨found, next⟩ := page
    have hitems : found.map (t.item (s.only ws)) = found.map (t.item s) :=
      List.map_congr_left fun a ha => hitem a (mem_of_list hlist a ha).1 (mem_of_list hlist a ha).2
    exact congrArg (fun items => Except.ok (ApiResponse.page items next)) hitems

lemma reads_listWorkspaceRows (env : ApiEnv) {l : Listing} {t : Endpoints.ListedTable α} (limit : Option Nat)
    (cursor : Option String) (honly : t.rows (s.only ws) = (t.rows s).filter fun a => decide (t.scopeId a = ws))
    (hitem : ∀ a ∈ t.rows s, t.scopeId a = ws → t.item (s.only ws) a = t.item s a) :
    ReadsWithin ws (Endpoints.listWorkspaceRows env caller l minRole t ws limit cursor) s := by
  refine .bind (.check _) fun _ _ => reads_authorize.bind fun _ _ => ?_
  exact reads_listPage env limit cursor honly (fun a _ ha => decide_eq_true ha) hitem

lemma reads_listReleases (env : ApiEnv) (hrows : TenantRows s.db) {appId : Uuid} (h : Owns s ws (.application appId))
    (limit : Option Nat) (cursor : Option String) :
    ReadsWithin ws (Endpoints.listReleases env caller appId limit cursor) s := by
  refine .bind (.check _) fun _ _ => (reads_accessApplication h).bind fun app happ => ?_
  have hget : s.db.apps.get appId = some app := row_of_accessRow happ
  refine reads_listPage env limit cursor rfl (fun r hr hscope => decide_eq_true ?_) fun _ _ _ => rfl
  have hid : r.applicationId = appId := hscope.trans (Table.key_of_get hget)
  rw [hrows.releases r hr app (hid ▸ hget)]
  exact forall_of_map_eq_some h app hget

/-! ### Every read -/

/-- The attempts of a job of the workspace are rows of the workspace. -/
lemma jobAttempts_only (hrows : TenantRows s.db) {job : Job} (hget : s.db.jobs.get job.id = some job)
    (hws : job.workspaceId = ws) : Endpoints.jobAttempts (s.only ws) job.id = Endpoints.jobAttempts s job.id := by
  refine congrArg (orderBy JobAttempt.attemptNumber) (filter_filter_of_imp fun a ha hid => decide_eq_true ?_)
  exact (hrows.attempts a ha job (of_decide_eq_true hid ▸ hget)).trans hws

lemma reads_getJob (hrows : TenantRows s.db) {jobId : Uuid} (h : Owns s ws (.job jobId)) :
    ReadsWithin ws (Endpoints.getJob caller jobId) s := by
  refine (reads_accessJob h).bind fun job hjob => .bind (.observe ?_) fun _ _ => .pure _
  have hget : s.db.jobs.get jobId = some job := row_of_accessRow hjob
  obtain rfl : job.id = jobId := Table.key_of_get hget
  exact congrArg Except.ok (jobAttempts_only hrows hget (forall_of_map_eq_some h job hget))

lemma reads_handler (env : ApiEnv) (caller : Caller) (hrows : TenantRows s.db) (request : ApiRequest)
    (hread : request.isRead = true) (h : Owns s ws request.target) : ReadsWithin ws (request.handler env caller) s := by
  cases request with
  | getWorkspace =>
    obtain rfl : _ = ws := h
    refine reads_authorize.bind fun _ _ => .bind (.observe ?_) fun _ _ => .pure _
    exact congrArg (notFound · _) (get_only fun r hr => Table.key_of_get hr)
  | listWorkspaceMembers | listWorkspaceSecrets =>
    obtain rfl : _ = ws := h
    refine reads_authorize.bind fun _ _ => .bind (.observe ?_) fun _ _ => .pure _
    exact congrArg Except.ok (filter_filter_of_imp fun _ _ hp => hp)
  | listWorkspaceApplications | listRepositories | listWorkspaceAuditEvents =>
    obtain rfl : _ = ws := h
    exact reads_listWorkspaceRows env _ _ rfl fun _ _ _ => rfl
  | listWorkspaceJobs =>
    obtain rfl : _ = ws := h
    refine reads_listWorkspaceRows env _ _ rfl fun j hj hws => ?_
    exact congrArg (ListedItem.job j) (jobAttempts_only hrows (Table.get_of_mem hj) hws)
  | listWorkspaceDeadLetterRecords =>
    obtain rfl : _ = ws := h
    refine reads_listWorkspaceRows env _ _ rfl fun r hr hws => ?_
    exact congrArg (ListedItem.deadLetter r) (get_only fun j hj => (hrows.deadLetters r hr j hj).symm.trans hws)
  | listReleases => exact reads_listReleases env hrows h _ _
  | getApplication => exact (reads_accessApplication h).bind fun _ _ => .pure _
  | getJob => exact reads_getJob hrows h
  | getJobOutput =>
    refine (reads_accessJob h).bind fun _ _ => .bind (.check _) fun _ _ => ?_
    split
    · exact .bind (.check _) fun _ _ => .pure _
    · exact .throw _
  | getOperationStatus => exact (reads_accessOperation h).bind fun _ _ => .pure _
  | streamOperationEvents => exact (reads_accessOperation h).bind fun _ _ => .throw _
  | getRepository => exact (reads_accessRepository h).bind fun _ _ => .pure _
  | _ => cases hread

/-- The answer to a read about something that a workspace owns is the answer of the state that has the rows of this
workspace only, for every caller, and the state stays as it is. -/
theorem reads_confined_to_tenant (env : ApiEnv) (caller : Caller) (request : ApiRequest) (s : ApiState) (ws : Uuid)
    (hread : request.isRead = true) (howns : Owns s ws request.target) (hrows : TenantRows s.db) :
    (request.serve env caller s).1 = (request.serve env caller (s.only ws)).1 ∧ (request.serve env caller s).2 = s := by
  obtain ⟨hkeeps, hcommutes⟩ := reads_handler env caller hrows request hread howns
  refine ⟨?_, hkeeps⟩
  rw [ApiRequest.serve, ApiRequest.serve, hcommutes]
  rfl

/-- Two workspaces, with a job, an attempt and a dead letter each. -/
def twoTenants : ApiState :=
  { oneTenant with
    db := { Db.empty with
      nextUuid := 9
      jobs := ⟨[⟨5, 0, 600, 3, 1, .failed, 0, 0⟩, ⟨8, 7, 600, 3, 1, .failed, 0, 0⟩], by decide⟩
      attempts := ⟨[⟨6, 5, 0, 1, .failed, 1, some 1, none, none, none, 0, 0⟩,
        ⟨9, 8, 7, 1, .failed, 1, some 1, none, none, none, 0, 0⟩], by decide⟩
      deadLetters := ⟨[⟨5, 0, 1, some 1, none, 0⟩, ⟨8, 7, 1, some 1, none, 0⟩], by decide⟩ } }

theorem reads_confined_to_tenant_jobs :
    Owns twoTenants 0 (.workspace 0) ∧ twoTenants.only 0 ≠ twoTenants ∧
      ((ApiRequest.listWorkspaceJobs 0 none none).serve plainEnv ⟨"a"⟩ twoTenants).1 =
        ((ApiRequest.listWorkspaceJobs 0 none none).serve plainEnv ⟨"a"⟩ (twoTenants.only 0)).1 ∧
      ((ApiRequest.listWorkspaceJobs 0 none none).serve plainEnv ⟨"a"⟩ twoTenants).2 = twoTenants := by
  have hrows : TenantRows twoTenants.db := by
    refine ⟨by decide, by decide, ?_⟩
    rintro r ⟨⟩
  refine ⟨rfl, fun h => ?_,
    reads_confined_to_tenant plainEnv ⟨"a"⟩ (.listWorkspaceJobs 0 none none) twoTenants 0 rfl rfl hrows⟩
  have hlength := congrArg (fun s : ApiState => s.db.jobs.rows.length) h
  revert hlength
  decide

end Proofs

end HamiCloud
