import HamiCloud.Api.Access
import HamiCloud.Api.Idempotency
import HamiCloud.Library.Count
import HamiCloud.Library.Transition
import HamiCloud.Runtime.Naming

/-!
# Workspaces and their members

`create_workspace`, `upsert_workspace_member` and `remove_workspace_member` of `app/api/v1/workspaces.py`. A handler
reads, locks, counts and commits in steps of their own. The lock of the workspace row is held until the end of the
transaction, and the commit of any handler waits for it, because it inserts an audit event that refers to the workspace.
-/

namespace HamiCloud

open Library

inductive MemberRequest
  | upsert (workspaceId : Uuid) (userSubject : String) (role : WorkspaceRole)
  | remove (workspaceId : Uuid) (userSubject : String)
  deriving DecidableEq

/-- The membership that the handler looks up. Only the subject of an upsert is stripped. -/
def MemberRequest.key : MemberRequest → MemberKey
  | .upsert workspaceId userSubject _ => ⟨workspaceId, strip userSubject⟩
  | .remove workspaceId userSubject => ⟨workspaceId, userSubject⟩

def MemberRequest.workspaceId (request : MemberRequest) : Uuid := request.key.workspaceId

def MemberRequest.grantsOwner : MemberRequest → Bool
  | .upsert _ _ role => role = .owner
  | .remove _ _ => false

/-- What the schema of the payload, or that of the path, asks of the subject. -/
def MemberRequest.isValid : MemberRequest → Bool
  | .upsert _ userSubject _ | .remove _ userSubject => 1 ≤ userSubject.length && userSubject.length ≤ 255

structure MemberDb where
  workspaces : UniqueTable Workspace.id Workspace.slug
  memberships : Memberships
  audit : List WorkspaceAuditEvent
  nextUuid : Uuid

/-- The owners of a workspace, as they are counted. -/
def MemberDb.ownerCount (db : MemberDb) (workspaceId : Uuid) : Nat :=
  db.memberships.toTable.count fun m => m.key.workspaceId = workspaceId && m.role = .owner

/-! ### Handlers -/

/-- How far a handler is. `ready` has nothing to check; the others have found an owner that is to lose its role. -/
inductive MemberPhase
  | authorized
  | ready (existing : Option WorkspaceMembership)
  | locking (existing : WorkspaceMembership)
  | locked (existing : WorkspaceMembership)
  | counted (existing : WorkspaceMembership)
  deriving DecidableEq

/-- A handler whose caller is authorized, by the membership that was read then. -/
structure MemberHandler where
  caller : Caller
  request : MemberRequest
  callerMembership : WorkspaceMembership
  phase : MemberPhase
  deriving DecidableEq

/-- The handler has the lock of the row of the workspace. -/
def MemberHandler.holdsLock (h : MemberHandler) (workspaceId : Uuid) : Bool :=
  h.request.workspaceId = workspaceId &&
    match h.phase with
    | .locked _ | .counted _ => true
    | _ => false

def authorizeMemberRequest (db : MemberDb) (caller : Caller) (request : MemberRequest) :
    Except ApiError MemberHandler := do
  ensure request.isValid (.validation "user_subject")
  let membership ← authorizeWorkspaceAccess db.memberships caller request.workspaceId .admin "Workspace not found"
  ensure (request.grantsOwner → membership.role = .owner) (.forbidden "Only workspace OWNER can grant OWNER role")
  pure ⟨caller, request, membership, .authorized⟩

/-- What the session returns for a row: an entity that it has loaded before is not read again. -/
def MemberHandler.loaded (h : MemberHandler) (row : WorkspaceMembership) : WorkspaceMembership :=
  if row.id = h.callerMembership.id then h.callerMembership else row

/-- The handler's `SELECT` of the membership, and what it checks at once. -/
def MemberHandler.select (h : MemberHandler) (db : MemberDb) : Except ApiError MemberPhase :=
  match h.request, (db.memberships.find h.request.key).map h.loaded with
  | .upsert _ _ _, none => .ok (.ready none)
  | .upsert _ _ role, some existing => do
    ensure (existing.role = .owner → h.callerMembership.role = .owner)
      (.forbidden "Only workspace OWNER can modify an existing OWNER membership")
    pure (if existing.role = .owner ∧ role ≠ .owner then .locking existing else .ready (some existing))
  | .remove _ _, none => .error (.notFound "Workspace member not found")
  | .remove _ _, some target => do
    ensure (target.role = .owner → h.callerMembership.role = .owner)
      (.forbidden "Only workspace OWNER can remove an OWNER member")
    pure (if target.role = .owner then .locking target else .ready (some target))

def MemberRequest.lastOwnerDetail : MemberRequest → String
  | .upsert _ _ _ => "Cannot demote the last OWNER of a workspace"
  | .remove _ _ => "Cannot remove the last OWNER of a workspace"

def MemberHandler.count (h : MemberHandler) (db : MemberDb) (existing : WorkspaceMembership) :
    Except ApiError MemberPhase := do
  ensure (1 < db.ownerCount h.request.workspaceId) (.unprocessable h.request.lastOwnerDetail)
  pure (.counted existing)

/-! ### Commits -/

/-- The audit event of a handler; its target has to fit into `target_id`. -/
def MemberDb.record (db : MemberDb) (caller : Caller) (key : MemberKey) (action : WorkspaceAuditAction) :
    Except ApiError MemberDb := do
  ensure (key.userSubject.length ≤ 100) .dataError
  pure { db with audit := db.audit ++ [⟨key.workspaceId, caller.subject, action⟩] }

def MemberDb.insertMember (db : MemberDb) (caller : Caller) (key : MemberKey) (role : WorkspaceRole) :
    Except ApiError MemberDb := do
  let memberships ← orError (db.memberships.insert ⟨db.nextUuid, key, role⟩)
    (.conflict ("Membership for '" ++ key.userSubject ++ "' already exists in this workspace"))
  { db with memberships := memberships, nextUuid := db.nextUuid + 1 }.record caller key
    (.memberUpserted key.userSubject role)

def setRole (memberships : Memberships) (id : Uuid) (role : WorkspaceRole) : Memberships :=
  memberships.set id fun m => { m with role := role }

/-- The row is written by its id, and only if the role differs from the one that was read. -/
def MemberDb.updateMember (db : MemberDb) (caller : Caller) (key : MemberKey) (role : WorkspaceRole)
    (existing : WorkspaceMembership) : Except ApiError MemberDb := do
  let action := WorkspaceAuditAction.memberUpserted key.userSubject role
  if existing.role = role then db.record caller key action
  else do
    ensure (db.memberships.get existing.id).isSome .exception
    { db with memberships := setRole db.memberships existing.id role }.record caller key action

/-- That the row is gone already raises a warning alone. -/
def MemberDb.removeMember (db : MemberDb) (caller : Caller) (key : MemberKey) (target : WorkspaceMembership) :
    Except ApiError MemberDb :=
  { db with memberships := db.memberships.erase target.id }.record caller key
    (.memberRemoved key.userSubject target.role)

/-- The entity that the handler is about to write, and whether it may write at all. -/
def MemberPhase.toCommit : MemberPhase → Option (Option WorkspaceMembership)
  | .ready existing => some existing
  | .counted existing => some (some existing)
  | _ => none

/-- A removal that has found nothing does not come here. -/
def MemberHandler.commit (h : MemberHandler) (db : MemberDb) (existing : Option WorkspaceMembership) :
    Except ApiError MemberDb :=
  match h.request, existing with
  | .upsert _ _ role, none => db.insertMember h.caller h.request.key role
  | .upsert _ _ role, some existing => db.updateMember h.caller h.request.key role existing
  | .remove _ _, some target => db.removeMember h.caller h.request.key target
  | .remove _ _, none => .ok db

/-! ### New workspaces -/

structure NewWorkspace where
  caller : Caller
  name : String
  slug : String
  deriving DecidableEq

def NewWorkspace.isValid (n : NewWorkspace) : Bool := 1 ≤ n.name.length && n.name.length ≤ 100 && isSlug n.slug

def MemberDb.slugExists (db : MemberDb) (slug : String) : Bool := (db.workspaces.find slug).isSome

/-- The workspace and the membership of its owner are inserted in one transaction. -/
def MemberDb.createWorkspace (db : MemberDb) (n : NewWorkspace) : Except ApiError MemberDb := do
  let id := db.nextUuid
  ensure (n.caller.subject.length ≤ 255) .dataError
  let workspaces ← orError (db.workspaces.insert ⟨id, n.slug⟩)
    (.conflict ("Workspace with slug '" ++ n.slug ++ "' already exists"))
  let memberships ← orError (db.memberships.insert ⟨db.nextUuid + 1, ⟨id, n.caller.subject⟩, .owner⟩) .integrity
  pure { db with
    workspaces := workspaces
    memberships := memberships
    audit := db.audit ++ [⟨id, n.caller.subject, .workspaceCreated n.slug n.name⟩]
    nextUuid := db.nextUuid + 2 }

/-! ### Interleavings -/

structure MemberWorld where
  db : MemberDb
  creating : List NewWorkspace
  pending : List MemberHandler

inductive MemberLabel
  /-- a new workspace: the slug is free, and the commit -/
  | checkSlug (n : NewWorkspace)
  | commitWorkspace (n : NewWorkspace)
  | authorize (caller : Caller) (request : MemberRequest)
  | select (h : MemberHandler)
  | lock (h : MemberHandler)
  | count (h : MemberHandler)
  | commit (h : MemberHandler)
  /-- the handler is cancelled, and its transaction rolled back -/
  | abort (h : MemberHandler)

/-- The handler goes on in another phase, or answers with an error. -/
def MemberWorld.advance (w : MemberWorld) (h : MemberHandler) : Except ApiError MemberPhase → MemberWorld
  | .ok phase => { w with pending := w.pending.erase h ++ [{ h with phase := phase }] }
  | .error _ => { w with pending := w.pending.erase h }

/-- Another handler has the lock of the row of the workspace. -/
def MemberWorld.isLocked (w : MemberWorld) (h : MemberHandler) : Bool :=
  (w.pending.erase h).any fun g => g.holdsLock h.request.workspaceId

def MemberWorld.lock (w : MemberWorld) (h : MemberHandler) : Option MemberWorld :=
  match h.phase with
  | .locking existing => if w.isLocked h then none else some (w.advance h (.ok (.locked existing)))
  | _ => none

def MemberWorld.count (w : MemberWorld) (h : MemberHandler) : Option MemberWorld :=
  match h.phase with
  | .locked existing => some (w.advance h (h.count w.db existing))
  | _ => none

/-- A commit that is refused leaves the database as it is. -/
def MemberWorld.commit (w : MemberWorld) (h : MemberHandler) : Option MemberWorld :=
  if w.isLocked h then none
  else h.phase.toCommit.map fun existing =>
    match h.commit w.db existing with
    | .ok db => { w with db := db, pending := w.pending.erase h }
    | .error _ => { w with pending := w.pending.erase h }

def MemberWorld.step (w : MemberWorld) : MemberLabel → Option MemberWorld
  | .checkSlug n =>
    if n.isValid ∧ !w.db.slugExists n.slug then some { w with creating := w.creating ++ [n] } else none
  | .commitWorkspace n =>
    if n ∈ w.creating then
      match w.db.createWorkspace n with
      | .ok db => some { w with db := db, creating := w.creating.erase n }
      | .error _ => some { w with creating := w.creating.erase n }
    else none
  | .authorize caller request =>
    match authorizeMemberRequest w.db caller request with
    | .ok h => some { w with pending := w.pending ++ [h] }
    | .error _ => none
  | .select h => if h ∈ w.pending ∧ h.phase = .authorized then some (w.advance h (h.select w.db)) else none
  | .lock h => if h ∈ w.pending then w.lock h else none
  | .count h => if h ∈ w.pending then w.count h else none
  | .commit h => if h ∈ w.pending then w.commit h else none
  | .abort h => if h ∈ w.pending then some { w with pending := w.pending.erase h } else none

def memberSystem : System MemberWorld MemberLabel where
  init := ⟨⟨.empty, .empty, [], 0⟩, [], []⟩
  step := MemberWorld.step

end HamiCloud
