import HamiCloud.Api.Audit
import HamiCloud.Api.Quotas
import HamiCloud.Library.UniqueTable

/-!
# Workspace access

`authorize_workspace_access` of `app/core/auth.py`, and the audit events of the handlers of `app/api/v1/workspaces.py`
and `app/api/v1/secrets.py`. A caller that is no member is told that the workspace does not exist.
-/

namespace HamiCloud

open Library

inductive WorkspaceRole
  | owner
  | admin
  | developer
  | viewer
  deriving DecidableEq

/-- `ROLE_RANK`. -/
def WorkspaceRole.rank : WorkspaceRole → Nat
  | .viewer => 1
  | .developer => 2
  | .admin => 3
  | .owner => 4

def WorkspaceRole.value : WorkspaceRole → String
  | .owner => "OWNER"
  | .admin => "ADMIN"
  | .developer => "DEVELOPER"
  | .viewer => "VIEWER"

/-- The columns of `uq_workspace_membership_user`. -/
structure MemberKey where
  workspaceId : Uuid
  userSubject : String
  deriving DecidableEq

structure WorkspaceMembership where
  id : Uuid
  key : MemberKey
  role : WorkspaceRole
  deriving DecidableEq

abbrev Memberships := UniqueTable WorkspaceMembership.id WorkspaceMembership.key

structure Caller where
  subject : String
  deriving DecidableEq

def authorizeWorkspaceAccess (memberships : Memberships) (caller : Caller) (workspaceId : Uuid)
    (minRole : WorkspaceRole) (notFoundDetail : String) : Except ApiError WorkspaceMembership := do
  let membership ← orError (memberships.find ⟨workspaceId, caller.subject⟩) (.notFound notFoundDetail)
  ensure (minRole.rank ≤ membership.role.rank) (.forbidden "Insufficient role for this operation")
  pure membership

/-- The action of an audit event with its details. -/
inductive WorkspaceAuditAction
  | workspaceCreated (slug name : String)
  | memberUpserted (userSubject : String) (role : WorkspaceRole)
  | memberRemoved (userSubject : String) (previousRole : WorkspaceRole)
  | secretCreated (name : String) (keyVersion : Nat)
  | secretRotated (name : String) (keyVersion : Nat)
  | secretDeleted (name : String)
  deriving DecidableEq

/-- The `details` that are passed to `record_audit_event`. -/
def WorkspaceAuditAction.details : WorkspaceAuditAction → AuditDetails
  | .workspaceCreated slug name => [("slug", .scalar (.str slug)), ("name", .scalar (.str name))]
  | .memberUpserted userSubject role =>
    [("user_subject", .scalar (.str userSubject)), ("role", .scalar (.str role.value))]
  | .memberRemoved userSubject previousRole =>
    [("user_subject", .scalar (.str userSubject)), ("previous_role", .scalar (.str previousRole.value))]
  | .secretCreated name keyVersion => [("name", .scalar (.str name)), ("key_version", .scalar (.int keyVersion))]
  | .secretRotated name keyVersion => [("name", .scalar (.str name)), ("key_version", .scalar (.int keyVersion))]
  | .secretDeleted name => [("name", .scalar (.str name))]

structure WorkspaceAuditEvent where
  workspaceId : Uuid
  actorSubject : String
  action : WorkspaceAuditAction
  deriving DecidableEq

end HamiCloud
