import HamiCloud.Api.Access
import HamiCloud.Library.Transition

/-!
# Workspace secrets

`upsert_workspace_secret` and `delete_workspace_secret` of `app/api/v1/secrets.py`. A handler authorizes its caller,
looks the secret up and commits, each in a step of its own; no row is locked before the commit. The value is stored as
`encrypt_secret` has returned it for the request.
-/

namespace HamiCloud

open Library

/-- The columns of `uq_secret_reference_workspace_name`. -/
structure SecretKey where
  workspaceId : Uuid
  name : String
  deriving DecidableEq

structure SecretReference where
  id : Uuid
  key : SecretKey
  encryptedValue : String
  keyVersion : Nat
  deriving DecidableEq

abbrev Secrets := UniqueTable SecretReference.id SecretReference.key

/-- `^[A-Z0-9_]+$` with `max_length=100`. -/
def isSecretName (name : String) : Bool :=
  name ≠ "" ∧ name.length ≤ 100 ∧ name.toList.all fun c => c.isUpper || c.isDigit || c = '_'

inductive SecretRequest
  | upsert (key : SecretKey) (encryptedValue : String)
  | delete (key : SecretKey)
  deriving DecidableEq

def SecretRequest.key : SecretRequest → SecretKey
  | .upsert key _ => key
  | .delete key => key

def SecretRequest.minRole : SecretRequest → WorkspaceRole
  | .upsert _ _ => .developer
  | .delete _ => .admin

/-- What the schema of the payload, or that of the path, asks of the name. -/
def SecretRequest.isValid : SecretRequest → Bool
  | .upsert key _ => isSecretName key.name
  | .delete key => key.name ≠ "" ∧ key.name.length ≤ 100

/-- The largest value of an `Integer` column. -/
def maxInteger : Nat := 2147483647

structure SecretStore where
  secrets : Secrets
  audit : List WorkspaceAuditEvent
  nextUuid : Uuid

def SecretStore.record (store : SecretStore) (caller : Caller) (key : SecretKey) (action : WorkspaceAuditAction) :
    SecretStore :=
  { store with audit := store.audit ++ [⟨key.workspaceId, caller.subject, action⟩] }

/-- The commit of an upsert that has found no secret. -/
def createSecret (store : SecretStore) (caller : Caller) (key : SecretKey) (encryptedValue : String) :
    Except ApiError SecretStore := do
  let secrets ← orError (store.secrets.insert ⟨store.nextUuid, key, encryptedValue, 1⟩)
    (.conflict ("Secret '" ++ key.name ++ "' already exists in this workspace"))
  pure ({ store with secrets := secrets, nextUuid := store.nextUuid + 1 }.record caller key (.secretCreated key.name 1))

/-- The commit of an upsert that has found a secret: the new version is the one that was read plus one, and the row is
addressed by its id. -/
def rotateSecret (store : SecretStore) (caller : Caller) (key : SecretKey) (encryptedValue : String)
    (existing : SecretReference) : Except ApiError SecretStore := do
  let keyVersion := existing.keyVersion + 1
  ensure (keyVersion ≤ maxInteger) .dataError
  ensure (store.secrets.get existing.id).isSome .exception
  let secrets := store.secrets.set existing.id fun s =>
    { s with encryptedValue := encryptedValue, keyVersion := keyVersion }
  pure ({ store with secrets := secrets }.record caller key (.secretRotated key.name keyVersion))

/-- The commit of a deletion. That the row is gone already raises a warning alone. -/
def deleteSecret (store : SecretStore) (caller : Caller) (key : SecretKey) (target : SecretReference) : SecretStore :=
  { store with secrets := store.secrets.erase target.id }.record caller key (.secretDeleted key.name)

/-- A handler whose caller is authorized. `found` is the answer of its `SELECT`, once it has run. -/
structure SecretHandler where
  caller : Caller
  request : SecretRequest
  found : Option (Option SecretReference)
  deriving DecidableEq

def SecretHandler.commit (h : SecretHandler) (store : SecretStore) : Option (Except ApiError SecretStore) :=
  match h.request, h.found with
  | .upsert key encryptedValue, some none => some (createSecret store h.caller key encryptedValue)
  | .upsert key encryptedValue, some (some existing) => some (rotateSecret store h.caller key encryptedValue existing)
  | .delete key, some (some target) => some (.ok (deleteSecret store h.caller key target))
  | _, _ => none

structure SecretWorld where
  memberships : Memberships
  store : SecretStore
  pending : List SecretHandler

inductive SecretLabel
  /-- the handlers of the memberships commit -/
  | members (memberships : Memberships)
  | authorize (caller : Caller) (request : SecretRequest)
  | select (h : SecretHandler)
  | commit (h : SecretHandler)

def SecretWorld.authorize (w : SecretWorld) (caller : Caller) (request : SecretRequest) : Option SecretWorld :=
  if request.isValid then
    match authorizeWorkspaceAccess w.memberships caller request.key.workspaceId request.minRole
      "Workspace not found" with
    | .ok _ => some { w with pending := w.pending ++ [⟨caller, request, none⟩] }
    | .error _ => none
  else none

/-- A deletion that finds nothing answers 404. -/
def SecretWorld.select (w : SecretWorld) (h : SecretHandler) : Option SecretWorld :=
  if h ∈ w.pending ∧ h.found = none then
    match h.request, w.store.secrets.find h.request.key with
    | .delete _, none => some { w with pending := w.pending.erase h }
    | _, found => some { w with pending := w.pending.erase h ++ [{ h with found := some found }] }
  else none

/-- A commit that is refused leaves the database as it is. -/
def SecretWorld.commit (w : SecretWorld) (h : SecretHandler) : Option SecretWorld :=
  if h ∈ w.pending then
    (h.commit w.store).map fun
      | .ok store => { w with store := store, pending := w.pending.erase h }
      | .error _ => { w with pending := w.pending.erase h }
  else none

def SecretWorld.step (w : SecretWorld) : SecretLabel → Option SecretWorld
  | .members memberships => some { w with memberships := memberships }
  | .authorize caller request => w.authorize caller request
  | .select h => w.select h
  | .commit h => w.commit h

def secretSystem : System SecretWorld SecretLabel where
  init := ⟨.empty, ⟨.empty, [], 0⟩, []⟩
  step := SecretWorld.step

end HamiCloud
