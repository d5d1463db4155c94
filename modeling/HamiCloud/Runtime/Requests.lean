import HamiCloud.Api.Idempotency

/-!
# Requests with an idempotency key

The system in which the five operations are only taken by requests that carry an `Idempotency-Key`. A request
looks for a record in one step and commits in a later one, so any number of requests may have passed the
check before one of them commits. A commit that collides on `uq_idempotency_workspace_key` is rolled back,
and the record is read again in a step of its own.

Four of the handlers hold the row lock of their job or application from before the check to the commit. The
lock only excludes interleavings, so it is left out: the runs below include those with it. A request that is
refused by a rate limit or a quota, or whose handler dies, takes no further step.
-/

namespace HamiCloud

open Library

structure Request where
  operation : Operation
  /-- the header as it was sent -/
  idempotencyKey : String
  payloadHash : String
  deriving DecidableEq

/-- A request that has passed the check and not committed. -/
structure PendingRequest where
  request : Request
  key : RecordKey
  /-- the expired record that its transaction has deleted -/
  purged : Option Uuid
  checkedAt : Time
  /-- its commit has been rolled back on `uq_idempotency_workspace_key` -/
  collided : Bool
  deriving DecidableEq

/-- A committed request. -/
structure Commit where
  operation : Operation
  key : RecordKey
  recordId : Uuid
  requestHash : String
  operationId : Uuid
  checkedAt : Time
  /-- when the record was created, from which its life counts -/
  createdAt : Time
  ordered : checkedAt ≤ createdAt
  deriving DecidableEq

def Commit.expiresAt (c : Commit) : Time := c.createdAt + recordLifetime

def Commit.record (c : Commit) : IdempotencyRecord :=
  ⟨c.recordId, c.key, c.requestHash, c.operationId, c.expiresAt⟩

inductive Answer
  /-- a 202 response -/
  | accepted (operationId : Uuid)
  /-- a 409 response with `IDEMPOTENCY_CONFLICT` -/
  | idempotencyConflict
  deriving DecidableEq

/-- What happened to requests, in order. -/
inductive HistoryEntry
  | committed (c : Commit)
  | answered (key : RecordKey) (payloadHash : String) (answer : Answer)
  deriving DecidableEq

structure RequestWorld where
  world : World
  records : Table IdempotencyRecord.key
  nextRecord : Uuid
  audits : List AuditEvent
  pending : List PendingRequest
  history : List HistoryEntry

def RequestWorld.init : RequestWorld := ⟨.init, .empty, 0, [], [], []⟩

inductive RequestAction
  /-- a step of the system that is not one of the five operations -/
  | other (a : Action)
  | check (req : Request)
  | commit (p : PendingRequest) (createdAt : Time)
  | collide (p : PendingRequest)
  | reread (p : PendingRequest)

def RequestWorld.answer (r : RequestWorld) (key : RecordKey) (payloadHash : String) (answer : Answer) :
    RequestWorld :=
  { r with history := r.history ++ [.answered key payloadHash answer] }

/-- The key under which a request looks for its record. -/
def Request.recordKey (db : Db) (req : Request) : Option RecordKey :=
  match getIdempotencyKey req.idempotencyKey, req.operation.workspaceId db with
  | .ok key, some workspaceId => some ⟨workspaceId, req.operation.endpoint, key⟩
  | _, _ => none

def RequestWorld.check (r : RequestWorld) (req : Request) : Option RequestWorld :=
  (req.recordKey r.world.db).map fun key =>
    match checkIdempotency r.world.db.now r.records key req.payloadHash with
    | .replay operationId => r.answer key req.payloadHash (.accepted operationId)
    | .conflict => r.answer key req.payloadHash .idempotencyConflict
    | .proceed purged =>
      { r with pending := r.pending ++ [⟨req, key, purged, r.world.db.now, false⟩] }

/-- The commit of the operation together with its audit event and its record. -/
def RequestWorld.commit (cfg : Settings) (r : RequestWorld) (p : PendingRequest) (createdAt : Time) :
    Option RequestWorld :=
  if h : (p ∈ r.pending ∧ p.collided = false) ∧ p.checkedAt ≤ createdAt ∧ createdAt ≤ r.world.db.now then do
    let w ← World.step cfg r.world p.request.operation.action
    let c : Commit :=
      { operation := p.request.operation, key := p.key, recordId := r.nextRecord,
        requestHash := p.request.payloadHash, operationId := p.request.operation.operationId w.db,
        checkedAt := p.checkedAt, createdAt := createdAt, ordered := h.2.1 }
    let records ← (purgeRecord r.records p.key p.purged).insert c.record
    pure { world := w, records := records, nextRecord := r.nextRecord + 1,
           audits := r.audits ++ p.request.operation.auditEvents r.world.db w.db,
           pending := r.pending.erase p,
           history := r.history ++
             [.committed c, .answered p.key p.request.payloadHash (.accepted c.operationId)] }
  else none

/-- The commit finds another record under its key and is rolled back. -/
def RequestWorld.collide (r : RequestWorld) (p : PendingRequest) : Option RequestWorld :=
  if (p ∈ r.pending ∧ p.collided = false) ∧ ((purgeRecord r.records p.key p.purged).get p.key).isSome then
    some { r with pending := r.pending.erase p ++ [{ p with collided := true }] }
  else none

def RequestWorld.reread (r : RequestWorld) (p : PendingRequest) : Option RequestWorld :=
  if p ∈ r.pending ∧ p.collided = true then
    let r' := { r with pending := r.pending.erase p }
    match handleIdempotencyRace r.records p.key p.request.payloadHash with
    | some operationId => some (r'.answer p.key p.request.payloadHash (.accepted operationId))
    | none => some (r'.answer p.key p.request.payloadHash .idempotencyConflict)
  else none

def RequestWorld.step (cfg : Settings) (r : RequestWorld) : RequestAction → Option RequestWorld
  | .other a =>
    if a.isOperation then none else (World.step cfg r.world a).map fun w => { r with world := w }
  | .check req => r.check req
  | .commit p createdAt => r.commit cfg p createdAt
  | .collide p => r.collide p
  | .reread p => r.reread p

def requestSystem (cfg : Settings) : System RequestWorld RequestAction :=
  ⟨RequestWorld.init, RequestWorld.step cfg⟩

end HamiCloud
