import HamiCloud.Library.Transition
import HamiCloud.Library.UniqueTable
import HamiCloud.Library.RowLocks
import HamiCloud.Store.Schema

/-!
# The outbox dispatcher

`app/workers/outbox_dispatcher.py`: any number of dispatchers that drain batches, beside the producers of events, the
purge of old rows and the requeueing of failed ones. A batch is one transaction: it locks its rows, publishes them one
after the other and commits what it has learned; a dispatcher may crash at any moment before, and its commit may fail.
The broker is seen through what comes of `publish`, and remembers what it received and what it acknowledged.
-/

namespace HamiCloud

open Library

inductive OutboxStatus
  | pending
  | published
  | failed
  deriving DecidableEq

/-- A row of `outbox_events`; the payload is its JSON text. -/
structure OutboxRow where
  id : Uuid
  eventId : Uuid
  workspaceId : Uuid
  schemaVersion : Nat
  topic : String
  payloadJson : String
  headersJson : List (String × String)
  status : OutboxStatus
  retryCount : Nat
  nextAttemptAt : Option Time
  publishedAt : Option Time
  createdAt : Time
  deriving DecidableEq

/-- What a producer gives to `create_outbox_event`, with the headers of its trace merged in. -/
structure NewOutboxEvent where
  id : Uuid
  eventId : Uuid
  workspaceId : Uuid
  schemaVersion : Nat
  topic : String
  payloadJson : String
  headersJson : List (String × String)
  deriving DecidableEq

def createOutboxEvent (now : Time) (e : NewOutboxEvent) : OutboxRow :=
  { id := e.id, eventId := e.eventId, workspaceId := e.workspaceId, schemaVersion := e.schemaVersion,
    topic := e.topic, payloadJson := e.payloadJson, headersJson := e.headersJson, status := .pending,
    retryCount := 0, nextAttemptAt := none, publishedAt := none, createdAt := now }

/-! ### Messages -/

/-- `headers[name] = value`. -/
def setHeader (headers : List (String × String)) (name value : String) : List (String × String) :=
  if name ∈ headers.map Prod.fst then headers.map fun h => if h.1 = name then (name, value) else h
  else headers ++ [(name, value)]

/-- The headers of a message: the entries of `headers_json` come last and may replace the others. -/
def messageHeaders (uuidText : Uuid → String) (e : OutboxRow) : List (String × String) :=
  e.headersJson.foldl (fun headers (name, value) => setHeader headers name value)
    [("Nats-Msg-Id", uuidText e.eventId), ("X-Schema-Version", toString e.schemaVersion),
      ("X-Workspace-Id", uuidText e.workspaceId)]

structure BrokerMessage where
  subject : String
  payload : String
  headers : List (String × String)
  deriving DecidableEq

def messageOf (uuidText : Uuid → String) (e : OutboxRow) : BrokerMessage :=
  ⟨e.topic, e.payloadJson, messageHeaders uuidText e⟩

/-! ### Answers -/

/-- An exception of `publish`: whether its class is one of those of bad values, whether it is the error for a missing
stream, and its text. -/
structure PublishError where
  isValueError : Bool
  isNoStreamResponse : Bool
  text : String
  deriving DecidableEq

def containsText (text part : String) : Bool := part.toList <:+: text.toList

/-- `is_permanent`. -/
def PublishError.isPermanent (err : PublishError) : Bool :=
  let errStr := err.text.toLower
  err.isValueError || containsText errStr "no stream" ||
    (containsText errStr "no responders" && containsText errStr "stream") || err.isNoStreamResponse

/-- `min(300, 2 ** min(event.retry_count, 8))`. -/
def backoffSeconds (retryCount : Nat) : Nat := min 300 (2 ^ min retryCount 8)

/-- What comes of a publish. -/
inductive PublishOutcome
  | acknowledged
  /-- an exception; the broker may receive the message all the same, as when only the acknowledgement is late -/
  | failed (err : PublishError) (received : Bool)
  deriving DecidableEq

/-- The broker receives the message. -/
def PublishOutcome.received : PublishOutcome → Bool
  | .acknowledged => true
  | .failed _ received => received

/-- What the loop makes of the outcome for one event, in a transaction that began at `now`. -/
def OutboxRow.answered (e : OutboxRow) (now : Time) : PublishOutcome → OutboxRow
  | .acknowledged => { e with status := .published, publishedAt := some now }
  | .failed err _ =>
    if err.isPermanent then { e with status := .failed }
    else { e with retryCount := e.retryCount + 1
                  nextAttemptAt := some (now + backoffSeconds (e.retryCount + 1) * second), status := .pending }

@[simp] lemma OutboxRow.answered_id (e : OutboxRow) (now : Time) (outcome : PublishOutcome) :
    (e.answered now outcome).id = e.id := by
  unfold answered
  split
  · rfl
  · split <;> rfl

@[simp] lemma OutboxRow.answered_eventId (e : OutboxRow) (now : Time) (outcome : PublishOutcome) :
    (e.answered now outcome).eventId = e.eventId := by
  unfold answered
  split
  · rfl
  · split <;> rfl

/-! ### Transactions -/

/-- An event of a batch: the entity in memory, and the time of the transaction. -/
structure BatchEvent where
  event : OutboxRow
  selectedAt : Time
  /-- whether it has been published, successfully or not -/
  attempted : Bool
  deriving DecidableEq

def BatchEvent.id (b : BatchEvent) : Uuid := b.event.id

def BatchEvent.answered (b : BatchEvent) (outcome : PublishOutcome) : BatchEvent :=
  { b with event := b.event.answered b.selectedAt outcome, attempted := true }

lemma BatchEvent.answered_id (b : BatchEvent) (outcome : PublishOutcome) : (b.answered outcome).id = b.id :=
  b.event.answered_id b.selectedAt outcome

/-- An acknowledged publish of the event. -/
structure Acknowledgement where
  eventId : Uuid
  message : BrokerMessage
  deriving DecidableEq

structure OutboxState where
  now : Time
  rows : UniqueTable OutboxRow.id OutboxRow.eventId
  locks : RowLocks BatchEvent.id
  /-- the events that producers have committed -/
  committed : List Uuid
  acknowledged : List Acknowledgement
  /-- the events of the messages that the broker has received -/
  received : List Uuid
  /-- those of them that their dispatcher took for failed, or forgot with its batch -/
  lost : List Uuid

def OutboxState.init : OutboxState := ⟨0, .empty, .empty, [], [], [], []⟩

/-- The `WHERE` clause of a batch. -/
def OutboxRow.isDue (r : OutboxRow) (now : Time) : Bool := r.status = .pending && r.nextAttemptAt.all (· ≤ now)

/-- The rows that a batch locks. -/
def selectBatch (s : OutboxState) (limit : Nat) : List OutboxRow :=
  ((orderBy OutboxRow.createdAt s.rows.rows).filter fun r => r.isDue s.now && s.locks.isFree r.id).take limit

/-- The columns that the loop may have changed. -/
def OutboxRow.write (r e : OutboxRow) : OutboxRow :=
  { r with status := e.status, retryCount := e.retryCount, nextAttemptAt := e.nextAttemptAt
           publishedAt := e.publishedAt }

/-- The row after the commit of a transaction. -/
def OutboxRow.flushed (locks : RowLocks BatchEvent.id) (dispatcher : Nat) (r : OutboxRow) : OutboxRow :=
  match (locks.heldBy dispatcher).find? fun b => b.id = r.id with
  | some b => r.write b.event
  | none => r

lemma OutboxRow.flushed_keys (locks : RowLocks BatchEvent.id) (dispatcher : Nat) (r : OutboxRow) :
    (r.flushed locks dispatcher).id = r.id ∧ (r.flushed locks dispatcher).eventId = r.eventId := by
  unfold flushed
  split <;> exact ⟨rfl, rfl⟩

/-- `status == PUBLISHED` and `published_at < cutoff`. -/
def OutboxRow.isExpired (r : OutboxRow) (now retention : Time) : Bool :=
  r.status = .published && r.publishedAt.any fun t => t + retention < now

def day : Time := 86400 * second

inductive OutboxAction
  | tick (d : Time)
  /-- a producer commits an event -/
  | produce (e : NewOutboxEvent)
  /-- a dispatcher begins a batch, -/
  | select (dispatcher limit : Nat)
  /-- publishes its next event, -/
  | publish (dispatcher : Nat) (outcome : PublishOutcome)
  /-- and commits it, -/
  | commit (dispatcher : Nat)
  /-- or crashes, or its commit fails -/
  | crash (dispatcher : Nat)
  | purge (retentionDays : Nat)
  /-- all failed events, or those of the list -/
  | requeueFailed (eventIds : List Uuid)

def OutboxState.step (uuidText : Uuid → String) (s : OutboxState) : OutboxAction → Option OutboxState
  | .tick d => some { s with now := s.now + d }
  | .produce e =>
    (s.rows.insert (createOutboxEvent s.now e)).map fun rows =>
      { s with rows := rows, committed := s.committed ++ [e.eventId] }
  | .select dispatcher limit =>
    -- a transaction that locks nothing ends at once
    if s.locks.heldBy dispatcher = [] then
      some { s with locks := s.locks.lock dispatcher ((selectBatch s limit).map fun r => ⟨r, s.now, false⟩) }
    else none
  | .publish dispatcher outcome =>
    ((s.locks.heldBy dispatcher).find? fun b => !b.attempted).map fun b =>
      { s with
        locks := s.locks.set b.id (fun h => ⟨h.holder, h.row.answered outcome⟩) fun h => h.row.answered_id outcome
        acknowledged := match outcome with
          | .acknowledged => s.acknowledged ++ [⟨b.event.eventId, messageOf uuidText b.event⟩]
          | .failed _ _ => s.acknowledged
        received := if outcome.received then s.received ++ [b.event.eventId] else s.received
        lost := match outcome with
          | .failed _ true => s.lost ++ [b.event.eventId]
          | _ => s.lost }
  | .commit dispatcher =>
    if (s.locks.heldBy dispatcher).all BatchEvent.attempted then
      some { s with
        rows := s.rows.update (fun _ => true) (OutboxRow.flushed s.locks dispatcher)
          (fun r => (r.flushed_keys s.locks dispatcher).1) (fun r => (r.flushed_keys s.locks dispatcher).2)
        locks := s.locks.release dispatcher }
    else none
  | .crash dispatcher =>
    some { s with
      locks := s.locks.release dispatcher
      lost := s.lost ++ ((s.locks.heldBy dispatcher).filter fun b => b.event.status = .published).map
        fun b => b.event.eventId }
  | .purge retentionDays => some { s with rows := s.rows.filter fun r => !r.isExpired s.now (retentionDays * day) }
  | .requeueFailed eventIds =>
    some { s with
      rows := s.rows.update (fun r => r.status = .failed && (eventIds = [] || r.eventId ∈ eventIds))
        fun r => { r with status := .pending, retryCount := 0, nextAttemptAt := some s.now } }

def outboxSystem (uuidText : Uuid → String) : System OutboxState OutboxAction :=
  ⟨.init, OutboxState.step uuidText⟩

end HamiCloud
