import HamiCloud.Runtime.World

/-!
# Webhook deliveries

`handle_github_webhook` of `app/api/v1/webhooks.py` for correctly signed deliveries. A handler looks for a recorded
delivery in one step, reads the matching applications of a push in a second one and commits in a third. The
handler has five commits; only that of a processed push handles a collision on
`uq_webhook_deliveries_repo_delivery`. A delivery without an id and a push without a JSON body are answered at once; a
delivery id or an event name that does not fit its column fails at the commit. In a push that is JSON, `after` is a text
or missing, and no text contains a NUL.
-/

namespace HamiCloud

open Library

/-- The fields of a push payload that the handler uses. -/
structure PushPayload where
  after : Option String
  ref : String
  deriving DecidableEq

inductive DeliveryBody
  | push (payload : PushPayload)
  /-- JSON that the handler fails on: no object, or with a `ref` or a `head_commit` of another type -/
  | malformed
  /-- no JSON -/
  | invalid
  deriving DecidableEq

/-- A request: its path, the headers `X-GitHub-Delivery` and `X-GitHub-Event`, and its body. -/
structure DeliveryRequest where
  repositoryId : Uuid
  deliveryId : String
  event : String
  body : DeliveryBody
  deriving DecidableEq

/-- The columns of `uq_webhook_deliveries_repo_delivery`. -/
structure DeliveryKey where
  repositoryId : Uuid
  deliveryId : String
  deriving DecidableEq

def DeliveryRequest.key (req : DeliveryRequest) : DeliveryKey := ⟨req.repositoryId, req.deliveryId⟩

inductive DeliveryStatus
  | pingAcknowledged
  | ignoredNonPushEvent
  | ignoredBranchDeleted
  | ignoredNoMatchingApp
  | processed
  deriving DecidableEq

structure WebhookDelivery where
  key : DeliveryKey
  eventType : String
  status : DeliveryStatus
  deriving DecidableEq

/-- The widths of `webhook_deliveries.delivery_id` and `webhook_deliveries.event_type`. -/
def WebhookDelivery.fitsColumns (row : WebhookDelivery) : Bool :=
  row.key.deliveryId.length ≤ 100 && row.eventType.length ≤ 50

/-- `INSERT INTO webhook_deliveries`. -/
def insertDelivery (deliveries : Table WebhookDelivery.key) (row : WebhookDelivery) :
    Except ApiError (Table WebhookDelivery.key) := do
  ensure row.fitsColumns .dataError
  orError (deliveries.insert row) .integrity

/-- `str.replace(pattern, "")`, for a text no longer than the fuel. -/
def removeAll (pattern : List Char) : Nat → List Char → List Char
  | 0, text => text
  | _, [] => []
  | fuel + 1, c :: text =>
    if pattern.isPrefixOf (c :: text) then removeAll pattern fuel ((c :: text).drop pattern.length)
    else c :: removeAll pattern fuel text

/-- The branch of a ref. -/
def branchOf (ref : String) : String :=
  let heads := "refs/heads/".toList
  if heads.isPrefixOf ref.toList then String.ofList (removeAll heads ref.length ref.toList) else ref

def zeroSha : String := "0000000000000000000000000000000000000000"

/-- What the handler does with a delivery that is not recorded yet. -/
inductive Handling
  /-- record it with this status -/
  | record (status : DeliveryStatus)
  /-- build the commit on the branch -/
  | build (commitSha branch : String)
  deriving DecidableEq

inductive DeliveryAnswer
  /-- the delivery is recorded with this status -/
  | recorded (status : DeliveryStatus)
  /-- 200 with status `DUPLICATE` -/
  | duplicate
  /-- 400 -/
  | badRequest
  /-- 500 -/
  | serverError
  deriving DecidableEq

def DeliveryRequest.handling (req : DeliveryRequest) : Except DeliveryAnswer Handling :=
  if req.event = "ping" then .ok (.record .pingAcknowledged)
  else if req.event ≠ "push" then .ok (.record .ignoredNonPushEvent)
  else
    match req.body with
    | .invalid => .error .badRequest
    | .malformed => .error .serverError
    | .push payload =>
      match payload.after with
      | some sha =>
        if sha = "" ∨ sha = zeroSha then .ok (.record .ignoredBranchDeleted)
        else .ok (.build sha (branchOf payload.ref))
      | none => .ok (.record .ignoredBranchDeleted)

/-- The `event_type` that is recorded. -/
def DeliveryRequest.eventType (req : DeliveryRequest) : String := if req.event = "" then "unknown" else req.event

/-- The row that records the request. -/
def DeliveryRequest.row (req : DeliveryRequest) (status : DeliveryStatus) : WebhookDelivery :=
  ⟨req.key, req.eventType, status⟩

/-- A handler that has found no recorded delivery, with what it has read since. -/
structure PendingDelivery where
  request : DeliveryRequest
  plan : Option WebhookPlan
  deriving DecidableEq

structure DeliveryWorld where
  world : World
  deliveries : Table WebhookDelivery.key
  pending : List PendingDelivery
  /-- the answers given so far, oldest first -/
  answers : List (DeliveryKey × DeliveryAnswer)

def DeliveryWorld.init : DeliveryWorld := ⟨.init, .empty, [], []⟩

inductive DeliveryAction
  /-- a step of the system that is not one of the webhook handler -/
  | other (a : Action)
  | receive (req : DeliveryRequest)
  | read (p : PendingDelivery)
  /-- `deliveryFirst` says which collision is reported if the commit meets both -/
  | commit (p : PendingDelivery) (deliveryFirst : Bool)

def Action.isWebhook : Action → Bool
  | .service (.readWebhook _ _ _) => true
  | .service (.commitWebhook _) => true
  | _ => false

def DeliveryWorld.answer (d : DeliveryWorld) (key : DeliveryKey) (answer : DeliveryAnswer) : DeliveryWorld :=
  { d with answers := d.answers ++ [(key, answer)] }

def DeliveryWorld.receive (d : DeliveryWorld) (req : DeliveryRequest) : Option DeliveryWorld :=
  if (d.world.db.repositories.get req.repositoryId).isSome then
    if req.deliveryId = "" then some (d.answer req.key .badRequest)
    else
      match d.deliveries.get req.key, req.handling with
      | some _, _ => some (d.answer req.key .duplicate)
      | none, .error refused => some (d.answer req.key refused)
      | none, .ok _ => some { d with pending := d.pending ++ [⟨req, none⟩] }
  else none

/-- The reads of a push. -/
def DeliveryWorld.read (cfg : Settings) (d : DeliveryWorld) (p : PendingDelivery) : Option DeliveryWorld :=
  match p.request.handling with
  | .ok (.build commitSha branch) =>
    if p ∈ d.pending ∧ p.plan = none then
      match readWebhook d.world.db p.request.repositoryId commitSha branch with
      | .ok plan =>
        (World.step cfg d.world (.service (.readWebhook p.request.repositoryId commitSha branch))).map fun w =>
          { d with world := w, pending := d.pending.erase p ++ [{ p with plan := some plan }] }
      | .error _ => none
    else none
  | _ => none

/-- One of the four commits that store the delivery alone and handle no collision. -/
def DeliveryWorld.recordOnly (d : DeliveryWorld) (req : DeliveryRequest) (status : DeliveryStatus) : DeliveryWorld :=
  match insertDelivery d.deliveries (req.row status) with
  | .ok deliveries => { d with deliveries := deliveries }.answer req.key (.recorded status)
  | .error _ => d.answer req.key .serverError

/-- The commit of a processed push. -/
def DeliveryWorld.recordBuilds (d : DeliveryWorld) (req : DeliveryRequest) (plan : WebhookPlan)
    (deliveryFirst : Bool) : DeliveryWorld :=
  match commitWebhook d.world.db plan, insertDelivery d.deliveries (req.row .processed) with
  | .ok db, .ok deliveries =>
    { d with world := { d.world with db := db }, deliveries := deliveries }.answer req.key (.recorded .processed)
  | .ok _, .error .integrity => d.answer req.key .duplicate
  | .error _, .error .integrity => d.answer req.key (if deliveryFirst then .duplicate else .serverError)
  | _, _ => d.answer req.key .serverError

def DeliveryWorld.commit (d : DeliveryWorld) (p : PendingDelivery) (deliveryFirst : Bool) : Option DeliveryWorld :=
  if p ∈ d.pending then
    let d' := { d with pending := d.pending.erase p }
    match p.request.handling, p.plan with
    | .ok (.record status), _ => some (d'.recordOnly p.request status)
    | .ok (.build _ _), some plan =>
      if plan.builds = [] then some (d'.recordOnly p.request .ignoredNoMatchingApp)
      else some (d'.recordBuilds p.request plan deliveryFirst)
    | _, _ => none
  else none

/-- A handler from its request to its answer, with nothing in between. -/
def DeliveryWorld.handle (cfg : Settings) (d : DeliveryWorld) (req : DeliveryRequest) : Option DeliveryWorld := do
  let received ← d.receive req
  if received.pending = d.pending then some received
  else
    match req.handling with
    | .ok (.build _ _) =>
      let planned ← received.read cfg ⟨req, none⟩
      let p ← planned.pending.getLast?
      planned.commit p false
    | _ => received.commit ⟨req, none⟩ false

def DeliveryWorld.step (cfg : Settings) (d : DeliveryWorld) : DeliveryAction → Option DeliveryWorld
  | .other a => if a.isWebhook then none else (World.step cfg d.world a).map fun w => { d with world := w }
  | .receive req => d.receive req
  | .read p => d.read cfg p
  | .commit p deliveryFirst => d.commit p deliveryFirst

def deliverySystem (cfg : Settings) : System DeliveryWorld DeliveryAction :=
  ⟨DeliveryWorld.init, DeliveryWorld.step cfg⟩

end HamiCloud
