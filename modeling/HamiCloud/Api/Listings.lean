import HamiCloud.Api.Quotas
import HamiCloud.Library.Base64
import HamiCloud.Library.Keyset

/-!
# Listings

`app/core/pagination.py`, and the six listings of `app/api/v1` that use it. How dates and identifiers are written is a
parameter.
-/

namespace HamiCloud

open Library

/-! ### Cursors -/

/-- The beginning of the year 10000, in microseconds since that of 1970. -/
def yearTenThousand : Nat := 253402300800000000

/-- The instants of the years 1970 to 9999, in microseconds. -/
abbrev Instant := Fin yearTenThousand

/-- A `datetime`: the microseconds of its wall clock since 1970, and its offset if it is aware. -/
structure DateTime where
  wall : Int
  offset : Option Int
  deriving DecidableEq

/-- The aware `datetime` of an instant in UTC. -/
def utcDateTime (t : Instant) : DateTime := ⟨t.val, some 0⟩

/-- How dates and identifiers are written and read. -/
structure TextFormats where
  isoformat : DateTime → String
  fromisoformat : String → Option DateTime
  uuidText : Uuid → String
  parseUuid : String → Option Uuid
  fromisoformat_isoformat : ∀ t : Instant, fromisoformat (isoformat (utcDateTime t)) = some (utcDateTime t)
  isoformat_noBar : ∀ t : Instant, '|' ∉ (isoformat (utcDateTime t)).toList
  parseUuid_uuidText : ∀ id, parseUuid (uuidText id) = some id

def urlsafeB64encode (text : String) : String := String.ofList (Base64.encode text.toUTF8.data.toList)

def urlsafeB64decode (text : String) : Option String :=
  (Base64.decode text.toList).bind fun bytes => String.fromUTF8? ⟨bytes.toArray⟩

def encodeCursor (F : TextFormats) (createdAt : Instant) (itemId : Uuid) : String :=
  urlsafeB64encode (F.isoformat (utcDateTime createdAt) ++ "|" ++ F.uuidText itemId)

/-- `raw.split("|", 1)`, if it has two parts. -/
def splitBar (raw : String) : Option (String × String) :=
  match raw.toList.span (· ≠ '|') with
  | (left, _ :: right) => some (String.ofList left, String.ofList right)
  | (_, []) => none

/-- A naive `datetime` is taken to be in UTC, any other is converted. -/
def DateTime.toUtc (dt : DateTime) : DateTime := ⟨dt.wall - dt.offset.getD 0, some 0⟩

/-- The check of the year. -/
def DateTime.instant (dt : DateTime) : Option Instant :=
  if h : 0 ≤ dt.wall ∧ dt.wall < yearTenThousand then some ⟨dt.wall.toNat, by omega⟩ else none

def padBase64 (cursor : String) : String :=
  cursor ++ String.ofList (List.replicate ((4 - cursor.length % 4) % 4) '=')

def parseCursor (F : TextFormats) (cursor : String) : Option (Instant × Uuid) := do
  let raw ← urlsafeB64decode (padBase64 cursor)
  let (dateText, idText) ← splitBar raw
  let dt ← F.fromisoformat dateText
  let createdAt ← dt.toUtc.instant
  let itemId ← F.parseUuid idText
  pure (createdAt, itemId)

def decodeCursor (F : TextFormats) (cursor : String) : Except ApiError (Instant × Uuid) :=
  orError (parseCursor F cursor) (.badRequest "Invalid pagination cursor")

/-! ### Pages -/

/-- The columns of a listed row that its listing uses: `scopeId` is the `workspace_id`, or the `application_id` of a
release, and `action` is that of an audit event. -/
structure ListedRow where
  id : Uuid
  scopeId : Uuid
  createdAt : Instant
  action : String
  deriving DecidableEq

/-- The columns that the listings order by. -/
def ListedRow.key (r : ListedRow) : Instant ×ₗ Uuid := toLex (r.createdAt, r.id)

inductive Listing
  | workspaceJobs
  | workspaceApplications
  | releases
  | repositories
  | workspaceDeadLetterRecords
  | workspaceAuditEvents (action : Option String)
  deriving DecidableEq

def Listing.defaultLimit : Listing → Nat
  | repositories => 50
  | _ => 20

def Listing.selects (l : Listing) (scopeId : Uuid) (r : ListedRow) : Bool :=
  r.scopeId = scopeId &&
    match l with
    | workspaceAuditEvents (some action) => action = "" || r.action = action
    | _ => true

/-- The audit listing tests `cursor is not None`, the others test `cursor`, which an empty one does not pass. -/
def Listing.usesCursor (l : Listing) (cursor : String) : Bool :=
  match l with
  | workspaceAuditEvents _ => true
  | _ => cursor ≠ ""

/-- The `max_length` of `action`. -/
def Listing.validAction : Listing → Bool
  | workspaceAuditEvents (some action) => action.length ≤ 100
  | _ => true

def Listing.position (F : TextFormats) (l : Listing) : Option String → Except ApiError (Option (Instant × Uuid))
  | none => pure none
  | some cursor => if l.usesCursor cursor then (decodeCursor F cursor).map some else pure none

section Pages

variable {α : Type} (F : TextFormats) (l : Listing) (row : α → ListedRow) (scopeId : Uuid)

/-- The rows of a page and its `next_cursor`; `row` are their columns that matter for it. -/
def Listing.list (rows : List α) (limit : Option Nat) (cursor : Option String) :
    Except ApiError (List α × Option String) := do
  let limit := limit.getD l.defaultLimit
  ensure (1 ≤ limit ∧ limit ≤ 100) (.validation "limit")
  ensure l.validAction (.validation "action")
  let position ← l.position F cursor
  let found := (remaining (fun a => (row a).key) (position.map toLex)
    (rows.filter fun a => l.selects scopeId (row a))).take (limit + 1)
  if limit < found.length then
    pure (found.take limit, found[limit - 1]?.map fun a => encodeCursor F (row a).createdAt (row a).id)
  else pure (found, none)

/-- A client that follows `next_cursor`: request `n` meets the rows `rows n` and has the limit `limit n`. The result
is the list of pages, or nothing if a request fails or the cursors go on for longer than the fuel. -/
def Listing.follow (rows : Nat → List α) (limit : Nat → Nat) : Nat → Nat → Option String → Option (List (List α))
  | 0, _, _ => none
  | fuel + 1, n, cursor =>
    match l.list F row scopeId (rows n) (some (limit n)) cursor with
    | .ok (items, none) => some [items]
    | .ok (items, some next) => (Listing.follow rows limit fuel (n + 1) (some next)).map (items :: ·)
    | .error _ => none

end Pages

end HamiCloud
