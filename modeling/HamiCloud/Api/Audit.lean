import Mathlib

/-!
# Details of audit events

`sanitize_audit_details` of `app/core/audit.py`. Details are what `json` can store: dicts with string keys, lists and
scalars. A dict is the list of its items, in the order in which they were added.
-/

namespace HamiCloud

inductive AuditScalar
  | none
  | bool (b : Bool)
  | int (n : Int)
  /-- a float, by its binary representation -/
  | float (bits : UInt64)
  | str (s : String)
  deriving DecidableEq

inductive AuditValue
  | scalar (s : AuditScalar)
  | list (items : List AuditValue)
  | dict (entries : List (String × AuditValue))

abbrev AuditDetails := List (String × AuditValue)

/-- `str.lower` of a character. Apart from the ASCII letters only the Kelvin sign and the capital I with a dot above have
a lower case with a character of ASCII; which other character stands for the rest is not observed here. -/
def lowerChar (c : Char) : List Char :=
  if c.toNat = 0x212a then ['k'] else if c.toNat = 0x130 then ['i', Char.ofNat 0x307] else [c.toLower]

/-- `_SENSITIVE_KEY_MARKERS`. -/
def sensitiveKeyMarkers : List String :=
  ["secret", "password", "passwd", "token", "api_key", "apikey", "private_key", "encrypted_value"]

def isSensitiveKey (key : String) : Bool :=
  let keyLower := key.toList.flatMap lowerChar
  keyLower = "value".toList || sensitiveKeyMarkers.any fun marker => marker.toList <:+: keyLower

def redacted : AuditValue := .scalar (.str "[REDACTED]")

mutual

def sanitizeAuditValue : AuditValue → AuditValue
  | .dict entries => .dict (sanitizeEntries entries)
  | .list items => .list (sanitizeItems items)
  | .scalar s => .scalar s

/-- The loop over the items of a dict. What stands under a key that is not sensitive is treated as an element of a list
is. -/
def sanitizeEntries : AuditDetails → AuditDetails
  | [] => []
  | (key, v) :: entries =>
    (key, if isSensitiveKey key then redacted else sanitizeAuditValue v) :: sanitizeEntries entries

def sanitizeItems : List AuditValue → List AuditValue
  | [] => []
  | v :: items => sanitizeAuditValue v :: sanitizeItems items

end

def sanitizeAuditDetails (details : Option AuditDetails) : AuditDetails :=
  match details with
  | none => []
  | some entries => if entries = [] then [] else sanitizeEntries entries

end HamiCloud
