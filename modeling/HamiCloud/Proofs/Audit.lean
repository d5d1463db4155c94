import HamiCloud.Api.Access

/-!
# Redaction of audit details

Redaction is described by the paths into a value. Along a path without a sensitive key the redacted value looks as the
original one does, at a sensitive key it is `[REDACTED]`, and values that differ under sensitive keys alone are
redacted to the same value.
-/

namespace HamiCloud

inductive PathStep
  | key (k : String)
  | index (i : Nat)
  deriving DecidableEq

def PathStep.isSensitive : PathStep → Bool
  | key k => isSensitiveKey k
  | index _ => false

namespace AuditValue

def child : AuditValue → PathStep → Option AuditValue
  | dict entries, .key k => (entries.find? fun e => e.1 = k).map Prod.snd
  | list items, .index i => items[i]?
  | _, _ => none

/-- What stands at a path. -/
def lookup : AuditValue → List PathStep → Option AuditValue
  | v, [] => some v
  | v, step :: path => (v.child step).bind fun w => lookup w path

/-- A value without the values inside it. -/
inductive Shape
  | scalar (s : AuditScalar)
  | list (length : Nat)
  | dict (keys : List String)
  deriving DecidableEq

def shape : AuditValue → Shape
  | scalar s => .scalar s
  | list items => .list items.length
  | dict entries => .dict (entries.map Prod.fst)

end AuditValue

mutual

/-- Values that differ only in what stands under sensitive keys. -/
inductive SameOutside : AuditValue → AuditValue → Prop
  | scalar (s : AuditScalar) : SameOutside (.scalar s) (.scalar s)
  | list {items items' : List AuditValue} : SameItems items items' → SameOutside (.list items) (.list items')
  | dict {entries entries' : AuditDetails} : SameEntries entries entries' → SameOutside (.dict entries) (.dict entries')

inductive SameItems : List AuditValue → List AuditValue → Prop
  | nil : SameItems [] []
  | cons {v v' : AuditValue} {items items' : List AuditValue} :
      SameOutside v v' → SameItems items items' → SameItems (v :: items) (v' :: items')

inductive SameEntries : AuditDetails → AuditDetails → Prop
  | nil : SameEntries [] []
  | sensitive {key : String} {v v' : AuditValue} {entries entries' : AuditDetails} :
      isSensitiveKey key = true → SameEntries entries entries' → SameEntries ((key, v) :: entries) ((key, v') :: entries')
  | plain {key : String} {v v' : AuditValue} {entries entries' : AuditDetails} :
      SameOutside v v' → SameEntries entries entries' → SameEntries ((key, v) :: entries) ((key, v') :: entries')

end

namespace Proofs

variable {v w : AuditValue} {step : PathStep} {path : List PathStep}

/-- What the loop stores under a key. -/
def sanitizeEntry (e : String × AuditValue) : String × AuditValue :=
  (e.1, if isSensitiveKey e.1 then redacted else sanitizeAuditValue e.2)

lemma sanitizeEntries_eq_map (entries : AuditDetails) : sanitizeEntries entries = entries.map sanitizeEntry := by
  induction entries with
  | nil => rfl
  | cons e entries ih =>
    rw [sanitizeEntries, ih]
    rfl

lemma sanitizeItems_eq_map (items : List AuditValue) : sanitizeItems items = items.map sanitizeAuditValue := by
  induction items with
  | nil => rfl
  | cons v items ih =>
    rw [sanitizeItems, ih]
    rfl

lemma shape_sanitize (v : AuditValue) : (sanitizeAuditValue v).shape = v.shape := by
  cases v with
  | scalar s => rfl
  | list items =>
    rw [sanitizeAuditValue, sanitizeItems_eq_map, AuditValue.shape, List.length_map]
    rfl
  | dict entries =>
    rw [sanitizeAuditValue, sanitizeEntries_eq_map, AuditValue.shape, List.map_map]
    rfl

/-- The value under a key, as it is stored. -/
lemma child_dict_sanitize (entries : AuditDetails) (k : String) :
    (sanitizeAuditValue (.dict entries)).child (.key k) =
      ((AuditValue.dict entries).child (.key k)).map fun w =>
        if isSensitiveKey k then redacted else sanitizeAuditValue w := by
  rw [sanitizeAuditValue, sanitizeEntries_eq_map, AuditValue.child, AuditValue.child, List.find?_map, Option.map_map,
    Option.map_map]
  cases hfind : entries.find? ((fun e => decide (e.1 = k)) ∘ sanitizeEntry) with
  | none =>
    have hnone : entries.find? (fun e => decide (e.1 = k)) = none := hfind
    rw [hnone]
    rfl
  | some e =>
    have hsome : entries.find? (fun e => decide (e.1 = k)) = some e := hfind
    have hkey : e.1 = k := by simpa using List.find?_some hsome
    rw [hsome]
    simp [sanitizeEntry, hkey]

lemma child_sanitize (hstep : step.isSensitive = false) :
    (sanitizeAuditValue v).child step = (v.child step).map sanitizeAuditValue := by
  cases v with
  | scalar s => cases step <;> rfl
  | list items =>
    rw [sanitizeAuditValue, sanitizeItems_eq_map]
    cases step with
    | key k => rfl
    | index i => exact List.getElem?_map ..
  | dict entries =>
    cases step with
    | key k =>
      have hplain : isSensitiveKey k = false := hstep
      rw [child_dict_sanitize]
      simp [hplain]
    | index i => rfl

lemma child_sensitive {k : String} (hk : isSensitiveKey k = true) :
    (sanitizeAuditValue v).child (.key k) = (v.child (.key k)).map fun _ => redacted := by
  cases v with
  | scalar s => rfl
  | list items => rfl
  | dict entries =>
    rw [child_dict_sanitize]
    simp [hk]

lemma lookup_sanitize (hpath : ∀ step ∈ path, step.isSensitive = false) (v : AuditValue) :
    (sanitizeAuditValue v).lookup path = (v.lookup path).map sanitizeAuditValue := by
  induction path generalizing v with
  | nil => rfl
  | cons step path ih =>
    have hrest := ih fun s hs => hpath s (List.mem_cons_of_mem _ hs)
    rw [AuditValue.lookup, AuditValue.lookup, child_sanitize (hpath step List.mem_cons_self)]
    cases v.child step with
    | none => rfl
    | some w => exact hrest w

lemma lookup_append (v : AuditValue) (path path' : List PathStep) :
    v.lookup (path ++ path') = (v.lookup path).bind fun w => w.lookup path' := by
  induction path generalizing v with
  | nil => rfl
  | cons step path ih =>
    rw [List.cons_append, AuditValue.lookup, AuditValue.lookup, Option.bind_assoc]
    exact Option.bind_congr fun w _ => ih w

lemma lookup_single (v : AuditValue) (step : PathStep) : v.lookup [step] = v.child step := by
  rw [AuditValue.lookup]
  cases v.child step <;> rfl

mutual

lemma sanitize_idem : ∀ v, sanitizeAuditValue (sanitizeAuditValue v) = sanitizeAuditValue v
  | .scalar s => rfl
  | .list items => by rw [sanitizeAuditValue, sanitizeAuditValue, sanitizeItems_idem items]
  | .dict entries => by rw [sanitizeAuditValue, sanitizeAuditValue, sanitizeEntries_idem entries]

lemma sanitizeItems_idem : ∀ items, sanitizeItems (sanitizeItems items) = sanitizeItems items
  | [] => rfl
  | v :: items => by rw [sanitizeItems, sanitizeItems, sanitize_idem v, sanitizeItems_idem items]

lemma sanitizeEntries_idem : ∀ entries, sanitizeEntries (sanitizeEntries entries) = sanitizeEntries entries
  | [] => rfl
  | (key, v) :: entries => by
    rw [sanitizeEntries, sanitizeEntries, sanitizeEntries_idem entries]
    split
    · rfl
    · rw [sanitize_idem v]

end

mutual

lemma sanitize_congr : ∀ {v v'}, SameOutside v v' → sanitizeAuditValue v = sanitizeAuditValue v'
  | _, _, .scalar s => rfl
  | _, _, .list h => by rw [sanitizeAuditValue, sanitizeAuditValue, sanitizeItems_congr h]
  | _, _, .dict h => by rw [sanitizeAuditValue, sanitizeAuditValue, sanitizeEntries_congr h]

lemma sanitizeItems_congr : ∀ {items items'}, SameItems items items' → sanitizeItems items = sanitizeItems items'
  | _, _, .nil => rfl
  | _, _, .cons hv h => by rw [sanitizeItems, sanitizeItems, sanitize_congr hv, sanitizeItems_congr h]

lemma sanitizeEntries_congr : ∀ {entries entries'}, SameEntries entries entries' →
    sanitizeEntries entries = sanitizeEntries entries'
  | _, _, .nil => rfl
  | _, _, .sensitive hk h => by
    rw [sanitizeEntries, sanitizeEntries, sanitizeEntries_congr h, if_pos hk, if_pos hk]
  | _, _, .plain hv h => by rw [sanitizeEntries, sanitizeEntries, sanitizeEntries_congr h, sanitize_congr hv]

end

lemma sanitizeAuditDetails_some (details : AuditDetails) :
    sanitizeAuditDetails (some details) = sanitizeEntries details := by
  cases details <;> rfl

/-- The details of the modelled actions are stored as they are passed. -/
theorem workspace_details_kept (action : WorkspaceAuditAction) :
    sanitizeAuditDetails (some action.details) = action.details := by
  have hkeys : ∀ key ∈ ["slug", "name", "user_subject", "role", "previous_role", "key_version"],
      isSensitiveKey key = false := by
    decide +kernel
  simp only [List.mem_cons, List.not_mem_nil, or_false, forall_eq_or_imp, forall_eq] at hkeys
  cases action <;>
    simp [sanitizeAuditDetails_some, WorkspaceAuditAction.details, sanitizeEntries, sanitizeAuditValue, hkeys]

/-- Outside sensitive keys nothing changes, what stands under one is replaced, and neither a second redaction nor
another value under a sensitive key makes a difference. -/
theorem audit_details_redacted (details : AuditDetails) :
    (∀ path, (∀ step ∈ path, PathStep.isSensitive step = false) →
      ((AuditValue.dict (sanitizeAuditDetails (some details))).lookup path).map AuditValue.shape =
        ((AuditValue.dict details).lookup path).map AuditValue.shape) ∧
    (∀ path k, (∀ step ∈ path, PathStep.isSensitive step = false) → isSensitiveKey k = true →
      (AuditValue.dict (sanitizeAuditDetails (some details))).lookup (path ++ [.key k]) =
        ((AuditValue.dict details).lookup (path ++ [.key k])).map fun _ => redacted) ∧
    sanitizeAuditDetails (some (sanitizeAuditDetails (some details))) = sanitizeAuditDetails (some details) ∧
    ∀ details', SameEntries details details' →
      sanitizeAuditDetails (some details) = sanitizeAuditDetails (some details') := by
  have hdict : AuditValue.dict (sanitizeAuditDetails (some details)) = sanitizeAuditValue (.dict details) := by
    rw [sanitizeAuditDetails_some, sanitizeAuditValue]
  refine ⟨fun path hpath => ?_, fun path k hpath hk => ?_, ?_, fun details' h => ?_⟩
  · rw [hdict, lookup_sanitize hpath, Option.map_map]
    exact congrArg (Option.map · _) (funext shape_sanitize)
  · rw [hdict, lookup_append, lookup_append, lookup_sanitize hpath, Option.map_bind, Option.bind_map]
    refine Option.bind_congr fun w _ => ?_
    simp only [lookup_single, child_sensitive hk, Function.comp_apply]
  · rw [sanitizeAuditDetails_some, sanitizeAuditDetails_some, sanitizeEntries_idem]
  · rw [sanitizeAuditDetails_some, sanitizeAuditDetails_some, sanitizeEntries_congr h]

/-- Two events of a deployment whose environment holds a token. -/
def tokenDetails (token : String) : AuditDetails :=
  [("name", .scalar (.str "web")), ("env", .list [.dict [("API_TOKEN", .scalar (.str token))]])]

theorem audit_details_redacted_token :
    (AuditValue.dict (sanitizeAuditDetails (some (tokenDetails "a")))).lookup
      [.key "env", .index 0, .key "API_TOKEN"] = some redacted ∧
    sanitizeAuditDetails (some (tokenDetails "a")) = sanitizeAuditDetails (some (tokenDetails "b")) := by
  have hsensitive : isSensitiveKey "API_TOKEN" = true := by decide +kernel
  have hpath : ∀ step ∈ [PathStep.key "env", .index 0], PathStep.isSensitive step = false := by decide +kernel
  obtain ⟨-, hredacted, -, hsame⟩ := audit_details_redacted (tokenDetails "a")
  refine ⟨(hredacted _ _ hpath hsensitive).trans rfl, hsame _ ?_⟩
  exact .plain (.scalar _) (.plain (.list (.cons (.dict (.sensitive hsensitive .nil)) .nil)) .nil)

end Proofs

end HamiCloud
