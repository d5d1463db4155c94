import HamiCloud.Library.Table

/-!
# Rows locked by transactions

`SELECT … FOR UPDATE SKIP LOCKED`: a transaction takes rows that nobody holds and keeps them, with its changes to them in
memory, until it commits or rolls back. The locks are a table by the key of the row, so a row has one holder at most.
-/

namespace Library

/-- A locked row as its transaction has it in memory. -/
structure Hold (α : Type) where
  holder : Nat
  row : α
  deriving DecidableEq

abbrev RowLocks {α κ : Type} (key : α → κ) := Table fun h : Hold α => key h.row

namespace RowLocks

variable {α κ : Type} {key : α → κ} {t : RowLocks key} {holder : Nat} {h : Hold α} {batch : List α}

/-- What a transaction has locked, in the order in which it did. -/
def heldBy (t : RowLocks key) (holder : Nat) : List α := (t.rows.filter fun h => h.holder = holder).map Hold.row

/-- The end of a transaction. -/
def release (t : RowLocks key) (holder : Nat) : RowLocks key := t.filter fun h => h.holder ≠ holder

lemma mem_heldBy {r : α} : r ∈ t.heldBy holder ↔ ⟨holder, r⟩ ∈ t.rows := by
  simp only [heldBy, List.mem_map, List.mem_filter, decide_eq_true_eq]
  constructor
  · rintro ⟨⟨n, s⟩, ⟨hmem, rfl⟩, rfl⟩
    exact hmem
  · exact fun hmem => ⟨⟨holder, r⟩, ⟨hmem, rfl⟩, rfl⟩

lemma mem_release : h ∈ (t.release holder).rows ↔ h ∈ t.rows ∧ h.holder ≠ holder := by
  simp [release, Table.filter]

variable [DecidableEq κ]

def isFree (t : RowLocks key) (k : κ) : Bool := (t.get k).isNone

lemma isFree_iff {k : κ} : t.isFree k = true ↔ ∀ h ∈ t.rows, key h.row ≠ k := by
  simp [isFree, Table.get]

/-- The rows of the batch, all of them free, get a holder. -/
def lock (t : RowLocks key) (holder : Nat) (batch : List α) : RowLocks key :=
  batch.foldl (fun t r => t.upsert ⟨holder, r⟩) t

lemma mem_lock (hmem : h ∈ (t.lock holder batch).rows) : h ∈ t.rows ∨ h.holder = holder ∧ h.row ∈ batch := by
  induction batch generalizing t with
  | nil => exact .inl hmem
  | cons r batch ih =>
    rcases ih hmem with hold | ⟨hholder, hrow⟩
    · rcases Table.mem_upsert.mp hold with ⟨hold, -⟩ | rfl
      · exact .inl hold
      · exact .inr ⟨rfl, List.mem_cons_self⟩
    · exact .inr ⟨hholder, List.mem_cons_of_mem r hrow⟩

/-- The locks of other rows stay. -/
lemma mem_lock_of_free (hmem : h ∈ t.rows) (hfree : ∀ r ∈ batch, key h.row ≠ key r) :
    h ∈ (t.lock holder batch).rows := by
  induction batch generalizing t with
  | nil => exact hmem
  | cons r batch ih =>
    have hkeep : h ∈ (t.upsert ⟨holder, r⟩).rows := Table.mem_upsert.mpr (.inl ⟨hmem, hfree r List.mem_cons_self⟩)
    exact ih hkeep fun r' hr' => hfree r' (List.mem_cons_of_mem r hr')

/-- A row of the batch that is its only one with its key is locked as it is. -/
lemma mem_lock_of_mem {r : α} (hr : r ∈ batch) (hkeys : ∀ r' ∈ batch, key r' = key r → r' = r) :
    ⟨holder, r⟩ ∈ (t.lock holder batch).rows := by
  have hkeep : ∀ (rest : List α) (u : RowLocks key), (∀ r' ∈ rest, key r' = key r → r' = r) →
      ⟨holder, r⟩ ∈ u.rows → ⟨holder, r⟩ ∈ (u.lock holder rest).rows := by
    intro rest
    induction rest with
    | nil => exact fun _ _ hmem => hmem
    | cons r' rest ih =>
      intro u hrest hmem
      refine ih _ (fun x hx => hrest x (List.mem_cons_of_mem r' hx)) (Table.mem_upsert.mpr ?_)
      by_cases hk : key r' = key r
      · exact .inr (by rw [hrest r' List.mem_cons_self hk])
      · exact .inl ⟨hmem, fun he => hk he.symm⟩
  obtain ⟨before, after, rfl⟩ := List.append_of_mem hr
  rw [lock, List.foldl_append, List.foldl_cons]
  refine hkeep after _ (fun r' hr' => hkeys r' ?_) (Table.mem_upsert.mpr (.inr rfl))
  exact List.mem_append_right before (List.mem_cons_of_mem r hr')

end RowLocks

end Library
