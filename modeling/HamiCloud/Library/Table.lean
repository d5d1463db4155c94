import Mathlib

/-!
# Keyed tables

A table is a list of rows whose keys are pairwise distinct, so that the primary key
constraint of a relational store is part of the type. Statements of the store are
read as follows: `update` is `UPDATE … SET … WHERE …`, `insert` is `INSERT` (refused
on a key that is already present), and `modify` is an update of one row by its key that
reports whether a row was affected. Every lookup lemma is pointwise in the key.
-/

namespace Library

/-- Rows that agree on some columns: a row on one side has a counterpart on the other. -/
lemma exists_of_map_eq {α β : Type} {f : α → β} {o o' : Option α} (h : o'.map f = o.map f) {a' : α}
    (h' : o' = some a') : ∃ a, o = some a ∧ f a' = f a := by
  cases o with
  | none => simp [h'] at h
  | some a => exact ⟨a, rfl, by simpa [h'] using h⟩

structure Table {α κ : Type} (key : α → κ) where
  rows : List α
  nodup : (rows.map key).Nodup

namespace Table

variable {α κ : Type} {key : α → κ}

def empty : Table key := ⟨[], List.nodup_nil⟩

def update (t : Table key) (p : α → Bool) (f : α → α)
    (hf : ∀ r, key (f r) = key r := by intro _; rfl) : Table key where
  rows := t.rows.map (fun r => if p r then f r else r)
  nodup := by
    have h : key ∘ (fun r => if p r then f r else r) = key := by
      funext r
      by_cases hp : p r <;> simp [hp, hf]
    rw [List.map_map, h]
    exact t.nodup

/-- `DELETE`, with the rows that stay. -/
def filter (t : Table key) (p : α → Bool) : Table key where
  rows := t.rows.filter p
  nodup := t.nodup.sublist (List.filter_sublist.map key)

lemma map_rows_update {β : Type} (t : Table key) (p : α → Bool) (f : α → α) (hf : ∀ r, key (f r) = key r) {g : α → β}
    (hg : ∀ r, g (f r) = g r) : (t.update p f hf).rows.map g = t.rows.map g := by
  have h : g ∘ (fun r => if p r then f r else r) = g := by
    funext r
    by_cases hp : p r <;> simp [hp, hg]
  rw [update, List.map_map, h]

lemma eq_of_key_eq {t : Table key} {r s : α} (hr : r ∈ t.rows) (hs : s ∈ t.rows) (h : key r = key s) : r = s :=
  List.inj_on_of_nodup_map t.nodup hr hs h

variable [DecidableEq κ]

def get (t : Table key) (k : κ) : Option α := t.rows.find? (fun r => key r = k)

def insert (t : Table key) (r : α) : Option (Table key) :=
  if h : key r ∈ t.rows.map key then none
  else some ⟨t.rows ++ [r], by
    rw [List.map_append, List.nodup_append]
    refine ⟨t.nodup, by simp, ?_⟩
    intro a ha b hb
    simp only [List.map_cons, List.map_nil, List.mem_singleton] at hb
    rintro rfl
    exact h (hb ▸ ha)⟩

lemma key_of_get {t : Table key} {k : κ} {r : α} (h : t.get k = some r) : key r = k := by
  simpa using List.find?_some h

lemma mem_of_get {t : Table key} {k : κ} {r : α} (h : t.get k = some r) : r ∈ t.rows :=
  List.mem_of_find?_eq_some h

lemma get_of_mem {t : Table key} {r : α} (h : r ∈ t.rows) : t.get (key r) = some r := by
  obtain ⟨s, hs⟩ : ∃ s, t.get (key r) = some s := by
    apply Option.isSome_iff_exists.mp
    rw [get, List.find?_isSome]
    exact ⟨r, h, by simp⟩
  have he : s = r := List.inj_on_of_nodup_map t.nodup (mem_of_get hs) h (key_of_get hs)
  rw [hs, he]

lemma mem_keys_iff {t : Table key} {k : κ} : k ∈ t.rows.map key ↔ ∃ r, t.get k = some r := by
  constructor
  · intro h
    obtain ⟨r, hr, rfl⟩ := List.mem_map.mp h
    exact ⟨r, get_of_mem hr⟩
  · rintro ⟨r, hr⟩
    exact List.mem_map.mpr ⟨r, mem_of_get hr, key_of_get hr⟩

/-- At most one row has a given key. -/
lemma filter_key (t : Table key) (k : κ) : t.rows.filter (fun r => key r = k) = (t.get k).toList := by
  cases h : t.get k with
  | none =>
    refine List.filter_eq_nil_iff.mpr fun r hr => ?_
    simpa using List.find?_eq_none.mp h r hr
  | some r =>
    have hnodup : (t.rows.filter (fun r => key r = k)).Nodup := (t.nodup.of_map key).filter _
    refine List.perm_singleton.mp ((List.perm_ext_iff_of_nodup hnodup (List.nodup_singleton r)).mpr fun s => ?_)
    rw [List.mem_filter, decide_eq_true_eq, List.mem_singleton]
    constructor
    · rintro ⟨hs, rfl⟩
      exact Option.some.inj ((get_of_mem hs).symm.trans h)
    · rintro rfl
      exact ⟨mem_of_get h, key_of_get h⟩

lemma get_filter (t : Table key) (p : α → Bool) (k : κ) : (t.filter p).get k = (t.get k).filter p := by
  cases h : (t.filter p).get k with
  | some r =>
    obtain ⟨hr, hp⟩ := List.mem_filter.mp (mem_of_get h)
    have hget : t.get k = some r := key_of_get h ▸ get_of_mem hr
    rw [hget, Option.filter_some, if_pos hp]
  | none =>
    cases hget : t.get k with
    | none => rfl
    | some r =>
      rw [Option.filter_some, if_neg fun hp => ?_]
      have hmem : r ∈ (t.filter p).rows := List.mem_filter.mpr ⟨mem_of_get hget, hp⟩
      have hsome := get_of_mem hmem
      rw [key_of_get hget, h] at hsome
      cases hsome

@[simp] lemma get_empty (k : κ) : (empty : Table key).get k = none := rfl

@[simp] lemma get_update (t : Table key) (p : α → Bool) (f : α → α) (hf : ∀ r, key (f r) = key r)
    (k : κ) : (t.update p f hf).get k = (t.get k).map (fun r => if p r then f r else r) := by
  unfold get update
  rw [List.find?_map]
  congr 2
  funext r
  by_cases hp : p r <;> simp [hp, hf]

lemma get_insert {t u : Table key} {r : α} (h : t.insert r = some u) (k : κ) :
    u.get k = if k = key r then some r else t.get k := by
  unfold insert at h
  split at h
  · cases h
  · rename_i hn
    cases h
    unfold get
    rw [List.find?_append]
    by_cases hk : k = key r
    · subst hk
      have hnone : t.rows.find? (fun s => key s = key r) = none := by
        rw [List.find?_eq_none]
        intro s hs he
        exact hn (List.mem_map.mpr ⟨s, hs, by simpa using he⟩)
      simp [hnone]
    · have hne : ¬key r = k := fun he => hk he.symm
      cases hg : t.rows.find? (fun s => key s = k) <;> simp [hk, hne]

/-- A row after an insertion was there before, or it is the inserted one. -/
lemma get_insert_cases {t u : Table key} {r s : α} (h : t.insert r = some u) {k : κ} (hs : u.get k = some s) :
    t.get k = some s ∨ k = key r ∧ s = r := by
  rw [get_insert h] at hs
  split at hs
  · rename_i hk
    exact .inr ⟨hk, (Option.some.inj hs).symm⟩
  · exact .inl hs

lemma rows_insert {t u : Table key} {r : α} (h : t.insert r = some u) : u.rows = t.rows ++ [r] := by
  unfold insert at h
  split at h
  · cases h
  · cases h
    rfl

lemma fresh_of_insert {t u : Table key} {r : α} (h : t.insert r = some u) : t.get (key r) = none := by
  unfold insert at h
  split at h
  · cases h
  · rename_i hn
    cases hg : t.get (key r) with
    | none => rfl
    | some s => exact absurd (mem_keys_iff.mpr ⟨s, hg⟩) hn

lemma exists_insert {t : Table key} {r : α} (h : t.get (key r) = none) :
    ∃ u, t.insert r = some u := by
  unfold insert
  split
  · rename_i hm
    obtain ⟨s, hs⟩ := mem_keys_iff.mp hm
    rw [h] at hs
    cases hs
  · exact ⟨_, rfl⟩

/-! ### Deletion and replacement -/

def erase (t : Table key) (k : κ) : Table key where
  rows := t.rows.filter (fun r => key r ≠ k)
  nodup := t.nodup.sublist (List.filter_sublist.map key)

/-- The row is created, or replaces the row with its key. -/
def upsert (t : Table key) (r : α) : Table key where
  rows := (t.erase (key r)).rows ++ [r]
  nodup := by
    rw [List.map_append, List.nodup_append]
    refine ⟨(t.erase (key r)).nodup, by simp, ?_⟩
    intro a ha b hb
    obtain ⟨s, hs, rfl⟩ := List.mem_map.mp ha
    rw [List.mem_singleton.mp hb]
    exact of_decide_eq_true (List.mem_filter.mp hs).2

lemma mem_erase {t : Table key} {k : κ} {r : α} : r ∈ (t.erase k).rows ↔ r ∈ t.rows ∧ key r ≠ k := by
  simp [erase]

lemma get_erase (t : Table key) (k k' : κ) : (t.erase k).get k' = if k' = k then none else t.get k' := by
  unfold get erase
  rw [List.find?_filter]
  split
  · rename_i hk
    subst hk
    exact List.find?_eq_none.mpr fun r _ => by simp
  · rename_i hk
    congr 1
    funext r
    by_cases hr : key r = k'
    · simp [hr, hk]
    · simp [hr]

lemma mem_upsert {t : Table key} {r s : α} :
    s ∈ (t.upsert r).rows ↔ (s ∈ t.rows ∧ key s ≠ key r) ∨ s = r := by
  simp [upsert, mem_erase]

/-- `UPDATE … WHERE key = k`. -/
def set (t : Table key) (k : κ) (f : α → α) (hf : ∀ r, key (f r) = key r := by intro _; rfl) :
    Table key :=
  t.update (fun r => key r = k) f hf

/-- `UPDATE … WHERE key = k AND p`: the row as it was and the table after the statement, or
nothing when no row is affected. -/
def modify (t : Table key) (k : κ) (p : α → Bool) (f : α → α)
    (hf : ∀ r, key (f r) = key r := by intro _; rfl) : Option (α × Table key) :=
  match t.get k with
  | some r => if p r then some (r, t.set k f hf) else none
  | none => none

lemma get_set (t : Table key) (k : κ) (f : α → α) (hf : ∀ r, key (f r) = key r) (k' : κ) :
    (t.set k f hf).get k' = if k' = k then (t.get k).map f else t.get k' := by
  rw [set, get_update]
  cases hg : t.get k' with
  | none =>
    by_cases hk : k' = k
    · subst hk
      simp [hg]
    · simp [hk]
  | some r =>
    have hr := key_of_get hg
    by_cases hk : k' = k
    · subst hk
      simp [hg, hr]
    · simp [hr, hk]

/-- What an update of one row does depends on that row alone. -/
lemma get_set_of_ne {t : Table key} {k k' : κ} {f : α → α} (h : k' ≠ k)
    (hf : ∀ r, key (f r) = key r := by intro _; rfl) : (t.set k f hf).get k' = t.get k' :=
  (get_set t k f hf k').trans (if_neg h)

lemma set_congr {t : Table key} {k : κ} {f g : α → α} {hf : ∀ r, key (f r) = key r} {hg : ∀ r, key (g r) = key r}
    (h : ∀ r, t.get k = some r → f r = g r) : t.set k f hf = t.set k g hg := by
  unfold set update
  congr 1
  refine List.map_congr_left fun r hr => ?_
  split
  · rename_i hk
    exact h r (of_decide_eq_true hk ▸ get_of_mem hr)
  · rfl

lemma modify_eq_some {t u : Table key} {k : κ} {p : α → Bool} {f : α → α}
    {hf : ∀ r, key (f r) = key r} {r : α} :
    t.modify k p f hf = some (r, u) ↔ t.get k = some r ∧ p r = true ∧ u = t.set k f hf := by
  unfold modify
  cases t.get k with
  | none => simp
  | some s =>
    by_cases hp : p s = true
    · simp only [hp, if_true, Option.some.injEq, Prod.mk.injEq]
      constructor
      · rintro ⟨rfl, rfl⟩
        exact ⟨rfl, hp, rfl⟩
      · rintro ⟨rfl, -, rfl⟩
        exact ⟨rfl, rfl⟩
    · simp only [hp, Bool.false_eq_true, if_false, reduceCtorEq, Option.some.injEq, false_iff]
      rintro ⟨rfl, h, -⟩
      exact hp h

lemma get_set_self {t : Table key} {k : κ} {r : α} {f : α → α} (h : t.get k = some r)
    (hf : ∀ r, key (f r) = key r := by intro _; rfl) : (t.set k f hf).get k = some (f r) := by
  rw [get_set, if_pos rfl, h]
  rfl

lemma get_eq_update {t : Table key} {k : κ} {r : α} (h : t.get k = some r) :
    t.get = Function.update t.get k (some r) := by
  rw [← h, Function.update_eq_self]

/-- Lookup in a table after one row was changed, as a function. -/
lemma get_set_eq_update {t : Table key} {k : κ} {r : α} {f : α → α} (h : t.get k = some r)
    (hf : ∀ r, key (f r) = key r := by intro _; rfl) : (t.set k f hf).get = Function.update t.get k (some (f r)) := by
  funext k'
  rw [get_set, Function.update_apply, h]
  rfl

lemma get_insert_eq_update {t u : Table key} {r : α} (h : t.insert r = some u) :
    u.get = Function.update t.get (key r) (some r) := by
  funext k
  rw [get_insert h, Function.update_apply]

/-! ### Keys drawn from a counter -/

/-- All keys are below the next value of the counter they are drawn from. -/
def Below {key : α → Nat} (t : Table key) (n : Nat) : Prop := ∀ k r, t.get k = some r → k < n

section Below

variable {key : α → Nat} {t u : Table key} {n m : Nat}

lemma below_empty : (empty : Table key).Below n := by
  intro k r h
  cases h

lemma Below.mono (h : t.Below n) (hle : n ≤ m) : t.Below m := fun k r hk => (h k r hk).trans_le hle

lemma Below.get_eq_none (h : t.Below n) : t.get n = none := by
  cases hg : t.get n with
  | none => rfl
  | some r => exact absurd (h n r hg) (lt_irrefl n)

lemma Below.update {p : α → Bool} {f : α → α} (h : t.Below n)
    (hf : ∀ r, key (f r) = key r := by intro _; rfl) :
    (t.update p f hf).Below n := by
  intro k r hk
  rw [get_update] at hk
  obtain ⟨s, hs, -⟩ := Option.map_eq_some_iff.mp hk
  exact h k s hs

lemma Below.set {k : Nat} {f : α → α} (h : t.Below n)
    (hf : ∀ r, key (f r) = key r := by intro _; rfl) : (t.set k f hf).Below n :=
  h.update hf

lemma Below.insert {r : α} (h : t.Below n) (hins : t.insert r = some u) (hle : n ≤ m) (hr : key r < m) :
    u.Below m := by
  intro k s hk
  rcases get_insert_cases hins hk with hold | ⟨hkr, -⟩
  · exact (h k s hold).trans_le hle
  · exact hkr ▸ hr

lemma Below.exists_insert {r : α} (h : t.Below n) (hr : key r = n) : ∃ u, t.insert r = some u :=
  Table.exists_insert (hr ▸ h.get_eq_none)

end Below

end Table

end Library
