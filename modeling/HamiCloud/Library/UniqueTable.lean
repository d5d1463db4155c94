import HamiCloud.Library.Table

/-!
# Tables with a second unique key

A table whose rows differ in a second key as well, as `UNIQUE (…)` asks for beside the primary key. `find` looks a row
up by the second key; an insertion is refused on either key, and an update keeps both.
-/

namespace Library

structure UniqueTable {α κ ι : Type} (key : α → κ) (alt : α → ι) extends Table key where
  unique : (rows.map alt).Nodup

namespace UniqueTable

variable {α κ ι : Type} {key : α → κ} {alt : α → ι}

lemma nodup_map_concat {β : Type} {l : List α} {f : α → β} {r : α} (hl : (l.map f).Nodup) (hr : f r ∉ l.map f) :
    ((l ++ [r]).map f).Nodup := by
  rw [List.map_append, List.map_singleton, ← List.concat_eq_append]
  exact hl.concat hr

def empty : UniqueTable key alt := ⟨.empty, List.nodup_nil⟩

def update (t : UniqueTable key alt) (p : α → Bool) (f : α → α) (hf : ∀ r, key (f r) = key r := by intro _; rfl)
    (ha : ∀ r, alt (f r) = alt r := by intro _; rfl) : UniqueTable key alt where
  toTable := t.toTable.update p f hf
  unique := by
    rw [Table.map_rows_update _ _ _ _ ha]
    exact t.unique

def filter (t : UniqueTable key alt) (p : α → Bool) : UniqueTable key alt where
  toTable := t.toTable.filter p
  unique := t.unique.sublist (List.filter_sublist.map alt)

variable {t u : UniqueTable key alt} {i : ι} {k : κ} {r s : α}

section Find

variable [DecidableEq ι]

/-- The row with the second key. -/
def find (t : UniqueTable key alt) (i : ι) : Option α := Table.get ⟨t.rows, t.unique⟩ i

lemma mem_of_find (h : t.find i = some r) : r ∈ t.rows := Table.mem_of_get (t := ⟨t.rows, t.unique⟩) h

lemma alt_of_find (h : t.find i = some r) : alt r = i := Table.key_of_get h

lemma find_of_mem (h : r ∈ t.rows) : t.find (alt r) = some r := Table.get_of_mem (t := ⟨t.rows, t.unique⟩) h

lemma find_filter (p : α → Bool) (i : ι) : (t.filter p).find i = (t.find i).filter p :=
  Table.get_filter ⟨t.rows, t.unique⟩ p i

lemma eq_of_alt_eq (hr : r ∈ t.rows) (hs : s ∈ t.rows) (h : alt r = alt s) : r = s :=
  Option.some.inj ((find_of_mem hr).symm.trans ((congrArg t.find h).trans (find_of_mem hs)))

end Find

section Statements

variable [DecidableEq κ]

def set (t : UniqueTable key alt) (k : κ) (f : α → α) (hf : ∀ r, key (f r) = key r := by intro _; rfl)
    (ha : ∀ r, alt (f r) = alt r := by intro _; rfl) : UniqueTable key alt where
  toTable := t.toTable.set k f hf
  unique := by
    rw [Table.set, Table.map_rows_update _ _ _ _ ha]
    exact t.unique

def erase (t : UniqueTable key alt) (k : κ) : UniqueTable key alt where
  toTable := t.toTable.erase k
  unique := t.unique.sublist (List.filter_sublist.map alt)

lemma mem_set {f : α → α} {hf : ∀ r, key (f r) = key r} {ha : ∀ r, alt (f r) = alt r} :
    s ∈ (t.set k f hf ha).rows ↔ ∃ r ∈ t.rows, s = if key r = k then f r else r := by
  simp [set, Table.set, Table.update, eq_comm]

lemma mem_erase : s ∈ (t.erase k).rows ↔ s ∈ t.rows ∧ key s ≠ k := Table.mem_erase

variable [DecidableEq ι]

def insert (t : UniqueTable key alt) (r : α) : Option (UniqueTable key alt) :=
  if h : key r ∈ t.rows.map key ∨ alt r ∈ t.rows.map alt then none
  else some ⟨⟨t.rows ++ [r], nodup_map_concat t.nodup (not_or.mp h).1⟩, nodup_map_concat t.unique (not_or.mp h).2⟩

lemma insert_eq_some (h : t.insert r = some u) :
    u.rows = t.rows ++ [r] ∧ (∀ s ∈ t.rows, key s ≠ key r) ∧ ∀ s ∈ t.rows, alt s ≠ alt r := by
  unfold insert at h
  split at h
  · cases h
  · rename_i hfresh
    obtain ⟨hkey, halt⟩ := not_or.mp hfresh
    cases h
    exact ⟨rfl, fun s hs he => hkey (he ▸ List.mem_map_of_mem hs), fun s hs he => halt (he ▸ List.mem_map_of_mem hs)⟩

lemma mem_insert (h : t.insert r = some u) : s ∈ u.rows ↔ s ∈ t.rows ∨ s = r := by
  rw [(insert_eq_some h).1, List.mem_append, List.mem_singleton]

lemma toTable_insert (h : t.insert r = some u) : t.toTable.insert r = some u.toTable := by
  unfold insert at h
  split at h
  · cases h
  · rename_i hfresh
    cases h
    exact dif_neg (not_or.mp hfresh).1

end Statements

/-! ### Keys drawn from a counter -/

section Counter

variable {α ι : Type} {key : α → Nat} {alt : α → ι} {t u : UniqueTable key alt} {n m k : Nat} {i : ι}

/-- All keys are below the next value of the counter they are drawn from. -/
def Below (t : UniqueTable key alt) (n : Nat) : Prop := ∀ s ∈ t.rows, key s < n

/-- The key was drawn, and no row but one with the second key can have it. -/
def Names (t : UniqueTable key alt) (n k : Nat) (i : ι) : Prop := k < n ∧ ∀ s ∈ t.rows, key s = k → alt s = i

/-- A later state of the table and the counter: the rows keep both keys, except for new ones. -/
def Follows (t : UniqueTable key alt) (n : Nat) (u : UniqueTable key alt) (m : Nat) : Prop :=
  n ≤ m ∧ ∀ s ∈ u.rows, (∃ r ∈ t.rows, key r = key s ∧ alt r = alt s) ∨ n ≤ key s ∧ key s < m

lemma Follows.refl (t : UniqueTable key alt) (n : Nat) : t.Follows n t n :=
  ⟨le_rfl, fun s hs => .inl ⟨s, hs, rfl, rfl⟩⟩

lemma follows_set {f : α → α} {hf : ∀ r, key (f r) = key r} {ha : ∀ r, alt (f r) = alt r} :
    t.Follows n (t.set k f hf ha) n := by
  refine ⟨le_rfl, fun s hs => ?_⟩
  obtain ⟨r, hr, rfl⟩ := mem_set.mp hs
  refine .inl ⟨r, hr, ?_⟩
  split
  · exact ⟨(hf r).symm, (ha r).symm⟩
  · exact ⟨rfl, rfl⟩

lemma follows_erase : t.Follows n (t.erase k) n :=
  ⟨le_rfl, fun s hs => .inl ⟨s, (mem_erase.mp hs).1, rfl, rfl⟩⟩

lemma follows_insert [DecidableEq ι] {r : α} (h : t.insert r = some u) (hle : n ≤ key r) (hlt : key r < m) :
    t.Follows n u m := by
  refine ⟨hle.trans hlt.le, fun s hs => ?_⟩
  rcases (mem_insert h).mp hs with hs | rfl
  · exact .inl ⟨s, hs, rfl, rfl⟩
  · exact .inr ⟨hle, hlt⟩

lemma Below.follows (h : t.Below n) (hf : t.Follows n u m) : u.Below m := by
  intro s hs
  rcases hf.2 s hs with ⟨r, hr, hkey, -⟩ | ⟨-, hlt⟩
  · exact hkey ▸ (h r hr).trans_le hf.1
  · exact hlt

lemma Names.follows (h : t.Names n k i) (hf : t.Follows n u m) : u.Names m k i := by
  refine ⟨h.1.trans_le hf.1, fun s hs hk => ?_⟩
  rcases hf.2 s hs with ⟨r, hr, hkey, halt⟩ | ⟨hle, -⟩
  · exact halt ▸ h.2 r hr (hkey.trans hk)
  · exact absurd h.1 (hk ▸ hle.not_gt)

lemma Below.names_of_find [DecidableEq ι] (h : t.Below n) {r : α} (hr : t.find i = some r) : t.Names n (key r) i := by
  have hmem := mem_of_find hr
  refine ⟨h r hmem, fun s hs hk => ?_⟩
  have heq : some s = some r := (Table.get_of_mem hs).symm.trans (hk ▸ Table.get_of_mem hmem)
  rw [Option.some.inj heq]
  exact alt_of_find hr

end Counter

end UniqueTable

end Library
