import HamiCloud.Library.Table

/-!
# Counting the rows of a table

How many rows have a property, and what each statement on a table does to that number.
-/

namespace Library.Table

variable {α κ : Type} {key : α → κ}

def count (t : Table key) (p : α → Bool) : Nat := t.rows.countP p

/-- The keys of the rows that are counted. -/
def keysWhere (t : Table key) (p : α → Bool) : List κ := (t.rows.filter p).map key

lemma length_keysWhere (t : Table key) (p : α → Bool) : (t.keysWhere p).length = t.count p := by
  rw [keysWhere, List.length_map, count, List.countP_eq_length_filter]

lemma nodup_keysWhere (t : Table key) (p : α → Bool) : (t.keysWhere p).Nodup :=
  t.nodup.sublist (List.filter_sublist.map key)

variable [DecidableEq κ] {t u : Table key} {k : κ} {r : α} {f : α → α} {p q : α → Bool}

lemma countP_replace {k : κ} {f : α → α} {p : α → Bool} {r : α} {rows : List α} (hnd : (rows.map key).Nodup)
    (hr : r ∈ rows) (hk : key r = k) :
    (rows.map (fun s => if key s = k then f s else s)).countP p + (p r).toNat =
      rows.countP p + (p (f r)).toNat := by
  induction rows with
  | nil => cases hr
  | cons s rows ih =>
    rw [List.map_cons, List.nodup_cons] at hnd
    rw [List.map_cons, List.countP_cons, List.countP_cons]
    rcases List.mem_cons.mp hr with rfl | hr
    · -- the other rows have other keys
      have hid : rows.map (fun s => if key s = k then f s else s) = rows := by
        refine (List.map_congr_left (g := id) fun s hs => if_neg fun he => ?_).trans (List.map_id rows)
        exact hnd.1 (List.mem_map.mpr ⟨s, hs, he.trans hk.symm⟩)
      rw [hid, if_pos hk]
      cases p r <;> cases p (f r) <;> simp
    · have hne : key s ≠ k := by
        intro he
        exact hnd.1 (List.mem_map.mpr ⟨r, hr, hk.trans he.symm⟩)
      have hrest := ih hnd.2 hr
      rw [if_neg hne]
      omega

/-- An update of one row takes it out of the count and puts the new row in. -/
lemma count_set (h : t.get k = some r) (hf : ∀ r, key (f r) = key r) (p : α → Bool) :
    (t.set k f hf).count p + (p r).toNat = t.count p + (p (f r)).toNat := by
  have hrows : (t.set k f hf).rows = t.rows.map (fun s => if key s = k then f s else s) := by
    simp only [set, update, decide_eq_true_eq]
  rw [count, count, hrows]
  exact countP_replace t.nodup (mem_of_get h) (key_of_get h)

lemma count_insert (h : t.insert r = some u) (p : α → Bool) : u.count p = t.count p + (p r).toNat := by
  rw [count, count, rows_insert h, List.countP_append, List.countP_singleton]
  cases p r <;> rfl

lemma mem_keysWhere {k : κ} : k ∈ t.keysWhere p ↔ ∃ r, t.get k = some r ∧ p r = true := by
  simp only [keysWhere, List.mem_map, List.mem_filter]
  constructor
  · rintro ⟨r, ⟨hr, hp⟩, rfl⟩
    exact ⟨r, get_of_mem hr, hp⟩
  · rintro ⟨r, hr, hp⟩
    exact ⟨r, ⟨mem_of_get hr, hp⟩, key_of_get hr⟩

/-- Rows counted on one side are counted on the other. -/
lemma count_le (h : ∀ k r, t.get k = some r → p r = true → ∃ s, u.get k = some s ∧ q s = true) :
    t.count p ≤ u.count q := by
  rw [← length_keysWhere, ← length_keysWhere]
  refine ((nodup_keysWhere t p).subperm fun k hk => ?_).length_le
  obtain ⟨r, hr, hp⟩ := mem_keysWhere.mp hk
  exact mem_keysWhere.mpr (h k r hr hp)

/-- The same, with one key left out. -/
lemma count_le_succ (k₀ : κ)
    (h : ∀ k r, t.get k = some r → p r = true → k ≠ k₀ → ∃ s, u.get k = some s ∧ q s = true) :
    t.count p ≤ u.count q + 1 := by
  rw [← length_keysWhere, ← length_keysWhere, ← List.length_cons (a := k₀)]
  refine ((nodup_keysWhere t p).subperm fun k hk => ?_).length_le
  by_cases hk₀ : k = k₀
  · exact hk₀ ▸ List.mem_cons_self
  · obtain ⟨r, hr, hp⟩ := mem_keysWhere.mp hk
    exact List.mem_cons_of_mem _ (mem_keysWhere.mpr (h k r hr hp hk₀))

end Library.Table
