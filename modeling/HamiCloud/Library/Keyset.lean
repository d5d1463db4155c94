import HamiCloud.Library.FairScan

/-!
# Keyset pagination

Rows with distinct keys are listed from the greatest key down. A page takes the rows below a cursor, up to a limit,
and looks one row ahead: if there is one more row, the key of the last row of the page is the next cursor. Following
the cursors lists every row once, in order, even if greater rows are inserted between two requests.
-/

namespace Library

variable {α κ : Type} [LinearOrder κ] (key : α → κ)

/-- By descending keys. -/
abbrev keyDescending (a b : α) : Prop := key b ≤ key a

instance : IsTrans α (keyDescending key) where
  trans _ _ _ hab hbc := le_trans hbc hab

instance : Std.Total (keyDescending key) where
  total a b := le_total (key b) (key a)

/-- The rows below the cursor, the greatest key first. -/
def remaining (cursor : Option κ) (rows : List α) : List α :=
  (rows.filter fun r => cursor.all fun c => key r < c).insertionSort (keyDescending key)

/-- The rows of a page and the next cursor. -/
def page (rows : List α) (cursor : Option κ) (limit : Nat) : List α × Option κ :=
  let found := (remaining key cursor rows).take (limit + 1)
  if limit < found.length then (found.take limit, found[limit - 1]?.map key) else (found, none)

/-- The requests of a client that follows the cursors: request `n` meets the rows `rows n` and has the limit
`limit n`. The result is the list of pages, or nothing if the cursors go on for longer than the fuel. -/
def follow (rows : Nat → List α) (limit : Nat → Nat) : Nat → Nat → Option κ → Option (List (List α))
  | 0, _, _ => none
  | fuel + 1, n, cursor =>
    match page key (rows n) cursor (limit n) with
    | (items, none) => some [items]
    | (items, some c) => (follow rows limit fuel (n + 1) (some c)).map (items :: ·)

/-- No two rows have the same key. -/
def DistinctKeys (rows : List α) : Prop := (rows.map key).Nodup

variable {key} {rows : List α} {cursor : Option κ} {limit : Nat}

lemma mem_remaining {r : α} : r ∈ remaining key cursor rows ↔ r ∈ rows ∧ ∀ c ∈ cursor, key r < c := by
  unfold remaining
  rw [List.mem_insertionSort, List.mem_filter]
  cases cursor <;> simp

lemma remaining_none_perm (rows : List α) : (remaining key none rows).Perm rows := by
  have hall : rows.filter (fun r => (none : Option κ).all fun c => key r < c) = rows :=
    List.filter_eq_self.mpr fun _ _ => rfl
  unfold remaining
  rw [hall]
  exact List.perm_insertionSort _ _

/-- The keys that remain are strictly descending. -/
lemma remaining_pairwise (h : DistinctKeys key rows) :
    (remaining key cursor rows).Pairwise fun a b => key b < key a := by
  have hsorted := List.pairwise_insertionSort (keyDescending key)
    (rows.filter fun r => cursor.all fun c => key r < c)
  have hdistinct : (remaining key cursor rows).Pairwise fun a b => key a ≠ key b := by
    have hsub : ((rows.filter fun r => cursor.all fun c => key r < c).map key).Nodup :=
      h.sublist (List.filter_sublist.map key)
    exact List.pairwise_map.mp (((List.perm_insertionSort _ _).map key).nodup_iff.mpr hsub)
  exact hsorted.imp₂ (fun a b hle hne => lt_of_le_of_ne hle (Ne.symm hne)) hdistinct

/-- In a strictly descending list the rows below the `n`-th one are those after it. -/
lemma filter_lt_eq_drop {l : List α} (hl : l.Pairwise fun a b => key b < key a) {n : Nat} {r : α}
    (hr : l[n]? = some r) : l.filter (fun s => key s < key r) = l.drop (n + 1) := by
  induction l generalizing n with
  | nil => simp at hr
  | cons a l ih =>
    obtain ⟨ha, hl⟩ := List.pairwise_cons.mp hl
    cases n with
    | zero =>
      obtain rfl : a = r := by simpa using hr
      rw [List.filter_cons_of_neg (by simp), List.drop_succ_cons, List.drop_zero, List.filter_eq_self]
      exact fun s hs => decide_eq_true (ha s hs)
    | succ n =>
      have hr' : l[n]? = some r := by simpa using hr
      have hlt : key r < key a := ha r (List.mem_of_getElem? hr')
      rw [List.filter_cons_of_neg (by simpa using hlt.le), List.drop_succ_cons]
      exact ih hl hr'

/-- The rows below a row that remains are those of the remaining rows that come after it. -/
lemma remaining_after (h : DistinctKeys key rows) {n : Nat} {r : α} (hr : (remaining key cursor rows)[n]? = some r) :
    remaining key (some (key r)) rows = (remaining key cursor rows).drop (n + 1) := by
  have hmem := mem_remaining.mp (List.mem_of_getElem? hr)
  rw [← filter_lt_eq_drop (remaining_pairwise h) hr]
  unfold remaining
  rw [filter_insertionSort, List.filter_filter]
  congr 1
  refine List.filter_congr fun s _ => ?_
  cases cursor with
  | none => simp
  | some c =>
    have hc : key r < c := hmem.2 c rfl
    by_cases hs : key s < key r
    · simp [hs, hs.trans hc]
    · simp [hs]

lemma page_last (h : (remaining key cursor rows).length ≤ limit) :
    page key rows cursor limit = (remaining key cursor rows, none) := by
  have htake : (remaining key cursor rows).take (limit + 1) = remaining key cursor rows :=
    List.take_of_length_le (h.trans (Nat.le_succ _))
  unfold page
  dsimp only
  rw [htake, if_neg (Nat.not_lt.mpr h)]

lemma page_next (hrows : DistinctKeys key rows) (hpos : 1 ≤ limit)
    (h : limit < (remaining key cursor rows).length) :
    ∃ r ∈ remaining key cursor rows,
      page key rows cursor limit = ((remaining key cursor rows).take limit, some (key r)) ∧
      remaining key (some (key r)) rows = (remaining key cursor rows).drop limit := by
  have hlast : limit - 1 < (remaining key cursor rows).length := (Nat.sub_le _ _).trans_lt h
  have hr : (remaining key cursor rows)[limit - 1]? = some (remaining key cursor rows)[limit - 1] :=
    List.getElem?_eq_getElem hlast
  refine ⟨_, List.getElem_mem hlast, ?_, ?_⟩
  · have hfound : limit < ((remaining key cursor rows).take (limit + 1)).length := by
      rw [List.length_take]
      omega
    unfold page
    dsimp only
    rw [if_pos hfound, List.take_take, List.getElem?_take_of_lt (by omega), hr]
    simp
  · rw [remaining_after hrows hr, Nat.sub_add_cancel hpos]

/-! ### Following the cursors -/

/-- The rows that request `n` meets: between two requests only rows are inserted that are greater than those of the
first one. -/
structure GrowsAbove (key : α → κ) (rows : Nat → List α) : Prop where
  distinct : ∀ n, DistinctKeys key (rows n)
  inserts : ∀ n, ∃ new, (rows (n + 1)).Perm (rows n ++ new) ∧ ∀ r ∈ new, ∀ s ∈ rows 0, key s < key r

variable {snapshot : Nat → List α} {limits : Nat → Nat}

/-- Rows with the same keys are listed alike. -/
lemma remaining_congr {rows' : List α} (h : DistinctKeys key rows) (h' : DistinctKeys key rows')
    (hperm : (remaining key cursor rows').Perm (remaining key cursor rows)) :
    remaining key cursor rows' = remaining key cursor rows :=
  hperm.eq_of_pairwise (fun _ _ _ _ hab hba => absurd hba (lt_asymm hab)) (remaining_pairwise h') (remaining_pairwise h)

lemma GrowsAbove.remaining_eq (h : GrowsAbove key snapshot) {s : α} (hs : s ∈ snapshot 0) (n : Nat) :
    remaining key (some (key s)) (snapshot n) = remaining key (some (key s)) (snapshot 0) := by
  induction n with
  | zero => rfl
  | succ n ih =>
    obtain ⟨new, hperm, hnew⟩ := h.inserts n
    have hnone : new.filter (fun r => (some (key s)).all fun c => key r < c) = [] := by
      rw [List.filter_eq_nil_iff]
      intro r hr
      simpa using (hnew r hr s hs).le
    have hfilter := hperm.filter fun r => (some (key s)).all fun c => decide (key r < c)
    rw [List.filter_append, hnone, List.append_nil] at hfilter
    rw [← ih]
    exact remaining_congr (h.distinct n) (h.distinct (n + 1))
      ((List.perm_insertionSort _ _).trans (hfilter.trans (List.perm_insertionSort _ _).symm))

/-- From a request on, the pages list the rows of the first request that remain. -/
lemma GrowsAbove.follow_eq (h : GrowsAbove key snapshot) (hpos : ∀ n, 1 ≤ limits n) {fuel n : Nat} {cursor : Option κ}
    (hsame : remaining key cursor (snapshot n) = remaining key cursor (snapshot 0))
    (hfuel : (remaining key cursor (snapshot 0)).length < fuel) :
    ∃ pages, follow key snapshot limits fuel n cursor = some pages ∧
      pages.flatten = remaining key cursor (snapshot 0) := by
  induction fuel generalizing n cursor with
  | zero => omega
  | succ fuel ih =>
    unfold follow
    by_cases hlast : (remaining key cursor (snapshot n)).length ≤ limits n
    · rw [page_last hlast]
      exact ⟨_, rfl, by rw [List.flatten_singleton, hsame]⟩
    · obtain ⟨r, hr, hpage, hrest⟩ := page_next (h.distinct n) (hpos n) (Nat.not_le.mp hlast)
      have hr₀ : r ∈ snapshot 0 := (mem_remaining.mp (hsame ▸ hr)).1
      have hrest₀ : remaining key (some (key r)) (snapshot 0) =
          (remaining key cursor (snapshot 0)).drop (limits n) := by
        rw [← h.remaining_eq hr₀ n, hrest, hsame]
      have hmore : limits n < (remaining key cursor (snapshot 0)).length := hsame ▸ Nat.not_le.mp hlast
      have hshorter : (remaining key (some (key r)) (snapshot 0)).length < fuel := by
        rw [hrest₀, List.length_drop]
        have hlimit := hpos n
        omega
      obtain ⟨pages, hfollow, hflat⟩ := ih (h.remaining_eq hr₀ (n + 1)) hshorter
      rw [hpage]
      refine ⟨_, by dsimp only; rw [hfollow]; rfl, ?_⟩
      rw [List.flatten_cons, hflat, hrest₀, hsame, List.take_append_drop]

/-- Following the cursors from the first page ends, and the pages list the rows of the first request once each, by
strictly descending keys. -/
theorem GrowsAbove.follow_lists (h : GrowsAbove key snapshot) (hpos : ∀ n, 1 ≤ limits n) :
    ∃ pages, follow key snapshot limits ((snapshot 0).length + 1) 0 none = some pages ∧
      pages.flatten.Perm (snapshot 0) ∧ pages.flatten.Pairwise fun a b => key b < key a := by
  have hlength : (remaining key none (snapshot 0)).length < (snapshot 0).length + 1 := by
    rw [(remaining_none_perm (snapshot 0)).length_eq]
    exact Nat.lt_succ_self _
  obtain ⟨pages, hfollow, hflat⟩ := h.follow_eq hpos rfl hlength
  refine ⟨pages, hfollow, ?_, ?_⟩
  · rw [hflat]
    exact remaining_none_perm _
  · rw [hflat]
    exact remaining_pairwise (h.distinct 0)

end Library
