import HamiCloud.Library.Keyset

/-!
# Segments of a list

Consecutive elements of a list without repetitions. Two segments that share an element join to one, and a segment of a
descending list has every element between two of its own. A page of a keyset pagination is a segment of its rows.
-/

namespace Library

section Joins

variable {α : Type} {s l₁ l₂ : List α} {x : α}

/-- The place of an element in a list without repetitions. -/
lemma split_unique {p q p' q' : List α} (hs : (p ++ x :: q).Nodup) (h : p ++ x :: q = p' ++ x :: q') :
    p = p' ∧ q = q' := by
  obtain ⟨-, hq, hdisjoint⟩ := List.nodup_append.mp hs
  have hp : x ∉ p := fun hx => hdisjoint x hx x List.mem_cons_self rfl
  obtain ⟨hleft, -, hright⟩ := (List.append_cons_inj_of_notMem hp (List.nodup_cons.mp hq).1).mp h
  exact ⟨hleft, hright⟩

/-- A segment that ends with an element and one that begins with it. -/
lemma infix_join (hs : s.Nodup) (h₁ : l₁ ++ [x] <:+: s) (h₂ : x :: l₂ <:+: s) : l₁ ++ x :: l₂ <:+: s := by
  obtain ⟨a, b, rfl⟩ := h₁
  obtain ⟨c, d, h⟩ := h₂
  have heq : (a ++ l₁) ++ x :: b = c ++ x :: (l₂ ++ d) := by simpa using h.symm
  obtain ⟨-, rfl⟩ := split_unique (by simpa using hs) heq
  exact ⟨a, d, by simp⟩

/-- Of two segments that begin with the same element one goes on with the other. -/
lemma prefix_or_prefix (hs : s.Nodup) (h₁ : x :: l₁ <:+: s) (h₂ : x :: l₂ <:+: s) : l₁ <+: l₂ ∨ l₂ <+: l₁ := by
  obtain ⟨a, b, rfl⟩ := h₁
  obtain ⟨c, d, h⟩ := h₂
  have heq : a ++ x :: (l₁ ++ b) = c ++ x :: (l₂ ++ d) := by simpa using h.symm
  obtain ⟨-, hrest⟩ := split_unique (by simpa using hs) heq
  exact List.prefix_or_prefix_of_prefix (l₁.prefix_append b) (hrest ▸ l₂.prefix_append d)

/-- What a segment adds to another that has its first element. -/
lemma infix_merge [DecidableEq α] (hs : s.Nodup) (h₁ : l₁ <:+: s) (h₂ : x :: l₂ <:+: s) (hx : x ∈ l₁) :
    l₁ ++ (x :: l₂).filter (· ∉ l₁) <:+: s := by
  obtain ⟨p, q, rfl⟩ := List.append_of_mem hx
  have hq : x :: q <:+: s := (List.suffix_append p (x :: q)).isInfix.trans h₁
  have hp : p ++ [x] <:+: s := by
    refine List.IsInfix.trans ?_ h₁
    exact ⟨[], q, by simp⟩
  rcases prefix_or_prefix hs hq h₂ with ⟨t, rfl⟩ | ⟨t, rfl⟩
  · have hjoined : p ++ x :: (q ++ t) <:+: s := infix_join hs hp h₂
    have hnodup : (p ++ x :: (q ++ t)).Nodup := hs.sublist hjoined.sublist
    have hnew : ∀ y ∈ t, y ∉ p ++ x :: q := by
      have happ : ((p ++ x :: q) ++ t).Nodup := by simpa using hnodup
      exact fun y hy hold => (List.nodup_append.mp happ).2.2 y hold y hy rfl
    have hadds : (x :: (q ++ t)).filter (· ∉ p ++ x :: q) = t := by
      rw [← List.cons_append, List.filter_append, List.filter_eq_nil_iff.mpr, List.nil_append,
        List.filter_eq_self.mpr]
      · exact fun y hy => decide_eq_true (hnew y hy)
      · exact fun y hy hnot => of_decide_eq_true hnot (List.mem_append_right p hy)
    rw [hadds]
    simpa using hjoined
  · have hnone : (x :: l₂).filter (· ∉ p ++ x :: (l₂ ++ t)) = [] := by
      rw [List.filter_eq_nil_iff]
      exact fun y hy hnot => of_decide_eq_true hnot (List.mem_append_right p (List.mem_append_left t hy))
    rw [hnone, List.append_nil]
    exact h₁

end Joins

section Descending

variable {α κ : Type} [LinearOrder κ] {key : α → κ} {s l : List α}

/-- A segment of a descending list has every element between two of its own. -/
lemma mem_of_between (hs : s.Pairwise fun a b => key b < key a) (hl : l <:+: s) {r a b : α} (hr : r ∈ s) (ha : a ∈ l)
    (hb : b ∈ l) (har : key a ≤ key r) (hrb : key r ≤ key b) : r ∈ l := by
  obtain ⟨before, after, rfl⟩ := hl
  obtain ⟨hbl, -, hba⟩ := List.pairwise_append.mp hs
  obtain ⟨-, -, hbefore⟩ := List.pairwise_append.mp hbl
  rcases List.mem_append.mp hr with hr | hr
  · rcases List.mem_append.mp hr with hr | hr
    · exact absurd hrb (not_le.mpr (hbefore r hr b hb))
    · exact hr
  · exact absurd har (not_le.mpr (hba a (List.mem_append_right _ ha) r hr))

lemma distinctKeys_of_pairwise (hs : s.Pairwise fun a b => key b < key a) : DistinctKeys key s :=
  List.pairwise_map.mpr (hs.imp fun h => h.ne')

lemma remaining_none_eq (hs : s.Pairwise fun a b => key b < key a) : remaining key none s = s :=
  (remaining_none_perm s).eq_of_pairwise (fun _ _ _ _ hab hba => absurd hba (lt_asymm hab))
    (remaining_pairwise (distinctKeys_of_pairwise hs)) hs

lemma page_prefix (key : α → κ) (s : List α) (cursor : Option κ) (limit : Nat) :
    (page key s cursor limit).1 <+: remaining key cursor s := by
  unfold page
  dsimp only
  split
  · exact (List.take_prefix _ _).trans (List.take_prefix _ _)
  · exact List.take_prefix _ _

lemma page_cursor {cursor : Option κ} {limit : Nat} {c : κ}
    (h : (page key s cursor limit).2 = some c) : ∃ r ∈ s, key r = c := by
  unfold page at h
  dsimp only at h
  split at h
  · obtain ⟨r, hr, rfl⟩ := Option.map_eq_some_iff.mp h
    have hmem := List.mem_of_mem_take (List.mem_of_getElem? hr)
    exact ⟨r, (mem_remaining.mp hmem).1, rfl⟩
  · cases h

/-- The first page. -/
lemma page_first_segment (hs : s.Pairwise fun a b => key b < key a) (limit : Nat) :
    (page key s none limit).1 <:+: s := by
  have hprefix := page_prefix key s none limit
  rw [remaining_none_eq hs] at hprefix
  exact hprefix.isInfix

/-- The page that continues a row. -/
lemma page_after_segment (hs : s.Pairwise fun a b => key b < key a) {r : α} (hr : r ∈ s) (limit : Nat) :
    r :: (page key s (some (key r)) limit).1 <:+: s := by
  obtain ⟨n, hn⟩ := List.getElem?_of_mem hr
  have hprefix := page_prefix key s (some (key r)) limit
  have hrest : remaining key (some (key r)) s = s.drop (n + 1) := by
    have hn' : (remaining key none s)[n]? = some r := by rw [remaining_none_eq hs, hn]
    rw [remaining_after (distinctKeys_of_pairwise hs) hn', remaining_none_eq hs]
  rw [hrest] at hprefix
  have hdrop : s.drop n = r :: s.drop (n + 1) := by
    obtain ⟨hlt, rfl⟩ := List.getElem?_eq_some_iff.mp hn
    exact List.drop_eq_getElem_cons hlt
  exact ((List.cons_prefix_cons.mpr ⟨rfl, hprefix⟩).isInfix).trans (hdrop ▸ (List.drop_suffix n s).isInfix)

end Descending

end Library
