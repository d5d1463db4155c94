import HamiCloud.Library.RowNumber

/-!
# Fair scans

A scan that numbers the rows of each group, takes the rows whose number is within the quota of their group, and
returns a limited number of them by number first and by time second. Every group gets an initial segment of its
rows, and a row is cut by the limit only in favour of rows with numbers that are not greater.
-/

namespace Library

variable {α γ : Type}

/-- Sorting is stable, so it commutes with the choice of a part of the rows. -/
lemma filter_orderedInsert {le : α → α → Prop} [DecidableRel le] [IsTrans α le] (p : α → Bool) (a : α) (l : List α)
    (hl : l.Pairwise le) :
    (l.orderedInsert le a).filter p = if p a then (l.filter p).orderedInsert le a else l.filter p := by
  induction l with
  | nil => by_cases ha : p a <;> simp [ha]
  | cons b l ih =>
    obtain ⟨hb, hl⟩ := List.pairwise_cons.mp hl
    by_cases hab : le a b
    · have hall : ∀ c ∈ (b :: l).filter p, le a c := by
        intro c hc
        rcases List.mem_cons.mp (List.mem_filter.mp hc).1 with rfl | hc
        · exact hab
        · exact IsTrans.trans a b c hab (hb c hc)
      rw [List.orderedInsert_cons, if_pos hab]
      by_cases ha : p a
      · rw [List.filter_cons_of_pos ha, if_pos ha]
        cases hf : (b :: l).filter p with
        | nil => rfl
        | cons c cs =>
          rw [hf] at hall
          rw [List.orderedInsert_cons, if_pos (hall c List.mem_cons_self)]
      · rw [List.filter_cons_of_neg ha, if_neg ha]
    · rw [List.orderedInsert_cons, if_neg hab]
      by_cases hpb : p b
      · rw [List.filter_cons_of_pos hpb, List.filter_cons_of_pos hpb, ih hl]
        split
        · rw [List.orderedInsert_cons, if_neg hab]
        · rfl
      · rw [List.filter_cons_of_neg hpb, List.filter_cons_of_neg hpb, ih hl]

lemma filter_insertionSort {le : α → α → Prop} [DecidableRel le] [IsTrans α le] [Std.Total le] (p : α → Bool)
    (l : List α) : (l.insertionSort le).filter p = (l.filter p).insertionSort le := by
  induction l with
  | nil => rfl
  | cons a l ih =>
    rw [List.insertionSort_cons, filter_orderedInsert p a _ (List.pairwise_insertionSort _ _), ih]
    by_cases ha : p a
    · rw [if_pos ha, List.filter_cons_of_pos ha, List.insertionSort_cons]
    · rw [if_neg ha, List.filter_cons_of_neg ha]

variable [DecidableEq γ] (group : α → γ)

/-- The rows of one group are numbered from one. -/
lemma rowNumbers_filter (rows : List α) (g : γ) :
    (rowNumbers group rows).filter (fun x => group x.2 = g) =
      ((rows.filter (fun r => group r = g)).zipIdx 1).map Prod.swap := by
  induction rows using List.reverseRecOn with
  | nil => rfl
  | append_singleton rows r ih =>
    rw [rowNumbers_append_singleton, List.filter_append, List.filter_append, ih]
    by_cases hg : group r = g
    · subst hg
      simp [List.zipIdx_append, List.countP_eq_length_filter, Nat.add_comm]
    · simp [hg]

lemma zipIdx_filter_lt (l : List α) (k c : Nat) :
    (l.zipIdx k).filter (fun x => x.2 < k + c) = (l.take c).zipIdx k := by
  induction l generalizing k c with
  | nil => simp
  | cons a l ih =>
    cases c with
    | zero =>
      rw [List.take_zero, List.zipIdx_nil, List.filter_eq_nil_iff]
      intro x hx
      have hle := List.le_snd_of_mem_zipIdx hx
      simp only [Nat.add_zero, decide_eq_true_eq]
      omega
    | succ c =>
      have hrest := ih (k + 1) c
      rw [show k + 1 + c = k + (c + 1) by omega] at hrest
      simp [List.zipIdx_cons, hrest]

/-- The rows of a group with a number up to `c` are its first `c` rows. -/
lemma rowNumbers_take (rows : List α) (g : γ) (c : Nat) :
    (((rowNumbers group rows).filter (fun x => group x.2 = g)).filter (fun x => x.1 ≤ c)).map Prod.snd =
      (rows.filter (fun r => group r = g)).take c := by
  have hlt : (fun x : α × Nat => decide (x.2 ≤ c)) = fun x => decide (x.2 < 1 + c) := by
    funext x
    simp only [decide_eq_decide]
    omega
  rw [rowNumbers_filter, List.filter_map, List.map_map]
  change List.map Prod.fst (List.filter (fun x : α × Nat => decide (x.2 ≤ c)) _) = _
  rw [hlt, zipIdx_filter_lt, List.zipIdx_map_fst]

/-- The number of a row is its place among the rows of its group. -/
lemma getElem?_of_mem_rowNumbers {rows : List α} {x : Nat × α} (h : x ∈ rowNumbers group rows) :
    1 ≤ x.1 ∧ (rows.filter (fun r => group r = group x.2))[x.1 - 1]? = some x.2 := by
  have hmem : x ∈ (rowNumbers group rows).filter (fun y => group y.2 = group x.2) :=
    List.mem_filter.mpr ⟨h, by simp⟩
  rw [rowNumbers_filter] at hmem
  obtain ⟨⟨r, n⟩, hidx, rfl⟩ := List.mem_map.mp hmem
  exact ⟨List.le_snd_of_mem_zipIdx hidx, (List.mk_mem_zipIdx_iff_le_and_getElem?_sub.mp hidx).2⟩

lemma rowNumbers_inj {rows : List α} {x y : Nat × α} (hx : x ∈ rowNumbers group rows)
    (hy : y ∈ rowNumbers group rows) (hg : group x.2 = group y.2) (hn : x.1 = y.1) : x = y := by
  have hx' := (getElem?_of_mem_rowNumbers group hx).2
  have hy' := (getElem?_of_mem_rowNumbers group hy).2
  rw [hg, hn, hy'] at hx'
  exact Prod.ext hn (Option.some.inj hx').symm

/-! ### The scan -/

variable (time : α → Nat)

/-- By number, then by time. -/
abbrev numberedBefore (a b : Nat × α) : Prop := a.1 < b.1 ∨ (a.1 = b.1 ∧ time a.2 ≤ time b.2)

instance : IsTrans (Nat × α) (numberedBefore time) where
  trans a b c hab hbc := by
    unfold numberedBefore at *
    omega

instance : Std.Total (numberedBefore time) where
  total a b := by
    unfold numberedBefore
    omega

/-- The rows within the quota of their group. -/
def withinQuota (quota : γ → Nat) (rows : List α) : List (Nat × α) :=
  (rowNumbers group rows).filter fun x => x.1 ≤ quota (group x.2)

def fairScan (quota : γ → Nat) (limit : Nat) (rows : List α) : List (Nat × α) :=
  ((withinQuota group quota rows).insertionSort (numberedBefore time)).take limit

variable {group time} {quota : γ → Nat} {limit : Nat} {rows : List α}

lemma mem_of_mem_fairScan {x : Nat × α} (h : x ∈ fairScan group time quota limit rows) :
    x ∈ rowNumbers group rows ∧ x.1 ≤ quota (group x.2) := by
  have hmem := (List.mem_insertionSort _).mp (List.mem_of_mem_take h)
  exact ⟨(List.mem_filter.mp hmem).1, of_decide_eq_true (List.mem_filter.mp hmem).2⟩

lemma fairScan_pairwise : (fairScan group time quota limit rows).Pairwise (numberedBefore time) :=
  (List.pairwise_insertionSort _ _).sublist (List.take_sublist _ _)

/-- In one group the order by number is the order of the rows. -/
lemma sorted_filter_group (g : γ) :
    ((withinQuota group quota rows).insertionSort (numberedBefore time)).filter (fun x => group x.2 = g) =
      (withinQuota group quota rows).filter (fun x => group x.2 = g) := by
  have hperm := (List.perm_insertionSort (numberedBefore time) (withinQuota group quota rows)).filter
    (fun x => group x.2 = g)
  have hsorted : (((withinQuota group quota rows).insertionSort (numberedBefore time)).filter
      (fun x => group x.2 = g)).Pairwise (fun a b => a.1 ≤ b.1) := by
    refine ((List.pairwise_insertionSort (numberedBefore time) _).imp ?_).filter _
    intro a b hab
    rcases hab with hlt | ⟨heq, -⟩
    · exact hlt.le
    · exact heq.le
  have hrows : ((withinQuota group quota rows).filter (fun x => group x.2 = g)).Pairwise (fun a b => a.1 ≤ b.1) := by
    have hsub : ((withinQuota group quota rows).filter (fun x => group x.2 = g)).Sublist
        ((rowNumbers group rows).filter (fun x => group x.2 = g)) := List.filter_sublist.filter _
    refine List.Pairwise.sublist hsub ?_
    rw [rowNumbers_filter, List.pairwise_map]
    have hnumbers : (((rows.filter (fun r => group r = g)).zipIdx 1).map Prod.snd).Pairwise (· < ·) := by
      rw [List.zipIdx_map_snd]
      exact List.pairwise_lt_range'
    exact (List.pairwise_map.mp hnumbers).imp fun hlt => hlt.le
  -- two rows of the group with the same number are the same row
  refine hperm.eq_of_pairwise (fun a b ha hb hab hba => ?_) hsorted hrows
  obtain ⟨ha, hag⟩ := List.mem_filter.mp ha
  obtain ⟨hb, hbg⟩ := List.mem_filter.mp hb
  exact rowNumbers_inj group (List.mem_filter.mp ((List.mem_insertionSort _).mp ha)).1 (List.mem_filter.mp hb).1
    ((of_decide_eq_true hag).trans (of_decide_eq_true hbg).symm) (le_antisymm hab hba)

lemma withinQuota_group (g : γ) :
    ((withinQuota group quota rows).filter (fun x => group x.2 = g)).map Prod.snd =
      (rows.filter (fun r => group r = g)).take (quota g) := by
  rw [← rowNumbers_take, withinQuota, List.filter_filter, List.filter_filter]
  congr 1
  refine List.filter_congr fun x _ => ?_
  by_cases hg : group x.2 = g
  · simp [hg]
  · simp [hg]

variable (group time quota limit rows) in
/-- A group gets an initial segment of its rows, within its quota. -/
theorem fairScan_segment (g : γ) : ∃ n, n ≤ quota g ∧
    ((fairScan group time quota limit rows).filter (fun x => group x.2 = g)).map Prod.snd =
      (rows.filter (fun r => group r = g)).take n := by
  have hprefix := ((List.take_prefix limit ((withinQuota group quota rows).insertionSort (numberedBefore time))).filter
    (fun x => group x.2 = g)).map Prod.snd
  rw [sorted_filter_group, withinQuota_group] at hprefix
  refine ⟨min (((fairScan group time quota limit rows).filter (fun x => group x.2 = g)).map Prod.snd).length (quota g),
    min_le_right _ _, ?_⟩
  rw [← List.take_take]
  exact List.prefix_iff_eq_take.mp hprefix

variable (time) in
/-- When the limit cuts nothing, every group gets its quota. -/
theorem fairScan_of_fits (hfits : (withinQuota group quota rows).length ≤ limit) (g : γ) :
    ((fairScan group time quota limit rows).filter (fun x => group x.2 = g)).map Prod.snd =
      (rows.filter (fun r => group r = g)).take (quota g) := by
  rw [fairScan, List.take_of_length_le (by simpa using hfits), sorted_filter_group, withinQuota_group]

/-- A row within its quota is cut only in favour of rows whose numbers are not greater. -/
theorem fairScan_cut {x y : Nat × α} (hx : x ∈ withinQuota group quota rows)
    (hcut : x ∉ fairScan group time quota limit rows) (hy : y ∈ fairScan group time quota limit rows) : y.1 ≤ x.1 := by
  set sorted := (withinQuota group quota rows).insertionSort (numberedBefore time) with hs
  have hmem : x ∈ sorted.take limit ++ sorted.drop limit := by
    rw [List.take_append_drop, hs, List.mem_insertionSort]
    exact hx
  have hdrop : x ∈ sorted.drop limit := (List.mem_append.mp hmem).resolve_left hcut
  have hpair : (sorted.take limit ++ sorted.drop limit).Pairwise (numberedBefore time) := by
    rw [List.take_append_drop]
    exact List.pairwise_insertionSort _ _
  rcases (List.pairwise_append.mp hpair).2.2 y hy x hdrop with hlt | ⟨heq, -⟩
  · exact hlt.le
  · exact heq.le

end Library
