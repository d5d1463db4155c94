import Mathlib

/-!
# Row numbers in a partition

`ROW_NUMBER() OVER (PARTITION BY group)` on rows that are already in order: every row gets its place among the
rows of its group.
-/

namespace Library

variable {α γ : Type} [DecidableEq γ] (group : α → γ)

def rowNumbers (rows : List α) : List (Nat × α) :=
  rows.zipIdx.map fun (r, i) => ((rows.take i).countP (fun s => group s = group r) + 1, r)

lemma rowNumbers_append_singleton (rows : List α) (r : α) :
    rowNumbers group (rows ++ [r]) =
      rowNumbers group rows ++ [(rows.countP (fun s => group s = group r) + 1, r)] := by
  rw [rowNumbers, List.zipIdx_append, List.map_append]
  congr 1
  · refine List.map_congr_left fun ⟨s, i⟩ hs => ?_
    have hi : i ≤ rows.length := (List.snd_lt_of_mem_zipIdx hs).le
    simp only [List.take_append_of_le_length hi]
  · simp

/-- In each group the rows with a number up to `n` are the first `n`. -/
theorem countP_rowNumbers (rows : List α) (g : γ) (n : Nat) :
    (rowNumbers group rows).countP (fun x => group x.2 = g && x.1 ≤ n) =
      min n (rows.countP (fun r => group r = g)) := by
  induction rows using List.reverseRecOn with
  | nil => simp [rowNumbers]
  | append_singleton rows r ih =>
    rw [rowNumbers_append_singleton, List.countP_append, List.countP_append, ih, List.countP_singleton,
      List.countP_singleton]
    by_cases hg : group r = g
    · subst hg
      simp only [decide_true, Bool.true_and, decide_eq_true_eq, if_true]
      split <;> omega
    · simp [hg]

end Library
