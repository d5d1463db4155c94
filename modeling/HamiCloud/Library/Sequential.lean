import Mathlib

/-!
# Consecutive numbers

Lists that hold exactly the numbers from one to their length, in order: what `MAX(number) + 1` produces when no
two writers use the same maximum.
-/

namespace Library

def Sequential (l : List Nat) : Prop := l = List.range' 1 l.length

variable {l : List Nat} {n : Nat}

lemma sequential_nil : Sequential [] := rfl

lemma Sequential.mem_iff (h : Sequential l) : n ∈ l ↔ 1 ≤ n ∧ n ≤ l.length := by
  rw [h, List.mem_range'_1, List.length_range']
  omega

/-- `COALESCE(MAX(number), 0)` is the length. -/
lemma Sequential.max (h : Sequential l) : l.max?.getD 0 = l.length := by
  cases hmax : l.max? with
  | none =>
    rw [List.max?_eq_none_iff] at hmax
    simp [hmax]
  | some m =>
    obtain ⟨hm, hle⟩ := List.max?_eq_some_iff.mp hmax
    have hbound := h.mem_iff.mp hm
    exact le_antisymm hbound.2 (hle _ (h.mem_iff.mpr ⟨by omega, le_rfl⟩))

lemma Sequential.concat (h : Sequential l) : Sequential (l ++ [l.length + 1]) := by
  unfold Sequential
  rw [List.length_append, List.length_singleton, List.range'_concat, ← h, Nat.mul_comm, Nat.mul_one, Nat.add_comm 1]

/-- A number that is not taken and at most the next one is the next one. -/
lemma Sequential.next_of_notMem (h : Sequential l) (hn : n ∉ l) (hpos : 1 ≤ n) (hle : n ≤ l.length + 1) :
    n = l.length + 1 := by
  rw [h.mem_iff] at hn
  omega

lemma Sequential.length_succ_notMem (h : Sequential l) : l.length + 1 ∉ l := by
  rw [h.mem_iff]
  omega

end Library
