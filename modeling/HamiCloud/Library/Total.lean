import HamiCloud.Library.Table

/-!
# Total weights

The sum of the weights of all rows of a partial function with finite domain: a measure that a step
lowers when it lowers the weight of the one row it changes.
-/

namespace Library

variable {κ α : Type}

/-- The weight of a row, zero where there is none. -/
def weight (w : α → Nat) : Option α → Nat
  | none => 0
  | some a => w a

noncomputable def total (w : α → Nat) (f : κ → Option α) : Nat := ∑ᶠ k, weight w (f k)

def FiniteDomain (f : κ → Option α) : Prop := {k | f k ≠ none}.Finite

section Update

variable [DecidableEq κ] {w : α → Nat} {f : κ → Option α}

/-- Replacing a row, or adding one, changes the total by the difference of the two weights. -/
lemma total_update (hf : FiniteDomain f) (k : κ) (a : α) :
    total w (Function.update f k (some a)) + weight w (f k) = total w f + w a := by
  let s := insert k hf.toFinset
  have hk : k ∈ s := Finset.mem_insert_self k _
  have hsum : ∀ g : κ → Option α, (∀ k', k' ∉ s → g k' = none) →
      total w g = ∑ k' ∈ s, weight w (g k') := by
    intro g hg
    apply finsum_eq_sum_of_support_subset
    intro k' hk'
    by_contra hnot
    exact hk' (by simp only [hg k' hnot, weight])
  have hout : ∀ k', k' ∉ s → f k' = none := by
    intro k' hk'
    by_contra hne
    exact hk' (Finset.mem_insert_of_mem (hf.mem_toFinset.mpr hne))
  have hupdate : (fun k' => weight w (Function.update f k (some a) k')) =
      Function.update (fun k' => weight w (f k')) k (w a) := by
    funext k'
    by_cases h : k' = k
    · subst h
      simp [weight]
    · simp [h]
  have hout' : ∀ k', k' ∉ s → Function.update f k (some a) k' = none := by
    intro k' hk'
    have hne : k' ≠ k := by
      rintro rfl
      exact hk' hk
    rw [Function.update_of_ne hne, hout k' hk']
  rw [hsum f hout, hsum _ hout', hupdate, Finset.sum_update_of_mem hk, ← Finset.add_sum_erase s _ hk,
    Finset.sdiff_singleton_eq_erase]
  ring

lemma total_lt (hf : FiniteDomain f) {k : κ} {a b : α} (hk : f k = some b) (hlt : w a < w b) :
    total w (Function.update f k (some a)) < total w f := by
  have h := total_update (w := w) hf k a
  rw [hk, weight] at h
  omega

end Update

lemma Table.finiteDomain [DecidableEq κ] {key : α → κ} (t : Table key) : FiniteDomain t.get := by
  refine (t.rows.map key).finite_toSet.subset ?_
  intro k hk
  obtain ⟨r, hr⟩ := Option.ne_none_iff_exists'.mp hk
  exact Table.mem_keys_iff.mpr ⟨r, hr⟩

end Library
