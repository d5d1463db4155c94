import Mathlib

/-!
# Logs with keys

A log lists what has happened, oldest first. `latest` is the newest entry of a log that concerns a given key;
a relation that holds between every two entries of one key is extended to a new entry by comparing it with
the latest one alone.
-/

namespace Library

variable {α κ : Type} [DecidableEq κ] {key : α → κ} {log : List α} {R : α → α → Prop}

def latest (key : α → κ) (log : List α) (k : κ) : Option α := log.reverse.find? (fun a => key a = k)

@[simp] lemma latest_concat (a : α) (k : κ) :
    latest key (log ++ [a]) k = if k = key a then some a else latest key log k := by
  unfold latest
  rw [List.reverse_concat, List.find?_cons]
  by_cases hk : k = key a
  · simp [hk]
  · simp [hk, Ne.symm hk]

lemma mem_of_latest {k : κ} {a : α} (h : latest key log k = some a) : a ∈ log :=
  List.mem_reverse.mp (List.mem_of_find?_eq_some h)

/-- An entry of a key is the latest one of the key or is related to it. -/
lemma related_latest (hlog : log.Pairwise (fun a b => key a = key b → R a b)) {a : α} (ha : a ∈ log) :
    ∃ b, latest key log (key a) = some b ∧ (a = b ∨ R a b) := by
  induction log using List.reverseRecOn with
  | nil => cases ha
  | append_singleton log b ih =>
    obtain ⟨hlog, -, hb⟩ := List.pairwise_append.mp hlog
    rw [latest_concat]
    by_cases hk : key a = key b
    · rw [if_pos hk]
      refine ⟨b, rfl, ?_⟩
      rcases List.mem_append.mp ha with ha | ha
      · exact .inr (hb a ha b (List.mem_singleton_self b) hk)
      · exact .inl (List.mem_singleton.mp ha)
    · rw [if_neg hk]
      refine ih hlog ((List.mem_append.mp ha).resolve_right fun hab => hk ?_)
      rw [List.mem_singleton.mp hab]

/-- A transitive relation between the entries of each key extends to a new entry that the latest entry of
its key is related to. -/
theorem pairwise_concat_of_latest (htrans : ∀ a b c, R a b → R b c → R a c)
    (hlog : log.Pairwise (fun a b => key a = key b → R a b)) {a : α}
    (ha : ∀ b, latest key log (key a) = some b → R b a) :
    (log ++ [a]).Pairwise (fun a b => key a = key b → R a b) := by
  refine List.pairwise_append.mpr ⟨hlog, List.pairwise_singleton _ _, ?_⟩
  rintro b hb c hc hbc
  obtain rfl := List.mem_singleton.mp hc
  obtain ⟨d, hd, hbd⟩ := related_latest hlog hb
  have hda := ha d (hbc ▸ hd)
  rcases hbd with rfl | hbd
  · exact hda
  · exact htrans b d c hbd hda

/-- The entries from the last one with a property on; all of them if there is none. -/
def sinceLast (p : α → Bool) (log : List α) : List α := log.foldl (fun acc a => if p a then [a] else acc ++ [a]) []

@[simp] lemma sinceLast_concat (p : α → Bool) (log : List α) (a : α) :
    sinceLast p (log ++ [a]) = if p a then [a] else sinceLast p log ++ [a] := by
  unfold sinceLast
  rw [List.foldl_append, List.foldl_cons, List.foldl_nil]

end Library
