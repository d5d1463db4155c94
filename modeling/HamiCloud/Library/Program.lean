import Mathlib

/-!
# Programs that call their environment

A program over an interface is a tree of calls: `Q` are the calls and `R q` the answers that the environment may
give to the call `q`. The calls of a run are any branch of the tree, up to any point: the environment chooses
every answer, and a run may end before the program returns.
-/

namespace Library

inductive Program (Q : Type) (R : Q → Type) (α : Type)
  | ret (value : α)
  | call (q : Q) (next : R q → Program Q R α)

/-- A call with the answer it got. -/
structure Answered (Q : Type) (R : Q → Type) where
  query : Q
  answer : R query

namespace Program

variable {Q : Type} {R : Q → Type} {α β : Type}

protected def bind : Program Q R α → (α → Program Q R β) → Program Q R β
  | ret a, f => f a
  | call q next, f => call q fun r => (next r).bind f

instance : Monad (Program Q R) where
  pure := ret
  bind := Program.bind

/-- The program of one call, which returns its answer. -/
def ask (q : Q) : Program Q R (R q) := call q ret

/-- The calls of a run of a program, and the value it returned if it has. -/
inductive Runs : Program Q R α → List (Answered Q R) → Option α → Prop
  | stopped (p : Program Q R α) : Runs p [] none
  | returned (a : α) : Runs (ret a) [] (some a)
  | called {q : Q} {next : R q → Program Q R α} (r : R q) {calls : List (Answered Q R)} {out : Option α} :
    Runs (next r) calls out → Runs (call q next) (⟨q, r⟩ :: calls) out

variable {calls : List (Answered Q R)}

@[simp] lemma runs_pure {a : α} {out : Option α} :
    Runs (pure a : Program Q R α) calls out ↔ calls = [] ∧ (out = none ∨ out = some a) := by
  constructor
  · intro h
    cases h with
    | stopped => exact ⟨rfl, .inl rfl⟩
    | returned => exact ⟨rfl, .inr rfl⟩
  · rintro ⟨rfl, rfl | rfl⟩
    · exact .stopped _
    · exact .returned a

lemma runs_ask {q : Q} {out : Option (R q)} (h : Runs (ask q) calls out) : calls = [] ∨ ∃ r, calls = [⟨q, r⟩] := by
  cases h with
  | stopped => exact .inl rfl
  | called r hnext =>
    obtain ⟨rfl, -⟩ := runs_pure.mp hnext
    exact .inr ⟨r, rfl⟩

/-- A call followed by the rest of a program. -/
lemma runs_ask_bind {q : Q} {f : R q → Program Q R β} {out : Option β} :
    Runs (ask q >>= f) calls out ↔
      (calls = [] ∧ out = none) ∨ ∃ r rest, calls = ⟨q, r⟩ :: rest ∧ Runs (f r) rest out := by
  constructor
  · intro h
    cases h with
    | stopped => exact .inl ⟨rfl, rfl⟩
    | called r hnext => exact .inr ⟨r, _, rfl, hnext⟩
  · rintro (⟨rfl, rfl⟩ | ⟨r, rest, rfl, hnext⟩)
    · exact .stopped _
    · exact .called r hnext

/-- A run of two programs one after the other ends in the first, or goes through it. -/
lemma runs_bind {p : Program Q R α} {f : α → Program Q R β} {out : Option β} (h : Runs (p >>= f) calls out) :
    (Runs p calls none ∧ out = none) ∨
      ∃ first rest a, calls = first ++ rest ∧ Runs p first (some a) ∧ Runs (f a) rest out := by
  induction p generalizing calls with
  | ret a => exact .inr ⟨[], calls, a, rfl, .returned a, h⟩
  | call q next ih =>
    cases h with
    | stopped => exact .inl ⟨.stopped _, rfl⟩
    | called r hnext =>
      rcases ih r hnext with ⟨hrun, hout⟩ | ⟨first, rest, a, rfl, hrun, hrest⟩
      · exact .inl ⟨.called r hrun, hout⟩
      · exact .inr ⟨⟨q, r⟩ :: first, rest, a, rfl, .called r hrun, hrest⟩

end Program

/-- Every entry of a list that satisfies `p` has an earlier entry that satisfies `e`. -/
def OnlyAfter {γ : Type} (e p : γ → Prop) (l : List γ) : Prop :=
  ∀ before c after, l = before ++ c :: after → p c → ∃ d ∈ before, e d

section OnlyAfter

variable {γ : Type} {e p : γ → Prop} {l l' : List γ}

lemma onlyAfter_of_not (h : ∀ c ∈ l, ¬p c) : OnlyAfter e p l := fun before c after hl hp =>
  absurd hp (h c (hl ▸ by simp))

/-- An entry behind `l` may rely on the entries of `l`. -/
lemma OnlyAfter.append (hl : OnlyAfter e p l) (h : (∃ d ∈ l, e d) ∨ OnlyAfter e p l') : OnlyAfter e p (l ++ l') := by
  intro before c after heq hp
  rcases List.append_eq_append_iff.mp heq with ⟨mid, rfl, hl'⟩ | ⟨mid, rfl, hmid⟩
  · rcases h with ⟨d, hd, he⟩ | h
    · exact ⟨d, List.mem_append_left _ hd, he⟩
    · obtain ⟨d, hd, he⟩ := h mid c after hl' hp
      exact ⟨d, List.mem_append_right _ hd, he⟩
  · cases mid with
    | nil =>
      subst hmid
      rcases h with ⟨d, hd, he⟩ | h
      · exact ⟨d, by simpa using hd, he⟩
      · obtain ⟨d, hd, -⟩ := h [] c after rfl hp
        exact absurd hd List.not_mem_nil
    | cons c' mid =>
      obtain ⟨rfl, rfl⟩ := List.cons.inj hmid
      exact hl before c mid rfl hp

lemma OnlyAfter.cons {c : γ} (hc : ¬p c) (h : e c ∨ OnlyAfter e p l) : OnlyAfter e p (c :: l) := by
  refine OnlyAfter.append (l := [c]) (onlyAfter_of_not (by simpa using hc)) ?_
  exact h.imp_left fun he => ⟨c, List.mem_singleton_self c, he⟩

end OnlyAfter

end Library
