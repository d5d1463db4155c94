import Mathlib

/-!
# Programs with a state and errors

A program reads the state, changes it and may stop with an error; what it has changed before stays. Two rules follow a
program step by step: it commutes with a map of the state, so that its result does not depend on what the map removes, or
it leaves a view of the state as it is.
-/

namespace Library

abbrev Handler (σ ε α : Type) := ExceptT ε (StateM σ) α

namespace Handler

variable {σ ε α β τ : Type}

/-- The result of a program and the state that it leaves. -/
def outcome (x : Handler σ ε α) (s : σ) : Except ε α × σ := x.run.run s

/-- A read, or an error. -/
def observe (f : σ → Except ε α) : Handler σ ε α := fun s => (f s, s)

/-- A change of the state, or an error and no change. -/
def transact (f : σ → Except ε (α × σ)) : Handler σ ε α := fun s =>
  match f s with
  | .ok (a, t) => (.ok a, t)
  | .error e => (.error e, s)

/-- A change of the state that stays even if the program stops here. -/
def charge (f : σ → Except ε α × σ) : Handler σ ε α := fun s => f s

/-- A check that does not look at the state. -/
def check (x : Except ε α) : Handler σ ε α := observe fun _ => x

@[simp] lemma outcome_observe (f : σ → Except ε α) (s : σ) : (observe f).outcome s = (f s, s) := rfl

lemma outcome_bind (x : Handler σ ε α) (f : α → Handler σ ε β) (s : σ) :
    (x >>= f).outcome s = match x.outcome s with
      | (.ok a, t) => (f a).outcome t
      | (.error e, t) => (.error e, t) := by
  show (ExceptT.bindCont f (x s).1 : StateM σ _).run (x s).2 = _
  unfold outcome
  show _ = match x s with
      | (.ok a, t) => (f a) t
      | (.error e, t) => (.error e, t)
  rcases x s with ⟨e | a, t⟩ <;> rfl

/-- A program that stops makes every longer one stop. -/
lemma outcome_bind_error {x : Handler σ ε α} {f : α → Handler σ ε β} {s t : σ} {e : ε}
    (h : x.outcome s = (.error e, t)) : (x >>= f).outcome s = (.error e, t) := by
  rw [outcome_bind, h]

lemma outcome_bind_ok {x : Handler σ ε α} {f : α → Handler σ ε β} {s t : σ} {a : α}
    (h : x.outcome s = (.ok a, t)) : (x >>= f).outcome s = (f a).outcome t := by
  rw [outcome_bind, h]

/-! ### Commutation with a map of the state -/

/-- From the image of a state the program has the same result, and leaves the image of the state that it leaves. -/
def CommutesAt (P : σ → σ) (x : Handler σ ε α) (s : σ) : Prop := x.outcome (P s) = Prod.map id P (x.outcome s)

variable {P : σ → σ} {s : σ}

lemma CommutesAt.pure (a : α) : CommutesAt P (pure a : Handler σ ε α) s := rfl

lemma CommutesAt.throw (e : ε) : CommutesAt P (throw e : Handler σ ε α) s := rfl

lemma CommutesAt.check (x : Except ε α) : CommutesAt P (check x : Handler σ ε α) s := rfl

lemma CommutesAt.observe {f : σ → Except ε α} (h : f (P s) = f s) : CommutesAt P (observe f) s := by
  rw [CommutesAt, outcome_observe, outcome_observe, h]
  rfl

lemma CommutesAt.bind {x : Handler σ ε α} {f : α → Handler σ ε β} (hx : CommutesAt P x s)
    (hf : ∀ a t, x.outcome s = (.ok a, t) → CommutesAt P (f a) t) : CommutesAt P (x >>= f) s := by
  unfold CommutesAt at hx
  rw [CommutesAt, outcome_bind, outcome_bind, hx]
  rcases hout : x.outcome s with ⟨e | a, t⟩
  · rfl
  · exact hf _ t hout

/-! ### Views that a program leaves alone -/

def KeepsAt (V : σ → τ) (x : Handler σ ε α) (s : σ) : Prop := V (x.outcome s).2 = V s

variable {V : σ → τ}

lemma KeepsAt.pure (a : α) : KeepsAt V (pure a : Handler σ ε α) s := rfl

lemma KeepsAt.throw (e : ε) : KeepsAt V (throw e : Handler σ ε α) s := rfl

lemma KeepsAt.check (x : Except ε α) : KeepsAt V (check x : Handler σ ε α) s := rfl

lemma KeepsAt.observe (f : σ → Except ε α) : KeepsAt V (observe f) s := rfl

lemma KeepsAt.bind {x : Handler σ ε α} {f : α → Handler σ ε β} (hx : KeepsAt V x s)
    (hf : ∀ a t, x.outcome s = (.ok a, t) → KeepsAt V (f a) t) : KeepsAt V (x >>= f) s := by
  unfold KeepsAt at hx
  rw [KeepsAt, outcome_bind]
  rcases hout : x.outcome s with ⟨e | a, t⟩
  · rw [hout] at hx
    exact hx
  · rw [hout] at hx
    exact (hf _ t hout).trans hx

end Handler

end Library
