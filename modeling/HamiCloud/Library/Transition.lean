import Mathlib

/-!
# Labelled transition systems

A system has one initial state and a partial step function; the label of a step
carries every choice of the environment, so a step is deterministic once its label is
known and a list of labels can be executed. `Path C` restricts a run to steps that meet
the condition `C` in the state in which they are taken; `Reachable` puts no condition.
-/

namespace Library

structure System (σ α : Type) where
  init : σ
  step : σ → α → Option σ

namespace System

variable {σ α τ β : Type} (S : System σ α)

def exec : σ → List α → Option σ
  | s, [] => some s
  | s, a :: as => (S.step s a).bind (fun t => exec t as)

/-- Execution that stops at the first step that does not meet the condition. -/
def execWhen (C : σ → α → Bool) : σ → List α → Option σ
  | s, [] => some s
  | s, a :: as => if C s a then (S.step s a).bind (fun t => execWhen C t as) else none

inductive Path (C : σ → α → Prop) : σ → σ → Prop
  | refl (s : σ) : Path C s s
  | tail {s t u : σ} (a : α) : Path C s t → C t a → S.step t a = some u → Path C s u

def Reach (C : σ → α → Prop) (t : σ) : Prop := S.Path C S.init t

def Reachable (t : σ) : Prop := S.Reach (fun _ _ => True) t

variable {S} {C D : σ → α → Prop} {s t u : σ}

lemma Path.single {a : α} (hC : C s a) (h : S.step s a = some t) : S.Path C s t :=
  .tail a (.refl s) hC h

lemma Path.trans (h₁ : S.Path C s t) (h₂ : S.Path C t u) : S.Path C s u := by
  induction h₂ with
  | refl => exact h₁
  | tail a _ hC hstep ih => exact .tail a ih hC hstep

lemma Path.mono (hCD : ∀ s a, C s a → D s a) (h : S.Path C s t) : S.Path D s t := by
  induction h with
  | refl => exact .refl _
  | tail a _ hC hstep ih => exact .tail a ih (hCD _ _ hC) hstep

lemma Reach.reachable (h : S.Reach C t) : S.Reachable t :=
  Path.mono (fun _ _ _ => trivial) h

lemma Path.of_exec {as : List α} (h : S.exec s as = some t) : S.Path (fun _ _ => True) s t := by
  induction as generalizing s with
  | nil => cases h; exact .refl _
  | cons a as ih =>
    obtain ⟨v, hv, hrest⟩ := Option.bind_eq_some_iff.mp h
    exact (Path.single trivial hv).trans (ih hrest)

lemma Path.of_execWhen {B : σ → α → Bool} {as : List α} (h : S.execWhen B s as = some t) :
    S.Path (fun s a => B s a = true) s t := by
  induction as generalizing s with
  | nil => cases h; exact .refl _
  | cons a as ih =>
    simp only [execWhen] at h
    split at h
    · rename_i hB
      obtain ⟨v, hv, hrest⟩ := Option.bind_eq_some_iff.mp h
      exact (Path.single (C := fun s a => B s a = true) hB hv).trans (ih hrest)
    · cases h

/-- A list of labels that can be executed from the initial state, with every step meeting the condition. -/
structure Run (S : System σ α) (B : σ → α → Bool) where
  labels : List α
  executes : (S.execWhen B S.init labels).isSome = true

/-- A list of labels that can be executed from the initial state. -/
abbrev FreeRun (S : System σ α) := S.Run (fun _ _ => true)

def Run.final {B : σ → α → Bool} (r : S.Run B) : σ := (S.execWhen B S.init r.labels).get r.executes

lemma Run.reach {B : σ → α → Bool} (r : S.Run B) : S.Reach (fun s a => B s a = true) r.final :=
  Path.of_execWhen (Option.some_get r.executes).symm

lemma Run.reachable {B : σ → α → Bool} (r : S.Run B) : S.Reachable r.final := r.reach.reachable

/-- Invariant rule along a path: what holds at its start and is kept by every step that
meets the condition holds at its end. -/
theorem Path.invariant {P : σ → Prop} (hs : P s)
    (hstep : ∀ v a w, P v → C v a → S.step v a = some w → P w) (h : S.Path C s t) : P t := by
  induction h with
  | refl => exact hs
  | tail a _ hC hst ih => exact hstep _ a _ ih hC hst

theorem Reach.invariant {P : σ → Prop} (h0 : P S.init)
    (hstep : ∀ v a w, P v → C v a → S.step v a = some w → P w) (h : S.Reach C t) : P t :=
  Path.invariant h0 hstep h

end System

/-- Variant rule: if progress towards a goal is possible from every state of an invariant set that has
not reached it, and every such progress lowers a measure, then the goal can be reached. -/
theorem reaches_of_variant {σ : Type} {R : σ → σ → Prop} {P G : σ → Prop} (μ : σ → Nat)
    (hprogress : ∀ s, P s → ¬G s → ∃ t, Relation.ReflTransGen R s t ∧ P t ∧ μ t < μ s) (s : σ) (hs : P s) :
    ∃ t, Relation.ReflTransGen R s t ∧ G t := by
  induction hn : μ s using Nat.strong_induction_on generalizing s with
  | _ n ih =>
    by_cases hgoal : G s
    · exact ⟨s, .refl, hgoal⟩
    · obtain ⟨t, hst, ht, hlt⟩ := hprogress s hs hgoal
      obtain ⟨u, htu, hu⟩ := ih (μ t) (hn ▸ hlt) t ht rfl
      exact ⟨u, hst.trans htu, hu⟩

end Library
