import Mathlib

/-!
# Fenced leases

A lease is free, held or closed. Every grant raises its epoch, and whoever acts under a grant
presents the epoch it was given. A lease that is held is granted again, or revoked, only after it has
expired; a free lease may be withdrawn; a closed lease stays as it is.
-/

namespace Library

inductive LeasePhase
  | free
  | held
  | closed
  deriving DecidableEq

structure Lease (τ : Type) where
  phase : LeasePhase
  epoch : Nat
  expires : Option τ

namespace Lease

inductive Op
  | grant
  | keep (epoch : Nat)
  | close (epoch : Nat)
  | revoke (epoch : Nat)
  | withdraw
  deriving DecidableEq

variable {τ : Type} [LT τ] {now : τ} {l l' : Lease τ} {op : Op}

def Expired (l : Lease τ) (now : τ) : Prop := ∃ t, l.expires = some t ∧ t < now

/-- A lease that may be taken from its holder. -/
def Available (l : Lease τ) (now : τ) : Prop :=
  l.phase = .free ∨ l.phase = .held ∧ l.Expired now

inductive Step (now : τ) (l : Lease τ) : Op → Lease τ → Prop
  | grant (x : Option τ) : l.Available now → Step now l .grant ⟨.held, l.epoch + 1, x⟩
  | keep (x : Option τ) : l.phase = .held → Step now l (.keep l.epoch) ⟨.held, l.epoch, x⟩
  | close (x : Option τ) : l.phase = .held → Step now l (.close l.epoch) ⟨.closed, l.epoch, x⟩
  | revoke (x : Option τ) : l.phase = .held → l.Expired now →
      Step now l (.revoke l.epoch) ⟨.closed, l.epoch, x⟩
  | withdraw (x : Option τ) : l.phase = .free → Step now l .withdraw ⟨.closed, l.epoch, x⟩

lemma Step.epoch_le (h : Step now l op l') : l.epoch ≤ l'.epoch := by
  cases h with
  | grant => exact Nat.le_succ _
  | keep => exact le_rfl
  | close => exact le_rfl
  | revoke => exact le_rfl
  | withdraw => exact le_rfl

lemma Step.not_closed (h : Step now l op l') : l.phase ≠ .closed := by
  cases h with
  | grant _ ha =>
    rcases ha with hp | ⟨hp, -⟩ <;> simp [hp]
  | keep _ hp => simp [hp]
  | close _ hp => simp [hp]
  | revoke _ hp _ => simp [hp]
  | withdraw _ hp => simp [hp]

lemma Step.grant_epoch (h : Step now l .grant l') : l'.epoch = l.epoch + 1 := by
  cases h
  rfl

/-- The epochs granted so far: each larger than the one before, the last one not above the
epoch of the lease. -/
def Granted (l : Lease τ) (epochs : List Nat) : Prop :=
  epochs.Pairwise (· < ·) ∧ ∀ e ∈ epochs, e ≤ l.epoch

omit [LT τ] in
lemma Granted.mono {epochs : List Nat} (h : l.Granted epochs) (hle : l.epoch ≤ l'.epoch) :
    l'.Granted epochs :=
  ⟨h.1, fun e he => (h.2 e he).trans hle⟩

lemma Granted.grant {epochs : List Nat} (h : l.Granted epochs) (hstep : Step now l .grant l') :
    l'.Granted (epochs ++ [l'.epoch]) := by
  have hnew := hstep.grant_epoch
  refine ⟨List.pairwise_append.mpr ⟨h.1, List.pairwise_singleton _ _, ?_⟩, ?_⟩
  · intro e he e' he'
    rw [List.mem_singleton.mp he', hnew]
    exact Nat.lt_succ_of_le (h.2 e he)
  · intro e he
    rcases List.mem_append.mp he with he | he
    · exact (h.2 e he).trans (hnew ▸ Nat.le_succ _)
    · exact (List.mem_singleton.mp he).le

end Lease

end Library
