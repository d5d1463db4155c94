import Mathlib

/-!
# The job state machine

The transition table of `contracts/state-machines/job.v1.json`, its two copies in
`runtime/internal/domain/job_state.go` and `apps/api/app/core/state_machine.py`, and the
guards that the store assembles from the Go copy.
-/

namespace HamiCloud

inductive JobState
  | queued
  | admitted
  | starting
  | running
  | retryWait
  | recoveryPending
  | cancelRequested
  | succeeded
  | failed
  | cancelled
  deriving DecidableEq

namespace JobState

/-- The states in the alphabetical order of their names, the order `LegalSourcesFor` sorts by. -/
def alphabetical : List JobState :=
  [admitted, cancelRequested, cancelled, failed, queued, recoveryPending, retryWait, running,
    starting, succeeded]

/-- `transitions` of `job.v1.json`. -/
def contract : JobState → List JobState
  | queued => [admitted, cancelRequested]
  | admitted => [starting, cancelRequested]
  | starting => [running, retryWait, failed, cancelRequested]
  | running => [succeeded, retryWait, failed, cancelRequested, recoveryPending]
  | retryWait => [queued, cancelRequested]
  | recoveryPending => [retryWait, failed, cancelRequested]
  | cancelRequested => [cancelled]
  | succeeded => []
  | failed => []
  | cancelled => []

/-- `terminal_states` of `job.v1.json`; also `IsTerminal` and `is_terminal_job_state`. -/
def isTerminal : JobState → Bool
  | succeeded => true
  | failed => true
  | cancelled => true
  | _ => false

/-- `legalTransitions` of the Go runtime. -/
def legalTransitions : JobState → List JobState
  | queued => [admitted, cancelRequested]
  | admitted => [starting, cancelRequested]
  | starting => [running, retryWait, failed, cancelRequested]
  | running => [succeeded, retryWait, failed, cancelRequested, recoveryPending]
  | retryWait => [queued, cancelRequested]
  | recoveryPending => [retryWait, failed, cancelRequested]
  | cancelRequested => [cancelled]
  | succeeded => []
  | failed => []
  | cancelled => []

/-- `LEGAL_JOB_TRANSITIONS` of the Python API. -/
def legalJobTransitions : JobState → List JobState
  | queued => [admitted, cancelRequested]
  | admitted => [starting, cancelRequested]
  | starting => [running, retryWait, failed, cancelRequested]
  | running => [succeeded, retryWait, failed, cancelRequested, recoveryPending]
  | retryWait => [queued, cancelRequested]
  | recoveryPending => [retryWait, failed, cancelRequested]
  | cancelRequested => [cancelled]
  | succeeded => []
  | failed => []
  | cancelled => []

def legalSourcesFor (target : JobState) : List JobState :=
  alphabetical.filter (fun source => target ∈ legalTransitions source)

/-- `legalSourcesSQL`: the union of the legal sources of the targets, sorted and without
repetition; `state IN (…)` is membership in this list. -/
def legalSources (targets : List JobState) : List JobState :=
  alphabetical.filter (fun source => targets.any (fun target => source ∈ legalSourcesFor target))

inductive TransitionError
  | terminalState (current : JobState)
  | invalidTransition (current next : JobState)
  deriving DecidableEq

/-- `validate_job_transition`. -/
def validateJobTransition (current next : JobState) : Except TransitionError Unit :=
  if current.isTerminal then .error (.terminalState current)
  else if next ∈ legalJobTransitions current then .ok ()
  else .error (.invalidTransition current next)

end JobState

namespace Proofs

open JobState

lemma legalTransitions_eq_contract (s : JobState) : legalTransitions s = contract s := by
  cases s <;> rfl

lemma legalJobTransitions_eq_contract (s : JobState) : legalJobTransitions s = contract s := by
  cases s <;> rfl

/-- A guard built by `legalSources` admits a state exactly when the contract has an edge from
it to one of the targets. -/
theorem mem_legalSources (targets : List JobState) (s : JobState) :
    s ∈ legalSources targets ↔ ∃ target ∈ targets, target ∈ contract s := by
  have hall : s ∈ alphabetical := by cases s <;> decide
  simp only [legalSources, legalSourcesFor, List.mem_filter, hall, true_and, List.any_eq_true,
    decide_eq_true_eq, legalTransitions_eq_contract]

/-! The guards that the store assembles, written out. -/

@[simp] lemma legalSources_admitted : legalSources [admitted] = [queued] := by decide

@[simp] lemma legalSources_queued : legalSources [queued] = [retryWait] := by decide

@[simp] lemma legalSources_starting : legalSources [starting] = [admitted] := by decide

@[simp] lemma legalSources_running : legalSources [running] = [starting] := by decide

@[simp] lemma legalSources_recoveryPending : legalSources [recoveryPending] = [running] := by decide

@[simp] lemma legalSources_cancelled : legalSources [cancelled] = [cancelRequested] := by decide

lemma legalSources_succeeded_cancelled :
    legalSources [succeeded, cancelled] = [cancelRequested, running] := by decide

lemma legalSources_retryWait_failed_cancelled :
    legalSources [retryWait, failed, cancelled] = [cancelRequested, recoveryPending, running, starting] := by
  decide

lemma isTerminal_iff_contract (s : JobState) : s.isTerminal = true ↔ contract s = [] := by
  cases s <;> simp [isTerminal, contract]

lemma validateJobTransition_ok (s next : JobState) :
    validateJobTransition s next = .ok () ↔ next ∈ contract s := by
  unfold validateJobTransition
  rw [legalJobTransitions_eq_contract]
  by_cases ht : s.isTerminal = true
  · simp [ht, (isTerminal_iff_contract s).mp ht]
  · by_cases hn : next ∈ contract s <;> simp [ht, hn]

end Proofs

end HamiCloud
