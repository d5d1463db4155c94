import HamiCloud.Protocol.Intents

/-!
# The job protocol

What the job transactions amount to: a job, its attempts and their execution intents as partial
functions of their identifiers, and a step relation with four kinds of steps. A job is submitted; its
state is moved by a request that looks at the job row alone; an attempt is admitted; or an attempt is
advanced together with its intent and its job. The store refines this relation.
-/

namespace HamiCloud

open Library JobState

structure JobView where
  job : Uuid → Option Job
  attempt : Uuid → Option JobAttempt
  intent : Uuid → Option ExecutionIntent

namespace JobView

variable (v : JobView)

def setJob (j : Job) : JobView := { v with job := Function.update v.job j.id (some j) }

def setAttempt (a : JobAttempt) : JobView := { v with attempt := Function.update v.attempt a.id (some a) }

def setIntent (i : ExecutionIntent) : JobView := { v with intent := Function.update v.intent i.id (some i) }

@[simp] lemma setJob_job (j : Job) (k : Uuid) :
    (v.setJob j).job k = if k = j.id then some j else v.job k := by
  simp [setJob, Function.update_apply]

@[simp] lemma setJob_attempt (j : Job) : (v.setJob j).attempt = v.attempt := rfl

@[simp] lemma setJob_intent (j : Job) : (v.setJob j).intent = v.intent := rfl

@[simp] lemma setAttempt_attempt (a : JobAttempt) (k : Uuid) :
    (v.setAttempt a).attempt k = if k = a.id then some a else v.attempt k := by
  simp [setAttempt, Function.update_apply]

@[simp] lemma setAttempt_job (a : JobAttempt) : (v.setAttempt a).job = v.job := rfl

@[simp] lemma setAttempt_intent (a : JobAttempt) : (v.setAttempt a).intent = v.intent := rfl

@[simp] lemma setIntent_intent (i : ExecutionIntent) (k : Uuid) :
    (v.setIntent i).intent k = if k = i.id then some i else v.intent k := by
  simp [setIntent, Function.update_apply]

@[simp] lemma setIntent_job (i : ExecutionIntent) : (v.setIntent i).job = v.job := rfl

@[simp] lemma setIntent_attempt (i : ExecutionIntent) : (v.setIntent i).attempt = v.attempt := rfl

lemma setJob_some {v : JobView} {j j₀ : Job} {k : Uuid} (h : (v.setJob j).job k = some j₀) :
    k = j.id ∧ j₀ = j ∨ k ≠ j.id ∧ v.job k = some j₀ := by
  rw [setJob_job] at h
  split at h
  · exact .inl ⟨‹_›, (Option.some.inj h).symm⟩
  · exact .inr ⟨‹_›, h⟩

lemma setAttempt_some {v : JobView} {a a₀ : JobAttempt} {k : Uuid} (h : (v.setAttempt a).attempt k = some a₀) :
    k = a.id ∧ a₀ = a ∨ k ≠ a.id ∧ v.attempt k = some a₀ := by
  rw [setAttempt_attempt] at h
  split at h
  · exact .inl ⟨‹_›, (Option.some.inj h).symm⟩
  · exact .inr ⟨‹_›, h⟩

end JobView

/-! ### Steps -/

/-- The columns of a row that its later steps keep. -/
def Job.spec (j : Job) : Uuid × Uuid × Nat × Nat × Time :=
  (j.id, j.workspaceId, j.timeoutSeconds, j.maxRetries, j.createdAt)

def JobAttempt.spec (a : JobAttempt) : Uuid × Uuid × Uuid × Nat :=
  (a.id, a.jobId, a.workspaceId, a.attemptNumber)

/-- How an executor ends an attempt. -/
inductive Outcome
  | succeeded
  | failed (shouldRetry : Bool)
  | cancelled
  deriving DecidableEq

namespace Outcome

def intentStatus : Outcome → IntentStatus
  | succeeded => .applied
  | failed _ => .terminated
  | cancelled => .terminated

def attemptState : Outcome → JobState
  | succeeded => .succeeded
  | failed _ => .failed
  | cancelled => .cancelled

/-- The job states from which an attempt can end this way. -/
def sources : Outcome → List JobState
  | succeeded => [cancelRequested, running]
  | failed _ => [cancelRequested, recoveryPending, running, starting]
  | cancelled => [cancelRequested]

/-- The state the job moves to; a job whose cancellation was requested is cancelled. -/
def jobState : Outcome → JobState → JobState
  | _, .cancelRequested => .cancelled
  | succeeded, _ => .succeeded
  | failed shouldRetry, _ => if shouldRetry then .retryWait else .failed
  | cancelled, _ => .cancelled

lemma edge {o : Outcome} {s : JobState} (h : s ∈ o.sources) : o.jobState s ∈ contract s := by
  cases o with
  | succeeded => cases s <;> simp [sources, jobState, contract] at h ⊢
  | failed r => cases r <;> cases s <;> simp [sources, jobState, contract] at h ⊢
  | cancelled => cases s <;> simp [sources, jobState, contract] at h ⊢

end Outcome

inductive JobEvent
  | scan
  | submit
  | cancel (jobId : Uuid)
  | requeue (jobId : Uuid)
  | confirm (jobId : Uuid) (attemptNumber : Nat) (target : JobState)
  | admission (jobId : Uuid)
  | claim
  | renew (intentId : Uuid) (epoch : Nat)
  | run (intentId : Uuid) (epoch : Nat)
  | finish (intentId : Uuid) (epoch : Nat) (outcome : Outcome)
  | begin (intentId : Uuid) (epoch : Nat)
  deriving DecidableEq

/-- State changes that look at the job row alone. -/
inductive Move (j : Job) : JobEvent → JobState → Prop
  | cancel : cancelRequested ∈ contract j.state → Move j (.cancel j.id) cancelRequested
  | requeue : j.state = retryWait → Move j (.requeue j.id) queued
  | confirm (n : Nat) (target : JobState) :
      target = retryWait ∨ target = failed ∨ target = cancelled →
      target ∈ contract j.state → Move j (.confirm j.id n target) target

/-- Changes of an intent, its attempt and its job in one transaction: the new status of the intent
and the new states of the attempt and the job. -/
inductive Advance (now : Time) (i : ExecutionIntent) (a : JobAttempt) (j : Job) :
    JobEvent → IntentStatus → JobState → JobState → Prop
  | claim (s : JobState) : i.status = .pending →
      (j.state = .admitted ∧ s = .starting ∨ j.state ≠ .admitted ∧ s = j.state) →
      Advance now i a j .claim .claimed starting s
  | renew : i.status = .claimed →
      Advance now i a j (.renew i.id i.leaseEpoch) .claimed a.state j.state
  | run : i.status = .claimed → a.state = starting → j.state = starting →
      Advance now i a j (.run i.id i.leaseEpoch) .claimed running running
  | finish (o : Outcome) : i.status = .claimed → j.state ∈ o.sources →
      (∀ r, o = .failed r → r = decide (a.attemptNumber ≤ j.maxRetries)) →
      Advance now i a j (.finish i.id i.leaseEpoch o) o.intentStatus o.attemptState (o.jobState j.state)
  | begin (s t : JobState) : i.status = .claimed → i.leaseExpired now = true →
      a.state = starting ∨ a.state = running → t = failed ∨ t = cancelled →
      (j.state = running ∧ s = recoveryPending ∨ s = j.state) →
      Advance now i a j (.begin i.id i.leaseEpoch) .terminated t s

inductive JobStep (now : Time) : JobView → JobEvent → JobView → Prop
  | scan (v : JobView) (e : JobEvent) : JobStep now v e v
  | submit (v : JobView) (j : Job) : v.job j.id = none → j.state = queued → j.currentAttemptNumber = 0 →
      JobStep now v .submit (v.setJob j)
  | move (v : JobView) (j j' : Job) (e : JobEvent) : v.job j.id = some j →
      j'.spec = j.spec → j'.currentAttemptNumber = j.currentAttemptNumber → Move j e j'.state →
      JobStep now v e (v.setJob j')
  | admission (v : JobView) (j j' : Job) (a : JobAttempt) (i : ExecutionIntent) : v.job j.id = some j →
      j.state = queued → j'.spec = j.spec → j'.state = admitted →
      j'.currentAttemptNumber = a.attemptNumber →
      v.attempt a.id = none → a.jobId = j.id → a.state = admitted →
      (∀ k b, v.attempt k = some b → b.jobId = j.id → b.attemptNumber ≠ a.attemptNumber) →
      1 ≤ a.attemptNumber → a.attemptNumber ≤ j.currentAttemptNumber + 1 →
      a.attemptNumber ≤ j.maxRetries + 1 →
      v.intent i.id = none → i.resourceId = a.id → i.status = .pending → i.leaseEpoch = 0 →
      i.targetGeneration = a.attemptNumber → i.deterministicResourceName = .job j.id a.attemptNumber →
      JobStep now v (.admission j.id) (((v.setJob j').setAttempt a).setIntent i)
  | advance (v : JobView) (i i' : ExecutionIntent) (a a' : JobAttempt) (j j' : Job) (e : JobEvent) :
      v.intent i.id = some i → v.attempt a.id = some a → v.job j.id = some j →
      i.resourceId = a.id → a.jobId = j.id →
      i'.spec = i.spec → a'.spec = a.spec → j'.spec = j.spec →
      j'.currentAttemptNumber = j.currentAttemptNumber →
      Advance now i a j e i'.status a'.state j'.state →
      (i'.leaseEpoch = if i.status = .pending then i.leaseEpoch + 1 else i.leaseEpoch) →
      (i'.status = .claimed → i'.leaseExpiresAt = none → i.status = .claimed ∧ i.leaseExpiresAt = none) →
      JobStep now v e (((v.setJob j').setAttempt a').setIntent i')

/-! ### Well-formed views -/

/-- The states an attempt may have while its intent has a given status. -/
def IntentStatus.admits : IntentStatus → JobState → Prop
  | .pending, s => s = admitted
  | .claimed, s => s = starting ∨ s = running
  | .applied, s => s = succeeded
  | .terminated, s => s = failed ∨ s = cancelled

/-- Attempts of a job are numbered from one to its current attempt, each has exactly one intent, and
the status of the intent agrees with the state of the attempt. -/
structure JobWF (v : JobView) : Prop where
  jobKey : ∀ {k j}, v.job k = some j → j.id = k
  attemptKey : ∀ {k a}, v.attempt k = some a → a.id = k
  intentKey : ∀ {k i}, v.intent k = some i → i.id = k
  attemptJob : ∀ {k a}, v.attempt k = some a →
    ∃ j, v.job a.jobId = some j ∧ 1 ≤ a.attemptNumber ∧ a.attemptNumber ≤ j.currentAttemptNumber
  attemptOf : ∀ {k j n}, v.job k = some j → 1 ≤ n → n ≤ j.currentAttemptNumber →
    ∃ k' a, v.attempt k' = some a ∧ a.jobId = k ∧ a.attemptNumber = n
  attemptUnique : ∀ {k k' a a'}, v.attempt k = some a → v.attempt k' = some a' →
    a.jobId = a'.jobId → a.attemptNumber = a'.attemptNumber → k = k'
  intentAttempt : ∀ {k i}, v.intent k = some i →
    ∃ a, v.attempt i.resourceId = some a ∧ i.targetGeneration = a.attemptNumber ∧
      i.deterministicResourceName = .job a.jobId a.attemptNumber
  intentOf : ∀ {k a}, v.attempt k = some a → ∃ k' i, v.intent k' = some i ∧ i.resourceId = k
  intentUnique : ∀ {k k' i i'}, v.intent k = some i → v.intent k' = some i' →
    i.resourceId = i'.resourceId → k = k'
  status : ∀ {k i a}, v.intent k = some i → v.attempt i.resourceId = some a → i.status.admits a.state
  epoch : ∀ {k i}, v.intent k = some i → (i.leaseEpoch = 0 ↔ i.status = .pending)
  lease : ∀ {k i}, v.intent k = some i → i.status = .claimed → i.leaseExpiresAt ≠ none

/-- Two views with the same rows up to the columns that steps change. -/
structure SameRows (v v' : JobView) : Prop where
  job : ∀ k, (v'.job k).map (fun j => (j.spec, j.currentAttemptNumber)) =
    (v.job k).map (fun j => (j.spec, j.currentAttemptNumber))
  attempt : ∀ k, (v'.attempt k).map JobAttempt.spec = (v.attempt k).map JobAttempt.spec
  intent : ∀ k, (v'.intent k).map ExecutionIntent.spec = (v.intent k).map ExecutionIntent.spec

lemma Job.spec_eq {j j' : Job} : j'.spec = j.spec ↔ j'.id = j.id ∧ j'.workspaceId = j.workspaceId ∧
    j'.timeoutSeconds = j.timeoutSeconds ∧ j'.maxRetries = j.maxRetries ∧ j'.createdAt = j.createdAt := by
  simp [Job.spec]

lemma JobAttempt.spec_eq {a a' : JobAttempt} : a'.spec = a.spec ↔ a'.id = a.id ∧ a'.jobId = a.jobId ∧
    a'.workspaceId = a.workspaceId ∧ a'.attemptNumber = a.attemptNumber := by
  simp [JobAttempt.spec]

namespace SameRows

variable {v v' v'' : JobView}

lemma symm (h : SameRows v v') : SameRows v' v :=
  ⟨fun k => (h.job k).symm, fun k => (h.attempt k).symm, fun k => (h.intent k).symm⟩

lemma trans (h : SameRows v v') (h' : SameRows v' v'') : SameRows v v'' :=
  ⟨fun k => (h'.job k).trans (h.job k), fun k => (h'.attempt k).trans (h.attempt k),
    fun k => (h'.intent k).trans (h.intent k)⟩

lemma setJob {j j' : Job} (hj : v.job j.id = some j) (hs : j'.spec = j.spec)
    (hc : j'.currentAttemptNumber = j.currentAttemptNumber) : SameRows v (v.setJob j') := by
  refine ⟨fun k => ?_, fun _ => rfl, fun _ => rfl⟩
  have hid := (Job.spec_eq.mp hs).1
  rw [JobView.setJob_job, hid]
  by_cases hk : k = j.id
  · subst hk
    simp [hj, hs, hc]
  · simp [hk]

lemma setAttempt {a a' : JobAttempt} (ha : v.attempt a.id = some a) (hs : a'.spec = a.spec) :
    SameRows v (v.setAttempt a') := by
  refine ⟨fun _ => rfl, fun k => ?_, fun _ => rfl⟩
  have hid := (JobAttempt.spec_eq.mp hs).1
  rw [JobView.setAttempt_attempt, hid]
  by_cases hk : k = a.id
  · subst hk
    simp [ha, hs]
  · simp [hk]

lemma setIntent {i i' : ExecutionIntent} (hi : v.intent i.id = some i) (hs : i'.spec = i.spec) :
    SameRows v (v.setIntent i') := by
  refine ⟨fun _ => rfl, fun _ => rfl, fun k => ?_⟩
  have hid := (ExecutionIntent.spec_eq.mp hs).1
  rw [JobView.setIntent_intent, hid]
  by_cases hk : k = i.id
  · subst hk
    simp [hi, hs]
  · simp [hk]

lemma job_some (h : SameRows v v') {k : Uuid} {j' : Job} (hj : v'.job k = some j') :
    ∃ j, v.job k = some j ∧ j'.spec = j.spec ∧ j'.currentAttemptNumber = j.currentAttemptNumber := by
  obtain ⟨j, hj, he⟩ := exists_of_map_eq (h.job k) hj
  exact ⟨j, hj, (Prod.mk.inj he).1, (Prod.mk.inj he).2⟩

lemma attempt_some (h : SameRows v v') {k : Uuid} {a' : JobAttempt} (ha : v'.attempt k = some a') :
    ∃ a, v.attempt k = some a ∧ a'.spec = a.spec :=
  exists_of_map_eq (h.attempt k) ha

lemma intent_some (h : SameRows v v') {k : Uuid} {i' : ExecutionIntent} (hi : v'.intent k = some i') :
    ∃ i, v.intent k = some i ∧ i'.spec = i.spec :=
  exists_of_map_eq (h.intent k) hi

end SameRows

section Steps

variable {now : Time} {v v' : JobView} {e : JobEvent}

/-- Well-formedness survives a step that keeps the rows, once the status columns are checked. -/
lemma JobWF.of_sameRows (h : JobWF v) (hs : SameRows v v')
    (hstatus : ∀ {k i a}, v'.intent k = some i → v'.attempt i.resourceId = some a → i.status.admits a.state)
    (hepoch : ∀ {k i}, v'.intent k = some i → (i.leaseEpoch = 0 ↔ i.status = .pending))
    (hlease : ∀ {k i}, v'.intent k = some i → i.status = .claimed → i.leaseExpiresAt ≠ none) :
    JobWF v' where
  jobKey hk := by
    obtain ⟨j, hj, hspec, -⟩ := hs.job_some hk
    exact (Job.spec_eq.mp hspec).1.trans (h.jobKey hj)
  attemptKey hk := by
    obtain ⟨a, ha, hspec⟩ := hs.attempt_some hk
    exact (JobAttempt.spec_eq.mp hspec).1.trans (h.attemptKey ha)
  intentKey hk := by
    obtain ⟨i, hi, hspec⟩ := hs.intent_some hk
    exact (ExecutionIntent.spec_eq.mp hspec).1.trans (h.intentKey hi)
  attemptJob hk := by
    obtain ⟨a, ha, hspec⟩ := hs.attempt_some hk
    obtain ⟨-, hjob, -, hnum⟩ := JobAttempt.spec_eq.mp hspec
    obtain ⟨j, hj, hlo, hhi⟩ := h.attemptJob ha
    obtain ⟨j', hj', -, hcur⟩ := hs.symm.job_some hj
    exact ⟨j', hjob ▸ hj', by omega, by omega⟩
  attemptOf hk hlo hhi := by
    obtain ⟨j, hj, -, hcur⟩ := hs.job_some hk
    obtain ⟨k', a, ha, hjob, hnum⟩ := h.attemptOf hj hlo (by omega)
    obtain ⟨a', ha', hspec⟩ := hs.symm.attempt_some ha
    obtain ⟨-, hjob', -, hnum'⟩ := JobAttempt.spec_eq.mp hspec
    exact ⟨k', a', ha', hjob'.symm.trans hjob, by omega⟩
  attemptUnique hk hk' hjob hnum := by
    obtain ⟨a, ha, hspec⟩ := hs.attempt_some hk
    obtain ⟨a', ha', hspec'⟩ := hs.attempt_some hk'
    obtain ⟨-, h1, -, h2⟩ := JobAttempt.spec_eq.mp hspec
    obtain ⟨-, h3, -, h4⟩ := JobAttempt.spec_eq.mp hspec'
    exact h.attemptUnique ha ha' (h1.symm.trans (hjob.trans h3)) (by omega)
  intentAttempt hk := by
    obtain ⟨i, hi, hspec⟩ := hs.intent_some hk
    obtain ⟨-, -, hres, hgen, hname, -⟩ := ExecutionIntent.spec_eq.mp hspec
    obtain ⟨a, ha, hg, hn⟩ := h.intentAttempt hi
    obtain ⟨a', ha', hspec'⟩ := hs.symm.attempt_some ha
    obtain ⟨-, hjob', -, hnum'⟩ := JobAttempt.spec_eq.mp hspec'
    exact ⟨a', hres ▸ ha', by omega, by rw [hname, hn, hjob', hnum']⟩
  intentOf hk := by
    obtain ⟨a, ha, -⟩ := hs.attempt_some hk
    obtain ⟨k', i, hi, hres⟩ := h.intentOf ha
    obtain ⟨i', hi', hspec⟩ := hs.symm.intent_some hi
    obtain ⟨-, -, hres', -⟩ := ExecutionIntent.spec_eq.mp hspec
    exact ⟨k', i', hi', hres'.symm.trans hres⟩
  intentUnique hk hk' hres := by
    obtain ⟨i, hi, hspec⟩ := hs.intent_some hk
    obtain ⟨i', hi', hspec'⟩ := hs.intent_some hk'
    obtain ⟨-, -, h1, -⟩ := ExecutionIntent.spec_eq.mp hspec
    obtain ⟨-, -, h2, -⟩ := ExecutionIntent.spec_eq.mp hspec'
    exact h.intentUnique hi hi' (h1.symm.trans (hres.trans h2))
  status := hstatus
  epoch := hepoch
  lease := hlease

/-- An advance keeps the intent and the attempt in step with each other. -/
lemma Advance.admits {i : ExecutionIntent} {a : JobAttempt} {j : Job} {st : IntentStatus}
    {s t : JobState} (h : Advance now i a j e st s t) (hold : i.status.admits a.state) : st.admits s := by
  cases h with
  | claim _ _ _ => exact .inl rfl
  | renew hi => rwa [hi] at hold
  | run _ _ _ => exact .inr rfl
  | finish o _ _ _ => cases o <;> simp [Outcome.intentStatus, Outcome.attemptState, IntentStatus.admits]
  | begin _ _ _ _ _ ht _ => exact ht

/-- An advance takes effect on an intent that is pending or claimed, and leaves it claimed or final. -/
lemma Advance.status {i : ExecutionIntent} {a : JobAttempt} {j : Job} {st : IntentStatus}
    {s t : JobState} (h : Advance now i a j e st s t) :
    (i.status = .pending ∧ st = .claimed) ∨ (i.status = .claimed ∧ st ≠ .pending) := by
  cases h with
  | claim _ hi _ => exact .inl ⟨hi, rfl⟩
  | renew hi => exact .inr ⟨hi, by simp⟩
  | run hi _ _ => exact .inr ⟨hi, by simp⟩
  | finish o hi _ _ => exact .inr ⟨hi, by cases o <;> simp [Outcome.intentStatus]⟩
  | begin _ _ hi _ _ _ _ => exact .inr ⟨hi, by simp⟩

lemma JobWF.move {j j' : Job} (h : JobWF v) (hj : v.job j.id = some j) (hs : j'.spec = j.spec)
    (hc : j'.currentAttemptNumber = j.currentAttemptNumber) : JobWF (v.setJob j') :=
  h.of_sameRows (SameRows.setJob hj hs hc) h.status h.epoch h.lease

lemma SameRows.advance {i i' : ExecutionIntent} {a a' : JobAttempt} {j j' : Job}
    (hi : v.intent i.id = some i) (ha : v.attempt a.id = some a) (hj : v.job j.id = some j)
    (hsi : i'.spec = i.spec) (hsa : a'.spec = a.spec) (hsj : j'.spec = j.spec)
    (hc : j'.currentAttemptNumber = j.currentAttemptNumber) :
    SameRows v (((v.setJob j').setAttempt a').setIntent i') := by
  have h1 : SameRows v (v.setJob j') := SameRows.setJob hj hsj hc
  have h2 : SameRows (v.setJob j') ((v.setJob j').setAttempt a') := SameRows.setAttempt ha hsa
  have h3 : SameRows ((v.setJob j').setAttempt a') (((v.setJob j').setAttempt a').setIntent i') :=
    SameRows.setIntent hi hsi
  exact (h1.trans h2).trans h3

/-- The intent of an attempt is unique, so a step on one intent leaves the attempts of all others. -/
lemma JobWF.other_attempt {k : Uuid} {i i₀ : ExecutionIntent} {a : JobAttempt} (h : JobWF v)
    (hi : v.intent i.id = some i) (hlink : i.resourceId = a.id) (hk : v.intent k = some i₀)
    (hne : k ≠ i.id) : i₀.resourceId ≠ a.id :=
  fun hres => hne (h.intentUnique hk hi (hres.trans hlink.symm))

lemma JobWF.advance {i i' : ExecutionIntent} {a a' : JobAttempt} {j j' : Job} (h : JobWF v)
    (hi : v.intent i.id = some i) (ha : v.attempt a.id = some a) (hj : v.job j.id = some j)
    (hlink : i.resourceId = a.id) (hsi : i'.spec = i.spec) (hsa : a'.spec = a.spec)
    (hsj : j'.spec = j.spec) (hc : j'.currentAttemptNumber = j.currentAttemptNumber)
    (hadv : Advance now i a j e i'.status a'.state j'.state)
    (hep : i'.leaseEpoch = if i.status = .pending then i.leaseEpoch + 1 else i.leaseEpoch)
    (hle : i'.status = .claimed → i'.leaseExpiresAt = none → i.status = .claimed ∧ i.leaseExpiresAt = none) :
    JobWF (((v.setJob j').setAttempt a').setIntent i') := by
  have hid : i'.id = i.id := (ExecutionIntent.spec_eq.mp hsi).1
  have hres : i'.resourceId = i.resourceId := (ExecutionIntent.spec_eq.mp hsi).2.2.1
  have haid : a'.id = a.id := (JobAttempt.spec_eq.mp hsa).1
  refine h.of_sameRows (SameRows.advance hi ha hj hsi hsa hsj hc) ?_ ?_ ?_
  · intro k i₀ a₀ hk hat
    simp only [JobView.setIntent_intent, JobView.setIntent_attempt, JobView.setAttempt_attempt,
      JobView.setJob_attempt, JobView.setAttempt_intent, JobView.setJob_intent, hid, haid] at hk hat
    by_cases hki : k = i.id
    · rw [if_pos hki] at hk
      cases hk
      rw [if_pos (hres.trans hlink)] at hat
      cases hat
      exact hadv.admits (h.status hi (hlink ▸ ha))
    · rw [if_neg hki] at hk
      rw [if_neg (h.other_attempt hi hlink hk hki)] at hat
      exact h.status hk hat
  · intro k i₀ hk
    simp only [JobView.setIntent_intent, JobView.setAttempt_intent, JobView.setJob_intent, hid] at hk
    by_cases hki : k = i.id
    · rw [if_pos hki] at hk
      cases hk
      have hold := h.epoch hi
      rcases hadv.status with ⟨hp, hst⟩ | ⟨hp, hst⟩
      · simp [hep, hp, hst]
      · simp [hep, hp, hst, hold]
    · rw [if_neg hki] at hk
      exact h.epoch hk
  · intro k i₀ hk hcl hnone
    simp only [JobView.setIntent_intent, JobView.setAttempt_intent, JobView.setJob_intent, hid] at hk
    by_cases hki : k = i.id
    · rw [if_pos hki] at hk
      cases hk
      obtain ⟨h1, h2⟩ := hle hcl hnone
      exact h.lease hi h1 h2
    · rw [if_neg hki] at hk
      exact h.lease hk hcl hnone

lemma JobWF.submit {j : Job} (h : JobWF v) (hnew : v.job j.id = none)
    (h0 : j.currentAttemptNumber = 0) : JobWF (v.setJob j) where
  jobKey {k j₀} hk := by
    rw [JobView.setJob_job] at hk
    by_cases hkj : k = j.id
    · rw [if_pos hkj] at hk
      cases hk
      exact hkj.symm
    · rw [if_neg hkj] at hk
      exact h.jobKey hk
  attemptJob {k a} hk := by
    obtain ⟨j₀, hj₀, hlo, hhi⟩ := h.attemptJob hk
    have hne : a.jobId ≠ j.id := by
      intro he
      rw [he, hnew] at hj₀
      cases hj₀
    exact ⟨j₀, by rw [JobView.setJob_job, if_neg hne, hj₀], hlo, hhi⟩
  attemptOf {k j₀ n} hk hlo hhi := by
    rw [JobView.setJob_job] at hk
    by_cases hkj : k = j.id
    · rw [if_pos hkj] at hk
      cases hk
      omega
    · rw [if_neg hkj] at hk
      exact h.attemptOf hk hlo hhi
  attemptKey := h.attemptKey
  intentKey := h.intentKey
  attemptUnique := h.attemptUnique
  intentAttempt := h.intentAttempt
  intentOf := h.intentOf
  intentUnique := h.intentUnique
  status := h.status
  epoch := h.epoch
  lease := h.lease

/-- The snapshot a scheduler admits from may be old, but only the next attempt number is free. -/
lemma JobWF.admission_number {j : Job} {n : Nat} (h : JobWF v) (hj : v.job j.id = some j)
    (hfree : ∀ k b, v.attempt k = some b → b.jobId = j.id → b.attemptNumber ≠ n) (hlo : 1 ≤ n)
    (hhi : n ≤ j.currentAttemptNumber + 1) : n = j.currentAttemptNumber + 1 := by
  by_contra hne
  obtain ⟨k, a, ha, hjob, hnum⟩ := h.attemptOf hj hlo (by omega)
  exact hfree k a ha hjob hnum

lemma JobWF.admission {j j' : Job} {a : JobAttempt} {i : ExecutionIntent} (h : JobWF v)
    (hj : v.job j.id = some j) (hs : j'.spec = j.spec) (hcur : j'.currentAttemptNumber = a.attemptNumber)
    (hanew : v.attempt a.id = none) (hajob : a.jobId = j.id) (hast : a.state = admitted)
    (hfree : ∀ k b, v.attempt k = some b → b.jobId = j.id → b.attemptNumber ≠ a.attemptNumber)
    (hnum : a.attemptNumber = j.currentAttemptNumber + 1) (hinew : v.intent i.id = none)
    (hres : i.resourceId = a.id) (hist : i.status = .pending) (hep : i.leaseEpoch = 0)
    (hgen : i.targetGeneration = a.attemptNumber)
    (hname : i.deterministicResourceName = .job j.id a.attemptNumber) :
    JobWF (((v.setJob j').setAttempt a).setIntent i) := by
  have hid : j'.id = j.id := (Job.spec_eq.mp hs).1
  have hold : ∀ {k b}, v.attempt k = some b → k ≠ a.id := by
    rintro k b hk rfl
    rw [hanew] at hk
    cases hk
  have hiold : ∀ {k b}, v.intent k = some b → k ≠ i.id := by
    rintro k b hk rfl
    rw [hinew] at hk
    cases hk
  -- the rows of the new view, one table at a time
  have hjobs : ∀ {k j₀}, (((v.setJob j').setAttempt a).setIntent i).job k = some j₀ →
      (k = j.id ∧ j₀ = j') ∨ (k ≠ j.id ∧ v.job k = some j₀) := by
    intro k j₀ hk
    simp only [JobView.setIntent_job, JobView.setAttempt_job, JobView.setJob_job, hid] at hk
    by_cases hkj : k = j.id
    · rw [if_pos hkj] at hk
      exact .inl ⟨hkj, (Option.some.inj hk).symm⟩
    · rw [if_neg hkj] at hk
      exact .inr ⟨hkj, hk⟩
  have hattempts : ∀ {k b}, (((v.setJob j').setAttempt a).setIntent i).attempt k = some b →
      (k = a.id ∧ b = a) ∨ v.attempt k = some b := by
    intro k b hk
    simp only [JobView.setIntent_attempt, JobView.setAttempt_attempt, JobView.setJob_attempt] at hk
    by_cases hka : k = a.id
    · rw [if_pos hka] at hk
      exact .inl ⟨hka, (Option.some.inj hk).symm⟩
    · rw [if_neg hka] at hk
      exact .inr hk
  have hintents : ∀ {k b}, (((v.setJob j').setAttempt a).setIntent i).intent k = some b →
      (k = i.id ∧ b = i) ∨ v.intent k = some b := by
    intro k b hk
    simp only [JobView.setIntent_intent, JobView.setAttempt_intent, JobView.setJob_intent] at hk
    by_cases hki : k = i.id
    · rw [if_pos hki] at hk
      exact .inl ⟨hki, (Option.some.inj hk).symm⟩
    · rw [if_neg hki] at hk
      exact .inr hk
  have hjob' : (((v.setJob j').setAttempt a).setIntent i).job j.id = some j' := by simp [hid]
  have hattempt' : (((v.setJob j').setAttempt a).setIntent i).attempt a.id = some a := by simp
  have hkeepJob : ∀ {k j₀}, k ≠ j.id → v.job k = some j₀ →
      (((v.setJob j').setAttempt a).setIntent i).job k = some j₀ := by
    intro k j₀ hne hk
    simp [hid, hne, hk]
  have hkeepAttempt : ∀ {k b}, v.attempt k = some b →
      (((v.setJob j').setAttempt a).setIntent i).attempt k = some b := by
    intro k b hk
    simp [hold hk, hk]
  constructor
  · intro k j₀ hk
    rcases hjobs hk with ⟨rfl, rfl⟩ | ⟨-, hk⟩
    · exact hid
    · exact h.jobKey hk
  · intro k b hk
    rcases hattempts hk with ⟨rfl, rfl⟩ | hk
    · rfl
    · exact h.attemptKey hk
  · intro k b hk
    rcases hintents hk with ⟨rfl, rfl⟩ | hk
    · rfl
    · exact h.intentKey hk
  · intro k b hk
    rcases hattempts hk with ⟨rfl, rfl⟩ | hk
    · exact ⟨j', hajob ▸ hjob', by omega, by omega⟩
    · obtain ⟨j₀, hj₀, hlo, hhi⟩ := h.attemptJob hk
      by_cases hb : b.jobId = j.id
      · rw [hb, hj] at hj₀
        cases hj₀
        exact ⟨j', hb ▸ hjob', hlo, by omega⟩
      · exact ⟨j₀, hkeepJob hb hj₀, hlo, hhi⟩
  · intro k j₀ n hk hlo hhi
    rcases hjobs hk with ⟨rfl, rfl⟩ | ⟨-, hk⟩
    · by_cases hn : n = a.attemptNumber
      · exact ⟨a.id, a, hattempt', hajob, hn.symm⟩
      · obtain ⟨k', b, hb, hbj, hbn⟩ := h.attemptOf hj hlo (by omega)
        exact ⟨k', b, hkeepAttempt hb, hbj, hbn⟩
    · obtain ⟨k', b, hb, hbj, hbn⟩ := h.attemptOf hk hlo hhi
      exact ⟨k', b, hkeepAttempt hb, hbj, hbn⟩
  · intro k k' b b' hk hk' hjob hnum'
    rcases hattempts hk with ⟨rfl, rfl⟩ | hv <;> rcases hattempts hk' with ⟨rfl, rfl⟩ | hv'
    · rfl
    · exact absurd hnum'.symm (hfree k' b' hv' (hjob.symm.trans hajob))
    · exact absurd hnum' (hfree k b hv (hjob.trans hajob))
    · exact h.attemptUnique hv hv' hjob hnum'
  · intro k b hk
    rcases hintents hk with ⟨rfl, rfl⟩ | hk
    · exact ⟨a, hres ▸ hattempt', hgen, hajob ▸ hname⟩
    · obtain ⟨c, hc, hg, hn⟩ := h.intentAttempt hk
      exact ⟨c, hkeepAttempt hc, hg, hn⟩
  · intro k b hk
    rcases hattempts hk with ⟨rfl, rfl⟩ | hk
    · exact ⟨i.id, i, by simp, hres⟩
    · obtain ⟨k', c, hc, hr⟩ := h.intentOf hk
      exact ⟨k', c, by simp [hiold hc, hc], hr⟩
  · intro k k' b b' hk hk' hr
    have hfresh : ∀ {k b}, v.intent k = some b → b.resourceId ≠ a.id := by
      intro k b hk
      obtain ⟨c, hc, -⟩ := h.intentAttempt hk
      exact hold hc
    rcases hintents hk with ⟨rfl, rfl⟩ | hv <;> rcases hintents hk' with ⟨rfl, rfl⟩ | hv'
    · rfl
    · exact absurd (hr.symm.trans hres) (hfresh hv')
    · exact absurd (hr.trans hres) (hfresh hv)
    · exact h.intentUnique hv hv' hr
  · intro k b c hk hc
    rcases hintents hk with ⟨rfl, rfl⟩ | hk
    · rw [hres] at hc
      rw [hattempt'] at hc
      cases hc
      rw [hist]
      exact hast
    · obtain ⟨d, hd, -⟩ := h.intentAttempt hk
      rw [hkeepAttempt hd] at hc
      cases hc
      exact h.status hk hd
  · intro k b hk
    rcases hintents hk with ⟨rfl, rfl⟩ | hk
    · simp [hep, hist]
    · exact h.epoch hk
  · intro k b hk hcl
    rcases hintents hk with ⟨rfl, rfl⟩ | hk
    · rw [hist] at hcl
      cases hcl
    · exact h.lease hk hcl

/-- Every step of the protocol keeps the view well formed. -/
theorem JobStep.wf (hstep : JobStep now v e v') (h : JobWF v) : JobWF v' := by
  cases hstep with
  | scan => exact h
  | submit j hnew _ h0 => exact h.submit hnew h0
  | move j j' e hj hs hc _ => exact h.move hj hs hc
  | admission j j' a i hj _ hs _ hcur hanew hajob hast hfree hlo hhi _ hinew hres hist hep hgen hname =>
    exact h.admission hj hs hcur hanew hajob hast hfree (h.admission_number hj hfree hlo hhi) hinew hres hist hep
      hgen hname
  | advance i i' a a' j j' e hi ha hj hlink _ hsi hsa hsj hc hadv hep hle =>
    exact h.advance hi ha hj hlink hsi hsa hsj hc hadv hep hle

end Steps

end HamiCloud
