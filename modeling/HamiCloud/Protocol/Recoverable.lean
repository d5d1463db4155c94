import HamiCloud.Library.Total
import HamiCloud.Protocol.JobEvolution

/-!
# Jobs that can still be brought to an end

The facts that keep a job within reach of the scheduler and the executors, and a measure that every
step of theirs lowers. Two kinds of moves break these facts: a cancellation of a job that never had an
attempt, and a retry beyond the budget of the job.
-/

namespace HamiCloud

open Library

structure Recoverable (v : JobView) : Prop where
  /-- an admitted job has an intent that an executor can claim -/
  pending : ∀ {k j}, v.job k = some j → j.state = .admitted →
    ∃ k' i a, v.intent k' = some i ∧ i.status = .pending ∧ v.attempt i.resourceId = some a ∧ a.jobId = k
  ended : ∀ {k i a j}, v.intent k = some i → i.status = .applied → v.attempt i.resourceId = some a →
    v.job a.jobId = some j → j.state.isTerminal = true
  started : ∀ {k j}, v.job k = some j → j.state ≠ .queued → 1 ≤ j.currentAttemptNumber
  budget : ∀ {k j}, v.job k = some j → j.state = .queued ∨ j.state = .retryWait →
    j.currentAttemptNumber ≤ j.maxRetries

/-- A job that waits for an attempt has a retry left for it. -/
def RetriesLeft (v : JobView) : Prop :=
  ∀ k j, v.job k = some j → j.state = .queued ∨ j.state = .retryWait → j.currentAttemptNumber ≤ j.maxRetries

/-- A step that neither cancels a job without attempts nor retries one beyond its budget. -/
structure KeepsRecoverable (v v' : JobView) : Prop where
  cancel : ∀ {k j j'}, v.job k = some j → v'.job k = some j' → j.state = .queued →
    j'.state = .cancelRequested → 1 ≤ j.currentAttemptNumber
  retry : ∀ {k j j'}, v.job k = some j → v'.job k = some j' → j'.state = .retryWait →
    j.state = .retryWait ∨ j.currentAttemptNumber ≤ j.maxRetries

section Steps

open JobState

variable {now : Time} {v v' : JobView} {e : JobEvent}

/-- Where a job row after a step comes from. -/
lemma JobStep.job_origin (hstep : JobStep now v e v') (hwf : JobWF v) {k : Uuid} {j' : Job}
    (hk' : v'.job k = some j') :
    (j'.state = queued ∧ j'.currentAttemptNumber = 0 ∧ e = .submit) ∨
    ∃ j, v.job k = some j ∧ j'.spec = j.spec ∧ (j'.state = j.state ∨ j'.state ∈ contract j.state) ∧
      ((j'.currentAttemptNumber = j.currentAttemptNumber ∧ (j'.state = admitted → j.state = admitted)) ∨
        (j.state = queued ∧ j'.state = admitted ∧
          j'.currentAttemptNumber = j.currentAttemptNumber + 1)) := by
  cases hk : v.job k with
  | none => exact .inl (hstep.new_job hk hk')
  | some j =>
    obtain ⟨j₁, hj₁, hrest⟩ := hstep.job_row hwf hk
    obtain rfl : j₁ = j' := Option.some.inj (hj₁.symm.trans hk')
    exact .inr ⟨j, rfl, hrest⟩

/-- A pending intent can only be claimed, and the job is then no longer `ADMITTED`. -/
lemma Advance.of_pending {i : ExecutionIntent} {a : JobAttempt} {j : Job} {st : IntentStatus} {s t : JobState}
    (h : Advance now i a j e st s t) (hp : i.status = .pending) : t ≠ JobState.admitted := by
  cases h with
  | claim _ _ hj =>
    rcases hj with ⟨-, rfl⟩ | ⟨hj, rfl⟩
    · simp
    · exact hj
  | renew hc => simp [hp] at hc
  | run hc _ _ => simp [hp] at hc
  | finish o hc _ _ => simp [hp] at hc
  | begin _ _ hc _ _ _ _ => simp [hp] at hc

lemma Advance.of_applied {i : ExecutionIntent} {a : JobAttempt} {j : Job} {st : IntentStatus} {s t : JobState}
    (h : Advance now i a j e st s t) (happ : st = .applied) : t.isTerminal = true := by
  cases h with
  | claim _ _ _ => cases happ
  | renew _ => cases happ
  | run _ _ _ => cases happ
  | finish o _ hsrc _ =>
    cases o with
    | succeeded => cases hs : j.state <;> simp [hs, Outcome.sources, Outcome.jobState, isTerminal] at hsrc ⊢
    | failed _ => cases happ
    | cancelled => cases happ
  | begin _ _ _ _ _ _ _ => cases happ

lemma Recoverable.step_pending (h : Recoverable v) (hstep : JobStep now v e v') {k : Uuid}
    {j' : Job} (hj' : v'.job k = some j') (hadm : j'.state = JobState.admitted) :
    ∃ k' i a, v'.intent k' = some i ∧ i.status = .pending ∧ v'.attempt i.resourceId = some a ∧ a.jobId = k := by
  -- the pending intent of a job that was admitted before stays, unless the step touches it
  have hkeep : ∀ {j}, v.job k = some j → j.state = JobState.admitted →
      (∀ {k' i a}, v.intent k' = some i → i.status = .pending → v.attempt i.resourceId = some a →
        a.jobId = k → v'.intent k' = some i) →
      ∃ k' i a, v'.intent k' = some i ∧ i.status = .pending ∧ v'.attempt i.resourceId = some a ∧
        a.jobId = k := by
    intro j hj hst huntouched
    obtain ⟨k', i, a, hi, hp, ha, hjob⟩ := h.pending hj hst
    obtain ⟨a', ha', hsa⟩ := hstep.attempt_row ha
    exact ⟨k', i, a', huntouched hi hp ha hjob, hp, ha', (JobAttempt.spec_eq.mp hsa).2.1.trans hjob⟩
  cases hstep with
  | scan => exact hkeep hj' hadm (fun hi _ _ _ => hi)
  | submit j _ hq _ =>
    rw [JobView.setJob_job] at hj'
    by_cases hkj : k = j.id
    · rw [if_pos hkj] at hj'
      rw [← Option.some.inj hj', hq] at hadm
      cases hadm
    · rw [if_neg hkj] at hj'
      exact hkeep hj' hadm (fun hi _ _ _ => hi)
  | move j j₁ e _ hs _ hm =>
    rw [JobView.setJob_job, (Job.spec_eq.mp hs).1] at hj'
    by_cases hkj : k = j.id
    · rw [if_pos hkj] at hj'
      rw [← Option.some.inj hj'] at hadm
      exact absurd hadm hm.not_admitted
    · rw [if_neg hkj] at hj'
      exact hkeep hj' hadm (fun hi _ _ _ => hi)
  | admission j j₁ a i _ _ hs _ _ _ hajob _ _ _ _ _ hinew hres hp =>
    by_cases hkj : k = j.id
    · exact ⟨i.id, i, a, by simp, hp, by simp [hres], hajob.trans hkj.symm⟩
    · simp only [JobView.setIntent_job, JobView.setAttempt_job, JobView.setJob_job, (Job.spec_eq.mp hs).1,
        if_neg hkj] at hj'
      refine hkeep hj' hadm (fun {k' i₀ _} hi₀ _ _ _ => ?_)
      have hne : k' ≠ i.id := by
        rintro rfl
        rw [hinew] at hi₀
        cases hi₀
      simp [hne, hi₀]
  | advance i i₁ a a₁ j j₁ e hi ha hj hlink hajob hsi hsa hsj _ hadv _ _ =>
    simp only [JobView.setIntent_job, JobView.setAttempt_job, JobView.setJob_job, (Job.spec_eq.mp hsj).1] at hj'
    have hiid := (ExecutionIntent.spec_eq.mp hsi).1
    by_cases hkj : k = j.id
    · rw [if_pos hkj] at hj'
      obtain rfl := Option.some.inj hj'
      refine hkeep (hkj ▸ hj) (hadv.admitted hadm) (fun {k' i₀ _} hi₀ hp _ _ => ?_)
      have hne : k' ≠ i.id := by
        rintro rfl
        rw [hi] at hi₀
        rw [← Option.some.inj hi₀] at hp
        exact hadv.of_pending hp hadm
      simp [hiid, hne, hi₀]
    · rw [if_neg hkj] at hj'
      refine hkeep hj' hadm (fun {k' i₀ a₀} hi₀ _ ha₀ hjob₀ => ?_)
      have hne : k' ≠ i.id := by
        rintro rfl
        rw [hi] at hi₀
        rw [← Option.some.inj hi₀, hlink, ha] at ha₀
        rw [← Option.some.inj ha₀] at hjob₀
        exact hkj (hjob₀.symm.trans hajob)
      simp [hiid, hne, hi₀]

lemma Recoverable.step_ended (h : Recoverable v) (hwf : JobWF v) (hstep : JobStep now v e v') {k : Uuid}
    {i' : ExecutionIntent} {a' : JobAttempt} {j' : Job} (hi' : v'.intent k = some i')
    (happ : i'.status = .applied) (ha' : v'.attempt i'.resourceId = some a') (hj' : v'.job a'.jobId = some j') :
    j'.state.isTerminal = true := by
  -- an intent that was applied before: its job was at its end, which no edge leaves
  have hold : v.intent k = some i' → j'.state.isTerminal = true := by
    intro hi
    obtain ⟨a, ha, -⟩ := hwf.intentAttempt hi
    obtain ⟨j, hj, -⟩ := hwf.attemptJob ha
    have hterm := h.ended hi happ ha hj
    obtain ⟨a₁, ha₁, hsa⟩ := hstep.attempt_row ha
    obtain rfl : a₁ = a' := Option.some.inj (ha₁.symm.trans ha')
    obtain ⟨j₁, hj₁, -, hstate, -⟩ := hstep.job_row hwf hj
    rw [(JobAttempt.spec_eq.mp hsa).2.1] at hj'
    obtain rfl : j₁ = j' := Option.some.inj (hj₁.symm.trans hj')
    rcases hstate with hs | hs
    · rw [hs, hterm]
    · rw [(Proofs.isTerminal_iff_contract j.state).mp hterm] at hs
      cases hs
  cases hstep with
  | scan => exact hold hi'
  | submit j => exact hold hi'
  | move j j₁ => exact hold hi'
  | admission j j₁ a i _ _ _ _ _ _ _ _ _ _ _ _ _ _ hp =>
    simp only [JobView.setIntent_intent, JobView.setAttempt_intent, JobView.setJob_intent] at hi'
    by_cases hki : k = i.id
    · rw [if_pos hki] at hi'
      rw [← Option.some.inj hi', hp] at happ
      cases happ
    · rw [if_neg hki] at hi'
      exact hold hi'
  | advance i i₁ a a₁ j j₁ e hi ha hj hlink hajob hsi hsa hsj _ hadv _ _ =>
    obtain ⟨hiid, -, hires, -⟩ := ExecutionIntent.spec_eq.mp hsi
    obtain ⟨haid, hajob', -⟩ := JobAttempt.spec_eq.mp hsa
    simp only [JobView.setIntent_intent, JobView.setAttempt_intent, JobView.setJob_intent, hiid] at hi'
    by_cases hki : k = i.id
    · rw [if_pos hki] at hi'
      obtain rfl := Option.some.inj hi'
      simp only [JobView.setIntent_attempt, JobView.setAttempt_attempt, haid, if_pos (hires.trans hlink)] at ha'
      obtain rfl := Option.some.inj ha'
      simp only [JobView.setIntent_job, JobView.setAttempt_job, JobView.setJob_job, (Job.spec_eq.mp hsj).1,
        if_pos (hajob'.trans hajob)] at hj'
      obtain rfl := Option.some.inj hj'
      exact hadv.of_applied happ
    · rw [if_neg hki] at hi'
      exact hold hi'

lemma RetriesLeft.step (h : RetriesLeft v) (hwf : JobWF v) (hstep : JobStep now v e v')
    (hretry : ∀ {k j j'}, v.job k = some j → v'.job k = some j' → j'.state = .retryWait →
      j.state = .retryWait ∨ j.currentAttemptNumber ≤ j.maxRetries) : RetriesLeft v' := by
  intro k j' hj' hst
  rcases hstep.job_origin hwf hj' with ⟨-, h0⟩ | ⟨j, hj, hs, hedge, ⟨hcur, -⟩ | ⟨-, hadm, -⟩⟩
  · omega
  · obtain ⟨-, -, -, hmax, -⟩ := Job.spec_eq.mp hs
    rw [hcur, hmax]
    rcases hst with hq | hr
    · apply h k j hj
      rcases hedge with he | he
      · exact .inl (he.symm.trans hq)
      · rw [hq] at he
        cases hjs : j.state <;> simp [hjs, contract] at he ⊢
    · rcases hretry hj hj' hr with hold | hle
      · exact h k j hj (.inr hold)
      · exact hle
  · rw [hadm] at hst
    simp at hst

/-- Step lemma. -/
theorem Recoverable.step (h : Recoverable v) (hwf : JobWF v) (hstep : JobStep now v e v')
    (hkeep : KeepsRecoverable v v') : Recoverable v' where
  pending hj' hadm := h.step_pending hstep hj' hadm
  ended hi' happ ha' hj' := h.step_ended hwf hstep hi' happ ha' hj'
  started {k j'} hj' hst := by
    rcases hstep.job_origin hwf hj' with ⟨hq, -⟩ | ⟨j, hj, -, hedge, ⟨hcur, hwas⟩ | ⟨-, -, hcur⟩⟩
    · exact absurd hq hst
    · rw [hcur]
      by_cases hq : j.state = queued
      · have hcr : j'.state = cancelRequested := by
          rcases hedge with he | he
          · exact absurd (he.trans hq) hst
          · rw [hq] at he hwas
            simp only [contract, List.mem_cons, List.not_mem_nil, or_false] at he
            rcases he with ha | hc
            · cases hwas ha
            · exact hc
        exact hkeep.cancel hj hj' hq hcr
      · exact h.started hj hq
    · omega
  budget hj' hst := RetriesLeft.step (fun _ _ => h.budget) hwf hstep hkeep.retry _ _ hj' hst

/-- How a step changes a job row: not at all, by a move or an advance, or by admitting the job. -/
lemma JobStep.job_change (hstep : JobStep now v e v') {k : Uuid} {j j' : Job} (hj : v.job k = some j)
    (hj' : v'.job k = some j') :
    j' = j ∨ (j'.spec = j.spec ∧ j'.currentAttemptNumber = j.currentAttemptNumber ∧
      (Move j e j'.state ∨
        ∃ i a st s, (v.intent i.id = some i ∧ v.attempt i.resourceId = some a) ∧ a.jobId = k ∧
          Advance now i a j e st s j'.state)) ∨
    (e = .admission k ∧ j'.state = JobState.admitted) := by
  have hsame : ∀ {w : JobView}, w.job k = some j' → w.job k = v.job k → j' = j := by
    intro w h1 h2
    rw [h1, hj] at h2
    exact Option.some.inj h2
  cases hstep with
  | scan => exact .inl (hsame hj' rfl)
  | submit j₀ hnew _ _ =>
    have hne : k ≠ j₀.id := by
      rintro rfl
      rw [hnew] at hj
      cases hj
    exact .inl (hsame hj' (by simp [hne]))
  | move j₀ j₁ e hj₀ hs hc hm =>
    have hid := (Job.spec_eq.mp hs).1
    by_cases hk : k = j₀.id
    · subst hk
      obtain rfl : j₀ = j := Option.some.inj (hj₀.symm.trans hj)
      simp only [JobView.setJob_job, hid, if_true, Option.some.injEq] at hj'
      subst hj'
      exact .inr (.inl ⟨hs, hc, .inl hm⟩)
    · exact .inl (hsame hj' (by simp [hid, hk]))
  | admission j₀ j₁ a i hj₀ _ hs hadm =>
    have hid := (Job.spec_eq.mp hs).1
    by_cases hk : k = j₀.id
    · subst hk
      simp only [JobView.setIntent_job, JobView.setAttempt_job, JobView.setJob_job, hid, if_true,
        Option.some.injEq] at hj'
      subst hj'
      exact .inr (.inr ⟨rfl, hadm⟩)
    · exact .inl (hsame hj' (by simp [hid, hk]))
  | advance i i₁ a a₁ j₀ j₁ e hi ha hj₀ hlink hajob _ _ hsj hc hadv _ _ =>
    have hid := (Job.spec_eq.mp hsj).1
    by_cases hk : k = j₀.id
    · subst hk
      obtain rfl : j₀ = j := Option.some.inj (hj₀.symm.trans hj)
      simp only [JobView.setIntent_job, JobView.setAttempt_job, JobView.setJob_job, hid, if_true,
        Option.some.injEq] at hj'
      subst hj'
      exact .inr (.inl ⟨hsj, hc, .inr ⟨i, a, _, _, ⟨hi, hlink ▸ ha⟩, hajob, hadv⟩⟩)
    · exact .inl (hsame hj' (by simp [hid, hk]))

/-- A job gets to `RETRY_WAIT` when a recovery is confirmed, or when an executor ends an attempt with a number
that leaves a retry. -/
lemma JobStep.enters_retryWait (hstep : JobStep now v e v') {k : Uuid} {j j' : Job} (hj : v.job k = some j)
    (hj' : v'.job k = some j') (hr : j'.state = retryWait) :
    j.state = retryWait ∨ (∃ n, e = .confirm j.id n retryWait) ∨
      ∃ i a, e = .finish i.id i.leaseEpoch (.failed true) ∧ v.intent i.id = some i ∧ i.status = .claimed ∧
        v.attempt i.resourceId = some a ∧ a.jobId = k ∧ a.attemptNumber ≤ j.maxRetries ∧
        j.state ≠ cancelRequested := by
  rcases hstep.job_change hj hj' with rfl | ⟨-, -, hm | ⟨i, a, st, s, ⟨hi, ha⟩, hajob, hadv⟩⟩ | ⟨-, hadm⟩
  · exact .inl hr
  · generalize j'.state = t at hm hr
    cases hm with
    | cancel _ => cases hr
    | requeue _ => cases hr
    | confirm n _ _ _ =>
      subst hr
      exact .inr (.inl ⟨n, rfl⟩)
  · generalize j'.state = t at hadv hr
    cases hadv with
    | claim _ _ hst =>
      rcases hst with ⟨-, rfl⟩ | ⟨-, rfl⟩
      · cases hr
      · exact .inl hr
    | renew _ => exact .inl hr
    | run _ _ _ => cases hr
    | finish o hclaimed _ hretry =>
      cases o with
      | succeeded => cases hs : j.state <;> simp [hs, Outcome.jobState] at hr
      | cancelled => cases hs : j.state <;> simp [hs, Outcome.jobState] at hr
      | failed r =>
        obtain rfl : r = true := by cases hs : j.state <;> simp [hs, Outcome.jobState] at hr <;> exact hr
        refine .inr (.inr ⟨i, a, rfl, hi, hclaimed, ha, hajob, of_decide_eq_true (hretry true rfl).symm, fun hs => ?_⟩)
        simp [hs, Outcome.jobState] at hr
    | begin _ _ _ _ _ _ hst =>
      rcases hst with ⟨-, rfl⟩ | rfl
      · cases hr
      · exact .inl hr
  · rw [hr] at hadm
    cases hadm

/-- Only a cancellation, a confirmation and the failure of an attempt can break recoverability. -/
lemma JobStep.keepsRecoverable (hstep : JobStep now v e v') (hwf : JobWF v)
    (hcancel : ∀ k j, e = .cancel k → v.job k = some j → j.state = queued → 1 ≤ j.currentAttemptNumber)
    (hfinish : ∀ i a j, e = .finish i.id i.leaseEpoch (.failed true) → v.intent i.id = some i →
      v.attempt i.resourceId = some a → v.job a.jobId = some j → j.state ≠ cancelRequested →
      j.currentAttemptNumber ≤ j.maxRetries)
    (hconfirm : ∀ k n j, e = .confirm k n retryWait → v.job k = some j → j.currentAttemptNumber ≤ j.maxRetries) :
    KeepsRecoverable v v' where
  cancel {k j j'} hj hj' hq hcr := by
    rcases hstep.job_change hj hj' with rfl | ⟨-, -, hm | ⟨i, a, st, s, -, -, hadv⟩⟩ | ⟨-, hadm⟩
    · rw [hq] at hcr
      cases hcr
    · generalize j'.state = t at hm hcr
      cases hm with
      | cancel _ => exact hcancel j.id j rfl (hwf.jobKey hj ▸ hj) hq
      | requeue _ => cases hcr
      | confirm n _ ht _ => simp [hcr] at ht
    · generalize j'.state = t at hadv hcr
      cases hadv with
      | claim _ _ hst => rcases hst with ⟨-, rfl⟩ | ⟨-, rfl⟩ <;> simp [hq] at hcr
      | renew _ => simp [hq] at hcr
      | run _ _ _ => cases hcr
      | finish o _ hsource _ =>
        rw [hq] at hsource
        cases o <;> simp [Outcome.sources] at hsource
      | begin _ _ _ _ _ _ hst => rcases hst with ⟨-, rfl⟩ | rfl <;> simp [hq] at hcr
    · rw [hcr] at hadm
      cases hadm
  retry {k j j'} hj hj' hr := by
    rcases hstep.enters_retryWait hj hj' hr with hold | ⟨n, rfl⟩ | ⟨i, a, he, hi, -, ha, rfl, -, hst⟩
    · exact .inl hold
    · exact .inr (hconfirm j.id n j rfl (hwf.jobKey hj ▸ hj))
    · exact .inr (hfinish i a j he hi ha hj hst)

end Steps

/-! ### The remaining effort -/

/-- How far a state is from the end of the current attempt. -/
def JobState.rank : JobState → Nat
  | admitted => 7
  | starting => 6
  | running => 5
  | recoveryPending => 4
  | retryWait => 3
  | queued => 2
  | cancelRequested => 1
  | _ => 0

def Job.effort (j : Job) : Nat :=
  if j.state.isTerminal then 0 else 8 * (j.maxRetries + 1 - j.currentAttemptNumber) + j.state.rank

def ExecutionIntent.effort (i : ExecutionIntent) : Nat :=
  match i.status with
  | .pending => 2
  | .claimed => 1
  | _ => 0

/-- The effort left over all jobs and intents. -/
noncomputable def JobView.effort (v : JobView) : Nat := total Job.effort v.job + total ExecutionIntent.effort v.intent

section Effort

open JobState

variable {now : Time} {v v' : JobView} {e : JobEvent}

/-- Every edge of the contract but admission leads nearer to the end. -/
lemma JobState.rank_lt {s t : JobState} (h : t ∈ contract s) (hne : t ≠ admitted) : t.rank < s.rank := by
  cases s <;> cases t <;> simp [contract, rank] at h hne ⊢

lemma Job.effort_lt {j j' : Job} (hs : j'.spec = j.spec)
    (hc : j'.currentAttemptNumber = j.currentAttemptNumber) (hedge : j'.state ∈ contract j.state)
    (hne : j'.state ≠ admitted) : j'.effort < j.effort := by
  obtain ⟨-, -, -, hmax, -⟩ := Job.spec_eq.mp hs
  have hrank := JobState.rank_lt hedge hne
  have hnt : j.state.isTerminal = false := by
    by_contra ht
    rw [(Proofs.isTerminal_iff_contract j.state).mp (by simpa using ht)] at hedge
    cases hedge
  simp only [Job.effort, hnt, hmax, hc, Bool.false_eq_true, if_false]
  split
  · omega
  · omega

lemma Job.effort_le {j j' : Job} (hs : j'.spec = j.spec)
    (hc : j'.currentAttemptNumber = j.currentAttemptNumber)
    (hedge : j'.state = j.state ∨ j'.state ∈ contract j.state)
    (hne : j'.state = admitted → j.state = admitted) : j'.effort ≤ j.effort := by
  obtain ⟨-, -, -, hmax, -⟩ := Job.spec_eq.mp hs
  rcases hedge with he | he
  · simp only [Job.effort, he, hmax, hc, le_refl]
  · refine (Job.effort_lt hs hc he fun hadm => ?_).le
    rw [hadm, hne hadm] at he
    simp [contract] at he

lemma Job.effort_admission {j j' : Job} (hs : j'.spec = j.spec) (hq : j.state = queued)
    (hadm : j'.state = admitted) (hcur : j'.currentAttemptNumber = j.currentAttemptNumber + 1)
    (hmax : j'.currentAttemptNumber ≤ j.maxRetries + 1) : j'.effort + 2 < j.effort := by
  obtain ⟨-, -, -, hmax', -⟩ := Job.spec_eq.mp hs
  simp only [Job.effort, hq, hadm, isTerminal, rank, hmax', hcur, Bool.false_eq_true, if_false]
  omega

/-- Of the steps on an intent only a renewal leaves its effort as it is and the job as well. -/
lemma Advance.effort {i i' : ExecutionIntent} {a : JobAttempt} {j j' : Job} {s : JobState}
    (h : Advance now i a j e i'.status s j'.state) (hs : j'.spec = j.spec)
    (hc : j'.currentAttemptNumber = j.currentAttemptNumber) (hrenew : ∀ k n, e ≠ .renew k n) :
    j'.effort ≤ j.effort ∧ i'.effort ≤ i.effort ∧ (j'.effort < j.effort ∨ i'.effort < i.effort) := by
  have hjob := Job.effort_le hs hc h.edge h.admitted
  have hintent : i'.effort ≤ i.effort ∧ (i'.effort < i.effort ∨ ∃ k n, e = .run k n) := by
    unfold ExecutionIntent.effort
    generalize i'.status = st at h
    generalize j'.state = t at h
    cases h with
    | claim _ hp _ => simp [hp]
    | renew _ => exact absurd rfl (hrenew _ _)
    | run hcl _ _ => exact ⟨by simp [hcl], .inr ⟨_, _, rfl⟩⟩
    | finish o hcl _ _ => cases o <;> simp [hcl, Outcome.intentStatus]
    | begin _ _ hcl _ _ _ _ => simp [hcl]
  refine ⟨hjob, hintent.1, ?_⟩
  rcases hintent.2 with hlt | ⟨k, n, rfl⟩
  · exact .inr hlt
  · left
    generalize ht : j'.state = t at h
    generalize i'.status = st at h
    cases h with
    | run _ _ hst => exact Job.effort_lt hs hc (by simp [ht, hst, contract]) (by simp [ht])

/-- A step that neither submits a job nor renews a lease changes nothing or lowers the effort. -/
theorem JobStep.effort_lt (hstep : JobStep now v e v') (hwf : JobWF v) (hjobs : FiniteDomain v.job)
    (hintents : FiniteDomain v.intent) (hsubmit : e ≠ .submit) (hrenew : ∀ k n, e ≠ .renew k n) :
    v' = v ∨ v'.effort < v.effort := by
  cases hstep with
  | scan => exact .inl rfl
  | submit j => exact absurd rfl hsubmit
  | move j j' e hj hs hc hm =>
    right
    have hlt := total_lt (w := Job.effort) hjobs hj (Job.effort_lt hs hc hm.edge hm.not_admitted)
    rw [← (Job.spec_eq.mp hs).1] at hlt
    exact Nat.add_lt_add_right hlt _
  | admission j j' a i hj hq hs hadm hcur _ _ _ hfree hlo hhi hmax hinew _ hp =>
    right
    have hnum := hcur.trans (hwf.admission_number hj hfree hlo hhi)
    have hjob := Job.effort_admission hs hq hadm hnum (hcur ▸ hmax)
    have h1 := total_update (w := Job.effort) hjobs j'.id j'
    have h2 := total_update (w := ExecutionIntent.effort) hintents i.id i
    have hie : i.effort = 2 := by simp [ExecutionIntent.effort, hp]
    rw [(Job.spec_eq.mp hs).1, hj, weight] at h1
    rw [hinew, weight, hie] at h2
    simp only [JobView.effort, JobView.setJob, JobView.setIntent, JobView.setAttempt, (Job.spec_eq.mp hs).1]
    omega
  | advance i i' a a' j j' e hi ha hj _ _ hsi _ hsj hc hadv _ _ =>
    right
    obtain ⟨hjle, hile, hlt⟩ := hadv.effort hsj hc hrenew
    have h1 := total_update (w := Job.effort) hjobs j.id j'
    have h2 := total_update (w := ExecutionIntent.effort) hintents i.id i'
    rw [hj, weight] at h1
    rw [hi, weight] at h2
    simp only [JobView.effort, JobView.setJob, JobView.setIntent, JobView.setAttempt, (Job.spec_eq.mp hsj).1,
      (ExecutionIntent.spec_eq.mp hsi).1]
    omega

end Effort

end HamiCloud
