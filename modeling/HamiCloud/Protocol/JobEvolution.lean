import HamiCloud.Protocol.Jobs

/-!
# What a step of the job protocol may change

For each table, what a step does to a row that is already there. The relation `Evolves` collects the
facts that no later step can undo: they are what a client may rely on when it acts on an old row.
-/

namespace HamiCloud

open Library JobState

/-- The operation of an event on the lease of an intent. -/
def JobEvent.leaseOp : JobEvent → Uuid → Option Lease.Op
  | .claim, _ => some .grant
  | .renew id e, k => if k = id then some (.keep e) else none
  | .run id e, k => if k = id then some (.keep e) else none
  | .finish id e _, k => if k = id then some (.close e) else none
  | .begin id e, k => if k = id then some (.revoke e) else none
  | _, _ => none

structure Evolves (v v' : JobView) : Prop where
  job : ∀ {k j}, v.job k = some j →
    ∃ j', v'.job k = some j' ∧ j'.spec = j.spec ∧ j.currentAttemptNumber ≤ j'.currentAttemptNumber
  attempt : ∀ {k a}, v.attempt k = some a → ∃ a', v'.attempt k = some a' ∧ a'.spec = a.spec
  intent : ∀ {k i}, v.intent k = some i →
    ∃ i', v'.intent k = some i' ∧ i'.spec = i.spec ∧ i.leaseEpoch ≤ i'.leaseEpoch ∧
      (i.status.isFinal = true → i' = i)

section Steps

variable {now : Time} {v v' : JobView} {e : JobEvent}

lemma Move.edge {j : Job} {s : JobState} (h : Move j e s) : s ∈ contract j.state := by
  cases h with
  | cancel hc => exact hc
  | requeue hj => simp [hj, contract]
  | confirm n _ _ hc => exact hc

lemma Advance.edge {i : ExecutionIntent} {a : JobAttempt} {j : Job} {st : IntentStatus} {s t : JobState}
    (h : Advance now i a j e st s t) : t = j.state ∨ t ∈ contract j.state := by
  cases h with
  | claim _ _ hj =>
    rcases hj with ⟨hj, rfl⟩ | ⟨-, rfl⟩
    · exact .inr (by simp [hj, contract])
    · exact .inl rfl
  | renew _ => exact .inl rfl
  | run _ _ hj => exact .inr (by simp [hj, contract])
  | finish o _ hs _ => exact .inr (Outcome.edge hs)
  | begin _ _ _ _ _ _ hj =>
    rcases hj with ⟨hj, rfl⟩ | rfl
    · exact .inr (by simp [hj, contract])
    · exact .inl rfl

lemma Move.not_admitted {j : Job} {s : JobState} (h : Move j e s) : s ≠ admitted := by
  cases h with
  | cancel _ => simp
  | requeue _ => simp
  | confirm n _ ht _ => rcases ht with rfl | rfl | rfl <;> simp

lemma Advance.admitted {i : ExecutionIntent} {a : JobAttempt} {j : Job} {st : IntentStatus} {s t : JobState}
    (h : Advance now i a j e st s t) (ht : t = admitted) : j.state = admitted := by
  cases h with
  | claim _ _ hj =>
    rcases hj with ⟨hj, -⟩ | ⟨-, rfl⟩
    · exact hj
    · exact ht
  | renew _ => exact ht
  | run _ _ _ => cases ht
  | finish o _ _ _ =>
    cases hs : j.state with
    | admitted => rfl
    | _ => cases o <;> simp [Outcome.jobState, hs] at ht <;> split at ht <;> cases ht
  | begin _ _ _ _ _ _ hj =>
    rcases hj with ⟨-, rfl⟩ | rfl
    · cases ht
    · exact ht

/-- A job row stays, its state is kept or follows an edge of the contract, and it enters a new attempt
exactly when it is admitted. -/
lemma JobStep.job_row (hstep : JobStep now v e v') (h : JobWF v) {k : Uuid} {j₀ : Job}
    (hk : v.job k = some j₀) :
    ∃ j', v'.job k = some j' ∧ j'.spec = j₀.spec ∧ (j'.state = j₀.state ∨ j'.state ∈ contract j₀.state) ∧
      ((j'.currentAttemptNumber = j₀.currentAttemptNumber ∧ (j'.state = admitted → j₀.state = admitted)) ∨
        (j₀.state = queued ∧ j'.state = admitted ∧
          j'.currentAttemptNumber = j₀.currentAttemptNumber + 1)) := by
  have hsame : ∀ {w : JobView}, w.job k = some j₀ → ∃ j', w.job k = some j' ∧ j'.spec = j₀.spec ∧
      (j'.state = j₀.state ∨ j'.state ∈ contract j₀.state) ∧
      ((j'.currentAttemptNumber = j₀.currentAttemptNumber ∧ (j'.state = admitted → j₀.state = admitted)) ∨
        (j₀.state = queued ∧ j'.state = admitted ∧
          j'.currentAttemptNumber = j₀.currentAttemptNumber + 1)) :=
    fun hw => ⟨j₀, hw, rfl, .inl rfl, .inl ⟨rfl, id⟩⟩
  cases hstep with
  | scan => exact hsame hk
  | submit j hnew _ _ =>
    have hne : k ≠ j.id := by
      rintro rfl
      rw [hnew] at hk
      cases hk
    exact hsame (by simp [hne, hk])
  | move j j' e hj hs hc hm =>
    have hid := (Job.spec_eq.mp hs).1
    by_cases hkj : k = j.id
    · subst hkj
      rw [hj] at hk
      cases hk
      exact ⟨j', by simp [hid], hs, .inr hm.edge, .inl ⟨hc, fun ha => absurd ha hm.not_admitted⟩⟩
    · exact hsame (by simp [hid, hkj, hk])
  | admission j j' a i hj hst hs hst' hcur hanew hajob hast hfree hlo hhi _ hinew hres hist hep hgen hname =>
    have hid := (Job.spec_eq.mp hs).1
    by_cases hkj : k = j.id
    · subst hkj
      rw [hj] at hk
      cases hk
      have hnum := h.admission_number hj hfree hlo hhi
      exact ⟨j', by simp [hid], hs, .inr (by simp [hst, hst', contract]), .inr ⟨hst, hst', hcur.trans hnum⟩⟩
    · exact hsame (by simp [hid, hkj, hk])
  | advance i i' a a' j j' e hi ha hj hlink hajob hsi hsa hsj hc hadv hep hle =>
    have hid := (Job.spec_eq.mp hsj).1
    by_cases hkj : k = j.id
    · subst hkj
      rw [hj] at hk
      cases hk
      exact ⟨j', by simp [hid], hsj, hadv.edge, .inl ⟨hc, hadv.admitted⟩⟩
    · exact hsame (by simp [hid, hkj, hk])

/-- A step that gives a job a new attempt stays within its retries. -/
lemma JobStep.job_budget (hstep : JobStep now v e v') {k : Uuid} {j j' : Job} (hj : v.job k = some j)
    (hj' : v'.job k = some j') :
    j'.currentAttemptNumber = j.currentAttemptNumber ∨ j'.currentAttemptNumber ≤ j'.maxRetries + 1 := by
  have hsame : v'.job k = v.job k → j'.currentAttemptNumber = j.currentAttemptNumber := by
    intro he
    rw [he, hj] at hj'
    rw [Option.some.inj hj']
  cases hstep with
  | scan => exact .inl (hsame rfl)
  | submit j₀ hnew =>
    have hne : k ≠ j₀.id := by
      rintro rfl
      rw [hnew] at hj
      cases hj
    exact .inl (hsame (by simp [hne]))
  | move j₀ j₁ e hj₀ hs hc =>
    have hid := (Job.spec_eq.mp hs).1
    by_cases hk : k = j₀.id
    · subst hk
      obtain rfl : j₀ = j := Option.some.inj (hj₀.symm.trans hj)
      obtain rfl : j₁ = j' := by simpa [hid] using hj'
      exact .inl hc
    · exact .inl (hsame (by simp [hid, hk]))
  | admission j₀ j₁ a i hj₀ _ hs _ hcur _ _ _ _ _ _ hbudget =>
    obtain ⟨hid, -, -, hmax, -⟩ := Job.spec_eq.mp hs
    by_cases hk : k = j₀.id
    · subst hk
      obtain rfl : j₁ = j' := by simpa [hid] using hj'
      exact .inr (by omega)
    · exact .inl (hsame (by simp [hid, hk]))
  | advance i i₁ a a₁ j₀ j₁ e _ _ hj₀ _ _ _ _ hs hc =>
    have hid := (Job.spec_eq.mp hs).1
    by_cases hk : k = j₀.id
    · subst hk
      obtain rfl : j₀ = j := Option.some.inj (hj₀.symm.trans hj)
      obtain rfl : j₁ = j' := by simpa [hid] using hj'
      exact .inl hc
    · exact .inl (hsame (by simp [hid, hk]))

/-- Only an admission gives a job a new attempt. -/
lemma JobStep.job_current (hstep : JobStep now v e v') (hne : ∀ k, e ≠ .admission k) {k : Uuid} {j : Job}
    (hj : v.job k = some j) : ∃ j', v'.job k = some j' ∧ j'.currentAttemptNumber = j.currentAttemptNumber := by
  cases hstep with
  | scan => exact ⟨j, hj, rfl⟩
  | submit j₀ hnew =>
    have hk : k ≠ j₀.id := by
      rintro rfl
      rw [hnew] at hj
      cases hj
    exact ⟨j, by simp [hk, hj], rfl⟩
  | move j₀ j₁ e hj₀ hs hc =>
    obtain ⟨j', hj', -, hcur⟩ := (SameRows.setJob hj₀ hs hc).symm.job_some hj
    exact ⟨j', hj', hcur.symm⟩
  | admission j₀ => exact absurd rfl (hne j₀.id)
  | advance i i₁ a a₁ j₀ j₁ e hi ha hj₀ _ _ hsi hsa hs hc =>
    obtain ⟨j', hj', -, hcur⟩ := (SameRows.advance hi ha hj₀ hsi hsa hs hc).symm.job_some hj
    exact ⟨j', hj', hcur.symm⟩

/-- The states into which an event may move a job. -/
def JobEvent.mayEnter : JobEvent → JobState → Bool
  | .submit, s => s = queued
  | .cancel _, s => s = cancelRequested
  | .requeue _, s => s = queued
  | .confirm _ _ target, s => s = target ∧ s ∈ [retryWait, failed, cancelled]
  | .admission _, s => s = admitted
  | .claim, s => s = starting
  | .run _ _, s => s = running
  | .finish _ _ o, s => s ∈ o.sources.map o.jobState
  | .begin _ _, s => s = recoveryPending
  | _, _ => false

lemma Move.mayEnter {j : Job} {s : JobState} (h : Move j e s) : e.mayEnter s = true := by
  cases h with
  | cancel => rfl
  | requeue => rfl
  | confirm n _ htarget => simpa [JobEvent.mayEnter] using htarget

lemma Advance.mayEnter {i : ExecutionIntent} {a : JobAttempt} {j : Job} {st : IntentStatus} {s t : JobState}
    (h : Advance now i a j e st s t) : t = j.state ∨ e.mayEnter t = true := by
  cases h with
  | claim _ _ hj =>
    rcases hj with ⟨-, rfl⟩ | ⟨-, rfl⟩
    · exact .inr rfl
    · exact .inl rfl
  | renew => exact .inl rfl
  | run => exact .inr rfl
  | finish o _ hsrc => exact .inr (decide_eq_true (List.mem_map_of_mem hsrc))
  | begin _ _ _ _ _ _ hj =>
    rcases hj with ⟨-, rfl⟩ | rfl
    · exact .inr rfl
    · exact .inl rfl

/-- After a step a job has the state it had, or one that the event may move it to. -/
lemma JobStep.entered (hstep : JobStep now v e v') {k : Uuid} {j' : Job} (hj' : v'.job k = some j') :
    (∃ j, v.job k = some j ∧ j.state = j'.state) ∨ e.mayEnter j'.state = true := by
  cases hstep with
  | scan => exact .inl ⟨j', hj', rfl⟩
  | submit j₀ _ hq =>
    rcases JobView.setJob_some hj' with ⟨-, rfl⟩ | ⟨-, hold⟩
    · exact .inr (decide_eq_true hq)
    · exact .inl ⟨j', hold, rfl⟩
  | move j₀ j₁ e _ _ _ hm =>
    rcases JobView.setJob_some hj' with ⟨-, rfl⟩ | ⟨-, hold⟩
    · exact .inr hm.mayEnter
    · exact .inl ⟨j', hold, rfl⟩
  | admission j₀ j₁ a i _ _ _ hst =>
    rcases JobView.setJob_some hj' with ⟨-, rfl⟩ | ⟨-, hold⟩
    · exact .inr (decide_eq_true hst)
    · exact .inl ⟨j', hold, rfl⟩
  | advance i i₁ a a₁ j₀ j₁ e _ _ hj₀ _ _ _ _ hs _ hadv =>
    rcases JobView.setJob_some hj' with ⟨hk, rfl⟩ | ⟨-, hold⟩
    · rcases hadv.mayEnter with hsame | henter
      · exact .inl ⟨j₀, (hk.trans (Job.spec_eq.mp hs).1) ▸ hj₀, hsame.symm⟩
      · exact .inr henter
    · exact .inl ⟨j', hold, rfl⟩

/-- The events that fail a job: a confirmation, or a failure that is not retried. -/
def JobEvent.fails : JobEvent → Bool
  | .confirm _ _ target => target = failed
  | .finish _ _ o => o = .failed false
  | _ => false

lemma JobEvent.fails_of_mayEnter (h : e.mayEnter failed = true) : e.fails = true := by
  cases e with
  | confirm k n target =>
    have htarget : failed = target := (of_decide_eq_true h).1
    simp [fails, htarget]
  | finish k n o =>
    cases o with
    | failed retry => cases retry <;> simp [mayEnter, fails, Outcome.sources, Outcome.jobState] at h ⊢
    | _ => simp [mayEnter, Outcome.sources, Outcome.jobState] at h
  | _ => simp [mayEnter] at h

lemma JobEvent.cancel_of_mayEnter (h : e.mayEnter cancelRequested = true) : ∃ k, e = .cancel k := by
  cases e with
  | cancel k => exact ⟨k, rfl⟩
  | finish k n o =>
    cases o with
    | failed retry => cases retry <;> simp [mayEnter, Outcome.sources, Outcome.jobState] at h
    | _ => simp [mayEnter, Outcome.sources, Outcome.jobState] at h
  | _ => simp [mayEnter] at h

/-- A job that is failed after a step that fails none had failed before. -/
lemma JobStep.failed_job (hstep : JobStep now v e v') (hne : e.fails = false) {k : Uuid} {j' : Job}
    (hj' : v'.job k = some j') (hf : j'.state = failed) : ∃ j, v.job k = some j ∧ j.state = failed := by
  rcases hstep.entered hj' with ⟨j, hj, hsame⟩ | henter
  · exact ⟨j, hj, hsame.trans hf⟩
  · rw [hf] at henter
    simp [JobEvent.fails_of_mayEnter henter] at hne

/-- A job whose cancellation is requested after a step other than a request for it was so before. -/
lemma JobStep.cancelRequested_job (hstep : JobStep now v e v') (hne : ∀ k, e ≠ .cancel k) {k : Uuid} {j' : Job}
    (hj' : v'.job k = some j') (hc : j'.state = cancelRequested) :
    ∃ j, v.job k = some j ∧ j.state = cancelRequested := by
  rcases hstep.entered hj' with ⟨j, hj, hsame⟩ | henter
  · exact ⟨j, hj, hsame.trans hc⟩
  · rw [hc] at henter
    obtain ⟨k₀, rfl⟩ := JobEvent.cancel_of_mayEnter henter
    exact absurd rfl (hne k₀)

/-- A job that a step adds was submitted, is queued and has no attempts. -/
lemma JobStep.new_job (hstep : JobStep now v e v') {k : Uuid} {j' : Job} (hk : v.job k = none)
    (hk' : v'.job k = some j') : j'.state = queued ∧ j'.currentAttemptNumber = 0 ∧ e = .submit := by
  have hother : ∀ {j : Job} {k'}, v.job k' = some j → k ≠ k' := by
    rintro j k' hj rfl
    rw [hk] at hj
    cases hj
  cases hstep with
  | scan => rw [hk] at hk'; cases hk'
  | submit j _ hq h0 =>
    rw [JobView.setJob_job] at hk'
    by_cases hkj : k = j.id
    · rw [if_pos hkj] at hk'
      cases hk'
      exact ⟨hq, h0, rfl⟩
    · rw [if_neg hkj, hk] at hk'
      cases hk'
  | move j j' e hj hs hc _ =>
    simp [(Job.spec_eq.mp hs).1, hother hj, hk] at hk'
  | admission j j' a i hj _ hs =>
    simp [(Job.spec_eq.mp hs).1, hother hj, hk] at hk'
  | advance i i' a a' j j' e hi ha hj _ _ _ _ hsj =>
    simp [(Job.spec_eq.mp hsj).1, hother hj, hk] at hk'

lemma JobStep.attempt_row (hstep : JobStep now v e v') {k : Uuid} {a₀ : JobAttempt}
    (hk : v.attempt k = some a₀) : ∃ a', v'.attempt k = some a' ∧ a'.spec = a₀.spec := by
  cases hstep with
  | scan => exact ⟨a₀, hk, rfl⟩
  | submit j => exact ⟨a₀, hk, rfl⟩
  | move => exact ⟨a₀, hk, rfl⟩
  | admission j j' a i _ _ _ _ _ hanew =>
    have hne : k ≠ a.id := by
      rintro rfl
      rw [hanew] at hk
      cases hk
    exact ⟨a₀, by simp [hne, hk], rfl⟩
  | advance i i' a a' j j' e _ ha _ _ _ _ hsa =>
    have hid := (JobAttempt.spec_eq.mp hsa).1
    by_cases hka : k = a.id
    · subst hka
      rw [ha] at hk
      cases hk
      exact ⟨a', by simp [hid], hsa⟩
    · exact ⟨a₀, by simp [hid, hka, hk], rfl⟩

/-- What an advance does to its intent is an operation on the lease. -/
lemma Advance.lease {i i' : ExecutionIntent} {a : JobAttempt} {j : Job} {s t : JobState}
    (h : Advance now i a j e i'.status s t)
    (hep : i'.leaseEpoch = if i.status = .pending then i.leaseEpoch + 1 else i.leaseEpoch) :
    ∃ o, e.leaseOp i.id = some o ∧ Lease.Step now i.lease o i'.lease := by
  have hlease : i'.lease = ⟨i'.status.phase, i'.leaseEpoch, i'.leaseExpiresAt⟩ := rfl
  rw [hlease]
  generalize i'.status = st at h
  cases h with
  | claim _ hp _ =>
    rw [hep, if_pos hp]
    exact ⟨.grant, rfl, .grant _ (.inl (by simp [ExecutionIntent.lease, IntentStatus.phase, hp]))⟩
  | renew hc =>
    rw [hep, if_neg (by simp [hc])]
    exact ⟨.keep i.leaseEpoch, if_pos rfl, .keep _ (ExecutionIntent.held_of_claimed hc)⟩
  | run hc _ _ =>
    rw [hep, if_neg (by simp [hc])]
    exact ⟨.keep i.leaseEpoch, if_pos rfl, .keep _ (ExecutionIntent.held_of_claimed hc)⟩
  | finish o hc _ _ =>
    have hphase : o.intentStatus.phase = .closed := by cases o <;> rfl
    rw [hep, if_neg (by simp [hc]), hphase]
    exact ⟨.close i.leaseEpoch, if_pos rfl, .close _ (ExecutionIntent.held_of_claimed hc)⟩
  | begin _ _ hc hx _ _ _ =>
    rw [hep, if_neg (by simp [hc])]
    exact ⟨.revoke i.leaseEpoch, if_pos rfl,
      .revoke _ (ExecutionIntent.held_of_claimed hc) (ExecutionIntent.expired_of_leaseExpired hx)⟩

/-- An intent row stays and changes by an operation on its lease only. -/
lemma JobStep.intent_row (hstep : JobStep now v e v') {k : Uuid} {i₀ : ExecutionIntent}
    (hk : v.intent k = some i₀) : ∃ i', v'.intent k = some i' ∧ IntentChange now (e.leaseOp k) i₀ i' := by
  cases hstep with
  | scan => exact ⟨i₀, hk, .refl i₀⟩
  | submit j => exact ⟨i₀, hk, .refl i₀⟩
  | move => exact ⟨i₀, hk, .refl i₀⟩
  | admission j j' a i _ _ _ _ _ _ _ _ _ _ _ _ hinew =>
    have hne : k ≠ i.id := by
      rintro rfl
      rw [hinew] at hk
      cases hk
    exact ⟨i₀, by simp [hne, hk], .refl i₀⟩
  | advance i i' a a' j j' e hi _ _ _ _ hsi _ _ _ hadv hep _ =>
    have hid := (ExecutionIntent.spec_eq.mp hsi).1
    by_cases hki : k = i.id
    · subst hki
      rw [hi] at hk
      cases hk
      exact ⟨i', by simp [hid], hsi, .inr (hadv.lease hep)⟩
    · exact ⟨i₀, by simp [hid, hki, hk], .refl i₀⟩

/-- The attempt of a final intent is never touched again. -/
lemma JobStep.final_attempt (hstep : JobStep now v e v') (h : JobWF v) {k : Uuid} {i₀ : ExecutionIntent}
    (hk : v.intent k = some i₀) (hf : i₀.status.isFinal = true) :
    v'.attempt i₀.resourceId = v.attempt i₀.resourceId := by
  cases hstep with
  | scan => rfl
  | submit j => rfl
  | move => rfl
  | admission j j' a i _ _ _ _ _ hanew =>
    obtain ⟨b, hb, -⟩ := h.intentAttempt hk
    have hne : i₀.resourceId ≠ a.id := by
      intro he
      rw [he, hanew] at hb
      cases hb
    simp [hne]
  | advance i i' a a' j j' e hi ha _ hlink _ _ hsa _ _ hadv _ _ =>
    have hne : k ≠ i.id := by
      rintro rfl
      rw [hi] at hk
      cases hk
      rcases hadv.status with ⟨hs, -⟩ | ⟨hs, -⟩ <;> simp [hs, IntentStatus.isFinal] at hf
    have hres := h.other_attempt hi hlink hk hne
    simp [(JobAttempt.spec_eq.mp hsa).1, hres]

/-- Only an admission adds an attempt. -/
lemma JobStep.new_attempt (hstep : JobStep now v e v') {k : Uuid} {a : JobAttempt} (hnone : v.attempt k = none)
    (ha : v'.attempt k = some a) : ∃ jobId, e = .admission jobId := by
  cases hstep with
  | scan =>
    rw [hnone] at ha
    cases ha
  | submit | move =>
    rw [JobView.setJob_attempt, hnone] at ha
    cases ha
  | admission j => exact ⟨j.id, rfl⟩
  | advance i i' b b' j j' _ _ hb _ _ _ _ hspec =>
    have hid : b'.id = b.id := (JobAttempt.spec_eq.mp hspec).1
    rw [JobView.setIntent_attempt, JobView.setAttempt_attempt, JobView.setJob_attempt, hid] at ha
    split at ha
    · rename_i hk
      rw [hk, hb] at hnone
      cases hnone
    · rw [hnone] at ha
      cases ha

theorem JobStep.evolves (hstep : JobStep now v e v') (h : JobWF v) : Evolves v v' where
  job hk := by
    obtain ⟨j', hj', hs, -, hcur⟩ := hstep.job_row h hk
    refine ⟨j', hj', hs, ?_⟩
    rcases hcur with ⟨hc, -⟩ | ⟨-, -, hc⟩ <;> omega
  attempt hk := hstep.attempt_row hk
  intent hk := by
    obtain ⟨i', hi', hch⟩ := hstep.intent_row hk
    exact ⟨i', hi', hch.spec, hch.epoch_le, hch.final⟩

end Steps

end HamiCloud
