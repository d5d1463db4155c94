import HamiCloud.Protocol.JobEvolution

/-!
# One live intent per job, in the protocol

An intent that is `PENDING` or `CLAIMED` is live. Live intents belong to the current attempt of
their job as long as no confirmation of a recovery sends a job back to the queue that still has one.
-/

namespace HamiCloud

open JobState

/-- `status IN ('PENDING', 'CLAIMED')`. -/
def IntentStatus.isLive (s : IntentStatus) : Bool := s = .pending || s = .claimed

lemma IntentStatus.isLive_iff {s : IntentStatus} : s.isLive = true ↔ s.isFinal = false := by
  cases s <;> simp [isLive, isFinal]

section Steps

variable {now : Time} {v v' : JobView} {e : JobEvent}

/-- A live intent with its attempt and its job. -/
structure Live (v : JobView) (i : ExecutionIntent) (a : JobAttempt) (j : Job) : Prop where
  intent : v.intent i.id = some i
  live : i.status.isLive = true
  attempt : v.attempt i.resourceId = some a
  job : v.job a.jobId = some j

/-- Live intents belong to the current attempt of a job that does not wait for another one. -/
structure Exclusive (v : JobView) : Prop where
  current : ∀ {i a j}, Live v i a j → a.attemptNumber = j.currentAttemptNumber
  state : ∀ {i a j}, Live v i a j → j.state ≠ queued ∧ j.state ≠ retryWait ∧ j.state ≠ recoveryPending

lemma Exclusive.unique (h : Exclusive v) (hwf : JobWF v) {i i' : ExecutionIntent} {a a' : JobAttempt} {j : Job}
    (hl : Live v i a j) (hl' : Live v i' a' j) : i = i' := by
  have hjob : a.jobId = a'.jobId := (hwf.jobKey hl.job).symm.trans (hwf.jobKey hl'.job)
  have hnum : a.attemptNumber = a'.attemptNumber := (h.current hl).trans (h.current hl').symm
  have hres : i.resourceId = i'.resourceId := hwf.attemptUnique hl.attempt hl'.attempt hjob hnum
  have hid : i.id = i'.id := hwf.intentUnique hl.intent hl'.intent hres
  have hi := hl.intent
  rw [hid, hl'.intent] at hi
  exact (Option.some.inj hi).symm

lemma Exclusive.move {j j' : Job} (h : Exclusive v) (hj : v.job j.id = some j)
    (hs : j'.spec = j.spec) (hc : j'.currentAttemptNumber = j.currentAttemptNumber) (hm : Move j e j'.state)
    (hidle : ∀ n, e = .confirm j.id n retryWait → ∀ i a, ¬Live v i a j) : Exclusive (v.setJob j') := by
  have hid := (Job.spec_eq.mp hs).1
  have hback : ∀ {i a j₀}, Live (v.setJob j') i a j₀ → (Live v i a j ∧ j₀ = j') ∨ Live v i a j₀ := by
    rintro i a j₀ ⟨hi, hl, ha, hj₀⟩
    rw [JobView.setJob_job, hid] at hj₀
    by_cases hjob : a.jobId = j.id
    · rw [if_pos hjob] at hj₀
      exact .inl ⟨⟨hi, hl, ha, hjob ▸ hj⟩, (Option.some.inj hj₀).symm⟩
    · rw [if_neg hjob] at hj₀
      exact .inr ⟨hi, hl, ha, hj₀⟩
  constructor
  · intro i a j₀ hl
    rcases hback hl with ⟨hold, rfl⟩ | hold
    · rw [hc]
      exact h.current hold
    · exact h.current hold
  · intro i a j₀ hl
    rcases hback hl with ⟨hold, rfl⟩ | hold
    · generalize j₀.state = s at hm
      cases hm with
      | cancel _ => simp
      | requeue hq => exact absurd hq (h.state hold).2.1
      | confirm n _ htarget _ =>
        rcases htarget with rfl | rfl | rfl
        · exact absurd hold (hidle n rfl i a)
        · simp
        · simp
    · exact h.state hold

lemma Exclusive.admission {j j' : Job} {a : JobAttempt} {i : ExecutionIntent} (h : Exclusive v)
    (hj : v.job j.id = some j) (hq : j.state = queued) (hs : j'.spec = j.spec) (hst : j'.state = admitted)
    (hcur : j'.currentAttemptNumber = a.attemptNumber) (hajob : a.jobId = j.id) (hres : i.resourceId = a.id) :
    Exclusive (((v.setJob j').setAttempt a).setIntent i) := by
  have hid := (Job.spec_eq.mp hs).1
  have hback : ∀ {i₀ a₀ j₀}, Live (((v.setJob j').setAttempt a).setIntent i) i₀ a₀ j₀ →
      (a₀ = a ∧ j₀ = j') ∨ Live v i₀ a₀ j₀ := by
    rintro i₀ a₀ j₀ ⟨hi₀, hl, ha₀, hj₀⟩
    simp only [JobView.setIntent_intent, JobView.setIntent_attempt, JobView.setIntent_job,
      JobView.setAttempt_attempt, JobView.setAttempt_intent, JobView.setAttempt_job, JobView.setJob_intent,
      JobView.setJob_attempt, JobView.setJob_job, hid] at hi₀ ha₀ hj₀
    by_cases hres₀ : i₀.resourceId = a.id
    · rw [if_pos hres₀] at ha₀
      obtain rfl := Option.some.inj ha₀
      rw [if_pos hajob] at hj₀
      exact .inl ⟨rfl, (Option.some.inj hj₀).symm⟩
    · rw [if_neg hres₀] at ha₀
      have hne : i₀.id ≠ i.id := by
        intro he
        rw [if_pos he] at hi₀
        exact hres₀ (Option.some.inj hi₀ ▸ hres)
      rw [if_neg hne] at hi₀
      by_cases hjob : a₀.jobId = j.id
      · exact absurd hq (h.state ⟨hi₀, hl, ha₀, hjob ▸ hj⟩).1
      · rw [if_neg hjob] at hj₀
        exact .inr ⟨hi₀, hl, ha₀, hj₀⟩
  constructor
  · intro i₀ a₀ j₀ hl
    rcases hback hl with ⟨rfl, rfl⟩ | hl
    · exact hcur.symm
    · exact h.current hl
  · intro i₀ a₀ j₀ hl
    rcases hback hl with ⟨-, rfl⟩ | hl
    · simp [hst]
    · exact h.state hl

/-- A live intent is claimed, kept or brought to its end; the job waits only after that. -/
lemma Advance.live {i : ExecutionIntent} {a : JobAttempt} {j : Job} {st : IntentStatus} {s t : JobState}
    (h : Advance now i a j e st s t) (hlive : st.isLive = true)
    (hold : j.state ≠ queued ∧ j.state ≠ retryWait ∧ j.state ≠ recoveryPending) :
    t ≠ queued ∧ t ≠ retryWait ∧ t ≠ recoveryPending := by
  cases h with
  | claim _ _ hj =>
    rcases hj with ⟨-, rfl⟩ | ⟨-, rfl⟩
    · simp
    · exact hold
  | renew _ => exact hold
  | run _ _ _ => simp
  | finish o _ _ _ => cases o <;> simp [Outcome.intentStatus, IntentStatus.isLive] at hlive
  | begin _ _ _ _ _ _ _ => simp [IntentStatus.isLive] at hlive

lemma Exclusive.advance {i i' : ExecutionIntent} {a a' : JobAttempt} {j j' : Job} (h : Exclusive v)
    (hwf : JobWF v) (hi : v.intent i.id = some i) (ha : v.attempt a.id = some a) (hj : v.job j.id = some j)
    (hlink : i.resourceId = a.id) (hajob : a.jobId = j.id) (hsi : i'.spec = i.spec) (hsa : a'.spec = a.spec)
    (hsj : j'.spec = j.spec) (hc : j'.currentAttemptNumber = j.currentAttemptNumber)
    (hadv : Advance now i a j e i'.status a'.state j'.state) :
    Exclusive (((v.setJob j').setAttempt a').setIntent i') := by
  have hjid := (Job.spec_eq.mp hsj).1
  obtain ⟨haid, hajob', -, hanum⟩ := JobAttempt.spec_eq.mp hsa
  obtain ⟨hiid, -, hires, -⟩ := ExecutionIntent.spec_eq.mp hsi
  have hlive : i.status.isLive = true := by
    rcases hadv.status with ⟨hs, -⟩ | ⟨hs, -⟩ <;> simp [IntentStatus.isLive, hs]
  have hl : Live v i a j := ⟨hi, hlive, hlink ▸ ha, hajob ▸ hj⟩
  -- another live intent belongs to another job, since `i` itself was live
  have hback : ∀ {i₀ a₀ j₀}, Live (((v.setJob j').setAttempt a').setIntent i') i₀ a₀ j₀ →
      (i₀ = i' ∧ a₀ = a' ∧ j₀ = j') ∨ Live v i₀ a₀ j₀ := by
    rintro i₀ a₀ j₀ ⟨hi₀, hl₀, ha₀, hj₀⟩
    simp only [JobView.setIntent_intent, JobView.setIntent_attempt, JobView.setIntent_job,
      JobView.setAttempt_attempt, JobView.setAttempt_intent, JobView.setAttempt_job, JobView.setJob_intent,
      JobView.setJob_attempt, JobView.setJob_job, hjid, haid, hiid] at hi₀ ha₀ hj₀
    by_cases hid : i₀.id = i.id
    · rw [if_pos hid] at hi₀
      obtain rfl := Option.some.inj hi₀
      rw [if_pos (hires.trans hlink)] at ha₀
      obtain rfl := Option.some.inj ha₀
      rw [if_pos (hajob'.trans hajob)] at hj₀
      exact .inl ⟨rfl, rfl, (Option.some.inj hj₀).symm⟩
    · rw [if_neg hid] at hi₀
      rw [if_neg (hwf.other_attempt hi hlink hi₀ hid)] at ha₀
      by_cases hjob : a₀.jobId = j.id
      · have hsame : i₀ = i := h.unique hwf ⟨hi₀, hl₀, ha₀, hjob ▸ hj⟩ hl
        exact absurd (congrArg ExecutionIntent.id hsame) hid
      · rw [if_neg hjob] at hj₀
        exact .inr ⟨hi₀, hl₀, ha₀, hj₀⟩
  constructor
  · intro i₀ a₀ j₀ hl₀
    rcases hback hl₀ with ⟨-, rfl, rfl⟩ | hold
    · rw [hanum, hc]
      exact h.current hl
    · exact h.current hold
  · intro i₀ a₀ j₀ hl₀
    rcases hback hl₀ with ⟨rfl, -, rfl⟩ | hold
    · exact hadv.live hl₀.live (h.state hl)
    · exact h.state hold

/-- Step lemma: exclusivity survives every step, where a confirmation may only send a job back to the
queue that has no live intent. -/
lemma Exclusive.step (h : Exclusive v) (hwf : JobWF v) (hstep : JobStep now v e v')
    (hidle : ∀ k n, e = .confirm k n retryWait → ∀ i a j, Live v i a j → j.id ≠ k) : Exclusive v' := by
  cases hstep with
  | scan => exact h
  | submit j hnew _ _ =>
    have hback : ∀ {i a j₀}, Live (v.setJob j) i a j₀ → Live v i a j₀ := by
      rintro i a j₀ ⟨hi, hl, ha, hj₀⟩
      obtain ⟨j₁, hj₁, -⟩ := hwf.attemptJob ha
      have hne : a.jobId ≠ j.id := by
        intro he
        rw [he, hnew] at hj₁
        cases hj₁
      rw [JobView.setJob_job, if_neg hne] at hj₀
      exact ⟨hi, hl, ha, hj₀⟩
    exact ⟨fun hl => h.current (hback hl), fun hl => h.state (hback hl)⟩
  | move j j' e hj hs hc hm =>
    exact h.move hj hs hc hm (fun n he i a hl => hidle j.id n he i a j hl rfl)
  | admission j j' a i hj hq hs hst hcur _ hajob _ _ _ _ _ _ hres =>
    exact h.admission hj hq hs hst hcur hajob hres
  | advance i i' a a' j j' e hi ha hj hlink hajob hsi hsa hsj hc hadv _ _ =>
    exact h.advance hwf hi ha hj hlink hajob hsi hsa hsj hc hadv

end Steps

end HamiCloud
