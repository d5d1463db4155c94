import HamiCloud.Protocol.Exclusive

/-!
# Outcomes of jobs and attempts, in the protocol

The state of a job determines what its last attempt may be, and every earlier attempt has failed. Two kinds of
steps could break this: a confirmation of a recovery whose job still has a live intent, and a recovery that
cancels the attempt of a job that was not cancelled.
-/

namespace HamiCloud

open JobState

/-- The states that the last attempt of a job may be in. -/
def JobState.lastAttempt : JobState → List JobState
  | queued => [failed]
  | admitted => [admitted]
  | starting => [starting, failed]
  | running => [running, failed]
  | retryWait => [failed]
  | recoveryPending => [failed]
  | cancelRequested => [admitted, starting, running, failed, cancelled]
  | succeeded => [succeeded]
  | failed => [failed]
  | cancelled => [succeeded, failed, cancelled]

structure Outcomes (v : JobView) : Prop where
  fresh : ∀ {k j}, v.job k = some j → j.currentAttemptNumber = 0 → j.state = queued ∨ j.state = cancelRequested
  last : ∀ {k a j}, v.attempt k = some a → v.job a.jobId = some j → a.attemptNumber = j.currentAttemptNumber →
    a.state ∈ j.state.lastAttempt
  older : ∀ {k a j}, v.attempt k = some a → v.job a.jobId = some j → a.attemptNumber < j.currentAttemptNumber →
    a.state = failed

section Steps

variable {now : Time} {v v' : JobView} {e : JobEvent}

/-- An attempt that has ended. -/
def JobState.hasEnded (s : JobState) : Bool := s ∈ [succeeded, failed, cancelled]

lemma Move.lastAttempt {j : Job} {s t : JobState} (h : Move j e s) (hlast : t ∈ j.state.lastAttempt)
    (hconfirm : ∀ k n s, e = .confirm k n s → t.hasEnded = true) : t ∈ s.lastAttempt := by
  cases h with
  | cancel hc =>
    cases hs : j.state <;> simp [hs, JobState.lastAttempt, contract] at hlast hc ⊢ <;> tauto
  | requeue hq => simpa [hq, JobState.lastAttempt] using hlast
  | confirm n _ ht hc =>
    have hended := hconfirm _ n s rfl
    rcases ht with rfl | rfl | rfl
    all_goals
      cases hs : j.state <;> simp [hs, JobState.lastAttempt, contract, JobState.hasEnded] at hlast hc hended ⊢ <;>
        grind

lemma Outcome.lastAttempt {o : Outcome} {s : JobState} (h : s ∈ o.sources) :
    o.attemptState ∈ (o.jobState s).lastAttempt := by
  revert h
  cases o with
  | succeeded => cases s <;> decide
  | failed retry => cases retry <;> cases s <;> decide
  | cancelled => cases s <;> decide

lemma Advance.lastAttempt {i : ExecutionIntent} {a : JobAttempt} {j : Job} {st : IntentStatus} {s t : JobState}
    (h : Advance now i a j e st s t) (hlast : a.state ∈ j.state.lastAttempt) (hadmits : i.status.admits a.state)
    (hbegin : ∀ k n, e = .begin k n → s = cancelled → j.state = cancelRequested) : s ∈ t.lastAttempt := by
  cases h with
  | claim _ hp hj =>
    rw [hp] at hadmits
    have hadm : a.state = JobState.admitted := hadmits
    rcases hj with ⟨-, rfl⟩ | ⟨hne, rfl⟩
    · simp [JobState.lastAttempt]
    · cases hs : j.state <;> simp [hs, hadm, JobState.lastAttempt] at hlast hne ⊢
  | renew => exact hlast
  | run => simp [JobState.lastAttempt]
  | finish o _ hsrc _ =>
    exact Outcome.lastAttempt hsrc
  | begin _ _ _ _ ha hs hj =>
    rcases hs with rfl | rfl
    · rcases hj with ⟨-, rfl⟩ | rfl
      · simp [JobState.lastAttempt]
      · rcases ha with ha | ha <;> cases hjs : j.state <;> simp [hjs, ha, JobState.lastAttempt] at hlast ⊢
    · have hcr := hbegin _ _ rfl rfl
      rcases hj with ⟨hrun, -⟩ | rfl
      · rw [hrun] at hcr
        cases hcr
      · simp [hcr, JobState.lastAttempt]

/-- An attempt that is not live has ended. -/
lemma JobWF.ended {k : Uuid} {a : JobAttempt} {j : Job} (hwf : JobWF v)
    (ha : v.attempt k = some a) (hj : v.job a.jobId = some j) (hidle : ∀ i b j', Live v i b j' → j'.id ≠ j.id) :
    a.state.hasEnded = true := by
  obtain ⟨k', i, hi, hres⟩ := hwf.intentOf ha
  have hadmits := hwf.status hi (hres ▸ ha)
  have hlive : i.status.isLive = false := by
    by_contra hlive
    refine hidle i a j ⟨hwf.intentKey hi ▸ hi, by simpa using hlive, hres ▸ ha, hj⟩ rfl
  cases hs : i.status with
  | pending => simp [hs, IntentStatus.isLive] at hlive
  | claimed => simp [hs, IntentStatus.isLive] at hlive
  | applied =>
    rw [hs] at hadmits
    rw [show a.state = succeeded from hadmits]
    rfl
  | terminated =>
    rw [hs] at hadmits
    rcases hadmits with hst | hst <;> rw [hst] <;> rfl

/-- A confirmation is for a job that has had an attempt and has no live intent. -/
def ConfirmsIdle (v : JobView) (e : JobEvent) : Prop :=
  ∀ k n t, e = .confirm k n t → (∀ i a j, Live v i a j → j.id ≠ k) ∧
    ∀ j, v.job k = some j → 1 ≤ j.currentAttemptNumber

/-- A recovery cancels an attempt only when its job was cancelled. -/
def BeginsCancelled (v : JobView) (e : JobEvent) (v' : JobView) : Prop :=
  ∀ {id ep k a a' j}, e = .begin id ep → v.attempt k = some a → v'.attempt k = some a' → a'.state = cancelled →
    a.state ≠ cancelled → v.job a.jobId = some j → j.state = cancelRequested

namespace Outcomes

lemma submit {j : Job} (h : Outcomes v) (hwf : JobWF v) (hnew : v.job j.id = none) (hq : j.state = queued) :
    Outcomes (v.setJob j) := by
  have hback : ∀ {k a j₀}, v.attempt k = some a → (v.setJob j).job a.jobId = some j₀ → v.job a.jobId = some j₀ := by
    intro k a j₀ ha hj₀
    obtain ⟨j₁, hj₁, -⟩ := hwf.attemptJob ha
    rcases JobView.setJob_some hj₀ with ⟨he, -⟩ | ⟨-, hj₀⟩
    · rw [he, hnew] at hj₁
      cases hj₁
    · exact hj₀
  refine ⟨fun hj₀ h0 => ?_, fun ha hj₀ => h.last ha (hback ha hj₀), fun ha hj₀ => h.older ha (hback ha hj₀)⟩
  rcases JobView.setJob_some hj₀ with ⟨-, rfl⟩ | ⟨-, hj₀⟩
  · exact .inl hq
  · exact h.fresh hj₀ h0

lemma move {j j' : Job} (h : Outcomes v) (hwf : JobWF v) (hj : v.job j.id = some j) (hs : j'.spec = j.spec)
    (hc : j'.currentAttemptNumber = j.currentAttemptNumber) (hm : Move j e j'.state) (hidle : ConfirmsIdle v e) :
    Outcomes (v.setJob j') := by
  have hid := (Job.spec_eq.mp hs).1
  constructor
  · intro k j₀ hj₀ h0
    rcases JobView.setJob_some hj₀ with ⟨-, rfl⟩ | ⟨-, hj₀⟩
    · have hfresh := h.fresh hj (hc ▸ h0)
      generalize j₀.state = s at hm
      cases hm with
      | cancel => exact .inr rfl
      | requeue => exact .inl rfl
      | confirm n =>
        have hpos := (hidle _ _ _ rfl).2 j hj
        omega
    · exact h.fresh hj₀ h0
  · intro k a j₀ ha hj₀ hn
    rcases JobView.setJob_some hj₀ with ⟨hk, rfl⟩ | ⟨-, hj₀⟩
    · rw [hid] at hk
      refine hm.lastAttempt (h.last ha (hk ▸ hj) (hn.trans hc)) fun k n s he => ?_
      refine hwf.ended ha (hk ▸ hj) fun i b j₁ hl => ?_
      have hkj : k = j.id := by
        subst he
        cases hm
        rfl
      exact hkj ▸ (hidle _ _ _ he).1 i b j₁ hl
    · exact h.last ha hj₀ hn
  · intro k a j₀ ha hj₀ hn
    rcases JobView.setJob_some hj₀ with ⟨hk, rfl⟩ | ⟨-, hj₀⟩
    · exact h.older ha ((hk.trans hid) ▸ hj) (hc ▸ hn)
    · exact h.older ha hj₀ hn

lemma admission {j j' : Job} {a : JobAttempt} {i : ExecutionIntent} (h : Outcomes v) (hwf : JobWF v)
    (hj : v.job j.id = some j) (hq : j.state = queued) (hs : j'.spec = j.spec) (hst : j'.state = admitted)
    (hcur : j'.currentAttemptNumber = a.attemptNumber) (hajob : a.jobId = j.id) (hast : a.state = admitted)
    (hnum : a.attemptNumber = j.currentAttemptNumber + 1) :
    Outcomes (((v.setJob j').setAttempt a).setIntent i) := by
  have hid := (Job.spec_eq.mp hs).1
  constructor
  · intro k j₀ hj₀ h0
    rcases JobView.setJob_some hj₀ with ⟨-, rfl⟩ | ⟨-, hj₀⟩
    · omega
    · exact h.fresh hj₀ h0
  · intro k b j₀ hb hj₀ hn
    rcases JobView.setAttempt_some hb with ⟨-, rfl⟩ | ⟨-, hb⟩
    · rcases JobView.setJob_some hj₀ with ⟨-, rfl⟩ | ⟨hne, -⟩
      · simp [hst, hast, JobState.lastAttempt]
      · exact absurd (hajob.trans hid.symm) hne
    · rcases JobView.setJob_some hj₀ with ⟨hk, rfl⟩ | ⟨-, hj₀⟩
      · obtain ⟨j₁, hj₁, -, hle⟩ := hwf.attemptJob hb
        obtain rfl : j = j₁ := Option.some.inj (hj.symm.trans ((hk.trans hid) ▸ hj₁))
        omega
      · exact h.last hb hj₀ hn
  · intro k b j₀ hb hj₀ hn
    rcases JobView.setAttempt_some hb with ⟨-, rfl⟩ | ⟨-, hb⟩
    · rcases JobView.setJob_some hj₀ with ⟨-, rfl⟩ | ⟨hne, -⟩
      · omega
      · exact absurd (hajob.trans hid.symm) hne
    · rcases JobView.setJob_some hj₀ with ⟨hk, rfl⟩ | ⟨-, hj₀⟩
      · have hbj : v.job b.jobId = some j := (hk.trans hid) ▸ hj
        -- the last attempt of a queued job has failed, the ones before it had failed already
        rcases Nat.lt_or_eq_of_le (show b.attemptNumber ≤ j.currentAttemptNumber by omega) with hlt | heq
        · exact h.older hb hbj hlt
        · have hlast := h.last hb hbj heq
          rw [hq] at hlast
          exact List.mem_singleton.mp hlast
      · exact h.older hb hj₀ hn

lemma advance {i i' : ExecutionIntent} {a a' : JobAttempt} {j j' : Job} (h : Outcomes v) (hwf : JobWF v)
    (hex : Exclusive v) (hi : v.intent i.id = some i) (ha : v.attempt a.id = some a) (hj : v.job j.id = some j)
    (hlink : i.resourceId = a.id) (hajob : a.jobId = j.id) (hsa : a'.spec = a.spec) (hsj : j'.spec = j.spec)
    (hc : j'.currentAttemptNumber = j.currentAttemptNumber) (hadv : Advance now i a j e i'.status a'.state j'.state)
    (hbegin : BeginsCancelled v e (((v.setJob j').setAttempt a').setIntent i')) :
    Outcomes (((v.setJob j').setAttempt a').setIntent i') := by
  have hjid := (Job.spec_eq.mp hsj).1
  obtain ⟨haid, hajob', -, hanum⟩ := JobAttempt.spec_eq.mp hsa
  have hlive : i.status.isLive = true := by
    rcases hadv.status with ⟨hs, -⟩ | ⟨hs, -⟩ <;> simp [IntentStatus.isLive, hs]
  have haj : v.job a.jobId = some j := hajob ▸ hj
  have hcurrent : a.attemptNumber = j.currentAttemptNumber := hex.current ⟨hi, hlive, hlink ▸ ha, haj⟩
  have hadmits := hwf.status hi (hlink ▸ ha)
  have hother : ∀ {k b}, k ≠ a.id → v.attempt k = some b → b.jobId = j.id → b.attemptNumber ≠ j.currentAttemptNumber :=
    fun hne hb hbj hn => hne (hwf.attemptUnique hb ha (hbj.trans hajob.symm) (hn.trans hcurrent.symm))
  constructor
  · intro k j₀ hj₀ h0
    rcases JobView.setJob_some hj₀ with ⟨-, rfl⟩ | ⟨-, hj₀⟩
    · obtain ⟨j₁, hj₁, hpos, -⟩ := hwf.attemptJob ha
      omega
    · exact h.fresh hj₀ h0
  · intro k b j₀ hb hj₀ hn
    rcases JobView.setAttempt_some hb with ⟨-, rfl⟩ | ⟨hne, hb⟩
    · rcases JobView.setJob_some hj₀ with ⟨-, rfl⟩ | ⟨hk, -⟩
      · refine hadv.lastAttempt (h.last ha haj hcurrent) hadmits fun k n he hs => ?_
        refine hbegin he ha (by simp [haid]) hs (fun hcan => ?_) haj
        rcases hadv.status with ⟨hst, -⟩ | ⟨hst, -⟩ <;> simp [hst, hcan, IntentStatus.admits] at hadmits
      · exact absurd ((hajob'.trans hajob).trans hjid.symm) hk
    · rcases JobView.setJob_some hj₀ with ⟨hk, rfl⟩ | ⟨-, hj₀⟩
      · exact absurd (hn.trans hc) (hother (haid ▸ hne) hb (hk.trans hjid))
      · exact h.last hb hj₀ hn
  · intro k b j₀ hb hj₀ hn
    rcases JobView.setAttempt_some hb with ⟨-, rfl⟩ | ⟨hne, hb⟩
    · rcases JobView.setJob_some hj₀ with ⟨-, rfl⟩ | ⟨hk, -⟩
      · omega
      · exact absurd ((hajob'.trans hajob).trans hjid.symm) hk
    · rcases JobView.setJob_some hj₀ with ⟨hk, rfl⟩ | ⟨-, hj₀⟩
      · exact h.older hb ((hk.trans hjid) ▸ hj) (hc ▸ hn)
      · exact h.older hb hj₀ hn

/-- Step lemma. -/
lemma step (h : Outcomes v) (hwf : JobWF v) (hex : Exclusive v) (hstep : JobStep now v e v')
    (hidle : ConfirmsIdle v e) (hbegin : BeginsCancelled v e v') : Outcomes v' := by
  cases hstep with
  | scan => exact h
  | submit j hnew hq _ => exact h.submit hwf hnew hq
  | move j j' e hj hs hc hm => exact h.move hwf hj hs hc hm hidle
  | admission j j' a i hj hq hs hst hcur _ hajob hast hfree hlo hhi _ _ _ =>
    exact h.admission hwf hj hq hs hst hcur hajob hast (hwf.admission_number hj hfree hlo hhi)
  | advance i i' a a' j j' e hi ha hj hlink hajob hsi hsa hsj hc hadv _ _ =>
    exact h.advance hwf hex hi ha hj hlink hajob hsa hsj hc hadv hbegin

end Outcomes

end Steps

end HamiCloud
