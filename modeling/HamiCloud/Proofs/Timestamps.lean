import HamiCloud.Proofs.WorldInvariant

/-!
# The time stamps of jobs

A transaction that moves a job writes its own time to `updated_at`, except for a requeue, which writes the time
that its pass has read before. The only other write is the claim of an attempt whose job is to be cancelled.
-/

namespace HamiCloud.Proofs

open Library JobState

variable {cfg : Settings} {db db' : Db}

/-- How a transaction at the time `now` leaves a row of `jobs`. -/
inductive JobStamp (now : Time) (b : JobAction) (j : Job) : Job → Prop
  | same : JobStamp now b j j
  | moved {j' : Job} : j'.state ∈ contract j.state → j'.state ≠ queued → j'.updatedAt = now → JobStamp now b j j'
  | claimed {j' : Job} : j.state = cancelRequested → j'.state = cancelRequested → j'.updatedAt = now →
      JobStamp now b j j'
  | requeued (scannedAt : Time) (row : RetryJob) (t : Time) : b = .requeueRetryWaitJob scannedAt row t →
      row.id = j.id → j.state = retryWait → row.updatedAt + retryBackoff schedulerBackoff row.attemptNumber ≤ t →
      t ≤ now → JobStamp now b j { j with state := queued, updatedAt := t }

lemma jobState_ne_queued {o : Outcome} {s : JobState} (h : s ∈ o.sources) : o.jobState s ≠ queued := by
  revert h
  cases o with
  | failed retry => cases retry <;> cases s <;> decide
  | _ => cases s <;> decide

section Rows

variable {b : JobAction} {k : Uuid} {j j' : Job}

lemma JobStamp.of_jobs_eq (he : db'.jobs = db.jobs) (hj : db.jobs.get k = some j) (hj' : db'.jobs.get k = some j') :
    JobStamp db.now b j j' := by
  obtain rfl : j' = j := Option.some.inj ((he ▸ hj').symm.trans hj)
  exact .same

lemma JobStamp.of_set {id : Uuid} {f : Job → Job} {j₀ : Job} (hf : ∀ j, (f j).id = j.id)
    (hj : db.jobs.get k = some j) (hj' : db'.jobs.get k = some j') (he : db'.jobs = db.jobs.set id f hf)
    (hj₀ : db.jobs.get id = some j₀) (hrow : JobStamp db.now b j₀ (f j₀)) : JobStamp db.now b j j' := by
  rw [he, Table.get_set] at hj'
  split at hj'
  · rename_i hk
    subst hk
    obtain rfl : j₀ = j := Option.some.inj (hj₀.symm.trans hj)
    rw [hj, Option.map_some, Option.some.injEq] at hj'
    exact hj' ▸ hrow
  · obtain rfl : j = j' := Option.some.inj (hj.symm.trans hj')
    exact .same

lemma JobStamp.of_submitted (h : Submitted cfg db db') (hj : db.jobs.get k = some j)
    (hj' : db'.jobs.get k = some j') : JobStamp db.now b j j' := by
  obtain ⟨j₀, jobs, events, -, -, -, hins, rfl⟩ := h
  rcases Table.get_insert_cases hins hj' with hold | ⟨hk, -⟩
  · obtain rfl : j = j' := Option.some.inj (hj.symm.trans hold)
    exact .same
  · rw [hk, Table.fresh_of_insert hins] at hj
    cases hj

lemma JobStamp.of_finished {intentId attemptId jobId : Uuid} {epoch : Nat} {o : Outcome}
    (h : Finished db intentId attemptId jobId epoch o db') (hj : db.jobs.get k = some j)
    (hj' : db'.jobs.get k = some j') : JobStamp db.now b j j' := by
  obtain ⟨i, j₀, f, hf, g, hg, m, hm, dead, events, -, -, -, hj₀, hsrc, -, -, hrow, hdb⟩ := h
  refine .of_set hm hj hj' (congrArg Db.jobs hdb) hj₀ ?_
  rw [hrow]
  exact .moved (Outcome.edge hsrc) (jobState_ne_queued hsrc) rfl

end Rows

lemma jobStep_stamp {c c' : JobClients} {b : JobAction} (h : jobStep cfg db c b = some (db', c')) {k : Uuid}
    {j j' : Job} (hj : db.jobs.get k = some j) (hj' : db'.jobs.get k = some j') : JobStamp db.now b j j' := by
  cases b with
  | submitJob ws payload => exact .of_submitted (submitJob_inv (commit_inv h).1) hj hj'
  | cancelJob id =>
    rcases cancelJob_inv (commit_inv h).1 with rfl | ⟨j₀, events, hj₀, hedge, rfl⟩
    · exact .of_jobs_eq rfl hj hj'
    · exact .of_set (by intro _; rfl) hj hj' rfl hj₀ (.moved hedge (by simp) rfl)
  | rerunJob id => exact .of_submitted (rerunJob_inv (commit_inv h).1) hj hj'
  | beginJobRecovery item =>
    obtain ⟨-, -, hdb, -⟩ := beginJobRecovery_step h
    obtain ⟨db₁, a, i, hdb₁, -, -, -, -, -, -, rfl⟩ := beginJobRecovery_inv hdb
    rcases beginRecoveryJob_inv hdb₁ with ⟨-, rfl⟩ | ⟨j₀, dead, -, hj₀, hst, rfl⟩
    · exact .of_jobs_eq rfl hj hj'
    · exact .of_set (by intro _; rfl) hj hj' rfl hj₀ (.moved (by simp [hst, contract]) (by simp) rfl)
  | confirmJobRecovery item deleteConfirmed =>
    obtain ⟨retry, -, -, hdb, -⟩ := confirmJobRecovery_step h
    obtain ⟨j₀, dead, hj₀, hedge, rfl⟩ := confirmJobRecovery_inv hdb
    have hne : recoveryTarget retry item.isCancel ≠ queued := by
      rcases recoveryTarget_cases retry item.isCancel with ht | ht | ht <;> simp [ht]
    exact .of_set (by intro _; rfl) hj hj' rfl hj₀ (.moved hedge hne rfl)
  | requeueRetryWaitJob scannedAt row now =>
    obtain ⟨-, -, hnow, hdb, -⟩ := requeueRetryWaitJob_step h
    obtain ⟨hbackoff, j₀, dead, hj₀, hst, rfl⟩ := requeueRetryWaitJob_inv hdb
    exact .of_set (by intro _; rfl) hj hj' rfl hj₀
      (.requeued scannedAt row now rfl (Table.key_of_get hj₀).symm hst hbackoff hnow)
  | createJobAttemptIntent job =>
    obtain ⟨i, -, hdb, -⟩ := createJobAttemptIntent_step h
    obtain ⟨j₀, a, q, hadm⟩ := createJobAttemptIntent_inv hdb
    exact .of_set (by intro _; rfl) hj hj' (congrArg Db.jobs hadm.commit) hadm.row
      (.moved (by simp [hadm.queued, contract]) (by simp) rfl)
  | claimNextJobAttempt workerId lease wss locked =>
    obtain ⟨wl, hdb, -⟩ := claimNextJobAttempt_step h
    obtain ⟨i, a, j₀, jobs, dead, hnext, -, rfl, ⟨hst, hjobs⟩ | ⟨-, hjobs⟩⟩ := claimNextJobAttempt_inv hdb
    · have hj₀ := (nextJobIntent_inv hnext).2.2.2
      refine .of_set (by intro _; rfl) hj hj' hjobs (by rw [Table.key_of_get hj₀, hj₀]) ?_
      rcases hst with hst | hst
      · exact .moved (by simp [Job.claim, hst, contract]) (by simp [Job.claim, hst]) rfl
      · exact .claimed hst (by simp [Job.claim, hst]) rfl
    · exact .of_jobs_eq hjobs hj hj'
  | markJobAttemptRunning wl =>
    obtain ⟨-, hdb, -⟩ := held_commit_inv h
    obtain ⟨i, a, j₀, dead, -, -, -, -, -, hj₀, hst, rfl⟩ := markJobAttemptRunning_inv hdb
    exact .of_set (by intro _; rfl) hj hj' rfl hj₀ (.moved (by simp [hst, contract]) (by simp) rfl)
  | markJobAttemptSucceeded wl uid => exact .of_finished (markJobAttemptSucceeded_inv (held_commit_inv h).2.1) hj hj'
  | markJobAttemptFailed wl reason exitCode =>
    exact .of_finished (markJobAttemptFailed_inv (held_commit_inv h).2.1) hj hj'
  | markJobAttemptCancelled wl => exact .of_finished (markJobAttemptCancelled_inv (held_commit_inv h).2.1) hj hj'
  | _ => exact .of_jobs_eq ((jobStep_frame h).jobs (by simp [JobAction.writes])) hj hj'

lemma step_now {w w' : World} {a : Action} (h : w.step cfg a = some w') : w.db.now ≤ w'.db.now := by
  rcases step_cases h with ⟨d, rfl, rfl⟩ | ⟨b, db', c', rfl, hjob, rfl⟩ | ⟨b, db', c', rfl, hserv, rfl⟩
  · exact Nat.le_add_right _ _
  · exact (jobStep_frame hjob).now.ge
  · exact (serviceStep_frame hserv).now.ge

/-- A step that does not requeue a job leaves its row as it was, or stamps it. -/
lemma step_stamp {w w' : World} {a : Action} (h : w.step cfg a = some w') {k : Uuid} {j j' : Job}
    (hj : w.db.jobs.get k = some j) (hj' : w'.db.jobs.get k = some j') (hq : j'.state ≠ queued) :
    j' = j ∨ j'.updatedAt = w.db.now := by
  rcases step_cases h with ⟨d, rfl, rfl⟩ | ⟨b, db', c', rfl, hjob, rfl⟩ | ⟨b, db', c', rfl, hserv, rfl⟩
  · exact .inl (Option.some.inj (hj'.symm.trans hj))
  · cases jobStep_stamp hjob hj hj' with
    | same => exact .inl rfl
    | moved _ _ hstamp => exact .inr hstamp
    | claimed _ _ hstamp => exact .inr hstamp
    | requeued _ _ _ _ _ _ _ _ => exact absurd rfl hq
  · have hframe := serviceStep_jobs hserv
    simp only [jobFrame, Prod.mk.injEq] at hframe
    exact .inl (Option.some.inj ((hframe.2.1 ▸ hj').symm.trans hj))

end HamiCloud.Proofs
