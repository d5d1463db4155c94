import HamiCloud.Proofs.WorldInvariant

/-!
# When the transactions of a pass succeed

The converses of the inversions, for the transactions that bring a job nearer to its end: on the rows
that a scan has just returned, they commit.
-/

namespace HamiCloud.Proofs

open Library JobState

variable {db : Db}

lemma ok_bind {ε α β : Type} (a : α) (f : α → Except ε β) : (Except.ok a >>= f) = f a := rfl

lemma orError_some {ε α : Type} (a : α) (e : ε) : orError (some a) e = .ok a := rfl

lemma ensure_of {ε : Type} {c : Prop} [Decidable c] (h : c) (e : ε) : ensure c e = .ok () := if_pos h

lemma modify_enabled {α κ : Type} [DecidableEq κ] {key : α → κ} {t : Table key} {k : κ} {r : α}
    {p : α → Bool} {f : α → α} (hget : t.get k = some r) (hp : p r = true)
    (hf : ∀ r, key (f r) = key r := by intro _; rfl) : t.modify k p f hf = some (r, t.set k f hf) :=
  Table.modify_eq_some.mpr ⟨hget, hp, rfl⟩

lemma updateJob_enabled (sources : List JobState) (f : Job → Job) {jobId : Uuid} {j : Job}
    (hj : db.jobs.get jobId = some j) (hst : j.state ∈ sources)
    (hf : ∀ j, (f j).id = j.id := by intro _; rfl) :
    ∃ db', updateJob db jobId sources f hf = some (f j, db') := by
  unfold updateJob
  rw [modify_enabled hj (by simpa using hst) hf]
  exact ⟨_, rfl⟩

lemma insertReservation_enabled {ws : Uuid} {cls : QuotaResourceClass} {ttl : Nat}
    (h : db.reservations.Below db.nextUuid) : ∃ db', insertReservation db ws cls ttl = some db' := by
  obtain ⟨res, hins⟩ := Table.exists_insert (t := db.reservations)
    (r := ⟨db.nextUuid, ws, cls, 1, .active, db.now + ttl * second, db.now, db.now⟩) h.get_eq_none
  exact ⟨_, by rw [insertReservation, hins]; rfl⟩

lemma nextJobIntent_enabled (hwf : JobWF (jobView db)) {k : Uuid} {i : ExecutionIntent}
    (hi : db.jobIntents.get k = some i) (hp : i.status = .pending) :
    ∃ row, nextJobIntent db [] [] = some row := by
  apply Option.isSome_iff_exists.mp
  rw [nextJobIntent, List.findSome?_isSome_iff]
  obtain ⟨a, ha, -⟩ := hwf.intentAttempt hi
  obtain ⟨j, hj, -⟩ := hwf.attemptJob ha
  have ha' : db.attempts.get i.resourceId = some a := ha
  have hj' : db.jobs.get a.jobId = some j := hj
  refine ⟨i, mem_orderBy.mpr (Table.mem_of_get hi), ?_⟩
  simp [hp, workspaceFilter, ha', hj']

/-- An executor without a workspace filter claims an intent whenever one is pending. -/
lemma claimNextJobAttempt_enabled (hwf : JobWF (jobView db)) {k : Uuid} {i : ExecutionIntent}
    (hi : db.jobIntents.get k = some i) (hp : i.status = .pending) (workerId : String) (lease : Time) :
    ∃ wl db', claimNextJobAttempt db workerId lease [] [] = some (wl, db') := by
  obtain ⟨⟨i', a, j⟩, hnext⟩ := nextJobIntent_enabled hwf hi hp
  unfold claimNextJobAttempt
  rw [hnext]
  exact ⟨_, _, rfl⟩

lemma beginRecoveryJob_enabled {item : ExpiredJobRecoveryInfo} {j : Job}
    (hj : db.jobs.get item.jobId = some j) (hst : item.jobState = j.state) :
    ∃ db', beginRecoveryJob db item = .ok db' := by
  unfold beginRecoveryJob
  by_cases hrun : item.jobState = running
  · obtain ⟨db₁, hu⟩ := updateJob_enabled (legalSources [.recoveryPending])
      (fun j => { j with state := .recoveryPending, updatedAt := db.now }) hj (by simp [← hst, hrun])
    rw [if_pos hrun, hu]
    exact ⟨db₁, rfl⟩
  · exact ⟨db, if_neg hrun⟩

/-- The first step of a recovery commits on a row that needs it. -/
lemma beginJobRecovery_enabled (hwf : JobWF (jobView db)) {item : ExpiredJobRecoveryInfo}
    (hmem : item ∈ findExpiredJobIntents db) (hneeds : item.needsBegin = true) :
    ∃ db', beginJobRecovery db item = .ok db' := by
  obtain ⟨i, a, j, hi, hres, ha, hjob, hj, -, hx⟩ := mem_findExpiredJobIntents hmem
  have hclaimed : i.status = .claimed ∧ i.leaseExpired db.now = true := by
    rw [hx] at hneeds
    simpa using hneeds
  have hast : a.state = starting ∨ a.state = running := by
    have hstatus := hwf.status hi (hres ▸ ha)
    rwa [hclaimed.1] at hstatus
  obtain ⟨db₁, hdb₁⟩ := beginRecoveryJob_enabled hj (by rw [hx])
  obtain ⟨hat, hint⟩ : db₁.attempts = db.attempts ∧ db₁.jobIntents = db.jobIntents := by
    rcases beginRecoveryJob_inv hdb₁ with ⟨-, rfl⟩ | ⟨j', dead, -, -, -, rfl⟩ <;> exact ⟨rfl, rfl⟩
  have hepoch : item.leaseEpoch = i.leaseEpoch := by rw [hx]
  have hattempt := modify_enabled (p := fun a => a.state ∈ [starting, running])
    (f := finalizeExpired item db.now) ha (by simpa using hast)
  have hintent := modify_enabled (p := fun i => i.fenced item.leaseEpoch && i.leaseExpired db.now)
    (f := fun i => { i with status := .terminated, updatedAt := db.now }) hi
    (by simp [ExecutionIntent.fenced, hepoch, hclaimed])
  unfold beginJobRecovery
  rw [hdb₁, ok_bind, hat, hint, hattempt, orError_some, ok_bind, hintent, orError_some]
  exact ⟨_, rfl⟩

lemma confirmJobRecovery_enabled {jobId : Uuid} {shouldRetry isCancel : Bool} {j : Job}
    (hj : db.jobs.get jobId = some j) (hedge : recoveryTarget shouldRetry isCancel ∈ contract j.state) :
    ∃ db', confirmJobRecovery db jobId shouldRetry isCancel = .ok db' := by
  have hsrc : j.state ∈ legalSources [recoveryTarget shouldRetry isCancel] :=
    (mem_legalSources _ _).mpr ⟨_, List.mem_singleton_self _, hedge⟩
  obtain ⟨db₁, hu⟩ := updateJob_enabled _
    (fun j => { j with state := recoveryTarget shouldRetry isCancel, updatedAt := db.now }) hj hsrc
  dsimp only [confirmJobRecovery]
  rw [hu]
  exact ⟨_, rfl⟩

/-- A row past the first step of its recovery is confirmed. -/
lemma recoveryTarget_edge {item : ExpiredJobRecoveryInfo} (hmem : item ∈ findExpiredJobIntents db)
    (hbegun : item.needsBegin = false) (retry : Bool) :
    ∃ j, db.jobs.get item.jobId = some j ∧ recoveryTarget retry item.isCancel ∈ contract j.state := by
  obtain ⟨i, a, j, hi, hres, ha, hjob, hj, hneeds, hx⟩ := mem_findExpiredJobIntents hmem
  refine ⟨j, hj, ?_⟩
  rw [hx] at hbegun
  simp only [needsRecovery, Bool.and_eq_true, Bool.or_eq_true, decide_eq_true_eq] at hneeds
  have hstate : j.state = recoveryPending ∨ j.state = starting ∨ j.state = running ∨
      j.state = cancelRequested := by
    rcases hneeds.2 with (⟨⟨hc, hexp⟩, -⟩ | hrp) | ⟨hst, -⟩
    · simp [hc, hexp] at hbegun
    · exact .inl hrp
    · exact .inr (by simpa using hst)
  have hcancel : item.isCancel = decide (j.state = cancelRequested) := by
    rw [hx]
    rfl
  rw [hcancel]
  rcases hstate with hs | hs | hs | hs <;> cases retry <;> simp [hs, recoveryTarget, contract]

lemma retryBackoff_le (base : Time) (n : Nat) : retryBackoff base n ≤ 60 * second :=
  Nat.min_le_right _ _

lemma requeueRetryWaitJob_enabled (base : Time) {now : Time} {r : RetryJob} {j : Job}
    (hj : db.jobs.get r.id = some j) (hst : j.state = retryWait)
    (hdue : r.updatedAt + 60 * second ≤ now) : ∃ db', requeueRetryWaitJob db base now r = some db' := by
  obtain ⟨db₁, hu⟩ := updateJob_enabled (legalSources [.queued])
    (fun j => { j with state := .queued, updatedAt := now }) hj (by simp [hst])
  have hback : r.updatedAt + retryBackoff base r.attemptNumber ≤ now :=
    (Nat.add_le_add_left (retryBackoff_le base r.attemptNumber) _).trans hdue
  unfold requeueRetryWaitJob
  rw [if_pos hback, hu]
  exact ⟨db₁, rfl⟩

/-- A queued job within its budget is admitted from a current row. -/
lemma createJobAttemptIntent_enabled (hwf : JobWF (jobView db)) (hfresh : FreshIds db) {job : UnadmittedJob}
    {j : Job} (hj : db.jobs.get job.jobId = some j) (hq : j.state = queued)
    (hcur : job.currentAttemptNumber = j.currentAttemptNumber) (hmax : job.maxRetries = j.maxRetries)
    (hbudget : j.currentAttemptNumber ≤ j.maxRetries) :
    ∃ i db', createJobAttemptIntent db job = .ok (some (i, db')) := by
  have hfree : ¬db.attempts.rows.any (fun a => a.jobId = job.jobId &&
      a.attemptNumber = job.currentAttemptNumber + 1) = true := by
    intro hany
    obtain ⟨a, ha, hnum⟩ := List.any_eq_true.mp hany
    simp only [Bool.and_eq_true, decide_eq_true_eq] at hnum
    obtain ⟨j', hj', -, hle⟩ := hwf.attemptJob (show (jobView db).attempt a.id = some a from Table.get_of_mem ha)
    rw [hnum.1] at hj'
    obtain rfl : j = j' := Option.some.inj (hj.symm.trans hj')
    omega
  have hidle : ¬db.jobIntents.rows.any (fun i => i.resourceId = db.nextUuid &&
      i.targetGeneration = job.currentAttemptNumber + 1) = true := by
    intro hany
    obtain ⟨i, hi, hres⟩ := List.any_eq_true.mp hany
    simp only [Bool.and_eq_true, decide_eq_true_eq] at hres
    obtain ⟨a, ha, -⟩ := hwf.intentAttempt (show (jobView db).intent i.id = some i from Table.get_of_mem hi)
    rw [hres.1] at ha
    exact absurd ha (by rw [show (jobView db).attempt db.nextUuid = none from hfresh.attempts.get_eq_none]; simp)
  -- the three rows take the next three identifiers
  obtain ⟨attempts, hains⟩ := Table.exists_insert (t := db.attempts)
    (r := { id := db.nextUuid, jobId := job.jobId, workspaceId := job.workspaceId,
            attemptNumber := job.currentAttemptNumber + 1, state := .admitted, leaseEpoch := 0, exitCode := none,
            failureReason := none, startedAt := none, finishedAt := none, createdAt := db.now,
            updatedAt := db.now }) hfresh.attempts.get_eq_none
  have hj₁ : ({ db with attempts := attempts } : Db).jobs.get job.jobId = some j := hj
  obtain ⟨db₁, hu⟩ := updateJob_enabled (legalSources [.admitted])
    (fun j => { j with state := .admitted, currentAttemptNumber := job.currentAttemptNumber + 1,
                       updatedAt := db.now }) hj₁ (by simp [hq])
  obtain ⟨j', dead, -, -, -, rfl⟩ := updateJob_inv hu
  obtain ⟨intents, hiins⟩ := Table.exists_insert (t := db.jobIntents)
    (r := { id := db.nextUuid + 1, workspaceId := job.workspaceId, resourceId := db.nextUuid,
            targetGeneration := job.currentAttemptNumber + 1,
            deterministicResourceName := .job job.jobId (job.currentAttemptNumber + 1), status := .pending,
            claimedBy := none, leaseEpoch := 0, leaseExpiresAt := none, resourceUid := none,
            createdAt := db.now, updatedAt := db.now })
    (hfresh.intents.mono (Nat.le_succ _)).get_eq_none
  dsimp only [createJobAttemptIntent]
  rw [ensure_of (by omega), ok_bind, if_neg hfree, hains, orError_some, ok_bind, hu]
  dsimp only
  rw [if_neg hidle, hiins, orError_some, ok_bind]
  generalize hdb₂ : expireStaleReservations _ job.workspaceId = db₂
  have hbelow : db₂.reservations.Below db₂.nextUuid := by
    rw [← hdb₂]
    exact expireStaleReservations_below (hfresh.reservations.mono (Nat.le_add_right db.nextUuid 2))
  obtain ⟨db₃, hdb₃⟩ := insertReservation_enabled hbelow
  rw [hdb₃]
  exact ⟨_, _, rfl⟩

end HamiCloud.Proofs
