import HamiCloud.Protocol.Outcomes
import HamiCloud.Proofs.WorldInvariant

/-!
# What the job transactions record

The columns that the job protocol leaves open: the result of an attempt, the dead letters and the events. For
each of them, which transactions write it and what they write.
-/

namespace HamiCloud.Proofs

open Library JobState

variable {cfg : Settings} {db db' : Db}

/-! ### Results of attempts -/

/-- The action ends an attempt, which it leaves as the given row. -/
inductive Ends : JobAction → JobAttempt → Prop
  | succeeded (wl : ClaimedJobWorkload) (uid : String) (a : JobAttempt) : a.id = wl.jobAttemptId →
      a.state = succeeded → a.exitCode = some 0 → Ends (.markJobAttemptSucceeded wl uid) a
  | failed (wl : ClaimedJobWorkload) (reason : String) (exitCode : Int) (a : JobAttempt) :
      a.id = wl.jobAttemptId → a.state = failed → a.exitCode = some exitCode → a.failureReason = some reason →
      Ends (.markJobAttemptFailed wl reason exitCode) a
  | cancelled (wl : ClaimedJobWorkload) (a : JobAttempt) : a.id = wl.jobAttemptId → a.state = cancelled →
      Ends (.markJobAttemptCancelled wl) a
  | expired (item : ExpiredJobRecoveryInfo) (now : Time) (a : JobAttempt) : a.id = item.attemptId →
      Ends (.beginJobRecovery item) (finalizeExpired item now a)

lemma markJobAttemptSucceeded_attempts {intentId attemptId jobId : Uuid} {uid : String} {epoch : Nat}
    (h : markJobAttemptSucceeded db intentId attemptId jobId uid epoch = .ok db') :
    db'.attempts = db.attempts.set attemptId (fun a =>
      { a with state := .succeeded, exitCode := some 0, finishedAt := some db.now, updatedAt := db.now }) := by
  unfold markJobAttemptSucceeded at h
  simp only [bind_eq_ok, orError_eq_ok, pure_eq_ok] at h
  obtain ⟨db₁, hfence, ⟨j', db₂⟩, hu, attempt, -, job, -, rfl⟩ := h
  obtain ⟨-, i, -, -, -, rfl⟩ := fenceJobIntent_inv hfence
  obtain ⟨j, dead, -, -, -, rfl⟩ := updateJob_inv hu
  rfl

lemma markJobAttemptFailed_attempts {intentId attemptId jobId : Uuid} {reason : String} {exitCode : Int}
    {epoch : Nat} {retry : Bool}
    (h : markJobAttemptFailed db intentId attemptId jobId reason exitCode epoch retry = .ok db') :
    db'.attempts = db.attempts.set attemptId (fun a =>
      { a with state := .failed, exitCode := some exitCode, failureReason := some reason,
               finishedAt := some db.now, updatedAt := db.now }) := by
  unfold markJobAttemptFailed at h
  simp only [bind_eq_ok, orError_eq_ok, pure_eq_ok] at h
  obtain ⟨db₁, hfence, -, -, ⟨j', db₂⟩, hu, rfl⟩ := h
  obtain ⟨-, i, -, -, -, rfl⟩ := fenceJobIntent_inv hfence
  obtain ⟨j, dead, -, -, -, rfl⟩ := updateJob_inv hu
  rfl

/-- A row of a table after one row was changed: it was there already, or it is the changed row. -/
lemma get_set_cases {k k' : Uuid} {f : JobAttempt → JobAttempt} {a' : JobAttempt}
    (hf : ∀ a, (f a).id = a.id := by intro _; rfl) (h : (db.attempts.set k f hf).get k' = some a') :
    db.attempts.get k' = some a' ∨ ∃ a, db.attempts.get k = some a ∧ a.id = k ∧ a' = f a := by
  rw [Table.get_set] at h
  split at h
  · obtain ⟨a, ha, rfl⟩ := Option.map_eq_some_iff.mp h
    exact .inr ⟨a, ha, Table.key_of_get ha, rfl⟩
  · exact .inl h

/-- An attempt that has ended after a step had ended before it, with the same row, or the step ended it. -/
lemma jobStep_ended {c c' : JobClients} {b : JobAction} {k : Uuid} {a' : JobAttempt}
    (h : jobStep cfg db c b = some (db', c')) (ha' : db'.attempts.get k = some a')
    (hended : a'.state.hasEnded = true) : db.attempts.get k = some a' ∨ Ends b a' := by
  cases b with
  | beginJobRecovery item =>
    obtain ⟨-, -, hdb, -⟩ := beginJobRecovery_step h
    obtain ⟨db₁, a, i, -, -, -, -, -, -, -, rfl⟩ := beginJobRecovery_inv hdb
    rcases get_set_cases (h := ha') with hold | ⟨a, -, hid, rfl⟩
    · exact .inl hold
    · exact .inr (.expired item db.now a hid)
  | createJobAttemptIntent job =>
    obtain ⟨i, -, hdb, -⟩ := createJobAttemptIntent_step h
    obtain ⟨j, a, q, hadm⟩ := createJobAttemptIntent_inv hdb
    rcases Table.get_insert_cases hadm.attempts ha' with hold | ⟨-, rfl⟩
    · exact .inl hold
    · simp [hadm.attempt.2.2.2, JobState.hasEnded] at hended
  | claimNextJobAttempt workerId lease wss locked =>
    obtain ⟨wl, hdb, -⟩ := claimNextJobAttempt_step h
    obtain ⟨i, a, j, jobs, dead, -, -, rfl, -⟩ := claimNextJobAttempt_inv hdb
    rcases get_set_cases (h := ha') with hold | ⟨a, -, -, rfl⟩
    · exact .inl hold
    · simp [JobAttempt.claim, JobState.hasEnded] at hended
  | markJobAttemptRunning wl =>
    obtain ⟨-, hdb, -⟩ := held_commit_inv h
    obtain ⟨i, a, j, dead, -, -, -, -, -, -, -, rfl⟩ := markJobAttemptRunning_inv hdb
    rcases get_set_cases (h := ha') with hold | ⟨a, -, -, rfl⟩
    · exact .inl hold
    · simp [JobState.hasEnded] at hended
  | markJobAttemptSucceeded wl uid =>
    rw [markJobAttemptSucceeded_attempts (held_commit_inv h).2.1] at ha'
    rcases get_set_cases (h := ha') with hold | ⟨a, -, hid, rfl⟩
    · exact .inl hold
    · exact .inr (.succeeded wl uid _ hid rfl rfl)
  | markJobAttemptFailed wl reason exitCode =>
    rw [markJobAttemptFailed_attempts (held_commit_inv h).2.1] at ha'
    rcases get_set_cases (h := ha') with hold | ⟨a, -, hid, rfl⟩
    · exact .inl hold
    · exact .inr (.failed wl reason exitCode _ hid rfl rfl rfl)
  | markJobAttemptCancelled wl =>
    obtain ⟨i, j, f, hf, g, hg, k', hk', dead, events, -, -, -, -, -, -, hga, -, rfl⟩ :=
      markJobAttemptCancelled_inv (held_commit_inv h).2.1
    rcases get_set_cases hg ha' with hold | ⟨a, -, hid, rfl⟩
    · exact .inl hold
    · exact .inr (.cancelled wl _ ((hg a).trans hid) (hga a).2)
  | _ => exact .inl ((jobStep_frame h).attempts (by simp [JobAction.writes]) ▸ ha')

/-! ### Dead letters -/

section DeadLetters

/-- The columns of a dead letter that say how the job has failed. -/
def DeadLetterRecord.reports (r : DeadLetterRecord) (lastAttempt : Nat) (exitCode : Option Int)
    (failureReason : Option String) : Prop :=
  r.lastAttempt = lastAttempt ∧ r.exitCode = exitCode ∧ r.failureReason = failureReason

lemma upsertDeadLetter_other {t : Table DeadLetterRecord.jobId} {r : DeadLetterRecord} {k : Uuid}
    (hk : k ≠ r.jobId) : (upsertDeadLetter t r).get k = t.get k := by
  unfold upsertDeadLetter
  split
  · rename_i t' hins
    rw [Table.get_insert hins, if_neg hk]
  · rw [Table.get_set, if_neg hk]

lemma upsertDeadLetter_self (t : Table DeadLetterRecord.jobId) (r : DeadLetterRecord) :
    ∃ r', (upsertDeadLetter t r).get r.jobId = some r' ∧
      DeadLetterRecord.reports r' r.lastAttempt r.exitCode r.failureReason := by
  unfold upsertDeadLetter
  split
  · rename_i t' hins
    exact ⟨r, by rw [Table.get_insert hins, if_pos rfl], rfl, rfl, rfl⟩
  · rename_i hins
    cases hold : t.get r.jobId with
    | none =>
      obtain ⟨u, hu⟩ := Table.exists_insert hold
      rw [hu] at hins
      cases hins
    | some old => exact ⟨_, Table.get_set_self hold, rfl, rfl, rfl⟩

lemma jobsInsertDeadLetter_other {job : Job} {k : Uuid} (hk : k ≠ job.id) :
    (jobsInsertDeadLetter db job).get k = db.deadLetters.get k := by
  unfold jobsInsertDeadLetter
  split
  · exact upsertDeadLetter_other hk
  · cases hins : db.deadLetters.insert ⟨job.id, job.workspaceId, job.currentAttemptNumber, none,
        some "Job reached FAILED state", db.now⟩ with
    | none => rfl
    | some t => rw [Option.getD_some, Table.get_insert hins, if_neg hk]

/-- The trigger fires for no other job, and only when the job has failed. -/
lemma updateJob_deadLetters {jobId : Uuid} {sources : List JobState} {f : Job → Job} {hf : ∀ j, (f j).id = j.id}
    {j' : Job} (h : updateJob db jobId sources f hf = some (j', db')) :
    (j'.state ≠ failed → db'.deadLetters = db.deadLetters) ∧
      ∀ k, k ≠ jobId → db'.deadLetters.get k = db.deadLetters.get k := by
  unfold updateJob at h
  split at h
  · cases h
  · rename_i old jobs hmod
    obtain ⟨hget, -, -⟩ := Table.modify_eq_some.mp hmod
    simp only [Option.some.injEq, Prod.mk.injEq] at h
    obtain ⟨rfl, rfl⟩ := h
    refine ⟨fun hne => if_neg (fun hfires => hne hfires.1), fun k hk => ?_⟩
    simp only
    split
    · exact jobsInsertDeadLetter_other (by rwa [hf, Table.key_of_get hget])
    · rfl

/-- A transaction that may fail a job: it writes the dead letter of the job exactly then. -/
structure MayFail (db db' : Db) (jobId : Uuid) (exitCode : Option Int) (reason : Option String) : Prop where
  otherJobs : ∀ k, k ≠ jobId → db'.jobs.get k = db.jobs.get k
  otherLetters : ∀ k, k ≠ jobId → db'.deadLetters.get k = db.deadLetters.get k
  job : ∃ j j', db.jobs.get jobId = some j ∧ db'.jobs.get jobId = some j' ∧
    j'.currentAttemptNumber = j.currentAttemptNumber ∧
    (j'.state ≠ failed ∧ db'.deadLetters = db.deadLetters ∨
      j'.state = failed ∧ ∃ r, db'.deadLetters.get jobId = some r ∧
        DeadLetterRecord.reports r j.currentAttemptNumber exitCode reason)

lemma MayFail.intro {db₁ db₂ : Db} {jobId : Uuid} {sources : List JobState} {f : Job → Job}
    {hf : ∀ j, (f j).id = j.id} {j' : Job} {r : DeadLetterRecord} {exitCode : Option Int}
    {reason : Option String} (hu : updateJob db₁ jobId sources f hf = some (j', db₂))
    (hcur : ∀ j, (f j).currentAttemptNumber = j.currentAttemptNumber)
    (hjobs₁ : db₁.jobs = db.jobs) (hletters₁ : db₁.deadLetters = db.deadLetters) (hjobs : db'.jobs = db₂.jobs)
    (hletters : db'.deadLetters =
      if j'.state = failed then upsertDeadLetter db₂.deadLetters r else db₂.deadLetters)
    (hid : r.jobId = jobId) (hreports : DeadLetterRecord.reports r j'.currentAttemptNumber exitCode reason) :
    MayFail db db' jobId exitCode reason := by
  obtain ⟨hkeep, hother⟩ := updateJob_deadLetters hu
  obtain ⟨j, dead, hj, -, rfl, hdb₂⟩ := updateJob_inv hu
  have hset : db'.jobs = db₁.jobs.set jobId f hf := hjobs.trans (congrArg Db.jobs hdb₂)
  refine ⟨fun k hk => ?_, fun k hk => ?_, j, f j, hjobs₁ ▸ hj, hset ▸ Table.get_set_self hj hf, hcur j, ?_⟩
  · rw [hset, Table.get_set, if_neg hk, hjobs₁]
  · rw [hletters]
    split
    · rw [upsertDeadLetter_other (hid ▸ hk), hother k hk, hletters₁]
    · rw [hother k hk, hletters₁]
  · by_cases hfailed : (f j).state = failed
    · obtain ⟨r', hr', hlast, hexit, hreason⟩ := upsertDeadLetter_self db₂.deadLetters r
      refine .inr ⟨hfailed, r', ?_, hlast.trans (hreports.1.trans (hcur j)), hexit.trans hreports.2.1,
        hreason.trans hreports.2.2⟩
      rw [hletters, if_pos hfailed, ← hid, hr']
    · exact .inl ⟨hfailed, by rw [hletters, if_neg hfailed, hkeep hfailed, hletters₁]⟩

lemma markJobAttemptFailed_deadLetters {intentId attemptId jobId : Uuid} {reason : String} {exitCode : Int}
    {epoch : Nat} {retry : Bool}
    (h : markJobAttemptFailed db intentId attemptId jobId reason exitCode epoch retry = .ok db') :
    MayFail db db' jobId (some exitCode) (some reason) := by
  unfold markJobAttemptFailed at h
  simp only [bind_eq_ok, orError_eq_ok, pure_eq_ok] at h
  obtain ⟨db₁, hfence, -, -, ⟨j', db₂⟩, hu, hdb⟩ := h
  obtain ⟨-, i, -, -, -, rfl⟩ := fenceJobIntent_inv hfence
  exact MayFail.intro hu (fun _ => rfl) rfl rfl (congrArg Db.jobs hdb).symm (congrArg Db.deadLetters hdb).symm rfl
    ⟨rfl, rfl, rfl⟩

/-- An attempt is found by its job and its number. -/
lemma find_attempt_row {k : Uuid} {a : JobAttempt} (hwf : JobWF (jobView db)) (ha : db.attempts.get k = some a) :
    db.attempts.rows.find? (fun b => b.jobId = a.jobId && b.attemptNumber = a.attemptNumber) = some a := by
  cases hfind : db.attempts.rows.find? (fun b => b.jobId = a.jobId && b.attemptNumber = a.attemptNumber) with
  | none =>
    have hno := List.find?_eq_none.mp hfind a (Table.mem_of_get ha)
    simp at hno
  | some b =>
    have hb := Table.get_of_mem (List.mem_of_find?_eq_some hfind)
    have hcond := List.find?_some hfind
    simp only [Bool.and_eq_true, decide_eq_true_eq] at hcond
    have hk : b.id = k := hwf.attemptUnique hb ha hcond.1 hcond.2
    rw [hk, ha] at hb
    exact hb.symm

/-- The result that `ConfirmJobRecovery` finds for the attempt it gives up. -/
lemma confirmJobRecovery_deadLetters {jobId : Uuid} {retry isCancel : Bool} {j : Job} {k : Uuid} {a : JobAttempt}
    {reason : String} (h : confirmJobRecovery db jobId retry isCancel = .ok db') (hj : db.jobs.get jobId = some j)
    (hwf : JobWF (jobView db)) (ha : db.attempts.get k = some a) (hjob : a.jobId = jobId)
    (hnum : a.attemptNumber = j.currentAttemptNumber) (hreason : a.failureReason = some reason) (hne : reason ≠ "") :
    MayFail db db' jobId a.exitCode a.failureReason := by
  unfold confirmJobRecovery at h
  simp only [bind_eq_ok, orError_eq_ok, pure_eq_ok] at h
  obtain ⟨⟨j', db₁⟩, hu, hdb⟩ := h
  obtain ⟨j₀, dead, hj₀, -, hj', hdb₁⟩ := updateJob_inv hu
  obtain rfl : j = j₀ := Option.some.inj (hj.symm.trans hj₀)
  have hjid : j.id = jobId := Table.key_of_get hj
  have hid : j'.id = jobId := (congrArg Job.id hj').trans hjid
  have hfind : db₁.attempts.rows.find? (fun b => b.jobId = j'.id && b.attemptNumber = j'.currentAttemptNumber) =
      some a := by
    have hcur : j'.currentAttemptNumber = a.attemptNumber := by rw [hj', hnum]
    have hattempts : db₁.attempts = db.attempts := by rw [hdb₁]
    rw [hid, ← hjob, hcur, hattempts]
    exact find_attempt_row hwf ha
  have hletter : recoveryDeadLetter db₁ j' =
      ⟨j'.id, j'.workspaceId, j'.currentAttemptNumber, a.exitCode, a.failureReason, db₁.now⟩ := by
    simp [recoveryDeadLetter, hfind, hreason, hne]
  have hletters : db'.deadLetters = if j'.state = failed then upsertDeadLetter db₁.deadLetters
      (recoveryDeadLetter db₁ j') else db₁.deadLetters := by
    rw [← hdb, hj']
    rfl
  rw [hletter] at hletters
  exact MayFail.intro hu (fun _ => rfl) rfl rfl (congrArg Db.jobs hdb).symm hletters hid ⟨rfl, rfl, rfl⟩

/-- The two actions that may fail a job. -/
def JobAction.mayFail : JobAction → Bool
  | .confirmJobRecovery _ _ => true
  | .markJobAttemptFailed _ _ _ => true
  | _ => false

lemma createJobAttemptIntent_deadLetters {job : UnadmittedJob} {i : ExecutionIntent}
    (h : createJobAttemptIntent db job = .ok (some (i, db'))) : db'.deadLetters = db.deadLetters := by
  unfold createJobAttemptIntent at h
  simp only [bind_eq_ok, ensure_eq_ok] at h
  obtain ⟨-, -, h⟩ := h
  split at h
  · cases h
  · simp only [bind_eq_ok, orError_eq_ok] at h
    obtain ⟨attempts, -, h⟩ := h
    split at h
    · cases h
    · rename_i j' db₁ hu
      split at h
      · cases h
      · simp only [bind_eq_ok, orError_eq_ok, pure_eq_ok, Option.some.injEq, Prod.mk.injEq] at h
        obtain ⟨intents, -, db₃, hres, -, rfl⟩ := h
        obtain ⟨q, res, -, -, -, -, rfl⟩ := insertReservation_inv hres
        obtain ⟨j, dead, -, -, hj', -⟩ := updateJob_inv hu
        exact (updateJob_deadLetters hu).1 (by simp [hj'])

lemma beginJobRecovery_deadLetters {item : ExpiredJobRecoveryInfo} (h : beginJobRecovery db item = .ok db') :
    db'.deadLetters = db.deadLetters := by
  obtain ⟨db₁, a, i, hdb₁, -, -, -, -, -, -, rfl⟩ := beginJobRecovery_inv h
  unfold beginRecoveryJob at hdb₁
  split at hdb₁
  · split at hdb₁
    · rename_i j' db₂ hu
      cases hdb₁
      obtain ⟨j, dead, -, -, hj', -⟩ := updateJob_inv hu
      exact (updateJob_deadLetters hu).1 (by simp [hj'])
    · cases hdb₁
  · cases hdb₁
    rfl

lemma claimNextJobAttempt_deadLetters {workerId : String} {lease : Time} {wss locked : List Uuid}
    {wl : ClaimedJobWorkload} (h : claimNextJobAttempt db workerId lease wss locked = some (wl, db')) :
    db'.deadLetters = db.deadLetters := by
  unfold claimNextJobAttempt at h
  split at h
  · cases h
  · simp only [Option.some.injEq, Prod.mk.injEq] at h
    obtain ⟨-, rfl⟩ := h
    split
    · rfl
    · rename_i j' db₂ hu
      obtain ⟨j, dead, -, -, hj', -⟩ := updateJob_inv hu
      refine (updateJob_deadLetters hu).1 ?_
      rw [hj', Job.claim]
      split <;> simp

lemma markJobAttemptRunning_deadLetters {intentId attemptId jobId : Uuid} {epoch : Nat}
    (h : markJobAttemptRunning db intentId attemptId jobId epoch = .ok db') : db'.deadLetters = db.deadLetters := by
  unfold markJobAttemptRunning at h
  simp only [bind_eq_ok, orError_eq_ok, pure_eq_ok] at h
  obtain ⟨db₁, hfence, ⟨a, attempts⟩, -, ⟨j', db₂⟩, hu, rfl⟩ := h
  obtain ⟨-, i, -, -, -, rfl⟩ := fenceJobIntent_inv hfence
  obtain ⟨j, dead, -, -, hj', -⟩ := updateJob_inv hu
  exact (updateJob_deadLetters hu).1 (by simp [hj'])

lemma markJobAttemptSucceeded_deadLetters {intentId attemptId jobId : Uuid} {uid : String} {epoch : Nat}
    (h : markJobAttemptSucceeded db intentId attemptId jobId uid epoch = .ok db') :
    db'.deadLetters = db.deadLetters := by
  unfold markJobAttemptSucceeded at h
  simp only [bind_eq_ok, orError_eq_ok, pure_eq_ok] at h
  obtain ⟨db₁, hfence, ⟨j', db₂⟩, hu, attempt, -, job, -, rfl⟩ := h
  obtain ⟨-, i, -, -, -, rfl⟩ := fenceJobIntent_inv hfence
  obtain ⟨j, dead, -, -, hj', -⟩ := updateJob_inv hu
  refine (updateJob_deadLetters hu).1 ?_
  rw [hj']
  simp only
  split <;> simp

lemma markJobAttemptCancelled_deadLetters {intentId attemptId jobId : Uuid} {epoch : Nat}
    (h : markJobAttemptCancelled db intentId attemptId jobId epoch = .ok db') :
    db'.deadLetters = db.deadLetters := by
  unfold markJobAttemptCancelled at h
  simp only [bind_eq_ok, orError_eq_ok, pure_eq_ok] at h
  obtain ⟨db₁, hfence, ⟨j', db₂⟩, hu, rfl⟩ := h
  obtain ⟨-, i, -, -, -, rfl⟩ := fenceJobIntent_inv hfence
  obtain ⟨j, dead, -, -, hj', -⟩ := updateJob_inv hu
  exact (updateJob_deadLetters hu).1 (by simp [hj'])

/-- All other actions leave the dead letters alone. -/
lemma jobStep_deadLetters {c c' : JobClients} {b : JobAction} (h : jobStep cfg db c b = some (db', c'))
    (hb : JobAction.mayFail b = false) : db'.deadLetters = db.deadLetters := by
  cases b with
  | beginJobRecovery item =>
    obtain ⟨-, -, hdb, -⟩ := beginJobRecovery_step h
    exact beginJobRecovery_deadLetters hdb
  | confirmJobRecovery item deleteConfirmed => cases hb
  | requeueRetryWaitJob scannedAt row now =>
    obtain ⟨-, -, -, hdb, -⟩ := requeueRetryWaitJob_step h
    unfold requeueRetryWaitJob at hdb
    obtain ⟨-, hmap⟩ := Option.ite_none_right_eq_some.mp hdb
    obtain ⟨⟨j', db₁⟩, hu, rfl⟩ := Option.map_eq_some_iff.mp hmap
    obtain ⟨j, dead, -, -, hj', -⟩ := updateJob_inv hu
    exact (updateJob_deadLetters hu).1 (by simp [hj'])
  | createJobAttemptIntent job =>
    obtain ⟨i, -, hdb, -⟩ := createJobAttemptIntent_step h
    exact createJobAttemptIntent_deadLetters hdb
  | claimNextJobAttempt workerId lease wss locked =>
    obtain ⟨wl, hdb, -⟩ := claimNextJobAttempt_step h
    exact claimNextJobAttempt_deadLetters hdb
  | markJobAttemptRunning wl => exact markJobAttemptRunning_deadLetters (held_commit_inv h).2.1
  | markJobAttemptSucceeded wl uid => exact markJobAttemptSucceeded_deadLetters (held_commit_inv h).2.1
  | markJobAttemptFailed wl reason exitCode => cases hb
  | markJobAttemptCancelled wl => exact markJobAttemptCancelled_deadLetters (held_commit_inv h).2.1
  | _ => exact (jobStep_frame h).deadLetters (by simp [JobAction.writes])

end DeadLetters

end HamiCloud.Proofs
