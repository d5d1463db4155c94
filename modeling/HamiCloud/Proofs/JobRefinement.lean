import HamiCloud.Library.Count
import HamiCloud.Protocol.JobEvolution
import HamiCloud.Runtime.World

/-!
# The job transactions refine the job protocol

Each transaction is inverted once: what a commit implies about the rows it read, and the database it
leaves, as a record update of the one it found. The tables whose exact content does not matter here
(reservations, dead letters, outbox) appear as existentially quantified fields.
-/

namespace HamiCloud.Proofs

open Library JobState

def jobView (db : Db) : JobView := ⟨db.jobs.get, db.attempts.get, db.jobIntents.get⟩

variable {db db' : Db}

/-! ### Inversion of the shared statements -/

lemma updateJob_inv {jobId : Uuid} {sources : List JobState} {f : Job → Job} {hf : ∀ j, (f j).id = j.id}
    {j' : Job} (h : updateJob db jobId sources f hf = some (j', db')) :
    ∃ j dead, db.jobs.get jobId = some j ∧ j.state ∈ sources ∧ j' = f j ∧
      db' = { db with jobs := db.jobs.set jobId f hf, deadLetters := dead } := by
  unfold updateJob at h
  split at h
  · cases h
  · rename_i old jobs hmod
    obtain ⟨hget, hp, rfl⟩ := Table.modify_eq_some.mp hmod
    simp only [Option.some.injEq, Prod.mk.injEq] at h
    obtain ⟨rfl, rfl⟩ := h
    exact ⟨old, _, hget, by simpa using hp, rfl, rfl⟩

lemma insertReservation_inv {ws : Uuid} {cls : QuotaResourceClass} {ttl : Nat}
    (h : insertReservation db ws cls ttl = some db') :
    ∃ q res, q.id = db.nextUuid ∧ q.workspaceId = ws ∧ q.resourceClass = cls ∧
      db.reservations.insert q = some res ∧
      db' = { db with reservations := res, nextUuid := db.nextUuid + 1 } := by
  obtain ⟨res, hins, rfl⟩ := Option.map_eq_some_iff.mp h
  exact ⟨_, res, rfl, rfl, rfl, hins, rfl⟩

lemma expireStaleReservations_below {ws : Uuid} {n : Nat} (hb : db.reservations.Below n) :
    (expireStaleReservations db ws).reservations.Below n := by
  exact Table.Below.update hb

lemma releaseReservation_below {ws : Uuid} {cls : QuotaResourceClass} {n : Nat} (hb : db.reservations.Below n) :
    (releaseReservation db ws cls).reservations.Below n := by
  unfold releaseReservation
  simp only
  split
  · exact hb
  · exact hb.set

/-- A passed quota check: both counts are below their limits, stale reservations of the workspace have
expired, and a unit is reserved if that was asked for. -/
lemma enforceWorkspaceQuota_inv {cfg : Settings} {ws : Uuid} {cls : QuotaResourceClass}
    {app : Option Uuid} {reserve : Bool} (h : enforceWorkspaceQuota cfg db ws cls app reserve = .ok db') :
    (workspaceQuotaSummary db ws).pending < cfg.defaultWorkspacePendingOperations ∧
    (∃ usage, usage = quotaUsageForAdmission (expireStaleReservations db ws) ws app ∧
      (quotaCheck cfg usage cls).used < (quotaCheck cfg usage cls).limit) ∧
    ((reserve = false ∧ db' = expireStaleReservations db ws) ∨
      (reserve = true ∧ ∃ ttl, insertReservation (expireStaleReservations db ws) ws cls ttl = some db')) := by
  unfold enforceWorkspaceQuota at h
  simp only [bind_eq_ok, ensure_eq_ok] at h
  obtain ⟨-, hpending, -, hused, h⟩ := h
  refine ⟨by cases app <;> exact hpending, ⟨_, rfl, hused⟩, ?_⟩
  split at h
  · rename_i hres
    exact .inr ⟨hres, _, orError_eq_ok.mp h⟩
  · rename_i hres
    exact .inl ⟨by simpa using hres, (pure_eq_ok.mp h).symm⟩

/-- The check writes reservations only. -/
lemma enforceWorkspaceQuota_frame {cfg : Settings} {ws : Uuid} {cls : QuotaResourceClass}
    {app : Option Uuid} {reserve : Bool} (h : enforceWorkspaceQuota cfg db ws cls app reserve = .ok db') :
    db' = { db with reservations := db'.reservations, nextUuid := db'.nextUuid } ∧
      db.nextUuid ≤ db'.nextUuid ∧ (db.reservations.Below db.nextUuid → db'.reservations.Below db'.nextUuid) := by
  obtain ⟨-, -, ⟨-, rfl⟩ | ⟨-, ttl, hins⟩⟩ := enforceWorkspaceQuota_inv h
  · exact ⟨rfl, le_rfl, expireStaleReservations_below⟩
  · obtain ⟨q, res, hid, -, -, hq, rfl⟩ := insertReservation_inv hins
    refine ⟨rfl, Nat.le_succ _, fun hb => ?_⟩
    exact (expireStaleReservations_below hb).insert hq (Nat.le_succ _) (hid ▸ Nat.lt_succ_self _)

lemma fenceJobIntent_inv {intentId : Uuid} {epoch : Nat} {f : ExecutionIntent → ExecutionIntent}
    {hf : ∀ i, (f i).id = i.id} (h : fenceJobIntent db intentId epoch f hf = .ok db') :
    0 < epoch ∧ ∃ i, db.jobIntents.get intentId = some i ∧ i.leaseEpoch = epoch ∧ i.status = .claimed ∧
      db' = { db with jobIntents := db.jobIntents.set intentId f hf } := by
  unfold fenceJobIntent at h
  simp only [bind_eq_ok, ensure_eq_ok, orError_eq_ok, pure_eq_ok] at h
  obtain ⟨-, hpos, ⟨i, intents⟩, hmod, rfl⟩ := h
  obtain ⟨hget, hfence, rfl⟩ := Table.modify_eq_some.mp hmod
  simp only [ExecutionIntent.fenced, Bool.and_eq_true, decide_eq_true_eq] at hfence
  exact ⟨hpos, i, hget, hfence.1, hfence.2, rfl⟩

/-! ### Inversion of the transactions -/

/-- What the two requests that create a job have in common: the quota of the workspace is checked and a
queued job is inserted. -/
def Submitted (cfg : Settings) (db db' : Db) : Prop :=
  ∃ j jobs events, (workspaceQuotaSummary db j.workspaceId).pending < cfg.defaultWorkspacePendingOperations ∧
    j.state = queued ∧ j.currentAttemptNumber = 0 ∧ db.jobs.insert j = some jobs ∧
    db' = { db with
      jobs := jobs, nextUuid := db.nextUuid + 1, outbox := events
      reservations := (expireStaleReservations db j.workspaceId).reservations }

lemma Submitted.intro {cfg : Settings} {ws : Uuid} {timeout retries : Nat} {parent : Option Uuid} {db₁ : Db}
    (hq : enforceWorkspaceQuota cfg db ws .concurrentJob none false = .ok db₁)
    (h : insertJob db₁ ws timeout retries parent = .ok db') : Submitted cfg db db' := by
  obtain ⟨hpending, -, ⟨-, rfl⟩ | ⟨hres, -⟩⟩ := enforceWorkspaceQuota_inv hq
  · unfold insertJob at h
    simp only [bind_eq_ok, orError_eq_ok, pure_eq_ok] at h
    obtain ⟨jobs, hins, rfl⟩ := h
    exact ⟨_, jobs, _, hpending, rfl, rfl, hins, rfl⟩
  · cases hres

lemma submitJob_inv {cfg : Settings} {ws : Uuid} {payload : SubmitJobRequest}
    (h : submitJob cfg db ws payload = .ok db') : Submitted cfg db db' := by
  unfold submitJob at h
  simp only [bind_eq_ok] at h
  obtain ⟨-, -, -, -, db₁, hq, h⟩ := h
  exact .intro hq h

lemma rerunJob_inv {cfg : Settings} {jobId : Uuid} (h : rerunJob cfg db jobId = .ok db') :
    Submitted cfg db db' := by
  unfold rerunJob at h
  simp only [bind_eq_ok] at h
  obtain ⟨job, -, -, -, db₁, hq, h⟩ := h
  exact .intro hq h

lemma cancelJob_inv {jobId : Uuid} (h : cancelJob db jobId = .ok db') :
    db' = db ∨ ∃ j events, db.jobs.get jobId = some j ∧ cancelRequested ∈ contract j.state ∧
      db' = { db with
        jobs := db.jobs.set jobId (fun j => { j with state := .cancelRequested, updatedAt := db.now })
        outbox := events } := by
  unfold cancelJob at h
  simp only [bind_eq_ok, orError_eq_ok] at h
  obtain ⟨j, hj, h⟩ := h
  split at h
  · exact .inl (pure_eq_ok.mp h).symm
  · split at h
    · cases h
    · rename_i hv
      exact .inr ⟨j, _, hj, (validateJobTransition_ok _ _).mp hv, (pure_eq_ok.mp h).symm⟩

lemma requeueRetryWaitJob_inv {base now : Time} {r : RetryJob}
    (h : requeueRetryWaitJob db base now r = some db') :
    r.updatedAt + retryBackoff base r.attemptNumber ≤ now ∧ ∃ j dead, db.jobs.get r.id = some j ∧
      j.state = retryWait ∧
      db' = { db with
        jobs := db.jobs.set r.id (fun j => { j with state := .queued, updatedAt := now })
        deadLetters := dead } := by
  unfold requeueRetryWaitJob at h
  split at h
  · rename_i hb
    obtain ⟨⟨j', db₁⟩, hu, rfl⟩ := Option.map_eq_some_iff.mp h
    obtain ⟨j, dead, hj, hst, -, rfl⟩ := updateJob_inv hu
    exact ⟨hb, j, dead, hj, by simpa using hst, rfl⟩
  · cases h

lemma confirmJobRecovery_inv {jobId : Uuid} {shouldRetry isCancel : Bool}
    (h : confirmJobRecovery db jobId shouldRetry isCancel = .ok db') :
    ∃ j dead, db.jobs.get jobId = some j ∧ recoveryTarget shouldRetry isCancel ∈ contract j.state ∧
      db' = { db with
        jobs := db.jobs.set jobId (fun j =>
          { j with state := recoveryTarget shouldRetry isCancel, updatedAt := db.now })
        deadLetters := dead
        reservations := (releaseReservation db j.workspaceId .concurrentJob).reservations } := by
  unfold confirmJobRecovery at h
  simp only [bind_eq_ok, orError_eq_ok, pure_eq_ok] at h
  obtain ⟨⟨j', db₁⟩, hu, h⟩ := h
  obtain ⟨j, dead, hj, hst, rfl, rfl⟩ := updateJob_inv hu
  have hedge : recoveryTarget shouldRetry isCancel ∈ contract j.state := by
    simpa using (mem_legalSources _ _).mp hst
  exact ⟨j, _, hj, hedge, h.symm⟩

/-- The rows that an admission reads and writes: the job, the new attempt, its intent and its reservation. -/
structure Admission (db : Db) (job : UnadmittedJob) (j : Job) (a : JobAttempt) (i : ExecutionIntent)
    (q : QuotaReservation) (db' : Db) : Prop where
  budget : job.currentAttemptNumber + 1 ≤ job.maxRetries + 1
  unused : ∀ b ∈ db.attempts.rows, b.jobId = job.jobId → b.attemptNumber ≠ job.currentAttemptNumber + 1
  row : db.jobs.get job.jobId = some j
  queued : j.state = queued
  attempt : a.id = db.nextUuid ∧ a.jobId = job.jobId ∧ a.attemptNumber = job.currentAttemptNumber + 1 ∧
    a.state = admitted
  workspace : a.workspaceId = job.workspaceId
  intent : i.id = db.nextUuid + 1 ∧ i.resourceId = a.id ∧ i.targetGeneration = a.attemptNumber ∧
    i.deterministicResourceName = .job job.jobId a.attemptNumber ∧ i.status = .pending ∧ i.leaseEpoch = 0
  reservation : q.id = db.nextUuid + 2 ∧ q.workspaceId = job.workspaceId ∧ q.resourceClass = .concurrentJob
  attempts : db.attempts.insert a = some db'.attempts
  intents : db.jobIntents.insert i = some db'.jobIntents
  reservations : (expireStaleReservations db job.workspaceId).reservations.insert q = some db'.reservations
  commit : db' = { db with
    attempts := db'.attempts, jobIntents := db'.jobIntents, deadLetters := db'.deadLetters
    reservations := db'.reservations
    jobs := db.jobs.set job.jobId (fun j =>
      { j with state := .admitted, currentAttemptNumber := job.currentAttemptNumber + 1, updatedAt := db.now })
    nextUuid := db.nextUuid + 3 }

/-- An admission takes its job out of the queued ones and puts it into the admitted ones. -/
lemma Admission.count_jobs {job : UnadmittedJob} {j : Job} {a : JobAttempt} {i : ExecutionIntent}
    {q : QuotaReservation} (h : Admission db job j a i q db') (ws : Uuid) (states : List JobState) :
    countJobs db' ws states + (decide (j.workspaceId = ws) && decide (JobState.queued ∈ states)).toNat =
      countJobs db ws states + (decide (j.workspaceId = ws) && decide (JobState.admitted ∈ states)).toNat := by
  have hcount := Table.count_set h.row (f := fun j : Job =>
    { j with state := .admitted, currentAttemptNumber := job.currentAttemptNumber + 1, updatedAt := db.now })
    (fun _ => rfl) (fun j => j.workspaceId = ws && j.state ∈ states)
  rw [h.queued] at hcount
  rw [congrArg (fun d : Db => countJobs d ws states) h.commit]
  exact hcount

lemma createJobAttemptIntent_inv {job : UnadmittedJob} {i : ExecutionIntent}
    (h : createJobAttemptIntent db job = .ok (some (i, db'))) : ∃ j a q, Admission db job j a i q db' := by
  unfold createJobAttemptIntent at h
  simp only [bind_eq_ok, ensure_eq_ok] at h
  obtain ⟨-, hbudget, h⟩ := h
  split at h
  · cases h
  · rename_i hfree
    simp only [bind_eq_ok, orError_eq_ok] at h
    obtain ⟨attempts, hains, h⟩ := h
    split at h
    · cases h
    · rename_i j' db₁ hu
      obtain ⟨j, dead, hj, hst, -, rfl⟩ := updateJob_inv hu
      split at h
      · cases h
      · simp only [bind_eq_ok, orError_eq_ok, pure_eq_ok, Option.some.injEq, Prod.mk.injEq] at h
        obtain ⟨intents, hiins, db₃, hres, rfl, rfl⟩ := h
        obtain ⟨q, res, hqid, hqws, hqcls, hq, rfl⟩ := insertReservation_inv hres
        refine ⟨j, _, q, hbudget, fun b hb hjob hnum => hfree ?_, hj, by simpa using hst,
          ⟨rfl, rfl, rfl, rfl⟩, rfl, ⟨rfl, rfl, rfl, rfl, rfl, rfl⟩, ⟨hqid, hqws, hqcls⟩, hains, hiins, hq, rfl⟩
        exact List.any_eq_true.mpr ⟨b, hb, by simp [hjob, hnum]⟩

lemma beginRecoveryJob_inv {item : ExpiredJobRecoveryInfo} (h : beginRecoveryJob db item = .ok db') :
    (item.jobState ≠ running ∧ db' = db) ∨
    ∃ j dead, item.jobState = running ∧ db.jobs.get item.jobId = some j ∧ j.state = running ∧
      db' = { db with
        jobs := db.jobs.set item.jobId (fun j => { j with state := .recoveryPending, updatedAt := db.now })
        deadLetters := dead } := by
  unfold beginRecoveryJob at h
  split at h
  · rename_i hrun
    split at h
    · rename_i j' db₁ hu
      cases h
      obtain ⟨j, dead, hj, hst, -, rfl⟩ := updateJob_inv hu
      exact .inr ⟨j, dead, hrun, hj, by simpa using hst, rfl⟩
    · cases h
  · rename_i hrun
    cases h
    exact .inl ⟨hrun, rfl⟩

lemma beginJobRecovery_inv {item : ExpiredJobRecoveryInfo} (h : beginJobRecovery db item = .ok db') :
    ∃ db₁ a i, beginRecoveryJob db item = .ok db₁ ∧
      db.attempts.get item.attemptId = some a ∧ (a.state = starting ∨ a.state = running) ∧
      db.jobIntents.get item.intentId = some i ∧ i.leaseEpoch = item.leaseEpoch ∧ i.status = .claimed ∧
      i.leaseExpired db.now = true ∧
      db' = { db₁ with
        attempts := db.attempts.set item.attemptId (finalizeExpired item db.now)
        jobIntents := db.jobIntents.set item.intentId (fun i =>
          { i with status := .terminated, updatedAt := db.now }) } := by
  unfold beginJobRecovery at h
  simp only [bind_eq_ok, orError_eq_ok, pure_eq_ok] at h
  obtain ⟨db₁, hdb₁, ⟨a, attempts⟩, ha, ⟨i, intents⟩, hi, rfl⟩ := h
  obtain ⟨haget, hast, rfl⟩ := Table.modify_eq_some.mp ha
  obtain ⟨higet, hist, rfl⟩ := Table.modify_eq_some.mp hi
  simp only [ExecutionIntent.fenced, Bool.and_eq_true, decide_eq_true_eq] at hist
  obtain ⟨hat, hint⟩ : db₁.attempts = db.attempts ∧ db₁.jobIntents = db.jobIntents := by
    rcases beginRecoveryJob_inv hdb₁ with ⟨-, rfl⟩ | ⟨j, dead, -, -, -, rfl⟩ <;> exact ⟨rfl, rfl⟩
  rw [hat] at haget
  rw [hint] at higet
  exact ⟨db₁, a, i, hdb₁, haget, by simpa using hast, higet, hist.1.1, hist.1.2, hist.2, by rw [hat, hint]⟩

lemma nextJobIntent_inv {wss locked : List Uuid} {i : ExecutionIntent} {a : JobAttempt} {j : Job}
    (h : nextJobIntent db wss locked = some (i, a, j)) :
    db.jobIntents.get i.id = some i ∧ i.status = .pending ∧ db.attempts.get i.resourceId = some a ∧
      db.jobs.get a.jobId = some j := by
  obtain ⟨ei, hmem, hei⟩ := List.exists_of_findSome?_eq_some h
  split at hei
  · rename_i hc
    split at hei
    · cases hei
    · rename_i ja hja
      obtain ⟨j', hj', he⟩ := Option.map_eq_some_iff.mp hei
      simp only [Prod.mk.injEq] at he
      obtain ⟨rfl, rfl, rfl⟩ := he
      exact ⟨Table.get_of_mem (mem_orderBy.mp hmem), hc.1, hja, hj'⟩
  · cases hei

lemma claimNextJobAttempt_inv {workerId : String} {lease : Time} {wss locked : List Uuid}
    {wl : ClaimedJobWorkload} (h : claimNextJobAttempt db workerId lease wss locked = some (wl, db')) :
    ∃ i a j jobs dead, nextJobIntent db wss locked = some (i, a, j) ∧
      wl = ⟨i.id, a.id, j.id, a.workspaceId, j.timeoutSeconds, j.maxRetries, a.attemptNumber,
        i.deterministicResourceName, i.leaseEpoch + 1⟩ ∧
      db' = { db with
        jobs := jobs, deadLetters := dead
        attempts := db.attempts.set a.id (JobAttempt.claim (i.leaseEpoch + 1) db.now)
        jobIntents := db.jobIntents.set i.id (ExecutionIntent.claim workerId lease db.now) } ∧
      ((j.state = admitted ∨ j.state = cancelRequested) ∧ jobs = db.jobs.set j.id (Job.claim db.now) ∨
        j.state ≠ admitted ∧ jobs = db.jobs) := by
  unfold claimNextJobAttempt at h
  split at h
  · cases h
  · rename_i i a j hnext
    simp only [Option.some.injEq, Prod.mk.injEq] at h
    obtain ⟨rfl, rfl⟩ := h
    obtain ⟨-, -, -, hj⟩ := nextJobIntent_inv hnext
    have hjid : db.jobs.get j.id = some j := by rwa [Table.key_of_get hj]
    split
    · rename_i hu
      refine ⟨i, a, j, _, _, hnext, rfl, rfl, .inr ⟨?_, rfl⟩⟩
      intro hadm
      simp [updateJob, Table.modify, hjid, hadm] at hu
    · rename_i j' db₂ hu
      obtain ⟨j₀, dead, hj₀, hst, -, rfl⟩ := updateJob_inv hu
      obtain rfl : j₀ = j := Option.some.inj (hj₀.symm.trans hjid)
      exact ⟨i, a, j₀, _, dead, hnext, rfl, rfl, .inl ⟨by simpa using hst, rfl⟩⟩

lemma markJobAttemptRunning_inv {intentId attemptId jobId : Uuid} {epoch : Nat}
    (h : markJobAttemptRunning db intentId attemptId jobId epoch = .ok db') :
    ∃ i a j dead, db.jobIntents.get intentId = some i ∧ i.leaseEpoch = epoch ∧ i.status = .claimed ∧
      db.attempts.get attemptId = some a ∧ a.state = starting ∧
      db.jobs.get jobId = some j ∧ j.state = starting ∧
      db' = { db with
        deadLetters := dead
        jobIntents := db.jobIntents.set intentId (fun i => { i with updatedAt := db.now })
        attempts := db.attempts.set attemptId (fun a => { a with state := .running, updatedAt := db.now })
        jobs := db.jobs.set jobId (fun j => { j with state := .running, updatedAt := db.now }) } := by
  unfold markJobAttemptRunning at h
  simp only [bind_eq_ok, orError_eq_ok, pure_eq_ok] at h
  obtain ⟨db₁, hfence, ⟨a, attempts⟩, ha, ⟨j', db₂⟩, hu, rfl⟩ := h
  obtain ⟨-, i, hi, hep, hst, rfl⟩ := fenceJobIntent_inv hfence
  obtain ⟨haget, hast, rfl⟩ := Table.modify_eq_some.mp ha
  obtain ⟨j, dead, hj, hsrc, -, rfl⟩ := updateJob_inv hu
  exact ⟨i, a, j, dead, hi, hep, hst, haget, by simpa using hast, hj, by simpa using hsrc, rfl⟩

/-- The job row after an executor has ended its attempt. -/
def finishJob (o : Outcome) (now : Time) (j : Job) : Job :=
  { j with state := o.jobState j.state, updatedAt := now }

/-- What the three transactions that end an attempt have in common. -/
def Finished (db : Db) (intentId attemptId jobId : Uuid) (epoch : Nat) (o : Outcome) (db' : Db) : Prop :=
  ∃ i j f hf g hg k hk dead events, db.jobIntents.get intentId = some i ∧ i.leaseEpoch = epoch ∧
    i.status = .claimed ∧ db.jobs.get jobId = some j ∧ j.state ∈ o.sources ∧
    (∀ i, (f i).spec = i.spec ∧ (f i).leaseEpoch = i.leaseEpoch ∧ (f i).status = o.intentStatus) ∧
    (∀ a, (g a).spec = a.spec ∧ (g a).state = o.attemptState) ∧ k j = finishJob o db.now j ∧
    db' = { db with
      jobIntents := db.jobIntents.set intentId f hf, attempts := db.attempts.set attemptId g hg
      jobs := db.jobs.set jobId k hk, deadLetters := dead, outbox := events
      reservations := (releaseReservation db j.workspaceId .concurrentJob).reservations }

lemma Finished.intro {intentId attemptId jobId : Uuid} {epoch : Nat} {o : Outcome}
    {f : ExecutionIntent → ExecutionIntent} {hf : ∀ i, (f i).id = i.id} {g : JobAttempt → JobAttempt}
    {hg : ∀ a, (g a).id = a.id} {sources : List JobState} {k : Job → Job} {hk : ∀ j, (k j).id = j.id}
    {db₁ db₂ db₃ : Db} {j' : Job} {dead : Table DeadLetterRecord.jobId} {events : List OutboxEvent}
    (hfence : fenceJobIntent db intentId epoch f hf = .ok db₁)
    (hjob : updateJob { db₁ with attempts := db₁.attempts.set attemptId g hg } jobId sources k hk =
      some (j', db₂))
    (hsources : sources = o.sources)
    (hintent : ∀ i, (f i).spec = i.spec ∧ (f i).leaseEpoch = i.leaseEpoch ∧ (f i).status = o.intentStatus)
    (hattempt : ∀ a, (g a).spec = a.spec ∧ (g a).state = o.attemptState)
    (hstate : ∀ j, j.state ∈ o.sources → k j = finishJob o db.now j)
    (hlast : db₃ = { db₂ with deadLetters := dead, outbox := events })
    (hdb : db' = releaseReservation db₃ j'.workspaceId .concurrentJob) :
    Finished db intentId attemptId jobId epoch o db' := by
  obtain ⟨-, i, hi, hep, hst, rfl⟩ := fenceJobIntent_inv hfence
  obtain ⟨j, dead', hj, hsrc, rfl, rfl⟩ := updateJob_inv hjob
  rw [hsources] at hsrc
  have hws : (k j).workspaceId = j.workspaceId := by rw [hstate j hsrc]; rfl
  rw [hws, hlast] at hdb
  exact ⟨i, j, f, hf, g, hg, k, hk, dead, events, hi, hep, hst, hj, hsrc, hintent, hattempt, hstate j hsrc, hdb⟩

lemma markJobAttemptSucceeded_inv {intentId attemptId jobId : Uuid} {uid : String} {epoch : Nat}
    (h : markJobAttemptSucceeded db intentId attemptId jobId uid epoch = .ok db') :
    Finished db intentId attemptId jobId epoch .succeeded db' := by
  unfold markJobAttemptSucceeded at h
  simp only [bind_eq_ok, orError_eq_ok, pure_eq_ok] at h
  obtain ⟨db₁, hfence, ⟨j', db₂⟩, hu, attempt, _, job, _, hdb⟩ := h
  refine Finished.intro hfence hu legalSources_succeeded_cancelled (fun i => ⟨rfl, rfl, rfl⟩)
    (fun a => ⟨rfl, rfl⟩) (fun j _ => ?_) rfl hdb.symm
  cases hs : j.state <;> simp [finishJob, Outcome.jobState, hs]

lemma markJobAttemptFailed_inv {intentId attemptId jobId : Uuid} {reason : String} {exitCode : Int}
    {epoch : Nat} {retry : Bool}
    (h : markJobAttemptFailed db intentId attemptId jobId reason exitCode epoch retry = .ok db') :
    Finished db intentId attemptId jobId epoch (.failed retry) db' := by
  unfold markJobAttemptFailed at h
  simp only [bind_eq_ok, orError_eq_ok, pure_eq_ok] at h
  obtain ⟨db₁, hfence, -, -, ⟨j', db₂⟩, hu, hdb⟩ := h
  refine Finished.intro hfence hu legalSources_retryWait_failed_cancelled (fun i => ⟨rfl, rfl, rfl⟩)
    (fun a => ⟨rfl, rfl⟩) (fun j _ => ?_) rfl hdb.symm
  cases hs : j.state <;> simp [finishJob, Outcome.jobState, hs]

lemma markJobAttemptCancelled_inv {intentId attemptId jobId : Uuid} {epoch : Nat}
    (h : markJobAttemptCancelled db intentId attemptId jobId epoch = .ok db') :
    Finished db intentId attemptId jobId epoch .cancelled db' := by
  unfold markJobAttemptCancelled at h
  simp only [bind_eq_ok, orError_eq_ok, pure_eq_ok] at h
  obtain ⟨db₁, hfence, ⟨j', db₂⟩, hu, hdb⟩ := h
  refine Finished.intro hfence hu legalSources_cancelled (fun i => ⟨rfl, rfl, rfl⟩)
    (fun a => ⟨rfl, rfl⟩) (fun j hj => ?_) rfl hdb.symm
  have hcr : j.state = cancelRequested := by simpa [Outcome.sources] using hj
  simp [finishJob, Outcome.jobState, hcr]

end HamiCloud.Proofs
