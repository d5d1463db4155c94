import HamiCloud.Proofs.Events
import HamiCloud.Proofs.DeadLetters

/-!
# The events of attempts

`MarkJobAttemptSucceeded` and `MarkJobAttemptFailed` announce how an attempt has ended, in the transaction that
ends it. `BeginJobRecovery` fails an attempt and announces nothing, and the event of a failure claims to be
retryable even when the job is being cancelled. Without these two the events are complete and truthful.
-/

namespace HamiCloud

open JobState

/-- The event says that the attempt has ended in the given state. -/
def OutboxPayload.endsAttempt (s : JobState) (attemptId : Uuid) : OutboxPayload → Bool
  | .jobAttemptFailed _ x _ _ _ _ => s = failed && x = attemptId
  | .jobAttemptSucceeded _ x _ _ => s = succeeded && x = attemptId
  | _ => false

end HamiCloud

namespace HamiCloud.Proofs

open Library JobState

variable {cfg : Settings} {db db' : Db}

/-- The number of events of the outbox that say so. -/
def endEvents (db : Db) (s : JobState) (attemptId : Uuid) : Nat :=
  db.outbox.countP fun e => e.payload.endsAttempt s attemptId

/-- Each attempt has one event of its failure if it has failed, one of its success if it has succeeded, and no
others. -/
def EventsComplete (db : Db) : Prop :=
  ∀ a ∈ db.attempts.rows, endEvents db failed a.id = (if a.state = failed then 1 else 0) ∧
    endEvents db succeeded a.id = if a.state = succeeded then 1 else 0

/-- The job waits to be retried, or is on the path of a recovery with retries remaining. -/
def retryPossible (db : Db) (jobId : Uuid) : Bool :=
  (db.jobs.get jobId).any fun j =>
    j.state = retryWait || (isRecoverable j.state && j.currentAttemptNumber ≤ j.maxRetries)

/-- The failures that a transaction announces are failures it has caused, and each is announced as retryable
exactly when the transaction leaves a retry possible. -/
def EventsTruthful (db db' : Db) : Prop :=
  ∃ new, db'.outbox = db.outbox ++ new ∧ ∀ e ∈ new, ∀ jobId attemptId n exitCode reason isRetryable,
    e.payload = .jobAttemptFailed jobId attemptId n exitCode reason isRetryable →
    (db.attempts.get attemptId).any (fun a => a.state = failed) = false ∧
    (db'.attempts.get attemptId).any (fun a => a.state = failed) = true ∧ isRetryable = retryPossible db' jobId

/-- No recovery fails an attempt, and no attempt with retries left fails under a job that is being cancelled. -/
def announcesFailures (w : World) : Action → Bool
  | .job (.beginJobRecovery item) => item.isCancel
  | .job (.markJobAttemptFailed wl _ _) => !((decide (wl.attemptNumber ≤ wl.maxRetries)) &&
      (w.db.jobs.get wl.jobId).any (fun j => j.state = cancelRequested))
  | _ => true

/-! ### The invariant -/

/-- The attempt is in the given state. -/
def inState (db : Db) (s : JobState) (k : Uuid) : Bool := (db.attempts.get k).any fun a => a.state = s

/-- The states that events announce. -/
def isAnnounced (s : JobState) : Bool := s ∈ [succeeded, failed]

def EventsInv (db : Db) : Prop :=
  ∀ s k, isAnnounced s = true → endEvents db s k = (inState db s k).toNat

lemma inState_eq {s : JobState} {k : Uuid} {a : JobAttempt} (ha : db.attempts.get k = some a) :
    inState db s k = decide (a.state = s) := by
  simp [inState, ha]

lemma isAnnounced.ended {s : JobState} (h : isAnnounced s = true) : s.hasEnded = true := by
  revert h
  cases s <;> decide

lemma EventsInv.complete (h : EventsInv db) : EventsComplete db := by
  intro a ha
  have hget := Table.get_of_mem ha
  rw [h failed a.id rfl, h succeeded a.id rfl, inState_eq hget, inState_eq hget]
  constructor
  · by_cases hs : a.state = failed <;> simp [hs]
  · by_cases hs : a.state = succeeded <;> simp [hs]

lemma endEvents_append {new : List OutboxEvent} (h : db'.outbox = db.outbox ++ new) (s : JobState) (k : Uuid) :
    endEvents db' s k = endEvents db s k + new.countP (fun e => e.payload.endsAttempt s k) := by
  rw [endEvents, h, List.countP_append, endEvents]

/-- A step that announces no end of an attempt, and brings none about. -/
lemma EventsInv.quiet {new : List OutboxEvent} (h : EventsInv db) (hgrow : db'.outbox = db.outbox ++ new)
    (hnew : ∀ e ∈ new, ∀ s k, e.payload.endsAttempt s k = false)
    (hstate : ∀ s k, isAnnounced s = true → inState db' s k = inState db s k) : EventsInv db' := by
  intro s k hs
  have hnone : new.countP (fun e => e.payload.endsAttempt s k) = 0 := by
    rw [List.countP_eq_zero]
    intro e he
    simp [hnew e he s k]
  rw [endEvents_append hgrow, hnone, hstate s k hs, h s k hs, Nat.add_zero]

/-- A step that ends one attempt and says so. -/
lemma EventsInv.ends {e : OutboxEvent} {s₀ : JobState} {k₀ : Uuid} {a a' : JobAttempt} (h : EventsInv db)
    (hgrow : db'.outbox = db.outbox ++ [e])
    (he : ∀ s k, e.payload.endsAttempt s k = (decide (s = s₀) && decide (k₀ = k)))
    (ha : db.attempts.get k₀ = some a) (hactive : a.state.hasEnded = false)
    (hget : db'.attempts.get = Function.update db.attempts.get k₀ (some a')) (hst : a'.state = s₀) :
    EventsInv db' := by
  intro s k hs
  rw [endEvents_append hgrow, h s k hs, List.countP_singleton, he]
  by_cases hk : k = k₀
  · subst hk
    have hold : inState db s k = false := by
      rw [inState_eq ha, decide_eq_false_iff_not]
      rintro rfl
      rw [isAnnounced.ended hs] at hactive
      cases hactive
    have hnew : inState db' s k = decide (s = s₀) := by
      rw [inState_eq (show db'.attempts.get k = some a' by rw [hget, Function.update_self]), hst]
      exact decide_eq_decide.mpr eq_comm
    rw [hold, hnew]
    by_cases hss : s = s₀ <;> simp [hss]
  · have hsame : inState db' s k = inState db s k := by
      rw [inState, hget, Function.update_of_ne hk, inState]
    rw [hsame]
    simp [Ne.symm hk]

/-! ### Steps -/

lemma plain_endsAttempt {p : OutboxPayload} (h : p.isPlain = true) (s : JobState) (k : Uuid) :
    p.endsAttempt s k = false := by
  cases p <;> first | rfl | cases h

lemma inState_iff {s : JobState} {k : Uuid} :
    inState db s k = true ↔ ∃ a, db.attempts.get k = some a ∧ a.state = s := by
  simp [inState, Option.any_eq_true]

section Steps

variable {w : World} {b : JobAction} {c' : JobClients}

lemma jobStep_inState (hw : WorldOK w) (hstep : jobStep cfg w.db w.jobs b = some (db', c'))
    (hends : ∀ a, Ends b a → isAnnounced a.state = false) (s : JobState) (k : Uuid) (hs : isAnnounced s = true) :
    inState db' s k = inState w.db s k := by
  have href := jobStep_refines hw.jobClients hstep
  rw [Bool.eq_iff_iff, inState_iff, inState_iff]
  constructor
  · rintro ⟨a, ha, rfl⟩
    rcases jobStep_ended hstep ha (isAnnounced.ended hs) with hold | hend
    · exact ⟨a, hold, rfl⟩
    · rw [hends a hend] at hs
      cases hs
  · rintro ⟨a, ha, rfl⟩
    exact ⟨a, ended_attempt_kept href hw.jobs ha (isAnnounced.ended hs), rfl⟩

/-- The attempt of a workload that still passes the fence is active. -/
lemma claimed_active {wl : ClaimedJobWorkload} {i : ExecutionIntent} (hw : WorldOK w) (hmem : wl ∈ w.jobs.claims)
    (hi : w.db.jobIntents.get wl.intentId = some i) (hst : i.status = .claimed) :
    ∃ a, w.db.attempts.get wl.jobAttemptId = some a ∧ a.state.hasEnded = false := by
  obtain ⟨i', a, -, hi', hres, ha, -⟩ := hw.jobClients.claims wl hmem
  obtain rfl : i = i' := Option.some.inj (hi.symm.trans hi')
  have hadmits := hw.jobs.status hi' (hres ▸ ha)
  refine ⟨a, ha, ?_⟩
  rw [hst] at hadmits
  rcases hadmits with hs | hs <;> rw [hs] <;> rfl

lemma retryPossible_failed {jobId : Uuid} {retry : Bool} {now : Time} {j : Job}
    (hj : db'.jobs.get jobId = some (finishJob (.failed retry) now j)) (hsrc : j.state ∈ (Outcome.failed retry).sources)
    (hguard : retry = true → j.state ≠ cancelRequested) : retryPossible db' jobId = retry := by
  rw [retryPossible, hj, Option.any_some, finishJob]
  cases retry <;> cases hs : j.state <;> simp [hs, Outcome.sources] at hsrc hguard <;>
    simp [Outcome.jobState, isRecoverable]

lemma truthful_of_quiet {new : List OutboxEvent} (hgrow : db'.outbox = db.outbox ++ new)
    (hnew : ∀ e ∈ new, ∀ s k, e.payload.endsAttempt s k = false) : EventsTruthful db db' := by
  refine ⟨new, hgrow, fun e he jobId attemptId n exitCode reason isRetryable hp => ?_⟩
  have hno := hnew e he failed attemptId
  simp [hp, OutboxPayload.endsAttempt] at hno

lemma EventsInv.failure {wl : ClaimedJobWorkload} {reason : String} {exitCode : Int} {n : Nat} {e : OutboxEvent}
    (h : EventsInv w.db) (hw : WorldOK w)
    (hguard : announcesFailures w (.job (.markJobAttemptFailed wl reason exitCode)) = true)
    (hstep : jobStep cfg w.db w.jobs (.markJobAttemptFailed wl reason exitCode) = some (db', c'))
    (hgrow : db'.outbox = w.db.outbox ++ [e])
    (he : e.payload = .jobAttemptFailed wl.jobId wl.jobAttemptId n exitCode reason (wl.attemptNumber ≤ wl.maxRetries)) :
    EventsInv db' ∧ EventsTruthful w.db db' := by
  obtain ⟨hmem, hdb, -⟩ := held_commit_inv hstep
  obtain ⟨i, -, -, -, -, -, -, -, -, -, hi, -, hst, -⟩ := markJobAttemptFailed_inv hdb
  obtain ⟨a, ha, hactive⟩ := claimed_active hw hmem hi hst
  have hget := (congrArg (fun t : Table JobAttempt.id => t.get) (markJobAttemptFailed_attempts hdb)).trans
    (Table.get_set_eq_update ha)
  refine ⟨h.ends hgrow (fun s k => by rw [he]; rfl) ha hactive hget rfl, [e], hgrow, ?_⟩
  intro e' he' jobId attemptId m code reason' isRetryable hp
  rw [List.mem_singleton.mp he', he] at hp
  obtain ⟨rfl, rfl, -, -, -, rfl⟩ := OutboxPayload.jobAttemptFailed.inj hp
  obtain ⟨j, hj, hsrc, hj'⟩ := finished_job (markJobAttemptFailed_inv hdb)
  refine ⟨?_, by simp [hget], (retryPossible_failed hj' hsrc fun hretry hcr => ?_).symm⟩
  · rw [ha, Option.any_some, decide_eq_false_iff_not]
    intro hf
    simp [hf, JobState.hasEnded] at hactive
  · simp only [decide_eq_true_eq] at hretry
    simp [announcesFailures, hretry, hj, hcr] at hguard

lemma EventsInv.jobStep (h : EventsInv w.db) (hw : WorldOK w) (hguard : announcesFailures w (.job b) = true)
    (hstep : jobStep cfg w.db w.jobs b = some (db', c')) : EventsInv db' ∧ EventsTruthful w.db db' := by
  obtain ⟨new, hgrow, hann⟩ := jobStep_outbox hstep
  cases hann with
  | plain _ _ hplain hnew =>
    have hquiet : ∀ e ∈ new, ∀ s k, e.payload.endsAttempt s k = false :=
      fun e he => plain_endsAttempt (hnew e he)
    refine ⟨h.quiet hgrow hquiet (jobStep_inState hw hstep fun a hends => ?_), truthful_of_quiet hgrow hquiet⟩
    cases hends with
    | succeeded wl uid => cases hplain
    | failed wl reason exitCode => cases hplain
    | cancelled wl _ _ hs => rw [hs]; rfl
    | expired item now a =>
      have hcr : item.jobState = cancelRequested := of_decide_eq_true hguard
      simp [finalizeExpired, hcr, isAnnounced]
  | alreadyCancelled jobId hsame =>
    rw [hsame]
    exact ⟨h, [], by simp, by simp⟩
  | cancelled jobId j e _ _ he =>
    have hquiet : ∀ e' ∈ [e], ∀ s k, e'.payload.endsAttempt s k = false := by
      intro e' he' s k
      rw [List.mem_singleton.mp he', he]
      rfl
    refine ⟨h.quiet hgrow hquiet (jobStep_inState hw hstep fun a hends => ?_), truthful_of_quiet hgrow hquiet⟩
    cases hends
  | succeeded wl uid n e he =>
    obtain ⟨hmem, hdb, -⟩ := held_commit_inv hstep
    obtain ⟨i, -, -, -, -, -, -, -, -, -, hi, -, hst, -⟩ := markJobAttemptSucceeded_inv hdb
    obtain ⟨a, ha, hactive⟩ := claimed_active hw hmem hi hst
    have hget := (congrArg (fun t : Table JobAttempt.id => t.get) (markJobAttemptSucceeded_attempts hdb)).trans
      (Table.get_set_eq_update ha)
    refine ⟨h.ends hgrow (fun s k => by rw [he]; rfl) ha hactive hget rfl, [e], hgrow, ?_⟩
    intro e' he' jobId attemptId m code reason isRetryable hp
    rw [List.mem_singleton.mp he', he] at hp
    cases hp
  | failed wl reason exitCode n e he => exact h.failure hw hguard hstep hgrow he

theorem EventsInv.step {w w' : World} {a : Action} (h : EventsInv w.db) (hw : WorldOK w)
    (hguard : announcesFailures w a = true) (hstep : (system cfg).step w a = some w') :
    EventsInv w'.db ∧ EventsTruthful w.db w'.db := by
  rcases step_cases hstep with ⟨d, rfl, rfl⟩ | ⟨b, db', c', rfl, hjob, rfl⟩ | ⟨b, db', c', rfl, hserv, rfl⟩
  · exact ⟨h, [], by simp [Db.tick], by simp⟩
  · exact h.jobStep hw hguard hjob
  · have hattempts : db'.attempts = w.db.attempts := by
      have hframe := serviceStep_jobs hserv
      simp only [jobFrame, Prod.mk.injEq] at hframe
      exact hframe.2.2.1
    obtain ⟨new, hgrow, hann⟩ := serviceStep_outbox hserv
    have hquiet : ∀ e ∈ new, ∀ s k, e.payload.endsAttempt s k = false := by
      intro e he s k
      cases hann with
      | plain _ _ _ hnew => exact plain_endsAttempt (hnew e he) s k
      | deployed b appId app release digest config rollbackOf e' _ _ hp =>
        rw [List.mem_singleton.mp he, hp]
        rfl
    exact ⟨h.quiet hgrow hquiet fun s k _ => by rw [inState, hattempts, inState], truthful_of_quiet hgrow hquiet⟩

end Steps

/-! ### Runs -/

/-- In every run in which no recovery fails an attempt, and no attempt with retries left fails under a job that
is being cancelled, the events of attempts are complete, and each step's are truthful. -/
theorem attempt_events (cfg : Settings) {w : World}
    (h : (system cfg).Reach (fun w a => announcesFailures w a = true) w) :
    EventsComplete w.db ∧ ∀ a w', announcesFailures w a = true → (system cfg).step w a = some w' →
      EventsTruthful w.db w'.db := by
  have hinit : EventsInv World.init.db := by
    intro s k _
    rfl
  obtain ⟨hinv, hok⟩ : EventsInv w.db ∧ WorldOK w := by
    refine h.invariant (P := fun u => EventsInv u.db ∧ WorldOK u) ⟨hinit, worldOK_init⟩ ?_
    rintro u a u' ⟨hu, hok⟩ hguard hstep
    exact ⟨(hu.step hok hguard hstep).1, hok.step hstep⟩
  exact ⟨hinv.complete, fun a w' hguard hstep => (hinv.step hok hguard hstep).2⟩

/-- Job `0` is submitted with two retries, and its first attempt is claimed. -/
def claimedRun : List Action :=
  [.job (.submitJob 100 ⟨"quay.io/tool", 600, 2⟩), .job (.scanUnadmittedJobs 50),
    .job (.createJobAttemptIntent ⟨0, 100, 600, 2, 0, .queued⟩),
    .job (.claimNextJobAttempt "executor-1" (30 * second) [] []),
    .job (.markJobAttemptRunning ⟨2, 1, 0, 100, 600, 2, 1, .job 0 1, 1⟩)]

/-- The first attempt fails and the second one succeeds. -/
def announcedRetry : List Action :=
  claimedRun ++
    [.job (.markJobAttemptFailed ⟨2, 1, 0, 100, 600, 2, 1, .job 0 1, 1⟩ "OOMKilled" 137), .tick (6 * second),
      .job (.scanRetryWaitJobs 50), .job (.requeueRetryWaitJob (6 * second) ⟨0, 1, 0⟩ (6 * second)),
      .job (.scanUnadmittedJobs 50), .job (.createJobAttemptIntent ⟨0, 100, 600, 2, 1, .queued⟩),
      .job (.claimNextJobAttempt "executor-2" (30 * second) [] []),
      .job (.markJobAttemptRunning ⟨5, 4, 0, 100, 600, 2, 2, .job 0 2, 1⟩),
      .job (.markJobAttemptSucceeded ⟨5, 4, 0, 100, 600, 2, 2, .job 0 2, 1⟩ "uid")]

def retried : (system Settings.default).Run announcesFailures where
  labels := announcedRetry
  executes := by decide +kernel

theorem attempt_events_retried : ∃ w, (system Settings.default).Reach (fun w a => announcesFailures w a = true) w ∧
    w.db.attempts.rows.map JobAttempt.state = [failed, succeeded] ∧ endEvents w.db failed 1 = 1 ∧
    EventsComplete w.db ∧ ∀ a w', announcesFailures w a = true →
      (system Settings.default).step w a = some w' → EventsTruthful w.db w'.db :=
  ⟨retried.final, retried.reach, by decide +kernel, by decide +kernel, attempt_events Settings.default retried.reach⟩

/-- The worker of the first attempt is lost, and its recovery begins. -/
def lostWorker : (system Settings.default).FreeRun where
  labels := claimedRun ++ [.tick (31 * second), .job .findExpiredJobIntents,
    .job (.beginJobRecovery ⟨2, 1, 0, 1, 2, 1, .running, .job 0 1, true, 0⟩)]
  executes := by decide +kernel

/-- The job is cancelled while its first attempt is running. -/
def cancelledRunning : (system Settings.default).FreeRun where
  labels := claimedRun ++ [.job (.cancelJob 0)]
  executes := by decide +kernel

/-- The failure of that attempt. -/
def failureUnderCancel : Action :=
  .job (.markJobAttemptFailed ⟨2, 1, 0, 100, 600, 2, 1, .job 0 1, 1⟩ "OOMKilled" 137)

def failedCancelled : World :=
  ((system Settings.default).step cancelledRunning.final failureUnderCancel).get (by decide +kernel)

/-- A lost worker leaves a failed attempt without an event, and the failure of an attempt under a cancelled job is
announced as retryable although the job ends. -/
theorem silent_recovery_and_false_retry :
    (∃ w, (system Settings.default).Reachable w ∧ ¬EventsComplete w.db) ∧
      ∃ w a w', (system Settings.default).Reachable w ∧ (system Settings.default).step w a = some w' ∧
        ¬EventsTruthful w.db w'.db := by
  constructor
  · refine ⟨lostWorker.final, lostWorker.reachable, fun h => ?_⟩
    have hstates : lostWorker.final.db.attempts.rows.map (fun a => (a.id, a.state)) = [(1, failed)] := by
      decide +kernel
    have hevents : endEvents lostWorker.final.db failed 1 = 0 := by decide +kernel
    obtain ⟨a, ha, he⟩ := List.mem_map.mp (hstates ▸ List.mem_singleton_self (1, failed))
    obtain ⟨hid, hst⟩ := Prod.mk.inj he
    have hone := (h a ha).1
    rw [hid, hevents, if_pos hst] at hone
    cases hone
  · refine ⟨cancelledRunning.final, failureUnderCancel, failedCancelled, cancelledRunning.reachable,
      (Option.some_get _).symm, ?_⟩
    rintro ⟨new, hgrow, htruth⟩
    have hpayloads : failedCancelled.db.outbox.map OutboxEvent.payload =
        cancelledRunning.final.db.outbox.map OutboxEvent.payload ++
          [.jobAttemptFailed 0 1 1 137 "OOMKilled" true] := by decide +kernel
    have hretry : retryPossible failedCancelled.db 0 = false := by decide +kernel
    rw [hgrow, List.map_append, List.append_cancel_left_eq] at hpayloads
    obtain ⟨e, he, hp⟩ := List.mem_map.mp (hpayloads ▸ List.mem_singleton_self _)
    have htrue := (htruth e he 0 1 1 137 "OOMKilled" true hp).2.2
    rw [hretry] at htrue
    cases htrue

end HamiCloud.Proofs
