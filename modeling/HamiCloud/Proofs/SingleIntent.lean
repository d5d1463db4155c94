import HamiCloud.Protocol.Exclusive
import HamiCloud.Proofs.WorldInvariant

/-!
# One live intent per job

`ConfirmJobRecovery` finds its job by identifier alone, so a pass that stalls between the two steps
of a recovery can send a later attempt of the job back to the queue while that attempt is still being
executed. A confirmation that still finds the attempt it recovers is harmless.
-/

namespace HamiCloud.Proofs

open Library JobState

variable {cfg : Settings}

/-- The live intents of a job. -/
def liveIntents (db : Db) (jobId : Uuid) : List ExecutionIntent :=
  db.jobIntents.rows.filter fun i =>
    i.status.isLive && (db.attempts.get i.resourceId).any (fun a => a.jobId = jobId)

/-- Each job has at most one live intent, and it belongs to the current attempt. -/
def SingleLiveIntent (db : Db) : Prop :=
  ∀ k j, db.jobs.get k = some j → ∀ i ∈ liveIntents db k,
    (db.attempts.get i.resourceId).map JobAttempt.attemptNumber = some j.currentAttemptNumber ∧
      ∀ i' ∈ liveIntents db k, i' = i

lemma live_of_mem {db : Db} {k : Uuid} {j : Job} {i : ExecutionIntent} (hj : db.jobs.get k = some j)
    (hi : i ∈ liveIntents db k) : ∃ a, Live (jobView db) i a j := by
  obtain ⟨hmem, hcond⟩ := List.mem_filter.mp hi
  simp only [Bool.and_eq_true, Option.any_eq_true, decide_eq_true_eq] at hcond
  obtain ⟨hlive, a, ha, hjob⟩ := hcond
  exact ⟨a, Table.get_of_mem hmem, hlive, ha, hjob ▸ hj⟩

lemma single_of_exclusive {db : Db} (h : Exclusive (jobView db)) (hwf : JobWF (jobView db)) :
    SingleLiveIntent db := by
  intro k j hj i hi
  obtain ⟨a, hl⟩ := live_of_mem hj hi
  have ha : db.attempts.get i.resourceId = some a := hl.attempt
  refine ⟨by rw [ha, Option.map_some, h.current hl], fun i' hi' => ?_⟩
  obtain ⟨a', hl'⟩ := live_of_mem hj hi'
  exact h.unique hwf hl' hl

/-! ### Recoveries that find their attempt -/

/-- A confirmation that sends a job back to the queue finds the attempt it recovers to be the current
one still; no other action is restricted. -/
def confirmsCurrent (w : World) : Action → Bool
  | .job (.confirmJobRecovery item deleteConfirmed) =>
    match recoveryShouldRetry w.db.now item deleteConfirmed with
    | some retry => recoveryTarget retry item.isCancel ≠ .retryWait ||
        (w.db.jobs.get item.jobId).any (fun j => j.currentAttemptNumber = item.attemptNumber)
    | none => true
  | _ => true

/-- Live intents are exclusive, and a recovery that has begun has closed its intent. -/
structure RecoveryInv (w : World) : Prop where
  exclusive : Exclusive (jobView w.db)
  begun : ∀ x ∈ w.jobs.begun, ∃ i, (jobView w.db).intent x.intentId = some i ∧ i.status.isFinal = true

lemma recoveryInv_init : RecoveryInv World.init where
  exclusive := by
    constructor
    · rintro i a j ⟨hi, -, -, -⟩
      cases hi
    · rintro i a j ⟨hi, -, -, -⟩
      cases hi
  begun x hx := by cases hx

/-- An item that is past the first step when it is scanned has a closed intent. -/
lemma final_of_scanned {db : Db} (h : Exclusive (jobView db)) {x : ExpiredJobRecoveryInfo}
    (hx : x ∈ findExpiredJobIntents db) (hbegun : x.needsBegin = false) :
    ∃ i, (jobView db).intent x.intentId = some i ∧ i.status.isFinal = true := by
  obtain ⟨i, a, j, hi, hres, ha, hjob, hj, hneeds, he⟩ := mem_findExpiredJobIntents hx
  refine ⟨i, hi, ?_⟩
  by_contra hf
  have hlive : i.status.isLive = true := IntentStatus.isLive_iff.mpr (by simpa using hf)
  have hid := Table.key_of_get hi
  have hl : Live (jobView db) i a j := ⟨hid ▸ hi, hlive, hres ▸ ha, hjob ▸ hj⟩
  have hstate := (h.state hl).2.2
  rw [he] at hbegun
  simp only [needsRecovery, Bool.and_eq_true, Bool.or_eq_true, decide_eq_true_eq] at hneeds
  rcases hneeds.2 with (⟨⟨hc, hexp⟩, -⟩ | hrp) | ⟨-, ht⟩
  · simp [hc, hexp] at hbegun
  · exact hstate hrp
  · simp [ht, IntentStatus.isFinal] at hf

lemma final_of_begun {db db' : Db} {item : ExpiredJobRecoveryInfo} (h : beginJobRecovery db item = .ok db') :
    ∃ i, (jobView db').intent item.intentId = some i ∧ i.status.isFinal = true := by
  obtain ⟨db₁, a, i, hdb₁, -, -, hi, -, -, -, rfl⟩ := beginJobRecovery_inv h
  exact ⟨_, Table.get_set_self hi, rfl⟩

/-- A job whose current attempt is past the first step of its recovery has no live intent. -/
lemma begun_idle {w : World} (hw : WorldOK w) (h : RecoveryInv w) {item : ExpiredJobRecoveryInfo} {j₀ : Job}
    (hmem : item ∈ w.jobs.begun) (hj₀ : w.db.jobs.get item.jobId = some j₀)
    (hcur : j₀.currentAttemptNumber = item.attemptNumber) {i : ExecutionIntent} {a : JobAttempt} {j : Job}
    (hl : Live (jobView w.db) i a j) : j.id ≠ item.jobId := by
  intro hjob
  obtain ⟨i₀, a₀, -, hi₀, hres₀, ha₀, hajob₀, hanum₀, -, -, -⟩ := hw.jobClients.begun item hmem
  obtain ⟨i₁, hi₁, hfinal⟩ := h.begun item hmem
  have haj : a.jobId = item.jobId := (hw.jobs.jobKey hl.job).symm.trans hjob
  have hjj : j = j₀ := by
    have hj := hl.job
    rw [haj, show (jobView w.db).job item.jobId = some j₀ from hj₀] at hj
    exact (Option.some.inj hj).symm
  have hnum : a.attemptNumber = a₀.attemptNumber := by
    rw [h.exclusive.current hl, hjj, hcur, hanum₀]
  have hres : i.resourceId = i₀.resourceId :=
    (hw.jobs.attemptUnique hl.attempt ha₀ (haj.trans hajob₀.symm) hnum).trans hres₀.symm
  have hid : i.id = item.intentId := hw.jobs.intentUnique hl.intent hi₀ hres
  have hi := hl.intent
  rw [hid, hi₁] at hi
  have hlive := hl.live
  rw [← Option.some.inj hi, IntentStatus.isLive_iff, hfinal] at hlive
  cases hlive

lemma confirm_idle {w : World} (hw : WorldOK w) (h : RecoveryInv w) {item : ExpiredJobRecoveryInfo}
    {deleteConfirmed retry : Bool} (hmem : item ∈ w.jobs.begun)
    (hguard : confirmsCurrent w (.job (.confirmJobRecovery item deleteConfirmed)) = true)
    (hretry : recoveryShouldRetry w.db.now item deleteConfirmed = some retry)
    (htarget : recoveryTarget retry item.isCancel = retryWait) {i : ExecutionIntent} {a : JobAttempt} {j : Job}
    (hl : Live (jobView w.db) i a j) : j.id ≠ item.jobId := by
  simp only [confirmsCurrent, hretry, htarget, ne_eq, not_true_eq_false, decide_false, Bool.false_or,
    Option.any_eq_true, decide_eq_true_eq] at hguard
  obtain ⟨j₀, hj₀, hcur⟩ := hguard
  exact begun_idle hw h hmem hj₀ hcur hl

/-- Only the scan and the first step of a recovery add to the recoveries that have begun. -/
lemma begun_eq {db db' : Db} {c c' : JobClients} {b : JobAction} (h : jobStep cfg db c b = some (db', c'))
    (hfind : b ≠ .findExpiredJobIntents) (hbegin : ∀ item, b ≠ .beginJobRecovery item) :
    c'.begun = c.begun := by
  cases b with
  | findExpiredJobIntents => exact absurd rfl hfind
  | beginJobRecovery item => exact absurd rfl (hbegin item)
  | scanRetryWaitJobs limit => cases h; rfl
  | scanUnadmittedJobs limit => cases h; rfl
  | claimNextJobAttempt workerId lease wss locked =>
    obtain ⟨wl, -, rfl⟩ := claimNextJobAttempt_step h
    rfl
  | _ => rw [jobStep_sameClients h rfl]

lemma RecoveryInv.jobStep {w : World} {b : JobAction} {db' : Db} {c' : JobClients} (h : RecoveryInv w)
    (hw : WorldOK w) (hguard : confirmsCurrent w (.job b) = true)
    (hstep : jobStep cfg w.db w.jobs b = some (db', c')) : RecoveryInv { w with db := db', jobs := c' } := by
  have href := jobStep_refines hw.jobClients hstep
  have hold : ∀ x ∈ w.jobs.begun, ∃ i, (jobView db').intent x.intentId = some i ∧ i.status.isFinal = true := by
    intro x hx
    obtain ⟨i, hi, hfinal⟩ := h.begun x hx
    obtain ⟨i', hi', -, -, hsame⟩ := (href.evolves hw.jobs).intent hi
    exact ⟨i', hi', by rw [hsame hfinal, hfinal]⟩
  constructor
  · refine h.exclusive.step hw.jobs href ?_
    intro k n he i a j hl
    cases b with
    | confirmJobRecovery item deleteConfirmed =>
      obtain ⟨retry, hmem, hretry, -, -⟩ := confirmJobRecovery_step hstep
      rw [jobEvent, hretry, Option.getD_some] at he
      obtain ⟨rfl, -, htarget⟩ := JobEvent.confirm.inj he
      exact confirm_idle hw h hmem hguard hretry htarget hl
    | _ => simp [jobEvent] at he
  · cases b with
    | findExpiredJobIntents =>
      cases hstep
      intro x hx
      rcases List.mem_append.mp hx with hx | hx
      · exact hold x hx
      · obtain ⟨hx, hbegun⟩ := List.mem_filter.mp hx
        exact final_of_scanned h.exclusive hx (by simpa using hbegun)
    | beginJobRecovery item =>
      obtain ⟨-, -, hdb, rfl⟩ := beginJobRecovery_step hstep
      intro x hx
      rcases List.mem_append.mp hx with hx | hx
      · exact hold x hx
      · rw [List.mem_singleton.mp hx]
        exact final_of_begun hdb
    | _ => exact fun x hx => hold x (begun_eq hstep (by simp) (by simp) ▸ hx)

theorem RecoveryInv.step {w w' : World} {a : Action} (h : RecoveryInv w) (hw : WorldOK w)
    (hguard : confirmsCurrent w a = true) (hstep : (system cfg).step w a = some w') : RecoveryInv w' := by
  rcases step_cases hstep with ⟨d, rfl, rfl⟩ | ⟨b, db', c', rfl, hjob, rfl⟩ | ⟨b, db', c', rfl, hserv, rfl⟩
  · exact ⟨h.exclusive, h.begun⟩
  · exact h.jobStep hw hguard hjob
  · have hview := jobView_of_frame (serviceStep_jobs hserv)
    exact ⟨hview ▸ h.exclusive, hview ▸ h.begun⟩

/-- In every run whose confirmations find the attempt they recover, each job has at most one live
intent at any time, and it belongs to the current attempt. -/
theorem single_live_intent (cfg : Settings) {w : World}
    (h : (system cfg).Reach (fun w a => confirmsCurrent w a = true) w) : SingleLiveIntent w.db := by
  have hinv : RecoveryInv w ∧ WorldOK w := by
    refine h.invariant (P := fun u => RecoveryInv u ∧ WorldOK u) ⟨recoveryInv_init, worldOK_init⟩ ?_
    rintro u a u' ⟨hrec, hok⟩ hguard hstep
    exact ⟨hrec.step hok hguard hstep, hok.step hstep⟩
  exact single_of_exclusive hinv.1.exclusive hinv.2.jobs

/-! ### Two passes over one recovery -/

/-- The first attempt of job `0` is admitted and claimed, its worker is lost, and one pass begins its
recovery; a second pass completes the recovery, and the job gets its second attempt. -/
def recoveredRun : List Action :=
  [.job (.submitJob 100 ⟨"quay.io/tool", 600, 2⟩), .job (.scanUnadmittedJobs 50),
    .job (.createJobAttemptIntent ⟨0, 100, 600, 2, 0, .queued⟩),
    .job (.claimNextJobAttempt "executor-1" (30 * second) [] []),
    .job (.markJobAttemptRunning ⟨2, 1, 0, 100, 600, 2, 1, .job 0 1, 1⟩), .tick (31 * second),
    .job .findExpiredJobIntents,
    .job (.beginJobRecovery ⟨2, 1, 0, 1, 2, 1, .running, .job 0 1, true, 0⟩),
    .job .findExpiredJobIntents,
    .job (.confirmJobRecovery ⟨2, 1, 0, 1, 2, 1, .recoveryPending, .job 0 1, false, 31 * second⟩ true),
    .tick (6 * second), .job (.scanRetryWaitJobs 50),
    .job (.requeueRetryWaitJob (37 * second) ⟨0, 1, 31 * second⟩ (37 * second)),
    .job (.scanUnadmittedJobs 50), .job (.createJobAttemptIntent ⟨0, 100, 600, 2, 1, .queued⟩),
    .job (.claimNextJobAttempt "executor-2" (30 * second) [] []),
    .job (.markJobAttemptRunning ⟨5, 4, 0, 100, 600, 2, 2, .job 0 2, 1⟩)]

/-- The first pass resumes and confirms: the running second attempt is sent back to the queue, and a
third attempt is admitted beside it. -/
def staleConfirmRun : List Action :=
  recoveredRun ++
    [.job (.confirmJobRecovery ⟨2, 1, 0, 1, 2, 1, .running, .job 0 1, true, 0⟩ true), .tick (12 * second),
      .job (.scanRetryWaitJobs 50),
      .job (.requeueRetryWaitJob (49 * second) ⟨0, 2, 37 * second⟩ (49 * second)),
      .job (.scanUnadmittedJobs 50), .job (.createJobAttemptIntent ⟨0, 100, 600, 2, 2, .queued⟩)]

def recoveredExecution : (system Settings.default).Run confirmsCurrent where
  labels := recoveredRun
  executes := by decide +kernel

/-- The recovery that one pass begins and another completes meets the condition. -/
theorem single_live_intent_recovered : ∃ w, (system Settings.default).Reach
      (fun w a => confirmsCurrent w a = true) w ∧ (liveIntents w.db 0).length = 1 ∧ SingleLiveIntent w.db :=
  ⟨recoveredExecution.final, recoveredExecution.reach, by decide +kernel,
    single_live_intent Settings.default recoveredExecution.reach⟩

def staleConfirmExecution : (system Settings.default).FreeRun where
  labels := staleConfirmRun
  executes := by decide +kernel

/-- Without the condition two attempts of one job are live at once. -/
theorem stale_confirm_two_live_intents : ∃ w, (system Settings.default).Reachable w ∧
    ¬SingleLiveIntent w.db := by
  refine ⟨staleConfirmExecution.final, staleConfirmExecution.reachable, fun hsingle => ?_⟩
  have hjob : (staleConfirmExecution.final.db.jobs.get 0).isSome = true := by decide +kernel
  have hids : (liveIntents staleConfirmExecution.final.db 0).map ExecutionIntent.id = [5, 8] := by decide +kernel
  obtain ⟨j, hj⟩ := Option.isSome_iff_exists.mp hjob
  obtain ⟨i, hi, hi5⟩ := List.mem_map.mp (hids ▸ (by simp : 5 ∈ [5, 8]))
  obtain ⟨i', hi', hi8⟩ := List.mem_map.mp (hids ▸ (by simp : 8 ∈ [5, 8]))
  have he := (hsingle 0 j hj i hi).2 i' hi'
  rw [he, hi5] at hi8
  cases hi8

end HamiCloud.Proofs
