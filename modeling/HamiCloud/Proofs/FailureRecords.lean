import HamiCloud.Proofs.Builds
import HamiCloud.Proofs.Enabled
import HamiCloud.Proofs.Fencing
import HamiCloud.Proofs.Images
import HamiCloud.Proofs.JobRunner
import HamiCloud.Proofs.Numbering
import HamiCloud.Proofs.Records

/-!
# Recording a failure

`MarkJobAttemptFailed`, `MarkReleaseFailed` and `MarkBuildFailed` write the reason they are given into columns of 500
characters. A reason that fits is recorded whenever the caller still holds the lease and the row may still fail. The
reconcilers pass on what the cluster, a process or a build has said, and a longer reason makes the whole transaction
fail. So does a text that is not valid UTF-8 or contains a NUL, which PostgreSQL does not store: the reasons are taken to
be without, and so are the build logs that `MarkBuildFailed` writes in the same statement and the model leaves out.
-/

namespace HamiCloud.Proofs

open Library JobState

variable {cfg : Settings} {w w' : World} {a : Action} {db : Db} {reason : String}

/-! ### Fences that hold -/

/-- A claim never hands out epoch zero. -/
def PositiveGrants (w : World) : Prop := ∀ r, ∀ e ∈ grants w r, 0 < e

lemma PositiveGrants.step (h : PositiveGrants w) (hstep : (system cfg).step w a = some w') : PositiveGrants w' := by
  intro r e he
  rcases grants_step hstep r with hg | ⟨i₁, i₂, -, -, -, -, hep, hg⟩
  · exact h r e (hg ▸ he)
  · rw [hg] at he
    rcases List.mem_append.mp he with he | he
    · exact h r e he
    · rw [List.mem_singleton.mp he, hep]
      exact Nat.succ_pos _

lemma reach_positiveGrants {C : World → Action → Prop} (h : (system cfg).Reach C w) : PositiveGrants w := by
  refine h.invariant ?_ (fun _ _ _ hp _ hstep => hp.step hstep)
  intro r e he
  cases r <;> cases he

lemma job_epoch_pos (h : PositiveGrants w) {wl : ClaimedJobWorkload} (hwl : wl ∈ w.jobs.claims) :
    0 < wl.leaseEpoch :=
  h (.job wl.intentId) _ (List.mem_map_of_mem (List.mem_filter.mpr ⟨hwl, by simp⟩))

lemma release_epoch_pos (h : PositiveGrants w) {wl : ClaimedWorkload} (hwl : wl ∈ w.services.claims) :
    0 < wl.leaseEpoch :=
  h (.release wl.intentId) _ (List.mem_map_of_mem (List.mem_filter.mpr ⟨hwl, by simp⟩))

/-! ### The transactions -/

lemma ensureVarchar_of {limit : Nat} {text : String} (h : text.length ≤ limit) : ensureVarchar limit text = .ok () :=
  ensure_of h _

lemma fenceJobIntent_enabled {intentId : Uuid} {epoch : Nat} {i : ExecutionIntent}
    {f : ExecutionIntent → ExecutionIntent} (hf : ∀ i, (f i).id = i.id) (hi : db.jobIntents.get intentId = some i)
    (hfence : i.fenced epoch = true) (hpos : 0 < epoch) :
    fenceJobIntent db intentId epoch f hf = .ok { db with jobIntents := db.jobIntents.set intentId f hf } := by
  unfold fenceJobIntent
  rw [ensure_of hpos, ok_bind, modify_enabled hi hfence hf, orError_some, ok_bind]
  rfl

lemma markJobAttemptFailed_enabled {intentId attemptId jobId : Uuid} {epoch : Nat} {i : ExecutionIntent} {j : Job}
    (hi : db.jobIntents.get intentId = some i) (hfence : i.fenced epoch = true) (hpos : 0 < epoch)
    (hj : db.jobs.get jobId = some j) (hst : j.state ∈ legalSources [retryWait, failed, cancelled])
    (hlen : reason.length ≤ 500) (exitCode : Int) (retry : Bool) :
    ∃ db', markJobAttemptFailed db intentId attemptId jobId reason exitCode epoch retry = .ok db' := by
  unfold markJobAttemptFailed
  rw [fenceJobIntent_enabled _ hi hfence hpos, ok_bind, ensureVarchar_of hlen, ok_bind]
  dsimp only
  generalize hdb₁ : ({ db with jobIntents := _, attempts := _ } : Db) = db₁
  have hj₁ : db₁.jobs.get jobId = some j := by rw [← hdb₁]; exact hj
  obtain ⟨db₂, hu⟩ := updateJob_enabled (legalSources [.retryWait, .failed, .cancelled])
    (fun j => { j with
      state := if j.state = .cancelRequested then .cancelled else if retry then .retryWait else .failed
      updatedAt := db.now }) hj₁ hst
  rw [hu]
  exact ⟨_, rfl⟩

lemma markReleaseFailed_enabled (releaseId : Uuid) {intentId : Uuid} {epoch : Nat} {i : ExecutionIntent}
    (hi : db.releaseIntents.get intentId = some i) (hfence : i.fenced epoch = true) (hpos : 0 < epoch)
    (hlen : reason.length ≤ 500) : ∃ db', markReleaseFailed db intentId releaseId reason epoch = .ok db' := by
  unfold markReleaseFailed fenceReleaseIntent
  rw [ensure_of hpos, ok_bind, modify_enabled hi hfence, orError_some, ok_bind]
  dsimp only
  rw [ensureVarchar_of hlen]
  exact ⟨_, rfl⟩

/-! ### What is recorded -/

/-- A failure with this reason can be recorded: for a job attempt and for a release by an executor whose fence holds,
the job being in a state that may fail, and for a build while its release is `BUILDING`. -/
structure RecordsFailures (w : World) (reason : String) : Prop where
  job : ∀ wl ∈ w.jobs.claims, ∃ i j, w.db.jobIntents.get wl.intentId = some i ∧ w.db.jobs.get wl.jobId = some j ∧
    (i.fenced wl.leaseEpoch = true → j.state ∈ legalSources [retryWait, failed, cancelled] →
      ∀ (exitCode : Int) (retry : Bool), ∃ db' a' j',
        markJobAttemptFailed w.db wl.intentId wl.jobAttemptId wl.jobId reason exitCode wl.leaseEpoch retry = .ok db' ∧
        db'.attempts.get wl.jobAttemptId = some a' ∧ a'.state = failed ∧ a'.exitCode = some exitCode ∧
        a'.failureReason = some reason ∧ db'.jobs.get wl.jobId = some j' ∧
        j'.state = if j.state = cancelRequested then cancelled else if retry then retryWait else failed)
  release : ∀ wl ∈ w.services.claims, ∃ i, w.db.releaseIntents.get wl.intentId = some i ∧
    (i.fenced wl.leaseEpoch = true → ∃ db' r',
      markReleaseFailed w.db wl.intentId wl.releaseId reason wl.leaseEpoch = .ok db' ∧
      db'.releases.get wl.releaseId = some r' ∧ r'.status = .deployFailed ∧ r'.statusReason = some reason)
  build : ∀ k r, w.db.releases.get k = some r → r.status = .building → ∃ db' r', markBuildFailed w.db k reason = .ok db' ∧
    db'.releases.get k = some r' ∧ r'.status = .buildFailed ∧ r'.statusReason = some reason

lemma failed_jobState {s : JobState} (retry : Bool)
    (h : s ∈ legalSources [retryWait, failed, cancelled]) : (Outcome.failed retry).jobState s =
      if s = cancelRequested then cancelled else if retry then retryWait else failed := by
  revert h
  cases s <;> cases retry <;> decide

/-- In every reachable world a failure whose reason has at most 500 characters can be recorded, if it and the logs of the
build are valid UTF-8 without NUL. So an error says that the fence is stale, that the job is past its end, or that the
release is not being built. -/
theorem failure_recorded (cfg : Settings) {w : World} {reason : String} (h : (system cfg).Reachable w)
    (hlen : reason.length ≤ 500) : RecordsFailures w reason where
  job wl hwl := by
    obtain ⟨i, a, j, hi, hres, ha, -, -, hj, -, -⟩ := (reach_ok h).jobClients.claims wl hwl
    refine ⟨i, j, hi, hj, fun hfence hst exitCode retry => ?_⟩
    obtain ⟨db', hdb⟩ := markJobAttemptFailed_enabled hi hfence (job_epoch_pos (reach_positiveGrants h) hwl) hj hst hlen
      exitCode retry
    have hattempts := markJobAttemptFailed_attempts hdb
    obtain ⟨i', j', f, hf, g, hg, k, hk, dead, events, -, -, -, hj', -, -, -, hkj, hcommit⟩ :=
      markJobAttemptFailed_inv hdb
    obtain rfl := Option.some.inj (hj.symm.trans hj')
    have hjobs : db'.jobs = w.db.jobs.set wl.jobId k hk := by rw [hcommit]
    refine ⟨db', _, _, hdb, by rw [hattempts]; exact Table.get_set_self ha, rfl, rfl, rfl,
      by rw [hjobs]; exact Table.get_set_self hj hk, ?_⟩
    rw [hkj]
    exact failed_jobState retry hst
  release wl hwl := by
    obtain ⟨i, r, hi, -, hr, -⟩ := (reach_ok h).serviceClients.claims wl hwl
    refine ⟨i, hi, fun hfence => ?_⟩
    obtain ⟨db', hdb⟩ := markReleaseFailed_enabled wl.releaseId hi hfence
      (release_epoch_pos (reach_positiveGrants h) hwl) hlen
    obtain ⟨i', -, -, -, rfl⟩ := markReleaseFailed_inv hdb
    exact ⟨_, _, hdb, Table.get_set_self hr, rfl, rfl⟩
  build k r hr hst := by
    obtain ⟨db', hdb⟩ := markBuildFailed_ok hr hst hlen
    obtain ⟨r', events, hr', -, rfl⟩ := markBuildFailed_inv hdb
    exact ⟨_, _, hdb, Table.get_set_self hr, rfl, rfl⟩

/-- The first attempt of a job runs. -/
def attemptRun : (system Settings.default).FreeRun where
  labels :=
    [.job (.submitJob 100 ⟨"quay.io/tool", 600, 2⟩), .job (.scanUnadmittedJobs 50),
      .job (.createJobAttemptIntent ⟨0, 100, 600, 2, 0, .queued⟩),
      .job (.claimNextJobAttempt "executor-1" (30 * second) [] []),
      .job (.markJobAttemptRunning ⟨2, 1, 0, 100, 600, 2, 1, .job 0 1, 1⟩)]
  executes := by decide +kernel

theorem failure_recorded_oomKilled : ∃ w, (system Settings.default).Reachable w ∧
    w.db.jobs.rows.map Job.state = [running] ∧ w.jobs.claims.length = 1 ∧ RecordsFailures w "OOMKilled" :=
  ⟨attemptRun.final, attemptRun.reachable, by decide +kernel, by decide +kernel,
    failure_recorded Settings.default attemptRun.reachable (by decide)⟩

/-! ### Reasons that do not fit -/

lemma ensureVarchar_overlong {limit : Nat} {text : String} (h : limit < text.length) :
    ensureVarchar limit text = .error (.valueTooLong text.length limit) :=
  if_neg (Nat.not_le.mpr h)

/-- The error behind a fence that holds. -/
lemma markJobAttemptFailed_overlong {intentId attemptId jobId : Uuid} {epoch : Nat} {i : ExecutionIntent}
    (hi : db.jobIntents.get intentId = some i) (hfence : i.fenced epoch = true) (hpos : 0 < epoch)
    (hlong : 500 < reason.length) (exitCode : Int) (retry : Bool) :
    markJobAttemptFailed db intentId attemptId jobId reason exitCode epoch retry =
      .error (.valueTooLong reason.length 500) := by
  unfold markJobAttemptFailed
  rw [fenceJobIntent_enabled _ hi hfence hpos, ok_bind, ensureVarchar_overlong hlong]
  rfl

/-- Whoever calls it and whatever the rows are, none of the three transactions commits a longer reason. -/
theorem overlong_reason_rejected (hlong : 500 < reason.length) :
    (∀ db intentId attemptId jobId exitCode epoch retry db',
      markJobAttemptFailed db intentId attemptId jobId reason exitCode epoch retry ≠ .ok db') ∧
    (∀ db intentId releaseId epoch db', markReleaseFailed db intentId releaseId reason epoch ≠ .ok db') ∧
    (∀ db releaseId db', markBuildFailed db releaseId reason ≠ .ok db') := by
  have hreject : ∀ u, ensureVarchar 500 reason ≠ .ok u := by
    rw [ensureVarchar_overlong hlong]
    simp
  refine ⟨fun db intentId attemptId jobId exitCode epoch retry db' h => ?_,
    fun db intentId releaseId epoch db' h => ?_, fun db releaseId db' h => ?_⟩
  · simp only [markJobAttemptFailed, bind_eq_ok] at h
    obtain ⟨-, -, u, hu, -⟩ := h
    exact hreject u hu
  · simp only [markReleaseFailed, bind_eq_ok] at h
    obtain ⟨-, -, u, hu, -⟩ := h
    exact hreject u hu
  · simp only [markBuildFailed, bind_eq_ok] at h
    obtain ⟨u, hu, -⟩ := h
    exact hreject u hu

/-- The message of a failed Kubernetes Job. -/
def longMessage : String := String.ofList (List.replicate 501 'x')

lemma longMessage_length : longMessage.length = 501 :=
  String.length_ofList.trans List.length_replicate

/-- The Job of the first attempt has failed with this message and is deleted. -/
def overlongRun : (jobCloudSystem Settings.default ⟨toString⟩).FreeRun where
  labels := createdRun ++ [.reconcile 0 .ok, .reconcile 0 (.failed 1 longMessage), .reconcile 0 .ok, .reconcile 0 .ok,
    .reconcile 0 .ok]
  executes := by decide +kernel

/-- The rows of the first attempt while its executor holds the lease. -/
def heldAndRunning (db : Db) : Bool :=
  (db.jobIntents.get 2).any (fun i => i.fenced 1) && (db.jobs.get 0).any (fun j => j.state = running)

/-- The executor is about to record the failure of the attempt it holds, and the transaction fails. -/
theorem overlong_failure_lost : ∃ (c : JobCloud) (wk : JobWorker),
    (jobCloudSystem Settings.default ⟨toString⟩).Reachable c ∧ wk ∈ c.workers ∧
    wk.phase = .markFailed longMessage 1 ∧ heldAndRunning c.world.db = true ∧
    markJobAttemptFailed c.world.db wk.workload.intentId wk.workload.jobAttemptId wk.workload.jobId longMessage 1
      wk.workload.leaseEpoch (wk.workload.attemptNumber ≤ wk.workload.maxRetries) =
        .error (.valueTooLong 501 500) ∧ ¬RecordsFailures c.world longMessage := by
  have hwk : (overlongRun.final.workers[0]?).map (fun wk => (wk.phase, wk.workload)) =
      some (.markFailed longMessage 1, ⟨2, 1, 0, 100, 600, 2, 1, .job 0 1, 1⟩) := by decide +kernel
  have hheld : heldAndRunning overlongRun.final.world.db = true := by decide +kernel
  have hclaim : (⟨2, 1, 0, 100, 600, 2, 1, .job 0 1, 1⟩ : ClaimedJobWorkload) ∈ overlongRun.final.world.jobs.claims := by
    decide +kernel
  obtain ⟨wk, hget, he⟩ := Option.map_eq_some_iff.mp hwk
  obtain ⟨hphase, hload⟩ := Prod.mk.inj he
  have hlong : 500 < longMessage.length := by
    rw [longMessage_length]
    decide
  refine ⟨overlongRun.final, wk, overlongRun.reachable, List.mem_of_getElem? hget, hphase, hheld, ?_, fun hrec => ?_⟩
  · simp only [heldAndRunning, Bool.and_eq_true, Option.any_eq_true] at hheld
    obtain ⟨⟨i, hi, hfence⟩, -⟩ := hheld
    rw [hload, markJobAttemptFailed_overlong hi hfence (by decide) hlong, longMessage_length]
  · obtain ⟨i, j, hi, hj, hok⟩ := hrec.job _ hclaim
    simp only [heldAndRunning, hi, hj, Option.any_some, Bool.and_eq_true, decide_eq_true_eq] at hheld
    obtain ⟨db', a', j', hdb, -⟩ := hok hheld.1 (by rw [hheld.2]; decide) 1 true
    exact (overlong_reason_rejected hlong).1 _ _ _ _ _ _ _ _ hdb

end HamiCloud.Proofs
