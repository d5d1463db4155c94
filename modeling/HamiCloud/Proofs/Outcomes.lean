import HamiCloud.Proofs.Records
import HamiCloud.Proofs.Process

/-!
# The outcomes of a job and of its attempts agree

With one scheduler process, what has become of a job can be read off its last attempt, and the other way round.
Cancellation may come in between any two transactions of an attempt or of its recovery.
-/

namespace HamiCloud.Proofs

open Library JobState

variable {cfg : Settings}

/-- The attempt with the highest number among those of the job. -/
structure LastAttempt (db : Db) (jobId : Uuid) (a : JobAttempt) : Prop where
  row : a ∈ db.attempts.rows
  job : a.jobId = jobId
  last : ∀ b ∈ db.attempts.rows, b.jobId = jobId → b.attemptNumber ≤ a.attemptNumber

/-- The job has to wait for no attempt that is under way. -/
def isSettled (s : JobState) : Bool := s.isTerminal || s = queued || s = retryWait

structure OutcomesAgree (db : Db) : Prop where
  succeededAttempt : ∀ a ∈ db.attempts.rows, a.state = succeeded → a.exitCode = some 0 ∧
    LastAttempt db a.jobId a ∧ ∃ j, db.jobs.get a.jobId = some j ∧ (j.state = succeeded ∨ j.state = cancelled)
  succeededJob : ∀ j ∈ db.jobs.rows, j.state = succeeded → ∃ a, LastAttempt db j.id a ∧ a.state = succeeded
  failedJob : ∀ j ∈ db.jobs.rows,
    j.state = failed ∨ j.state = retryWait ∨ (j.state = queued ∧ 0 < j.currentAttemptNumber) →
    ∃ a, LastAttempt db j.id a ∧ a.state = failed
  settledJob : ∀ j ∈ db.jobs.rows, isSettled j.state = true →
    ∀ a ∈ db.attempts.rows, a.jobId = j.id → a.state ∉ [admitted, starting, running]

/-! ### The invariant -/

structure OutcomeInv (w : World) : Prop where
  recovery : RecoveryInv w
  outcomes : Outcomes (jobView w.db)
  /-- a job that was scanned in `CANCEL_REQUESTED` has not left it but to be cancelled -/
  scanned : ∀ x ∈ w.jobs.expired, x.jobState = cancelRequested →
    ∃ j, (jobView w.db).job x.jobId = some j ∧ (j.state = cancelRequested ∨ j.state = cancelled)
  exitCode : ∀ {k a}, w.db.attempts.get k = some a → a.state = succeeded → a.exitCode = some 0

lemma outcomeInv_init : OutcomeInv World.init where
  recovery := recoveryInv_init
  outcomes := by constructor <;> intros <;> simp_all [jobView, World.init, Db.empty]
  scanned := by simp [World.init]
  exitCode := by simp [World.init, Db.empty]

/-- A confirmation that finds its attempt finds the job without a live intent. -/
lemma confirmsIdle {w : World} {b : JobAction} {db' : Db} {c' : JobClients} (h : RecoveryInv w) (hw : WorldOK w)
    (hguard : confirmsItsAttempt w (.job b) = true) (hstep : jobStep cfg w.db w.jobs b = some (db', c')) :
    ConfirmsIdle (jobView w.db) (jobEvent w.db b) := by
  intro k n t he
  cases b with
  | confirmJobRecovery item deleteConfirmed =>
    obtain ⟨retry, hmem, -, -, -⟩ := confirmJobRecovery_step hstep
    obtain ⟨rfl, -, -⟩ := JobEvent.confirm.inj he
    simp only [confirmsItsAttempt, Option.any_eq_true, decide_eq_true_eq] at hguard
    obtain ⟨j, hj, hcur⟩ := hguard
    refine ⟨fun i a j₀ hl => begun_idle hw h hmem hj hcur hl, fun j₀ hj₀ => ?_⟩
    obtain rfl : j = j₀ := Option.some.inj (hj.symm.trans hj₀)
    obtain ⟨-, a, -, -, -, ha, -, hanum, -⟩ := hw.jobClients.begun item hmem
    obtain ⟨-, -, hpos, -⟩ := hw.jobs.attemptJob ha
    rw [hcur, ← hanum]
    exact hpos
  | _ => simp [jobEvent] at he

/-- An expired attempt is cancelled only for a job that waits to be cancelled: had the job been cancelled
since the scan, the attempt would have ended. -/
lemma beginsCancelled {w : World} {b : JobAction} {db' : Db} {c' : JobClients} (h : OutcomeInv w) (hw : WorldOK w)
    (hstep : jobStep cfg w.db w.jobs b = some (db', c')) :
    BeginsCancelled (jobView w.db) (jobEvent w.db b) (jobView db') := by
  intro id ep k a a' j he ha ha' hcan hne hj
  have hkey : a'.id = k := Table.key_of_get (show db'.attempts.get k = some a' from ha')
  cases b with
  | beginJobRecovery item =>
    obtain ⟨hmem, -, hdb, -⟩ := beginJobRecovery_step hstep
    obtain ⟨i, a₀, -, hi, hres, ha₀, hajob, -, -⟩ := hw.jobClients.expired item hmem
    obtain ⟨db₁, a₁, i₁, -, ha₁, hast, hi₁, -, hclaimed, -, rfl⟩ := beginJobRecovery_inv hdb
    obtain rfl : i = i₁ := Option.some.inj (hi.symm.trans hi₁)
    rcases get_set_cases (h := ha') with hold | ⟨a₂, ha₂, hid, rfl⟩
    · obtain rfl : a = a' := Option.some.inj (ha.symm.trans hold)
      exact absurd hcan hne
    · obtain rfl : item.attemptId = k := hid.symm.trans hkey
      obtain rfl : a = a₀ := Option.some.inj (ha.symm.trans ha₀)
      obtain rfl : a = a₁ := Option.some.inj (ha.symm.trans ha₁)
      have hcr : item.jobState = cancelRequested := by
        by_contra hcr
        simp [finalizeExpired, hcr] at hcan
      obtain ⟨j₀, hj₀, hst⟩ := h.scanned item hmem hcr
      obtain rfl : j = j₀ := Option.some.inj (hj.symm.trans (hajob ▸ hj₀))
      refine hst.resolve_right fun hcancelled => ?_
      have hlive : Live (jobView w.db) i a j :=
        ⟨Table.key_of_get hi ▸ hi, by simp [IntentStatus.isLive, hclaimed], hres ▸ ha, hj⟩
      have hlast := h.outcomes.last ha hj (h.recovery.exclusive.current hlive)
      rcases hast with hs | hs <;> simp [hs, hcancelled, JobState.lastAttempt] at hlast
  | _ => simp [jobEvent] at he

/-- Only the scan adds to the rows that recoveries work on. -/
lemma expired_eq {db db' : Db} {c c' : JobClients} {b : JobAction} (h : jobStep cfg db c b = some (db', c'))
    (hfind : b ≠ .findExpiredJobIntents) : c'.expired = c.expired := by
  cases b with
  | findExpiredJobIntents => exact absurd rfl hfind
  | beginJobRecovery item =>
    obtain ⟨-, -, -, rfl⟩ := beginJobRecovery_step h
    rfl
  | scanRetryWaitJobs limit => cases h; rfl
  | scanUnadmittedJobs limit => cases h; rfl
  | claimNextJobAttempt workerId lease wss locked =>
    obtain ⟨wl, -, rfl⟩ := claimNextJobAttempt_step h
    rfl
  | _ => rw [jobStep_sameClients h rfl]

lemma OutcomeInv.jobStep {w : World} {b : JobAction} {db' : Db} {c' : JobClients} (h : OutcomeInv w)
    (hw : WorldOK w) (hguard : confirmsItsAttempt w (.job b) = true)
    (hstep : jobStep cfg w.db w.jobs b = some (db', c')) : OutcomeInv { w with db := db', jobs := c' } := by
  have href := jobStep_refines hw.jobClients hstep
  have hscan : ∀ x ∈ w.jobs.expired, x.jobState = cancelRequested →
      ∃ j, (jobView db').job x.jobId = some j ∧ (j.state = cancelRequested ∨ j.state = cancelled) := by
    intro x hx hcr
    obtain ⟨j, hj, hst⟩ := h.scanned x hx hcr
    obtain ⟨j', hj', -, hedge, -⟩ := href.job_row hw.jobs hj
    refine ⟨j', hj', ?_⟩
    rcases hst with hst | hst
    · simpa [hst, contract] using hedge
    · exact .inr (by simpa [hst, contract] using hedge)
  refine ⟨h.recovery.jobStep hw (confirmsItsAttempt.current hguard) hstep,
    h.outcomes.step hw.jobs h.recovery.exclusive href (confirmsIdle h.recovery hw hguard hstep)
      (beginsCancelled h hw hstep), ?_, ?_⟩
  · by_cases hfind : b = .findExpiredJobIntents
    · subst hfind
      cases hstep
      intro x hx hcr
      rcases List.mem_append.mp hx with hx | hx
      · exact hscan x hx hcr
      · obtain ⟨i, a, j, -, -, -, -, hj, -, he⟩ := mem_findExpiredJobIntents hx
        exact ⟨j, hj, .inl (by rw [he] at hcr; exact hcr)⟩
    · exact fun x hx => hscan x (expired_eq hstep hfind ▸ hx)
  · intro k a ha hst
    rcases jobStep_ended hstep ha (by simp [hst, JobState.hasEnded]) with hold | hends
    · exact h.exitCode hold hst
    · cases hends with
      | succeeded wl uid _ _ _ hexit => exact hexit
      | failed wl reason exitCode _ _ hf => simp [hf] at hst
      | cancelled wl _ _ hc => simp [hc] at hst
      | expired item now a _ =>
        by_cases hcr : item.jobState = cancelRequested <;> simp [finalizeExpired, hcr] at hst

theorem OutcomeInv.step {w w' : World} {a : Action} (h : OutcomeInv w) (hw : WorldOK w)
    (hguard : confirmsItsAttempt w a = true) (hstep : (system cfg).step w a = some w') : OutcomeInv w' := by
  rcases step_cases hstep with ⟨d, rfl, rfl⟩ | ⟨b, db', c', rfl, hjob, rfl⟩ | ⟨b, db', c', rfl, hserv, rfl⟩
  · exact ⟨⟨h.recovery.exclusive, h.recovery.begun⟩, h.outcomes, h.scanned, h.exitCode⟩
  · exact h.jobStep hw hguard hjob
  · have hframe := serviceStep_jobs hserv
    have hview := jobView_of_frame hframe
    have hattempts : db'.attempts = w.db.attempts := by
      simp only [jobFrame, Prod.mk.injEq] at hframe
      exact hframe.2.2.1
    exact ⟨⟨hview ▸ h.recovery.exclusive, hview ▸ h.recovery.begun⟩, hview ▸ h.outcomes, hview ▸ h.scanned,
      hattempts ▸ h.exitCode⟩

lemma reach_outcomes {w : World} (h : (system cfg).Reach (fun w a => confirmsItsAttempt w a = true) w) :
    OutcomeInv w := by
  have hinv : OutcomeInv w ∧ WorldOK w := by
    refine h.invariant (P := fun u => OutcomeInv u ∧ WorldOK u) ⟨outcomeInv_init, worldOK_init⟩ ?_
    rintro u a u' ⟨ho, hok⟩ hguard hstep
    exact ⟨ho.step hok hguard hstep, hok.step hstep⟩
  exact hinv.1

/-! ### The outcomes -/

section Final

variable {w : World} {k : Uuid} {a : JobAttempt} {j : Job}

lemma lastAttempt_of_current (hw : WorldOK w) (ha : w.db.attempts.get k = some a)
    (hj : w.db.jobs.get a.jobId = some j) (hcur : a.attemptNumber = j.currentAttemptNumber) :
    LastAttempt w.db a.jobId a := by
  refine ⟨Table.mem_of_get ha, rfl, fun b hb hjob => ?_⟩
  obtain ⟨j', hj', -, hle⟩ := hw.jobs.attemptJob (Table.get_of_mem hb)
  obtain rfl : j = j' := Option.some.inj (hj.symm.trans (hjob ▸ hj'))
  exact hcur ▸ hle

/-- A job that is neither fresh nor cancelled before its first attempt has a last attempt, whose state is one
that the state of the job allows. -/
lemma OutcomeInv.lastAttempt (h : OutcomeInv w) (hw : WorldOK w) (hj : j ∈ w.db.jobs.rows)
    (hpos : 0 < j.currentAttemptNumber) : ∃ a, LastAttempt w.db j.id a ∧ a.state ∈ j.state.lastAttempt := by
  have hget := Table.get_of_mem hj
  obtain ⟨k, a, ha, hjob, hnum⟩ := hw.jobs.attemptOf hget hpos le_rfl
  have hjob' : w.db.jobs.get a.jobId = some j := hjob ▸ hget
  exact ⟨a, hjob ▸ lastAttempt_of_current hw ha hjob' hnum, h.outcomes.last ha hjob' hnum⟩

lemma OutcomeInv.started (h : OutcomeInv w) (hj : j ∈ w.db.jobs.rows) (hq : j.state ≠ queued)
    (hcr : j.state ≠ cancelRequested) : 0 < j.currentAttemptNumber := by
  rcases Nat.eq_zero_or_pos j.currentAttemptNumber with h0 | hpos
  · exact absurd (h.outcomes.fresh (Table.get_of_mem hj) h0) (by simp [hq, hcr])
  · exact hpos

/-- An attempt that has not failed is the last one of its job. -/
lemma OutcomeInv.current (h : OutcomeInv w) (hw : WorldOK w) (ha : w.db.attempts.get k = some a)
    (hne : a.state ≠ failed) : ∃ j, w.db.jobs.get a.jobId = some j ∧ a.attemptNumber = j.currentAttemptNumber ∧
      a.state ∈ j.state.lastAttempt := by
  obtain ⟨j, hj, -, hle⟩ := hw.jobs.attemptJob ha
  have hcur : a.attemptNumber = j.currentAttemptNumber := by
    rcases Nat.lt_or_eq_of_le hle with hlt | heq
    · exact absurd (h.outcomes.older ha hj hlt) hne
    · exact heq
  exact ⟨j, hj, hcur, h.outcomes.last ha hj hcur⟩

lemma OutcomeInv.agree (h : OutcomeInv w) (hw : WorldOK w) : OutcomesAgree w.db where
  succeededAttempt a ha hst := by
    have hget := Table.get_of_mem ha
    obtain ⟨j, hj, hcur, hlast⟩ := h.current hw hget (by simp [hst])
    refine ⟨h.exitCode hget hst, lastAttempt_of_current hw hget hj hcur, j, hj, ?_⟩
    rw [hst] at hlast
    cases hs : j.state <;> simp [hs, JobState.lastAttempt] at hlast ⊢
  succeededJob j hj hst := by
    obtain ⟨a, hlast, hmem⟩ := h.lastAttempt hw hj (h.started hj (by simp [hst]) (by simp [hst]))
    exact ⟨a, hlast, by simpa [hst, JobState.lastAttempt] using hmem⟩
  failedJob j hj hst := by
    have hpos : 0 < j.currentAttemptNumber := by
      rcases hst with hst | hst | ⟨-, hpos⟩
      · exact h.started hj (by simp [hst]) (by simp [hst])
      · exact h.started hj (by simp [hst]) (by simp [hst])
      · exact hpos
    obtain ⟨a, hlast, hmem⟩ := h.lastAttempt hw hj hpos
    refine ⟨a, hlast, ?_⟩
    rcases hst with hst | hst | ⟨hst, -⟩ <;> simpa [hst, JobState.lastAttempt] using hmem
  settledJob j hj hst a ha hjob hactive := by
    obtain ⟨j', hj', -, hlast⟩ := h.current hw (Table.get_of_mem ha) (by rintro hf; simp [hf] at hactive)
    obtain rfl : j = j' := Option.some.inj ((Table.get_of_mem hj).symm.trans (hjob ▸ hj'))
    cases hs : j.state <;> simp [hs, isSettled, isTerminal] at hst <;>
      simp only [hs, JobState.lastAttempt, List.mem_cons, List.not_mem_nil, or_false] at hlast hactive <;>
      rcases hactive with ha | ha | ha <;> simp [ha] at hlast

end Final

/-- With one scheduler process, any number of executors and any requests, the outcomes of jobs and of their
attempts agree in every reachable state. -/
theorem outcomes_agree (cfg : Settings) {p : ProcessWorld} (h : (processSystem cfg).Reachable p) :
    OutcomesAgree p.world.db :=
  (reach_outcomes (process_reach h)).agree (reach_ok (process_reach h))

/-- The worker of the first attempt is lost, and the process recovers it and retries the job; the job is
cancelled while its second attempt succeeds. -/
def lostAndCancelledRun : List (List ProcessAction) :=
  [[.other (.job (.submitJob 100 ⟨"quay.io/tool", 600, 2⟩))], proceeds 8,
    [.other (.job (.claimNextJobAttempt "executor-1" (30 * second) [] [])),
      .other (.job (.markJobAttemptRunning ⟨2, 1, 0, 100, 600, 2, 1, .job 0 1, 1⟩)), .other (.tick (31 * second))],
    proceeds 10, [.other (.tick (6 * second))], proceeds 9,
    [.other (.job (.claimNextJobAttempt "executor-2" (30 * second) [] [])),
      .other (.job (.markJobAttemptRunning ⟨5, 4, 0, 100, 600, 2, 2, .job 0 2, 1⟩)),
      .other (.job (.cancelJob 0)),
      .other (.job (.markJobAttemptSucceeded ⟨5, 4, 0, 100, 600, 2, 2, .job 0 2, 1⟩ "uid"))]]

def lostAndCancelled : (processSystem Settings.default).FreeRun where
  labels := lostAndCancelledRun.flatten
  executes := by decide +kernel

theorem outcomes_agree_cancelled : ∃ p, (processSystem Settings.default).Reachable p ∧
    p.world.db.jobs.rows.map Job.state = [cancelled] ∧
    p.world.db.attempts.rows.map JobAttempt.state = [failed, succeeded] ∧ OutcomesAgree p.world.db :=
  ⟨lostAndCancelled.final, lostAndCancelled.reachable, by decide +kernel, by decide +kernel,
    outcomes_agree Settings.default lostAndCancelled.reachable⟩

end HamiCloud.Proofs
