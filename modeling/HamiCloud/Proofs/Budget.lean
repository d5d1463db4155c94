import HamiCloud.Protocol.Exclusive
import HamiCloud.Protocol.Recoverable
import HamiCloud.Proofs.Process

/-!
# The budget check of an admission

`CreateJobAttemptIntent` refuses an attempt beyond the retry budget. With one scheduler process the decisions to
retry keep every waiting job within its budget, so no row of a scan is ever refused.
-/

namespace HamiCloud.Proofs

open Library JobState

variable {cfg : Settings} {w w' : World}

/-- A recovery retries an attempt only when its number leaves a retry. -/
lemma recovery_within_budget {now : Time} {item : ExpiredJobRecoveryInfo} {deleteConfirmed retry : Bool}
    (hretry : recoveryShouldRetry now item deleteConfirmed = some retry)
    (htarget : recoveryTarget retry item.isCancel = retryWait) : item.attemptNumber ≤ item.maxRetries := by
  have htrue : retry = true := by
    cases retry
    · cases hc : item.isCancel <;> simp [recoveryTarget, hc] at htarget
    · rfl
  subst htrue
  unfold recoveryShouldRetry at hretry
  split at hretry
  · simp only [Option.some.injEq, Bool.and_eq_true, decide_eq_true_eq] at hretry
    exact hretry.2
  · split at hretry <;> simp at hretry

/-- A confirmation that finds its attempt keeps within the budget of the job. -/
lemma confirm_within_budget (hw : WorldOK w) {a : Action} (hguard : confirmsItsAttempt w a = true)
    (hstep : (system cfg).step w a = some w') {k : Uuid} {n : Nat} {j : Job}
    (he : Action.jobEvent w a = .confirm k n retryWait) (hj : w.db.jobs.get k = some j) :
    j.currentAttemptNumber ≤ j.maxRetries := by
  rcases step_cases hstep with ⟨d, rfl, -⟩ | ⟨b, db', c', rfl, hjob, -⟩ | ⟨b, db', c', rfl, -, -⟩
  · cases he
  · cases b with
    | confirmJobRecovery item deleteConfirmed =>
      obtain ⟨retry, hmem, hretry, -, -⟩ := confirmJobRecovery_step hjob
      obtain ⟨rfl, -, htarget⟩ := JobEvent.confirm.inj he
      obtain ⟨-, -, j₀, -, -, -, -, -, hj₀, hmax, -⟩ := hw.jobClients.begun item hmem
      obtain rfl : j = j₀ := Option.some.inj (hj.symm.trans hj₀)
      have hcur : j.currentAttemptNumber = item.attemptNumber := by
        simpa [confirmsItsAttempt, hj] using hguard
      rw [hretry, Option.getD_some] at htarget
      rw [hcur, hmax]
      exact recovery_within_budget hretry htarget
    | _ => cases he
  · cases he

structure BudgetInv (w : World) : Prop where
  recovery : RecoveryInv w
  left : RetriesLeft (jobView w.db)
  scanned : ∀ u ∈ w.jobs.unadmitted, u.currentAttemptNumber ≤ u.maxRetries

lemma budgetInv_init : BudgetInv World.init where
  recovery := recoveryInv_init
  left := by
    intro k j hj
    cases hj
  scanned u hu := by cases hu

/-- A claimed intent belongs to the current attempt, so the executor that ends it and the job agree on the
number that the budget is compared with. -/
lemma BudgetInv.step_left (h : BudgetInv w) (hw : WorldOK w) {a : Action} (hguard : confirmsItsAttempt w a = true)
    (hstep : (system cfg).step w a = some w') : RetriesLeft (jobView w'.db) := by
  have hside := job_side hw hstep
  refine h.left.step hw.jobs hside fun {k j j'} hj hj' hr => ?_
  rcases hside.enters_retryWait hj hj' hr with hold | ⟨n, he⟩ | ⟨i, a, -, hi, hclaimed, ha, hajob, hle, -⟩
  · exact .inl hold
  · exact .inr (confirm_within_budget hw hguard hstep he (hw.jobs.jobKey hj ▸ hj))
  · have hlive : Live (jobView w.db) i a j := ⟨hi, by simp [IntentStatus.isLive, hclaimed], ha, hajob ▸ hj⟩
    exact .inr (h.recovery.exclusive.current hlive ▸ hle)

/-- The scan alone adds to the rows that wait for their admission. -/
lemma unadmitted_eq {db db' : Db} {c c' : JobClients} {b : JobAction} (h : jobStep cfg db c b = some (db', c'))
    (hscan : ∀ limit, b ≠ .scanUnadmittedJobs limit) : c'.unadmitted = c.unadmitted := by
  cases b with
  | findExpiredJobIntents => cases h; rfl
  | beginJobRecovery item =>
    obtain ⟨-, -, -, rfl⟩ := beginJobRecovery_step h
    rfl
  | scanRetryWaitJobs limit => cases h; rfl
  | scanUnadmittedJobs limit => exact absurd rfl (hscan limit)
  | claimNextJobAttempt workerId lease wss locked =>
    obtain ⟨wl, -, rfl⟩ := claimNextJobAttempt_step h
    rfl
  | _ => rw [jobStep_sameClients h rfl]

lemma BudgetInv.step_scanned (h : BudgetInv w) {a : Action} (hstep : (system cfg).step w a = some w') :
    ∀ u ∈ w'.jobs.unadmitted, u.currentAttemptNumber ≤ u.maxRetries := by
  rcases step_cases hstep with ⟨d, rfl, rfl⟩ | ⟨b, db', c', rfl, hjob, rfl⟩ | ⟨b, db', c', rfl, hserv, rfl⟩
  · exact h.scanned
  · by_cases hscan : ∃ limit, b = .scanUnadmittedJobs limit
    · obtain ⟨limit, rfl⟩ := hscan
      cases hjob
      intro u hu
      rcases List.mem_append.mp hu with hu | hu
      · exact h.scanned u hu
      · obtain ⟨j, hj, hq, rfl⟩ := mem_scanUnadmittedJobs hu
        exact h.left _ j hj (.inl hq)
    · rw [show c'.unadmitted = w.jobs.unadmitted from unadmitted_eq hjob (not_exists.mp hscan)]
      exact h.scanned
  · exact h.scanned

lemma BudgetInv.step (h : BudgetInv w) (hw : WorldOK w) {a : Action} (hguard : confirmsItsAttempt w a = true)
    (hstep : (system cfg).step w a = some w') : BudgetInv w' :=
  ⟨h.recovery.step hw (confirmsItsAttempt.current hguard) hstep, h.step_left hw hguard hstep, h.step_scanned hstep⟩

lemma reach_budget (h : (system cfg).Reach (fun w a => confirmsItsAttempt w a = true) w) : BudgetInv w := by
  have hinv : BudgetInv w ∧ WorldOK w := by
    refine h.invariant (P := fun u => BudgetInv u ∧ WorldOK u) ⟨budgetInv_init, worldOK_init⟩ ?_
    rintro u a u' ⟨hb, hok⟩ hguard hstep
    exact ⟨hb.step hok hguard hstep, hok.step hstep⟩
  exact hinv.1

/-- Only the check of the row itself ends in this error. -/
lemma createJobAttemptIntent_exhausted {db : Db} {u : UnadmittedJob} {n m : Nat}
    (h : createJobAttemptIntent db u = .error (.retryBudgetExhausted n m)) : u.maxRetries < u.currentAttemptNumber := by
  unfold createJobAttemptIntent at h
  rcases bind_eq_error.mp h with hbudget | ⟨-, -, h⟩
  · obtain ⟨hgt, -⟩ := ensure_eq_error.mp hbudget
    omega
  · split at h
    · cases h
    · rcases bind_eq_error.mp h with h | ⟨attempts, -, h⟩
      · cases (orError_eq_error.mp h).2
      · split at h
        · cases h
        · simp only at h
          split at h
          · cases h
          · rcases bind_eq_error.mp h with h | ⟨intents, -, h⟩
            · cases (orError_eq_error.mp h).2
            · rcases bind_eq_error.mp h with h | ⟨db₃, -, h⟩
              · cases (orError_eq_error.mp h).2
              · cases h

/-- With one scheduler process, any number of executors and any requests, every job that waits for an attempt has a
retry left for it, and no admission of a row that a scan has returned ends in the error of the retry budget. -/
theorem budget_never_exhausted (cfg : Settings) {p : ProcessWorld} (h : (processSystem cfg).Reachable p) :
    (∀ j ∈ p.world.db.jobs.rows, j.state = queued ∨ j.state = retryWait → j.currentAttemptNumber ≤ j.maxRetries) ∧
      ∀ u ∈ p.world.jobs.unadmitted, ∀ n m,
        createJobAttemptIntent p.world.db u ≠ .error (.retryBudgetExhausted n m) := by
  have hinv : BudgetInv p.world := reach_budget (process_reach h)
  refine ⟨fun j hj hst => hinv.left _ j (Table.get_of_mem hj) hst, fun u hu n m he => ?_⟩
  have hle := hinv.scanned u hu
  have hgt := createJobAttemptIntent_exhausted he
  omega

/-- The only retry of a job is scanned for its second and last attempt. -/
def lastRetry : (processSystem Settings.default).FreeRun where
  labels := List.flatten
    [[.other (.job (.submitJob 100 ⟨"quay.io/tool", 600, 1⟩))], proceeds 8,
      [.other (.job (.claimNextJobAttempt "executor-1" (30 * second) [] [])),
        .other (.job (.markJobAttemptRunning ⟨2, 1, 0, 100, 600, 1, 1, .job 0 1, 1⟩)),
        .other (.job (.markJobAttemptFailed ⟨2, 1, 0, 100, 600, 1, 1, .job 0 1, 1⟩ "exit" 1)),
        .other (.tick (6 * second))],
      proceeds 7]
  executes := by decide +kernel

theorem budget_never_exhausted_lastRetry : ∃ p, (processSystem Settings.default).Reachable p ∧
    p.world.db.jobs.rows.map Job.state = [queued] ∧
    ⟨0, 100, 600, 1, 1, .queued⟩ ∈ p.world.jobs.unadmitted ∧
    (∀ j ∈ p.world.db.jobs.rows, j.state = queued ∨ j.state = retryWait → j.currentAttemptNumber ≤ j.maxRetries) ∧
      ∀ u ∈ p.world.jobs.unadmitted, ∀ n m,
        createJobAttemptIntent p.world.db u ≠ .error (.retryBudgetExhausted n m) :=
  ⟨lastRetry.final, lastRetry.reachable, by decide +kernel, by decide +kernel,
    budget_never_exhausted Settings.default lastRetry.reachable⟩

end HamiCloud.Proofs
