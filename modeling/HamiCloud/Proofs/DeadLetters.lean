import HamiCloud.Proofs.Outcomes

/-!
# Dead letters are exact

A dead letter is written by the transaction that fails the job, and before it by the trigger on `jobs`; both
find the same row, and what the transaction writes is what its attempt records. A recovered attempt always has
a reason, so the text that stands for a missing reason is never used.
-/

namespace HamiCloud.Proofs

open Library JobState

variable {cfg : Settings}

def deadLettersOf (db : Db) (jobId : Uuid) : List DeadLetterRecord :=
  db.deadLetters.rows.filter fun r => r.jobId = jobId

/-- A job has a dead letter if and only if it has failed, and then exactly one, which reports the result of
its current attempt. -/
structure DeadLettersExact (db : Db) : Prop where
  failedJob : ∀ j ∈ db.jobs.rows, j.state = failed → ∃ r, deadLettersOf db j.id = [r] ∧
    ∃ a ∈ db.attempts.rows, a.jobId = j.id ∧ a.attemptNumber = j.currentAttemptNumber ∧
      DeadLetterRecord.reports r j.currentAttemptNumber a.exitCode a.failureReason
  otherJob : ∀ j ∈ db.jobs.rows, j.state ≠ failed → deadLettersOf db j.id = []

/-! ### The invariant -/

/-- The states in which `ConfirmJobRecovery` finds a job that it fails. -/
def isRecoverable (s : JobState) : Bool := s ∈ [starting, running, recoveryPending]

/-- An attempt that a recovery has failed, and whose job has not been moved on yet, has a reason. -/
def HasReason (v : JobView) : Prop :=
  ∀ k a j, v.attempt k = some a → v.job a.jobId = some j →
    a.attemptNumber = j.currentAttemptNumber → a.state = failed → isRecoverable j.state = true →
    ∃ reason, a.failureReason = some reason ∧ reason ≠ ""

structure Letters (db : Db) : Prop where
  failedJob : ∀ {k j}, db.jobs.get k = some j → j.state = failed → ∃ r, db.deadLetters.get k = some r
  letter : ∀ {k r}, db.deadLetters.get k = some r → ∃ j k' a, db.jobs.get k = some j ∧ j.state = failed ∧
    db.attempts.get k' = some a ∧ a.jobId = k ∧ a.attemptNumber = j.currentAttemptNumber ∧ a.state = failed ∧
    DeadLetterRecord.reports r j.currentAttemptNumber a.exitCode a.failureReason

/-- An attempt that has ended is kept as it is. -/
lemma ended_attempt_kept {now : Time} {v v' : JobView} {e : JobEvent} {k : Uuid} {a : JobAttempt}
    (hstep : JobStep now v e v') (hwf : JobWF v) (ha : v.attempt k = some a) (hended : a.state.hasEnded = true) :
    v'.attempt k = some a := by
  obtain ⟨k', i, hi, hres⟩ := hwf.intentOf ha
  have hadmits := hwf.status hi (hres ▸ ha)
  have hfinal : i.status.isFinal = true := by
    cases hs : i.status <;> simp [hs, IntentStatus.admits] at hadmits <;>
      simp [IntentStatus.isFinal, JobState.hasEnded] at hended ⊢ <;> grind
  rw [← hres, hstep.final_attempt hwf hi hfinal, hres, ha]

/-- A failed job stays as it is. -/
lemma failed_job_kept {now : Time} {v v' : JobView} {e : JobEvent} {k : Uuid} {j : Job}
    (hstep : JobStep now v e v') (hwf : JobWF v) (hj : v.job k = some j) (hf : j.state = failed) :
    ∃ j', v'.job k = some j' ∧ j'.state = failed ∧ j'.currentAttemptNumber = j.currentAttemptNumber := by
  obtain ⟨j', hj', -, hedge, hcur⟩ := hstep.job_row hwf hj
  refine ⟨j', hj', by simpa [hf, contract] using hedge, ?_⟩
  rcases hcur with ⟨hcur, -⟩ | ⟨hq, -⟩
  · exact hcur
  · rw [hf] at hq
    cases hq

namespace Letters

variable {db db' : Db} {e : JobEvent}

/-- The rows that a dead letter reports on are kept. -/
lemma kept (h : Letters db) (hwf : JobWF (jobView db)) (hstep : JobStep db.now (jobView db) e (jobView db'))
    {k : Uuid} {r : DeadLetterRecord} (hr : db.deadLetters.get k = some r) :
    ∃ j k' a, db'.jobs.get k = some j ∧ j.state = failed ∧ db'.attempts.get k' = some a ∧ a.jobId = k ∧
      a.attemptNumber = j.currentAttemptNumber ∧ a.state = failed ∧
      DeadLetterRecord.reports r j.currentAttemptNumber a.exitCode a.failureReason := by
  obtain ⟨j, k', a, hj, hf, ha, hjob, hnum, hst, hreports⟩ := h.letter hr
  obtain ⟨j', hj', hf', hcur⟩ := failed_job_kept hstep hwf hj hf
  have ha' := ended_attempt_kept hstep hwf ha (by simp [hst, JobState.hasEnded])
  exact ⟨j', k', a, hj', hf', ha', hjob, hnum.trans hcur.symm, hst, hcur ▸ hreports⟩

lemma quiet (h : Letters db) (hwf : JobWF (jobView db)) (hstep : JobStep db.now (jobView db) e (jobView db'))
    (hfails : e.fails = false) (hletters : db'.deadLetters = db.deadLetters) : Letters db' where
  failedJob hj hf := by
    obtain ⟨j, hj₀, hf₀⟩ := hstep.failed_job hfails hj hf
    rw [hletters]
    exact h.failedJob hj₀ hf₀
  letter hr := h.kept hwf hstep (hletters ▸ hr)

lemma mayFail {jobId k₀ : Uuid} {a₀ : JobAttempt} {j₀ : Job} (h : Letters db) (hwf : JobWF (jobView db))
    (hstep : JobStep db.now (jobView db) e (jobView db'))
    (hmay : MayFail db db' jobId a₀.exitCode a₀.failureReason) (hj₀ : db.jobs.get jobId = some j₀)
    (ha₀ : db'.attempts.get k₀ = some a₀) (hjob₀ : a₀.jobId = jobId)
    (hnum₀ : a₀.attemptNumber = j₀.currentAttemptNumber) (hst₀ : a₀.state = failed) : Letters db' := by
  obtain ⟨j, j', hj, hj', hcur, hcases⟩ := hmay.job
  obtain rfl : j = j₀ := Option.some.inj (hj.symm.trans hj₀)
  constructor
  · intro k jk hjk hf
    by_cases hk : k = jobId
    · subst hk
      obtain rfl : j' = jk := Option.some.inj (hj'.symm.trans hjk)
      rcases hcases with ⟨hne, -⟩ | ⟨-, r, hr, -⟩
      · exact absurd hf hne
      · exact ⟨r, hr⟩
    · rw [hmay.otherJobs k hk] at hjk
      rw [hmay.otherLetters k hk]
      exact h.failedJob hjk hf
  · intro k r hr
    by_cases hk : k = jobId
    · subst hk
      rcases hcases with ⟨-, hletters⟩ | ⟨hf, r', hr', hreports⟩
      · exact h.kept hwf hstep (hletters ▸ hr)
      · obtain rfl : r' = r := Option.some.inj (hr'.symm.trans hr)
        exact ⟨j', k₀, a₀, hj', hf, ha₀, hjob₀, hnum₀.trans hcur.symm, hst₀, hcur ▸ hreports⟩
    · rw [hmay.otherLetters k hk] at hr
      exact h.kept hwf hstep hr

end Letters

section Steps

variable {w : World} {b : JobAction} {db' : Db} {c' : JobClients}

/-- The job of an attempt that its executor has failed is moved on in the same transaction. -/
lemma finished_job {intentId attemptId jobId : Uuid} {epoch : Nat} {o : Outcome} {db db' : Db}
    (h : Finished db intentId attemptId jobId epoch o db') :
    ∃ j, db.jobs.get jobId = some j ∧ j.state ∈ o.sources ∧ db'.jobs.get jobId = some (finishJob o db.now j) := by
  obtain ⟨i, j, f, hf, g, hg, k, hk, dead, events, -, -, -, hj, hsrc, -, -, hkj, rfl⟩ := h
  exact ⟨j, hj, hsrc, hkj ▸ Table.get_set_self hj hk⟩

lemma not_recoverable {retry : Bool} {s : JobState} (h : s ∈ (Outcome.failed retry).sources) :
    isRecoverable ((Outcome.failed retry).jobState s) = false := by
  revert h
  cases retry <;> cases s <;> decide

/-- The job of an attempt before a step that gives it no new one. -/
lemma recoverable_before {s t : JobState} (hedge : t = s ∨ t ∈ contract s) (ht : isRecoverable t = true)
    (hne : s ≠ admitted) : isRecoverable s = true := by
  rcases hedge with rfl | hmem
  · exact ht
  · revert hmem ht hne
    cases s <;> cases t <;> decide

/-- A job that a confirmation can fail, and whose last attempt has ended, waits for that confirmation. -/
lemma recoverable_of_edge {s t : JobState} (hedge : failed ∈ contract s) (hlast : t ∈ s.lastAttempt)
    (hended : t.hasEnded = true) : isRecoverable s = true ∧ t = failed := by
  revert hedge hlast hended
  cases s <;> cases t <;> decide

lemma HasReason.jobStep (h : HasReason (jobView w.db)) (ho : OutcomeInv w) (hw : WorldOK w)
    (hstep : jobStep cfg w.db w.jobs b = some (db', c')) : HasReason (jobView db') := by
  intro k a' j' ha' hj' hnum hst hrec
  have href := jobStep_refines hw.jobClients hstep
  rcases jobStep_ended hstep ha' (by simp [hst, JobState.hasEnded]) with hold | hends
  · obtain ⟨j, hj, -, -⟩ := hw.jobs.attemptJob hold
    obtain ⟨j₁, hj₁, -, hedge, hcur⟩ := href.job_row hw.jobs hj
    obtain rfl : j' = j₁ := Option.some.inj (hj'.symm.trans hj₁)
    rcases hcur with ⟨hcur, -⟩ | ⟨-, hadm, -⟩
    · have hlast := ho.outcomes.last hold hj (hnum.trans hcur)
      have hne : j.state ≠ admitted := by
        intro hadm
        simp [hadm, hst, JobState.lastAttempt] at hlast
      exact h k a' j hold hj (hnum.trans hcur) hst (recoverable_before hedge hrec hne)
    · simp [hadm, isRecoverable] at hrec
  · cases hends with
    | succeeded wl uid _ _ hs => simp [hs] at hst
    | cancelled wl _ _ hs => simp [hs] at hst
    | expired item now a hid =>
      by_cases hcr : item.jobState = cancelRequested
      · simp [finalizeExpired, hcr] at hst
      · exact ⟨"Worker lease expired; executor lost", by simp [finalizeExpired, hcr], by decide⟩
    | failed wl reason exitCode _ hid =>
      obtain ⟨hmem, hdb, -⟩ := held_commit_inv hstep
      obtain ⟨i, a, -, -, -, ha, hjob, -⟩ := hw.jobClients.claims wl hmem
      obtain ⟨a₁, ha₁, hspec⟩ := href.attempt_row ha
      have hk : k = wl.jobAttemptId := (Table.key_of_get ha').symm.trans hid
      obtain rfl : a' = a₁ := Option.some.inj (ha'.symm.trans (hk ▸ ha₁))
      have hjob' : a'.jobId = wl.jobId := (JobAttempt.spec_eq.mp hspec).2.1.trans hjob
      obtain ⟨j, -, hsrc, hjob₁⟩ := finished_job (markJobAttemptFailed_inv hdb)
      have hfin : finishJob (.failed (decide (wl.attemptNumber ≤ wl.maxRetries))) w.db.now j = j' :=
        Option.some.inj (hjob₁.symm.trans (hjob' ▸ hj'))
      rw [← hfin] at hrec
      exact absurd hrec (by rw [finishJob, not_recoverable hsrc]; simp)

lemma confirmJobRecovery_quiet {db : Db} {jobId : Uuid} {retry isCancel : Bool}
    (h : confirmJobRecovery db jobId retry isCancel = .ok db') (hne : recoveryTarget retry isCancel ≠ failed) :
    db'.deadLetters = db.deadLetters := by
  unfold confirmJobRecovery at h
  simp only [bind_eq_ok, orError_eq_ok, pure_eq_ok] at h
  obtain ⟨⟨j', db₁⟩, hu, rfl⟩ := h
  obtain ⟨j, dead, -, -, hj', -⟩ := updateJob_inv hu
  exact (if_neg hne).trans ((updateJob_deadLetters hu).1 (by rw [hj']; exact hne))

/-- The attempt that a confirmation gives up was failed by the first step of its recovery. -/
lemma Letters.confirm {item : ExpiredJobRecoveryInfo} {deleteConfirmed : Bool} (h : Letters w.db)
    (hreason : HasReason (jobView w.db)) (ho : OutcomeInv w) (hw : WorldOK w)
    (hguard : confirmsItsAttempt w (.job (.confirmJobRecovery item deleteConfirmed)) = true)
    (hstep : jobStep cfg w.db w.jobs (.confirmJobRecovery item deleteConfirmed) = some (db', c')) :
    Letters db' := by
  have href := jobStep_refines hw.jobClients hstep
  have hidle := confirmsIdle ho.recovery hw hguard hstep
  obtain ⟨retry, hmem, hretry, hdb, -⟩ := confirmJobRecovery_step hstep
  have hevent : jobEvent w.db (.confirmJobRecovery item deleteConfirmed) =
      .confirm item.jobId item.attemptNumber (recoveryTarget retry item.isCancel) := by
    rw [jobEvent, hretry, Option.getD_some]
  by_cases htarget : recoveryTarget retry item.isCancel = failed
  · obtain ⟨j, dead, hj, hedge, hdb'⟩ := confirmJobRecovery_inv hdb
    obtain ⟨hnolive, hpos⟩ := hidle _ _ _ hevent
    obtain ⟨k, a, ha, hjob, hnum⟩ := hw.jobs.attemptOf hj (hpos j hj) le_rfl
    have haj : (jobView w.db).job a.jobId = some j := hjob ▸ hj
    have hjid : j.id = item.jobId := Table.key_of_get hj
    have hended : a.state.hasEnded = true := hw.jobs.ended ha haj (hjid ▸ hnolive)
    obtain ⟨hrec, hst⟩ := recoverable_of_edge (htarget ▸ hedge) (ho.outcomes.last ha haj hnum) hended
    obtain ⟨reason, hsome, hne⟩ := hreason k a j ha haj hnum hst hrec
    have ha' : db'.attempts.get k = some a := by rw [hdb']; exact ha
    exact h.mayFail hw.jobs href (confirmJobRecovery_deadLetters hdb hj hw.jobs ha hjob hnum hsome hne) hj ha' hjob
      hnum hst
  · refine h.quiet hw.jobs href ?_ (confirmJobRecovery_quiet hdb htarget)
    simp [hevent, JobEvent.fails, htarget]

lemma Letters.failure {wl : ClaimedJobWorkload} {reason : String} {exitCode : Int} (h : Letters w.db)
    (ho : OutcomeInv w) (hw : WorldOK w)
    (hstep : jobStep cfg w.db w.jobs (.markJobAttemptFailed wl reason exitCode) = some (db', c')) :
    Letters db' := by
  have href := jobStep_refines hw.jobClients hstep
  obtain ⟨hmem, hdb, -⟩ := held_commit_inv hstep
  obtain ⟨i, a, j, hi, hres, ha, hjob, -, hj, -, -⟩ := hw.jobClients.claims wl hmem
  obtain ⟨i₁, -, -, -, -, -, -, -, -, -, hi₁, -, hclaimed, -⟩ := markJobAttemptFailed_inv hdb
  obtain rfl : i = i₁ := Option.some.inj (hi.symm.trans hi₁)
  have hlive : Live (jobView w.db) i a j :=
    ⟨Table.key_of_get hi ▸ hi, by simp [IntentStatus.isLive, hclaimed], hres ▸ ha, hjob ▸ hj⟩
  have ha' := congrArg (fun t : Table JobAttempt.id => t.get wl.jobAttemptId) (markJobAttemptFailed_attempts hdb)
  have hget := ha'.trans (Table.get_set_self ha)
  have hcurrent : a.attemptNumber = j.currentAttemptNumber := ho.recovery.exclusive.current hlive
  exact h.mayFail hw.jobs href (markJobAttemptFailed_deadLetters hdb) hj hget hjob hcurrent rfl

lemma Letters.jobStep (h : Letters w.db) (hreason : HasReason (jobView w.db)) (ho : OutcomeInv w) (hw : WorldOK w)
    (hguard : confirmsItsAttempt w (.job b) = true) (hstep : jobStep cfg w.db w.jobs b = some (db', c')) :
    Letters db' := by
  have hquiet : JobAction.mayFail b = false → (jobEvent w.db b).fails = false → Letters db' := fun hb hfails =>
    h.quiet hw.jobs (jobStep_refines hw.jobClients hstep) hfails (jobStep_deadLetters hstep hb)
  cases b with
  | confirmJobRecovery item deleteConfirmed => exact h.confirm hreason ho hw hguard hstep
  | markJobAttemptFailed wl reason exitCode => exact h.failure ho hw hstep
  | _ => exact hquiet rfl rfl

end Steps

/-- Everything that is needed along a run. -/
structure DeadLetterInv (w : World) : Prop where
  ok : WorldOK w
  outcomes : OutcomeInv w
  hasReason : HasReason (jobView w.db)
  letters : Letters w.db

lemma deadLetterInv_init : DeadLetterInv World.init where
  ok := worldOK_init
  outcomes := outcomeInv_init
  hasReason := by
    intro k a j ha
    cases ha
  letters := by
    constructor
    · intro k j hj
      cases hj
    · intro k r hr
      cases hr

lemma DeadLetterInv.step {w w' : World} {a : Action} (h : DeadLetterInv w) (hguard : confirmsItsAttempt w a = true)
    (hstep : (system cfg).step w a = some w') : DeadLetterInv w' := by
  refine ⟨h.ok.step hstep, h.outcomes.step h.ok hguard hstep, ?_, ?_⟩
  · rcases step_cases hstep with ⟨d, rfl, rfl⟩ | ⟨b, db', c', rfl, hjob, rfl⟩ | ⟨b, db', c', rfl, hserv, rfl⟩
    · exact h.hasReason
    · exact h.hasReason.jobStep h.outcomes h.ok hjob
    · exact jobView_of_frame (serviceStep_jobs hserv) ▸ h.hasReason
  · rcases step_cases hstep with ⟨d, rfl, rfl⟩ | ⟨b, db', c', rfl, hjob, rfl⟩ | ⟨b, db', c', rfl, hserv, rfl⟩
    · exact ⟨h.letters.failedJob, h.letters.letter⟩
    · exact h.letters.jobStep h.hasReason h.outcomes h.ok hguard hjob
    · exact h.letters.quiet h.ok.jobs (job_side h.ok hstep) rfl (serviceStep_deadLetters hserv)

lemma DeadLetterInv.exact {w : World} (h : DeadLetterInv w) : DeadLettersExact w.db where
  failedJob j hj hf := by
    have hget := Table.get_of_mem hj
    obtain ⟨r, hr⟩ := h.letters.failedJob hget hf
    obtain ⟨j', k, a, hj', -, ha, hjob, hnum, -, hreports⟩ := h.letters.letter hr
    obtain rfl : j = j' := Option.some.inj (hget.symm.trans hj')
    refine ⟨r, ?_, a, Table.mem_of_get ha, hjob, hnum, hreports⟩
    rw [deadLettersOf, Table.filter_key, hr]
    rfl
  otherJob j hj hne := by
    rw [deadLettersOf, Table.filter_key]
    cases hr : w.db.deadLetters.get j.id with
    | none => rfl
    | some r =>
      obtain ⟨j', -, -, hj', hf, -⟩ := h.letters.letter hr
      obtain rfl : j = j' := Option.some.inj ((Table.get_of_mem hj).symm.trans hj')
      exact absurd hf hne

/-- With one scheduler process, any number of executors and any requests, the dead letters are exact in every
reachable state. -/
theorem dead_letters_exact (cfg : Settings) {p : ProcessWorld} (h : (processSystem cfg).Reachable p) :
    DeadLettersExact p.world.db :=
  ((process_reach h).invariant (P := DeadLetterInv) deadLetterInv_init
    (fun _ _ _ hw hguard hstep => hw.step hguard hstep)).exact

/-- Job `0` has no retries: its worker is lost, and the process gives it up. Job `4` fails in its only attempt. -/
def givenUpRun : List (List ProcessAction) :=
  [[.other (.job (.submitJob 100 ⟨"quay.io/tool", 600, 0⟩))], proceeds 8,
    [.other (.job (.claimNextJobAttempt "executor-1" (30 * second) [] [])),
      .other (.job (.markJobAttemptRunning ⟨2, 1, 0, 100, 600, 0, 1, .job 0 1, 1⟩)), .other (.tick (31 * second))],
    proceeds 8, [.other (.job (.submitJob 100 ⟨"quay.io/tool", 600, 0⟩))], proceeds 10,
    [.other (.job (.claimNextJobAttempt "executor-2" (30 * second) [] [])),
      .other (.job (.markJobAttemptFailed ⟨6, 5, 4, 100, 600, 0, 1, .job 4 1, 1⟩ "OOMKilled" 137))]]

def givenUp : (processSystem Settings.default).FreeRun where
  labels := givenUpRun.flatten
  executes := by decide +kernel

theorem dead_letters_exact_given_up : ∃ p, (processSystem Settings.default).Reachable p ∧
    p.world.db.deadLetters.rows.map (fun r => (r.jobId, r.exitCode, r.failureReason)) =
      [(0, some (-1), some "Worker lease expired; executor lost"), (4, some 137, some "OOMKilled")] ∧
    DeadLettersExact p.world.db :=
  ⟨givenUp.final, givenUp.reachable, by decide +kernel, dead_letters_exact Settings.default givenUp.reachable⟩

end HamiCloud.Proofs
