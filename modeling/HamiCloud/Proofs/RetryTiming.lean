import HamiCloud.Proofs.Outcomes
import HamiCloud.Proofs.Timestamps

/-!
# No early retry

The delay of a retry is computed from a row that an earlier query has returned, while the requeue itself checks
the state of the job alone. With one scheduler process the two still belong together: a job that leaves
`RETRY_WAIT` within a pass does not come back to it before the pass is over.
-/

namespace HamiCloud.Proofs

open Library JobState

variable {cfg : Settings}

/-! ### The backoff -/

/-- The delay before the attempt that follows attempt `n`. -/
def retryDelay (n : Nat) : Time := min (60 * second) (5 * second * 2 ^ (n - 1))

lemma retryBackoff_eq (n : Nat) : retryBackoff schedulerBackoff n = retryDelay n := by
  unfold retryBackoff retryDelay schedulerBackoff
  rw [Nat.min_comm]
  rcases Nat.le_total (n - 1) 5 with h | h
  · simp [Nat.min_eq_left h]
  · have hpow : 2 ^ 5 ≤ 2 ^ (n - 1) := Nat.pow_le_pow_right (by decide) h
    simp only [Nat.min_eq_right h]
    rw [Nat.min_eq_left (by decide), Nat.min_eq_left]
    exact le_trans (by decide) (Nat.mul_le_mul_left (5 * second) hpow)

lemma toInt_pred {n : Int64} (h : 0 < n) : (n - 1).toInt = n.toInt - 1 := by
  have hpos : 0 < n.toInt := by simpa using Int64.lt_iff_toInt_lt.mp h
  have hlt := n.toInt_lt
  rw [Int64.toInt_sub]
  apply Int.bmod_eq_of_le <;> simp <;> omega

/-- Five doublings are past the cap, so the shift is never large enough to overflow. -/
lemma retryBackoff64_of_five_le {n : Int64} (h : 5 < n.toInt) : retryBackoff64 5000000000 n = 60000000000 := by
  have hpos : 0 < n := by
    rw [Int64.lt_iff_toInt_lt]
    exact lt_trans (by decide) h
  have hpred := toInt_pred hpos
  have hnonneg : ¬n - 1 < 0 := by
    rw [Int64.lt_iff_toInt_lt, hpred]
    simp
    omega
  unfold retryBackoff64
  simp only [hnonneg, if_false]
  by_cases hbig : 5 < n - 1
  · simp only [hbig, if_true]
    decide
  · have hfive : n - 1 = 5 := by
      rw [Int64.lt_iff_toInt_lt, hpred] at hbig
      apply Int64.toInt_inj.mp
      rw [hpred]
      simp at hbig ⊢
      omega
    rw [hfive]
    decide

/-- The machine arithmetic computes the delay. -/
lemma retryBackoff64_eq {n : Int64} (h : 0 < n) :
    (retryBackoff64 5000000000 n).toInt = (retryDelay n.toInt.toNat : Int) := by
  have hpos : 0 < n.toInt := by simpa using Int64.lt_iff_toInt_lt.mp h
  by_cases hbig : 5 < n.toInt
  · have hdelay : retryDelay n.toInt.toNat = 60 * second := by
      have hpow : 2 ^ 5 ≤ 2 ^ (n.toInt.toNat - 1) := Nat.pow_le_pow_right (by decide) (by omega)
      exact Nat.min_eq_left (le_trans (by decide) (Nat.mul_le_mul_left (5 * second) hpow))
    rw [retryBackoff64_of_five_le hbig, hdelay]
    decide
  · have hcases : n.toInt = 1 ∨ n.toInt = 2 ∨ n.toInt = 3 ∨ n.toInt = 4 ∨ n.toInt = 5 := by omega
    have hn : n = 1 ∨ n = 2 ∨ n = 3 ∨ n = 4 ∨ n = 5 := by
      simp only [← Int64.toInt_inj]
      exact hcases
    rcases hn with rfl | rfl | rfl | rfl | rfl <;> decide

/-! ### A stay in `RETRY_WAIT` -/

/-- The job is in `RETRY_WAIT`. -/
def waits (w : World) (k : Uuid) : Bool := (w.db.jobs.get k).any fun j => j.state = retryWait

/-- A row in `RETRY_WAIT` is older than the step, or was stamped by it. -/
lemma waiting_row {w w' : World} {a : Action} (hw : WorldOK w) (hstep : w.step cfg a = some w') {k : Uuid} {j' : Job}
    (hj' : w'.db.jobs.get k = some j') (hr : j'.state = retryWait) :
    w.db.jobs.get k = some j' ∨ (waits w k = false ∧ j'.updatedAt = w.db.now) := by
  rcases step_cases hstep with ⟨d, rfl, rfl⟩ | ⟨b, db', c', rfl, hjob, rfl⟩ | ⟨b, db', c', rfl, hserv, rfl⟩
  · exact .inl hj'
  · cases hj : w.db.jobs.get k with
    | none =>
      have hside := jobStep_refines hw.jobClients hjob
      rw [(hside.new_job hj hj').1] at hr
      cases hr
    | some j =>
      cases jobStep_stamp hjob hj hj' with
      | same => exact .inl rfl
      | moved hedge _ hstamp =>
        refine .inr ⟨?_, hstamp⟩
        rw [hr] at hedge
        cases hs : j.state <;> simp [hs, contract] at hedge <;> simp [waits, hj, hs]
      | claimed _ hcr _ => rw [hr] at hcr; cases hcr
      | requeued _ _ _ _ _ _ _ _ => cases hr
  · have hframe := serviceStep_jobs hserv
    simp only [jobFrame, Prod.mk.injEq] at hframe
    exact .inl (hframe.2.1 ▸ hj')

lemma process_waiting_row {p p' : ProcessWorld} {a : ProcessAction} (hw : WorldOK p.world)
    (hstep : p.step cfg a = some p') {k : Uuid} {j' : Job} (hj' : p'.world.db.jobs.get k = some j')
    (hr : j'.state = retryWait) :
    p.world.db.jobs.get k = some j' ∨ (waits p.world k = false ∧ j'.updatedAt = p.world.db.now) := by
  rcases process_step hstep with he | ⟨b, -, hb⟩
  · exact .inl (he ▸ hj')
  · exact waiting_row hw hb hj' hr

/-- A job in `RETRY_WAIT` that is queued by a step was requeued from a row of the pass, after its delay. -/
lemma process_requeued {p p' : ProcessWorld} {a : ProcessAction} (hstep : p.step cfg a = some p') {k : Uuid}
    {j j' : Job} (hj : p.world.db.jobs.get k = some j) (hr : j.state = retryWait)
    (hj' : p'.world.db.jobs.get k = some j') (hq : j'.state = queued) :
    ∃ row scannedAt t, transaction p.phase a = some (.job (.requeueRetryWaitJob scannedAt row t)) ∧ row.id = k ∧
      row.updatedAt + retryDelay row.attemptNumber ≤ p.world.db.now := by
  have hkept : p'.world.db.jobs.get k = p.world.db.jobs.get k → False := by
    intro he
    obtain rfl : j' = j := Option.some.inj (hj'.symm.trans (he.trans hj))
    rw [hr] at hq
    cases hq
  rcases process_step hstep with he | ⟨b, hb, hw'⟩
  · exact absurd (by rw [he]) hkept
  · rcases step_cases hw' with ⟨d, -, he⟩ | ⟨c, db', c', rfl, hjob, he⟩ | ⟨c, db', c', -, hserv, he⟩
    · exact absurd (by rw [he]; rfl) hkept
    · rw [he] at hj'
      cases jobStep_stamp hjob hj hj' with
      | same => rw [hr] at hq; cases hq
      | moved _ hne _ => exact absurd hq hne
      | claimed hcr _ _ => rw [hr] at hcr; cases hcr
      | requeued scannedAt row t hc hid _ hdelay ht =>
        subst hc
        refine ⟨row, scannedAt, t, hb, hid.trans (Table.key_of_get hj), ?_⟩
        rw [retryBackoff_eq] at hdelay
        exact hdelay.trans ht
    · have hframe := serviceStep_jobs hserv
      simp only [jobFrame, Prod.mk.injEq] at hframe
      exact absurd (by rw [he]; exact congrArg (fun jobs => jobs.get k) hframe.2.1) hkept

/-! ### The rows of the pass -/

/-- The rows of the scan that the process has still to requeue. -/
def retryRows : PassPhase → List RetryJob
  | .retries _ rows => rows
  | .requeue _ _ rows => rows
  | _ => []

lemma mem_retryRows {phase : PassPhase} {a : ProcessAction} {scannedAt t : Time} {row : RetryJob}
    (h : transaction phase a = some (.job (.requeueRetryWaitJob scannedAt row t))) : row ∈ retryRows phase := by
  cases a with
  | other b =>
    obtain ⟨hpass, hb⟩ := Option.ite_none_left_eq_some.mp h
    cases hb
    exact absurd rfl hpass
  | restart => cases h
  | proceed deleteConfirmed =>
    cases phase with
    | requeue s now rows =>
      cases rows with
      | nil => cases h
      | cons row' rows =>
        cases h
        exact List.mem_cons_self
    | recover items =>
      cases items with
      | nil => cases h
      | cons item rest =>
        obtain ⟨-, hb⟩ := Option.ite_none_right_eq_some.mp h
        cases hb
    | releases rows => cases rows <;> cases h
    | jobs rows => cases rows <;> cases h
    | _ => cases h

/-- The row still says when its job entered `RETRY_WAIT`, unless the job has left it; it cannot have come back,
since that takes an admission. -/
def RetryCurrent (db : Db) (r : RetryJob) : Prop :=
  ∃ j, db.jobs.get r.id = some j ∧
    (j.state = retryWait ∧ j.updatedAt = r.updatedAt ∧ j.currentAttemptNumber = r.attemptNumber ∨
      j.state = queued ∨ j.state = cancelRequested ∨ j.state = cancelled)

lemma retryCurrent_of_mem {db : Db} {limit : Nat} {r : RetryJob} (h : r ∈ scanRetryWaitJobs db limit) :
    RetryCurrent db r := by
  obtain ⟨j, hj, rfl⟩ := List.mem_map.mp h
  obtain ⟨hmem, hst⟩ := List.mem_filter.mp (mem_orderBy.mp (List.mem_of_mem_take hj))
  exact ⟨j, Table.get_of_mem hmem, .inl ⟨of_decide_eq_true hst, rfl, rfl⟩⟩

lemma RetryCurrent.step {w w' : World} {a : Action} {r : RetryJob} (h : RetryCurrent w.db r) (hw : WorldOK w)
    (hne : ∀ u, a ≠ .job (.createJobAttemptIntent u)) (hstep : w.step cfg a = some w') : RetryCurrent w'.db r := by
  obtain ⟨j, hj, hst⟩ := h
  have hside : JobStep w.db.now (jobView w.db) (Action.jobEvent w a) (jobView w'.db) := job_side hw hstep
  obtain ⟨j', hj', hcur⟩ := hside.job_current (jobEvent_ne_admission hne) hj
  obtain ⟨j₁, hj₁, -, hedge, hadm⟩ := hside.job_row hw.jobs hj
  obtain rfl : j' = j₁ := Option.some.inj (hj'.symm.trans hj₁)
  refine ⟨j', hj', ?_⟩
  by_cases hr : j'.state = retryWait
  · rcases waiting_row hw hstep hj' hr with hold | ⟨hnot, -⟩
    · obtain rfl : j = j' := Option.some.inj (hj.symm.trans hold)
      exact hst
    · -- the job was not waiting, and no other of its states leads to `RETRY_WAIT`
      rw [hr] at hedge
      rcases hst with ⟨hwas, -⟩ | hwas | hwas | hwas
      · simp [waits, hj, hwas] at hnot
      all_goals simp [hwas, contract] at hedge
  · have hnot : j'.state ≠ admitted := by
      intro hst'
      rcases hadm with ⟨-, hwas⟩ | ⟨-, -, hnext⟩
      · have := hwas hst'
        rcases hst with ⟨hs, -⟩ | hs | hs | hs <;> rw [hs] at this <;> cases this
      · omega
    right
    rcases hst with ⟨hs, -⟩ | hs | hs | hs <;> rw [hs] at hedge <;>
      simp only [contract, List.mem_cons, List.not_mem_nil, or_false] at hedge <;> tauto

lemma RetryCurrent.attempt {w : World} {a : Action} {r : RetryJob} (h : RetryCurrent w.db r) (hw : WorldOK w)
    (hne : ∀ u, a ≠ .job (.createJobAttemptIntent u)) : RetryCurrent (w.attempt cfg a).db r := by
  rcases attempt_cases w a with he | he
  · exact he.symm ▸ h
  · exact h.step hw hne he

def RetryInv (p : ProcessWorld) : Prop := ∀ r ∈ retryRows p.phase, RetryCurrent p.world.db r

lemma RetryInv.step {p p' : ProcessWorld} {a : ProcessAction} (h : RetryInv p) (hw : WorldOK p.world)
    (hstep : p.step cfg a = some p') : RetryInv p' := by
  obtain ⟨w, phase⟩ := p
  -- outside of the requeue the process holds no such rows
  have hnone : retryRows p'.phase = [] → RetryInv p' := fun he r hr => by
    rw [he] at hr
    cases hr
  cases a with
  | other b =>
    obtain ⟨hpass, hmap⟩ := Option.ite_none_left_eq_some.mp hstep
    obtain ⟨w', hw', rfl⟩ := Option.map_eq_some_iff.mp hmap
    refine fun r hr => (h r hr).step hw ?_ hw'
    rintro u rfl
    exact hpass rfl
  | restart =>
    cases hstep
    exact hnone rfl
  | proceed deleteConfirmed =>
    cases hstep
    cases phase with
    | recover items =>
      cases items with
      | nil => exact fun r hr => (retryCurrent_of_mem hr).attempt hw (by simp)
      | cons item rest =>
        apply hnone
        unfold ProcessWorld.proceed
        simp only
        split
        · split <;> rfl
        · rfl
    | retries scannedAt rows => exact h
    | requeue scannedAt now rows =>
      cases rows with
      | nil => exact hnone rfl
      | cons row rows => exact fun r hr => (h r (List.mem_cons_of_mem _ hr)).attempt hw (by simp)
    | releases rows => cases rows <;> exact hnone rfl
    | jobs rows => cases rows <;> exact hnone rfl
    | _ => exact hnone rfl

lemma process_ok {p : ProcessWorld} (h : (processSystem cfg).Reachable p) : WorldOK p.world :=
  reach_ok (process_reach h)

lemma reach_retryInv {p : ProcessWorld} (h : (processSystem cfg).Reachable p) : RetryInv p := by
  have hinv : (processSystem cfg).Reachable p ∧ RetryInv p := by
    refine h.invariant (P := fun q => (processSystem cfg).Reachable q ∧ RetryInv q) ⟨.refl _, ?_⟩ ?_
    · intro r hr
      cases hr
    · rintro q a q' ⟨hq, hrows⟩ - hstep
      exact ⟨.tail a hq trivial hstep, hrows.step (process_ok hq) hstep⟩
  exact hinv.2

/-! ### The delay -/

/-- A stay of a job in `RETRY_WAIT` after its attempt `n`, in a run of the system: the step that enters it, the
steps during which it lasts, and the step that puts the job back to the queue. -/
structure RetryStay (cfg : Settings) (k : Uuid) (n : Nat) (before entered last after : ProcessWorld) : Prop where
  reachable : (processSystem cfg).Reachable before
  outside : waits before.world k = false
  enters : ∃ a, (processSystem cfg).step before a = some entered
  stays : (processSystem cfg).Path (fun p _ => waits p.world k = true) entered last
  waiting : ∃ j, last.world.db.jobs.get k = some j ∧ j.state = retryWait ∧ j.currentAttemptNumber = n
  leaves : ∃ a, (processSystem cfg).step last a = some after
  queued : ∃ j, after.world.db.jobs.get k = some j ∧ j.state = queued

section Stay

variable {k : Uuid} {n : Nat} {before entered last after : ProcessWorld}

lemma RetryStay.reachable_entered (h : RetryStay cfg k n before entered last after) :
    (processSystem cfg).Reachable entered := by
  obtain ⟨a, ha⟩ := h.enters
  exact .tail a h.reachable trivial ha

lemma RetryStay.reachable_last (h : RetryStay cfg k n before entered last after) :
    (processSystem cfg).Reachable last :=
  h.reachable_entered.trans (h.stays.mono fun _ _ _ => trivial)

/-- During the stay `updated_at` is the time at which it began. -/
lemma RetryStay.updatedAt (h : RetryStay cfg k n before entered last after) {j : Job}
    (hj : last.world.db.jobs.get k = some j) (hr : j.state = retryWait) : j.updatedAt = before.world.db.now := by
  have hinv : (processSystem cfg).Reachable last ∧ ∀ j, last.world.db.jobs.get k = some j → j.state = retryWait →
      j.updatedAt = before.world.db.now := by
    refine h.stays.invariant (P := fun p => (processSystem cfg).Reachable p ∧ ∀ j, p.world.db.jobs.get k = some j →
      j.state = retryWait → j.updatedAt = before.world.db.now) ⟨h.reachable_entered, ?_⟩ ?_
    · obtain ⟨a, ha⟩ := h.enters
      intro j hj hr
      rcases process_waiting_row (process_ok h.reachable) ha hj hr with hold | ⟨-, hstamp⟩
      · have hout := h.outside
        simp [waits, hold, hr] at hout
      · exact hstamp
    · rintro p a p' ⟨hp, hold⟩ hwaits hstep
      refine ⟨.tail a hp trivial hstep, fun j hj hr => ?_⟩
      rcases process_waiting_row (process_ok hp) hstep hj hr with hj | ⟨hnot, -⟩
      · exact hold j hj hr
      · rw [hwaits] at hnot
        cases hnot
  exact hinv.2 j hj hr

lemma RetryStay.delayed (h : RetryStay cfg k n before entered last after) :
    before.world.db.now + retryDelay n ≤ last.world.db.now := by
  obtain ⟨j, hj, hr, rfl⟩ := h.waiting
  obtain ⟨a, ha⟩ := h.leaves
  obtain ⟨j', hj', hq⟩ := h.queued
  obtain ⟨row, scannedAt, t, htrans, hid, hdelay⟩ := process_requeued ha hj hr hj' hq
  have hmem := mem_retryRows htrans
  obtain ⟨j₀, hj₀, hst⟩ := reach_retryInv h.reachable_last row hmem
  obtain rfl : j = j₀ := Option.some.inj (hj.symm.trans (hid ▸ hj₀))
  rcases hst with ⟨-, hupd, hnum⟩ | hs | hs | hs
  · rw [← h.updatedAt hj hr, hupd, hnum]
    exact hdelay
  all_goals rw [hr] at hs; cases hs

end Stay

/-- With one scheduler process, any number of executors and any requests, a job that waits for a retry after its
attempt `n` is put back to the queue no earlier than `min (60 s) (5 s * 2 ^ (n - 1))` after it began to wait, and
the 64-bit arithmetic of the code computes that delay for every positive attempt number. -/
theorem no_early_retry (cfg : Settings) :
    (∀ k n before entered last after, RetryStay cfg k n before entered last after →
      1 ≤ n ∧ before.world.db.now + min (60 * second) (5 * second * 2 ^ (n - 1)) ≤ last.world.db.now) ∧
    ∀ n : Int64, 0 < n → (retryBackoff64 5000000000 n).toInt =
      ((min (60 * second) (5 * second * 2 ^ (n.toInt.toNat - 1)) : Nat) : Int) := by
  refine ⟨fun k n before entered last after h => ⟨?_, h.delayed⟩, fun n hn => retryBackoff64_eq hn⟩
  obtain ⟨j, hj, hr, rfl⟩ := h.waiting
  have hout : OutcomeInv last.world := reach_outcomes (process_reach h.reachable_last)
  exact hout.started (Table.mem_of_get hj) (by simp [hr]) (by simp [hr])

/-- The first attempt of a job is about to fail. -/
def beforeRetry : (processSystem Settings.default).FreeRun where
  labels := List.flatten
    [[.other (.job (.submitJob 100 ⟨"quay.io/tool", 600, 2⟩))], proceeds 8,
      [.other (.job (.claimNextJobAttempt "executor-1" (30 * second) [] [])),
        .other (.job (.markJobAttemptRunning ⟨2, 1, 0, 100, 600, 2, 1, .job 0 1, 1⟩))]]
  executes := by decide +kernel

def firstFailure : ProcessAction :=
  .other (.job (.markJobAttemptFailed ⟨2, 1, 0, 100, 600, 2, 1, .job 0 1, 1⟩ "exit" 1))

def retryEntered : ProcessWorld :=
  ((processSystem Settings.default).step beforeRetry.final firstFailure).get (by decide +kernel)

/-- Six seconds later the pass is about to requeue the job. -/
def retryLast : ProcessWorld :=
  ((processSystem Settings.default).execWhen (fun p _ => waits p.world 0) retryEntered
    (.other (.tick (6 * second)) :: proceeds 3)).get (by decide +kernel)

def retryAfter : ProcessWorld :=
  ((processSystem Settings.default).step retryLast (.proceed true)).get (by decide +kernel)

lemma firstRetryStay : RetryStay Settings.default 0 1 beforeRetry.final retryEntered retryLast retryAfter where
  reachable := beforeRetry.reachable
  outside := by decide +kernel
  enters := ⟨firstFailure, (Option.some_get _).symm⟩
  stays := System.Path.of_execWhen (Option.some_get _).symm
  waiting := by
    have hrow : (retryLast.world.db.jobs.get 0).map (fun j => (j.state, j.currentAttemptNumber)) =
        some (retryWait, 1) := by decide +kernel
    obtain ⟨j, hj, he⟩ := Option.map_eq_some_iff.mp hrow
    exact ⟨j, hj, (Prod.mk.inj he).1, (Prod.mk.inj he).2⟩
  leaves := ⟨.proceed true, (Option.some_get _).symm⟩
  queued := by
    have hrow : (retryAfter.world.db.jobs.get 0).map Job.state = some queued := by decide +kernel
    obtain ⟨j, hj, he⟩ := Option.map_eq_some_iff.mp hrow
    exact ⟨j, hj, he⟩

theorem no_early_retry_first : ∃ before entered last after,
    RetryStay Settings.default 0 1 before entered last after ∧
    before.world.db.now + min (60 * second) (5 * second * 2 ^ (1 - 1)) ≤ last.world.db.now ∧
    (retryBackoff64 5000000000 4).toInt = ((min (60 * second) (5 * second * 2 ^ (4 - 1)) : Nat) : Int) :=
  ⟨_, _, _, _, firstRetryStay, ((no_early_retry Settings.default).1 0 1 _ _ _ _ firstRetryStay).2,
    (no_early_retry Settings.default).2 4 (by decide)⟩

end HamiCloud.Proofs
