import HamiCloud.Protocol.Recoverable
import HamiCloud.Runtime.Scheduler
import HamiCloud.Proofs.Enabled
import HamiCloud.Proofs.JobContract

/-!
# No job is stranded

Without any further request a job can always be brought to its end: a pending intent can be claimed,
and once the leases have run out and the backoffs have passed, a pass of the scheduler makes progress.
The scans join a job with its attempts, so a job that is cancelled before its first attempt is seen by
none of them.
-/

namespace HamiCloud.Proofs

open Library JobState

variable {cfg : Settings} {w w' : World}

/-! ### Steps that keep jobs recoverable -/

/-- A cancellation finds its job with an attempt, or no longer `QUEUED`; a confirmation or a failure that sends its job
to `RETRY_WAIT` finds it within its retry budget. No other action is restricted. -/
def keepsRecoverable (w : World) : Action → Bool
  | .job (.cancelJob jobId) =>
    (w.db.jobs.get jobId).all fun j => j.state ≠ queued || 1 ≤ j.currentAttemptNumber
  | .job (.confirmJobRecovery item deleteConfirmed) =>
    recoveryTarget ((recoveryShouldRetry w.db.now item deleteConfirmed).getD false) item.isCancel ≠ retryWait ||
      (w.db.jobs.get item.jobId).all fun j => j.currentAttemptNumber ≤ j.maxRetries
  | .job (.markJobAttemptFailed wl _ _) =>
    wl.maxRetries < wl.attemptNumber ||
      (w.db.jobs.get wl.jobId).all fun j => j.state = cancelRequested || j.currentAttemptNumber ≤ j.maxRetries
  | _ => true

lemma keepsRecoverable_cancel {a : Action} (h : keepsRecoverable w a = true) {k : Uuid} {j : Job}
    (he : Action.jobEvent w a = .cancel k) (hj : w.db.jobs.get k = some j) (hq : j.state = queued) :
    1 ≤ j.currentAttemptNumber := by
  cases a with
  | job b =>
    cases b with
    | cancelJob jobId =>
      obtain rfl := JobEvent.cancel.inj he
      simpa [keepsRecoverable, hj, hq] using h
    | _ => simp [Action.jobEvent, jobEvent] at he
  | _ => simp [Action.jobEvent] at he

lemma keepsRecoverable_confirm {a : Action} (h : keepsRecoverable w a = true) {k : Uuid} {n : Nat} {j : Job}
    (he : Action.jobEvent w a = .confirm k n retryWait) (hj : w.db.jobs.get k = some j) :
    j.currentAttemptNumber ≤ j.maxRetries := by
  cases a with
  | job b =>
    cases b with
    | confirmJobRecovery item deleteConfirmed =>
      obtain ⟨rfl, -, htarget⟩ := JobEvent.confirm.inj he
      simpa [keepsRecoverable, htarget, hj] using h
    | _ => simp [Action.jobEvent, jobEvent] at he
  | _ => simp [Action.jobEvent] at he

/-- The failed workload names the attempt of its intent, and so the job. -/
lemma keepsRecoverable_failed {a : Action} (h : keepsRecoverable w a = true) (hw : WorldOK w)
    (hstep : (system cfg).step w a = some w') {i : ExecutionIntent} {att : JobAttempt} {j : Job}
    (he : Action.jobEvent w a = .finish i.id i.leaseEpoch (.failed true)) (hi : w.db.jobIntents.get i.id = some i)
    (ha : w.db.attempts.get i.resourceId = some att) (hj : w.db.jobs.get att.jobId = some j)
    (hst : j.state ≠ cancelRequested) : j.currentAttemptNumber ≤ j.maxRetries := by
  rcases step_cases hstep with ⟨d, rfl, rfl⟩ | ⟨b, db', c', rfl, hjob, rfl⟩ | ⟨b, db', c', rfl, -, rfl⟩
  · cases he
  · cases b with
    | markJobAttemptFailed wl reason exitCode =>
      obtain ⟨hid, -, hretry⟩ := JobEvent.finish.inj he
      have hwithin : ¬wl.maxRetries < wl.attemptNumber := Nat.not_lt.mpr (of_decide_eq_true (Outcome.failed.inj hretry))
      obtain ⟨i', a', j', hi', hres, ha', hajob, -⟩ := hw.jobClients.claims wl (held_commit_inv hjob).1
      obtain rfl : i = i' := Option.some.inj (hi.symm.trans (hid ▸ hi'))
      obtain rfl : att = a' := Option.some.inj (ha.symm.trans (hres ▸ ha'))
      simpa [keepsRecoverable, hwithin, ← hajob, hj, hst] using h
    | _ => simp [Action.jobEvent, jobEvent] at he
  · cases he

lemma keepsRecoverable_view {a : Action} (h : keepsRecoverable w a = true) (hw : WorldOK w)
    (hstep : (system cfg).step w a = some w') : KeepsRecoverable (jobView w.db) (jobView w'.db) :=
  (job_side hw hstep).keepsRecoverable hw.jobs (fun _ _ => keepsRecoverable_cancel h)
    (fun _ _ _ => keepsRecoverable_failed h hw hstep) (fun _ _ _ => keepsRecoverable_confirm h)

structure Sound (w : World) : Prop where
  ok : WorldOK w
  recoverable : Recoverable (jobView w.db)

noncomputable def effort (w : World) : Nat := (jobView w.db).effort

lemma sound_init : Sound World.init where
  ok := worldOK_init
  recoverable := by constructor <;> intros <;> simp_all [jobView, World.init, Db.empty]

lemma Sound.step {a : Action} (h : Sound w) (hstep : (system cfg).step w a = some w')
    (hkeep : KeepsRecoverable (jobView w.db) (jobView w'.db)) : Sound w' :=
  ⟨h.ok.step hstep, h.recoverable.step h.ok.jobs (job_side h.ok hstep) hkeep⟩

/-- Steps that bring jobs nearer to their end, or leave them alone. -/
structure Onward (w w' : World) : Prop where
  sound : Sound w'
  effort_le : effort w' ≤ effort w

lemma Onward.refl (h : Sound w) : Onward w w := ⟨h, le_rfl⟩

lemma Onward.trans {u : World} (h : Onward w u) (h' : Onward u w') : Onward w w' :=
  ⟨h'.sound, h'.effort_le.trans h.effort_le⟩

lemma effort_step {a : Action} (h : Sound w) (hstep : (system cfg).step w a = some w')
    (hsubmit : Action.jobEvent w a ≠ .submit) (hrenew : ∀ k n, Action.jobEvent w a ≠ .renew k n) :
    jobView w'.db = jobView w.db ∨ effort w' < effort w :=
  (job_side h.ok hstep).effort_lt h.ok.jobs (Table.finiteDomain _) (Table.finiteDomain _) hsubmit hrenew

/-- The events of a pass, and the claim of an intent. -/
def JobEvent.isProgress : JobEvent → Bool
  | .scan => true
  | .requeue _ => true
  | .confirm _ _ _ => true
  | .admission _ => true
  | .claim => true
  | .begin _ _ => true
  | _ => false

/-- Step lemma of a pass: a confirmation has to respect the retry budget. -/
lemma progress_step {a : Action} (h : Sound w) (hstep : w.step cfg a = some w')
    (hprog : JobEvent.isProgress (Action.jobEvent w a) = true)
    (hconfirm : ∀ k n j, Action.jobEvent w a = .confirm k n retryWait → w.db.jobs.get k = some j →
      j.currentAttemptNumber ≤ j.maxRetries) :
    Sound w' ∧ (jobView w'.db = jobView w.db ∨ effort w' < effort w) := by
  have hsys : (system cfg).step w a = some w' := hstep
  generalize he : Action.jobEvent w a = e at hprog hconfirm
  have hside := he ▸ job_side h.ok hsys
  have hkeep : KeepsRecoverable (jobView w.db) (jobView w'.db) := by
    apply hside.keepsRecoverable h.ok.jobs
    · rintro k j rfl
      cases hprog
    · rintro i att j rfl
      cases hprog
    · exact hconfirm
  refine ⟨h.step hsys hkeep, effort_step h hsys ?_ ?_⟩
  · rw [he]
    rintro rfl
    cases hprog
  · rw [he]
    rintro k n rfl
    cases hprog

lemma progress_attempt (cfg : Settings) {a : Action} (h : Sound w)
    (hprog : JobEvent.isProgress (Action.jobEvent w a) = true)
    (hconfirm : ∀ k n j, Action.jobEvent w a = .confirm k n retryWait → w.db.jobs.get k = some j →
      j.currentAttemptNumber ≤ j.maxRetries) : Onward w (w.attempt cfg a) := by
  unfold World.attempt
  cases hstep : w.step cfg a with
  | none => exact .refl h
  | some w' =>
    obtain ⟨hs, hview | hlt⟩ := progress_step h hstep hprog hconfirm
    · exact ⟨hs, by rw [Option.getD_some, effort, effort, hview]⟩
    · exact ⟨hs, hlt.le⟩

/-- A job that has followed an edge of the contract shows in the view. -/
lemma view_ne_of_edge {k : Uuid} {j j' : Job} {db db' : Db} (hj : db.jobs.get k = some j)
    (hj' : db'.jobs.get k = some j') (hedge : j'.state ∈ contract j.state) : jobView db' ≠ jobView db := by
  intro hview
  have hjob : db'.jobs.get k = db.jobs.get k := congrFun (congrArg JobView.job hview) k
  rw [hj, hj'] at hjob
  rw [Option.some.inj hjob] at hedge
  cases hs : j.state <;> simp [hs, contract] at hedge

lemma Onward.foldl {α : Type} {f : World → α → World} (hf : ∀ u x, Sound u → Onward u (f u x)) (xs : List α)
    (h : Sound w) : Onward w (xs.foldl f w) := by
  induction xs generalizing w with
  | nil => exact .refl h
  | cons x xs ih => exact (hf w x h).trans (ih (hf w x h).sound)

/-- A stage makes progress when its first iteration does. -/
lemma Onward.foldl_lt {α : Type} {f : World → α → World} (hf : ∀ u x, Sound u → Onward u (f u x)) {u : World}
    {x : α} {xs : List α} (h : Onward w u) (hlt : effort (f u x) < effort u) :
    effort ((x :: xs).foldl f u) < effort w := by
  have hrest := Onward.foldl hf xs (hf u x h.sound).sound
  exact hrest.effort_le.trans_lt (hlt.trans_le h.effort_le)

/-! ### The recovery stage -/

/-- The job of a scanned row is still in the attempt of the row. -/
def CurrentItem (w : World) (x : ExpiredJobRecoveryInfo) : Prop :=
  ∃ j, w.db.jobs.get x.jobId = some j ∧ j.currentAttemptNumber = x.attemptNumber ∧ j.maxRetries = x.maxRetries

lemma CurrentItem.of_scan {x : ExpiredJobRecoveryInfo} (h : x ∈ findExpiredJobIntents w.db) : CurrentItem w x := by
  obtain ⟨i, a, j, -, -, -, -, hj, hneeds, hx⟩ := mem_findExpiredJobIntents h
  simp only [needsRecovery, Bool.and_eq_true, decide_eq_true_eq] at hneeds
  exact ⟨j, hj, by rw [hx]; exact hneeds.1.symm, by rw [hx]⟩

lemma CurrentItem.step {a : Action} {x : ExpiredJobRecoveryInfo} (hx : CurrentItem w x) (h : Sound w)
    (hstep : w.step cfg a = some w') (hadm : ∀ k, Action.jobEvent w a ≠ .admission k) :
    CurrentItem w' x := by
  have hsys : (system cfg).step w a = some w' := hstep
  obtain ⟨j, hj, hcur, hmax⟩ := hx
  have hside := job_side h.ok hsys
  obtain ⟨j', hj', hspec, -⟩ := hside.job_row h.ok.jobs hj
  obtain ⟨-, -, -, hmax', -⟩ := Job.spec_eq.mp hspec
  refine ⟨j', hj', ?_, hmax'.trans hmax⟩
  rcases hside.job_change hj hj' with rfl | ⟨-, hc, -⟩ | ⟨he, -⟩
  · exact hcur
  · exact hc.trans hcur
  · exact absurd he (hadm _)

lemma CurrentItem.confirm_budget {x : ExpiredJobRecoveryInfo} (hx : CurrentItem w x) (k : Uuid) (n : Nat)
    (j : Job) (he : Action.jobEvent w (.job (.confirmJobRecovery x true)) = .confirm k n retryWait)
    (hj : w.db.jobs.get k = some j) : j.currentAttemptNumber ≤ j.maxRetries := by
  obtain ⟨j₀, hj₀, hcur, hmax⟩ := hx
  obtain ⟨rfl, -, htarget⟩ := JobEvent.confirm.inj he
  obtain rfl : j₀ = j := Option.some.inj (hj₀.symm.trans hj)
  rw [hcur, hmax]
  by_contra hgt
  cases hc : x.isCancel <;> simp [recoveryShouldRetry, recoveryTarget, hgt, hc] at htarget

/-- One iteration: the jobs come nearer to their end, and the rows of the other iterations stay current. -/
lemma recoverItem_onward (cfg : Settings) {x : ExpiredJobRecoveryInfo} (h : Sound w) (hx : CurrentItem w x) :
    Onward w (recoverItem cfg w x) ∧ ∀ y, CurrentItem w y → CurrentItem (recoverItem cfg w x) y := by
  have hconfirm : ∀ {u}, Sound u → CurrentItem u x →
      Onward u (u.attempt cfg (.job (.confirmJobRecovery x true))) ∧
      ∀ y, CurrentItem u y → CurrentItem (u.attempt cfg (.job (.confirmJobRecovery x true))) y := by
    intro u hu hxu
    refine ⟨progress_attempt cfg hu rfl hxu.confirm_budget, fun y hy => ?_⟩
    unfold World.attempt
    cases hstep : u.step cfg (.job (.confirmJobRecovery x true)) with
    | none => exact hy
    | some u' => exact hy.step hu hstep (by simp [Action.jobEvent, jobEvent])
  unfold recoverItem
  split
  · split
    · exact ⟨.refl h, fun y hy => hy⟩
    · rename_i u hu
      have hbegin := progress_attempt cfg (a := .job (.beginJobRecovery x)) h rfl
        (by simp [Action.jobEvent, jobEvent])
      rw [World.attempt, hu, Option.getD_some] at hbegin
      have hkeep : ∀ y, CurrentItem w y → CurrentItem u y :=
        fun y hy => hy.step h hu (by simp [Action.jobEvent, jobEvent])
      obtain ⟨hon, hcur⟩ := hconfirm hbegin.sound (hkeep x hx)
      exact ⟨hbegin.trans hon, fun y hy => hcur y (hkeep y hy)⟩
  · exact hconfirm h hx

lemma recover_foldl (cfg : Settings) (items : List ExpiredJobRecoveryInfo) (h : Sound w)
    (hitems : ∀ x ∈ items, CurrentItem w x) : Onward w (items.foldl (recoverItem cfg) w) := by
  induction items generalizing w with
  | nil => exact .refl h
  | cons x xs ih =>
    obtain ⟨hon, hcur⟩ := recoverItem_onward cfg h (hitems x List.mem_cons_self)
    exact hon.trans (ih hon.sound (fun y hy => hcur y (hitems y (List.mem_cons_of_mem x hy))))

/-- A row that has just been scanned is taken a step further. -/
lemma recoverItem_lt (cfg : Settings) {x : ExpiredJobRecoveryInfo} (h : Sound w) (hx : x ∈ findExpiredJobIntents w.db)
    (hexpired : x ∈ w.jobs.expired) (hbegun : x.needsBegin = false → x ∈ w.jobs.begun) :
    effort (recoverItem cfg w x) < effort w := by
  have hcur := CurrentItem.of_scan hx
  cases hneeds : x.needsBegin with
  | true =>
    obtain ⟨db', hdb⟩ := beginJobRecovery_enabled h.ok.jobs hx hneeds
    have hstep : w.step cfg (.job (.beginJobRecovery x)) =
        some { w with db := db', jobs := { w.jobs with begun := w.jobs.begun ++ [x] } } := by
      simp [World.step, jobStep, hexpired, hneeds, hdb, committed, Except.toOption]
    obtain ⟨hsound, hview | hlt⟩ := progress_step h hstep rfl (by simp [Action.jobEvent, jobEvent])
    · exfalso
      obtain ⟨db₁, a, i, -, -, -, hi, -, hclaimed, -, rfl⟩ := beginJobRecovery_inv hdb
      have hi' : (jobView w.db).intent x.intentId = some { i with status := .terminated, updatedAt := w.db.now } := by
        rw [← hview]
        exact Table.get_set_self hi
      have he := Option.some.inj (hi.symm.trans hi')
      rw [he] at hclaimed
      cases hclaimed
    · have hon := progress_attempt cfg (a := .job (.confirmJobRecovery x true)) hsound rfl
        (hcur.step h hstep (by simp [Action.jobEvent, jobEvent])).confirm_budget
      rw [recoverItem, if_pos hneeds, hstep]
      exact hon.effort_le.trans_lt hlt
  | false =>
    obtain ⟨j, hj, hedge⟩ := recoveryTarget_edge hx hneeds (!x.isCancel && x.attemptNumber ≤ x.maxRetries)
    obtain ⟨db', hdb⟩ := confirmJobRecovery_enabled hj hedge
    have hstep : w.step cfg (.job (.confirmJobRecovery x true)) = some { w with db := db' } := by
      simp [World.step, jobStep, hbegun hneeds, recoveryShouldRetry, hdb, committed, Except.toOption]
    obtain ⟨-, hview | hlt⟩ := progress_step h hstep rfl hcur.confirm_budget
    · obtain ⟨j₀, dead, hj₀, hedge₀, rfl⟩ := confirmJobRecovery_inv hdb
      exact absurd hview (view_ne_of_edge hj₀ (Table.get_set_self hj₀) hedge₀)
    · rw [recoverItem, if_neg (by simp [hneeds]), World.attempt, hstep]
      exact hlt

/-- The world after `FindExpiredJobIntents`. -/
lemma find_attempt (w : World) : w.attempt cfg (.job .findExpiredJobIntents) =
    { w with jobs := { w.jobs with
        expired := w.jobs.expired ++ findExpiredJobIntents w.db
        begun := w.jobs.begun ++ (findExpiredJobIntents w.db).filter (!·.needsBegin) } } := rfl

lemma recover_onward (cfg : Settings) (h : Sound w) : Onward w (recoverExpiredJobIntents cfg w) := by
  have hfind := progress_attempt cfg (a := .job .findExpiredJobIntents) h rfl
    (by simp [Action.jobEvent, jobEvent])
  exact hfind.trans (recover_foldl cfg _ hfind.sound (fun x hx => CurrentItem.of_scan (w := w) hx))

lemma recover_lt (cfg : Settings) (h : Sound w) (hsome : findExpiredJobIntents w.db ≠ []) :
    effort (recoverExpiredJobIntents cfg w) < effort w := by
  have hfind := progress_attempt cfg (a := .job .findExpiredJobIntents) h rfl
    (by simp [Action.jobEvent, jobEvent])
  obtain ⟨x, xs, hlist⟩ := List.exists_cons_of_ne_nil hsome
  have hx : x ∈ findExpiredJobIntents w.db := by simp [hlist]
  have hcur : ∀ y ∈ x :: xs, CurrentItem (w.attempt cfg (.job .findExpiredJobIntents)) y :=
    fun y hy => CurrentItem.of_scan (w := w) (hlist ▸ hy)
  have hlt := recoverItem_lt cfg (w := w.attempt cfg (.job .findExpiredJobIntents)) hfind.sound hx
    (by simp [find_attempt, hx]) (fun hb => by simp [find_attempt, hx, hb])
  obtain ⟨hon, hkeep⟩ := recoverItem_onward cfg hfind.sound (hcur x List.mem_cons_self)
  have hrest := recover_foldl cfg xs hon.sound
    (fun y hy => hkeep y (hcur y (List.mem_cons_of_mem x hy)))
  rw [recoverExpiredJobIntents, hlist, List.foldl_cons]
  exact hrest.effort_le.trans_lt (hlt.trans_le hfind.effort_le)

lemma recover_nil (cfg : Settings) (hnil : findExpiredJobIntents w.db = []) :
    (recoverExpiredJobIntents cfg w).db = w.db := by
  rw [recoverExpiredJobIntents, hnil]
  rfl

/-! ### The requeue stage -/

lemma mem_scanRetryWaitJobs {db : Db} {limit : Nat} {r : RetryJob} (h : r ∈ scanRetryWaitJobs db limit) :
    ∃ j, db.jobs.get r.id = some j ∧ j.state = retryWait ∧ r.updatedAt = j.updatedAt := by
  obtain ⟨j, hmem, rfl⟩ := List.mem_map.mp h
  obtain ⟨hrow, hst⟩ := List.mem_filter.mp (mem_orderBy.mp (List.mem_of_mem_take hmem))
  exact ⟨j, Table.get_of_mem hrow, by simpa using hst, rfl⟩

lemma scanRetryWaitJobs_ne_nil {db : Db} {k : Uuid} {j : Job} (hj : db.jobs.get k = some j)
    (hst : j.state = retryWait) : scanRetryWaitJobs db scanLimit ≠ [] := by
  have hmem : j ∈ orderBy Job.updatedAt (db.jobs.rows.filter (fun j => j.state = .retryWait)) :=
    mem_orderBy.mpr (List.mem_filter.mpr ⟨Table.mem_of_get hj, by simp [hst]⟩)
  simp [scanRetryWaitJobs, scanLimit, List.ne_nil_of_mem hmem]

lemma requeue_onward (cfg : Settings) (h : Sound w) : Onward w (requeueRetryWaitJobs cfg w) := by
  have hscan := progress_attempt cfg (a := .job (.scanRetryWaitJobs scanLimit)) h rfl
    (by simp [Action.jobEvent, jobEvent])
  refine hscan.trans (Onward.foldl (fun u r hu => ?_) _ hscan.sound)
  exact progress_attempt cfg hu rfl (by simp [Action.jobEvent, jobEvent])

lemma requeue_lt (cfg : Settings) (h : Sound w) (hsome : scanRetryWaitJobs w.db scanLimit ≠ [])
    (hdue : ∀ k j, w.db.jobs.get k = some j → j.state = retryWait → j.updatedAt + 60 * second ≤ w.db.now) :
    effort (requeueRetryWaitJobs cfg w) < effort w := by
  have hscan := progress_attempt cfg (a := .job (.scanRetryWaitJobs scanLimit)) h rfl
    (by simp [Action.jobEvent, jobEvent])
  obtain ⟨r, rs, hlist⟩ := List.exists_cons_of_ne_nil hsome
  obtain ⟨j, hj, hst, hupd⟩ := mem_scanRetryWaitJobs (show r ∈ scanRetryWaitJobs w.db scanLimit by simp [hlist])
  obtain ⟨db', hdb⟩ := requeueRetryWaitJob_enabled schedulerBackoff hj hst
    (hupd ▸ hdue r.id j hj hst)
  generalize hu : w.attempt cfg (.job (.scanRetryWaitJobs scanLimit)) = u at hscan
  have hudb : u.db = w.db := by rw [← hu]; rfl
  have hheld : (w.db.now, r) ∈ u.jobs.retries := by
    rw [← hu]
    simp [World.attempt, World.step, jobStep, hlist]
  have hstep : u.step cfg (.job (.requeueRetryWaitJob w.db.now r w.db.now)) = some { u with db := db' } := by
    simp [World.step, jobStep, hheld, hudb, hdb]
  rw [requeueRetryWaitJobs, hlist, hu]
  refine Onward.foldl_lt (fun u r hu => progress_attempt cfg hu rfl (by simp [Action.jobEvent, jobEvent])) hscan ?_
  rw [World.attempt, hstep, Option.getD_some]
  obtain ⟨-, hview | hlt⟩ := progress_step hscan.sound hstep rfl
    (by simp [Action.jobEvent, jobEvent])
  · obtain ⟨-, j₀, dead, hj₀, hst₀, rfl⟩ := requeueRetryWaitJob_inv hdb
    rw [hudb] at hview
    exact absurd hview (view_ne_of_edge hj₀ (Table.get_set_self hj₀) (by simp [hst₀, contract]))
  · exact hlt

lemma requeue_nil (cfg : Settings) (hnil : scanRetryWaitJobs w.db scanLimit = []) :
    (requeueRetryWaitJobs cfg w).db = w.db := by
  rw [requeueRetryWaitJobs, hnil]
  rfl

/-! ### The admission stages -/

lemma service_attempt_frame (u : World) (b : ServiceAction) :
    jobFrame (u.attempt cfg (.service b)).db = jobFrame u.db := by
  unfold World.attempt
  cases hstep : u.step cfg (.service b) with
  | none => rfl
  | some u' =>
    obtain ⟨⟨db', c'⟩, hs, rfl⟩ := Option.map_eq_some_iff.mp hstep
    exact serviceStep_jobs hs

lemma admitReleases_frame (cfg : Settings) (w : World) : jobFrame (admitReleases cfg w).db = jobFrame w.db := by
  have hfold : ∀ (rels : List UnadmittedRelease) (u : World),
      jobFrame (rels.foldl (fun u rel => u.attempt cfg (.service (.createServiceReleaseIntent rel))) u).db =
        jobFrame u.db := by
    intro rels
    induction rels with
    | nil => exact fun _ => rfl
    | cons rel rels ih => exact fun u => (ih _).trans (service_attempt_frame u _)
  exact (hfold _ _).trans ((service_attempt_frame _ _).trans (service_attempt_frame w _))

lemma admitReleases_onward (cfg : Settings) (h : Sound w) : Onward w (admitReleases cfg w) := by
  have hserv : ∀ {u : World} (b : ServiceAction), Sound u → Onward u (u.attempt cfg (.service b)) :=
    fun b hu => progress_attempt cfg hu rfl (by simp [Action.jobEvent])
  have h1 := hserv .supersedeReleases h
  have h2 := hserv (.selectUnadmittedReleases scanLimit) h1.sound
  exact (h1.trans h2).trans (Onward.foldl (fun u rel hu => hserv _ hu) _ h2.sound)

lemma admitJobs_onward (cfg : Settings) (h : Sound w) : Onward w (admitJobs cfg w) := by
  have hscan := progress_attempt cfg (a := .job (.scanUnadmittedJobs scanLimit)) h rfl
    (by simp [Action.jobEvent, jobEvent])
  refine hscan.trans (Onward.foldl (fun u job hu => ?_) _ hscan.sound)
  exact progress_attempt cfg hu rfl (by simp [Action.jobEvent, jobEvent])

lemma admitJobs_lt (cfg : Settings) (h : Sound w)
    (hsome : scanUnadmittedJobs w.db cfg.maxConcurrentJobsPerWS scanLimit ≠ []) :
    effort (admitJobs cfg w) < effort w := by
  have hscan := progress_attempt cfg (a := .job (.scanUnadmittedJobs scanLimit)) h rfl
    (by simp [Action.jobEvent, jobEvent])
  obtain ⟨x, xs, hlist⟩ := List.exists_cons_of_ne_nil hsome
  obtain ⟨j, hj, hq, hx⟩ := mem_scanUnadmittedJobs
    (show x ∈ scanUnadmittedJobs w.db cfg.maxConcurrentJobsPerWS scanLimit by simp [hlist])
  obtain ⟨i, db', hdb⟩ := createJobAttemptIntent_enabled h.ok.jobs h.ok.fresh hj hq (by rw [hx]) (by rw [hx])
    (h.recoverable.budget hj (.inl hq))
  generalize hu : w.attempt cfg (.job (.scanUnadmittedJobs scanLimit)) = u at hscan
  have hudb : u.db = w.db := by rw [← hu]; rfl
  have hheld : x ∈ u.jobs.unadmitted := by
    rw [← hu]
    simp [World.attempt, World.step, jobStep, hlist]
  have hstep : u.step cfg (.job (.createJobAttemptIntent x)) = some { u with db := db' } := by
    simp [World.step, jobStep, hheld, hudb, hdb]
  rw [admitJobs, hlist, hu]
  refine Onward.foldl_lt (fun u job hu => progress_attempt cfg hu rfl (by simp [Action.jobEvent, jobEvent])) hscan ?_
  rw [World.attempt, hstep, Option.getD_some]
  obtain ⟨-, hview | hlt⟩ := progress_step hscan.sound hstep rfl
    (by simp [Action.jobEvent, jobEvent])
  · obtain ⟨j₀, a, q, hadm⟩ := createJobAttemptIntent_inv hdb
    have hrow := (congrArg (fun d : Db => d.jobs.get x.jobId) hadm.commit).trans (Table.get_set_self hadm.row)
    rw [hudb] at hview
    exact absurd hview (view_ne_of_edge hadm.row hrow (by simp [hadm.queued, contract]))
  · exact hlt

/-- With no active job, the oldest queued job passes the limit of its workspace. -/
lemma scanUnadmittedJobs_ne_nil {db : Db} (cap : Nat) {k : Uuid} {j : Job} (hj : db.jobs.get k = some j)
    (hq : j.state = queued) (hidle : ∀ k j, db.jobs.get k = some j → j.state ∉ activeJobStates) :
    scanUnadmittedJobs db cap scanLimit ≠ [] := by
  have hactive : ∀ ws, activeJobs db ws = 0 := by
    intro ws
    rw [activeJobs, List.countP_eq_zero]
    intro j' hj'
    simp [hidle j'.id j' (Table.get_of_mem hj')]
  have hmem : j ∈ orderBy Job.createdAt (db.jobs.rows.filter (fun j => j.state = .queued)) :=
    mem_orderBy.mpr (List.mem_filter.mpr ⟨Table.mem_of_get hj, by simp [hq]⟩)
  obtain ⟨j₀, js, hjs⟩ := List.exists_cons_of_ne_nil (List.ne_nil_of_mem hmem)
  have hrank : (1, j₀) ∈ rankedQueued db := by
    rw [rankedQueued, hjs]
    simp
  have hcap : 1 ≤ if cap ≤ 0 then 2 else cap := by
    split <;> omega
  have hpass : (1, j₀) ∈ (rankedQueued db).filter
      (fun r => activeJobs db r.2.workspaceId + r.1 ≤ if cap ≤ 0 then 2 else cap) :=
    List.mem_filter.mpr ⟨hrank, by simpa [hactive] using hcap⟩
  have hordered := (List.mem_insertionSort
    (fun a b : Nat × Job => a.1 < b.1 ∨ (a.1 = b.1 ∧ a.2.createdAt ≤ b.2.createdAt))).mpr hpass
  rw [scanUnadmittedJobs, Ne, List.map_eq_nil_iff, List.take_eq_nil_iff, not_or]
  exact ⟨by decide, List.ne_nil_of_mem hordered⟩

/-! ### Progress -/

/-- The states in which `FindExpiredJobIntents` looks for a job. -/
def recoverableStates : List JobState := [starting, running, recoveryPending, cancelRequested]

/-- No intent waits for an executor, all leases have run out and all backoffs have passed. -/
structure Idle (db : Db) : Prop where
  pending : ∀ k i, db.jobIntents.get k = some i → i.status ≠ .pending
  expired : ∀ k i, db.jobIntents.get k = some i → i.status = .claimed → i.leaseExpired db.now = true
  due : ∀ k j, db.jobs.get k = some j → j.state = retryWait → j.updatedAt + 60 * second ≤ db.now

lemma findExpiredJobIntents_ne_nil (h : Sound w) (hidle : Idle w.db) {k : Uuid} {j : Job}
    (hj : w.db.jobs.get k = some j) (hst : j.state ∈ recoverableStates) : findExpiredJobIntents w.db ≠ [] := by
  have hstates : j.state = starting ∨ j.state = running ∨ j.state = recoveryPending ∨ j.state = cancelRequested := by
    simpa [recoverableStates] using hst
  have hstarted : 1 ≤ j.currentAttemptNumber := by
    apply h.recoverable.started hj
    rcases hstates with hs | hs | hs | hs <;> simp [hs]
  obtain ⟨k₁, a, ha, hjob, hnum⟩ := h.ok.jobs.attemptOf hj hstarted le_rfl
  obtain ⟨k₂, i, hi, hres⟩ := h.ok.jobs.intentOf ha
  have hneeds : needsRecovery w.db.now i a j = true := by
    have hclosed : i.status = .terminated ∨ (i.status = .claimed ∧ i.leaseExpired w.db.now = true) := by
      cases his : i.status with
      | pending => exact absurd his (hidle.pending k₂ i hi)
      | claimed => exact .inr ⟨rfl, hidle.expired k₂ i hi his⟩
      | applied =>
        have hterm := h.recoverable.ended hi his (hres ▸ ha) (hjob ▸ hj)
        rcases hstates with hs | hs | hs | hs <;> simp [hs, isTerminal] at hterm
      | terminated => exact .inl rfl
    rcases hclosed with ht | ⟨hc, hx⟩
    · rcases hstates with hs | hs | hs | hs <;> simp [needsRecovery, hnum, ht, hs]
    · rcases hstates with hs | hs | hs | hs <;> simp [needsRecovery, hnum, hc, hx, hs]
  have ha' : w.db.attempts.get i.resourceId = some a := hres ▸ ha
  have hj' : w.db.jobs.get a.jobId = some j := hjob ▸ hj
  intro hnil
  have hskip := List.filterMap_eq_nil_iff.mp hnil i (mem_orderBy.mpr (Table.mem_of_get hi))
  simp [ha', hj', hneeds] at hskip

/-- When there is nothing to recover and nothing to requeue, every job that has not ended is queued. -/
lemma queued_of_idle (h : Sound w) (hidle : Idle w.db) (hfind : findExpiredJobIntents w.db = [])
    (hretry : scanRetryWaitJobs w.db scanLimit = []) {k : Uuid} {j : Job} (hj : w.db.jobs.get k = some j)
    (hnot : j.state.isTerminal = false) : j.state = queued := by
  have hactive : j.state ∉ recoverableStates :=
    fun hs => findExpiredJobIntents_ne_nil h hidle hj hs hfind
  cases hs : j.state with
  | queued => rfl
  | admitted =>
    obtain ⟨k', i, a, hi, hp, -⟩ := h.recoverable.pending hj hs
    exact absurd hp (hidle.pending k' i hi)
  | retryWait => exact absurd hretry (scanRetryWaitJobs_ne_nil hj hs)
  | _ => simp [hs, recoverableStates, isTerminal] at hactive hnot

lemma admitJobs_progress (cfg : Settings) (h : Sound w)
    (hqueued : ∀ k j, w.db.jobs.get k = some j → j.state.isTerminal = false → j.state = queued) {k : Uuid}
    {j : Job} (hj : w.db.jobs.get k = some j) (hnot : j.state.isTerminal = false) :
    effort (admitJobs cfg w) < effort w := by
  refine admitJobs_lt cfg h (scanUnadmittedJobs_ne_nil _ hj (hqueued k j hj hnot) ?_)
  intro k' j' hj'
  cases hs : j'.state.isTerminal with
  | true => cases hst : j'.state <;> simp [hst, isTerminal, activeJobStates] at hs ⊢
  | false => simp [hqueued k' j' hj' hs, activeJobStates]

/-- A pass over an idle database makes progress as long as some job has not ended: it recovers an
attempt, or there is none to recover and it requeues a job, or it admits one. -/
lemma runOnce_lt (cfg : Settings) (h : Sound w) (hidle : Idle w.db) {k : Uuid} {j : Job} (hj : w.db.jobs.get k = some j)
    (hnot : j.state.isTerminal = false) : effort (runOnce cfg w) < effort w := by
  have h1 := recover_onward cfg h
  have hrecover := recover_lt cfg h
  have hnone := recover_nil cfg (w := w)
  rw [runOnce]
  generalize recoverExpiredJobIntents cfg w = u₁ at h1 hrecover hnone
  have h2 := requeue_onward cfg h1.sound
  have hrequeue := requeue_lt cfg h1.sound
  have hnone' := requeue_nil cfg (w := u₁)
  generalize requeueRetryWaitJobs cfg u₁ = u₂ at h2 hrequeue hnone'
  have h3 := admitReleases_onward cfg h2.sound
  have hframe := admitReleases_frame cfg u₂
  generalize admitReleases cfg u₂ = u₃ at h3 hframe
  have h4 := admitJobs_onward cfg h3.sound
  by_cases hfind : findExpiredJobIntents w.db = []
  · have hdb₁ := hnone hfind
    rw [hdb₁] at hrequeue hnone'
    by_cases hretry : scanRetryWaitJobs w.db scanLimit = []
    · have hjobs : u₃.db.jobs = w.db.jobs := by
        rw [hnone' hretry] at hframe
        exact congrArg (fun t => t.2.1) hframe
      have hadmit := admitJobs_progress cfg (k := k) (j := j) h3.sound
      rw [hjobs] at hadmit
      have hlt := hadmit (fun k' j' hj' => queued_of_idle h hidle hfind hretry hj') hj hnot
      exact hlt.trans_le (h3.effort_le.trans (h2.effort_le.trans h1.effort_le))
    · have hlt := hrequeue hretry hidle.due
      exact (h4.effort_le.trans h3.effort_le).trans_lt (hlt.trans_le h1.effort_le)
  · exact (h4.effort_le.trans (h3.effort_le.trans h2.effort_le)).trans_lt (hrecover hfind)

lemma exists_bound {α : Type} (f : α → Nat) (xs : List α) : ∃ n, ∀ x ∈ xs, f x < n := by
  induction xs with
  | nil => exact ⟨0, by simp⟩
  | cons x xs ih =>
    obtain ⟨n, hn⟩ := ih
    refine ⟨max n (f x + 1), fun y hy => ?_⟩
    rcases List.mem_cons.mp hy with rfl | hy
    · exact lt_max_of_lt_right (Nat.lt_succ_self _)
    · exact lt_max_of_lt_left (hn y hy)

/-- With no pending intent, waiting long enough leaves the database idle. -/
lemma idle_of_tick (h : Sound w) (hpending : ∀ k i, w.db.jobIntents.get k = some i → i.status ≠ .pending) :
    ∃ d, Idle (w.db.tick d) := by
  obtain ⟨n, hn⟩ := exists_bound (fun i : ExecutionIntent => i.leaseExpiresAt.getD 0) w.db.jobIntents.rows
  obtain ⟨m, hm⟩ := exists_bound (fun j : Job => j.updatedAt + 60 * second) w.db.jobs.rows
  refine ⟨n + m, hpending, fun k i hi hc => ?_, fun k j hj _ => ?_⟩
  · obtain ⟨t, ht⟩ := Option.ne_none_iff_exists'.mp (h.ok.jobs.lease hi hc)
    have hlt := hn i (Table.mem_of_get hi)
    simp only [ht, Option.getD_some] at hlt
    have hlate : t < w.db.now + (n + m) := hlt.trans_le ((Nat.le_add_right n m).trans (Nat.le_add_left _ _))
    simp [ExecutionIntent.leaseExpired, ht, Db.tick, hlate]
  · have hlt := hm j (Table.mem_of_get hj)
    exact hlt.le.trans ((Nat.le_add_left m n).trans (Nat.le_add_left _ _))

/-- As long as some job has not ended, its system can go on without a request. -/
lemma exists_progress (cfg : Settings) (h : Sound w) {k : Uuid} {j : Job} (hj : w.db.jobs.get k = some j)
    (hnot : j.state.isTerminal = false) :
    ∃ w', Relation.ReflTransGen (Continues cfg) w w' ∧ Sound w' ∧ effort w' < effort w := by
  by_cases hpending : ∃ k i, w.db.jobIntents.get k = some i ∧ i.status = .pending
  · -- an executor claims a pending intent
    obtain ⟨k', i, hi, hp⟩ := hpending
    obtain ⟨wl, db', hdb⟩ := claimNextJobAttempt_enabled h.ok.jobs hi hp "executor" second
    have hstep : w.step cfg (.job (.claimNextJobAttempt "executor" second [] [])) =
        some { w with db := db', jobs := { w.jobs with claims := w.jobs.claims ++ [wl] } } := by
      simp [World.step, jobStep, hdb]
    obtain ⟨hsound, hview | hlt⟩ := progress_step h hstep rfl (by simp [Action.jobEvent, jobEvent])
    · exfalso
      obtain ⟨i₀, a, j₀, jobs, dead, hnext, -, rfl, -⟩ := claimNextJobAttempt_inv hdb
      obtain ⟨hi₀, hp₀, -, -⟩ := nextJobIntent_inv hnext
      have hclaimed : (jobView w.db).intent i₀.id = some (i₀.claim "executor" second w.db.now) := by
        rw [← hview]
        exact Table.get_set_self hi₀
      rw [Option.some.inj (hi₀.symm.trans hclaimed)] at hp₀
      cases hp₀
    · exact ⟨_, .single (.executor rfl hstep), hsound, hlt⟩
  · -- nothing can be claimed: wait, and let the scheduler run
    have hnone : ∀ k i, w.db.jobIntents.get k = some i → i.status ≠ .pending :=
      fun k' i hi hp => hpending ⟨k', i, hi, hp⟩
    obtain ⟨d, hidle⟩ := idle_of_tick h hnone
    have htick := progress_attempt cfg (a := .tick d) h rfl (by simp [Action.jobEvent])
    have hlt := runOnce_lt cfg (w := { w with db := w.db.tick d }) htick.sound hidle hj hnot
    have hpass := (recover_onward cfg htick.sound)
    have hpass' := admitJobs_onward cfg
      (admitReleases_onward cfg (requeue_onward cfg hpass.sound).sound).sound
    exact ⟨_, .tail (.single (.tick w d)) (.pass _), hpass'.sound, hlt.trans_le htick.effort_le⟩

/-- In every run that neither cancels a job without attempts nor retries one beyond its budget, every
job can be brought to its end by time, scheduler passes and executors alone. -/
theorem no_job_stranded (cfg : Settings) {w : World}
    (h : (system cfg).Reach (fun w a => keepsRecoverable w a = true) w) {k : Uuid} {j : Job}
    (hj : w.db.jobs.get k = some j) :
    ∃ w' j', Relation.ReflTransGen (Continues cfg) w w' ∧ w'.db.jobs.get k = some j' ∧
      j'.state.isTerminal = true := by
  have hsound : Sound w :=
    h.invariant sound_init (fun _ _ _ hu hguard hstep => hu.step hstep (keepsRecoverable_view hguard hu.ok hstep))
  obtain ⟨w', hcont, j', hj', hend⟩ := reaches_of_variant (R := Continues cfg)
    (P := fun u => Sound u ∧ ∃ i, u.db.jobs.get k = some i)
    (G := fun u => ∃ i, u.db.jobs.get k = some i ∧ i.state.isTerminal = true) effort
    (by
      rintro u ⟨hu, i, hi⟩ hgoal
      have hnot : i.state.isTerminal = false := by
        by_contra ht
        exact hgoal ⟨i, hi, by simpa using ht⟩
      obtain ⟨u', hcont, hu', hlt⟩ := exists_progress cfg hu hi hnot
      obtain ⟨i', hi', -⟩ := path_job hu.ok (Continues.path hcont) hi
      exact ⟨u', hcont, ⟨hu', i', hi'⟩, hlt⟩) w ⟨hsound, j, hj⟩
  exact ⟨w', j', hcont, hj', hend⟩

/-- A job is cancelled once its first attempt is admitted. -/
def cancelledAdmitted : (system Settings.default).Run keepsRecoverable where
  labels :=
    [.job (.submitJob 100 ⟨"quay.io/tool", 600, 2⟩), .job (.scanUnadmittedJobs 50),
      .job (.createJobAttemptIntent ⟨0, 100, 600, 2, 0, .queued⟩), .job (.cancelJob 0)]
  executes := by decide +kernel

/-- A job that is cancelled once its first attempt is admitted can still be brought to its end. -/
theorem no_job_stranded_cancelled_admitted : ∃ w j, (system Settings.default).Reach
      (fun w a => keepsRecoverable w a = true) w ∧
    w.db.jobs.get 0 = some j ∧ j.state = cancelRequested ∧
    ∃ w' j', Relation.ReflTransGen (Continues Settings.default) w w' ∧ w'.db.jobs.get 0 = some j' ∧
      j'.state.isTerminal = true := by
  have hstate : (cancelledAdmitted.final.db.jobs.get 0).map Job.state = some cancelRequested := by decide +kernel
  obtain ⟨j, hj, hst⟩ := Option.map_eq_some_iff.mp hstate
  exact ⟨cancelledAdmitted.final, j, cancelledAdmitted.reach, hj, hst,
    no_job_stranded Settings.default cancelledAdmitted.reach hj⟩

/-! ### A job cancelled before its first attempt -/

/-- The job waits for its cancellation and has no attempt that a scan could join it with. -/
def Stranded (k : Uuid) (w : World) : Prop :=
  ∃ j, w.db.jobs.get k = some j ∧ j.state = cancelRequested ∧ j.currentAttemptNumber = 0

/-- A job without attempts has no recovery to confirm. -/
lemma not_confirm {k : Uuid} {j : Job} {n : Nat} {t : JobState} {a : Action} (hw : WorldOK w)
    (hj : w.db.jobs.get k = some j) (hcur : j.currentAttemptNumber = 0)
    (hstep : (system cfg).step w a = some w') : Action.jobEvent w a ≠ .confirm k n t := by
  intro he
  rcases step_cases hstep with ⟨d, rfl, rfl⟩ | ⟨b, db', c', rfl, hjob, rfl⟩ | ⟨b, db', c', rfl, -, rfl⟩
  · cases he
  · cases b with
    | confirmJobRecovery item deleteConfirmed =>
      obtain ⟨rfl, -, -⟩ := JobEvent.confirm.inj he
      obtain ⟨-, hmem, -, -, -⟩ := confirmJobRecovery_step hjob
      obtain ⟨i, a, j₀, -, -, ha, hajob, -, -, -, -⟩ := hw.jobClients.begun item hmem
      obtain ⟨j₁, hj₁, hlo, hhi⟩ := hw.jobs.attemptJob ha
      rw [hajob] at hj₁
      obtain rfl : j = j₁ := Option.some.inj (hj.symm.trans hj₁)
      omega
    | _ => simp [Action.jobEvent, jobEvent] at he
  · cases he

lemma Stranded.step {k : Uuid} {a : Action} (h : Stranded k w) (hw : WorldOK w)
    (hstep : (system cfg).step w a = some w') : Stranded k w' := by
  obtain ⟨j, hj, hst, hcur⟩ := h
  have hside := job_side hw hstep
  have hconfirm := fun n t => not_confirm (n := n) (t := t) hw hj hcur hstep
  obtain ⟨j', hj', -, hedge, -⟩ := hside.job_row hw.jobs hj
  refine ⟨j', hj', ?_⟩
  rcases hside.job_change hj hj' with rfl | ⟨-, hc, hm | ⟨i, a, st, s, ⟨-, ha⟩, hajob, -⟩⟩ | ⟨-, hadm⟩
  · exact ⟨hst, hcur⟩
  · exfalso
    generalize Action.jobEvent w a = e at hm hconfirm
    generalize j'.state = t at hm
    cases hm with
    | cancel hc => simp [hst, contract] at hc
    | requeue hr => simp [hst] at hr
    | confirm n t _ _ => exact hconfirm n t (by rw [hw.jobs.jobKey hj])
  · obtain ⟨j₁, hj₁, hlo, hhi⟩ := hw.jobs.attemptJob ha
    rw [hajob] at hj₁
    obtain rfl : j = j₁ := Option.some.inj (hj.symm.trans hj₁)
    omega
  · rw [hadm, hst] at hedge
    simp [contract] at hedge

/-- A job is cancelled before its first attempt is admitted. -/
def cancelledQueued : (system Settings.default).FreeRun where
  labels := [.job (.submitJob 100 ⟨"quay.io/tool", 600, 2⟩), .job (.cancelJob 0)]
  executes := by decide +kernel

/-- A job that is cancelled while it waits for its first attempt stays `CANCEL_REQUESTED` whatever
happens without a request. -/
theorem cancelled_before_attempt_stranded : ∃ w j, (system Settings.default).Reachable w ∧
    w.db.jobs.get 0 = some j ∧ j.state.isTerminal = false ∧
    ∀ w', Relation.ReflTransGen (Continues Settings.default) w w' →
      ∃ j', w'.db.jobs.get 0 = some j' ∧ j'.state.isTerminal = false := by
  have hstate : (cancelledQueued.final.db.jobs.get 0).map (fun j => (j.state, j.currentAttemptNumber)) =
      some (cancelRequested, 0) := by decide +kernel
  obtain ⟨j, hj, hrow⟩ := Option.map_eq_some_iff.mp hstate
  obtain ⟨hst, hcur⟩ := Prod.mk.inj hrow
  have hreach := cancelledQueued.reachable
  refine ⟨cancelledQueued.final, j, hreach, hj, by simp [hst, isTerminal], fun w' hcont => ?_⟩
  have hinv : Stranded 0 w' ∧ WorldOK w' := by
    refine (Continues.path hcont).invariant (P := fun u => Stranded 0 u ∧ WorldOK u)
      ⟨⟨j, hj, hst, hcur⟩, reach_ok hreach⟩ ?_
    rintro u a u' ⟨hu, hok⟩ - hstep
    exact ⟨hu.step hok hstep, hok.step hstep⟩
  obtain ⟨⟨j', hj', hst', -⟩, -⟩ := hinv
  exact ⟨j', hj', by simp [hst', isTerminal]⟩

end HamiCloud.Proofs
