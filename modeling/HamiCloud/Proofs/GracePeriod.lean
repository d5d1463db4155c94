import HamiCloud.Runtime.Recoveries
import HamiCloud.Proofs.Process
import HamiCloud.Proofs.Timestamps

/-!
# The grace period of a recovery

A recovery that cannot confirm the deletion of its Kubernetes Job gives up five minutes after the `updated_at`
that its scan has read. A scan that sees the job after `BeginJobRecovery` has moved it to `RECOVERY_PENDING` reads
the time at which the recovery began, or a later one. The scan that leads to `BeginJobRecovery` reads the time at
which the job started to run.
-/

namespace HamiCloud.Proofs

open Library JobState

variable {cfg : Settings}

/-! ### What a step of the process does to its rows -/

/-- The rows to recover come from the scan at the beginning of the pass. -/
lemma process_items {p p' : ProcessWorld} {a : ProcessAction} (h : p.step cfg a = some p') {x : ExpiredJobRecoveryInfo}
    (hx : x ∈ p'.phase.items) : x ∈ p.phase.items ∨
      (x ∈ findExpiredJobIntents p.world.db ∧ p.phase = .idle ∧ p'.phase.items = findExpiredJobIntents p.world.db) := by
  obtain ⟨w, phase⟩ := p
  cases a with
  | other b =>
    obtain ⟨-, hmap⟩ := Option.ite_none_left_eq_some.mp h
    obtain ⟨w', -, rfl⟩ := Option.map_eq_some_iff.mp hmap
    exact .inl hx
  | restart =>
    cases h
    cases hx
  | proceed deleteConfirmed =>
    cases h
    cases phase with
    | idle => exact .inr ⟨hx, rfl, rfl⟩
    | recover items =>
      cases items with
      | nil => cases hx
      | cons item rest =>
        left
        unfold ProcessWorld.proceed at hx
        simp only at hx
        split at hx
        · split at hx
          · exact List.mem_cons_of_mem _ hx
          · exact hx
        · exact hx
    | confirm item rest => exact .inl (List.mem_cons_of_mem _ hx)
    | requeue scannedAt now rows => cases rows <;> cases hx
    | releases rows => cases rows <;> cases hx
    | jobs rows => cases rows <;> cases hx
    | _ => cases hx

/-- A step that begins a recovery commits it in the world, at the current time. -/
lemma mem_begunBy {p p' : ProcessWorld} {a : ProcessAction} (h : p.step cfg a = some p') {b : BegunRecovery}
    (hb : b ∈ begunBy cfg p a) : b.item ∈ p.phase.items ∧ b.item.needsBegin = true ∧ b.begunAt = p.world.db.now ∧
      p.world.step cfg (.job (.beginJobRecovery b.item)) = some p'.world := by
  obtain ⟨w, phase⟩ := p
  cases a with
  | other b => cases hb
  | restart => cases hb
  | proceed deleteConfirmed =>
    cases phase with
    | recover items =>
      cases items with
      | nil => cases hb
      | cons item rest =>
        simp only [begunBy] at hb
        split at hb
        · rename_i hbegin
          rw [List.mem_singleton.mp hb]
          refine ⟨List.mem_cons_self, hbegin.1, rfl, ?_⟩
          obtain ⟨w', hw'⟩ := Option.isSome_iff_exists.mp hbegin.2
          have hp : p' = ⟨w', .confirm item rest⟩ := by
            have hproceed := (Option.some.inj h).symm
            simpa [ProcessWorld.proceed, hbegin.1, hw'] using hproceed
          rw [hp]
          exact hw'
        · cases hb
    | _ => cases hb

/-! ### The invariant -/

/-- Since the recovery began, every write to the row of its job has stamped it with a later time; a requeue, which
does not, leaves the job queued. -/
def StampedSince (db : Db) (b : BegunRecovery) : Prop :=
  ∀ j, db.jobs.get b.item.jobId = some j → j.state ≠ queued → b.begunAt ≤ j.updatedAt

structure GraceInv (cfg : Settings) (r : RecoveryWorld) : Prop where
  reach : (processSystem cfg).Reachable r.process
  bound : ∀ b ∈ r.begun, BoundItem (jobView r.process.world.db) b.item
  past : ∀ b ∈ r.begun, b.begunAt ≤ r.process.world.db.now
  stamp : ∀ b ∈ r.begun, b.item.jobState = running → StampedSince r.process.world.db b
  boundItems : ∀ x ∈ r.process.phase.items, BoundItem (jobView r.process.world.db) x
  uniqueItems : ∀ x ∈ r.process.phase.items, ∀ y ∈ r.process.phase.items, x.attemptId = y.attemptId → x = y
  /-- a row that was scanned after its recovery began has read the time of the beginning, or a later one -/
  scanned : ∀ x ∈ r.process.phase.items, x.needsBegin = false → ∀ b ∈ r.begun, b.item.attemptId = x.attemptId →
    b.item.jobState = running → b.begunAt ≤ x.jobUpdatedAt

lemma StampedSince.step {w w' : World} {a : Action} {b : BegunRecovery} (h : StampedSince w.db b)
    (hbound : BoundItem (jobView w.db) b.item) (hpast : b.begunAt ≤ w.db.now) (hstep : w.step cfg a = some w') :
    StampedSince w'.db b := by
  intro j' hj' hq
  obtain ⟨-, -, j, -, -, -, -, -, hj, -, -⟩ := hbound
  rcases step_stamp hstep hj hj' hq with rfl | hstamp
  · exact h j' hj hq
  · exact hstamp ▸ hpast

/-- The commit that moves a job to `RECOVERY_PENDING` stamps it. -/
lemma stampedSince_begin {w w' : World} {item : ExpiredJobRecoveryInfo} (hrun : item.jobState = running)
    (hstep : w.step cfg (.job (.beginJobRecovery item)) = some w') : StampedSince w'.db ⟨item, w.db.now⟩ := by
  obtain ⟨⟨db', c'⟩, hjob, rfl⟩ := Option.map_eq_some_iff.mp hstep
  obtain ⟨-, -, hdb, -⟩ := beginJobRecovery_step hjob
  obtain ⟨db₁, a, i, hdb₁, -, -, -, -, -, -, rfl⟩ := beginJobRecovery_inv hdb
  rcases beginRecoveryJob_inv hdb₁ with ⟨hne, -⟩ | ⟨j, dead, -, hj, -, rfl⟩
  · exact absurd hrun hne
  · intro j' hj' _
    have hget := Table.get_set_self (f := fun j : Job => { j with state := .recoveryPending, updatedAt := w.db.now }) hj
    rw [Option.some.inj (hj'.symm.trans hget)]

/-- Two rows of one scan for the same attempt are the same row. -/
lemma findExpired_unique {db : Db} (hwf : JobWF (jobView db)) {x y : ExpiredJobRecoveryInfo}
    (hx : x ∈ findExpiredJobIntents db) (hy : y ∈ findExpiredJobIntents db) (he : x.attemptId = y.attemptId) :
    x = y := by
  obtain ⟨i, a, j, hi, hres, ha, hajob, hj, -, hxe⟩ := mem_findExpiredJobIntents hx
  obtain ⟨i', a', j', hi', hres', ha', hajob', hj', -, hye⟩ := mem_findExpiredJobIntents hy
  have hid : x.intentId = y.intentId := hwf.intentUnique hi hi' (hres.trans (he.trans hres'.symm))
  obtain rfl : i = i' := Option.some.inj (hi.symm.trans (hid ▸ hi'))
  obtain rfl : a = a' := Option.some.inj (ha.symm.trans (he ▸ ha'))
  obtain rfl : j = j' := Option.some.inj (hj.symm.trans ((hajob.symm.trans hajob') ▸ hj'))
  rw [hxe, hye]

/-- What a scan reads of a recovery that has begun before it. -/
lemma scanned_since {db : Db} {b : BegunRecovery} (hbound : BoundItem (jobView db) b.item) (h : StampedSince db b)
    {x : ExpiredJobRecoveryInfo} (hx : x ∈ findExpiredJobIntents db) (he : b.item.attemptId = x.attemptId) :
    b.begunAt ≤ x.jobUpdatedAt := by
  obtain ⟨i, a, j, hi, hres, ha, hajob, hj, hneeds, hxe⟩ := mem_findExpiredJobIntents hx
  obtain ⟨-, a', -, -, -, ha', hajob', -, -, -, -⟩ := hbound
  obtain rfl : a = a' := Option.some.inj (ha.symm.trans (he ▸ ha'))
  have hle : b.begunAt ≤ j.updatedAt := by
    refine h j ((hajob.symm.trans hajob') ▸ hj) fun hq => ?_
    simp [needsRecovery, hq] at hneeds
  rw [hxe]
  exact hle

lemma graceInv_init : GraceInv cfg RecoveryWorld.init where
  reach := .refl _
  bound b hb := by cases hb
  past b hb := by cases hb
  stamp b hb := by cases hb
  boundItems x hx := by cases hx
  uniqueItems x hx := by cases hx
  scanned x hx := by cases hx

lemma recovery_step {r r' : RecoveryWorld} {a : ProcessAction} (h : (recoverySystem cfg).step r a = some r') :
    ∃ p', r.process.step cfg a = some p' ∧ r' = ⟨p', r.begun ++ begunBy cfg r.process a⟩ := by
  obtain ⟨p', hp', he⟩ := Option.map_eq_some_iff.mp h
  exact ⟨p', hp', he.symm⟩

lemma GraceInv.step {r r' : RecoveryWorld} {a : ProcessAction} (h : GraceInv cfg r)
    (hstep : (recoverySystem cfg).step r a = some r') : GraceInv cfg r' := by
  obtain ⟨p', hp', rfl⟩ := recovery_step hstep
  have hw : WorldOK r.process.world := reach_ok (process_reach h.reach)
  have hnow : r.process.world.db.now ≤ p'.world.db.now := by
    rcases process_step hp' with he | ⟨b, -, hb⟩
    · rw [he]
    · exact step_now hb
  have hbound : ∀ {x : ExpiredJobRecoveryInfo}, BoundItem (jobView r.process.world.db) x →
      BoundItem (jobView p'.world.db) x := by
    intro x hx
    rcases process_step hp' with he | ⟨b, -, hb⟩
    · rw [he]
      exact hx
    · exact hx.mono ((job_side hw hb).evolves hw.jobs)
  have hkept : ∀ b ∈ r.begun, b.item.jobState = running → StampedSince p'.world.db b := by
    intro b hb hrun
    rcases process_step hp' with he | ⟨c, -, hc⟩
    · rw [he]
      exact h.stamp b hb hrun
    · exact (h.stamp b hb hrun).step (h.bound b hb) (h.past b hb) hc
  refine ⟨.tail a h.reach trivial hp', fun b hb => ?_, fun b hb => ?_, fun b hb hrun => ?_, fun x hx => ?_,
    fun x hx y hy he => ?_, fun x hx hbegun b hb he hrun => ?_⟩
  · rcases List.mem_append.mp hb with hb | hb
    · exact hbound (h.bound b hb)
    · exact hbound (h.boundItems _ (mem_begunBy hp' hb).1)
  · rcases List.mem_append.mp hb with hb | hb
    · exact (h.past b hb).trans hnow
    · exact (mem_begunBy hp' hb).2.2.1 ▸ hnow
  · rcases List.mem_append.mp hb with hb | hb
    · exact hkept b hb hrun
    · obtain ⟨-, -, hat, hbegin⟩ := mem_begunBy hp' hb
      obtain ⟨item, begunAt⟩ := b
      subst hat
      exact stampedSince_begin hrun hbegin
  · rcases process_items hp' hx with hold | ⟨hscan, -, -⟩
    · exact hbound (h.boundItems x hold)
    · exact hbound (boundItem_of_mem hscan)
  · rcases process_items hp' hx with hold | ⟨hscan, -, hitems⟩
    · rcases process_items hp' hy with hold' | ⟨-, hidle, -⟩
      · exact h.uniqueItems x hold y hold' he
      · rw [hidle] at hold
        cases hold
    · rw [hitems] at hy
      exact findExpired_unique hw.jobs hscan hy he
  · rcases process_items hp' hx with hold | ⟨hscan, hidle, -⟩
    · rcases List.mem_append.mp hb with hb | hb
      · exact h.scanned x hold hbegun b hb he hrun
      · -- the recovery that begins now was scanned as one that had not
        obtain ⟨hitem, hneeds, -, -⟩ := mem_begunBy hp' hb
        rw [h.uniqueItems _ hitem x hold he, hbegun] at hneeds
        cases hneeds
    · rcases List.mem_append.mp hb with hb | hb
      · exact scanned_since (h.bound b hb) (h.stamp b hb hrun) hscan he
      · have hitem := (mem_begunBy hp' hb).1
        rw [hidle] at hitem
        cases hitem

lemma reach_graceInv {r : RecoveryWorld} (h : (recoverySystem cfg).Reachable r) : GraceInv cfg r :=
  h.invariant graceInv_init (fun _ _ _ hr _ hstep => hr.step hstep)

/-! ### The grace period -/

/-- A recovery without a confirmed deletion moves its job only when the scanned row is five minutes old. -/
lemma unconfirmed_timeout {w w' : World} {item : ExpiredJobRecoveryInfo}
    (h : w.step cfg (.job (.confirmJobRecovery item false)) = some w') :
    item.jobUpdatedAt + recoveryTimeout ≤ w.db.now := by
  obtain ⟨⟨db', c'⟩, hjob, -⟩ := Option.map_eq_some_iff.mp h
  obtain ⟨retry, -, hretry, -, -⟩ := confirmJobRecovery_step hjob
  by_contra hlt
  simp [recoveryShouldRetry, hlt] at hretry

/-- Let one scheduler process recover lost jobs beside any number of executors and any requests, with any outcomes of
the deletions. A recovery that is completed without a confirmed deletion, for a row scanned after the recovery had
begun, completes at least five minutes after the `BeginJobRecovery` that moved the job to `RECOVERY_PENDING`. -/
theorem recovery_grace_period (cfg : Settings) {r r' : RecoveryWorld} (h : (recoverySystem cfg).Reachable r)
    {item : ExpiredJobRecoveryInfo} {rest : List ExpiredJobRecoveryInfo}
    (hphase : r.process.phase = .confirm item rest) (hscan : item.needsBegin = false)
    (hstep : (recoverySystem cfg).step r (.proceed false) = some r')
    (hmoved : (r'.process.world.db.jobs.get item.jobId).map Job.state ≠
      (r.process.world.db.jobs.get item.jobId).map Job.state) :
    ∀ b ∈ r.begun, b.item.attemptId = item.attemptId → b.item.jobState = running →
      b.begunAt + recoveryTimeout ≤ r.process.world.db.now := by
  intro b hb hid hrun
  have hinv := reach_graceInv h
  have hitem : item ∈ r.process.phase.items := by
    rw [hphase]
    exact List.mem_cons_self
  have hle := hinv.scanned item hitem hscan b hb hid hrun
  obtain ⟨p', hp', rfl⟩ := recovery_step hstep
  rcases process_step hp' with he | ⟨c, hc, hw'⟩
  · exact absurd (by rw [he]) hmoved
  · rw [hphase] at hc
    cases hc
    exact (Nat.add_le_add_right hle _).trans (unconfirmed_timeout hw')

/-- A job with two retries runs, and its executor renews the lease every twenty seconds for a while. -/
def renewedJob (renewals : Nat) : List ProcessAction :=
  [.other (.job (.submitJob 100 ⟨"quay.io/tool", 600, 2⟩))] ++ proceeds 8 ++
    [.other (.job (.claimNextJobAttempt "executor-1" (30 * second) [] [])),
      .other (.job (.markJobAttemptRunning ⟨2, 1, 0, 100, 600, 2, 1, .job 0 1, 1⟩))] ++
    (List.replicate renewals [.other (.tick (20 * second)),
      .other (.job (.renewLease ⟨2, 1, 0, 100, 600, 2, 1, .job 0 1, 1⟩ (30 * second)))]).flatten

/-- The executor is lost after half a minute and its Kubernetes Job cannot be deleted; five minutes later the next
pass is about to give up. -/
def patientRecovery : (recoverySystem Settings.default).FreeRun where
  labels := renewedJob 0 ++ [.other (.tick (31 * second)), .proceed true, .proceed true, .proceed false, .restart,
    .other (.tick (301 * second)), .proceed true, .proceed true]
  executes := by decide +kernel

/-- The executor is lost after six minutes; the recovery has just begun and the deletion is about to fail. -/
def hastyRecovery : (recoverySystem Settings.default).FreeRun where
  labels := renewedJob 18 ++ [.other (.tick (31 * second)), .proceed true, .proceed true]
  executes := by decide +kernel

/-- The row of the first attempt of the job, as a scan returns it. -/
def recoveryRow (jobState : JobState) (needsBegin : Bool) (jobUpdatedAt : Time) : ExpiredJobRecoveryInfo :=
  ⟨2, 1, 0, 1, 2, 1, jobState, .job 0 1, needsBegin, jobUpdatedAt⟩

/-- What the process does when the deletion has failed. -/
def afterFailedDeletion (r : RecoveryWorld) : RecoveryWorld :=
  (RecoveryWorld.step Settings.default r (.proceed false)).getD r

theorem recovery_grace_period_patient : ∃ r r' item rest, (recoverySystem Settings.default).Reachable r ∧
    r.process.phase = .confirm item rest ∧ (recoverySystem Settings.default).step r (.proceed false) = some r' ∧
    r'.process.world.db.jobs.rows.map Job.state = [failed] ∧
    r.begun = [⟨recoveryRow running true 0, 31 * second⟩] ∧
    ∀ b ∈ r.begun, b.item.attemptId = item.attemptId → b.item.jobState = running →
      b.begunAt + recoveryTimeout ≤ r.process.world.db.now :=
  have hphase : patientRecovery.final.process.phase =
      .confirm (recoveryRow recoveryPending false (31 * second)) [] := by decide +kernel
  have hstep : (recoverySystem Settings.default).step patientRecovery.final (.proceed false) =
      some (afterFailedDeletion patientRecovery.final) := rfl
  ⟨patientRecovery.final, afterFailedDeletion patientRecovery.final, _, _, patientRecovery.reachable, hphase, hstep,
    by decide +kernel, by decide +kernel,
    recovery_grace_period Settings.default patientRecovery.reachable hphase rfl hstep (by decide +kernel)⟩

/-- A job that has been running for more than five minutes is failed at the very time at which its recovery begins,
with both of its retries left, when the deletion of its Kubernetes Job fails once. -/
theorem hasty_recovery_fails_job : ∃ r r' item rest, (recoverySystem Settings.default).Reachable r ∧
    r.process.phase = .confirm item rest ∧ (recoverySystem Settings.default).step r (.proceed false) = some r' ∧
    r.begun = [⟨item, r.process.world.db.now⟩] ∧
    r.process.world.db.jobs.rows.map (fun j => (j.state, j.currentAttemptNumber, j.maxRetries)) =
      [(recoveryPending, 1, 2)] ∧
    r'.process.world.db.jobs.rows.map Job.state = [failed] :=
  ⟨hastyRecovery.final, afterFailedDeletion hastyRecovery.final, recoveryRow running true 0, [],
    hastyRecovery.reachable, by decide +kernel, rfl, by decide +kernel, by decide +kernel, by decide +kernel⟩

end HamiCloud.Proofs
