import HamiCloud.Proofs.WorldInvariant

/-!
# Attempts of a job

The number of a new attempt comes from a snapshot of any age. The unique constraint on attempt numbers, the
guard on the state of the job and the rollback of an empty update together keep the attempts of a job numbered
without gap, each with its own intent, and within the retry budget.
-/

namespace HamiCloud.Proofs

open Library

variable {db : Db} {k : Uuid} {j : Job}

def attemptsOf (db : Db) (jobId : Uuid) : List JobAttempt := db.attempts.rows.filter fun a => a.jobId = jobId

def intentsOf (db : Db) (attemptId : Uuid) : List ExecutionIntent :=
  db.jobIntents.rows.filter fun i => i.resourceId = attemptId

lemma mem_attemptsOf {a : JobAttempt} : a ∈ attemptsOf db k ↔ db.attempts.get a.id = some a ∧ a.jobId = k := by
  simp only [attemptsOf, List.mem_filter, decide_eq_true_eq]
  exact and_congr_left fun _ => ⟨Table.get_of_mem, Table.mem_of_get⟩

lemma nodup_rows {α κ : Type} {key : α → κ} (t : Table key) : t.rows.Nodup := t.nodup.of_map key

/-- The attempts of a job are numbered from one to its current attempt. -/
lemma attemptNumbers_perm (hwf : JobWF (jobView db)) (hj : db.jobs.get k = some j) :
    ((attemptsOf db k).map JobAttempt.attemptNumber).Perm (List.range' 1 j.currentAttemptNumber) := by
  have hnodup : ((attemptsOf db k).map JobAttempt.attemptNumber).Nodup := by
    refine List.Nodup.map_on (fun a ha b hb hnum => ?_) ((nodup_rows _).filter _)
    obtain ⟨ha, hak⟩ := mem_attemptsOf.mp ha
    obtain ⟨hb, hbk⟩ := mem_attemptsOf.mp hb
    have hid : a.id = b.id := hwf.attemptUnique ha hb (hak.trans hbk.symm) hnum
    exact Option.some.inj (ha.symm.trans (hid ▸ hb))
  refine (List.perm_ext_iff_of_nodup hnodup List.nodup_range').mpr fun n => ?_
  rw [List.mem_range'_1, List.mem_map]
  constructor
  · rintro ⟨a, ha, rfl⟩
    obtain ⟨hget, rfl⟩ := mem_attemptsOf.mp ha
    obtain ⟨j', hj', hlo, hhi⟩ := hwf.attemptJob hget
    obtain rfl : j' = j := Option.some.inj (hj'.symm.trans hj)
    exact ⟨hlo, by omega⟩
  · rintro ⟨hlo, hhi⟩
    obtain ⟨k', a, ha, hjob, hnum⟩ := hwf.attemptOf hj hlo (by omega)
    exact ⟨a, mem_attemptsOf.mpr ⟨hwf.attemptKey ha ▸ ha, hjob⟩, hnum⟩

/-- An attempt has one intent, with the name that the job and the number of the attempt determine. -/
lemma intentNames_eq (hwf : JobWF (jobView db)) {a : JobAttempt} (ha : a ∈ attemptsOf db k) :
    (intentsOf db a.id).map ExecutionIntent.deterministicResourceName = [.job k a.attemptNumber] := by
  obtain ⟨hget, rfl⟩ := mem_attemptsOf.mp ha
  obtain ⟨k', i, hi, hres⟩ := hwf.intentOf hget
  have hone : intentsOf db a.id = [i] := by
    refine List.perm_singleton.mp ((List.perm_ext_iff_of_nodup ((nodup_rows _).filter _)
      (List.nodup_singleton i)).mpr fun i' => ?_)
    rw [List.mem_filter, List.mem_singleton, decide_eq_true_eq]
    constructor
    · rintro ⟨hmem, hres'⟩
      have hi' := Table.get_of_mem hmem
      have hid : i'.id = k' := hwf.intentUnique hi' hi (hres'.trans hres.symm)
      exact Option.some.inj (hi'.symm.trans (hid ▸ hi))
    · rintro rfl
      exact ⟨Table.mem_of_get hi, hres⟩
  obtain ⟨a', ha', -, hname⟩ := hwf.intentAttempt hi
  rw [hres] at ha'
  obtain rfl : a' = a := Option.some.inj (ha'.symm.trans hget)
  rw [hone, List.map_singleton, hname]

/-- No job has more attempts than its retries allow. -/
def WithinBudget (v : JobView) : Prop := ∀ k j, v.job k = some j → j.currentAttemptNumber ≤ j.maxRetries + 1

lemma WithinBudget.step {now : Time} {v v' : JobView} {e : JobEvent} (h : WithinBudget v) (hwf : JobWF v)
    (hstep : JobStep now v e v') : WithinBudget v' := by
  intro k j' hj'
  cases hj : v.job k with
  | none =>
    have hnew := (hstep.new_job hj hj').2.1
    omega
  | some j =>
    have hold := h k j hj
    obtain ⟨j₁, hj₁, hspec, -, -⟩ := hstep.job_row hwf hj
    obtain rfl : j₁ = j' := Option.some.inj (hj₁.symm.trans hj')
    have hmax : j₁.maxRetries = j.maxRetries := (Job.spec_eq.mp hspec).2.2.2.1
    rcases hstep.job_budget hj hj' with hcur | hle
    · omega
    · exact hle

/-- In every reachable state the attempts of each job are numbered `1, …, current_attempt_number`, each has
exactly one intent, named after its job and its number, and there are at most `max_retries + 1` of them. -/
theorem retry_budget (cfg : Settings) {w : World} (h : (system cfg).Reachable w) {k : Uuid} {j : Job}
    (hj : w.db.jobs.get k = some j) :
    ((attemptsOf w.db k).map JobAttempt.attemptNumber).Perm (List.range' 1 j.currentAttemptNumber) ∧
      (∀ a ∈ attemptsOf w.db k,
        (intentsOf w.db a.id).map ExecutionIntent.deterministicResourceName = [.job k a.attemptNumber]) ∧
      j.currentAttemptNumber ≤ j.maxRetries + 1 := by
  have hw := reach_ok h
  refine ⟨attemptNumbers_perm hw.jobs hj, fun a ha => intentNames_eq hw.jobs ha, ?_⟩
  have hinit : WithinBudget (jobView World.init.db) := by
    intro k j hj
    cases hj
  obtain ⟨-, hbudget⟩ := h.invariant (P := fun w => WorldOK w ∧ WithinBudget (jobView w.db)) ⟨worldOK_init, hinit⟩
    (fun v a v' hv _ hstep => ⟨hv.1.step hstep, hv.2.step hv.1.jobs (job_side hv.1 hstep)⟩)
  exact hbudget k j hj

/-- A job fails its first attempt and gets a second one. -/
def retriedRun : (system Settings.default).FreeRun where
  labels :=
    [.job (.submitJob 100 ⟨"quay.io/tool", 600, 2⟩), .job (.scanUnadmittedJobs 50),
      .job (.createJobAttemptIntent ⟨0, 100, 600, 2, 0, .queued⟩),
      .job (.claimNextJobAttempt "executor-1" (30 * second) [] []),
      .job (.markJobAttemptRunning ⟨2, 1, 0, 100, 600, 2, 1, .job 0 1, 1⟩),
      .job (.markJobAttemptFailed ⟨2, 1, 0, 100, 600, 2, 1, .job 0 1, 1⟩ "exit" 1), .tick (6 * second),
      .job (.scanRetryWaitJobs 50), .job (.requeueRetryWaitJob (6 * second) ⟨0, 1, 0⟩ (6 * second)),
      .job (.scanUnadmittedJobs 50), .job (.createJobAttemptIntent ⟨0, 100, 600, 2, 1, .queued⟩)]
  executes := by decide +kernel

theorem retry_budget_retried : ∃ w j, (system Settings.default).Reachable w ∧ w.db.jobs.get 0 = some j ∧
    j.currentAttemptNumber = 2 ∧
    ((attemptsOf w.db 0).map JobAttempt.attemptNumber).Perm (List.range' 1 j.currentAttemptNumber) ∧
      (∀ a ∈ attemptsOf w.db 0,
        (intentsOf w.db a.id).map ExecutionIntent.deterministicResourceName = [.job 0 a.attemptNumber]) ∧
      j.currentAttemptNumber ≤ j.maxRetries + 1 := by
  have hjob : (retriedRun.final.db.jobs.get 0).map Job.currentAttemptNumber = some 2 := by decide +kernel
  obtain ⟨j, hj, hcur⟩ := Option.map_eq_some_iff.mp hjob
  exact ⟨_, j, retriedRun.reachable, hj, hcur, retry_budget Settings.default retriedRun.reachable hj⟩

end HamiCloud.Proofs
