import HamiCloud.Library.RowNumber
import HamiCloud.Proofs.Reservations
import HamiCloud.Runtime.Passes

/-!
# The cap on concurrent jobs

The cap of a workspace is checked when a pass takes its snapshot, and the rows of the snapshot are admitted
later one by one. As long as no two passes overlap after their snapshots, the rows that a pass has still to go
through fit beside the jobs that run. The second of two snapshots does not count the rows of the first.
-/

namespace HamiCloud.Proofs

open Library JobState

variable {cfg : Settings} {w w' : World} {a : Action} {db db' : Db} {ws : Uuid} {p p' : PassWorld}

/-- The states of a job that count against the cap of its workspace. -/
def concurrentJobStates : List JobState := [admitted, starting, running, recoveryPending]

/-- `maxPerWS` of `ScanUnadmittedJobs`. -/
def jobCap (cfg : Settings) : Nat := if cfg.maxConcurrentJobsPerWS ≤ 0 then 2 else cfg.maxConcurrentJobsPerWS

/-! ### Snapshots -/

lemma rankedQueued_eq (db : Db) : rankedQueued db =
    rowNumbers Job.workspaceId (orderBy Job.createdAt (db.jobs.rows.filter fun j => j.state = queued)) := rfl

/-- A snapshot fills a workspace up to its cap at most. -/
lemma scanUnadmittedJobs_le (cfg : Settings) (db : Db) (limit : Nat) (ws : Uuid) :
    (scanUnadmittedJobs db cfg.maxConcurrentJobsPerWS limit).countP (fun u => u.workspaceId = ws) ≤
      jobCap cfg - activeJobs db ws := by
  simp only [scanUnadmittedJobs, List.countP_map]
  refine (List.Sublist.countP_le (List.take_sublist ..)).trans ?_
  rw [(List.perm_insertionSort _ _).countP_eq, List.countP_filter, rankedQueued_eq]
  generalize orderBy Job.createdAt (db.jobs.rows.filter fun j => j.state = queued) = rows
  have hnumbers := countP_rowNumbers Job.workspaceId rows ws (jobCap cfg - activeJobs db ws)
  refine (List.countP_mono_left fun x _ hx => ?_).trans (hnumbers.trans_le (min_le_left _ _))
  simp only [Function.comp_apply, Bool.and_eq_true, decide_eq_true_eq] at hx ⊢
  obtain ⟨rfl, hle⟩ := hx
  exact ⟨rfl, Nat.le_sub_of_add_le' hle⟩

lemma concurrent_le_active (db : Db) (ws : Uuid) : countJobs db ws concurrentJobStates ≤ activeJobs db ws := by
  refine List.countP_mono_left fun j _ hj => ?_
  simp only [concurrentJobStates, activeJobStates, List.mem_cons, List.not_mem_nil, or_false, Bool.and_eq_true,
    decide_eq_true_eq] at hj ⊢
  exact ⟨hj.1, by tauto⟩

/-! ### Admissions -/

/-- A job enters the counted states by its admission only. -/
lemma concurrent_back {j j' : Job} {v v' : JobView} {now : Time} {e : JobEvent} {k : Uuid}
    (hstep : JobStep now v e v') (hwf : JobWF v) (hj : v.job k = some j) (hj' : v'.job k = some j')
    (he : ∀ k, e ≠ .admission k) (hst : j'.state ∈ concurrentJobStates) : j.state ∈ concurrentJobStates := by
  obtain ⟨j₁, hj₁, -, hedge, -⟩ := hstep.job_row hwf hj
  obtain rfl : j₁ = j' := Option.some.inj (hj₁.symm.trans hj')
  have hadm : j₁.state = admitted → j.state = admitted := by
    intro hadm
    rcases hstep.job_change hj hj' with rfl | ⟨-, -, hmove | ⟨i, a, st, s, -, -, hadv⟩⟩ | ⟨hev, -⟩
    · exact hadm
    · exact absurd hadm hmove.not_admitted
    · exact hadv.admitted hadm
    · exact absurd hev (he k)
  rcases hedge with hedge | hedge
  · exact hedge ▸ hst
  · cases hs : j.state <;> simp only [hs, contract, concurrentJobStates, List.mem_cons, List.not_mem_nil] at *
    all_goals grind

lemma concurrent_le (hw : WorldOK w) (hstep : (system cfg).step w a = some w')
    (ha : ∀ k, Action.jobEvent w a ≠ .admission k) :
    countJobs w'.db ws concurrentJobStates ≤ countJobs w.db ws concurrentJobStates := by
  refine Table.count_le (t := w'.db.jobs) (u := w.db.jobs) fun k j' hj' hp => ?_
  have hjob := job_side hw hstep
  simp only [Bool.and_eq_true, decide_eq_true_eq] at hp ⊢
  rcases hjob.job_origin hw.jobs hj' with ⟨hq, -⟩ | ⟨j, hj, hspec, -⟩
  · simp [hq, concurrentJobStates] at hp
  · obtain ⟨-, hws, -⟩ := Job.spec_eq.mp hspec
    exact ⟨j, hj, hws ▸ hp.1, concurrent_back hjob hw.jobs hj hj' ha hp.2⟩

/-- A call of `CreateJobAttemptIntent` adds at most its own job to the count. -/
lemma attempt_admission (cfg : Settings) (job : UnadmittedJob) (ws : Uuid) (hr : (system cfg).Reachable w)
    (hw' : w.attempt cfg (.job (.createJobAttemptIntent job)) = w') :
    (system cfg).Reachable w' ∧ countJobs w'.db ws concurrentJobStates ≤
      countJobs w.db ws concurrentJobStates + (decide (job.workspaceId = ws)).toNat := by
  cases hstep : (system cfg).step w (.job (.createJobAttemptIntent job)) with
  | none =>
    obtain rfl : w = w' := (congrArg (Option.getD · w) hstep).symm.trans hw'
    exact ⟨hr, Nat.le_add_right _ _⟩
  | some u =>
    obtain rfl : u = w' := (congrArg (Option.getD · w) hstep).symm.trans hw'
    refine ⟨.tail _ hr trivial hstep, ?_⟩
    obtain ⟨⟨db', c'⟩, hjob, rfl⟩ := Option.map_eq_some_iff.mp hstep
    obtain ⟨i, hmem, hdb, -⟩ := createJobAttemptIntent_step hjob
    obtain ⟨j, a, q, hadm⟩ := createJobAttemptIntent_inv hdb
    obtain ⟨j', hj', -, -, hws⟩ := (reach_ok hr).jobClients.unadmitted job hmem
    obtain rfl : j = j' := Option.some.inj (hadm.row.symm.trans hj')
    have hcount := hadm.count_jobs ws concurrentJobStates
    have hle : ∀ b c : Bool, (b && c).toNat ≤ b.toNat := by decide
    have hnew := hle (decide (j.workspaceId = ws)) (decide (admitted ∈ concurrentJobStates))
    rw [hws]
    change countJobs db' ws concurrentJobStates ≤ _
    omega

/-! ### Passes -/

/-- The rows of a workspace that passes have still to go through. -/
def remaining (p : PassWorld) (ws : Uuid) : Nat := p.passes.flatten.countP fun u => u.workspaceId = ws

lemma countP_flatten_set {α : Type} {q : α → Bool} {ls : List (List α)} {n : Nat} {l : List α}
    (h : ls[n]? = some l) (l' : List α) :
    (ls.set n l').flatten.countP q + l.countP q = ls.flatten.countP q + l'.countP q := by
  induction ls generalizing n with
  | nil => simp at h
  | cons x ls ih =>
    cases n with
    | zero =>
      obtain rfl : x = l := by simpa using h
      simp only [List.set_cons_zero, List.flatten_cons, List.countP_append]
      omega
    | succ n =>
      have hrest := ih (n := n) (by simpa using h)
      simp only [List.set_cons_succ, List.flatten_cons, List.countP_append]
      omega

/-- A pass takes its snapshot only when no other pass has rows to go through. -/
def sequential (p : PassWorld) : PassAction → Bool
  | .snapshot => p.passes.all List.isEmpty
  | _ => true

/-- The rows still to go through fit beside the jobs that are counted. -/
structure PassOK (cfg : Settings) (p : PassWorld) (ws : Uuid) : Prop where
  reachable : (system cfg).Reachable p.world
  within : countJobs p.world.db ws concurrentJobStates + remaining p ws ≤ jobCap cfg

lemma PassOK.step {act : PassAction} (h : PassOK cfg p ws) (hguard : sequential p act = true)
    (hstep : (passSystem cfg).step p act = some p') : PassOK cfg p' ws := by
  have hw := reach_ok h.reachable
  have hwithin := h.within
  cases act with
  | other a =>
    obtain ⟨ha, hstep⟩ := Option.ite_none_left_eq_some.mp hstep
    obtain ⟨w', hworld, rfl⟩ := Option.map_eq_some_iff.mp hstep
    refine ⟨.tail a h.reachable trivial hworld, (Nat.add_le_add_right ?_ _).trans hwithin⟩
    refine concurrent_le hw hworld fun k he => ha ?_
    cases a with
    | job b =>
      cases b with
      | createJobAttemptIntent job => rfl
      | _ => simp [Action.jobEvent, jobEvent] at he
    | _ => cases he
  | snapshot =>
    cases hstep
    refine ⟨.tail (.job (.scanUnadmittedJobs scanLimit)) h.reachable trivial rfl, ?_⟩
    have hempty : p.passes.flatten = [] := by
      rw [List.flatten_eq_nil_iff]
      intro rows hrows
      exact List.isEmpty_iff.mp (List.all_eq_true.mp hguard rows hrows)
    have hscan := scanUnadmittedJobs_le cfg p.world.db scanLimit ws
    have hactive := concurrent_le_active p.world.db ws
    simp only [remaining, List.flatten_append, List.flatten_singleton, hempty, List.nil_append,
      List.countP_nil] at hwithin ⊢
    omega
  | admission n =>
    simp only [passSystem, PassWorld.step] at hstep
    split at hstep
    · rename_i job rest hn
      obtain rfl := Option.some.inj hstep
      have hrem := countP_flatten_set (q := fun u => u.workspaceId = ws) hn rest
      rw [List.countP_cons] at hrem
      obtain ⟨hreach, hadm⟩ := attempt_admission cfg job ws h.reachable rfl
      refine ⟨hreach, ?_⟩
      simp only [remaining] at hwithin ⊢
      cases hws : decide (job.workspaceId = ws) <;> simp only [hws, Bool.toNat_true, Bool.toNat_false] at hadm hrem
      · simp only [Bool.false_eq_true, if_false] at hrem
        omega
      · simp only [if_true] at hrem
        omega
    · cases hstep
  | crash n =>
    obtain ⟨rows, hn, rfl⟩ := Option.map_eq_some_iff.mp hstep
    refine ⟨h.reachable, ?_⟩
    have hrem := countP_flatten_set (q := fun u => u.workspaceId = ws) hn []
    rw [List.countP_nil] at hrem
    simp only [remaining] at hwithin ⊢
    omega

/-- In every run in which a pass takes its snapshot only when no other is between its snapshot and its last
admission, each workspace has at most as many jobs in the counted states as its cap allows. -/
theorem job_cap (cfg : Settings) {p : PassWorld} (h : (passSystem cfg).Reach (fun p a => sequential p a = true) p)
    (ws : Uuid) : countJobs p.world.db ws concurrentJobStates ≤ jobCap cfg := by
  have hinit : PassOK cfg PassWorld.init ws := ⟨.refl _, Nat.zero_le _⟩
  have hok := h.invariant (P := fun p => PassOK cfg p ws) hinit (fun v a v' hv ha hstep => hv.step ha hstep)
  exact (Nat.le_add_right _ _).trans hok.within

/-! ### Two snapshots at once -/

/-- Two jobs of a workspace with a cap of two are admitted; the older one fails and waits for its retry, and
a third job is submitted. -/
def waitingRetry : List PassAction :=
  [.other (.job (.submitJob 100 ⟨"quay.io/tool", 600, 2⟩)), .other (.tick second),
    .other (.job (.submitJob 100 ⟨"quay.io/tool", 600, 2⟩)), .snapshot, .admission 0, .admission 0,
    .other (.job (.claimNextJobAttempt "executor-1" (30 * second) [] [])),
    .other (.job (.markJobAttemptRunning ⟨3, 2, 0, 100, 600, 2, 1, .job 0 1, 1⟩)),
    .other (.job (.markJobAttemptFailed ⟨3, 2, 0, 100, 600, 2, 1, .job 0 1, 1⟩ "exit" 1)),
    .other (.tick second), .other (.job (.submitJob 100 ⟨"quay.io/tool", 600, 2⟩))]

/-- The next pass fills the cap with the third job. -/
def filledCap : (passSystem Settings.default).Run sequential where
  labels := waitingRetry ++ [.snapshot, .admission 1]
  executes := by decide +kernel

theorem job_cap_filled : ∃ p, (passSystem Settings.default).Reach (fun p a => sequential p a = true) p ∧
    countJobs p.world.db 100 concurrentJobStates = 2 ∧
      countJobs p.world.db 100 concurrentJobStates ≤ jobCap Settings.default :=
  ⟨filledCap.final, filledCap.reach, by decide +kernel, job_cap Settings.default filledCap.reach 100⟩

/-- Two passes: the first has taken the third job into its snapshot; the second puts the failed job back into
the queue, where it comes first, and admits it; then the first goes on. -/
def overlappingPasses : (passSystem Settings.default).FreeRun where
  labels := waitingRetry ++
    [.snapshot, .other (.tick (10 * second)), .other (.job (.scanRetryWaitJobs 50)),
      .other (.job (.requeueRetryWaitJob (12 * second) ⟨0, 1, second⟩ (12 * second))), .snapshot, .admission 2,
      .admission 1]
  executes := by decide +kernel

theorem overlapping_passes_exceed_cap : ∃ p, (passSystem Settings.default).Reachable p ∧
    countJobs p.world.db 100 concurrentJobStates = 3 ∧ jobCap Settings.default = 2 :=
  ⟨overlappingPasses.final, overlappingPasses.reachable, by decide +kernel, rfl⟩

end HamiCloud.Proofs
