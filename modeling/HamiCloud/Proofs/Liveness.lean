import HamiCloud.Runtime.Executor

/-!
# Liveness of a working executor

The loop ticks once before each `RunOnce` and not while it runs. So `/healthz` answers 200 for a workload in progress
as long as the claims of the pass and the workload stay below the staleness window together, and an executor that
works on a longer job, release or build is reported stale and restarted, however well its lease is renewed.
-/

namespace HamiCloud.Proofs

open Library

variable {cfg : ExecutorConfig} {s s' : ExecutorState} {c b : Nat}

/-- The time between the tick of a pass and its first claim, and each claim of a pass, last at most `c`, and its
workload at most `b`. -/
def timely (c b : Nat) (s : ExecutorState) : ExecutorAction → Bool
  | .elapse d =>
    match s.phase with
    | .ticked => s.now + d ≤ s.entered + c
    | .claiming _ _ => s.now + d ≤ s.entered + c
    | .working _ _ => s.now + d ≤ s.entered + b
    | _ => true
  | _ => true

/-- How far a phase of a pass is from the tick of the pass: at most `c` for each part of it that is over. -/
def Paced (c b : Nat) (s : ExecutorState) : Prop :=
  match s.phase with
  | .ticked => s.entered ≤ s.lastTick ∧ s.now ≤ s.entered + c
  | .claiming _ later => s.entered + (later.length + 1) * c ≤ s.lastTick + 4 * c ∧ s.now ≤ s.entered + c
  | .working _ _ => s.entered ≤ s.lastTick + 4 * c ∧ s.now ≤ s.entered + b
  | _ => True

lemma paced_stages (h : s.phase = .ticked) (hp : Paced c b s) : Paced c b (s.enter cfg.stages) := by
  simp only [Paced, h] at hp
  unfold ExecutorConfig.stages
  split <;> simp only [Paced, ExecutorState.enter, List.length_cons, List.length_nil] <;> omega

lemma paced_next {stage next : ClaimStage} {later : List ClaimStage} (h : s.phase = .claiming stage (next :: later))
    (hp : Paced c b s) : Paced c b (s.enter (.claiming next later)) := by
  simp only [Paced, h, List.length_cons, Nat.add_mul] at hp
  simp only [Paced, ExecutorState.enter, Nat.add_mul]
  omega

lemma paced_claimed {stage : ClaimStage} {later : List ClaimStage} (h : s.phase = .claiming stage later)
    (hp : Paced c b s) (wl : ExecutorWorkload) (hb : Option LeaseHeartbeat) :
    Paced c b (s.enter (.working wl hb)) := by
  simp only [Paced, h, Nat.add_mul] at hp
  simp only [Paced, ExecutorState.enter]
  omega

lemma Paced.step (hp : Paced c b s) {a : ExecutorAction} (ht : timely c b s a = true)
    (h : s.step cfg a = some s') : Paced c b s' := by
  cases a with
  | elapse d =>
    cases h
    cases hphase : s.phase <;> simp_all [Paced, timely]
  | start =>
    obtain ⟨-, h⟩ := Option.ite_none_right_eq_some.mp h
    cases h
    trivial
  | tick done =>
    obtain ⟨-, h⟩ := Option.ite_none_right_eq_some.mp h
    cases h
    split
    · trivial
    · exact ⟨le_rfl, Nat.le_add_right _ _⟩
  | runOnce =>
    obtain ⟨hphase, h⟩ := Option.ite_none_right_eq_some.mp h
    cases h
    split
    · trivial
    · exact paced_stages hphase hp
  | claimFailed =>
    simp only [ExecutorState.step] at h
    split at h <;> cases h
    trivial
  | claimedNothing =>
    simp only [ExecutorState.step] at h
    split at h
    · cases h
      trivial
    · rename_i hphase
      cases h
      exact paced_next hphase hp
    · cases h
  | claimed wl =>
    simp only [ExecutorState.step] at h
    split at h
    · rename_i hphase
      obtain ⟨-, h⟩ := Option.ite_none_right_eq_some.mp h
      cases h
      exact paced_claimed hphase hp wl _
    · cases h
  | renew ok =>
    simp only [ExecutorState.step] at h
    split at h
    · rename_i hphase
      obtain ⟨-, h⟩ := Option.ite_none_right_eq_some.mp h
      cases h
      simpa only [Paced, hphase] using hp
    · cases h
  | finish =>
    simp only [ExecutorState.step] at h
    split at h <;> cases h
    trivial
  | idleDone =>
    obtain ⟨-, h⟩ := Option.ite_none_right_eq_some.mp h
    cases h
    trivial
  | idleTimeout =>
    obtain ⟨-, h⟩ := Option.ite_none_right_eq_some.mp h
    cases h
    trivial
  | wake =>
    obtain ⟨-, h⟩ := Option.ite_none_right_eq_some.mp h
    cases h
    trivial
  | stop =>
    cases h
    exact hp
  | probe =>
    simp only [ExecutorState.step] at h
    split at h
    · cases h
      exact hp
    · cases h
      simp only [Paced]
      split_ifs
      · exact hp
      · trivial

/-- When every claim and the time before the first last at most `c`, and every workload at most `b`, and the staleness
window covers a whole pass, then `/healthz` answers 200 at every moment of a workload in progress, and no liveness
probe ends it. -/
theorem healthz_while_working (cfg : ExecutorConfig) (c b : Nat) (hwindow : 4 * c + b ≤ cfg.stalenessWindow)
    {s : ExecutorState} (hs : (executorSystem cfg).Reach (fun s a => timely c b s a = true) s)
    {wl : ExecutorWorkload} {hb : Option LeaseHeartbeat} (hwork : s.phase = .working wl hb) :
    handleHealthz cfg s = 200 ∧ (s.step cfg .probe).map ExecutorState.phase = some s.phase := by
  have hinit : Paced c b (executorSystem cfg).init := trivial
  have hp : Paced c b s := hs.invariant hinit fun _ _ _ hp ht hstep => hp.step ht hstep
  simp only [Paced, hwork] at hp
  have hok : handleHealthz cfg s = 200 := if_neg (by omega)
  exact ⟨hok, by simp [ExecutorState.step, hok]⟩

/-- A job that may run for ten minutes. -/
def longJob : ClaimedJobWorkload := ⟨1, 2, 3, 100, 600, 0, 1, .job 3 1, 1⟩

/-- The executor claims the job in its first pass. -/
def jobClaimed : List ExecutorAction :=
  [.start, .tick false, .runOnce, .elapse second, .claimedNothing, .claimed (.job longJob)]

/-- The job is in progress for twenty seconds. -/
def shortWorkRun : (executorSystem .deployed).Run (timely second (26 * second)) where
  labels := jobClaimed ++ [.elapse (20 * second), .renew true]
  executes := by decide +kernel

theorem healthz_while_working_short_job :
    shortWorkRun.final.phase = .working (.job longJob) (some ⟨1, 1, 41 * second, false⟩) ∧
      handleHealthz .deployed shortWorkRun.final = 200 := by
  have hphase : shortWorkRun.final.phase = .working (.job longJob) (some ⟨1, 1, 41 * second, false⟩) := by
    decide +kernel
  exact ⟨hphase, (healthz_while_working .deployed second (26 * second) (by decide) shortWorkRun.reach hphase).1⟩

/-- The job is in progress for thirty seconds, and its lease has been renewed. -/
def longWorkRun : (executorSystem .deployed).FreeRun where
  labels := jobClaimed ++ [.elapse (20 * second), .renew true, .elapse (10 * second)]
  executes := by decide +kernel

/-- The probes that follow, with every renewal in time. -/
def probesUntilRestart : List ExecutorAction :=
  [.probe, .elapse (10 * second), .renew true, .elapse (5 * second), .probe, .elapse (15 * second), .renew true, .probe]

/-- A job well within its timeout, whose renewals have all succeeded, is in progress in an executor that `/healthz`
reports as stale; the liveness probes go on to restart it. -/
theorem working_executor_reported_dead : ∃ s s' : ExecutorState, (executorSystem .deployed).Reachable s ∧
    s.phase = .working (.job longJob) (some ⟨1, 1, 41 * second, false⟩) ∧ s.now < 41 * second ∧
    s.now < s.entered + longJob.timeoutSeconds * second ∧ handleHealthz .deployed s = 503 ∧
    (executorSystem .deployed).exec s probesUntilRestart = some s' ∧ s'.phase = .killed := by
  refine ⟨longWorkRun.final, ((executorSystem .deployed).exec longWorkRun.final probesUntilRestart).get ?_,
    longWorkRun.reachable, ?_⟩
  · decide +kernel
  · decide +kernel

end HamiCloud.Proofs
