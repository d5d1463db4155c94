import HamiCloud.Proofs.WorldInvariant

/-!
# What a step adds to the outbox

The outbox only grows. A cancellation, the end of an attempt and a deployment each announce themselves with one
event; the other steps add submissions and builds, or nothing.
-/

namespace HamiCloud

/-- Submissions and builds. -/
def OutboxPayload.isPlain : OutboxPayload → Bool
  | .jobSubmitted _ _ _ _ => true
  | .appBuildRequested _ _ _ _ _ => true
  | .appBuildCompleted _ _ _ _ _ => true
  | _ => false

def Action.isPlain : Action → Bool
  | .job (.cancelJob _) => false
  | .job (.markJobAttemptSucceeded _ _) => false
  | .job (.markJobAttemptFailed _ _ _) => false
  | .service (.deployRelease _ _) => false
  | .service (.rollbackRelease _ _) => false
  | _ => true

end HamiCloud

namespace HamiCloud.Proofs

open Library JobState

variable {cfg : Settings} {db db' : Db}

/-- The events with which an action announces what it does to the database. -/
inductive Announces (db db' : Db) : Action → List OutboxEvent → Prop
  | plain (a : Action) (new : List OutboxEvent) : a.isPlain = true → (∀ e ∈ new, e.payload.isPlain = true) →
      Announces db db' a new
  | alreadyCancelled (jobId : Uuid) : db' = db → Announces db db' (.job (.cancelJob jobId)) []
  | cancelled (jobId : Uuid) (j : Job) (e : OutboxEvent) : db.jobs.get jobId = some j →
      cancelRequested ∈ contract j.state → e.payload = .jobCancellationRequested jobId →
      Announces db db' (.job (.cancelJob jobId)) [e]
  | succeeded (wl : ClaimedJobWorkload) (uid : String) (n : Nat) (e : OutboxEvent) :
      e.payload = .jobAttemptSucceeded wl.jobId wl.jobAttemptId n 0 →
      Announces db db' (.job (.markJobAttemptSucceeded wl uid)) [e]
  | failed (wl : ClaimedJobWorkload) (reason : String) (exitCode : Int) (n : Nat) (e : OutboxEvent) :
      e.payload = .jobAttemptFailed wl.jobId wl.jobAttemptId n exitCode reason (wl.attemptNumber ≤ wl.maxRetries) →
      Announces db db' (.job (.markJobAttemptFailed wl reason exitCode)) [e]
  | deployed (b : ServiceAction) (appId : Uuid) (app : Application) (release : Uuid) (digest : String)
      (config : ReleaseConfig) (rollbackOf : Option Uuid) (e : OutboxEvent) :
      (∃ payload, b = .deployRelease appId payload) ∨ (∃ target, b = .rollbackRelease appId target) →
      db.apps.get appId = some app →
      e.payload = .appDeploymentRequested appId release (app.desiredGeneration + 1) digest config rollbackOf →
      Announces db db' (.service b) [e]

/-- The outbox grows by events that announce the action. -/
def Grows (db db' : Db) (a : Action) : Prop :=
  ∃ new, db'.outbox = db.outbox ++ new ∧ Announces db db' a new

lemma Grows.same {a : Action} (ha : a.isPlain = true) (h : db'.outbox = db.outbox) : Grows db db' a :=
  ⟨[], by simp [h], .plain a [] ha (by simp)⟩

lemma Grows.one {a : Action} {e : OutboxEvent} (ha : a.isPlain = true) (h : db'.outbox = db.outbox ++ [e])
    (he : e.payload.isPlain = true) : Grows db db' a :=
  ⟨[e], h, .plain a [e] ha (by simpa using he)⟩

/-! ### Jobs -/

lemma insertJob_outbox {ws : Uuid} {timeout retries : Nat} {parent : Option Uuid} {db₁ : Db} {reserve : Bool}
    {a : Action} (ha : a.isPlain = true)
    (hq : enforceWorkspaceQuota cfg db ws .concurrentJob none reserve = .ok db₁)
    (h : insertJob db₁ ws timeout retries parent = .ok db') : Grows db db' a := by
  obtain ⟨hframe, -, -⟩ := enforceWorkspaceQuota_frame hq
  have hsame : db₁.outbox = db.outbox := by rw [hframe]
  unfold insertJob at h
  simp only [bind_eq_ok, orError_eq_ok, pure_eq_ok] at h
  obtain ⟨jobs, -, rfl⟩ := h
  exact .one ha (congrArg (· ++ [_]) hsame) rfl

lemma cancelJob_outbox {jobId : Uuid} (h : cancelJob db jobId = .ok db') :
    Grows db db' (.job (.cancelJob jobId)) := by
  unfold cancelJob at h
  simp only [bind_eq_ok, orError_eq_ok] at h
  obtain ⟨j, hj, h⟩ := h
  split at h
  · have hsame := (pure_eq_ok.mp h).symm
    exact ⟨[], by simp [hsame], .alreadyCancelled jobId hsame⟩
  · split at h
    · cases h
    · rename_i hv
      obtain rfl := pure_eq_ok.mp h
      exact ⟨[_], rfl, .cancelled jobId j _ hj ((validateJobTransition_ok _ _).mp hv) rfl⟩

lemma markJobAttemptSucceeded_outbox {wl : ClaimedJobWorkload} {uid : String}
    (h : markJobAttemptSucceeded db wl.intentId wl.jobAttemptId wl.jobId uid wl.leaseEpoch = .ok db') :
    Grows db db' (.job (.markJobAttemptSucceeded wl uid)) := by
  unfold markJobAttemptSucceeded at h
  simp only [bind_eq_ok, orError_eq_ok, pure_eq_ok] at h
  obtain ⟨db₁, hfence, ⟨j', db₂⟩, hu, attempt, -, job, -, rfl⟩ := h
  obtain ⟨-, i, -, -, -, rfl⟩ := fenceJobIntent_inv hfence
  have hsame := updateJob_outbox hu
  exact ⟨[_], congrArg (· ++ [_]) hsame, .succeeded wl uid attempt.attemptNumber _ rfl⟩

lemma markJobAttemptFailed_outbox {wl : ClaimedJobWorkload} {reason : String} {exitCode : Int}
    (h : markJobAttemptFailed db wl.intentId wl.jobAttemptId wl.jobId reason exitCode wl.leaseEpoch
      (wl.attemptNumber ≤ wl.maxRetries) = .ok db') :
    Grows db db' (.job (.markJobAttemptFailed wl reason exitCode)) := by
  unfold markJobAttemptFailed at h
  simp only [bind_eq_ok, orError_eq_ok, pure_eq_ok] at h
  obtain ⟨db₁, hfence, -, -, ⟨j', db₂⟩, hu, rfl⟩ := h
  obtain ⟨-, i, -, -, -, rfl⟩ := fenceJobIntent_inv hfence
  have hsame := updateJob_outbox hu
  exact ⟨[_], congrArg (· ++ [_]) hsame, .failed wl reason exitCode j'.currentAttemptNumber _ rfl⟩

lemma jobStep_outbox {c c' : JobClients} {b : JobAction} (h : jobStep cfg db c b = some (db', c')) :
    Grows db db' (.job b) := by
  cases b with
  | submitJob ws payload =>
    have hdb := (commit_inv h).1
    unfold submitJob at hdb
    simp only [bind_eq_ok] at hdb
    obtain ⟨-, -, -, -, db₁, hq, hins⟩ := hdb
    exact insertJob_outbox rfl hq hins
  | cancelJob id => exact cancelJob_outbox (commit_inv h).1
  | rerunJob id =>
    have hdb := (commit_inv h).1
    unfold rerunJob at hdb
    simp only [bind_eq_ok] at hdb
    obtain ⟨job, -, -, -, db₁, hq, hins⟩ := hdb
    exact insertJob_outbox rfl hq hins
  | markJobAttemptSucceeded wl uid => exact markJobAttemptSucceeded_outbox (held_commit_inv h).2.1
  | markJobAttemptFailed wl reason exitCode => exact markJobAttemptFailed_outbox (held_commit_inv h).2.1
  | _ => exact .same rfl ((jobStep_frame h).outbox (by simp [JobAction.writes]))

/-! ### Services -/

lemma acceptRelease_outbox {app : Application} {digest : String} {config : ReleaseConfig} {rollbackOf : Option Uuid}
    (h : acceptRelease cfg db app digest config rollbackOf = .ok db') :
    ∃ e release, db'.outbox = db.outbox ++ [e] ∧
      e.payload = .appDeploymentRequested app.id release (app.desiredGeneration + 1) digest config rollbackOf := by
  unfold acceptRelease at h
  simp only [bind_eq_ok, orError_eq_ok, pure_eq_ok] at h
  obtain ⟨db₁, hq, db₂, hins, rfl⟩ := h
  obtain ⟨hframe, -, -⟩ := enforceWorkspaceQuota_frame hq
  have hsame : db₁.outbox = db.outbox := by rw [hframe]
  obtain ⟨releases, -, -, rfl⟩ := insertRelease_inv hins
  exact ⟨_, _, congrArg (· ++ [_]) hsame, rfl⟩

lemma triggerBuild_outbox {appId : Uuid} {payload : TriggerBuildRequest} {a : Action} (ha : a.isPlain = true)
    (h : triggerBuild cfg db appId payload = .ok db') : Grows db db' a := by
  unfold triggerBuild at h
  simp only [bind_eq_ok, orError_eq_ok, pure_eq_ok] at h
  obtain ⟨app, -, repo, -, -, -, db₁, hq, db₂, hins, rfl⟩ := h
  obtain ⟨hframe, -, -⟩ := enforceWorkspaceQuota_frame hq
  have hsame : db₁.outbox = db.outbox := by rw [hframe]
  obtain ⟨releases, -, -, rfl⟩ := insertRelease_inv hins
  exact .one ha (congrArg (· ++ [_]) hsame) rfl

lemma commitWebhook_outbox {plan : WebhookPlan} (h : commitWebhook db plan = .ok db') :
    ∃ new, db'.outbox = db.outbox ++ new ∧ ∀ e ∈ new, e.payload.isPlain = true := by
  unfold commitWebhook at h
  generalize plan.builds = builds at h
  induction builds generalizing db with
  | nil =>
    rw [List.foldlM_nil, pure_eq_ok] at h
    exact ⟨[], by simp [h], by simp⟩
  | cons b builds ih =>
    simp only [List.foldlM_cons, insertPlanned, bind_eq_ok, orError_eq_ok, pure_eq_ok] at h
    obtain ⟨db₁, ⟨-, -, db₂, hins, rfl⟩, hrest⟩ := h
    obtain ⟨releases, -, -, rfl⟩ := insertRelease_inv hins
    obtain ⟨new, hnew, hplain⟩ := ih hrest
    rw [hnew, insertOutbox, List.append_assoc]
    refine ⟨_, rfl, fun e he => ?_⟩
    rcases List.mem_append.mp he with he | he
    · rw [List.mem_singleton.mp he]
      rfl
    · exact hplain e he

lemma serviceStep_outbox {c c' : ServiceClients} {b : ServiceAction}
    (h : serviceStep cfg db c b = some (db', c')) : Grows db db' (.service b) := by
  cases b with
  | deployRelease appId payload =>
    obtain ⟨app, happ, hacc⟩ := deployRelease_inv (commit_inv h).1
    obtain ⟨e, release, hgrow, he⟩ := acceptRelease_outbox hacc
    rw [Table.key_of_get happ] at he
    exact ⟨[e], hgrow, .deployed _ appId app release _ _ _ e (.inl ⟨payload, rfl⟩) happ he⟩
  | rollbackRelease appId target =>
    obtain ⟨app, t, happ, -, hacc⟩ := rollbackRelease_inv (commit_inv h).1
    obtain ⟨e, release, hgrow, he⟩ := acceptRelease_outbox hacc
    rw [Table.key_of_get happ] at he
    exact ⟨[e], hgrow, .deployed _ appId app release _ _ _ e (.inr ⟨target, rfl⟩) happ he⟩
  | triggerBuild app payload => exact triggerBuild_outbox rfl (commit_inv h).1
  | commitWebhook plan =>
    obtain ⟨new, hnew, hplain⟩ := commitWebhook_outbox (held_commit_inv h).2.1
    exact ⟨new, hnew, .plain _ new rfl hplain⟩
  | markBuildSucceeded task digest =>
    have hdb := (held_commit_inv h).2.1
    unfold markBuildSucceeded at hdb
    simp only [bind_eq_ok, orError_eq_ok, pure_eq_ok] at hdb
    obtain ⟨-, -, ⟨r, releases⟩, -, rfl⟩ := hdb
    exact .one rfl rfl rfl
  | markBuildFailed task reason =>
    have hdb := (held_commit_inv h).2.1
    unfold markBuildFailed at hdb
    simp only [bind_eq_ok, orError_eq_ok, pure_eq_ok] at hdb
    obtain ⟨-, -, ⟨r, releases⟩, -, rfl⟩ := hdb
    exact .one rfl rfl rfl
  | _ => exact .same rfl ((serviceStep_frame h).outbox (by simp [ServiceAction.writes]))

/-- Every step adds to the outbox what announces it. -/
theorem step_outbox {w w' : World} {a : Action} (h : (system cfg).step w a = some w') : Grows w.db w'.db a := by
  rcases step_cases h with ⟨d, rfl, rfl⟩ | ⟨b, db', c', rfl, hjob, rfl⟩ | ⟨b, db', c', rfl, hserv, rfl⟩
  · exact .same rfl rfl
  · exact jobStep_outbox hjob
  · exact serviceStep_outbox hserv

end HamiCloud.Proofs
