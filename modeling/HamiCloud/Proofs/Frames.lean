import HamiCloud.Proofs.ReleaseSimulation

/-!
# What a transaction leaves alone

Every action of the system comes with the tables that its transaction may write. All other tables, and the clock, are
the same after it, and the supply of identifiers never runs backwards. In particular the two sides of the system touch
disjoint tables.
-/

namespace HamiCloud

inductive DbTable
  | jobs
  | attempts
  | jobIntents
  | repositories
  | apps
  | releases
  | releaseIntents
  | reservations
  | deadLetters
  | outbox
  deriving DecidableEq

def JobAction.writes : JobAction → List DbTable
  | .submitJob _ _ => [.jobs, .reservations, .outbox]
  | .cancelJob _ => [.jobs, .outbox]
  | .rerunJob _ => [.jobs, .reservations, .outbox]
  | .findExpiredJobIntents => []
  | .beginJobRecovery _ => [.jobs, .attempts, .jobIntents, .deadLetters]
  | .confirmJobRecovery _ _ => [.jobs, .reservations, .deadLetters]
  | .scanRetryWaitJobs _ => []
  | .requeueRetryWaitJob _ _ _ => [.jobs, .deadLetters]
  | .scanUnadmittedJobs _ => []
  | .createJobAttemptIntent _ => [.jobs, .attempts, .jobIntents, .reservations, .deadLetters]
  | .claimNextJobAttempt _ _ _ _ => [.jobs, .attempts, .jobIntents, .deadLetters]
  | .renewLease _ _ => [.jobIntents]
  | .markJobAttemptRunning _ => [.jobs, .attempts, .jobIntents, .deadLetters]
  | .markJobAttemptSucceeded _ _ => [.jobs, .attempts, .jobIntents, .reservations, .deadLetters, .outbox]
  | .markJobAttemptFailed _ _ _ => [.jobs, .attempts, .jobIntents, .reservations, .deadLetters, .outbox]
  | .markJobAttemptCancelled _ => [.jobs, .attempts, .jobIntents, .reservations, .deadLetters]

def ServiceAction.writes : ServiceAction → List DbTable
  | .createRepository _ => [.repositories]
  | .createApplication _ _ => [.apps]
  | .updateApplication _ _ => [.apps]
  | .deployRelease _ _ => [.apps, .releases, .reservations, .outbox]
  | .rollbackRelease _ _ => [.apps, .releases, .reservations, .outbox]
  | .triggerBuild _ _ => [.releases, .reservations, .outbox]
  | .readWebhook _ _ _ => []
  | .commitWebhook _ => [.releases, .outbox]
  | .supersedeReleases => [.releases, .releaseIntents]
  | .selectUnadmittedReleases _ => []
  | .createServiceReleaseIntent _ => [.releaseIntents]
  | .claimNextServiceRelease _ _ _ _ => [.releases, .releaseIntents]
  | .renewLease _ _ => [.releaseIntents]
  | .markReleaseHealthy _ _ => [.apps, .releases, .releaseIntents]
  | .markReleaseFailed _ _ => [.releases, .releaseIntents]
  | .claimNextBuildRelease _ _ => [.releases]
  | .markBuildSucceeded _ _ => [.apps, .releases, .reservations, .outbox]
  | .markBuildFailed _ _ => [.releases, .reservations, .outbox]

end HamiCloud

namespace HamiCloud.Proofs

open Library

variable {cfg : Settings} {db db' : Db}

/-- A transaction that writes no other than the named tables. -/
structure Frame (tables : List DbTable) (db db' : Db) : Prop where
  now : db'.now = db.now
  nextUuid : db.nextUuid ≤ db'.nextUuid
  jobs : .jobs ∉ tables → db'.jobs = db.jobs
  attempts : .attempts ∉ tables → db'.attempts = db.attempts
  jobIntents : .jobIntents ∉ tables → db'.jobIntents = db.jobIntents
  repositories : .repositories ∉ tables → db'.repositories = db.repositories
  apps : .apps ∉ tables → db'.apps = db.apps
  releases : .releases ∉ tables → db'.releases = db.releases
  releaseIntents : .releaseIntents ∉ tables → db'.releaseIntents = db.releaseIntents
  reservations : .reservations ∉ tables → db'.reservations = db.reservations
  deadLetters : .deadLetters ∉ tables → db'.deadLetters = db.deadLetters
  outbox : .outbox ∉ tables → db'.outbox = db.outbox

lemma Frame.refl (tables : List DbTable) (db : Db) : Frame tables db db := by constructor <;> simp

lemma Finished.frame {intentId attemptId jobId : Uuid} {epoch : Nat} {o : Outcome}
    (h : Finished db intentId attemptId jobId epoch o db') :
    Frame [.jobs, .attempts, .jobIntents, .reservations, .deadLetters, .outbox] db db' := by
  obtain ⟨i, j, f, hf, g, hg, k, hk, dead, events, -, -, -, -, -, -, -, -, rfl⟩ := h
  constructor <;> simp

lemma Submitted.frame (h : Submitted cfg db db') : Frame [.jobs, .reservations, .outbox] db db' := by
  obtain ⟨j, jobs, events, -, -, -, -, rfl⟩ := h
  constructor <;> simp

lemma updateJob_outbox {jobId : Uuid} {sources : List JobState} {f : Job → Job} {hf : ∀ j, (f j).id = j.id} {j : Job}
    (h : updateJob db jobId sources f hf = some (j, db')) : db'.outbox = db.outbox := by
  obtain ⟨j₀, dead, -, -, -, rfl⟩ := updateJob_inv h
  rfl

lemma markJobAttemptCancelled_outbox {intentId attemptId jobId : Uuid} {epoch : Nat}
    (h : markJobAttemptCancelled db intentId attemptId jobId epoch = .ok db') : db'.outbox = db.outbox := by
  unfold markJobAttemptCancelled at h
  simp only [bind_eq_ok, orError_eq_ok, pure_eq_ok] at h
  obtain ⟨db₁, hfence, ⟨j', db₂⟩, hu, rfl⟩ := h
  obtain ⟨-, i, -, -, -, rfl⟩ := fenceJobIntent_inv hfence
  have hsame := updateJob_outbox hu
  exact hsame

theorem jobStep_frame {c c' : JobClients} {b : JobAction} (h : jobStep cfg db c b = some (db', c')) :
    Frame b.writes db db' := by
  cases b with
  | submitJob ws payload => exact (submitJob_inv (commit_inv h).1).frame
  | cancelJob id =>
    rcases cancelJob_inv (commit_inv h).1 with rfl | ⟨j, events, -, -, rfl⟩
    · exact .refl _ _
    · constructor <;> simp [JobAction.writes]
  | rerunJob id => exact (rerunJob_inv (commit_inv h).1).frame
  | findExpiredJobIntents => cases h; exact .refl _ db
  | beginJobRecovery item =>
    obtain ⟨-, -, hdb, -⟩ := beginJobRecovery_step h
    obtain ⟨db₁, a, i, hdb₁, -, -, -, -, -, -, rfl⟩ := beginJobRecovery_inv hdb
    rcases beginRecoveryJob_inv hdb₁ with ⟨-, rfl⟩ | ⟨j, dead, -, -, -, rfl⟩ <;>
      constructor <;> simp [JobAction.writes]
  | confirmJobRecovery item deleteConfirmed =>
    obtain ⟨retry, -, -, hdb, -⟩ := confirmJobRecovery_step h
    obtain ⟨j, dead, -, -, rfl⟩ := confirmJobRecovery_inv hdb
    constructor <;> simp [JobAction.writes]
  | scanRetryWaitJobs limit => cases h; exact .refl _ db
  | requeueRetryWaitJob scannedAt row now =>
    obtain ⟨-, -, -, hdb, -⟩ := requeueRetryWaitJob_step h
    obtain ⟨-, j, dead, -, -, rfl⟩ := requeueRetryWaitJob_inv hdb
    constructor <;> simp [JobAction.writes]
  | scanUnadmittedJobs limit => cases h; exact .refl _ db
  | createJobAttemptIntent job =>
    obtain ⟨i, -, hdb, -⟩ := createJobAttemptIntent_step h
    obtain ⟨j, a, q, hadm⟩ := createJobAttemptIntent_inv hdb
    rw [hadm.commit]
    constructor <;> simp [JobAction.writes]
  | claimNextJobAttempt workerId lease wss locked =>
    obtain ⟨wl, hdb, -⟩ := claimNextJobAttempt_step h
    obtain ⟨i, a, j, jobs, dead, -, -, rfl, -⟩ := claimNextJobAttempt_inv hdb
    constructor <;> simp [JobAction.writes]
  | renewLease wl ext =>
    obtain ⟨intents, -, -, rfl, -⟩ := renewLease_step h
    constructor <;> simp [JobAction.writes]
  | markJobAttemptRunning wl =>
    obtain ⟨i, a, j, dead, -, -, -, -, -, -, -, rfl⟩ := markJobAttemptRunning_inv (held_commit_inv h).2.1
    constructor <;> simp [JobAction.writes]
  | markJobAttemptSucceeded wl uid => exact (markJobAttemptSucceeded_inv (held_commit_inv h).2.1).frame
  | markJobAttemptFailed wl reason exitCode => exact (markJobAttemptFailed_inv (held_commit_inv h).2.1).frame
  | markJobAttemptCancelled wl =>
    have hdb := (held_commit_inv h).2.1
    obtain ⟨i, j, f, hf, g, hg, k, hk, dead, events, -, -, -, -, -, -, -, -, hcommit⟩ :=
      markJobAttemptCancelled_inv hdb
    have hsame := markJobAttemptCancelled_outbox hdb
    subst hcommit
    constructor <;> simp [JobAction.writes, show events = db.outbox from hsame]

/-! ### Services -/

lemma acceptRelease_frame {app : Application} {digest : String} {config : ReleaseConfig} {rollbackOf : Option Uuid}
    (h : acceptRelease cfg db app digest config rollbackOf = .ok db') :
    Frame [.apps, .releases, .reservations, .outbox] db db' := by
  obtain ⟨db₁, r, releases, events, hq, -, -, -, -, -, -, rfl⟩ := acceptRelease_inv h
  obtain ⟨-, hle, -⟩ := enforceWorkspaceQuota_frame hq
  constructor <;> simp [hle.trans (Nat.le_succ _)]

theorem serviceStep_frame {c c' : ServiceClients} {b : ServiceAction}
    (h : serviceStep cfg db c b = some (db', c')) : Frame b.writes db db' := by
  cases b with
  | createRepository ws =>
    obtain ⟨repos, rfl⟩ := createRepository_inv (commit_inv h).1
    constructor <;> simp [ServiceAction.writes]
  | createApplication ws payload =>
    obtain ⟨a, apps, -, -, rfl⟩ := createApplication_inv (commit_inv h).1
    constructor <;> simp [ServiceAction.writes]
  | updateApplication app payload =>
    obtain ⟨a, -, rfl⟩ := updateApplication_inv (commit_inv h).1
    constructor <;> simp [ServiceAction.writes]
  | deployRelease app payload =>
    obtain ⟨a, -, hacc⟩ := deployRelease_inv (commit_inv h).1
    exact acceptRelease_frame hacc
  | rollbackRelease app target =>
    obtain ⟨a, t, -, -, hacc⟩ := rollbackRelease_inv (commit_inv h).1
    exact acceptRelease_frame hacc
  | triggerBuild app payload =>
    obtain ⟨db₁, a, r, releases, events, hq, -, -, -, -, -, -, -, -, rfl⟩ := triggerBuild_inv (commit_inv h).1
    obtain ⟨-, hle, -⟩ := enforceWorkspaceQuota_frame hq
    constructor <;> simp [ServiceAction.writes, hle.trans (Nat.le_succ _)]
  | readWebhook repo sha branch =>
    obtain ⟨plan, -, rfl, -⟩ := readWebhook_step h
    exact .refl _ _
  | commitWebhook plan =>
    obtain ⟨releases, n, events, hn, rfl⟩ := commitWebhook_inv (held_commit_inv h).2.1
    constructor <;> simp [ServiceAction.writes, hn]
  | supersedeReleases =>
    cases h
    constructor <;> simp [ServiceAction.writes, supersedeReleases]
  | selectUnadmittedReleases limit => cases h; exact .refl _ db
  | createServiceReleaseIntent rel =>
    obtain ⟨i, -, hdb, -⟩ := createServiceReleaseIntent_step h
    obtain ⟨intents, -, -, -, -, -, -, -, rfl⟩ := createServiceReleaseIntent_inv hdb
    constructor <;> simp [ServiceAction.writes]
  | claimNextServiceRelease workerId lease wss locked =>
    obtain ⟨wl, hdb, -⟩ := claimNextServiceRelease_step h
    obtain ⟨i, r, -, -, -, -, -, -, -, rfl⟩ := claimNextServiceRelease_inv hdb
    constructor <;> simp [ServiceAction.writes]
  | renewLease wl ext =>
    obtain ⟨intents, -, -, rfl, -⟩ := renewLease_service_step h
    constructor <;> simp [ServiceAction.writes]
  | markReleaseHealthy wl uid =>
    obtain ⟨becameCurrent, -, hdb, -⟩ := markReleaseHealthy_step h
    obtain ⟨i, apps, -, -, -, rfl, -⟩ := markReleaseHealthy_inv hdb
    constructor <;> simp [ServiceAction.writes]
  | markReleaseFailed wl reason =>
    obtain ⟨i, -, -, -, rfl⟩ := markReleaseFailed_inv (held_commit_inv h).2.1
    constructor <;> simp [ServiceAction.writes]
  | claimNextBuildRelease wss locked =>
    obtain ⟨task, hdb, -⟩ := claimNextBuildRelease_step h
    obtain ⟨r, -, -, -, rfl⟩ := claimNextBuildRelease_inv hdb
    constructor <;> simp [ServiceAction.writes]
  | markBuildSucceeded task digest =>
    obtain ⟨r, events, -, -, rfl⟩ := markBuildSucceeded_inv (held_commit_inv h).2.1
    constructor <;> simp [ServiceAction.writes]
  | markBuildFailed task reason =>
    obtain ⟨r, events, -, -, rfl⟩ := markBuildFailed_inv (held_commit_inv h).2.1
    constructor <;> simp [ServiceAction.writes]

/-! ### The two sides -/

/-- The rows of the service side and the clock, which a job transaction leaves alone. -/
def serviceFrame (db : Db) :
    Time × Table Application.id × Table Release.id × Table ExecutionIntent.id :=
  (db.now, db.apps, db.releases, db.releaseIntents)

/-- The rows of the job side and the clock, which a service transaction leaves alone. -/
def jobFrame (db : Db) : Time × Table Job.id × Table JobAttempt.id × Table ExecutionIntent.id :=
  (db.now, db.jobs, db.attempts, db.jobIntents)

lemma jobStep_services {c c' : JobClients} {b : JobAction} (h : jobStep cfg db c b = some (db', c')) :
    serviceFrame db' = serviceFrame db := by
  have hframe := jobStep_frame h
  have hside : .apps ∉ b.writes ∧ .releases ∉ b.writes ∧ .releaseIntents ∉ b.writes := by
    cases b <;> simp [JobAction.writes]
  simp only [serviceFrame, hframe.now, hframe.apps hside.1, hframe.releases hside.2.1, hframe.releaseIntents hside.2.2]

lemma serviceStep_jobs {c c' : ServiceClients} {b : ServiceAction} (h : serviceStep cfg db c b = some (db', c')) :
    jobFrame db' = jobFrame db := by
  have hframe := serviceStep_frame h
  have hside : .jobs ∉ b.writes ∧ .attempts ∉ b.writes ∧ .jobIntents ∉ b.writes := by
    cases b <;> simp [ServiceAction.writes]
  simp only [jobFrame, hframe.now, hframe.jobs hside.1, hframe.attempts hside.2.1, hframe.jobIntents hside.2.2]

lemma serviceStep_deadLetters {c c' : ServiceClients} {b : ServiceAction}
    (h : serviceStep cfg db c b = some (db', c')) : db'.deadLetters = db.deadLetters :=
  (serviceStep_frame h).deadLetters (by cases b <;> simp [ServiceAction.writes])

lemma releaseView_of_frame (h : serviceFrame db' = serviceFrame db) : releaseView db' = releaseView db := by
  simp only [serviceFrame, Prod.mk.injEq] at h
  obtain ⟨-, happs, hreleases, hintents⟩ := h
  simp only [releaseView, happs, hreleases, hintents]

lemma jobView_of_frame (h : jobFrame db' = jobFrame db) : jobView db' = jobView db := by
  simp only [jobFrame, Prod.mk.injEq] at h
  obtain ⟨-, hjobs, hattempts, hintents⟩ := h
  simp only [jobView, hjobs, hattempts, hintents]

end HamiCloud.Proofs
