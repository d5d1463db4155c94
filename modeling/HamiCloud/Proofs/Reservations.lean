import HamiCloud.Library.Count
import HamiCloud.Protocol.Recoverable
import HamiCloud.Proofs.Serving

/-!
# Quota reservations are covered

A reservation is not linked to the job or the build it was made for: whoever finishes releases the oldest
active one of its class. So the balance is kept by counting. An active reservation of a workspace is covered
as long as no class has more of them than the workspace has jobs, or builds, in the states that hold one.
-/

namespace HamiCloud

open JobState

variable {now : Time} {v v' : JobView} {e : JobEvent}

/-- A job stays active until its attempt ends or its recovery is confirmed. -/
lemma JobStep.active (hstep : JobStep now v e v') (hwf : JobWF v) {k : Uuid} {j : Job} (hj : v.job k = some j)
    (hst : j.state ∈ activeJobStates) (hconfirm : ∀ k n t, e ≠ .confirm k n t)
    (hfinish : ∀ k n o, e ≠ .finish k n o) :
    ∃ j', v'.job k = some j' ∧ j'.workspaceId = j.workspaceId ∧ j'.state ∈ activeJobStates := by
  obtain ⟨j', hj', hspec, -, -⟩ := hstep.job_row hwf hj
  refine ⟨j', hj', (Job.spec_eq.mp hspec).2.1, ?_⟩
  rcases hstep.job_change hj hj' with rfl | ⟨-, -, hmove | ⟨i, a, st, s, -, -, hadv⟩⟩ | ⟨-, hadm⟩
  · exact hst
  · generalize j'.state = t at hmove
    cases hmove with
    | cancel => simp [activeJobStates]
    | requeue hwait => simp [hwait, activeJobStates] at hst
    | confirm n => exact absurd rfl (hconfirm _ n t)
  · generalize j'.state = t at hadv
    cases hadv with
    | claim _ _ hj =>
      rcases hj with ⟨-, rfl⟩ | ⟨-, rfl⟩
      · simp [activeJobStates]
      · exact hst
    | renew => exact hst
    | run => simp [activeJobStates]
    | finish o => exact absurd rfl (hfinish _ _ o)
    | begin _ _ _ _ _ _ hj =>
      rcases hj with ⟨-, rfl⟩ | rfl
      · simp [activeJobStates]
      · exact hst
  · simp [hadm, activeJobStates]

end HamiCloud

namespace HamiCloud.Proofs

open Library JobState

variable {cfg : Settings} {w w' : World} {a : Action} {db db' : Db} {ws ws' : Uuid} {cls cls' : QuotaResourceClass}

/-! ### Counting reservations -/

/-- Reservations of a workspace and class that are `ACTIVE`, whether or not they have run out. -/
def activeReservations (db : Db) (ws : Uuid) (cls : QuotaResourceClass) : Nat :=
  db.reservations.count fun r => r.workspaceId = ws && r.resourceClass = cls && r.status = .active

/-- Those of them that have not. -/
def unexpiredReservations (db : Db) (ws : Uuid) (cls : QuotaResourceClass) : Nat :=
  db.reservations.count fun r =>
    r.workspaceId = ws && r.resourceClass = cls && r.status = .active && db.now < r.expiresAt

lemma active_congr (h : db'.reservations = db.reservations) :
    activeReservations db' ws cls = activeReservations db ws cls := by
  simp only [activeReservations, h]

lemma unexpired_le_active (db : Db) (ws : Uuid) (cls : QuotaResourceClass) :
    unexpiredReservations db ws cls ≤ activeReservations db ws cls :=
  List.countP_mono_left fun _ _ h => (Bool.and_eq_true_iff.mp h).1

lemma expire_active_le (db : Db) (ws ws' : Uuid) (cls : QuotaResourceClass) :
    activeReservations (expireStaleReservations db ws') ws cls ≤ activeReservations db ws cls := by
  refine Table.count_le fun k r' hr' hp => ?_
  simp only [expireStaleReservations, Table.get_update] at hr'
  obtain ⟨r, hr, rfl⟩ := Option.map_eq_some_iff.mp hr'
  split at hp
  · simp at hp
  · exact ⟨r, hr, hp⟩

/-- A reservation of another class or workspace does not count. -/
lemma insert_active_le (ws : Uuid) (cls : QuotaResourceClass) {q : QuotaReservation}
    (hres : db.reservations.insert q = some db'.reservations) :
    activeReservations db' ws cls ≤
      activeReservations db ws cls + (decide (q.workspaceId = ws) && decide (q.resourceClass = cls)).toNat := by
  have hcount := Table.count_insert hres fun r =>
    r.workspaceId = ws && r.resourceClass = cls && r.status = .active
  have hle : ∀ b c : Bool, (b && c).toNat ≤ b.toNat := by decide
  have := hle (decide (q.workspaceId = ws) && decide (q.resourceClass = cls)) (decide (q.status = .active))
  simp only [activeReservations]
  omega

lemma release_active (db : Db) (ws : Uuid) (cls : QuotaResourceClass) :
    activeReservations (releaseReservation db ws cls) ws cls = activeReservations db ws cls - 1 := by
  simp only [releaseReservation]
  split
  · rename_i hnone
    -- nothing is active, so there is nothing to release
    have hempty : activeReservations db ws cls = 0 := by
      rw [List.head?_eq_none_iff] at hnone
      rw [activeReservations, Table.count, List.countP_eq_length_filter, List.length_eq_zero_iff,
        List.eq_nil_iff_forall_not_mem]
      intro r hr
      have hmem : r ∈ ([] : List QuotaReservation) := hnone ▸ mem_orderBy.mpr hr
      simp at hmem
    simp only [activeReservations] at hempty ⊢
    omega
  · rename_i oldest hsome
    have hmem := List.mem_filter.mp (mem_orderBy.mp (List.mem_of_head? hsome))
    have hcount := Table.count_set (Table.get_of_mem hmem.1)
      (f := fun r : QuotaReservation => { r with status := .released, updatedAt := db.now }) (fun _ => rfl)
      (fun r => r.workspaceId = ws && r.resourceClass = cls && r.status = .active)
    simp only [hmem.2, Bool.toNat_true, reduceCtorEq, decide_false, Bool.and_false, Bool.toNat_false,
      add_zero] at hcount
    simp only [activeReservations]
    omega

lemma release_active_le (db : Db) (ws ws' : Uuid) (cls cls' : QuotaResourceClass) :
    activeReservations (releaseReservation db ws' cls') ws cls ≤ activeReservations db ws cls := by
  refine Table.count_le fun k r' hr' hp => ?_
  simp only [releaseReservation] at hr'
  split at hr'
  · exact ⟨r', hr', hp⟩
  · rw [Table.get_set] at hr'
    split at hr'
    · obtain ⟨r, -, rfl⟩ := Option.map_eq_some_iff.mp hr'
      simp at hp
    · exact ⟨r', hr', hp⟩

/-- Whoever leaves the states that hold a reservation releases one. -/
lemma release_covered {α : Type} {key : α → Uuid} {t u : Table key} {k : Uuid} {r : α} (wsOf : α → Uuid)
    (holds : α → Bool) (hr : t.get k = some r) (hother : ∀ k', k' ≠ k → u.get k' = t.get k')
    (h : activeReservations db ws cls ≤ t.count fun r => wsOf r = ws && holds r) :
    activeReservations (releaseReservation db (wsOf r) cls) ws cls ≤ u.count fun r => wsOf r = ws && holds r := by
  by_cases hws : wsOf r = ws
  · have hcount := Table.count_le_succ (t := t) (u := u) (p := fun r => wsOf r = ws && holds r)
      (q := fun r => wsOf r = ws && holds r) k (fun k' r' hr' hp hne => ⟨r', (hother k' hne).trans hr', hp⟩)
    rw [hws, release_active]
    omega
  · refine (release_active_le db ws _ cls cls).trans (h.trans (Table.count_le fun k' r' hr' hp => ?_))
    have hne : k' ≠ k := by
      rintro rfl
      obtain rfl : r = r' := Option.some.inj (hr.symm.trans hr')
      simp [hws] at hp
    exact ⟨r', (hother k' hne).trans hr', hp⟩

/-! ### The balance -/

structure Covered (db : Db) (ws : Uuid) : Prop where
  jobs : activeReservations db ws .concurrentJob ≤ activeJobs db ws
  builds : activeReservations db ws .concurrentBuild ≤ activeBuilds db ws

lemma Covered.mono (h : Covered db ws)
    (hres : ∀ cls, activeReservations db' ws cls ≤ activeReservations db ws cls)
    (hjobs : activeJobs db ws ≤ activeJobs db' ws)
    (hbuilds : activeBuilds db ws ≤ activeBuilds db' ws) : Covered db' ws :=
  ⟨(hres _).trans (h.jobs.trans hjobs), (hres _).trans (h.builds.trans hbuilds)⟩

/-- What a job transaction that changes the reservations does to them. -/
inductive JobBalance (cfg : Settings) (db db' : Db) : Prop
  | submitted : Submitted cfg db db' → JobBalance cfg db db'
  | admission (job : UnadmittedJob) (j : Job) (a : JobAttempt) (i : ExecutionIntent) (q : QuotaReservation) :
      Admission db job j a i q db' → job.workspaceId = j.workspaceId → JobBalance cfg db db'
  | released (k : Uuid) (j : Job) : db.jobs.get k = some j → (∀ k', k' ≠ k → db'.jobs.get k' = db.jobs.get k') →
      db'.reservations = (releaseReservation db j.workspaceId .concurrentJob).reservations → JobBalance cfg db db'

lemma Finished.balance {intentId attemptId jobId : Uuid} {epoch : Nat} {o : Outcome}
    (h : Finished db intentId attemptId jobId epoch o db') : JobBalance cfg db db' := by
  obtain ⟨i, j, f, hf, g, hg, k, hk, dead, events, -, -, -, hj, -, -, -, -, rfl⟩ := h
  exact .released jobId j hj (fun k' hne => by rw [Table.get_set, if_neg hne]) rfl

lemma jobStep_balance {c c' : JobClients} {b : JobAction} (hok : JobClientsOK (jobView db) c)
    (h : jobStep cfg db c b = some (db', c')) :
    JobBalance cfg db db' ∨ db'.reservations = db.reservations ∧ (∀ k n t, jobEvent db b ≠ .confirm k n t) ∧
      ∀ k n o, jobEvent db b ≠ .finish k n o := by
  cases b with
  | submitJob ws payload => exact .inl (.submitted (submitJob_inv (commit_inv h).1))
  | rerunJob id => exact .inl (.submitted (rerunJob_inv (commit_inv h).1))
  | createJobAttemptIntent job =>
    obtain ⟨i, hmem, hdb, -⟩ := createJobAttemptIntent_step h
    obtain ⟨j, a, q, hadm⟩ := createJobAttemptIntent_inv hdb
    obtain ⟨j', hj', -, -, hws⟩ := hok.unadmitted job hmem
    obtain rfl : j = j' := Option.some.inj (hadm.row.symm.trans hj')
    exact .inl (.admission job j a i q hadm hws)
  | confirmJobRecovery item deleteConfirmed =>
    obtain ⟨retry, -, -, hdb, -⟩ := confirmJobRecovery_step h
    obtain ⟨j, dead, hj, -, rfl⟩ := confirmJobRecovery_inv hdb
    exact .inl (.released item.jobId j hj (fun k' hne => by rw [Table.get_set, if_neg hne]) rfl)
  | markJobAttemptSucceeded wl uid => exact .inl (markJobAttemptSucceeded_inv (held_commit_inv h).2.1).balance
  | markJobAttemptFailed wl reason exitCode =>
    exact .inl (markJobAttemptFailed_inv (held_commit_inv h).2.1).balance
  | markJobAttemptCancelled wl => exact .inl (markJobAttemptCancelled_inv (held_commit_inv h).2.1).balance
  | _ => exact .inr ⟨(jobStep_frame h).reservations (by simp [JobAction.writes]), by simp [jobEvent], by simp [jobEvent]⟩

/-- An admission adds a reservation and a job that holds it. -/
lemma Covered.admission {job : UnadmittedJob} {j : Job} {a : JobAttempt} {i : ExecutionIntent}
    {q : QuotaReservation} (h : Covered db ws) (hadm : Admission db job j a i q db')
    (hws : job.workspaceId = j.workspaceId) : Covered db' ws := by
  obtain ⟨-, hqws, hqcls⟩ := hadm.reservation
  have hres : ∀ cls, activeReservations db' ws cls ≤ activeReservations db ws cls +
      (decide (j.workspaceId = ws) && decide (QuotaResourceClass.concurrentJob = cls)).toNat := by
    intro cls
    have hins := insert_active_le ws cls hadm.reservations
    have hexp := expire_active_le db ws job.workspaceId cls
    rw [hqws, hqcls, hws] at hins
    rw [hws] at hexp
    omega
  have hcount : activeJobs db' ws + _ = activeJobs db ws + _ := hadm.count_jobs ws activeJobStates
  have hb : activeBuilds db' ws = activeBuilds db ws := by rw [hadm.commit]; rfl
  have hj := h.jobs
  have hb' := h.builds
  have hresj := hres .concurrentJob
  have hresb := hres .concurrentBuild
  have hactive : admitted ∈ activeJobStates ∧ queued ∉ activeJobStates := by decide
  simp only [hactive.1, hactive.2, decide_true, Bool.and_true, reduceCtorEq, decide_false,
    Bool.and_false, Bool.toNat_false, add_zero] at hcount hresj hresb
  constructor
  · omega
  · omega

/-- Whoever ends an attempt gives a reservation up; a job keeps it otherwise. -/
lemma Covered.job_step (hw : WorldOK w) {b : JobAction} {c' : JobClients} (h : Covered w.db ws)
    (hstep : jobStep cfg w.db w.jobs b = some (db', c')) : Covered db' ws := by
  have hrel : db'.releases = w.db.releases := congrArg (fun f => f.2.2.1) (jobStep_services hstep)
  have hbuilds : activeBuilds db' ws = activeBuilds w.db ws := by simp only [activeBuilds, hrel]
  rcases jobStep_balance hw.jobClients hstep with hbal | ⟨hres, hconfirm, hfinish⟩
  · cases hbal with
    | submitted hsub =>
      obtain ⟨j, jobs, events, -, -, -, hins, rfl⟩ := hsub
      refine h.mono (expire_active_le _ ws _) ?_ le_rfl
      have hcount := Table.count_insert hins (fun j => j.workspaceId = ws && j.state ∈ activeJobStates)
      exact (Nat.le_add_right _ _).trans_eq hcount.symm
    | admission job j a i q hadm hws => exact h.admission hadm hws
    | released k j hj hother hres =>
      refine ⟨?_, ?_⟩
      · have hcov := release_covered (u := db'.jobs) Job.workspaceId (fun j => j.state ∈ activeJobStates) hj
          hother h.jobs
        exact (active_congr hres).trans_le hcov
      · have hle := (release_active_le w.db ws j.workspaceId .concurrentBuild .concurrentJob).trans h.builds
        exact (active_congr hres).trans_le (hle.trans hbuilds.ge)
  · refine h.mono (fun _ => (active_congr hres).le) ?_ hbuilds.ge
    refine Table.count_le (t := w.db.jobs) (u := db'.jobs) fun k j hj hp => ?_
    simp only [Bool.and_eq_true, decide_eq_true_eq] at hp
    obtain ⟨j', hj', hws, hst⟩ :=
      (jobStep_refines hw.jobClients hstep).active hw.jobs hj hp.2 hconfirm hfinish
    exact ⟨j', hj', by simp [hws, hp.1, hst]⟩

/-- No build that still waits for its image is superseded. -/
def supersedesNoBuild (w : World) : Action → Bool
  | .service .supersedeReleases =>
    !w.db.releases.rows.any fun r => outdated w.db r && r.status = .requested && r.repositoryId.isSome
  | _ => true

lemma supersede_builds (h : supersedesNoBuild w (.service .supersedeReleases) = true) :
    activeBuilds w.db ws ≤ activeBuilds (supersedeReleases w.db) ws := by
  refine Table.count_le (t := w.db.releases) (u := (supersedeReleases w.db).releases) fun k r hr hp => ?_
  have hkept : outdated w.db r = false := by
    by_contra hout
    simp only [Bool.not_eq_false] at hout
    have hst : r.status = .requested := by
      simp only [outdated, Bool.and_eq_true, Bool.or_eq_true, decide_eq_true_eq] at hout hp
      rcases hp.2 with hst | hst
      · exact hst
      · simp [hst] at hout
    simp only [supersedesNoBuild, Bool.not_eq_true', List.any_eq_false, Bool.and_eq_true, decide_eq_true_eq] at h hp
    exact h r (Table.mem_of_get hr) ⟨⟨hout, hst⟩, hp.1.2⟩
  exact ⟨r, by simp [supersedeReleases, Table.get_update, hr, hkept], hp⟩

/-- A release waits for its build, or is built, until its build ends or it is superseded. -/
lemma builds_kept (hr : (system cfg).Reachable w) (hstep : (system cfg).step w a = some w')
    (hbuilt : Action.releaseEvent a ≠ .built) (hfailed : Action.releaseEvent a ≠ .buildFailed)
    (hsup : Action.releaseEvent a ≠ .supersede) : activeBuilds w.db ws ≤ activeBuilds w'.db ws := by
  have hw := reach_ok hr
  refine Table.count_le (t := w.db.releases) (u := w'.db.releases) fun k r hk hp => ?_
  simp only [Bool.and_eq_true, Bool.or_eq_true, decide_eq_true_eq] at hp ⊢
  obtain ⟨⟨hws, hrepo⟩, hst⟩ := hp
  obtain ⟨r', hr', hmove⟩ := (service_side hw hstep).release_move hk
  obtain ⟨-, -, hws', -, -, hrepo'⟩ := Release.spec_eq.mp hmove.spec
  refine ⟨r', hr', ⟨hws' ▸ hws, hrepo' ▸ hrepo⟩, ?_⟩
  rcases hmove.from_unbuilt hst (unbuilt_no_intent hr hk hst) with rfl | hst' | he | he | ⟨he, -⟩
  · exact hst
  · exact .inr hst'
  · exact absurd he hbuilt
  · exact absurd he hfailed
  · exact absurd he hsup

/-- A passed check with a reservation adds one of its class. -/
lemma enforceWorkspaceQuota_active (ws : Uuid) (cls : QuotaResourceClass) {ws' : Uuid} {app : Option Uuid}
    (h : enforceWorkspaceQuota cfg db ws' cls' app true = .ok db') :
    activeReservations db' ws cls ≤
      activeReservations db ws cls + (decide (ws' = ws) && decide (cls' = cls)).toNat := by
  obtain ⟨-, -, ⟨hf, -⟩ | ⟨-, ttl, hins⟩⟩ := enforceWorkspaceQuota_inv h
  · cases hf
  · obtain ⟨q, res, -, rfl, rfl, hq, rfl⟩ := insertReservation_inv hins
    have hexp := expire_active_le db ws q.workspaceId cls
    exact (insert_active_le ws cls hq).trans (Nat.add_le_add_right hexp _)

/-- What a service transaction that changes the reservations does to them. -/
inductive ServiceBalance (cfg : Settings) (db db' : Db) : Prop
  | accepted (app : Application) (db₁ : Db) :
      enforceWorkspaceQuota cfg db app.workspaceId .deployedService (some app.id) true = .ok db₁ →
      db'.reservations = db₁.reservations → activeBuilds db ≤ activeBuilds db' → ServiceBalance cfg db db'
  | requested (appId : Uuid) (payload : TriggerBuildRequest) :
      triggerBuild cfg db appId payload = .ok db' → ServiceBalance cfg db db'
  | released (k : Uuid) (r : Release) : db.releases.get k = some r →
      (∀ k', k' ≠ k → db'.releases.get k' = db.releases.get k') →
      db'.reservations = (releaseReservation db r.workspaceId .concurrentBuild).reservations →
      ServiceBalance cfg db db'

lemma acceptRelease_balance {app : Application} {digest : String} {config : ReleaseConfig}
    {rollbackOf : Option Uuid} (h : acceptRelease cfg db app digest config rollbackOf = .ok db') :
    ServiceBalance cfg db db' := by
  obtain ⟨db₁, r, releases, events, hq, -, -, -, -, -, hins, rfl⟩ := acceptRelease_inv h
  refine .accepted app db₁ hq rfl fun ws => ?_
  have hcount := Table.count_insert hins (fun r => r.workspaceId = ws && r.repositoryId.isSome &&
    (r.status = .requested || r.status = .building))
  exact (Nat.le_add_right _ _).trans_eq hcount.symm

lemma serviceStep_balance {c c' : ServiceClients} {b : ServiceAction}
    (h : serviceStep cfg db c b = some (db', c')) :
    ServiceBalance cfg db db' ∨
      db'.reservations = db.reservations ∧ releaseEvent b ≠ .built ∧ releaseEvent b ≠ .buildFailed := by
  cases b with
  | deployRelease app payload =>
    obtain ⟨a, -, hacc⟩ := deployRelease_inv (commit_inv h).1
    exact .inl (acceptRelease_balance hacc)
  | rollbackRelease app target =>
    obtain ⟨a, t, -, -, hacc⟩ := rollbackRelease_inv (commit_inv h).1
    exact .inl (acceptRelease_balance hacc)
  | triggerBuild app payload => exact .inl (.requested app payload (commit_inv h).1)
  | markBuildSucceeded task digest =>
    obtain ⟨r, events, hr, -, rfl⟩ := markBuildSucceeded_inv (held_commit_inv h).2.1
    exact .inl (.released task.releaseId r hr (fun k' hne => by rw [Table.get_set, if_neg hne]) rfl)
  | markBuildFailed task reason =>
    obtain ⟨r, events, hr, -, rfl⟩ := markBuildFailed_inv (held_commit_inv h).2.1
    exact .inl (.released task.releaseId r hr (fun k' hne => by rw [Table.get_set, if_neg hne]) rfl)
  | _ => exact .inr ⟨(serviceStep_frame h).reservations (by simp [ServiceAction.writes]), by simp [releaseEvent]⟩

/-- A build request adds a reservation and a release that holds it. -/
lemma Covered.triggerBuild {appId : Uuid} {payload : TriggerBuildRequest} (h : Covered db ws)
    (hstep : triggerBuild cfg db appId payload = .ok db') : Covered db' ws := by
  obtain ⟨db₁, app, r, releases, events, hq, -, -, hws, hrepo, hst, -, -, hins, rfl⟩ := triggerBuild_inv hstep
  have hcount := Table.count_insert hins (fun r => r.workspaceId = ws && r.repositoryId.isSome &&
    (r.status = .requested || r.status = .building))
  have hbuild := enforceWorkspaceQuota_active ws .concurrentBuild hq
  have hjob := enforceWorkspaceQuota_active ws .concurrentJob hq
  simp only [hws, hrepo, hst, decide_true, Bool.and_true, Bool.true_or, reduceCtorEq, decide_false, Bool.and_false,
    Bool.toNat_false, add_zero] at hcount hbuild hjob
  refine ⟨hjob.trans h.jobs, ?_⟩
  exact (hbuild.trans (Nat.add_le_add_right h.builds _)).trans_eq hcount.symm

lemma activeBuilds_eq (db : Db) (ws : Uuid) : activeBuilds db ws = db.releases.count fun r =>
    r.workspaceId = ws && (r.repositoryId.isSome && (r.status = .requested || r.status = .building)) := by
  simp only [activeBuilds, Table.count, Bool.and_assoc]

lemma Covered.service_step {b : ServiceAction} {c' : ServiceClients} (h : Covered w.db ws)
    (hr : (system cfg).Reachable w) (hguard : supersedesNoBuild w (.service b) = true)
    (hstep : serviceStep cfg w.db w.services b = some (db', c')) : Covered db' ws := by
  have hjobs : db'.jobs = w.db.jobs := congrArg (fun f => f.2.1) (serviceStep_jobs hstep)
  have hcount : activeJobs db' ws = activeJobs w.db ws := by
    simp only [activeJobs, hjobs]
  rcases serviceStep_balance hstep with hbal | ⟨hres, hbuilt, hfailed⟩
  · cases hbal with
    | accepted app db₁ hq hres hbuilds =>
      have hjob := enforceWorkspaceQuota_active ws .concurrentJob hq
      have hbuild := enforceWorkspaceQuota_active ws .concurrentBuild hq
      simp only [reduceCtorEq, decide_false, Bool.and_false, Bool.toNat_false, add_zero] at hjob hbuild
      exact ⟨(active_congr hres).trans_le (hjob.trans (h.jobs.trans hcount.ge)),
        (active_congr hres).trans_le (hbuild.trans (h.builds.trans (hbuilds ws)))⟩
    | requested appId payload hreq => exact h.triggerBuild hreq
    | released k r hk hother hres =>
      refine ⟨?_, ?_⟩
      · have hle := (release_active_le w.db ws r.workspaceId .concurrentJob .concurrentBuild).trans h.jobs
        exact (active_congr hres).trans_le (hle.trans hcount.ge)
      · have hcov := release_covered (u := db'.releases) Release.workspaceId
          (fun r => r.repositoryId.isSome && (r.status = .requested || r.status = .building)) hk hother
          (h.builds.trans_eq (activeBuilds_eq w.db ws))
        exact (active_congr hres).trans_le (hcov.trans_eq (activeBuilds_eq db' ws).symm)
  · refine h.mono (fun _ => (active_congr hres).le) hcount.ge ?_
    by_cases hsup : b = .supersedeReleases
    · subst hsup
      cases hstep
      exact supersede_builds hguard
    · have hworld : (system cfg).step w (.service b) = some { w with db := db', services := c' } :=
        Option.map_eq_some_iff.mpr ⟨_, hstep, rfl⟩
      refine builds_kept hr hworld hbuilt hfailed fun he => hsup ?_
      cases b <;> cases he
      rfl

/-- In every run in which no build that waits for its image is superseded, each workspace has at most as many
reservations in force as it has work that holds one, for its builds and for its jobs. -/
theorem reservations_covered (cfg : Settings) {w : World}
    (h : (system cfg).Reach (fun w a => supersedesNoBuild w a = true) w) (ws : Uuid) :
    unexpiredReservations w.db ws .concurrentBuild ≤ activeBuilds w.db ws ∧
      unexpiredReservations w.db ws .concurrentJob ≤ activeJobs w.db ws := by
  have hstep : ∀ v a v', (system cfg).Reachable v ∧ Covered v.db ws → supersedesNoBuild v a = true →
      (system cfg).step v a = some v' → (system cfg).Reachable v' ∧ Covered v'.db ws := by
    rintro v a v' ⟨hr, hcov⟩ ha hstep
    refine ⟨.tail a hr trivial hstep, ?_⟩
    rcases step_cases hstep with ⟨d, rfl, rfl⟩ | ⟨b, db', c', rfl, hjob, rfl⟩ | ⟨b, db', c', rfl, hserv, rfl⟩
    · exact ⟨hcov.jobs, hcov.builds⟩
    · exact hcov.job_step (reach_ok hr) hjob
    · exact hcov.service_step hr ha hserv
  have hinit : Covered World.init.db ws := ⟨Nat.zero_le _, Nat.zero_le _⟩
  obtain ⟨-, hcov⟩ := h.invariant ⟨.refl _, hinit⟩ hstep
  exact ⟨(unexpired_le_active ..).trans hcov.builds, (unexpired_le_active ..).trans hcov.jobs⟩

/-- A requested build that no later release supersedes: its reservation is matched by an active build. -/
def reservedRun : (system Settings.default).Run supersedesNoBuild where
  labels :=
    [.service (.createRepository 100), .service (.createApplication 100 ⟨"shop", some 0, none⟩),
      .service (.triggerBuild 1 ⟨some "abc1234", "main", none, none⟩), .service .supersedeReleases]
  executes := by decide +kernel

theorem reservations_covered_build : ∃ w, (system Settings.default).Reach
      (fun w a => supersedesNoBuild w a = true) w ∧ unexpiredReservations w.db 100 .concurrentBuild = 1 ∧
    unexpiredReservations w.db 100 .concurrentBuild ≤ activeBuilds w.db 100 ∧
      unexpiredReservations w.db 100 .concurrentJob ≤ activeJobs w.db 100 :=
  ⟨reservedRun.final, reservedRun.reach, by decide +kernel,
    reservations_covered Settings.default reservedRun.reach 100⟩

/-- A build is requested, an image is deployed before the build starts, and the build is superseded. -/
def supersededBuild : (system Settings.default).FreeRun where
  labels :=
    [.service (.createRepository 100), .service (.createApplication 100 ⟨"shop", some 0, none⟩),
      .service (.triggerBuild 1 ⟨some "abc1234", "main", none, none⟩),
      .service (.deployRelease 1 ⟨"quay.io/shop:1", ⟨8080, "/"⟩⟩), .service .supersedeReleases]
  executes := by decide +kernel

theorem superseded_build_leaks : ∃ w, (system Settings.default).Reachable w ∧
    unexpiredReservations w.db 100 .concurrentBuild = 1 ∧ activeBuilds w.db 100 = 0 :=
  ⟨supersededBuild.final, supersededBuild.reachable, by decide +kernel, by decide +kernel⟩

end HamiCloud.Proofs
