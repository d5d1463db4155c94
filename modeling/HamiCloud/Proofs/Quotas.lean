import HamiCloud.Library.Count
import HamiCloud.Protocol.Recoverable
import HamiCloud.Protocol.Rollout
import HamiCloud.Proofs.WorldInvariant

/-!
# Workspace quotas

A request that creates work counts what its workspace has under the advisory lock of the workspace, and
the runtime only moves work out of the counted states. What is not counted first can pass a limit: the
builds of a push webhook, and the releases that the runtime itself makes deployable.
-/

namespace HamiCloud

variable {now : Time} {v v' : ReleaseView} {e : ReleaseEvent} {r r' : Release}

/-- A release enters a status that counts as deployed by a claim, by its success or by its build. -/
lemma ReleaseMove.active_back (h : ReleaseMove now v e v' r r') (hst : r'.status ∈ activeServiceReleaseStatuses) :
    r.status ∈ activeServiceReleaseStatuses ∨ e = .claim ∨ (∃ id ep, e = .healthy id ep) ∨ e = .built := by
  cases h with
  | same he => exact .inl (he ▸ hst)
  | deploy i i' _ _ _ _ _ _ hdep =>
    generalize r'.status = t, i'.status = s at hdep hst
    cases hdep with
    | claim => exact .inr (.inl rfl)
    | renew => exact .inl hst
    | healthy => exact .inr (.inr (.inl ⟨_, _, rfl⟩))
    | failed => simp [activeServiceReleaseStatuses] at hst
  | build _ hb =>
    generalize r'.status = t, r'.imageDigest = d at hb hst
    cases hb with
    | start => simp [activeServiceReleaseStatuses] at hst
    | built => exact .inr (.inr (.inr rfl))
    | failed => simp [activeServiceReleaseStatuses] at hst
  | supersede n _ _ _ _ hsup => simp [hsup, activeServiceReleaseStatuses] at hst

end HamiCloud

namespace HamiCloud.Proofs

open Library JobState

variable {cfg : Settings} {w w' : World} {a : Action} {db db' : Db} {ws : Uuid}

/-! ### Builds and pending operations -/

lemma pending_back {s s' : JobState} (hedge : s' = s ∨ s' ∈ contract s) (h : s' ∈ quotaPendingJobStates) :
    s ∈ quotaPendingJobStates := by
  rcases hedge with rfl | hedge
  · exact h
  · cases s <;> simp [contract] at hedge <;> simp [quotaPendingJobStates]
    -- a cancelled job is not pending
    simp [hedge, quotaPendingJobStates] at h

lemma pendingJobs_le (hw : WorldOK w) (hstep : (system cfg).step w a = some w')
    (ha : Action.jobEvent w a ≠ .submit) (ws : Uuid) :
    countJobs w'.db ws quotaPendingJobStates ≤ countJobs w.db ws quotaPendingJobStates := by
  refine Table.count_le (t := w'.db.jobs) (u := w.db.jobs) fun k j' hj' hp => ?_
  rcases (job_side hw hstep).job_origin hw.jobs hj' with ⟨-, -, he⟩ | ⟨j, hj, hspec, hedge, -⟩
  · exact absurd he ha
  · obtain ⟨-, hws, -⟩ := Job.spec_eq.mp hspec
    simp only [Bool.and_eq_true, decide_eq_true_eq] at hp ⊢
    exact ⟨j, hj, hws ▸ hp.1, pending_back hedge hp.2⟩

lemma activeBuilds_le (hw : WorldOK w) (hstep : (system cfg).step w a = some w')
    (ha : Action.releaseEvent a ≠ .request) (ws : Uuid) : activeBuilds w'.db ws ≤ activeBuilds w.db ws := by
  refine Table.count_le (t := w'.db.releases) (u := w.db.releases) fun k r' hr' hp => ?_
  simp only [Bool.and_eq_true, Bool.or_eq_true, decide_eq_true_eq] at hp ⊢
  obtain ⟨⟨hws, hrepo⟩, hst⟩ := hp
  rcases ((service_side hw hstep).single ha).release_origin hr' with ⟨r, hr, hch⟩ | ⟨-, -, -, hnew⟩
  · obtain ⟨-, -, hws', -, -, hrepo'⟩ := Release.spec_eq.mp hch.spec
    exact ⟨r, hr, ⟨hws' ▸ hws, hrepo' ▸ hrepo⟩, (hch.unbuilt hst).2⟩
  · exfalso
    rcases hnew.kind with ⟨-, hready⟩ | ⟨-, -, he⟩
    · simp [hready] at hst
    · exact ha he

/-- A workspace within its limits on builds and on pending operations. -/
structure WithinCaps (cfg : Settings) (db : Db) (ws : Uuid) : Prop where
  builds : activeBuilds db ws ≤ cfg.defaultWorkspaceBuildConcurrency
  pending : (workspaceQuotaSummary db ws).pending ≤ cfg.defaultWorkspacePendingOperations

/-- A request that creates a job stays within the limit it has checked. -/
lemma Submitted.withinCaps (h : Submitted cfg db db') (hcaps : WithinCaps cfg db ws) : WithinCaps cfg db' ws := by
  obtain ⟨j, jobs, events, hquota, -, -, hins, rfl⟩ := h
  have hcount := Table.count_insert hins (fun j => j.workspaceId = ws && j.state ∈ quotaPendingJobStates)
  have hle : countJobs db ws quotaPendingJobStates + activeBuilds db ws ≤ _ := hcaps.pending
  refine ⟨hcaps.builds, ?_⟩
  change jobs.count _ + activeBuilds db ws ≤ _
  change jobs.count _ = countJobs db ws quotaPendingJobStates + _ at hcount
  by_cases hws : j.workspaceId = ws
  · subst hws
    have hquota' : countJobs db j.workspaceId quotaPendingJobStates + activeBuilds db j.workspaceId < _ := hquota
    have hone := Bool.toNat_le (decide (j.workspaceId = j.workspaceId) && decide (j.state ∈ quotaPendingJobStates))
    omega
  · simp only [hws, decide_false, Bool.false_and, Bool.toNat_false] at hcount
    omega

lemma enforceWorkspaceQuota_builds {reserve : Bool}
    (h : enforceWorkspaceQuota cfg db ws .concurrentBuild none reserve = .ok db') :
    activeBuilds db ws < cfg.defaultWorkspaceBuildConcurrency := by
  obtain ⟨-, ⟨usage, rfl, hused⟩, -⟩ := enforceWorkspaceQuota_inv h
  exact (le_max_left _ _).trans_lt hused

/-- A build request stays within the limits it has checked. -/
lemma triggerBuild_withinCaps {appId : Uuid} {payload : TriggerBuildRequest}
    (h : triggerBuild cfg db appId payload = .ok db') (hcaps : WithinCaps cfg db ws) :
    WithinCaps cfg db' ws := by
  obtain ⟨db₁, app, r, releases, events, hq, -, -, hrws, -, -, -, -, hins, rfl⟩ := triggerBuild_inv h
  have hcount := Table.count_insert hins (fun r => r.workspaceId = ws && r.repositoryId.isSome &&
    (r.status = .requested || r.status = .building))
  have hbuilds := hcaps.builds
  have hpending : countJobs db ws quotaPendingJobStates + activeBuilds db ws ≤ _ := hcaps.pending
  suffices h : releases.count _ ≤ cfg.defaultWorkspaceBuildConcurrency ∧
      countJobs db ws quotaPendingJobStates + releases.count _ ≤ cfg.defaultWorkspacePendingOperations from
    ⟨h.1, h.2⟩
  change releases.count _ = activeBuilds db ws + _ at hcount
  by_cases hws : r.workspaceId = ws
  · have hlt := enforceWorkspaceQuota_builds hq
    have hquota := (enforceWorkspaceQuota_inv hq).1
    rw [← hrws, hws] at hlt hquota
    have hquota' : countJobs db ws quotaPendingJobStates + activeBuilds db ws < _ := hquota
    have hone := Bool.toNat_le (decide (r.workspaceId = ws) && r.repositoryId.isSome &&
      (decide (r.status = .requested) || decide (r.status = .building)))
    omega
  · simp only [hws, decide_false, Bool.false_and, Bool.toNat_false] at hcount
    omega

/-- No push webhook starts a build. -/
def noPushBuilds (_ : World) : Action → Bool
  | .service (.commitWebhook plan) => plan.builds.isEmpty
  | _ => true

lemma commitWebhook_empty {plan : WebhookPlan} (h : commitWebhook db plan = .ok db')
    (hb : plan.builds.isEmpty = true) : db' = db := by
  rw [commitWebhook, List.isEmpty_iff.mp hb, List.foldlM_nil, pure_eq_ok] at h
  exact h.symm

lemma WithinCaps.step (hcaps : WithinCaps cfg w.db ws) (hw : WorldOK w)
    (hstep : (system cfg).step w a = some w') (ha : noPushBuilds w a = true) : WithinCaps cfg w'.db ws := by
  have hquiet : Action.jobEvent w a ≠ .submit → Action.releaseEvent a ≠ .request → WithinCaps cfg w'.db ws := by
    intro hj hr
    have hb := activeBuilds_le hw hstep hr ws
    exact ⟨hb.trans hcaps.builds, (Nat.add_le_add (pendingJobs_le hw hstep hj ws) hb).trans hcaps.pending⟩
  cases a with
  | tick d => exact hquiet (by simp [Action.jobEvent]) (by simp [Action.releaseEvent])
  | job b =>
    cases b with
    | submitJob ws' payload =>
      obtain ⟨⟨db', c'⟩, hjob, rfl⟩ := Option.map_eq_some_iff.mp hstep
      exact (submitJob_inv (commit_inv hjob).1).withinCaps hcaps
    | rerunJob id =>
      obtain ⟨⟨db', c'⟩, hjob, rfl⟩ := Option.map_eq_some_iff.mp hstep
      exact (rerunJob_inv (commit_inv hjob).1).withinCaps hcaps
    | _ => exact hquiet (by simp [Action.jobEvent, jobEvent]) (by simp [Action.releaseEvent])
  | service b =>
    cases b with
    | triggerBuild app payload =>
      obtain ⟨⟨db', c'⟩, hserv, rfl⟩ := Option.map_eq_some_iff.mp hstep
      exact triggerBuild_withinCaps (commit_inv hserv).1 hcaps
    | commitWebhook plan =>
      obtain ⟨⟨db', c'⟩, hserv, rfl⟩ := Option.map_eq_some_iff.mp hstep
      rw [commitWebhook_empty (held_commit_inv hserv).2.1 ha]
      exact hcaps
    | _ => exact hquiet (by simp [Action.jobEvent]) (by simp [Action.releaseEvent, releaseEvent])

/-- In every run in which no push webhook starts a build, each workspace stays within its limits on source
builds and on pending operations. -/
theorem build_and_pending_caps (cfg : Settings) {w : World}
    (h : (system cfg).Reach (fun w a => noPushBuilds w a = true) w) (ws : Uuid) :
    activeBuilds w.db ws ≤ cfg.defaultWorkspaceBuildConcurrency ∧
      (workspaceQuotaSummary w.db ws).pending ≤ cfg.defaultWorkspacePendingOperations := by
  have hinit : WithinCaps cfg World.init.db ws := ⟨Nat.zero_le _, Nat.zero_le _⟩
  obtain ⟨-, hcaps⟩ := h.invariant (P := fun w => WorldOK w ∧ WithinCaps cfg w.db ws) ⟨worldOK_init, hinit⟩
    (fun v a v' hv ha hstep => ⟨hv.1.step hstep, hv.2.step hv.1 hstep ha⟩)
  exact ⟨hcaps.builds, hcaps.pending⟩

/-- A repository with two applications that both build its pushes. -/
def pushTargets : List Action :=
  [.service (.createRepository 100), .service (.createApplication 100 ⟨"shop", some 0, none⟩),
    .service (.createApplication 100 ⟨"blog", some 0, none⟩)]

/-- One of them is built on request. -/
def requestedBuild : (system Settings.default).Run noPushBuilds where
  labels := pushTargets ++ [.service (.triggerBuild 1 ⟨some "abc1234", "main", none, none⟩)]
  executes := by decide +kernel

theorem build_and_pending_caps_requested : ∃ w, (system Settings.default).Reach
      (fun w a => noPushBuilds w a = true) w ∧ activeBuilds w.db 100 = 1 ∧
    activeBuilds w.db 100 ≤ Settings.default.defaultWorkspaceBuildConcurrency ∧
      (workspaceQuotaSummary w.db 100).pending ≤ Settings.default.defaultWorkspacePendingOperations :=
  ⟨requestedBuild.final, requestedBuild.reach, by decide +kernel,
    build_and_pending_caps Settings.default requestedBuild.reach 100⟩

/-- One push starts a build of each of them. -/
def pushedBuilds : (system Settings.default).FreeRun where
  labels := pushTargets ++
    [.service (.readWebhook 0 "abc1234" "main"),
      .service (.commitWebhook ⟨0, "abc1234", "main",
        [⟨⟨1, 100, "shop", 1, none, some 0, some "main", 0⟩, 1, defaultReleaseConfig⟩,
          ⟨⟨2, 100, "blog", 1, none, some 0, some "main", 0⟩, 1, defaultReleaseConfig⟩]⟩)]
  executes := by decide +kernel

theorem push_exceeds_build_cap : ∃ w, (system Settings.default).Reachable w ∧
    activeBuilds w.db 100 = 2 ∧ Settings.default.defaultWorkspaceBuildConcurrency = 1 :=
  ⟨pushedBuilds.final, pushedBuilds.reachable, by decide +kernel, rfl⟩

/-! ### Deployed services -/

/-- An application owns a release in a status that counts as deployed. -/
def OwnsActive (db : Db) (ws app : Uuid) : Prop :=
  ∃ k r, db.releases.get k = some r ∧ r.workspaceId = ws ∧ r.status ∈ activeServiceReleaseStatuses ∧
    r.applicationId = app

/-- The applications that `deployedApps` counts. -/
def deployedIds (db : Db) (ws : Uuid) (excluded : Option Uuid) : List Uuid :=
  ((db.releases.rows.filter fun r => r.workspaceId = ws && r.status ∈ activeServiceReleaseStatuses &&
    some r.applicationId ≠ excluded).map Release.applicationId).dedup

lemma mem_deployedIds {excluded : Option Uuid} {app : Uuid} :
    app ∈ deployedIds db ws excluded ↔ some app ≠ excluded ∧ OwnsActive db ws app := by
  simp only [deployedIds, List.mem_dedup, List.mem_map, List.mem_filter, Bool.and_eq_true, decide_eq_true_eq]
  constructor
  · rintro ⟨r, ⟨hr, ⟨hws, hst⟩, hex⟩, rfl⟩
    exact ⟨hex, r.id, r, Table.get_of_mem hr, hws, hst, rfl⟩
  · rintro ⟨hex, k, r, hr, hws, hst, rfl⟩
    exact ⟨r, ⟨Table.mem_of_get hr, ⟨hws, hst⟩, hex⟩, rfl⟩

lemma deployedApps_le (h : ∀ app, OwnsActive db' ws app → OwnsActive db ws app) :
    deployedApps db' ws none ≤ deployedApps db ws none := by
  have hsub : deployedIds db' ws none ⊆ deployedIds db ws none := by
    intro app happ
    obtain ⟨-, hown⟩ := mem_deployedIds.mp happ
    exact mem_deployedIds.mpr ⟨by simp, h app hown⟩
  exact ((List.nodup_dedup _).subperm hsub).length_le

/-- At most the application that was left out of the count is new. -/
lemma deployedApps_le_succ (app₀ : Uuid) (h : ∀ app, app ≠ app₀ → OwnsActive db' ws app → OwnsActive db ws app) :
    deployedApps db' ws none ≤ deployedApps db ws (some app₀) + 1 := by
  have hsub : deployedIds db' ws none ⊆ app₀ :: deployedIds db ws (some app₀) := by
    intro app happ
    obtain ⟨-, hown⟩ := mem_deployedIds.mp happ
    by_cases he : app = app₀
    · exact he ▸ List.mem_cons_self
    · exact List.mem_cons_of_mem _ (mem_deployedIds.mpr ⟨by simpa using he, h app he hown⟩)
  exact ((List.nodup_dedup _).subperm hsub).length_le

lemma enforceWorkspaceQuota_services {app : Uuid} {reserve : Bool}
    (h : enforceWorkspaceQuota cfg db ws .deployedService (some app) reserve = .ok db') :
    deployedApps db ws (some app) < cfg.defaultWorkspaceServiceCap := by
  obtain ⟨-, ⟨usage, rfl, hused⟩, -⟩ := enforceWorkspaceQuota_inv h
  exact hused

/-- A deployment request stays within the limit it has checked. -/
lemma acceptRelease_services {app : Application} {digest : String} {config : ReleaseConfig}
    {rollbackOf : Option Uuid} (h : acceptRelease cfg db app digest config rollbackOf = .ok db')
    (hcap : deployedApps db ws none ≤ cfg.defaultWorkspaceServiceCap) :
    deployedApps db' ws none ≤ cfg.defaultWorkspaceServiceCap := by
  obtain ⟨db₁, r, releases, events, hq, happ, hrws, -, -, -, hins, rfl⟩ := acceptRelease_inv h
  by_cases hws : app.workspaceId = ws
  · subst hws
    have hcheck := enforceWorkspaceQuota_services hq
    refine (deployedApps_le_succ app.id fun id hne hown => ?_).trans hcheck
    obtain ⟨k, s, hs, hsws, hst, hid⟩ := hown
    rcases Table.get_insert_cases hins hs with hold | ⟨-, rfl⟩
    · exact ⟨k, s, hold, hsws, hst, hid⟩
    · exact absurd (hid.symm.trans happ) hne
  · refine (deployedApps_le fun id hown => ?_).trans hcap
    obtain ⟨k, s, hs, hsws, hst, hid⟩ := hown
    rcases Table.get_insert_cases hins hs with hold | ⟨-, rfl⟩
    · exact ⟨k, s, hold, hsws, hst, hid⟩
    · exact absurd (hrws.symm.trans hsws) hws

/-- The application of a release already owns a release that counts as deployed. -/
def servesAlready (db : Db) (releaseId : Uuid) : Bool :=
  (db.releases.get releaseId).all fun r => db.releases.rows.any fun s => s.applicationId = r.applicationId &&
    s.workspaceId = r.workspaceId && s.status ∈ activeServiceReleaseStatuses

/-- The runtime puts a release into a status that counts as deployed only when its application already
owns one that does. -/
def addsNoService (w : World) : Action → Bool
  | .service (.claimNextServiceRelease _ _ wss locked) =>
    (nextReleaseIntent w.db wss locked).all fun x => servesAlready w.db x.2.id
  | .service (.markReleaseHealthy wl _) => servesAlready w.db wl.releaseId
  | .service (.markBuildSucceeded task _) => servesAlready w.db task.releaseId
  | _ => true

/-- One release of an application that serves already is changed. -/
lemma OwnsActive.of_update {k₀ app : Uuid} {r r' : Release} (hr : db.releases.get k₀ = some r)
    (hrel : db'.releases.get = Function.update db.releases.get k₀ (some r')) (hspec : r'.spec = r.spec)
    (hserves : servesAlready db k₀ = true) (h : OwnsActive db' ws app) : OwnsActive db ws app := by
  obtain ⟨k, s, hs, hws, hst, rfl⟩ := h
  rw [hrel, Function.update_apply] at hs
  split at hs
  · obtain rfl := Option.some.inj hs
    obtain ⟨-, happ, hws', -⟩ := Release.spec_eq.mp hspec
    rw [servesAlready, hr, Option.all_some, List.any_eq_true] at hserves
    obtain ⟨s, hmem, hs⟩ := hserves
    simp only [Bool.and_eq_true, decide_eq_true_eq] at hs
    obtain ⟨⟨hsapp, hsws⟩, hsst⟩ := hs
    exact ⟨s.id, s, Table.get_of_mem hmem, by rw [hsws, ← hws', hws], hsst, hsapp.trans happ.symm⟩
  · exact ⟨k, s, hs, hws, hst, rfl⟩

lemma services_step (hw : WorldOK w) (hstep : (system cfg).step w a = some w') (ha : addsNoService w a = true)
    (hcap : deployedApps w.db ws none ≤ cfg.defaultWorkspaceServiceCap) :
    deployedApps w'.db ws none ≤ cfg.defaultWorkspaceServiceCap := by
  have hquiet : Action.releaseEvent a ≠ .accept → Action.releaseEvent a ≠ .claim →
      (∀ id ep, Action.releaseEvent a ≠ .healthy id ep) → Action.releaseEvent a ≠ .built →
      deployedApps w'.db ws none ≤ cfg.defaultWorkspaceServiceCap := by
    intro hacc hclaim hhealthy hbuilt
    refine (deployedApps_le fun app hown => ?_).trans hcap
    obtain ⟨k, r', hr', hws, hst, rfl⟩ := hown
    rcases (service_side hw hstep).release_origin hr' with ⟨r, hr, hmove⟩ | ⟨-, ⟨he, -⟩ | ⟨hreq, -⟩⟩
    · obtain ⟨-, happ, hws', -⟩ := Release.spec_eq.mp hmove.spec
      rcases hmove.active_back hst with hold | he | ⟨id, ep, he⟩ | he
      · exact ⟨k, r, hr, hws' ▸ hws, hold, happ.symm⟩
      · exact absurd he hclaim
      · exact absurd he (hhealthy id ep)
      · exact absurd he hbuilt
    · exact absurd he hacc
    · simp [hreq, activeServiceReleaseStatuses] at hst
  rcases step_cases hstep with ⟨d, rfl, rfl⟩ | ⟨b, db', c', rfl, -, rfl⟩ | ⟨b, db', c', rfl, hserv, rfl⟩
  · apply hquiet <;> simp [Action.releaseEvent]
  · apply hquiet <;> simp [Action.releaseEvent]
  · cases b with
    | deployRelease app payload =>
      obtain ⟨app, -, hacc⟩ := deployRelease_inv (commit_inv hserv).1
      exact acceptRelease_services hacc hcap
    | rollbackRelease app target =>
      obtain ⟨app, t, -, -, hacc⟩ := rollbackRelease_inv (commit_inv hserv).1
      exact acceptRelease_services hacc hcap
    | claimNextServiceRelease workerId lease wss locked =>
      obtain ⟨wl, hdb, -⟩ := claimNextServiceRelease_step hserv
      obtain ⟨i, r, hnext, -, -, -, -, -, -, hdb'⟩ := claimNextServiceRelease_inv hdb
      obtain ⟨-, -, hr, -⟩ := nextReleaseIntent_inv hnext
      have hr' : w.db.releases.get r.id = some r := Table.key_of_get hr ▸ hr
      rw [addsNoService, hnext] at ha
      refine (deployedApps_le fun app hown => ?_).trans hcap
      exact hown.of_update hr' ((congrArg (fun d : Db => d.releases.get) hdb').trans (Table.get_set_eq_update hr')) rfl ha
    | markReleaseHealthy wl uid =>
      obtain ⟨becameCurrent, hmem, hdb, -⟩ := markReleaseHealthy_step hserv
      obtain ⟨i, apps, -, -, -, hdb', -⟩ := markReleaseHealthy_inv hdb
      obtain ⟨-, r, -, -, hr, -⟩ := hw.serviceClients.claims wl hmem
      refine (deployedApps_le fun app hown => ?_).trans hcap
      exact hown.of_update hr ((congrArg (fun d : Db => d.releases.get) hdb').trans (Table.get_set_eq_update hr)) rfl ha
    | markBuildSucceeded task digest =>
      obtain ⟨r, events, hr, -, hdb'⟩ := markBuildSucceeded_inv (held_commit_inv hserv).2.1
      refine (deployedApps_le fun app hown => ?_).trans hcap
      exact hown.of_update hr ((congrArg (fun d : Db => d.releases.get) hdb').trans (Table.get_set_eq_update hr)) rfl ha
    | _ => apply hquiet <;> simp [Action.releaseEvent, releaseEvent]

/-- In every run in which the runtime deploys nothing for an application that serves nothing yet, each
workspace stays within its limit on deployed services. -/
theorem service_cap (cfg : Settings) {w : World} (h : (system cfg).Reach (fun w a => addsNoService w a = true) w)
    (ws : Uuid) : deployedApps w.db ws none ≤ cfg.defaultWorkspaceServiceCap := by
  obtain ⟨-, hcap⟩ := h.invariant
    (P := fun w => WorldOK w ∧ deployedApps w.db ws none ≤ cfg.defaultWorkspaceServiceCap)
    ⟨worldOK_init, Nat.zero_le _⟩ (fun v a v' hv ha hstep => ⟨hv.1.step hstep, services_step hv.1 hstep ha hv.2⟩)
  exact hcap

/-- Three applications in a workspace that may deploy two; two of them are deployed. -/
def twoServices : List Action :=
  [.service (.createRepository 100), .service (.createApplication 100 ⟨"shop", none, none⟩),
    .service (.createApplication 100 ⟨"blog", none, none⟩),
    .service (.createApplication 100 ⟨"wiki", some 0, none⟩),
    .service (.deployRelease 1 ⟨"quay.io/shop:1", ⟨8080, "/"⟩⟩),
    .service (.deployRelease 2 ⟨"quay.io/blog:1", ⟨8080, "/"⟩⟩)]

/-- One of the two deployed applications is rolled out; both count, and the limit is reached. -/
def servedRun : (system Settings.default).Run addsNoService where
  labels := twoServices ++
    [.service .supersedeReleases, .service (.selectUnadmittedReleases 50),
      .service (.createServiceReleaseIntent ⟨5, 1, 100, 1, "quay.io/shop:1", ⟨8080, "/"⟩, 2⟩),
      .service (.claimNextServiceRelease "executor-1" (30 * second) [] [])]
  executes := by decide +kernel

theorem service_cap_served : ∃ w, (system Settings.default).Reach (fun w a => addsNoService w a = true) w ∧
    deployedApps w.db 100 none = 2 ∧ deployedApps w.db 100 none ≤ Settings.default.defaultWorkspaceServiceCap :=
  ⟨servedRun.final, servedRun.reach, by decide +kernel, service_cap Settings.default servedRun.reach 100⟩

/-- The third application is built from source, which checks the limit on builds only. -/
def builtThird : (system Settings.default).FreeRun where
  labels := twoServices ++
    [.service (.triggerBuild 3 ⟨some "abc1234", "main", none, none⟩), .service (.claimNextBuildRelease [] []),
      .service (.markBuildSucceeded ⟨9, 3, 100, 1, 0, "abc1234", "main"⟩ "quay.io/wiki:1")]
  executes := by decide +kernel

theorem build_exceeds_service_cap : ∃ w, (system Settings.default).Reachable w ∧
    deployedApps w.db 100 none = 3 ∧ Settings.default.defaultWorkspaceServiceCap = 2 :=
  ⟨builtThird.final, builtThird.reachable, by decide +kernel, rfl⟩

end HamiCloud.Proofs
