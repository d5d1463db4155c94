import HamiCloud.Protocol.Releases
import HamiCloud.Proofs.JobSimulation

/-!
# The release transactions refine the release protocol

The inversions of the requests, builds and deployments of an application, and the simulation of every
transaction of the service side by the release protocol.
-/

namespace HamiCloud.Proofs

open Library

def releaseView (db : Db) : ReleaseView := ⟨db.apps.get, db.releases.get, db.releaseIntents.get⟩

variable {db db' : Db}

/-! ### Requests -/

lemma createRepository_inv {ws : Uuid} (h : createRepository db ws = .ok db') :
    ∃ repos, db' = { db with repositories := repos, nextUuid := db.nextUuid + 1 } := by
  unfold createRepository at h
  simp only [bind_eq_ok, orError_eq_ok, pure_eq_ok] at h
  obtain ⟨repos, -, rfl⟩ := h
  exact ⟨repos, rfl⟩

/-- An application as it is created, with a slug that its workspace does not use yet. -/
structure NewApplication (db : Db) (a : Application) : Prop where
  generation : a.desiredGeneration = 1
  unreleased : a.currentReleaseId = none
  slug : isSlug a.slug = true
  unused : ∀ k b, db.apps.get k = some b → b.workspaceId = a.workspaceId → b.slug ≠ a.slug

lemma createApplication_inv {ws : Uuid} {payload : CreateApplicationRequest}
    (h : createApplication db ws payload = .ok db') :
    ∃ a apps, NewApplication db a ∧ db.apps.insert a = some apps ∧
      db' = { db with apps := apps, nextUuid := db.nextUuid + 1 } := by
  unfold createApplication at h
  simp only [bind_eq_ok, ensure_eq_ok, orError_eq_ok, pure_eq_ok] at h
  obtain ⟨-, hslug, -, -, -, hunused, -, -, apps, hins, rfl⟩ := h
  refine ⟨_, apps, ?_, hins, rfl⟩
  refine ⟨rfl, rfl, hslug, fun k b hb hws hsame => hunused ?_⟩
  exact List.any_eq_true.mpr ⟨b, Table.mem_of_get hb, by simp [hws, hsame]⟩

lemma updateApplication_inv {appId : Uuid} {payload : UpdateApplicationRequest}
    (h : updateApplication db appId payload = .ok db') :
    ∃ a, db.apps.get appId = some a ∧
      db' = { db with
        apps := db.apps.set appId (fun a =>
          { a with repositoryId := payload.repositoryId.getD a.repositoryId,
                   gitBranch := payload.gitBranch.orElse (fun _ => a.gitBranch), updatedAt := db.now }) } := by
  unfold updateApplication at h
  simp only [bind_eq_ok, orError_eq_ok, pure_eq_ok] at h
  obtain ⟨-, -, a, ha, -, -, rfl⟩ := h
  exact ⟨a, ha, rfl⟩

lemma mem_releaseNumbers {appId : Uuid} {n : Nat} :
    n ∈ releaseNumbers db appId ↔
      ∃ k r, db.releases.get k = some r ∧ r.applicationId = appId ∧ r.releaseNumber = n := by
  simp only [releaseNumbers, List.mem_map, List.mem_filter, decide_eq_true_eq]
  constructor
  · rintro ⟨r, ⟨hr, happ⟩, hn⟩
    exact ⟨r.id, r, Table.get_of_mem hr, happ, hn⟩
  · rintro ⟨k, r, hr, happ, hn⟩
    exact ⟨r, ⟨Table.mem_of_get hr, happ⟩, hn⟩

lemma lt_nextReleaseNumber {k : Uuid} {r : Release} (hr : db.releases.get k = some r) :
    r.releaseNumber < nextReleaseNumber db r.applicationId := by
  have hmem : r.releaseNumber ∈ releaseNumbers db r.applicationId :=
    mem_releaseNumbers.mpr ⟨k, r, hr, rfl, rfl⟩
  unfold nextReleaseNumber
  cases hmax : (releaseNumbers db r.applicationId).max? with
  | none =>
    rw [List.max?_eq_none_iff] at hmax
    simp [hmax] at hmem
  | some m =>
    have hle := (List.max?_eq_some_iff.mp hmax).2 _ hmem
    simp only [Option.getD_some]
    omega

lemma insertRelease_inv {r : Release} (h : insertRelease db r = some db') :
    ∃ releases, (∀ k s, db.releases.get k = some s → s.applicationId = r.applicationId →
        s.releaseNumber ≠ r.releaseNumber) ∧ db.releases.insert r = some releases ∧
      db' = { db with releases := releases, nextUuid := db.nextUuid + 1 } := by
  unfold insertRelease at h
  split at h
  · cases h
  · rename_i hnum
    obtain ⟨releases, hins, rfl⟩ := Option.map_eq_some_iff.mp h
    refine ⟨releases, fun k s hs happ he => hnum ?_, hins, rfl⟩
    exact mem_releaseNumbers.mpr ⟨k, s, hs, happ, he⟩

lemma acceptRelease_inv {cfg : Settings} {a : Application} {digest : String} {config : ReleaseConfig}
    {rollbackOf : Option Uuid} (h : acceptRelease cfg db a digest config rollbackOf = .ok db') :
    ∃ db₁ r releases events,
      enforceWorkspaceQuota cfg db a.workspaceId .deployedService (some a.id) true = .ok db₁ ∧
      r.applicationId = a.id ∧ r.workspaceId = a.workspaceId ∧ r.imageDigest = digest ∧ r.status = .imageReady ∧
      (∀ k s, db.releases.get k = some s → s.applicationId = a.id → s.releaseNumber < r.releaseNumber) ∧
      db.releases.insert r = some releases ∧
      db' = { db with
        apps := db.apps.set a.id (fun a =>
          { a with desiredGeneration := a.desiredGeneration + 1, updatedAt := db.now })
        releases := releases, nextUuid := db₁.nextUuid + 1, reservations := db₁.reservations
        outbox := events } := by
  unfold acceptRelease at h
  simp only [bind_eq_ok, orError_eq_ok, pure_eq_ok] at h
  obtain ⟨db₁, hq, db₂, hins, rfl⟩ := h
  obtain ⟨hframe, -, -⟩ := enforceWorkspaceQuota_frame hq
  rw [hframe] at hins
  obtain ⟨releases, -, hrel, rfl⟩ := insertRelease_inv hins
  refine ⟨db₁, _, releases, _, hq, rfl, rfl, rfl, rfl, fun k s hs happ => ?_, hrel, rfl⟩
  have hlt := lt_nextReleaseNumber hs
  rw [happ] at hlt
  exact hlt

lemma deployRelease_inv {cfg : Settings} {appId : Uuid} {payload : DeployReleaseRequest}
    (h : deployRelease cfg db appId payload = .ok db') :
    ∃ a, db.apps.get appId = some a ∧
      acceptRelease cfg db a payload.imageDigest payload.config none = .ok db' := by
  unfold deployRelease at h
  simp only [bind_eq_ok, orError_eq_ok] at h
  obtain ⟨-, -, a, ha, -, -, hacc⟩ := h
  exact ⟨a, ha, hacc⟩

lemma rollbackRelease_inv {cfg : Settings} {appId target : Uuid}
    (h : rollbackRelease cfg db appId target = .ok db') :
    ∃ a r, db.apps.get appId = some a ∧ db.releases.get target = some r ∧
      acceptRelease cfg db a r.imageDigest r.config (some target) = .ok db' := by
  unfold rollbackRelease at h
  simp only [bind_eq_ok, orError_eq_ok] at h
  obtain ⟨a, ha, r, hr, hacc⟩ := h
  exact ⟨a, r, ha, (Option.filter_eq_some_iff.mp hr).1, hacc⟩

lemma triggerBuild_inv {cfg : Settings} {appId : Uuid} {payload : TriggerBuildRequest}
    (h : triggerBuild cfg db appId payload = .ok db') :
    ∃ db₁ a r releases events,
      enforceWorkspaceQuota cfg db a.workspaceId .concurrentBuild none true = .ok db₁ ∧
      db.apps.get appId = some a ∧ r.applicationId = a.id ∧ r.workspaceId = a.workspaceId ∧
      r.repositoryId.isSome = true ∧ r.status = .requested ∧ r.imageDigest = "pending" ∧
      (∀ k s, db.releases.get k = some s → s.applicationId = a.id → s.releaseNumber ≠ r.releaseNumber) ∧
      db.releases.insert r = some releases ∧
      db' = { db with
        releases := releases, nextUuid := db₁.nextUuid + 1, reservations := db₁.reservations
        outbox := events } := by
  unfold triggerBuild at h
  simp only [bind_eq_ok, orError_eq_ok, pure_eq_ok] at h
  obtain ⟨a, ha, repo, -, -, -, db₁, hq, db₂, hins, rfl⟩ := h
  obtain ⟨hframe, -, -⟩ := enforceWorkspaceQuota_frame hq
  rw [hframe] at hins
  obtain ⟨releases, hfree, hrel, rfl⟩ := insertRelease_inv hins
  exact ⟨db₁, a, _, releases, _, hq, ha, rfl, rfl, rfl, rfl, rfl, hfree, hrel, rfl⟩

lemma commitWebhook_inv {plan : WebhookPlan} (h : commitWebhook db plan = .ok db') :
    ∃ releases n events, db.nextUuid ≤ n ∧
      db' = { db with releases := releases, nextUuid := n, outbox := events } := by
  unfold commitWebhook at h
  generalize plan.builds = builds at h
  induction builds generalizing db with
  | nil =>
    rw [List.foldlM_nil, pure_eq_ok] at h
    exact ⟨db.releases, db.nextUuid, db.outbox, le_rfl, h.symm⟩
  | cons b builds ih =>
    simp only [List.foldlM_cons, insertPlanned, bind_eq_ok, orError_eq_ok, pure_eq_ok] at h
    obtain ⟨db₁, ⟨-, -, db₂, hins, rfl⟩, hrest⟩ := h
    obtain ⟨releases, -, -, rfl⟩ := insertRelease_inv hins
    obtain ⟨releases', n, events, hn, hdb⟩ := ih hrest
    exact ⟨releases', n, events, (Nat.le_succ _).trans hn, hdb⟩

/-! ### Admission -/

lemma maxDeployable_eq_some {appId : Uuid} {n : Nat} :
    maxDeployable db.releases appId = some n ↔
      (∃ k r, db.releases.get k = some r ∧ r.applicationId = appId ∧ r.deployable = true ∧
        r.releaseNumber = n) ∧
      ∀ k r, db.releases.get k = some r → r.applicationId = appId → r.deployable = true →
        r.releaseNumber ≤ n := by
  unfold maxDeployable
  rw [List.max?_eq_some_iff]
  simp only [List.mem_map, List.mem_filter, Bool.and_eq_true, decide_eq_true_eq]
  constructor
  · rintro ⟨⟨r, ⟨hr, happ, hd⟩, hn⟩, hmax⟩
    exact ⟨⟨r.id, r, Table.get_of_mem hr, happ, hd, hn⟩,
      fun k s hs hsa hsd => hmax _ ⟨s, ⟨Table.mem_of_get hs, hsa, hsd⟩, rfl⟩⟩
  · rintro ⟨⟨k, r, hr, happ, hd, hn⟩, hmax⟩
    refine ⟨⟨r, ⟨Table.mem_of_get hr, happ, hd⟩, hn⟩, ?_⟩
    rintro m ⟨s, ⟨hs, hsa, hsd⟩, rfl⟩
    exact hmax s.id s (Table.get_of_mem hs) hsa hsd

lemma mem_selectUnadmittedReleases {limit : Nat} {u : UnadmittedRelease}
    (h : u ∈ selectUnadmittedReleases db limit) :
    ∃ r a, db.releases.get u.releaseId = some r ∧ db.apps.get u.applicationId = some a ∧
      r.applicationId = u.applicationId ∧ u.desiredGeneration = a.desiredGeneration ∧
      (r.status = .imageReady ∨ r.status = .requested) ∧ (releaseView db).Latest u.releaseId := by
  obtain ⟨r, hmem, hu⟩ := List.mem_filterMap.mp (List.mem_of_mem_take h)
  have hr := Table.get_of_mem (mem_orderBy.mp hmem)
  split at hu
  · cases hu
  · rename_i a ha
    split at hu
    · rename_i hun
      cases hu
      simp only [unadmitted, Bool.and_eq_true, Bool.or_eq_true, decide_eq_true_eq] at hun
      obtain ⟨⟨⟨hst, hd⟩, hmax⟩, -⟩ := hun
      exact ⟨r, a, hr, ha, rfl, rfl, hst, r, hr, hd, (maxDeployable_eq_some.mp hmax).2⟩
    · cases hu

lemma createServiceReleaseIntent_inv {rel : UnadmittedRelease} {i : ExecutionIntent}
    (h : createServiceReleaseIntent db rel = .ok (some (i, db'))) :
    ∃ intents, i.resourceId = rel.releaseId ∧ i.targetGeneration = rel.desiredGeneration ∧
      i.deterministicResourceName = .svc rel.applicationId rel.desiredGeneration ∧ i.status = .pending ∧
      i.leaseEpoch = 0 ∧
      (∀ k s, db.releaseIntents.get k = some s → s.resourceId = rel.releaseId →
        s.targetGeneration ≠ rel.desiredGeneration) ∧
      db.releaseIntents.insert i = some intents ∧
      db' = { db with releaseIntents := intents, nextUuid := db.nextUuid + 1 } := by
  unfold createServiceReleaseIntent at h
  simp only at h
  split at h
  · cases h
  · rename_i hfree
    simp only [bind_eq_ok, orError_eq_ok, pure_eq_ok, Option.some.injEq, Prod.mk.injEq] at h
    obtain ⟨intents, hins, rfl, rfl⟩ := h
    refine ⟨intents, rfl, rfl, rfl, rfl, rfl, fun k s hs hres hgen => hfree ?_, hins, rfl⟩
    exact List.any_eq_true.mpr ⟨s, Table.mem_of_get hs, by simp [hres, hgen]⟩

/-! ### Deployment -/

lemma nextReleaseIntent_inv {wss locked : List Uuid} {i : ExecutionIntent} {r : Release}
    (h : nextReleaseIntent db wss locked = some (i, r)) :
    db.releaseIntents.get i.id = some i ∧ i.claimable db.now = true ∧
      db.releases.get i.resourceId = some r ∧ r.status ≠ .superseded := by
  obtain ⟨ei, hmem, hei⟩ := List.exists_of_findSome?_eq_some h
  split at hei
  · rename_i hc
    split at hei
    · cases hei
    · rename_i s hs
      split at hei
      · rename_i hst
        cases hei
        exact ⟨Table.get_of_mem (mem_orderBy.mp hmem), hc.1, hs, hst.1⟩
      · cases hei
  · cases hei

lemma claimNextServiceRelease_inv {workerId : String} {lease : Time} {wss locked : List Uuid}
    {wl : ClaimedWorkload} (h : claimNextServiceRelease db workerId lease wss locked = some (wl, db')) :
    ∃ i r, nextReleaseIntent db wss locked = some (i, r) ∧ wl.intentId = i.id ∧ wl.releaseId = r.id ∧
      wl.applicationId = r.applicationId ∧ wl.targetGeneration = i.targetGeneration ∧
      wl.deterministicResourceName = i.deterministicResourceName ∧ wl.leaseEpoch = i.leaseEpoch + 1 ∧
      db' = { db with
        releaseIntents := db.releaseIntents.set i.id (ExecutionIntent.claim workerId lease db.now)
        releases := db.releases.set r.id (fun r => { r with status := .deploying, updatedAt := db.now }) } := by
  unfold claimNextServiceRelease at h
  split at h
  · cases h
  · rename_i i r hnext
    simp only at h
    split at h
    · cases h
    · rename_i hmod
      obtain ⟨-, -, rfl⟩ := Table.modify_eq_some.mp hmod
      cases h
      exact ⟨i, r, hnext, rfl, rfl, rfl, rfl, rfl, rfl, rfl⟩

lemma fenceReleaseIntent_inv {intentId : Uuid} {epoch : Nat} {f : ExecutionIntent → ExecutionIntent}
    {hf : ∀ i, (f i).id = i.id} {i : ExecutionIntent}
    (h : fenceReleaseIntent db intentId epoch f hf = .ok (i, db')) :
    db.releaseIntents.get intentId = some i ∧ i.leaseEpoch = epoch ∧ i.status = .claimed ∧
      db' = { db with releaseIntents := db.releaseIntents.set intentId f hf } := by
  unfold fenceReleaseIntent at h
  simp only [bind_eq_ok, ensure_eq_ok, orError_eq_ok, pure_eq_ok, Prod.mk.injEq] at h
  obtain ⟨-, -, ⟨i', intents⟩, hmod, rfl, rfl⟩ := h
  obtain ⟨hget, hfence, rfl⟩ := Table.modify_eq_some.mp hmod
  simp only [ExecutionIntent.fenced, Bool.and_eq_true, decide_eq_true_eq] at hfence
  exact ⟨hget, hfence.1, hfence.2, rfl⟩

lemma markReleaseHealthy_inv {intentId releaseId appId : Uuid} {uid : String} {epoch : Nat}
    {becameCurrent : Bool}
    (h : markReleaseHealthy db intentId releaseId appId uid epoch = .ok (becameCurrent, db')) :
    ∃ i apps, db.releaseIntents.get intentId = some i ∧ i.leaseEpoch = epoch ∧ i.status = .claimed ∧
      db' = { db with
        releaseIntents := db.releaseIntents.set intentId (fun i =>
          { i with status := .applied, resourceUid := some uid, updatedAt := db.now })
        releases := db.releases.set releaseId (fun r =>
          { r with status := .healthy, statusReason := none, updatedAt := db.now })
        apps := apps } ∧
      ((becameCurrent = true ∧ ∃ a, db.apps.get appId = some a ∧ a.desiredGeneration = i.targetGeneration ∧
          apps = db.apps.set appId (fun a =>
            { a with currentReleaseId := some releaseId, updatedAt := db.now })) ∨
        (becameCurrent = false ∧ apps = db.apps ∧
          ∀ a, db.apps.get appId = some a → a.desiredGeneration ≠ i.targetGeneration)) := by
  unfold markReleaseHealthy at h
  simp only [bind_eq_ok] at h
  obtain ⟨⟨i, db₁⟩, hfence, h⟩ := h
  obtain ⟨hi, hep, hst, rfl⟩ := fenceReleaseIntent_inv hfence
  split at h
  · rename_i a apps hmod
    cases pure_eq_ok.mp h
    obtain ⟨ha, hgen, rfl⟩ := Table.modify_eq_some.mp hmod
    exact ⟨i, _, hi, hep, hst, rfl, .inl ⟨rfl, a, ha, by simpa using hgen, rfl⟩⟩
  · rename_i hmod
    cases pure_eq_ok.mp h
    refine ⟨i, _, hi, hep, hst, rfl, .inr ⟨rfl, rfl, fun a ha hgen => ?_⟩⟩
    simp [Table.modify, ha, hgen] at hmod

lemma markReleaseFailed_inv {intentId releaseId : Uuid} {reason : String} {epoch : Nat}
    (h : markReleaseFailed db intentId releaseId reason epoch = .ok db') :
    ∃ i, db.releaseIntents.get intentId = some i ∧ i.leaseEpoch = epoch ∧ i.status = .claimed ∧
      db' = { db with
        releaseIntents := db.releaseIntents.set intentId (fun i =>
          { i with status := .terminated, updatedAt := db.now })
        releases := db.releases.set releaseId (fun r =>
          { r with status := .deployFailed, statusReason := some reason, updatedAt := db.now }) } := by
  unfold markReleaseFailed at h
  simp only [bind_eq_ok, pure_eq_ok] at h
  obtain ⟨⟨i, db₁⟩, hfence, -, -, rfl⟩ := h
  obtain ⟨hi, hep, hst, rfl⟩ := fenceReleaseIntent_inv hfence
  exact ⟨i, hi, hep, hst, rfl⟩

/-! ### Builds -/

lemma claimNextBuildRelease_inv {wss locked : List Uuid} {task : ClaimedBuildTask}
    (h : claimNextBuildRelease db wss locked = some (task, db')) :
    ∃ r, db.releases.get task.releaseId = some r ∧ r.status = .requested ∧ r.imageDigest = "pending" ∧
      db' = { db with
        releases := db.releases.set task.releaseId (fun r =>
          { r with status := .building, updatedAt := db.now }) } := by
  unfold claimNextBuildRelease at h
  split at h
  · cases h
  · rename_i r a repo hnext
    split at h
    · cases h
    · rename_i hmod
      obtain ⟨hget, hst, rfl⟩ := Table.modify_eq_some.mp hmod
      cases h
      obtain ⟨s, hmem, hs⟩ := List.exists_of_findSome?_eq_some hnext
      split at hs
      · rename_i hc
        split at hs
        · cases hs
          exact ⟨r, Table.get_of_mem (mem_orderBy.mp hmem), hc.1, hc.2.1, rfl⟩
        · cases hs
      · cases hs

lemma markBuildSucceeded_inv {releaseId : Uuid} {digest : String}
    (h : markBuildSucceeded db releaseId digest = .ok db') :
    ∃ r events, db.releases.get releaseId = some r ∧ r.status = .building ∧
      db' = { db with
        releases := db.releases.set releaseId (fun r =>
          { r with status := .imageReady, imageDigest := digest, statusReason := none, updatedAt := db.now })
        apps := db.apps.set r.applicationId (fun a =>
          { a with desiredGeneration := a.desiredGeneration + 1, updatedAt := db.now })
        reservations := (releaseReservation db r.workspaceId .concurrentBuild).reservations
        outbox := events } := by
  unfold markBuildSucceeded at h
  simp only [bind_eq_ok, orError_eq_ok, pure_eq_ok] at h
  obtain ⟨-, -, ⟨r, releases⟩, hmod, h⟩ := h
  obtain ⟨hr, hst, rfl⟩ := Table.modify_eq_some.mp hmod
  exact ⟨r, _, hr, by simpa using hst, h.symm⟩

lemma markBuildFailed_inv {releaseId : Uuid} {reason : String}
    (h : markBuildFailed db releaseId reason = .ok db') :
    ∃ r events, db.releases.get releaseId = some r ∧ r.status = .building ∧
      db' = { db with
        releases := db.releases.set releaseId (fun r =>
          { r with status := .buildFailed, statusReason := some reason, updatedAt := db.now })
        reservations := (releaseReservation db r.workspaceId .concurrentBuild).reservations
        outbox := events } := by
  unfold markBuildFailed at h
  simp only [bind_eq_ok, orError_eq_ok, pure_eq_ok] at h
  obtain ⟨-, -, ⟨r, releases⟩, hmod, h⟩ := h
  obtain ⟨hr, hst, rfl⟩ := Table.modify_eq_some.mp hmod
  exact ⟨r, _, hr, by simpa using hst, h.symm⟩

end HamiCloud.Proofs
