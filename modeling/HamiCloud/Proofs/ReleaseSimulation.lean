import HamiCloud.Proofs.ReleaseRefinement

/-!
# Runs of the service side follow the release protocol

What a scheduler, an executor or a webhook handler may still rely on when it acts on an old row, and
the simulation of every transaction of the service side by the release protocol.
-/

namespace HamiCloud.Proofs

open Library

variable {db db' : Db} {v v' : ReleaseView}

/-- The rows behind a workload that an executor has been given. -/
def BoundRelease (v : ReleaseView) (wl : ClaimedWorkload) : Prop :=
  ∃ i r, v.intent wl.intentId = some i ∧ i.resourceId = wl.releaseId ∧
    v.release wl.releaseId = some r ∧ r.applicationId = wl.applicationId ∧
    i.targetGeneration = wl.targetGeneration ∧
    i.deterministicResourceName = wl.deterministicResourceName ∧ wl.leaseEpoch ≤ i.leaseEpoch

structure ServiceClientsOK (v : ReleaseView) (c : ServiceClients) : Prop where
  unadmitted : ∀ u ∈ c.unadmitted, ∃ r, v.release u.releaseId = some r ∧ r.applicationId = u.applicationId
  claims : ∀ wl ∈ c.claims, BoundRelease v wl
  webhooks : ∀ p ∈ c.webhooks, ∀ b ∈ p.builds, ∃ a, v.app b.app.id = some a

lemma BoundRelease.mono {wl : ClaimedWorkload} (hev : ReleaseEvolves v v') (h : BoundRelease v wl) :
    BoundRelease v' wl := by
  obtain ⟨i, r, hi, hres, hr, happ, hgen, hname, hep⟩ := h
  obtain ⟨i', hi', hsi, hei, -⟩ := hev.intent hi
  obtain ⟨r', hr', hsr⟩ := hev.release hr
  obtain ⟨-, -, hres', hgen', hname', -⟩ := ExecutionIntent.spec_eq.mp hsi
  exact ⟨i', r', hi', hres'.trans hres, hr', (Release.spec_eq.mp hsr).2.1.trans happ, hgen'.trans hgen,
    hname'.trans hname, hep.trans hei⟩

lemma ServiceClientsOK.mono {c : ServiceClients} (hev : ReleaseEvolves v v') (h : ServiceClientsOK v c) :
    ServiceClientsOK v' c where
  unadmitted u hu := by
    obtain ⟨r, hr, happ⟩ := h.unadmitted u hu
    obtain ⟨r', hr', hs⟩ := hev.release hr
    exact ⟨r', hr', (Release.spec_eq.mp hs).2.1.trans happ⟩
  claims wl hwl := (h.claims wl hwl).mono hev
  webhooks p hp b hb := by
    obtain ⟨a, ha⟩ := h.webhooks p hp b hb
    obtain ⟨a', ha', -⟩ := hev.app ha
    exact ⟨a', ha'⟩

/-! ### Refinement of the transactions -/

/-- A step on one application, as a transaction on the application table. -/
lemma configure_refines {e : ReleaseEvent} {a : Application}
    (hstep : ReleaseStep db.now (releaseView db) e ((releaseView db).setApp a))
    (happs : db'.apps.get = Function.update db.apps.get a.id (some a))
    (hreleases : db'.releases = db.releases) (hintents : db'.releaseIntents = db.releaseIntents) :
    ReleaseStep db.now (releaseView db) e (releaseView db') := by
  have hv : releaseView db' = (releaseView db).setApp a := by
    simp only [releaseView, ReleaseView.setApp, happs, hreleases, hintents]
  rw [hv]
  exact hstep

lemma update_refines {appId : Uuid} {payload : UpdateApplicationRequest}
    (h : updateApplication db appId payload = .ok db') :
    ReleaseStep db.now (releaseView db) .configure (releaseView db') := by
  obtain ⟨a, ha, rfl⟩ := updateApplication_inv h
  obtain rfl := Table.key_of_get ha
  let a' : Application :=
    { a with repositoryId := payload.repositoryId.getD a.repositoryId,
             gitBranch := payload.gitBranch.orElse (fun _ => a.gitBranch), updatedAt := db.now }
  have hstep : ReleaseStep db.now (releaseView db) .configure ((releaseView db).setApp a') :=
    .updateApp _ a a' ha rfl rfl rfl
  exact configure_refines hstep (Table.get_set_eq_update ha) rfl rfl

/-- A step on one application and one release, as a transaction on their tables. -/
lemma bump_refines {e : ReleaseEvent} {a' : Application} {r' : Release}
    (hstep : ReleaseStep db.now (releaseView db) e (((releaseView db).setApp a').setRelease r'))
    (happs : db'.apps.get = Function.update db.apps.get a'.id (some a'))
    (hreleases : db'.releases.get = Function.update db.releases.get r'.id (some r'))
    (hintents : db'.releaseIntents = db.releaseIntents) :
    ReleaseStep db.now (releaseView db) e (releaseView db') := by
  have hv : releaseView db' = ((releaseView db).setApp a').setRelease r' := by
    simp only [releaseView, ReleaseView.setApp, ReleaseView.setRelease, happs, hreleases, hintents]
  rw [hv]
  exact hstep

lemma accept_refines {cfg : Settings} {appId : Uuid} {a : Application} {digest : String}
    {config : ReleaseConfig} {rollbackOf : Option Uuid} (ha : db.apps.get appId = some a)
    (h : acceptRelease cfg db a digest config rollbackOf = .ok db') :
    ReleaseStep db.now (releaseView db) .accept (releaseView db') := by
  obtain rfl := Table.key_of_get ha
  obtain ⟨db₁, r, releases, events, -, happ, -, -, hst, hnum, hins, rfl⟩ := acceptRelease_inv h
  let a' : Application := { a with desiredGeneration := a.desiredGeneration + 1, updatedAt := db.now }
  have hstep : ReleaseStep db.now (releaseView db) .accept (((releaseView db).setApp a').setRelease r) :=
    .accept _ a a' r ha rfl rfl rfl (Table.fresh_of_insert hins) happ hst hnum
  exact bump_refines hstep (Table.get_set_eq_update ha) (Table.get_insert_eq_update hins) rfl

lemma request_refines {a : Application} {r : Release} {releases : Table Release.id}
    (ha : db.apps.get a.id = some a) (happ : r.applicationId = a.id) (hst : r.status = .requested)
    (hd : r.imageDigest = "pending")
    (hfree : ∀ k s, db.releases.get k = some s → s.applicationId = a.id → s.releaseNumber ≠ r.releaseNumber)
    (hins : db.releases.insert r = some releases) (hreleases : db'.releases = releases)
    (happs : db'.apps = db.apps) (hintents : db'.releaseIntents = db.releaseIntents) :
    ReleaseStep db.now (releaseView db) .request (releaseView db') := by
  have hv : releaseView db' = (releaseView db).setRelease r := by
    simp only [releaseView, ReleaseView.setRelease, hreleases, happs, hintents,
      Table.get_insert_eq_update hins]
  rw [hv]
  exact .request _ a r ha (Table.fresh_of_insert hins) happ hst hd hfree

/-- The loop of the webhook commit: each planned build adds one release that waits for its image. -/
lemma commitWebhook_refines {plan : WebhookPlan} (h : commitWebhook db plan = .ok db')
    (happ : ∀ b ∈ plan.builds, ∃ a, db.apps.get b.app.id = some a) :
    Relation.ReflTransGen (fun u u' => ReleaseStep db.now u .request u') (releaseView db)
      (releaseView db') := by
  unfold commitWebhook at h
  generalize plan.builds = builds at h happ
  induction builds generalizing db with
  | nil =>
    rw [List.foldlM_nil, pure_eq_ok] at h
    subst h
    exact .refl
  | cons b builds ih =>
    simp only [List.foldlM_cons, insertPlanned, bind_eq_ok, orError_eq_ok, pure_eq_ok] at h
    obtain ⟨db₁, ⟨-, -, db₂, hins, rfl⟩, hrest⟩ := h
    obtain ⟨releases, hfree, hrel, rfl⟩ := insertRelease_inv hins
    obtain ⟨a, ha⟩ := happ b (List.mem_cons_self ..)
    have hid := Table.key_of_get ha
    have hrun := ih hrest (fun c hc => happ c (List.mem_cons_of_mem _ hc))
    refine Relation.ReflTransGen.head ?_ hrun
    exact request_refines (hid ▸ ha) hid.symm rfl rfl (hid ▸ hfree) hrel rfl rfl rfl

lemma supersede_refines :
    ReleaseStep db.now (releaseView db) .supersede (releaseView (supersedeReleases db)) := by
  refine .supersede _ _ rfl (fun k => ?_) (fun k => ?_)
  · have hrow : (releaseView (supersedeReleases db)).release k = (db.releases.get k).map (fun r =>
        if outdated db r then { r with status := .superseded, updatedAt := db.now,
                                       statusReason := some "Superseded by newer release" }
        else r) := Table.get_update _ _ _ (by intro _; rfl) _
    rw [hrow]
    cases hk : db.releases.get k with
    | none => exact .inl hk.symm
    | some r =>
      by_cases hold : outdated db r = true
      · have hout := hold
        simp only [outdated, Bool.and_eq_true, Bool.or_eq_true, decide_eq_true_eq, Option.any_eq_true] at hout
        obtain ⟨hst, newest, hnewest, hlt⟩ := hout
        obtain ⟨⟨k', n, hn, happ, hd, hnum⟩, -⟩ := maxDeployable_eq_some.mp hnewest
        obtain rfl := Table.key_of_get hn
        rw [Option.map_some, if_pos hold]
        exact .inr ⟨r, _, n, hk, rfl, rfl, rfl, hst, rfl, hn, hd, happ, by omega⟩
      · exact .inl (by rw [Option.map_some, if_neg hold]; exact hk.symm)
  · have hrow : (releaseView (supersedeReleases db)).intent k = (db.releaseIntents.get k).map (fun i =>
        if (decide (i.status = .pending) && ((supersedeReleases db).releases.get i.resourceId).any
            (fun r => r.status = .superseded)) then { i with status := .terminated, updatedAt := db.now }
        else i) := Table.get_update _ _ _ (by intro _; rfl) _
    rw [hrow]
    cases hk : db.releaseIntents.get k with
    | none => exact .inl hk.symm
    | some i =>
      rw [Option.map_some]
      split
      · rename_i hun
        simp only [Bool.and_eq_true, decide_eq_true_eq, Option.any_eq_true] at hun
        obtain ⟨hp, r, hr, hst⟩ := hun
        exact .inr ⟨i, _, r, hk, rfl, rfl, rfl, hp, rfl, hr, hst⟩
      · exact .inl hk.symm

-- of two releases that wait for their rollout the older one is given up
example : ((system Settings.default).exec World.init
    [.service (.createApplication 100 ⟨"shop", none, none⟩),
      .service (.deployRelease 0 ⟨"quay.io/shop:1", ⟨8080, "/"⟩⟩),
      .service (.deployRelease 0 ⟨"quay.io/shop:2", ⟨8080, "/"⟩⟩), .service .supersedeReleases]).map
    (fun w => w.db.releases.rows.map Release.status) = some [.superseded, .imageReady] := by
  decide +kernel

lemma admission_service_refines {rel : UnadmittedRelease} {i : ExecutionIntent} {r : Release}
    (hr : db.releases.get rel.releaseId = some r) (happ : r.applicationId = rel.applicationId)
    (h : createServiceReleaseIntent db rel = .ok (some (i, db'))) :
    ReleaseStep db.now (releaseView db) .admission (releaseView db') := by
  obtain ⟨intents, hres, hgen, hname, hst, hep, hfree, hins, rfl⟩ := createServiceReleaseIntent_inv h
  have hid := Table.key_of_get hr
  have hv : releaseView { db with releaseIntents := intents, nextUuid := db.nextUuid + 1 } =
      (releaseView db).setIntent i := by
    simp only [releaseView, ReleaseView.setIntent, Table.get_insert_eq_update hins]
  rw [hv]
  refine .admission _ r i (hid ▸ hr) (Table.fresh_of_insert hins) (hres.trans hid.symm) hst hep ?_ ?_
  · rw [hname, happ, hgen]
  · intro k s hs hsr
    rw [hgen]
    exact hfree k s hs (hsr.trans hid)

/-- A step on one intent and its release, as a transaction on their tables. -/
lemma deploy_refines {intentId releaseId : Uuid} {i i' : ExecutionIntent} {r r' : Release} {e : ReleaseEvent}
    (hi : db.releaseIntents.get intentId = some i) (hr : db.releases.get releaseId = some r)
    (hres : i.resourceId = releaseId)
    (hintents : db'.releaseIntents.get = Function.update db.releaseIntents.get intentId (some i'))
    (hreleases : db'.releases.get = Function.update db.releases.get releaseId (some r'))
    (happs : db'.apps = db.apps) (hsi : i'.spec = i.spec) (hsr : r'.spec = r.spec)
    (hd : r'.imageDigest = r.imageDigest) (hdep : Deploy db.now i r e i'.status r'.status)
    (hep : i'.leaseEpoch = if e = .claim then i.leaseEpoch + 1 else i.leaseEpoch)
    (hnot : ∀ a, db.apps.get r.applicationId = some a → e = .healthy i.id i.leaseEpoch →
      a.desiredGeneration ≠ i.targetGeneration) :
    ReleaseStep db.now (releaseView db) e (releaseView db') := by
  obtain rfl := Table.key_of_get hi
  obtain rfl := Table.key_of_get hr
  have hv : releaseView db' = ((releaseView db).setRelease r').setIntent i' := by
    simp only [releaseView, ReleaseView.setRelease, ReleaseView.setIntent, hintents, hreleases, happs,
      (ExecutionIntent.spec_eq.mp hsi).1, (Release.spec_eq.mp hsr).1]
  rw [hv]
  exact .deploy _ i i' r r' e hi hr hres hsi hsr hd hdep hep hnot

lemma claim_service_refines {workerId : String} {lease : Time} {wss locked : List Uuid}
    {wl : ClaimedWorkload} (h : claimNextServiceRelease db workerId lease wss locked = some (wl, db')) :
    ReleaseStep db.now (releaseView db) .claim (releaseView db') := by
  obtain ⟨i, r, hnext, -, -, -, -, -, -, rfl⟩ := claimNextServiceRelease_inv h
  obtain ⟨hi, hc, hr, hst⟩ := nextReleaseIntent_inv hnext
  have hid := Table.key_of_get hr
  have hr' : db.releases.get r.id = some r := hid ▸ hr
  exact deploy_refines hi hr' hid.symm (Table.get_set_eq_update hi) (Table.get_set_eq_update hr') rfl rfl rfl
    rfl (.claim hc hst) rfl (by simp)

-- the claimed release is taken into its rollout
example : ((system Settings.default).exec World.init
    [.service (.createApplication 100 ⟨"shop", none, none⟩),
      .service (.deployRelease 0 ⟨"quay.io/shop:1", ⟨8080, "/"⟩⟩), .service (.selectUnadmittedReleases 50),
      .service (.createServiceReleaseIntent ⟨2, 0, 100, 1, "quay.io/shop:1", ⟨8080, "/"⟩, 2⟩),
      .service (.claimNextServiceRelease "executor-1" (30 * second) [] [])]).map
    (fun w => w.db.releases.rows.map Release.status) = some [.deploying] := by
  decide +kernel

/-- The rows behind a workload whose intent is looked up. -/
lemma BoundRelease.rows {wl : ClaimedWorkload} {i : ExecutionIntent} (hb : BoundRelease (releaseView db) wl)
    (hi : db.releaseIntents.get wl.intentId = some i) :
    i.id = wl.intentId ∧ i.resourceId = wl.releaseId ∧ i.targetGeneration = wl.targetGeneration ∧
      ∃ r, db.releases.get wl.releaseId = some r ∧ r.applicationId = wl.applicationId := by
  obtain ⟨i', r, hi', hres, hr, happ, hgen, -, -⟩ := hb
  obtain rfl : i = i' := Option.some.inj (hi.symm.trans hi')
  exact ⟨Table.key_of_get hi, hres, hgen, r, hr, happ⟩

lemma renew_service_refines {wl : ClaimedWorkload} {ext : Time} {intents : Table ExecutionIntent.id}
    (hb : BoundRelease (releaseView db) wl)
    (h : renewLease db.releaseIntents db.now wl.intentId wl.leaseEpoch ext = .ok intents) :
    ReleaseStep db.now (releaseView db) (.renew wl.intentId wl.leaseEpoch)
      (releaseView { db with releaseIntents := intents }) := by
  obtain ⟨i, hi, hep, hst, rfl⟩ := renewLease_inv h
  obtain ⟨hid, hres, -, r, hr, -⟩ := hb.rows hi
  refine deploy_refines hi hr hres (Table.get_set_eq_update hi) (Table.get_eq_update hr) rfl rfl rfl rfl ?_
    (by simp) (by simp)
  rw [← hid, ← hep, hst]
  exact .renew hst

lemma failed_refines {wl : ClaimedWorkload} {reason : String} (hb : BoundRelease (releaseView db) wl)
    (h : markReleaseFailed db wl.intentId wl.releaseId reason wl.leaseEpoch = .ok db') :
    ReleaseStep db.now (releaseView db) (.failed wl.intentId wl.leaseEpoch) (releaseView db') := by
  obtain ⟨i, hi, hep, hst, rfl⟩ := markReleaseFailed_inv h
  obtain ⟨hid, hres, -, r, hr, -⟩ := hb.rows hi
  refine deploy_refines hi hr hres (Table.get_set_eq_update hi) (Table.get_set_eq_update hr) rfl rfl rfl rfl
    ?_ (by simp) (by simp)
  rw [← hid, ← hep]
  exact .failed hst

lemma promote_refines {intentId releaseId appId : Uuid} {i i' : ExecutionIntent} {r r' : Release}
    {a a' : Application} (hi : db.releaseIntents.get intentId = some i)
    (hr : db.releases.get releaseId = some r) (ha : db.apps.get appId = some a)
    (hres : i.resourceId = releaseId) (happ : r.applicationId = appId)
    (hintents : db'.releaseIntents.get = Function.update db.releaseIntents.get intentId (some i'))
    (hreleases : db'.releases.get = Function.update db.releases.get releaseId (some r'))
    (happs : db'.apps.get = Function.update db.apps.get appId (some a'))
    (hsi : i'.spec = i.spec) (hsr : r'.spec = r.spec) (hd : r'.imageDigest = r.imageDigest)
    (hst : i.status = .claimed) (hst' : i'.status = .applied) (hrst : r'.status = .healthy)
    (hep : i'.leaseEpoch = i.leaseEpoch) (hgen : a.desiredGeneration = i.targetGeneration)
    (haid : a'.id = a.id) (hagen : a'.desiredGeneration = a.desiredGeneration)
    (hcur : a'.currentReleaseId = some releaseId) :
    ReleaseStep db.now (releaseView db) (.healthy intentId i.leaseEpoch) (releaseView db') := by
  obtain rfl := Table.key_of_get hi
  obtain rfl := Table.key_of_get hr
  obtain rfl := Table.key_of_get ha
  have hv : releaseView db' = (((releaseView db).setApp a').setRelease r').setIntent i' := by
    simp only [releaseView, ReleaseView.setApp, ReleaseView.setRelease, ReleaseView.setIntent, hintents,
      hreleases, happs, (ExecutionIntent.spec_eq.mp hsi).1, (Release.spec_eq.mp hsr).1, haid]
  rw [hv]
  exact .promote _ i i' r r' a a' hi hr ha hres happ hsi hsr hd hst hst' hrst hep hgen haid hagen hcur

lemma healthy_refines {wl : ClaimedWorkload} {uid : String} {becameCurrent : Bool}
    (hb : BoundRelease (releaseView db) wl)
    (h : markReleaseHealthy db wl.intentId wl.releaseId wl.applicationId uid wl.leaseEpoch =
      .ok (becameCurrent, db')) :
    ReleaseStep db.now (releaseView db) (.healthy wl.intentId wl.leaseEpoch) (releaseView db') := by
  obtain ⟨i, apps, hi, hep, hst, rfl, happs⟩ := markReleaseHealthy_inv h
  obtain ⟨hid, hres, -, r, hr, happ⟩ := hb.rows hi
  rcases happs with ⟨-, a, ha, hgen, rfl⟩ | ⟨-, rfl, hne⟩
  · rw [← hep]
    exact promote_refines hi hr ha hres happ (Table.get_set_eq_update hi) (Table.get_set_eq_update hr)
      (Table.get_set_eq_update ha) rfl rfl rfl hst rfl rfl rfl hgen rfl rfl rfl
  · refine deploy_refines hi hr hres (Table.get_set_eq_update hi) (Table.get_set_eq_update hr) rfl rfl rfl rfl
      ?_ (by simp) (fun a ha _ => hne a (happ ▸ ha))
    rw [← hid, ← hep]
    exact .healthy hst

/-- A step of a build on its release, as a transaction on the release table. -/
lemma build_refines {releaseId : Uuid} {r r' : Release} {e : ReleaseEvent}
    (hr : db.releases.get releaseId = some r)
    (hreleases : db'.releases.get = Function.update db.releases.get releaseId (some r'))
    (happs : db'.apps = db.apps) (hintents : db'.releaseIntents = db.releaseIntents)
    (hsr : r'.spec = r.spec) (hb : Build r e r'.status r'.imageDigest) (hne : e ≠ .built) :
    ReleaseStep db.now (releaseView db) e (releaseView db') := by
  obtain rfl := Table.key_of_get hr
  have hv : releaseView db' = (releaseView db).setRelease r' := by
    simp only [releaseView, ReleaseView.setRelease, hreleases, happs, hintents, (Release.spec_eq.mp hsr).1]
  rw [hv]
  exact .build _ r r' e hr hsr hb hne

lemma startBuild_refines {wss locked : List Uuid} {task : ClaimedBuildTask}
    (h : claimNextBuildRelease db wss locked = some (task, db')) :
    ReleaseStep db.now (releaseView db) .startBuild (releaseView db') := by
  obtain ⟨r, hr, hst, hd, rfl⟩ := claimNextBuildRelease_inv h
  exact build_refines hr (Table.get_set_eq_update hr) rfl rfl rfl (.start hst hd) (by simp)

lemma buildFailed_refines {releaseId : Uuid} {reason : String}
    (h : markBuildFailed db releaseId reason = .ok db') :
    ReleaseStep db.now (releaseView db) .buildFailed (releaseView db') := by
  obtain ⟨r, events, hr, hst, rfl⟩ := markBuildFailed_inv h
  exact build_refines hr (Table.get_set_eq_update hr) rfl rfl rfl (.failed hst) (by simp)

lemma built_refines {releaseId : Uuid} {digest : String} (hwf : ReleaseWF (releaseView db))
    (h : markBuildSucceeded db releaseId digest = .ok db') :
    ReleaseStep db.now (releaseView db) .built (releaseView db') := by
  obtain ⟨r, events, hr, hst, rfl⟩ := markBuildSucceeded_inv h
  obtain ⟨a, ha⟩ : ∃ a, db.apps.get r.applicationId = some a := hwf.releaseApp hr
  have hid := Table.key_of_get ha
  have hrid := Table.key_of_get hr
  let a' : Application := { a with desiredGeneration := a.desiredGeneration + 1, updatedAt := db.now }
  let r' : Release :=
    { r with status := .imageReady, imageDigest := digest, statusReason := none, updatedAt := db.now }
  have hstep : ReleaseStep db.now (releaseView db) .built (((releaseView db).setApp a').setRelease r') :=
    .built _ r r' a a' (hrid ▸ hr) rfl (.built digest hst) (hid ▸ ha) hid.symm rfl rfl rfl
  have happs : a'.id = r.applicationId := hid
  have hreleases : r'.id = releaseId := hrid
  refine bump_refines hstep ?_ ?_ rfl
  · rw [happs]
    exact Table.get_set_eq_update ha
  · rw [hreleases]
    exact Table.get_set_eq_update hr

/-! ### Refinement of a step -/

/-- The event of the protocol that a service action stands for. -/
def releaseEvent : ServiceAction → ReleaseEvent
  | .createApplication _ _ => .configure
  | .updateApplication _ _ => .configure
  | .deployRelease _ _ => .accept
  | .rollbackRelease _ _ => .accept
  | .triggerBuild _ _ => .request
  | .commitWebhook _ => .request
  | .supersedeReleases => .supersede
  | .createServiceReleaseIntent _ => .admission
  | .claimNextServiceRelease _ _ _ _ => .claim
  | .renewLease wl _ => .renew wl.intentId wl.leaseEpoch
  | .markReleaseHealthy wl _ => .healthy wl.intentId wl.leaseEpoch
  | .markReleaseFailed wl _ => .failed wl.intentId wl.leaseEpoch
  | .claimNextBuildRelease _ _ => .startBuild
  | .markBuildSucceeded _ _ => .built
  | .markBuildFailed _ _ => .buildFailed
  | _ => .scan

lemma createServiceReleaseIntent_step {cfg : Settings} {c c' : ServiceClients} {rel : UnadmittedRelease}
    (h : serviceStep cfg db c (.createServiceReleaseIntent rel) = some (db', c')) :
    ∃ i, rel ∈ c.unadmitted ∧ createServiceReleaseIntent db rel = .ok (some (i, db')) ∧ c' = c := by
  obtain ⟨hmem, hadm⟩ := Option.ite_none_right_eq_some.mp h
  split at hadm
  · rename_i i db₁ hdb
    cases hadm
    exact ⟨i, hmem, hdb, rfl⟩
  · cases hadm

lemma claimNextServiceRelease_step {cfg : Settings} {c c' : ServiceClients} {workerId : String} {lease : Time}
    {wss locked : List Uuid}
    (h : serviceStep cfg db c (.claimNextServiceRelease workerId lease wss locked) = some (db', c')) :
    ∃ wl, claimNextServiceRelease db workerId lease wss locked = some (wl, db') ∧
      c' = { c with claims := c.claims ++ [wl] } := by
  obtain ⟨⟨wl, _⟩, hdb, he⟩ := Option.map_eq_some_iff.mp h
  cases he
  exact ⟨wl, hdb, rfl⟩

lemma renewLease_service_step {cfg : Settings} {c c' : ServiceClients} {wl : ClaimedWorkload} {ext : Time}
    (h : serviceStep cfg db c (.renewLease wl ext) = some (db', c')) :
    ∃ intents, wl ∈ c.claims ∧
      renewLease db.releaseIntents db.now wl.intentId wl.leaseEpoch ext = .ok intents ∧
      db' = { db with releaseIntents := intents } ∧ c' = c := by
  obtain ⟨hmem, hren⟩ := Option.ite_none_right_eq_some.mp h
  obtain ⟨intents, hdb, he⟩ := Option.map_eq_some_iff.mp hren
  cases he
  exact ⟨intents, hmem, toOption_eq_some.mp hdb, rfl, rfl⟩

lemma markReleaseHealthy_step {cfg : Settings} {c c' : ServiceClients} {wl : ClaimedWorkload} {uid : String}
    (h : serviceStep cfg db c (.markReleaseHealthy wl uid) = some (db', c')) :
    ∃ becameCurrent, wl ∈ c.claims ∧ markReleaseHealthy db wl.intentId wl.releaseId wl.applicationId uid
        wl.leaseEpoch = .ok (becameCurrent, db') ∧
      c' = { c with promotions := c.promotions ++ if becameCurrent then promotionOf db wl else [] } := by
  obtain ⟨hmem, hmark⟩ := Option.ite_none_right_eq_some.mp h
  obtain ⟨⟨becameCurrent, _⟩, hdb, he⟩ := Option.map_eq_some_iff.mp hmark
  cases he
  exact ⟨becameCurrent, hmem, toOption_eq_some.mp hdb, rfl⟩

lemma claimNextBuildRelease_step {cfg : Settings} {c c' : ServiceClients} {wss locked : List Uuid}
    (h : serviceStep cfg db c (.claimNextBuildRelease wss locked) = some (db', c')) :
    ∃ task, claimNextBuildRelease db wss locked = some (task, db') ∧
      c' = { c with builds := c.builds ++ [task] } := by
  obtain ⟨⟨task, _⟩, hdb, he⟩ := Option.map_eq_some_iff.mp h
  cases he
  exact ⟨task, hdb, rfl⟩

lemma readWebhook_step {cfg : Settings} {c c' : ServiceClients} {repo : Uuid} {sha branch : String}
    (h : serviceStep cfg db c (.readWebhook repo sha branch) = some (db', c')) :
    ∃ plan, readWebhook db repo sha branch = .ok plan ∧ db' = db ∧
      c' = { c with webhooks := c.webhooks ++ [plan] } := by
  obtain ⟨plan, hplan, he⟩ := Option.map_eq_some_iff.mp h
  cases he
  exact ⟨plan, toOption_eq_some.mp hplan, rfl, rfl⟩

/-- Every transaction of the service side is a transaction of the release protocol. -/
theorem serviceStep_refines {cfg : Settings} {c c' : ServiceClients} {a : ServiceAction}
    (hwf : ReleaseWF (releaseView db)) (hok : ServiceClientsOK (releaseView db) c)
    (h : serviceStep cfg db c a = some (db', c')) :
    ReleaseRun db.now (releaseView db) (releaseEvent a) (releaseView db') := by
  cases a with
  | createRepository ws =>
    obtain ⟨repos, rfl⟩ := createRepository_inv (commit_inv h).1
    exact .step (.scan _ _)
  | createApplication ws payload =>
    obtain ⟨a, apps, hnew, hins, rfl⟩ := createApplication_inv (commit_inv h).1
    have hstep : ReleaseStep db.now (releaseView db) .configure ((releaseView db).setApp a) :=
      .createApp _ a (Table.fresh_of_insert hins) hnew.unreleased
    exact .step (configure_refines hstep (Table.get_insert_eq_update hins) rfl rfl)
  | updateApplication app payload => exact .step (update_refines (commit_inv h).1)
  | deployRelease app payload =>
    obtain ⟨a, ha, hacc⟩ := deployRelease_inv (commit_inv h).1
    exact .step (accept_refines ha hacc)
  | rollbackRelease app target =>
    obtain ⟨a, r, ha, -, hacc⟩ := rollbackRelease_inv (commit_inv h).1
    exact .step (accept_refines ha hacc)
  | triggerBuild app payload =>
    obtain ⟨db₁, a, r, releases, events, -, ha, happ, -, -, hst, hd, hfree, hins, rfl⟩ :=
      triggerBuild_inv (commit_inv h).1
    have hid := Table.key_of_get ha
    exact .step (request_refines (hid ▸ ha) happ hst hd hfree hins rfl rfl rfl)
  | readWebhook repo sha branch =>
    obtain ⟨plan, -, rfl, -⟩ := readWebhook_step h
    exact .step (.scan _ _)
  | commitWebhook plan =>
    obtain ⟨hmem, hdb, -⟩ := held_commit_inv h
    exact .requests (commitWebhook_refines hdb (hok.webhooks plan hmem))
  | supersedeReleases =>
    cases h
    exact .step supersede_refines
  | selectUnadmittedReleases limit =>
    cases h
    exact .step (.scan _ _)
  | createServiceReleaseIntent rel =>
    obtain ⟨i, hmem, hdb, -⟩ := createServiceReleaseIntent_step h
    obtain ⟨r, hr, happ⟩ := hok.unadmitted rel hmem
    exact .step (admission_service_refines hr happ hdb)
  | claimNextServiceRelease workerId lease wss locked =>
    obtain ⟨wl, hdb, -⟩ := claimNextServiceRelease_step h
    exact .step (claim_service_refines hdb)
  | renewLease wl ext =>
    obtain ⟨intents, hmem, hdb, rfl, -⟩ := renewLease_service_step h
    exact .step (renew_service_refines (hok.claims wl hmem) hdb)
  | markReleaseHealthy wl uid =>
    obtain ⟨becameCurrent, hmem, hdb, -⟩ := markReleaseHealthy_step h
    exact .step (healthy_refines (hok.claims wl hmem) hdb)
  | markReleaseFailed wl reason =>
    obtain ⟨hmem, hdb, -⟩ := held_commit_inv h
    exact .step (failed_refines (hok.claims wl hmem) hdb)
  | claimNextBuildRelease wss locked =>
    obtain ⟨task, hdb, -⟩ := claimNextBuildRelease_step h
    exact .step (startBuild_refines hdb)
  | markBuildSucceeded task digest =>
    obtain ⟨-, hdb, -⟩ := held_commit_inv h
    exact .step (built_refines hwf hdb)
  | markBuildFailed task reason =>
    obtain ⟨-, hdb, -⟩ := held_commit_inv h
    exact .step (buildFailed_refines hdb)

/-! ### What clients are given -/

lemma boundRelease_of_claim {workerId : String} {lease : Time} {wss locked : List Uuid}
    {wl : ClaimedWorkload} (h : claimNextServiceRelease db workerId lease wss locked = some (wl, db')) :
    BoundRelease (releaseView db') wl := by
  obtain ⟨i, r, hnext, hint, hrel, happ, hgen, hname, hep, rfl⟩ := claimNextServiceRelease_inv h
  obtain ⟨hi, -, hr, -⟩ := nextReleaseIntent_inv hnext
  have hrid := Table.key_of_get hr
  have hr' : db.releases.get r.id = some r := hrid ▸ hr
  rw [← hint] at hi
  rw [← hrel] at hr'
  have hi' := Table.get_set_self (f := ExecutionIntent.claim workerId lease db.now) hi
  have hr'' := Table.get_set_self
    (f := fun r : Release => { r with status := .deploying, updatedAt := db.now }) hr'
  rw [← hint, ← hrel]
  exact ⟨_, _, hi', hrid.symm.trans hrel.symm, hr'', happ.symm, hgen.symm, hname.symm, hep.le⟩

/-- The actions that hand a row to their client. -/
def ServiceAction.learns : ServiceAction → Bool
  | .readWebhook _ _ _ => true
  | .selectUnadmittedReleases _ => true
  | .claimNextServiceRelease _ _ _ _ => true
  | .markReleaseHealthy _ _ => true
  | .claimNextBuildRelease _ _ => true
  | _ => false

lemma serviceStep_sameClients {cfg : Settings} {c c' : ServiceClients} {a : ServiceAction}
    (h : serviceStep cfg db c a = some (db', c')) (hl : ServiceAction.learns a = false) : c' = c := by
  cases a with
  | createRepository ws => exact (commit_inv h).2
  | createApplication ws payload => exact (commit_inv h).2
  | updateApplication app payload => exact (commit_inv h).2
  | deployRelease app payload => exact (commit_inv h).2
  | rollbackRelease app target => exact (commit_inv h).2
  | triggerBuild app payload => exact (commit_inv h).2
  | commitWebhook plan => exact (held_commit_inv h).2.2
  | supersedeReleases => cases h; rfl
  | createServiceReleaseIntent rel =>
    obtain ⟨-, -, -, hc⟩ := createServiceReleaseIntent_step h
    exact hc
  | renewLease wl ext =>
    obtain ⟨-, -, -, -, hc⟩ := renewLease_service_step h
    exact hc
  | markReleaseFailed wl reason => exact (held_commit_inv h).2.2
  | markBuildSucceeded task digest => exact (held_commit_inv h).2.2
  | markBuildFailed task reason => exact (held_commit_inv h).2.2
  | _ => cases hl

/-- What clients hold stays valid, and what they are newly given is. -/
theorem serviceStep_clients {cfg : Settings} {c c' : ServiceClients} {a : ServiceAction}
    (hwf : ReleaseWF (releaseView db)) (hok : ServiceClientsOK (releaseView db) c)
    (h : serviceStep cfg db c a = some (db', c')) : ServiceClientsOK (releaseView db') c' := by
  have hold : ServiceClientsOK (releaseView db') c := hok.mono (serviceStep_refines hwf hok h).evolves
  cases a with
  | readWebhook repo sha branch =>
    obtain ⟨plan, hplan, rfl, rfl⟩ := readWebhook_step h
    refine ⟨hold.unadmitted, hold.claims, fun p hp b hb => ?_⟩
    rcases List.mem_append.mp hp with hp | hp
    · exact hold.webhooks p hp b hb
    · rw [List.mem_singleton.mp hp] at hb
      unfold readWebhook at hplan
      simp only [bind_eq_ok, orError_eq_ok, pure_eq_ok] at hplan
      obtain ⟨r, -, rfl⟩ := hplan
      obtain ⟨a, ha, rfl⟩ := List.mem_map.mp hb
      exact ⟨a, Table.get_of_mem (List.mem_filter.mp ha).1⟩
  | selectUnadmittedReleases limit =>
    cases h
    refine ⟨fun u hu => ?_, hold.claims, hold.webhooks⟩
    rcases List.mem_append.mp hu with hu | hu
    · exact hold.unadmitted u hu
    · obtain ⟨r, a, hr, -, happ, -⟩ := mem_selectUnadmittedReleases hu
      exact ⟨r, hr, happ⟩
  | claimNextServiceRelease workerId lease wss locked =>
    obtain ⟨wl, hdb, rfl⟩ := claimNextServiceRelease_step h
    refine ⟨hold.unadmitted, fun x hx => ?_, hold.webhooks⟩
    rcases List.mem_append.mp hx with hx | hx
    · exact hold.claims x hx
    · rw [List.mem_singleton.mp hx]
      exact boundRelease_of_claim hdb
  | markReleaseHealthy wl uid =>
    obtain ⟨-, -, -, rfl⟩ := markReleaseHealthy_step h
    exact ⟨hold.unadmitted, hold.claims, hold.webhooks⟩
  | claimNextBuildRelease wss locked =>
    obtain ⟨task, -, rfl⟩ := claimNextBuildRelease_step h
    exact ⟨hold.unadmitted, hold.claims, hold.webhooks⟩
  | _ => exact serviceStep_sameClients h rfl ▸ hold

end HamiCloud.Proofs
