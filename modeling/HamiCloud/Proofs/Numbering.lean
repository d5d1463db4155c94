import HamiCloud.Library.Sequential
import HamiCloud.Proofs.WorldInvariant

/-!
# Release numbers

The numbers of the releases of an application are always `1, …, n`: a request that would break this collides on
`uq_release_app_number`. The requests that hold the row lock of the application never collide; a push delivery
collides exactly when a number it has read is taken before it commits.
-/

namespace HamiCloud.Proofs

open Library

variable {cfg : Settings} {db db' : Db} {w w' : World}

/-! ### Numbers -/

structure Numbered (db : Db) : Prop where
  below : db.releases.Below db.nextUuid
  numbers : ∀ appId, Sequential (releaseNumbers db appId)

lemma Numbered.next (h : Numbered db) (appId : Uuid) :
    nextReleaseNumber db appId = (releaseNumbers db appId).length + 1 :=
  congrArg (· + 1) (h.numbers appId).max

lemma Numbered.next_notMem (h : Numbered db) {appId : Uuid} {n : Nat} (hn : n = nextReleaseNumber db appId) :
    n ∉ releaseNumbers db appId := by
  rw [hn, h.next]
  exact (h.numbers appId).length_succ_notMem

/-- No release loses its number, and the numbers stay consecutive. -/
structure NumberStep (db db' : Db) : Prop where
  numbered : Numbered db → Numbered db'
  grows : ∀ appId, ∃ new, releaseNumbers db' appId = releaseNumbers db appId ++ new

lemma NumberStep.of_numbers (h : ∀ appId, releaseNumbers db' appId = releaseNumbers db appId)
    (hbelow : db.releases.Below db.nextUuid → db'.releases.Below db'.nextUuid) : NumberStep db db' where
  numbered hi := ⟨hbelow hi.below, fun appId => h appId ▸ hi.numbers appId⟩
  grows appId := ⟨[], by simp [h]⟩

lemma NumberStep.same (h : db'.releases = db.releases) (hn : db.nextUuid ≤ db'.nextUuid) : NumberStep db db' :=
  .of_numbers (fun appId => by rw [releaseNumbers, h]; rfl) (fun hb => h ▸ hb.mono hn)

lemma NumberStep.update {p : Release → Bool} {g : Release → Release} (hid : ∀ r, (g r).id = r.id)
    (h : db'.releases = db.releases.update p g hid) (happ : ∀ r, (g r).applicationId = r.applicationId)
    (hnumber : ∀ r, (g r).releaseNumber = r.releaseNumber) (hnext : db'.nextUuid = db.nextUuid) : NumberStep db db' := by
  refine .of_numbers (fun appId => ?_) (fun hb => ?_)
  · have hsame : (fun r => decide ((if p r then g r else r).applicationId = appId)) =
        fun r => decide (r.applicationId = appId) := by
      funext r
      split <;> simp [happ]
    have hnum : Release.releaseNumber ∘ (fun r => if p r then g r else r) = Release.releaseNumber := by
      funext r
      simp only [Function.comp]
      split
      · exact hnumber r
      · rfl
    simp only [releaseNumbers, h, Table.update, List.filter_map, List.map_map, Function.comp_def, hsame]
    simp only [← Function.comp_def (f := Release.releaseNumber), hnum]
  · rw [h, hnext]
    exact hb.update hid

lemma insertRelease_numbers {r : Release} (h : insertRelease db r = some db') (appId : Uuid) :
    releaseNumbers db' appId =
      releaseNumbers db appId ++ if r.applicationId = appId then [r.releaseNumber] else [] := by
  obtain ⟨releases, -, hins, rfl⟩ := insertRelease_inv h
  have hrows := Table.rows_insert hins
  simp only [releaseNumbers, hrows, List.filter_append, List.map_append]
  by_cases happ : r.applicationId = appId <;> simp [happ]

lemma insertRelease_notMem {r : Release} (h : insertRelease db r = some db') :
    r.releaseNumber ∉ releaseNumbers db r.applicationId := by
  obtain ⟨releases, hfree, -⟩ := insertRelease_inv h
  intro hmem
  obtain ⟨k, s, hs, happ, hnum⟩ := mem_releaseNumbers.mp hmem
  exact hfree k s hs happ hnum

/-- An inserted release has the next number if its number is not beyond it. -/
lemma Numbered.insert {r : Release} (hi : Numbered db) (h : insertRelease db r = some db') (hid : r.id = db.nextUuid)
    (hpos : 1 ≤ r.releaseNumber) (hle : r.releaseNumber ≤ nextReleaseNumber db r.applicationId) : Numbered db' := by
  have hnumbers := insertRelease_numbers h
  have hseq := hi.numbers r.applicationId
  have hnext : r.releaseNumber = (releaseNumbers db r.applicationId).length + 1 :=
    hseq.next_of_notMem (insertRelease_notMem h) hpos (hi.next _ ▸ hle)
  constructor
  · obtain ⟨releases, -, hins, rfl⟩ := insertRelease_inv h
    exact hi.below.insert hins (Nat.le_succ _) (hid ▸ Nat.lt_succ_self _)
  · intro appId
    rw [hnumbers]
    split
    · rename_i happ
      rw [← happ, hnext]
      exact hseq.concat
    · rw [List.append_nil]
      exact hi.numbers appId

/-- A release with a new identifier and a number that is not taken can be inserted. -/
lemma insertRelease_ok {r : Release} (hbelow : db.releases.Below db.nextUuid) (hid : r.id = db.nextUuid)
    (hnum : r.releaseNumber ∉ releaseNumbers db r.applicationId) : ∃ db', insertRelease db r = some db' := by
  obtain ⟨releases, hins⟩ := hbelow.exists_insert hid
  exact ⟨_, by rw [insertRelease, if_neg hnum, hins]; rfl⟩

/-- A step that checks a quota and then inserts a release with the next number. -/
lemma NumberStep.accept {db₁ db₂ : Db} {ws : Uuid} {cls : QuotaResourceClass} {app : Option Uuid} {reserve : Bool}
    {r : Release} (hq : enforceWorkspaceQuota cfg db ws cls app reserve = .ok db₁)
    (hsame₂ : db₂.releases = db₁.releases) (hn₂ : db₂.nextUuid = db₁.nextUuid) {db₃ : Db}
    (hins : insertRelease db₂ r = some db₃) (hid : r.id = db₁.nextUuid)
    (hnum : r.releaseNumber = nextReleaseNumber db₂ r.applicationId) (hreleases : db'.releases = db₃.releases)
    (hn : db₃.nextUuid ≤ db'.nextUuid) : NumberStep db db' := by
  obtain ⟨hframe, hle, -⟩ := enforceWorkspaceQuota_frame hq
  have hsame : db₂.releases = db.releases := by rw [hsame₂, hframe]
  have hbefore : NumberStep db db₂ := .same hsame (hn₂ ▸ hle)
  have hafter : NumberStep db₃ db' := .same hreleases hn
  constructor
  · intro hi
    refine hafter.numbered ((hbefore.numbered hi).insert hins (hid.trans hn₂.symm) ?_ hnum.le)
    rw [hnum]
    exact Nat.le_add_left _ _
  · intro appId
    obtain ⟨new, hnew⟩ := hbefore.grows appId
    obtain ⟨new', hnew'⟩ := hafter.grows appId
    exact ⟨_, by rw [hnew', insertRelease_numbers hins, hnew, List.append_assoc, List.append_assoc]⟩

/-! ### Collisions -/

/-- The error with which a request ends. -/
def errorOf {ε α : Type} : Except ε α → Option ε
  | .error e => some e
  | .ok _ => none

lemma errorOf_eq_some {ε α : Type} {x : Except ε α} {e : ε} : errorOf x = some e ↔ x = .error e := by
  cases x <;> simp [errorOf]

lemma enforceWorkspaceQuota_ne_integrity {ws : Uuid} {cls : QuotaResourceClass} {app : Option Uuid} {reserve : Bool}
    (hbelow : db.reservations.Below db.nextUuid) :
    enforceWorkspaceQuota cfg db ws cls app reserve ≠ .error .integrity := by
  intro h
  unfold enforceWorkspaceQuota at h
  simp only [bind_eq_error, ensure_eq_error, reduceCtorEq, and_false, false_or] at h
  obtain ⟨-, -, -, -, h⟩ := h
  split at h
  · obtain ⟨hnone, -⟩ := orError_eq_error.mp h
    unfold insertReservation at hnone
    rw [Option.map_eq_none_iff] at hnone
    have hfresh : (expireStaleReservations db ws).reservations.Below (expireStaleReservations db ws).nextUuid :=
      expireStaleReservations_below hbelow
    obtain ⟨u, hu⟩ := hfresh.exists_insert (r := ⟨_, ws, cls, 1, .active, _, _, _⟩) rfl
    rw [hu] at hnone
    cases hnone
  · cases h

/-- The insertion that follows a quota check does not collide. -/
lemma insert_after_quota {db₁ : Db} {ws : Uuid} {cls : QuotaResourceClass} {app : Option Uuid} {reserve : Bool}
    {r : Release} (hi : Numbered db) (hq : enforceWorkspaceQuota cfg db ws cls app reserve = .ok db₁)
    (hreleases : db'.releases = db₁.releases) (hn : db'.nextUuid = db₁.nextUuid) (hid : r.id = db₁.nextUuid)
    (hnum : r.releaseNumber = nextReleaseNumber db₁ r.applicationId) : insertRelease db' r ≠ none := by
  obtain ⟨hframe, hle, -⟩ := enforceWorkspaceQuota_frame hq
  have hsame : db'.releases = db.releases := by rw [hreleases, hframe]
  have hi' : Numbered db' := (NumberStep.same hsame (hn ▸ hle)).numbered hi
  have hnum' : r.releaseNumber = nextReleaseNumber db' r.applicationId := by
    rw [hnum, nextReleaseNumber, nextReleaseNumber, releaseNumbers, releaseNumbers, hreleases]
  obtain ⟨db₂, h₂⟩ := insertRelease_ok hi'.below (hid.trans hn.symm) (hi'.next_notMem hnum')
  rw [h₂]
  exact Option.some_ne_none db₂

lemma acceptRelease_ne_integrity {app : Application} {digest : String} {config : ReleaseConfig}
    {rollbackOf : Option Uuid} (hi : Numbered db) (hbelow : db.reservations.Below db.nextUuid) :
    acceptRelease cfg db app digest config rollbackOf ≠ .error .integrity := by
  intro h
  unfold acceptRelease at h
  simp only [bind_eq_error, orError_eq_error] at h
  rcases h with h | ⟨db₁, hq, ⟨h, -⟩ | ⟨db₂, -, h⟩⟩
  · exact enforceWorkspaceQuota_ne_integrity hbelow h
  · refine insert_after_quota hi hq ?_ ?_ ?_ ?_ h <;> rfl
  · cases h

/-- None of the requests that hold the row lock collides. -/
lemma deployRelease_ne_integrity {appId : Uuid} {payload : DeployReleaseRequest} (hi : Numbered db)
    (hbelow : db.reservations.Below db.nextUuid) : deployRelease cfg db appId payload ≠ .error .integrity := by
  intro h
  simp only [deployRelease, DeployReleaseRequest.validate, validateImagePolicy, bind_eq_error, orError_eq_error,
    ensure_eq_error, reduceCtorEq, and_false, false_or, or_false, exists_false] at h
  obtain ⟨-, -, app, -, -, -, h⟩ := h
  exact acceptRelease_ne_integrity hi hbelow h

lemma rollbackRelease_ne_integrity {appId target : Uuid} (hi : Numbered db)
    (hbelow : db.reservations.Below db.nextUuid) : rollbackRelease cfg db appId target ≠ .error .integrity := by
  intro h
  simp only [rollbackRelease, bind_eq_error, orError_eq_error, reduceCtorEq, and_false, false_or] at h
  obtain ⟨app, -, t, -, h⟩ := h
  exact acceptRelease_ne_integrity hi hbelow h

lemma triggerBuild_ne_integrity {appId : Uuid} {payload : TriggerBuildRequest} (hi : Numbered db)
    (hbelow : db.reservations.Below db.nextUuid) : triggerBuild cfg db appId payload ≠ .error .integrity := by
  intro h
  simp only [triggerBuild, bind_eq_error, orError_eq_error, ensure_eq_error, reduceCtorEq, and_false, false_or] at h
  obtain ⟨app, happ, repo, -, -, -, h | ⟨db₁, hq, ⟨h, -⟩ | ⟨db₂, -, h⟩⟩⟩ := h
  · exact enforceWorkspaceQuota_ne_integrity hbelow h
  · have hid : app.id = appId := Table.key_of_get (orError_eq_ok.mp happ)
    have hnum : nextReleaseNumber db₁ appId = nextReleaseNumber db₁ app.id := by rw [hid]
    exact insert_after_quota hi hq rfl rfl rfl hnum h
  · cases h

/-! ### Push deliveries -/

/-- What a delivery has read: one build per application, each with a number that was the next one. -/
structure PlanOK (db : Db) (plan : WebhookPlan) : Prop where
  distinct : (plan.builds.map (fun b => b.app.id)).Nodup
  numbers : ∀ b ∈ plan.builds, 1 ≤ b.releaseNumber ∧ b.releaseNumber ≤ nextReleaseNumber db b.app.id

lemma readWebhook_plan {repositoryId : Uuid} {sha branch : String} {plan : WebhookPlan}
    (h : readWebhook db repositoryId sha branch = .ok plan) : PlanOK db plan := by
  unfold readWebhook at h
  simp only [bind_eq_ok, pure_eq_ok] at h
  obtain ⟨repo, -, rfl⟩ := h
  constructor
  · simp only [List.map_map]
    exact db.apps.nodup.sublist (List.filter_sublist.map Application.id)
  · intro b hb
    obtain ⟨a, -, rfl⟩ := List.mem_map.mp hb
    exact ⟨Nat.le_add_left _ _, le_rfl⟩

lemma nextReleaseNumber_mono (hi : Numbered db) (h : NumberStep db db') (appId : Uuid) :
    nextReleaseNumber db appId ≤ nextReleaseNumber db' appId := by
  obtain ⟨new, hnew⟩ := h.grows appId
  rw [hi.next, (h.numbered hi).next, hnew, List.length_append]
  omega

lemma PlanOK.mono {plan : WebhookPlan} (hp : PlanOK db plan) (hi : Numbered db) (h : NumberStep db db') :
    PlanOK db' plan where
  distinct := hp.distinct
  numbers b hb := ⟨(hp.numbers b hb).1, (hp.numbers b hb).2.trans (nextReleaseNumber_mono hi h b.app.id)⟩

lemma insertPlanned_step {plan : WebhookPlan} {b : PlannedBuild} (hi : Numbered db)
    (hb : 1 ≤ b.releaseNumber ∧ b.releaseNumber ≤ nextReleaseNumber db b.app.id)
    (h : insertPlanned plan db b = .ok db') :
    NumberStep db db' ∧ ∀ k, k ≠ b.app.id → nextReleaseNumber db' k = nextReleaseNumber db k := by
  unfold insertPlanned at h
  simp only [bind_eq_ok, orError_eq_ok, pure_eq_ok] at h
  obtain ⟨-, -, db₁, hins, rfl⟩ := h
  have hnumbers := insertRelease_numbers hins
  refine ⟨⟨fun _ => ?_, fun appId => ⟨_, hnumbers appId⟩⟩, fun k hk => ?_⟩
  · have hi₁ : Numbered db₁ := by
      refine hi.insert hins rfl ?_ ?_
      · exact hb.1
      · exact hb.2
    exact ⟨hi₁.below, hi₁.numbers⟩
  · have hsame : releaseNumbers db₁ k = releaseNumbers db k := by
      refine (hnumbers k).trans ?_
      rw [if_neg fun he => hk he.symm, List.append_nil]
    exact congrArg (fun numbers => numbers.max?.getD 0 + 1) hsame

lemma NumberStep.trans {db₁ : Db} (h : NumberStep db db₁) (h' : NumberStep db₁ db') : NumberStep db db' where
  numbered hi := h'.numbered (h.numbered hi)
  grows appId := by
    obtain ⟨new, hnew⟩ := h.grows appId
    obtain ⟨new', hnew'⟩ := h'.grows appId
    exact ⟨new ++ new', by rw [hnew', hnew, List.append_assoc]⟩

lemma commitWebhook_step {plan : WebhookPlan} (hi : Numbered db) (hp : PlanOK db plan)
    (h : commitWebhook db plan = .ok db') : NumberStep db db' := by
  unfold commitWebhook at h
  obtain ⟨-, hnumbers⟩ := hp
  generalize plan.builds = builds at h hnumbers
  induction builds generalizing db with
  | nil =>
    rw [List.foldlM_nil, pure_eq_ok] at h
    exact .same (by rw [h]) (by rw [h])
  | cons b builds ih =>
    rw [List.foldlM_cons, bind_eq_ok] at h
    obtain ⟨db₁, hb, hrest⟩ := h
    obtain ⟨hstep, -⟩ := insertPlanned_step hi (hnumbers b List.mem_cons_self) hb
    refine hstep.trans (ih (hstep.numbered hi) hrest fun c hc => ?_)
    obtain ⟨hpos, hle⟩ := hnumbers c (List.mem_cons_of_mem b hc)
    exact ⟨hpos, hle.trans (nextReleaseNumber_mono hi hstep c.app.id)⟩

lemma insertPlanned_ok {plan : WebhookPlan} {b : PlannedBuild} (hfits : plan.fitsColumns = true) (hi : Numbered db)
    (hnext : b.releaseNumber = nextReleaseNumber db b.app.id) : ∃ db', insertPlanned plan db b = .ok db' := by
  obtain ⟨db₁, h₁⟩ := insertRelease_ok (r := pendingRelease db b.app plan.repositoryId b.releaseNumber b.config
    (some plan.commitSha) plan.branch) hi.below rfl (hi.next_notMem hnext)
  exact ⟨_, by simp only [insertPlanned, hfits, h₁]; rfl⟩

/-- A text that does not fit its column fails at the first release. -/
lemma commitWebhook_overlong (db : Db) {plan : WebhookPlan} (hfits : ¬plan.fitsColumns = true) :
    commitWebhook db plan = .ok db ∨ commitWebhook db plan = .error .dataError := by
  unfold commitWebhook
  cases plan.builds with
  | nil => exact .inl rfl
  | cons b builds =>
    right
    rw [List.foldlM_cons, insertPlanned, ensure, if_neg hfits]
    rfl

/-- A delivery whose numbers are still the next ones does not collide. -/
lemma commitWebhook_ok {plan : WebhookPlan} (hfits : plan.fitsColumns = true) (hi : Numbered db) (hp : PlanOK db plan)
    (hnext : ∀ b ∈ plan.builds, b.releaseNumber = nextReleaseNumber db b.app.id) :
    ∃ db', commitWebhook db plan = .ok db' := by
  unfold commitWebhook
  obtain ⟨hdistinct, -⟩ := hp
  generalize plan.builds = builds at hdistinct hnext
  induction builds generalizing db with
  | nil => exact ⟨db, rfl⟩
  | cons b builds ih =>
    have hbound := hnext b List.mem_cons_self
    obtain ⟨hnotin, hdistinct⟩ := List.nodup_cons.mp hdistinct
    obtain ⟨db₁, hb⟩ := insertPlanned_ok hfits hi hbound
    obtain ⟨hstep, hkeep⟩ := insertPlanned_step hi ⟨hbound ▸ Nat.le_add_left _ _, hbound.le⟩ hb
    obtain ⟨db', hrest⟩ := ih (hstep.numbered hi) hdistinct fun c hc => by
      have hne : c.app.id ≠ b.app.id := fun he => hnotin (List.mem_map.mpr ⟨c, hc, he⟩)
      rw [hkeep _ hne]
      exact hnext c (List.mem_cons_of_mem b hc)
    exact ⟨db', by rw [List.foldlM_cons, hb]; exact hrest⟩

/-! ### Steps -/

lemma acceptRelease_numbers {app : Application} {digest : String} {config : ReleaseConfig}
    {rollbackOf : Option Uuid} (h : acceptRelease cfg db app digest config rollbackOf = .ok db') :
    NumberStep db db' := by
  unfold acceptRelease at h
  simp only [bind_eq_ok, orError_eq_ok, pure_eq_ok] at h
  obtain ⟨db₁, hq, db₂, hins, rfl⟩ := h
  refine .accept hq ?_ ?_ hins ?_ ?_ ?_ ?_ <;> rfl

lemma triggerBuild_numbers {appId : Uuid} {payload : TriggerBuildRequest}
    (h : triggerBuild cfg db appId payload = .ok db') : NumberStep db db' := by
  unfold triggerBuild at h
  simp only [bind_eq_ok, orError_eq_ok, pure_eq_ok] at h
  obtain ⟨app, happ, repo, -, -, -, db₁, hq, db₂, hins, rfl⟩ := h
  have hid : app.id = appId := Table.key_of_get happ
  have hnum : nextReleaseNumber db₁ appId = nextReleaseNumber db₁ app.id := by rw [hid]
  refine .accept hq ?_ ?_ hins ?_ hnum ?_ ?_ <;> rfl

lemma serviceStep_numbers {c c' : ServiceClients} {b : ServiceAction} (hi : Numbered db)
    (hplans : ∀ plan ∈ c.webhooks, PlanOK db plan) (h : serviceStep cfg db c b = some (db', c')) :
    NumberStep db db' := by
  cases b with
  | deployRelease appId payload =>
    obtain ⟨app, -, hacc⟩ := deployRelease_inv (commit_inv h).1
    exact acceptRelease_numbers hacc
  | rollbackRelease appId target =>
    obtain ⟨app, t, -, -, hacc⟩ := rollbackRelease_inv (commit_inv h).1
    exact acceptRelease_numbers hacc
  | triggerBuild app payload => exact triggerBuild_numbers (commit_inv h).1
  | commitWebhook plan =>
    obtain ⟨hmem, hdb, -⟩ := held_commit_inv h
    exact commitWebhook_step hi (hplans plan hmem) hdb
  | supersedeReleases =>
    cases h
    exact .update (by intro _; rfl) rfl (fun _ => rfl) (fun _ => rfl) rfl
  | claimNextServiceRelease workerId lease wss locked =>
    obtain ⟨wl, hdb, -⟩ := claimNextServiceRelease_step h
    obtain ⟨i, r, -, -, -, -, -, -, -, rfl⟩ := claimNextServiceRelease_inv hdb
    exact .update (by intro _; rfl) rfl (fun _ => rfl) (fun _ => rfl) rfl
  | markReleaseHealthy wl uid =>
    obtain ⟨becameCurrent, -, hdb, -⟩ := markReleaseHealthy_step h
    obtain ⟨i, apps, -, -, -, rfl, -⟩ := markReleaseHealthy_inv hdb
    exact .update (by intro _; rfl) rfl (fun _ => rfl) (fun _ => rfl) rfl
  | markReleaseFailed wl reason =>
    obtain ⟨i, -, -, -, rfl⟩ := markReleaseFailed_inv (held_commit_inv h).2.1
    exact .update (by intro _; rfl) rfl (fun _ => rfl) (fun _ => rfl) rfl
  | claimNextBuildRelease wss locked =>
    obtain ⟨task, hdb, -⟩ := claimNextBuildRelease_step h
    obtain ⟨r, -, -, -, rfl⟩ := claimNextBuildRelease_inv hdb
    exact .update (by intro _; rfl) rfl (fun _ => rfl) (fun _ => rfl) rfl
  | markBuildSucceeded task digest =>
    obtain ⟨r, events, -, -, rfl⟩ := markBuildSucceeded_inv (held_commit_inv h).2.1
    exact .update (by intro _; rfl) rfl (fun _ => rfl) (fun _ => rfl) rfl
  | markBuildFailed task reason =>
    obtain ⟨r, events, -, -, rfl⟩ := markBuildFailed_inv (held_commit_inv h).2.1
    exact .update (by intro _; rfl) rfl (fun _ => rfl) (fun _ => rfl) rfl
  | _ => exact .same ((serviceStep_frame h).releases (by simp [ServiceAction.writes])) (serviceStep_frame h).nextUuid

structure NumberInv (w : World) : Prop where
  world : WorldOK w
  numbered : Numbered w.db
  plans : ∀ plan ∈ w.services.webhooks, PlanOK w.db plan

lemma NumberInv.number_step {a : Action} (hi : NumberInv w) (h : (system cfg).step w a = some w') :
    NumberStep w.db w'.db := by
  rcases step_cases h with ⟨d, rfl, rfl⟩ | ⟨b, db', c', rfl, hjob, rfl⟩ | ⟨b, db', c', rfl, hserv, rfl⟩
  · exact .same rfl le_rfl
  · exact .same (congrArg (fun frame => frame.2.2.1) (jobStep_services hjob)) (jobStep_frame hjob).nextUuid
  · exact serviceStep_numbers hi.numbered hi.plans hserv

/-- Plans are kept, and only a read adds one. -/
lemma serviceStep_webhooks {c c' : ServiceClients} {b : ServiceAction} (h : serviceStep cfg db c b = some (db', c')) :
    ∃ new, c'.webhooks = c.webhooks ++ new ∧
      ∀ plan ∈ new, ∃ repositoryId sha branch, readWebhook db' repositoryId sha branch = .ok plan := by
  have hsame : c'.webhooks = c.webhooks → ∃ new, c'.webhooks = c.webhooks ++ new ∧
      ∀ plan ∈ new, ∃ repositoryId sha branch, readWebhook db' repositoryId sha branch = .ok plan :=
    fun he => ⟨[], by simp [he], by simp⟩
  cases b with
  | readWebhook repo sha branch =>
    obtain ⟨plan, hread, rfl, rfl⟩ := readWebhook_step h
    exact ⟨[plan], rfl, by simpa using ⟨_, _, _, hread⟩⟩
  | selectUnadmittedReleases limit => cases h; exact hsame rfl
  | claimNextServiceRelease workerId lease wss locked =>
    obtain ⟨wl, -, rfl⟩ := claimNextServiceRelease_step h
    exact hsame rfl
  | markReleaseHealthy wl uid =>
    obtain ⟨becameCurrent, -, -, rfl⟩ := markReleaseHealthy_step h
    exact hsame rfl
  | claimNextBuildRelease wss locked =>
    obtain ⟨task, -, rfl⟩ := claimNextBuildRelease_step h
    exact hsame rfl
  | _ => exact hsame (by rw [serviceStep_sameClients h rfl])

lemma step_webhooks {a : Action} (h : (system cfg).step w a = some w') :
    ∃ new, w'.services.webhooks = w.services.webhooks ++ new ∧
      ∀ plan ∈ new, ∃ repositoryId sha branch, readWebhook w'.db repositoryId sha branch = .ok plan := by
  rcases step_cases h with ⟨d, rfl, rfl⟩ | ⟨b, db', c', rfl, hjob, rfl⟩ | ⟨b, db', c', rfl, hserv, rfl⟩
  · exact ⟨[], by simp, by simp⟩
  · exact ⟨[], by simp, by simp⟩
  · exact serviceStep_webhooks hserv

lemma NumberInv.step {a : Action} (hi : NumberInv w) (h : (system cfg).step w a = some w') : NumberInv w' := by
  have hstep := hi.number_step h
  refine ⟨hi.world.step h, hstep.numbered hi.numbered, fun plan hplan => ?_⟩
  obtain ⟨new, hnew, hread⟩ := step_webhooks h
  rw [hnew] at hplan
  rcases List.mem_append.mp hplan with hold | hadded
  · exact (hi.plans plan hold).mono hi.numbered hstep
  · obtain ⟨_, _, _, hok⟩ := hread plan hadded
    exact readWebhook_plan hok

lemma reach_numberInv (h : (system cfg).Reachable w) : NumberInv w := by
  have hinit : NumberInv World.init :=
    ⟨worldOK_init, ⟨Table.below_empty, fun _ => sequential_nil⟩, by rintro plan ⟨⟩⟩
  exact System.Reach.invariant hinit (fun _ _ _ hi _ hstep => hi.step hstep) h

/-- The release numbers of an application are `1, …, n`, and later releases get the next ones; the requests that hold
its row lock never end in an integrity error, nor does a push delivery whose numbers are still the next ones. -/
theorem release_numbering (cfg : Settings) (h : (system cfg).Reachable w) :
    (∀ appId, Sequential (releaseNumbers w.db appId)) ∧
    (∀ appId a w', (system cfg).step w a = some w' →
      ∃ new, releaseNumbers w'.db appId = releaseNumbers w.db appId ++ new ∧
        Sequential (releaseNumbers w'.db appId)) ∧
    (∀ appId payload, deployRelease cfg w.db appId payload ≠ .error .integrity) ∧
    (∀ appId target, rollbackRelease cfg w.db appId target ≠ .error .integrity) ∧
    (∀ appId payload, triggerBuild cfg w.db appId payload ≠ .error .integrity) ∧
    (∀ plan ∈ w.services.webhooks, (∀ b ∈ plan.builds, b.releaseNumber = nextReleaseNumber w.db b.app.id) →
      commitWebhook w.db plan ≠ .error .integrity) := by
  have hi := reach_numberInv h
  have hfresh := hi.world.fresh.reservations
  refine ⟨hi.numbered.numbers, fun appId a w' hstep => ?_, fun _ _ => deployRelease_ne_integrity hi.numbered hfresh,
    fun _ _ => rollbackRelease_ne_integrity hi.numbered hfresh,
    fun _ _ => triggerBuild_ne_integrity hi.numbered hfresh,
    fun plan hplan hnext => ?_⟩
  · obtain ⟨new, hnew⟩ := (hi.number_step hstep).grows appId
    exact ⟨new, hnew, (hi.step hstep).numbered.numbers appId⟩
  · by_cases hfits : plan.fitsColumns = true
    · obtain ⟨db', hok⟩ := commitWebhook_ok hfits hi.numbered (hi.plans plan hplan) hnext
      rw [hok]
      exact fun he => nomatch he
    · rcases commitWebhook_overlong w.db hfits with hok | herr
      · rw [hok]
        exact fun he => nomatch he
      · rw [herr]
        exact fun he => nomatch he

/-- Application `1` builds the branch `main` of repository `0`, and a push delivery has read its release numbers. -/
def pushRead : List Action :=
  [.service (.createRepository 100), .service (.createApplication 100 ⟨"web", some 0, none⟩),
    .service (.readWebhook 0 "c0ffee1" "main")]

def pushPlan : WebhookPlan :=
  ⟨0, "c0ffee1", "main", [⟨⟨1, 100, "web", 1, none, some 0, some "main", 0⟩, 1, defaultReleaseConfig⟩]⟩

def pushRun : (system Settings.default).FreeRun where
  labels := pushRead
  executes := by decide +kernel

theorem release_numbering_push : ∃ w, (system Settings.default).Reachable w ∧ pushPlan ∈ w.services.webhooks ∧
    (∀ b ∈ pushPlan.builds, b.releaseNumber = nextReleaseNumber w.db b.app.id) ∧
    commitWebhook w.db pushPlan ≠ .error .integrity := by
  have hmem : pushPlan ∈ pushRun.final.services.webhooks := by decide +kernel
  have hnext : ∀ b ∈ pushPlan.builds, b.releaseNumber = nextReleaseNumber pushRun.final.db b.app.id := by
    decide +kernel
  exact ⟨_, pushRun.reachable, hmem, hnext,
    (release_numbering Settings.default pushRun.reachable).2.2.2.2.2 pushPlan hmem hnext⟩

/-- The application is deployed before the delivery commits. -/
def pushOvertaken : World :=
  ((system Settings.default).step pushRun.final
    (.service (.deployRelease 1 ⟨"quay.io/web", defaultReleaseConfig⟩))).get (by decide +kernel)

/-- The delivery could have committed as it was read, and a deployment in between makes it end in the
integrity error. -/
theorem push_collides_with_deploy : ∃ w w', (system Settings.default).Reachable w ∧
    pushPlan ∈ w.services.webhooks ∧ errorOf (commitWebhook w.db pushPlan) = none ∧
    (system Settings.default).step w (.service (.deployRelease 1 ⟨"quay.io/web", defaultReleaseConfig⟩)) = some w' ∧
    pushPlan ∈ w'.services.webhooks ∧ commitWebhook w'.db pushPlan = .error .integrity := by
  refine ⟨_, pushOvertaken, pushRun.reachable, by decide +kernel, by decide +kernel, (Option.some_get _).symm,
    by decide +kernel, errorOf_eq_some.mp (by decide +kernel)⟩

end HamiCloud.Proofs
