import HamiCloud.Protocol.Serving
import HamiCloud.Proofs.Generations

/-!
# The serving release in runs of the system

The current release of an application is `HEALTHY`, and the latest deployable release, once `HEALTHY`, is
the current one, provided that no transaction bumps the generation of an application past its latest
release while that one is at a point of its rollout where the bump does harm. A build of an older
release that succeeds late, or a rollback to a release without an image, is such a transaction.
-/

namespace HamiCloud.Proofs

open Library

variable {cfg : Settings} {w w' : World} {a : Action}

/-- A release that has no image yet has no intent. -/
lemma unbuilt_no_intent (hr : (system cfg).Reachable w) {k : Uuid} {r : Release} (hk : w.db.releases.get k = some r)
    (hst : r.status = .requested ∨ r.status = .building) (i : ExecutionIntent)
    (hi : (releaseView w.db).intent i.id = some i) : i.resourceId ≠ r.id := by
  intro hres
  have hw := reach_ok hr
  have hgen := reach_generations hr
  have hstamp := hgen.intent hi
  rw [hres, hw.releases.releaseKey hk] at hstamp
  obtain ⟨-, hreq, hbld⟩ := hgen.not_built hw.releases hstamp hk
  exact hst.elim hreq hbld

/-! ### The condition -/

/-- `IMAGE_READY`, and returned by some scan. -/
def waiting (w : World) (r : Release) : Bool :=
  r.status = .imageReady && w.services.unadmitted.any (fun u => u.releaseId = r.id)

/-- Waiting for an executor, or `DEPLOYING`. -/
def rollingOut (w : World) (r : Release) : Bool := waiting w r || r.status = .deploying

/-- The action bumps the generation of the application of a release, but not for a newer release: for one without an
image, or for an older one whose build succeeds. -/
def bumpsPast (db : Db) (r : Release) : Action → Bool
  | .service (.deployRelease appId payload) => r.applicationId = appId && payload.imageDigest = "pending"
  | .service (.rollbackRelease appId targetReleaseId) =>
    r.applicationId = appId && (db.releases.get targetReleaseId).any fun t => !t.deployable
  | .service (.markBuildSucceeded task imageDigest) =>
    (db.releases.get task.releaseId).any fun t =>
      r.applicationId = t.applicationId && (imageDigest = "pending" || t.releaseNumber < r.releaseNumber)
  | _ => false

/-- The action does not bump the generation of an application past its latest release if that one has property `p`. -/
def spares (p : World → Release → Bool) (w : World) (a : Action) : Bool :=
  w.db.releases.rows.all fun r =>
    !(p w r && maxDeployable w.db.releases r.applicationId = some r.releaseNumber && bumpsPast w.db r a)

lemma maxDeployable_of_latest {db : Db} {k : Uuid} {r : Release} (h : (releaseView db).Latest k)
    (hr : db.releases.get k = some r) :
    maxDeployable db.releases r.applicationId = some r.releaseNumber := by
  obtain ⟨s, hs, hd, hmax⟩ := h
  obtain rfl : r = s := Option.some.inj (hr.symm.trans hs)
  exact maxDeployable_eq_some.mpr ⟨⟨k, r, hr, rfl, hd, rfl⟩, hmax⟩

/-- A release that is the latest one after a step, and was not being built before it, was the latest one. -/
lemma latest_before {v v' : ReleaseView} {now : Time} {e : ReleaseEvent} (hstep : ReleaseStep now v e v')
    (hwf : ReleaseWF v) {k : Uuid} {r : Release} (hr : v.release k = some r) (hbuilding : r.status ≠ .building)
    (hl : v'.Latest k) : v.Latest k := by
  obtain ⟨r', hr', hd', hmax⟩ := hl
  obtain ⟨s, hs, hch⟩ := hstep.release_row hr
  obtain rfl : s = r' := Option.some.inj (hs.symm.trans hr')
  obtain ⟨-, happ, -, hnum, -⟩ := Release.spec_eq.mp hch.spec
  have himage : s.imageDigest = r.imageDigest := hch.image.resolve_right fun h => hbuilding h.1
  refine ⟨r, hr, by simpa [Release.deployable, himage] using hd', fun k' t ht hta htd => ?_⟩
  obtain ⟨t', ht', hspec, htd'⟩ := hstep.deployable_row hwf ht htd
  obtain ⟨-, hta', -, htn, -⟩ := Release.spec_eq.mp hspec
  rw [← htn, ← hnum]
  exact hmax k' t' ht' (hta'.trans (hta.trans happ.symm)) htd'

/-- An accepted release has the highest number: an older one stays the latest only if the new one has no image. -/
lemma acceptRelease_latest {db db' : Db} {app : Application} {digest : String} {config : ReleaseConfig}
    {rollbackOf : Option Uuid} (h : acceptRelease cfg db app digest config rollbackOf = .ok db') {k : Uuid} {r : Release}
    (hr : db.releases.get k = some r) (happ : r.applicationId = app.id) (hl : (releaseView db').Latest k) :
    digest = "pending" := by
  obtain ⟨db₁, s, releases, events, -, hsa, -, rfl, -, hnum, hins, rfl⟩ := acceptRelease_inv h
  obtain ⟨r', hr', -, hmax⟩ := hl
  have hne : k ≠ s.id := by
    rintro rfl
    rw [Table.fresh_of_insert hins] at hr
    cases hr
  have hget : releases.get k = some r := (Table.get_insert hins k).trans (by rw [if_neg hne, hr])
  obtain rfl : r = r' := Option.some.inj (hget.symm.trans hr')
  by_contra himage
  have hnew : releases.get s.id = some s := (Table.get_insert hins s.id).trans (if_pos rfl)
  have hle := hmax s.id s hnew (hsa.trans happ.symm) (by simpa [Release.deployable] using himage)
  have hlt := hnum k r hr happ
  omega

/-- A build that leaves another release the latest one is the build of an older release, or has no image. -/
lemma markBuildSucceeded_latest {db db' : Db} {releaseId : Uuid} {digest : String}
    (h : markBuildSucceeded db releaseId digest = .ok db') (hwf : ReleaseWF (releaseView db)) {k : Uuid} {r t : Release}
    (hr : db.releases.get k = some r) (hbuilding : r.status ≠ .building) (ht : db.releases.get releaseId = some t)
    (happ : r.applicationId = t.applicationId) (hl : (releaseView db').Latest k) :
    digest = "pending" ∨ t.releaseNumber < r.releaseNumber := by
  obtain ⟨t', events, ht', hst, rfl⟩ := markBuildSucceeded_inv h
  obtain rfl : t = t' := Option.some.inj (ht.symm.trans ht')
  have hne : k ≠ releaseId := by
    rintro rfl
    exact hbuilding (Option.some.inj (hr.symm.trans ht) ▸ hst)
  obtain ⟨r', hr', -, hmax⟩ := hl
  have hget : db.releases.get k = some r' := (Table.get_set_of_ne hne).symm.trans hr'
  obtain rfl : r = r' := Option.some.inj (hr.symm.trans hget)
  refine or_iff_not_imp_left.mpr fun hdigest => ?_
  have hle := hmax releaseId
    { t with status := .imageReady, imageDigest := digest, statusReason := none, updatedAt := db.now }
    (Table.get_set_self ht) happ.symm (by simpa [Release.deployable] using hdigest)
  exact lt_of_le_of_ne hle fun he => hne (hwf.numberUnique hr ht happ he.symm)

section Undisturbed

variable {db db' : Db} {P : Uuid → Release → Prop}

lemma undisturbed_accept {app : Application} {digest : String} {config : ReleaseConfig} {rollbackOf : Option Uuid}
    (h : acceptRelease cfg db app digest config rollbackOf = .ok db')
    (hpast : ∀ k r, db.releases.get k = some r → P k r → (releaseView db').Latest k → r.applicationId = app.id →
      digest ≠ "pending") : Undisturbed P (releaseView db) (releaseView db') := by
  intro k r a a' hr hP hl ha ha'
  by_cases hid : r.applicationId = app.id
  · exact absurd (acceptRelease_latest h hr hid hl) (hpast k r hr hP hl hid)
  · obtain ⟨db₁, s, releases, events, -, -, -, -, -, -, -, rfl⟩ := acceptRelease_inv h
    have hsame : db.apps.get r.applicationId = some a' := (Table.get_set_of_ne hid).symm.trans ha'
    rw [Option.some.inj (hsame.symm.trans ha)]

lemma undisturbed_built {releaseId : Uuid} {digest : String} (h : markBuildSucceeded db releaseId digest = .ok db')
    (hwf : ReleaseWF (releaseView db)) (hP : ∀ k r, P k r → r.status ≠ .building)
    (hpast : ∀ k r t, db.releases.get k = some r → P k r → (releaseView db').Latest k →
      db.releases.get releaseId = some t → r.applicationId = t.applicationId →
      ¬(digest = "pending" ∨ t.releaseNumber < r.releaseNumber)) :
    Undisturbed P (releaseView db) (releaseView db') := by
  intro k r a a' hr hPr hl ha ha'
  obtain ⟨t, events, ht, -, hcommit⟩ := markBuildSucceeded_inv h
  by_cases hid : r.applicationId = t.applicationId
  · exact absurd (markBuildSucceeded_latest h hwf hr (hP k r hPr) ht hid hl) (hpast k r t hr hPr hl ht hid)
  · rw [hcommit] at ha'
    have hsame : db.apps.get r.applicationId = some a' := (Table.get_set_of_ne hid).symm.trans ha'
    rw [Option.some.inj (hsame.symm.trans ha)]

end Undisturbed

lemma undisturbed_of_spares {p : World → Release → Bool} {P : Uuid → Release → Prop} (hw : WorldOK w)
    (hstep : (system cfg).step w a = some w') (hspare : spares p w a = true)
    (hp : ∀ k r, w.db.releases.get k = some r → P k r → p w r = true) (hP : ∀ k r, P k r → r.status ≠ .building) :
    Undisturbed P (releaseView w.db) (releaseView w'.db) := by
  have hrun := service_side hw hstep
  have hpast : Action.releaseEvent a ≠ .request → ∀ k r, w.db.releases.get k = some r → P k r →
      (releaseView w'.db).Latest k → bumpsPast w.db r a = false := by
    intro he k r hr hPr hl
    have hbefore := latest_before (hrun.single he) hw.releases hr (hP k r hPr) hl
    have hrow := List.all_eq_true.mp hspare r (Table.mem_of_get hr)
    simpa [hp k r hr hPr, maxDeployable_of_latest hbefore hr] using hrow
  rcases step_cases hstep with ⟨d, rfl, rfl⟩ | ⟨b, db', c', rfl, hjob, rfl⟩ | ⟨b, db', c', rfl, hserv, rfl⟩
  · exact hrun.undisturbed (by simp [Action.releaseEvent]) (by simp [Action.releaseEvent])
  · exact hrun.undisturbed (by simp [Action.releaseEvent]) (by simp [Action.releaseEvent])
  · cases b with
    | deployRelease appId payload =>
      obtain ⟨app, happ, hacc⟩ := deployRelease_inv (commit_inv hserv).1
      obtain rfl : app.id = appId := Table.key_of_get happ
      refine undisturbed_accept hacc fun k r hr hPr hl hid => ?_
      simpa [bumpsPast, hid] using hpast (by simp [Action.releaseEvent, releaseEvent]) k r hr hPr hl
    | rollbackRelease appId targetReleaseId =>
      obtain ⟨app, target, happ, htarget, hacc⟩ := rollbackRelease_inv (commit_inv hserv).1
      obtain rfl : app.id = appId := Table.key_of_get happ
      refine undisturbed_accept hacc fun k r hr hPr hl hid => ?_
      simpa [bumpsPast, hid, htarget, Release.deployable] using
        hpast (by simp [Action.releaseEvent, releaseEvent]) k r hr hPr hl
    | markBuildSucceeded task digest =>
      refine undisturbed_built (held_commit_inv hserv).2.1 hw.releases hP fun k r t hr hPr hl ht hid => ?_
      simpa [bumpsPast, ht, hid] using hpast (by simp [Action.releaseEvent, releaseEvent]) k r hr hPr hl
    | _ =>
      exact hrun.undisturbed (by simp [Action.releaseEvent, releaseEvent])
        (by simp [Action.releaseEvent, releaseEvent])

lemma waiting_of_stamped {k : Uuid} {r : Release} (hk : w.db.releases.get k = some r)
    (h : Waiting (Stamped w.services) k r) : waiting w r = true := by
  obtain ⟨hst, g, u, hu, hid, -⟩ := h
  simp only [waiting, hst, decide_true, Bool.true_and, List.any_eq_true, decide_eq_true_eq]
  exact ⟨u, hu, hid.trans (Table.key_of_get hk).symm⟩

lemma rollingOut_of_stamped {k : Uuid} {r : Release} (hk : w.db.releases.get k = some r)
    (h : RollingOut (Stamped w.services) k r) : rollingOut w r = true := by
  rcases h with h | h
  · simp [rollingOut, waiting_of_stamped hk h]
  · simp [rollingOut, h]

/-! ### The invariants in runs -/

/-- What a scan newly hands out is ready for deployment. -/
lemma stamped_ready {db : Db} {c : ServiceClients} {limit : Nat} (hwf : ReleaseWF (releaseView db)) {k : Uuid}
    {g : Nat} (h : ∃ u ∈ c.unadmitted ++ selectUnadmittedReleases db limit,
      u.releaseId = k ∧ u.desiredGeneration = g) :
    Stamped c k g ∨ ∃ r a, (releaseView db).release k = some r ∧
      (releaseView db).app r.applicationId = some a ∧ g = a.desiredGeneration ∧ r.status = .imageReady ∧
      (releaseView db).Latest k := by
  rcases stamped_scan h with hold | ⟨r, a, hr, ha, hg, hst, hl⟩
  · exact .inl hold
  · refine .inr ⟨r, a, hr, ha, hg, hst.resolve_right fun hreq => ?_, hl⟩
    obtain ⟨s, hs, hd, -⟩ := hl
    obtain rfl : r = s := Option.some.inj (hr.symm.trans hs)
    rw [hwf.unbuilt hs (.inl hreq)] at hd
    cases hd

/-- An invariant of the transactions and the scans of the service side, in a step of the system. -/
lemma step_stamped {P : ReleaseView → (Uuid → Nat → Prop) → Prop} (hw : WorldOK w)
    (hstep : (system cfg).step w a = some w')
    (hrun : ∀ {now e v'}, ReleaseRun now (releaseView w.db) e v' → v' = releaseView w'.db →
      (∀ k i, (releaseView w.db).intent k = none → v'.intent k = some i →
        Stamped w.services i.resourceId i.targetGeneration) → P v' (Stamped w.services))
    (hscan : ∀ stamp, (∀ k g, stamp k g → Stamped w.services k g ∨
      ∃ r app, (releaseView w.db).release k = some r ∧ (releaseView w.db).app r.applicationId = some app ∧
        g = app.desiredGeneration ∧ r.status = .imageReady ∧ (releaseView w.db).Latest k) →
      P (releaseView w.db) stamp)
    : P (releaseView w'.db) (Stamped w'.services) := by
  have hside := service_side hw hstep
  rcases step_cases hstep with ⟨d, rfl, rfl⟩ | ⟨b, db', c', rfl, hjob, rfl⟩ | ⟨b, db', c', rfl, hserv, rfl⟩
  · exact hscan _ (fun k g hs => .inl hs)
  · rw [releaseView_of_frame (jobStep_services hjob)]
    exact hscan _ (fun k g hs => .inl hs)
  · rcases serviceStep_unadmitted hserv with hun | ⟨limit, rfl, rfl, hun⟩
    · rw [stamped_congr hun]
      exact hrun hside rfl (fun k i => serviceStep_newIntent hw.releases hw.serviceClients hserv)
    · refine hscan _ (fun k g hs => ?_)
      unfold Stamped at hs
      rw [hun] at hs
      exact stamped_ready hw.releases hs

lemma reach_deployments {C : World → Action → Prop} (hC : ∀ w a, C w a → spares waiting w a = true)
    (h : (system cfg).Reach C w) : Deployments (releaseView w.db) (Stamped w.services) := by
  refine (h.invariant (P := fun u => (system cfg).Reachable u ∧
    Deployments (releaseView u.db) (Stamped u.services)) ⟨.refl _, ?_⟩ ?_).2
  · constructor <;> intros <;> simp_all [releaseView, Stamped, system, World.init, Db.empty]
  · rintro u a u' ⟨hu, hdep⟩ hguard hstep
    refine ⟨.tail a hu trivial hstep, ?_⟩
    have hok := reach_ok hu
    have hbump := undisturbed_of_spares hok hstep (hC u a hguard) (fun _ _ => waiting_of_stamped)
      fun _ _ => Waiting.not_building
    refine step_stamped hok hstep ?_ (fun stamp hs => hdep.scan hs)
    rintro now e v' hrun rfl hadm
    exact hdep.run (reach_generations hu) hok.releases hrun hbump hadm

lemma spares_mono {p q : World → Release → Bool} (hpq : ∀ w r, p w r = true → q w r = true)
    (h : spares q w a = true) : spares p w a = true := by
  simp only [spares, List.all_eq_true] at h ⊢
  intro r hr
  cases hp : p w r with
  | false => simp
  | true => simpa [hpq w r hp] using h r hr

lemma reach_serving {C : World → Action → Prop} (hC : ∀ w a, C w a → spares rollingOut w a = true)
    (h : (system cfg).Reach C w) : Serving (releaseView w.db) (Stamped w.services) := by
  have hwait : ∀ w a, C w a → spares waiting w a = true :=
    fun w a hc => spares_mono (fun w r hr => by simp [rollingOut, hr]) (hC w a hc)
  refine (h.invariant (P := fun u => (system cfg).Reach C u ∧
    Serving (releaseView u.db) (Stamped u.services)) ⟨.refl _, ?_⟩ ?_).2
  · constructor <;> intros <;> simp_all [releaseView, Stamped, system, World.init, Db.empty]
  · rintro u a u' ⟨hu, hserv⟩ hguard hstep
    refine ⟨.tail a hu hguard hstep, ?_⟩
    have hok := reach_ok hu
    have hbump := undisturbed_of_spares hok hstep (hC u a hguard) (fun _ _ => rollingOut_of_stamped)
      fun _ _ => RollingOut.not_building
    refine step_stamped hok hstep ?_ (fun stamp hs => hserv.scan hs)
    rintro now e v' hrun rfl hadm
    exact hserv.run (reach_deployments hwait hu) (reach_generations hu) hok.releases hrun hbump hadm

/-! ### The current release is healthy -/

def CurrentHealthy (db : Db) : Prop :=
  ∀ k app k', db.apps.get k = some app → app.currentReleaseId = some k' →
    ∃ r, db.releases.get k' = some r ∧ r.status = .healthy

/-- In every run that bumps no generation while the latest release stays the same and waits, already
scanned, to be claimed, the current release of every application is `HEALTHY`. -/
theorem current_release_healthy (cfg : Settings) {w : World}
    (hr : (system cfg).Reach (fun w a => spares waiting w a = true) w) : CurrentHealthy w.db :=
  fun _ _ _ happ hcur => (reach_deployments (fun _ _ h => h) hr).current happ hcur

/-- A source build is running when the next release is deployed directly and admitted. -/
def lateBuild : List Action :=
  [.service (.createRepository 100), .service (.createApplication 100 ⟨"shop", some 0, none⟩),
    .service (.triggerBuild 1 ⟨some "abc1234", "main", none, none⟩), .service (.claimNextBuildRelease [] []),
    .service (.deployRelease 1 ⟨"quay.io/shop:2", ⟨8080, "/"⟩⟩), .service .supersedeReleases,
    .service (.selectUnadmittedReleases 50),
    .service (.createServiceReleaseIntent ⟨5, 1, 100, 2, "quay.io/shop:2", ⟨8080, "/"⟩, 2⟩)]

/-- The release is claimed and promoted before the late build succeeds. -/
def promotedRun : (system Settings.default).Run (spares rollingOut) where
  labels := lateBuild ++
    [.service (.claimNextServiceRelease "executor-1" (30 * second) [] []),
      .service (.markReleaseHealthy ⟨6, 100, 5, 1, 2, "quay.io/shop:2", 8080, "/", 2, .svc 1 2, 1⟩ "uid-2"),
      .service (.markBuildSucceeded ⟨3, 1, 100, 1, 0, "abc1234", "main"⟩ "sha256:1"),
      .service .supersedeReleases]
  executes := by decide +kernel

theorem current_release_healthy_late_build : ∃ w, (system Settings.default).Reach
      (fun w a => spares waiting w a = true) w ∧
    (w.db.apps.get 1).map (fun app => (app.desiredGeneration, app.currentReleaseId)) = some (3, some 5) ∧
    CurrentHealthy w.db := by
  have hreach : (system Settings.default).Reach (fun w a => spares waiting w a = true)
      promotedRun.final :=
    promotedRun.reach.mono (fun w a h => spares_mono (fun w r hr => by simp [rollingOut, hr]) h)
  exact ⟨_, hreach, by decide +kernel, current_release_healthy Settings.default hreach⟩

/-- The late build succeeds while the release waits: the release is admitted again for the bumped generation,
promoted by its second intent, and then marked as failed by the first. -/
def overwrittenRun : (system Settings.default).FreeRun where
  labels := lateBuild ++
    [.service (.markBuildSucceeded ⟨3, 1, 100, 1, 0, "abc1234", "main"⟩ "sha256:1"),
      .service .supersedeReleases, .service (.selectUnadmittedReleases 50),
      .service (.createServiceReleaseIntent ⟨5, 1, 100, 2, "quay.io/shop:2", ⟨8080, "/"⟩, 3⟩),
      .service (.claimNextServiceRelease "executor-1" (30 * second) [] []),
      .service (.claimNextServiceRelease "executor-2" (30 * second) [] []),
      .service (.markReleaseHealthy ⟨7, 100, 5, 1, 2, "quay.io/shop:2", 8080, "/", 3, .svc 1 3, 1⟩ "uid-3"),
      .service (.markReleaseFailed ⟨6, 100, 5, 1, 2, "quay.io/shop:2", 8080, "/", 2, .svc 1 2, 1⟩
        "readiness timeout")]
  executes := by decide +kernel

theorem overwritten_current_release_failed : ∃ w, (system Settings.default).Reachable w ∧
    ¬CurrentHealthy w.db := by
  refine ⟨_, overwrittenRun.reachable, fun hhealthy => ?_⟩
  have happ : (overwrittenRun.final.db.apps.get 1).map Application.currentReleaseId = some (some 5) := by
    decide +kernel
  have hrel : (overwrittenRun.final.db.releases.get 5).map Release.status = some .deployFailed := by
    decide +kernel
  obtain ⟨app, happ, hcur⟩ := Option.map_eq_some_iff.mp happ
  obtain ⟨r, hr, hst⟩ := hhealthy 1 app 5 happ hcur
  rw [hr, Option.map_some, hst] at hrel
  cases hrel

/-! ### The newest healthy release is current -/

/-- The deployable release with the highest number, once `HEALTHY`, is the current one. -/
def ServesNewest (db : Db) (appId : Uuid) : Prop :=
  ∀ k r, db.releases.get k = some r → r.applicationId = appId → r.deployable = true →
    maxDeployable db.releases appId = some r.releaseNumber → r.status = .healthy →
    (db.apps.get appId).map Application.currentReleaseId = some (some k)

/-- Nothing is left to do for an application: no live intent, no release on its way, and a scan of the
scheduler would admit nothing. -/
def Quiescent (db : Db) (appId : Uuid) : Prop :=
  (∀ r ∈ db.releases.rows, r.applicationId = appId →
    r.status ≠ .requested ∧ r.status ≠ .building ∧ r.status ≠ .deploying ∧
    ∀ i ∈ db.releaseIntents.rows, i.resourceId = r.id → i.status ≠ .pending ∧ i.status ≠ .claimed) ∧
  ∀ u ∈ selectUnadmittedReleases (supersedeReleases db) db.releases.rows.length, u.applicationId ≠ appId

instance (db : Db) (appId : Uuid) : Decidable (Quiescent db appId) :=
  inferInstanceAs (Decidable ((∀ r ∈ db.releases.rows, _ → _) ∧ ∀ u ∈ selectUnadmittedReleases _ _, _))

/-- In every run that bumps no generation while the latest release stays the same and is being rolled out,
the newest healthy release of every application serves, in quiescent states and in all others. -/
theorem newest_healthy_serves (cfg : Settings) {w : World}
    (hr : (system cfg).Reach (fun w a => spares rollingOut w a = true) w) (appId : Uuid) :
    ServesNewest w.db appId := by
  rintro k r hk rfl hd hmax hst
  obtain ⟨app, happ⟩ := (reach_ok hr).releases.releaseApp hk
  have hl : (releaseView w.db).Latest k := ⟨r, hk, hd, (maxDeployable_eq_some.mp hmax).2⟩
  have hcur := (reach_serving (fun _ _ h => h) hr).healthy hk hst hl happ
  have happ' : w.db.apps.get r.applicationId = some app := happ
  rw [happ', Option.map_some, hcur]

theorem newest_healthy_serves_late_build : ∃ w, (system Settings.default).Reach
      (fun w a => spares rollingOut w a = true) w ∧ Quiescent w.db 1 ∧
    (w.db.releases.get 5).map Release.status = some .healthy ∧ ServesNewest w.db 1 :=
  ⟨_, promotedRun.reach, by decide +kernel, by decide +kernel,
    newest_healthy_serves Settings.default promotedRun.reach 1⟩

/-- The late build succeeds while the release is being deployed: it becomes healthy under a generation that
is no longer desired, and nothing ever promotes it. -/
def unpromotedRun : (system Settings.default).FreeRun where
  labels := lateBuild ++
    [.service (.claimNextServiceRelease "executor-1" (30 * second) [] []),
      .service (.markBuildSucceeded ⟨3, 1, 100, 1, 0, "abc1234", "main"⟩ "sha256:1"),
      .service (.markReleaseHealthy ⟨6, 100, 5, 1, 2, "quay.io/shop:2", 8080, "/", 2, .svc 1 2, 1⟩ "uid-2"),
      .service .supersedeReleases]
  executes := by decide +kernel

theorem late_build_never_promoted : ∃ w, (system Settings.default).Reachable w ∧ Quiescent w.db 1 ∧
    ¬ServesNewest w.db 1 := by
  refine ⟨_, unpromotedRun.reachable, by decide +kernel, fun hserves => ?_⟩
  have hrel : (unpromotedRun.final.db.releases.get 5).map (fun r =>
      (r.applicationId, r.deployable, r.releaseNumber, r.status)) = some (1, true, 2, .healthy) := by
    decide +kernel
  have hmax : maxDeployable unpromotedRun.final.db.releases 1 = some 2 := by decide +kernel
  have hcur : (unpromotedRun.final.db.apps.get 1).map Application.currentReleaseId = some none := by
    decide +kernel
  obtain ⟨r, hr, he⟩ := Option.map_eq_some_iff.mp hrel
  simp only [Prod.mk.injEq] at he
  obtain ⟨happ, hd, hnum, hst⟩ := he
  have hnow := hserves 5 r hr happ hd (by rw [hmax, hnum]) hst
  rw [hcur] at hnow
  cases hnow

end HamiCloud.Proofs
