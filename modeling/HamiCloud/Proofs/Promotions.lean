import HamiCloud.Proofs.Generations

/-!
# The serving release never goes back

The promotions of an application, in the order in which they commit, carry strictly increasing
generations. A promotion is made by an intent that becomes `APPLIED` with it, under the generation the
application then desires; one generation belongs to one release, and a release has one intent for it.
-/

namespace HamiCloud.Proofs

open Library

variable {cfg : Settings} {w w' : World} {a : Action}

/-- The generations promoted for an application so far, in order. -/
def promotedGenerations (w : World) (app : Uuid) : List Nat :=
  (w.services.promotions.filter (fun p => p.applicationId = app)).map Promotion.generation

/-- The intent behind a promotion has been applied. -/
def AppliedFor (v : ReleaseView) (p : Promotion) : Prop :=
  ∃ k i r, v.intent k = some i ∧ i.status = .applied ∧ i.resourceId = p.releaseId ∧
    i.targetGeneration = p.generation ∧ v.release p.releaseId = some r ∧ r.applicationId = p.applicationId

lemma AppliedFor.mono {v v' : ReleaseView} {p : Promotion} (hev : ReleaseEvolves v v') (h : AppliedFor v p) :
    AppliedFor v' p := by
  obtain ⟨k, i, r, hi, hst, hres, hgen, hr, happ⟩ := h
  obtain ⟨i', hi', -, -, hfinal⟩ := hev.intent hi
  obtain ⟨r', hr', hspec⟩ := hev.release hr
  rw [hfinal (by rw [hst]; rfl)] at hi'
  exact ⟨k, i, r', hi', hst, hres, hgen, hr', (Release.spec_eq.mp hspec).2.1.trans happ⟩

structure PromotionsOK (w : World) : Prop where
  applied : ∀ p ∈ w.services.promotions, AppliedFor (releaseView w.db) p
  bounded : ∀ p ∈ w.services.promotions, p.generation ≤ p.desiredGeneration
  increasing : ∀ app, (promotedGenerations w app).Pairwise (· < ·)

/-- What a step does to the history of promotions: nothing, unless it is a `MarkReleaseHealthy` that
returns `becameCurrent = true`. -/
inductive PromotionStep (w : World) (a : Action) (w' : World) : Prop
  | none : w'.services.promotions = w.services.promotions →
      (∀ wl uid, a = .service (.markReleaseHealthy wl uid) →
        markReleaseHealthy w.db wl.intentId wl.releaseId wl.applicationId uid wl.leaseEpoch =
          .ok (false, w'.db)) → PromotionStep w a w'
  | promoted (wl : ClaimedWorkload) (uid : String) (i : ExecutionIntent) (app : Application) :
      a = .service (.markReleaseHealthy wl uid) → wl ∈ w.services.claims →
      markReleaseHealthy w.db wl.intentId wl.releaseId wl.applicationId uid wl.leaseEpoch = .ok (true, w'.db) →
      w.db.releaseIntents.get wl.intentId = some i → w.db.apps.get wl.applicationId = some app →
      i.targetGeneration = app.desiredGeneration →
      w'.services.promotions = w.services.promotions ++
        [⟨wl.applicationId, wl.releaseId, i.targetGeneration, app.desiredGeneration⟩] → PromotionStep w a w'

lemma promotion_step (h : (system cfg).step w a = some w') : PromotionStep w a w' := by
  rcases step_cases h with ⟨d, rfl, rfl⟩ | ⟨b, db', c', rfl, hjob, rfl⟩ | ⟨b, db', c', rfl, hserv, rfl⟩
  · exact .none rfl (by simp)
  · exact .none rfl (by simp)
  · cases b with
    | markReleaseHealthy wl uid =>
      obtain ⟨becameCurrent, hmem, hdb, rfl⟩ := markReleaseHealthy_step hserv
      obtain ⟨i, apps, hi, -, -, -, hcases⟩ := markReleaseHealthy_inv hdb
      rcases hcases with ⟨rfl, app, happ, hgen, -⟩ | ⟨rfl, -, -⟩
      · exact .promoted wl uid i app rfl hmem hdb hi happ hgen.symm (by simp [promotionOf, happ, hi])
      · refine .none (List.append_nil _) ?_
        rintro wl' uid' he
        cases he
        exact hdb
    | readWebhook repo sha branch =>
      obtain ⟨plan, -, -, rfl⟩ := readWebhook_step hserv
      exact .none rfl (by simp)
    | selectUnadmittedReleases limit =>
      cases hserv
      exact .none rfl (by simp)
    | claimNextServiceRelease workerId lease wss locked =>
      obtain ⟨wl, -, rfl⟩ := claimNextServiceRelease_step hserv
      exact .none rfl (by simp)
    | claimNextBuildRelease wss locked =>
      obtain ⟨task, -, rfl⟩ := claimNextBuildRelease_step hserv
      exact .none rfl (by simp)
    | _ => exact .none (by rw [serviceStep_sameClients hserv rfl]) (by simp)

/-- An applied intent of an application is below the generation of a claimed one that the application
desires. -/
lemma lt_of_applied {v : ReleaseView} {stamp : Uuid → Nat → Prop} (hgen : Generations v stamp)
    (hwf : ReleaseWF v) {p : Promotion} (hp : AppliedFor v p) {k : Uuid} {i : ExecutionIntent} {r : Release}
    {app : Application} (hi : v.intent k = some i) (hst : i.status = .claimed)
    (hr : v.release i.resourceId = some r) (happ : v.app r.applicationId = some app)
    (htarget : i.targetGeneration = app.desiredGeneration) (hsame : p.applicationId = r.applicationId) :
    p.generation < i.targetGeneration := by
  obtain ⟨k', i', r', hi', hst', hres', hg', hr', happ'⟩ := hp
  rw [← hres'] at hr'
  have hle : p.generation ≤ i.targetGeneration := by
    rw [← hg', htarget]
    exact hgen.le (hgen.intent hi') hr' (by rw [happ', hsame]; exact happ)
  refine lt_of_le_of_ne hle fun heq => ?_
  -- with equal generations the two intents would be one, both applied and claimed
  have hgeneq : i'.targetGeneration = i.targetGeneration := hg'.trans heq
  have hrel := intent_unique hgen hi' hi hr' hr (happ'.trans hsame) hgeneq
  obtain rfl := hwf.intentUnique hi' hi hrel hgeneq
  obtain rfl : i' = i := Option.some.inj (hi'.symm.trans hi)
  rw [hst] at hst'
  cases hst'

lemma PromotionsOK.step (h : PromotionsOK w) (hw : WorldOK w)
    (hgen : Generations (releaseView w.db) (Stamped w.services)) (hstep : (system cfg).step w a = some w') :
    PromotionsOK w' := by
  have hold : ∀ p ∈ w.services.promotions, AppliedFor (releaseView w'.db) p :=
    fun p hp => (h.applied p hp).mono (service_side hw hstep).evolves
  rcases promotion_step hstep with ⟨hsame, -⟩ | ⟨wl, uid, i, app, rfl, hmem, hdb, hi, happ, htarget, hnew⟩
  · refine ⟨?_, ?_, fun app => ?_⟩
    · rw [hsame]
      exact hold
    · rw [hsame]
      exact h.bounded
    · rw [promotedGenerations, hsame]
      exact h.increasing app
  · obtain ⟨i₁, apps, hi₁, -, hst, hdb', -⟩ := markReleaseHealthy_inv hdb
    obtain rfl : i₁ = i := Option.some.inj (hi₁.symm.trans hi)
    obtain ⟨-, hres, -, r, hr, hrapp⟩ := (hw.serviceClients.claims wl hmem).rows hi
    refine ⟨fun p hp => ?_, fun p hp => ?_, fun app' => ?_⟩
    · rw [hnew] at hp
      rcases List.mem_append.mp hp with hp | hp
      · exact hold p hp
      · rw [List.mem_singleton.mp hp, hdb']
        exact ⟨wl.intentId, _, _, Table.get_set_self hi, rfl, hres, rfl, Table.get_set_self hr, hrapp⟩
    · rw [hnew] at hp
      rcases List.mem_append.mp hp with hp | hp
      · exact h.bounded p hp
      · rw [List.mem_singleton.mp hp]
        exact htarget.le
    · rw [promotedGenerations, hnew]
      by_cases hsame : wl.applicationId = app'
      · subst hsame
        simp only [List.filter_append, List.map_append, decide_true, List.filter_cons_of_pos, List.filter_nil,
          List.map_cons, List.map_nil]
        refine List.pairwise_append.mpr ⟨h.increasing _, List.pairwise_singleton .., ?_⟩
        intro g hg g' hg'
        obtain ⟨p, hp, rfl⟩ := List.mem_map.mp hg
        obtain ⟨hpm, hpa⟩ := List.mem_filter.mp hp
        rw [List.mem_singleton.mp hg']
        exact lt_of_applied hgen hw.releases (h.applied p hpm) hi hst (hres ▸ hr) (hrapp ▸ happ) htarget
          ((of_decide_eq_true hpa).trans hrapp.symm)
      · rw [List.filter_append, List.filter_cons_of_neg (by simpa using hsame), List.filter_nil,
          List.append_nil]
        exact h.increasing app'

lemma reach_promotions {C : World → Action → Prop} (h : (system cfg).Reach C w) : PromotionsOK w := by
  refine (h.invariant (P := fun u => PromotionsOK u ∧ (system cfg).Reachable u) ⟨?_, .refl _⟩ ?_).1
  · constructor <;> simp [promotedGenerations, system, World.init]
  · rintro u b u' ⟨hp, hu⟩ - hstep
    exact ⟨hp.step (reach_ok hu) (reach_generations hu) hstep, .tail b hu trivial hstep⟩

/-- In every run the generations promoted for an application increase strictly, each is at most what the
application desired at that moment, and a promotion is recorded exactly when `MarkReleaseHealthy` returns
`becameCurrent = true`. -/
theorem serving_never_goes_back (cfg : Settings) {w : World} (hr : (system cfg).Reachable w) :
    (∀ app, (promotedGenerations w app).Pairwise (· < ·)) ∧
    (∀ p ∈ w.services.promotions, p.generation ≤ p.desiredGeneration) ∧
    (∀ a w', (system cfg).step w a = some w' → PromotionStep w a w') :=
  ⟨(reach_promotions hr).increasing, (reach_promotions hr).bounded, fun _ _ hstep => promotion_step hstep⟩

/-- Two releases of one application, rolled out one after the other. -/
def rolloutRun : (system Settings.default).FreeRun where
  labels :=
    [.service (.createApplication 100 ⟨"shop", none, none⟩),
      .service (.deployRelease 0 ⟨"quay.io/shop:1", ⟨8080, "/"⟩⟩), .service (.selectUnadmittedReleases 50),
      .service (.createServiceReleaseIntent ⟨2, 0, 100, 1, "quay.io/shop:1", ⟨8080, "/"⟩, 2⟩),
      .service (.claimNextServiceRelease "executor-1" (30 * second) [] []),
      .service (.markReleaseHealthy ⟨3, 100, 2, 0, 1, "quay.io/shop:1", 8080, "/", 2, .svc 0 2, 1⟩ "uid-1"),
      .service (.deployRelease 0 ⟨"quay.io/shop:2", ⟨8080, "/"⟩⟩), .service (.selectUnadmittedReleases 50),
      .service (.createServiceReleaseIntent ⟨5, 0, 100, 2, "quay.io/shop:2", ⟨8080, "/"⟩, 3⟩),
      .service (.claimNextServiceRelease "executor-2" (30 * second) [] []),
      .service (.markReleaseHealthy ⟨6, 100, 5, 0, 2, "quay.io/shop:2", 8080, "/", 3, .svc 0 3, 1⟩ "uid-2")]
  executes := by decide +kernel

theorem serving_never_goes_back_rollouts : ∃ w, (system Settings.default).Reachable w ∧
    promotedGenerations w 0 = [2, 3] ∧ (promotedGenerations w 0).Pairwise (· < ·) :=
  ⟨rolloutRun.final, rolloutRun.reachable, by decide +kernel,
    (serving_never_goes_back Settings.default rolloutRun.reachable).1 0⟩

end HamiCloud.Proofs
