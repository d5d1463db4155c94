import HamiCloud.Proofs.Teardown

/-!
# Cleanup of superseded generations

The cleanup that follows a promotion lists the generations other than its own, and deletes what it has
listed. Promotions increase, so it deletes older generations than the current one unless a newer generation
has been deployed before it lists.
-/

namespace HamiCloud

/-- Every application has the current release that the function gives for it. -/
structure FollowsCurrent (cur : Uuid → Option Uuid) (v : ReleaseView) : Prop where
  current : ∀ {k a}, v.app k = some a → a.currentReleaseId = cur k
  unknown : ∀ {k}, v.app k = none → cur k = none

lemma ReleaseStep.follows {now : Time} {v v' : ReleaseView} {e : ReleaseEvent} {cur : Uuid → Option Uuid}
    (hstep : ReleaseStep now v e v') (he : ∀ k n, e ≠ .healthy k n) (h : FollowsCurrent cur v) :
    FollowsCurrent cur v' := by
  refine ⟨fun {k a'} ha' => ?_, fun {k} hk => h.unknown ?_⟩
  · cases ha : v.app k with
    | none => rw [hstep.new_app ha ha', h.unknown ha]
    | some a =>
      obtain ⟨b, hb, hmove⟩ := hstep.app_move ha
      obtain rfl : b = a' := Option.some.inj (hb.symm.trans ha')
      cases hmove with
      | same _ hcur => rw [hcur, h.current ha]
      | bump _ hcur _ => rw [hcur, h.current ha]
      | promote i _ _ hev => exact absurd hev (he i.id i.leaseEpoch)
  · cases ha : v.app k with
    | none => rfl
    | some a =>
      obtain ⟨b, hb, -⟩ := hstep.app_row ha
      rw [hk] at hb
      cases hb

end HamiCloud

namespace HamiCloud.Proofs

open Library

variable {cfg : Settings} {rc : RunnerConfig} {w w' : World} {a : Action} {c c' : Cloud} {act : CloudAction}

/-! ### The current release -/

def lastPromotion (w : World) (app : Uuid) : Option Promotion :=
  (w.services.promotions.filter fun p => p.applicationId = app).getLast?

def promotedRelease (w : World) (app : Uuid) : Option Uuid := (lastPromotion w app).map Promotion.releaseId

lemma follows_step (h : FollowsCurrent (promotedRelease w) (releaseView w.db)) (hw : WorldOK w)
    (hstep : (system cfg).step w a = some w') : FollowsCurrent (promotedRelease w') (releaseView w'.db) := by
  rcases promotion_step hstep with ⟨hsame, hfalse⟩ | ⟨wl, uid, i, app, rfl, hmem, hdb, hi, happ, -, hnew⟩
  · have hcur : promotedRelease w' = promotedRelease w := by
      funext app
      simp only [promotedRelease, lastPromotion, hsame]
    rw [hcur]
    by_cases hev : ∃ k n, Action.releaseEvent a = .healthy k n
    · obtain ⟨k, n, hev⟩ := hev
      obtain ⟨wl, uid, rfl, -⟩ := releaseEvent_healthy hev
      obtain ⟨i, apps, -, -, -, hdb', hcases⟩ := markReleaseHealthy_inv (hfalse wl uid rfl)
      rcases hcases with ⟨hb, -⟩ | ⟨-, rfl, -⟩
      · cases hb
      · rw [hdb']
        exact ⟨h.current, h.unknown⟩
    · refine (service_side hw hstep).invariant (P := FollowsCurrent (promotedRelease w)) (fun u u' hs => ?_) h
      exact hs.follows (fun k n he => hev ⟨k, n, he⟩)
  · obtain ⟨i₁, apps, -, -, -, hdb', hcases⟩ := markReleaseHealthy_inv hdb
    rcases hcases with ⟨-, app', happ', -, rfl⟩ | ⟨hb, -⟩
    swap
    · cases hb
    have hcur : ∀ k, promotedRelease w' k =
        if wl.applicationId = k then some wl.releaseId else promotedRelease w k := by
      intro k
      simp only [promotedRelease, lastPromotion, hnew, List.filter_append]
      by_cases hk : wl.applicationId = k <;> simp [hk]
    refine ⟨fun {k a'} ha' => ?_, fun {k} hk => ?_⟩
    · rw [hcur]
      have hget : w'.db.apps.get k = some a' := ha'
      rw [hdb', Table.get_set] at hget
      split at hget
      · rename_i hk
        obtain ⟨a₀, -, rfl⟩ := Option.map_eq_some_iff.mp hget
        rw [if_pos hk.symm]
      · rename_i hk
        rw [if_neg (fun he => hk he.symm), h.current hget]
    · have hget : w'.db.apps.get k = none := hk
      rw [hdb', Table.get_set] at hget
      rw [hcur]
      split at hget
      · rw [happ] at hget
        cases hget
      · rename_i hk
        rw [if_neg (fun he => hk he.symm), h.unknown hget]

lemma reach_follows {C : World → Action → Prop} (h : (system cfg).Reach C w) :
    FollowsCurrent (promotedRelease w) (releaseView w.db) := by
  refine (h.invariant (P := fun u => FollowsCurrent (promotedRelease u) (releaseView u.db) ∧ WorldOK u)
    ⟨⟨?_, ?_⟩, worldOK_init⟩ ?_).1
  · intro k a hk
    cases hk
  · intro k _
    rfl
  · rintro u b u' ⟨hu, hok⟩ - hstep
    exact ⟨follows_step hu hok hstep, hok.step hstep⟩

/-- The last promotion of an application has the greatest generation. -/
lemma le_lastPromotion (hp : PromotionsOK w) {app : Uuid} {p : Promotion} (hlast : lastPromotion w app = some p)
    {g : Nat} (hg : g ∈ promotedGenerations w app) : g ≤ p.generation := by
  obtain ⟨ps, hps⟩ := List.getLast?_eq_some_iff.mp hlast
  have hinc := hp.increasing app
  rw [promotedGenerations, hps, List.map_append] at hg hinc
  rcases List.mem_append.mp hg with hg | hg
  · exact ((List.pairwise_append.mp hinc).2.2 g hg p.generation (by simp)).le
  · exact (List.mem_singleton.mp hg).le

/-! ### The cleanup -/

/-- No step of a cleanup deletes a resource of the generation that was promoted last. -/
def KeepsCurrent (cfg : Settings) (rc : RunnerConfig) (c : Cloud) : Prop :=
  ∀ n reply c' wk app p, (cloudSystem cfg rc).step c (.reconcile n reply) = some c' →
    c.workers[n]? = some wk → wk.phase.cleaning = true → lastPromotion c.world app = some p →
    ∀ r ∈ c.cluster.rows, r.applicationId = app → r.generation = p.generation →
    ∃ r' ∈ c'.cluster.rows, r'.key = r.key

/-- When a cleanup lists the resources of one kind, its application has none of a newer generation. -/
def nothingNewer (c : Cloud) : CloudAction → Bool
  | .reconcile n (.ok _) =>
    match c.workers[n]? with
    | some ⟨wl, _, .listSuperseded kind⟩ => c.cluster.rows.all fun r =>
        r.kind ≠ kind || r.applicationId ≠ wl.applicationId || r.generation ≤ wl.targetGeneration
    | _ => true
  | _ => true

/-- What a reconciliation has listed is of an older generation. -/
def ListsOlder (wl : ClaimedWorkload) (p : Phase) : Prop :=
  ∀ name ∈ p.names, ∃ g < wl.targetGeneration, name = .svc wl.applicationId g

lemma supersededNames_older {wl : ClaimedWorkload} {kind : ResourceKind} {name : ResourceName}
    (hlabels : ∀ r ∈ c.cluster.rows, r.name = .svc r.applicationId r.generation)
    (hnewer : ∀ r ∈ c.cluster.rows, r.kind = kind → r.applicationId = wl.applicationId →
      r.generation ≤ wl.targetGeneration)
    (hname : name ∈ supersededNames c.cluster wl kind) :
    ∃ g < wl.targetGeneration, name = .svc wl.applicationId g := by
  obtain ⟨r, hr, rfl⟩ := List.mem_map.mp hname
  obtain ⟨hmem, hsel⟩ := List.mem_filter.mp hr
  simp only [Bool.and_eq_true, decide_eq_true_eq] at hsel
  obtain ⟨⟨hkind, happ⟩, hne⟩ := hsel
  exact ⟨r.generation, lt_of_le_of_ne (hnewer r hmem hkind happ) hne, by rw [hlabels r hmem, happ]⟩

lemma listsOlder_step (hok : ReconcilersOK c) (h : ∀ wk ∈ c.workers, ListsOlder wk.workload wk.phase)
    (hguard : nothingNewer c act = true) (hstep : (cloudSystem cfg rc).step c act = some c') :
    ∀ wk ∈ c'.workers, ListsOlder wk.workload wk.phase := by
  have hnil : ∀ {wl : ClaimedWorkload} {p : Phase}, p.names = [] → ListsOlder wl p := by
    intro wl p hp name hname
    rw [hp] at hname
    cases hname
  refine workers_step (cloud_cases hstep) h (fun _ _ _ _ _ _ _ => hnil rfl) (fun _ _ => hnil rfl) ?_
  intro wk hwk n reply p' hact hn hrec
  have hold := h wk hwk
  obtain ⟨wl, cancelled, p⟩ := wk
  generalize c'.world = w', c'.cluster = cluster' at hrec
  cases hrec with
  | move hm => exact fun name hname => hold name (hm.names hname)
  | deploy _ hm _ => exact fun name hname => hold name (hm.names hname)
  | teardown _ hm => exact fun name hname => hold name (hm.names hname)
  | failed => exact hnil rfl
  | healthy uid becameCurrent => cases becameCurrent <;> exact hnil rfl
  | delete => exact fun name hname => hold name (List.mem_cons_of_mem _ hname)
  | list kind text =>
    intro name hname
    refine supersededNames_older hok.labels (fun r hr hkind happ => ?_) hname
    simp only [hact, nothingNewer, hn, List.all_eq_true, Bool.or_eq_true, decide_eq_true_eq] at hguard
    rcases hguard r hr with (hne | hne) | hle
    · exact absurd hkind hne
    · exact absurd happ hne
    · exact hle

lemma reach_listsOlder (h : (cloudSystem cfg rc).Reach (fun c act => nothingNewer c act = true) c) :
    ∀ wk ∈ c.workers, ListsOlder wk.workload wk.phase := by
  refine (h.invariant (P := fun u => (∀ wk ∈ u.workers, ListsOlder wk.workload wk.phase) ∧
    (cloudSystem cfg rc).Reachable u) ⟨?_, .refl _⟩ ?_).1
  · simp [cloudSystem, Cloud.init]
  · rintro u b u' ⟨hu, hr⟩ hguard hstep
    exact ⟨listsOlder_step (reach_reconcilers hr) hu hguard hstep, .tail b hr trivial hstep⟩

/-- The current release of an application is that of its last promotion, and no cleanup deletes a resource
of the generation of that promotion, if nothing newer has been deployed when a cleanup lists. -/
theorem cleanup_keeps_current (cfg : Settings) (rc : RunnerConfig) {c : Cloud}
    (h : (cloudSystem cfg rc).Reach (fun c act => nothingNewer c act = true) c) :
    (∀ app a, c.world.db.apps.get app = some a →
      a.currentReleaseId = (lastPromotion c.world app).map Promotion.releaseId) ∧ KeepsCurrent cfg rc c := by
  have hw := cloud_reachable h
  have hok := reach_reconcilers h
  refine ⟨fun app a ha => (reach_follows hw).current ha, ?_⟩
  intro n reply c' wk app p hstep hwk hclean hlast r hr happ hgen
  have hmem := List.mem_of_getElem? hwk
  cases cloud_cases hstep with
  | other => exact ⟨r, hr, rfl⟩
  | claim => exact ⟨r, hr, rfl⟩
  | signal => exact ⟨r, hr, rfl⟩
  | @reconcile _ _ wk' _ _ p' hn hrec =>
    obtain rfl : wk' = wk := Option.some.inj (hn.symm.trans hwk)
    rcases reconcile_deletes hrec hr with hkeep | hp | ⟨names, hp⟩
    · exact hkeep
    · rw [hp] at hclean
      cases hclean
    · -- the name that is deleted would be that of an older generation of the same application
      obtain ⟨g, hlt, hname⟩ := reach_listsOlder h wk' hmem r.name (by rw [hp]; exact List.mem_cons_self)
      rw [hok.labels r hr] at hname
      obtain ⟨happ', hgen'⟩ := ResourceName.svc.inj hname
      have hpromoted := (hok.promoted wk' hmem hclean).1
      rw [← happ', happ] at hpromoted
      have hle := le_lastPromotion (reach_promotions hw) hlast hpromoted
      omega

/-- A first release is deployed and becomes the current one. -/
def firstRollout : List CloudAction :=
  [.other (.service (.createApplication 100 ⟨"shop", none, none⟩)),
    .other (.service (.deployRelease 0 ⟨"quay.io/shop:1", ⟨8080, "/"⟩⟩)), .other (.service .supersedeReleases),
    .other (.service (.selectUnadmittedReleases 50)),
    .other (.service (.createServiceReleaseIntent ⟨2, 0, 100, 1, "quay.io/shop:1", ⟨8080, "/"⟩, 2⟩)),
    .claim "executor-1" (30 * second) [] [], .reconcile 0 (.ok ""), .reconcile 0 (.ok ""), .reconcile 0 (.ok ""),
    .reconcile 0 (.ok ""), .reconcile 0 (.ok "uid-1")]

/-- Then a second one is. -/
def secondRollout : List CloudAction :=
  [.other (.service (.deployRelease 0 ⟨"quay.io/shop:2", ⟨8080, "/"⟩⟩)), .other (.service .supersedeReleases),
    .other (.service (.selectUnadmittedReleases 50)),
    .other (.service (.createServiceReleaseIntent ⟨5, 0, 100, 2, "quay.io/shop:2", ⟨8080, "/"⟩, 3⟩)),
    .claim "executor-2" (30 * second) [] [], .reconcile 1 (.ok ""), .reconcile 1 (.ok ""), .reconcile 1 (.ok ""),
    .reconcile 1 (.ok ""), .reconcile 1 (.ok "uid-2")]

/-- The cleanup of the second release has listed the first one. -/
def promptCleanup : (cloudSystem Settings.default ⟨false, 3⟩).Run nothingNewer where
  labels := firstRollout ++
    [.reconcile 0 (.ok ""), .reconcile 0 (.ok ""), .reconcile 0 (.ok ""), .reconcile 0 (.ok "")] ++
    secondRollout ++ [.reconcile 1 (.ok "")]
  executes := by decide +kernel

theorem cleanup_keeps_current_prompt : ∃ c,
    (cloudSystem Settings.default ⟨false, 3⟩).Reach (fun c act => nothingNewer c act = true) c ∧
    (∃ wk ∈ c.workers, wk.phase = .deleteSuperseded .deployment [.svc 0 2]) ∧
    lastPromotion c.world 0 = some ⟨0, 5, 3, 3⟩ ∧ KeepsCurrent Settings.default ⟨false, 3⟩ c :=
  ⟨promptCleanup.final, promptCleanup.reach, by decide +kernel, by decide +kernel,
    (cleanup_keeps_current Settings.default ⟨false, 3⟩ promptCleanup.reach).2⟩

/-- The first executor stalls between its promotion and its cleanup, and lists after the second rollout. -/
def lateCleanup : (cloudSystem Settings.default ⟨false, 3⟩).FreeRun where
  labels := firstRollout ++ secondRollout ++ [.reconcile 0 (.ok "")]
  executes := by decide +kernel

/-- Its next step deletes the deployment of the current release. -/
theorem late_cleanup_deletes_current : ∃ c, (cloudSystem Settings.default ⟨false, 3⟩).Reachable c ∧
    (∃ a, c.world.db.apps.get 0 = some a ∧ a.currentReleaseId = some 5) ∧
    ¬KeepsCurrent Settings.default ⟨false, 3⟩ c := by
  have happ : (lateCleanup.final.world.db.apps.get 0).any (fun a => a.currentReleaseId = some 5) = true := by
    decide +kernel
  obtain ⟨a, ha, hcur⟩ := (Option.any_eq_true _ _).mp happ
  refine ⟨lateCleanup.final, lateCleanup.reachable, ⟨a, ha, of_decide_eq_true hcur⟩, fun hkeeps => ?_⟩
  have hstep : ((cloudSystem Settings.default ⟨false, 3⟩).step lateCleanup.final (.reconcile 0 (.ok ""))).any
    (fun c' => c'.cluster.rows.all fun r => r.key ≠ (.deployment, .svc 0 3)) = true := by decide +kernel
  have hwk : lateCleanup.final.workers[0]? = some ⟨⟨3, 100, 2, 0, 1, "quay.io/shop:1", 8080, "/", 2, .svc 0 2, 1⟩,
    false, .deleteSuperseded .deployment [.svc 0 3]⟩ := by decide +kernel
  obtain ⟨c', hc', hgone⟩ := (Option.any_eq_true _ _).mp hstep
  obtain ⟨r', hr', hkey⟩ := hkeeps 0 _ c' _ 0 ⟨0, 5, 3, 3⟩ hc' hwk rfl (by decide +kernel)
    ⟨.deployment, .svc 0 3, 0, 3⟩ (by decide +kernel) rfl rfl
  exact of_decide_eq_true (List.all_eq_true.mp hgone r' hr') hkey

end HamiCloud.Proofs
