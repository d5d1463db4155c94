import HamiCloud.Protocol.Rollout
import HamiCloud.Proofs.Reconcile
import HamiCloud.Proofs.Fencing

/-!
# Teardown in the cluster

Which resources a reconciliation takes down. All epochs of an intent share one resource name, and
the fence of the database does not extend to the cluster: a reconciliation that has lost its lease may still
run its own teardown after its successor has applied the intent. The cleanup after a promotion deletes every generation
but its own, so it may take down a newer one.
-/

namespace HamiCloud.Proofs

open Library

variable {cfg : Settings} {rc : RunnerConfig} {w w' : World} {a : Action} {c c' : Cloud} {act : CloudAction}

/-! ### Applied intents -/

lemma releaseEvent_healthy {k : Uuid} {epoch : Nat} (h : Action.releaseEvent a = .healthy k epoch) :
    ∃ wl uid, a = .service (.markReleaseHealthy wl uid) ∧ wl.intentId = k := by
  cases a with
  | tick d => cases h
  | job b => cases h
  | service b =>
    cases b with
    | markReleaseHealthy wl uid => exact ⟨wl, uid, rfl, (ReleaseEvent.healthy.inj h).1⟩
    | _ => cases h

/-- An intent becomes `APPLIED` through its own `MarkReleaseHealthy` only. -/
lemma applied_back (hw : WorldOK w) (hstep : (system cfg).step w a = some w') {k : Uuid}
    {i i' : ExecutionIntent} (hi : w.db.releaseIntents.get k = some i)
    (hi' : w'.db.releaseIntents.get k = some i') (hst : i'.status = .applied) :
    i = i' ∨ ∃ wl uid, a = .service (.markReleaseHealthy wl uid) ∧ wl.intentId = k := by
  have hside := service_side hw hstep
  generalize he : Action.releaseEvent a = e at hside
  cases hside with
  | requests hs => exact .inl (Option.some.inj ((request_intent hs hi).symm.trans hi'))
  | step hs =>
    obtain ⟨j, hj, hmove⟩ := hs.intent_move hi
    obtain rfl : j = i' := Option.some.inj (hj.symm.trans hi')
    cases hmove with
    | same he => exact .inl he.symm
    | withdraw _ _ _ hterm =>
      rw [hst] at hterm
      cases hterm
    | deploy r r' _ _ _ _ _ hdep =>
      generalize j.status = s, r'.status = t at hdep hst
      cases hdep with
      | healthy =>
        obtain ⟨wl, uid, ha, hk⟩ := releaseEvent_healthy he
        exact .inr ⟨wl, uid, ha, hk.trans (hw.releases.intentKey hi)⟩
      | claim => cases hst
      | renew => cases hst
      | failed => cases hst

/-! ### Reconciliations -/

/-- The workload has been promoted: its intent is applied under its own epoch. -/
def Promoted (w : World) (wl : ClaimedWorkload) : Prop :=
  wl.targetGeneration ∈ promotedGenerations w wl.applicationId ∧
  ∃ i, w.db.releaseIntents.get wl.intentId = some i ∧ i.status = .applied ∧ i.leaseEpoch = wl.leaseEpoch

lemma promotedGenerations_mono (hstep : (system cfg).step w a = some w') (app : Uuid) :
    promotedGenerations w app ⊆ promotedGenerations w' app := by
  rcases promotion_step hstep with ⟨hsame, -⟩ | ⟨wl, uid, i, app', -, -, -, -, -, -, hnew⟩
  · rw [promotedGenerations, promotedGenerations, hsame]
    exact List.Subset.refl _
  · rw [promotedGenerations, promotedGenerations, hnew, List.filter_append, List.map_append]
    exact List.subset_append_left _ _

lemma Promoted.mono {wl : ClaimedWorkload} (h : Promoted w wl) (hw : WorldOK w)
    (hstep : (system cfg).step w a = some w') : Promoted w' wl := by
  obtain ⟨hgen, i, hi, hst, hep⟩ := h
  obtain ⟨i', hi', -, -, hfinal⟩ := (service_side hw hstep).evolves.intent hi
  rw [hfinal (by rw [hst]; rfl)] at hi'
  exact ⟨promotedGenerations_mono hstep _ hgen, i, hi', hst, hep⟩

lemma promoted_of_healthy {wl : ClaimedWorkload} {uid : String}
    (hb : BoundRelease (releaseView w.db) wl)
    (hstep : (system cfg).step w (.service (.markReleaseHealthy wl uid)) = some w')
    (hdb : markReleaseHealthy w.db wl.intentId wl.releaseId wl.applicationId uid wl.leaseEpoch =
      .ok (true, w'.db)) : Promoted w' wl := by
  obtain ⟨i, apps, hi, hep, -, hdb', -⟩ := markReleaseHealthy_inv hdb
  refine ⟨?_, { i with status := .applied, resourceUid := some uid, updatedAt := w.db.now }, ?_, rfl, hep⟩
  · rcases promotion_step hstep with ⟨-, hfalse⟩ | ⟨wl', uid', i', app, he, -, -, hi', -, -, hnew⟩
    · cases hdb.symm.trans (hfalse wl uid rfl)
    · cases he
      obtain rfl : i' = i := Option.some.inj (hi'.symm.trans hi)
      rw [promotedGenerations, hnew, ← (hb.rows hi).2.2.1]
      simp
  · rw [hdb']
    exact Table.get_set_self hi

structure ReconcilersOK (c : Cloud) : Prop where
  bound : ∀ wk ∈ c.workers, BoundRelease (releaseView c.world.db) wk.workload
  promoted : ∀ wk ∈ c.workers, wk.phase.cleaning = true → Promoted c.world wk.workload
  labels : ∀ r ∈ c.cluster.rows, r.name = .svc r.applicationId r.generation

lemma cloud_evolves (hw : WorldOK c.world) (hstep : (cloudSystem cfg rc).step c act = some c') :
    ReleaseEvolves (releaseView c.world.db) (releaseView c'.world.db) := by
  rcases cloud_world hstep with he | ⟨a, ha⟩
  · rw [he]
    exact .refl _
  · exact (service_side hw ha).evolves

lemma Promoted.cloud {wl : ClaimedWorkload} (h : Promoted c.world wl) (hw : WorldOK c.world)
    (hstep : (cloudSystem cfg rc).step c act = some c') : Promoted c'.world wl := by
  rcases cloud_world hstep with he | ⟨a, ha⟩
  · exact he ▸ h
  · exact h.mono hw ha

lemma BoundRelease.name {wl : ClaimedWorkload} (hwf : ReleaseWF (releaseView w.db))
    (h : BoundRelease (releaseView w.db) wl) :
    wl.deterministicResourceName = .svc wl.applicationId wl.targetGeneration := by
  obtain ⟨i, r, hi, hres, hr, happ, hgen, hname, -⟩ := h
  obtain ⟨r', hr', hn⟩ := hwf.intentRelease hi
  rw [hres] at hr'
  obtain rfl : r' = r := Option.some.inj (hr'.symm.trans hr)
  rw [← hname, hn, happ, hgen]

/-- A step writes no resource but those of a workload. -/
lemma cluster_step (h : CloudStep cfg c act c') {r : Resource} (hr : r ∈ c'.cluster.rows) :
    r ∈ c.cluster.rows ∨ ∃ wk ∈ c.workers, ∃ kind, r = wk.workload.resource kind := by
  cases h with
  | other => exact .inl hr
  | claim => exact .inl hr
  | signal => exact .inl hr
  | @reconcile n reply wk w' cluster' p' hn hrec =>
    generalize wk.phase = p at hrec
    cases hrec with
    | move => exact .inl hr
    | healthy => exact .inl hr
    | failed => exact .inl hr
    | list => exact .inl hr
    | teardown => exact .inl (Table.mem_erase.mp hr).1
    | delete => exact .inl (Table.mem_erase.mp hr).1
    | deploy kind =>
      rcases Table.mem_upsert.mp hr with ⟨hr, -⟩ | he
      · exact .inl hr
      · exact .inr ⟨wk, List.mem_of_getElem? hn, kind, he⟩

/-- The phase after a step is one of cleanup only if the phase before it was, or the step promotes. -/
lemma cleaning_step {wl : ClaimedWorkload} {p p' : Phase} {reply : Reply} {cluster' : Table Resource.key}
    (h : ReconcileStep cfg c wl p reply w' cluster' p') (hp : p'.cleaning = true) :
    p.cleaning = true ∨ ∃ uid, (system cfg).step c.world (.service (.markReleaseHealthy wl uid)) = some w' ∧
      markReleaseHealthy c.world.db wl.intentId wl.releaseId wl.applicationId uid wl.leaseEpoch =
        .ok (true, w'.db) := by
  cases h with
  | move hm => exact .inl (hm.cleaning hp)
  | deploy _ hm _ => exact .inl (hm.cleaning hp)
  | teardown _ hm => exact .inl (hm.cleaning hp)
  | failed => cases hp
  | list => exact .inl rfl
  | delete => exact .inl rfl
  | healthy uid becameCurrent hw hdb =>
    cases becameCurrent with
    | false => cases hp
    | true => exact .inr ⟨uid, hw, hdb⟩

lemma ReconcilersOK.step (h : ReconcilersOK c) (hw : WorldOK c.world) (hw' : WorldOK c'.world)
    (hstep : (cloudSystem cfg rc).step c act = some c') : ReconcilersOK c' := by
  have hcase := cloud_cases hstep
  have hbound : ∀ wk ∈ c.workers, BoundRelease (releaseView c'.world.db) wk.workload :=
    fun wk hwk => (h.bound wk hwk).mono (cloud_evolves hw hstep)
  refine ⟨?_, ?_, fun r hr => ?_⟩
  · refine workers_step (P := fun wl _ => BoundRelease (releaseView c'.world.db) wl) hcase hbound ?_ hbound
      (fun wk hwk _ _ _ _ _ _ => hbound wk hwk)
    exact fun wl _ _ _ _ _ hmem => hw'.serviceClients.claims wl hmem
  · refine workers_step (P := fun wl p => p.cleaning = true → Promoted c'.world wl) hcase
      (fun wk hwk hp => (h.promoted wk hwk hp).cloud hw hstep) (fun _ _ _ _ _ _ _ hp => by cases hp)
      (fun _ _ hp => by cases hp) ?_
    intro wk hwk n reply p' _ _ hrec hp
    rcases cleaning_step hrec hp with hp | ⟨uid, hsys, hdb⟩
    · exact (h.promoted wk hwk hp).cloud hw hstep
    · exact promoted_of_healthy (h.bound wk hwk) hsys hdb
  · rcases cluster_step hcase hr with hr | ⟨wk, hwk, kind, rfl⟩
    · exact h.labels r hr
    · exact (h.bound wk hwk).name hw.releases

lemma reach_reconcilers {C : Cloud → CloudAction → Prop} (h : (cloudSystem cfg rc).Reach C c) :
    ReconcilersOK c := by
  refine (h.invariant (P := fun u => ReconcilersOK u ∧ (cloudSystem cfg rc).Reachable u) ⟨?_, .refl _⟩ ?_).1
  · constructor <;> simp [cloudSystem, Cloud.init, Table.empty]
  · rintro u b u' ⟨hu, hr⟩ - hstep
    have hr' : (cloudSystem cfg rc).Reachable u' := .tail b hr trivial hstep
    exact ⟨hu.step (reach_ok (cloud_reachable hr)) (reach_ok (cloud_reachable hr')) hstep, hr'⟩

/-- A resource disappears in the teardown of its own workload or in a cleanup that has listed its name. -/
lemma reconcile_deletes {wl : ClaimedWorkload} {p p' : Phase} {reply : Reply} {cluster' : Table Resource.key}
    (h : ReconcileStep cfg c wl p reply w' cluster' p') {r : Resource} (hr : r ∈ c.cluster.rows) :
    (∃ r' ∈ cluster'.rows, r'.key = r.key) ∨ p = .teardown r.kind ∨
      ∃ names, p = .deleteSuperseded r.kind (r.name :: names) := by
  have herase : ∀ (kind : ResourceKind) (name : ResourceName),
      (∃ r' ∈ (c.cluster.erase (kind, name)).rows, r'.key = r.key) ∨ (kind = r.kind ∧ name = r.name) := by
    intro kind name
    by_cases hk : r.key = (kind, name)
    · obtain ⟨hkind, hname⟩ := Prod.mk.inj hk
      exact .inr ⟨hkind.symm, hname.symm⟩
    · exact .inl ⟨r, Table.mem_erase.mpr ⟨hr, hk⟩, rfl⟩
  cases h with
  | move => exact .inl ⟨r, hr, rfl⟩
  | healthy => exact .inl ⟨r, hr, rfl⟩
  | failed => exact .inl ⟨r, hr, rfl⟩
  | list => exact .inl ⟨r, hr, rfl⟩
  | deploy kind =>
    by_cases hk : r.key = (wl.resource kind).key
    · exact .inl ⟨_, Table.mem_upsert.mpr (.inr rfl), hk.symm⟩
    · exact .inl ⟨r, Table.mem_upsert.mpr (.inl ⟨hr, hk⟩), rfl⟩
  | teardown kind =>
    rcases herase kind wl.deterministicResourceName with hkeep | ⟨rfl, -⟩
    · exact .inl hkeep
    · exact .inr (.inl rfl)
  | delete kind name names =>
    rcases herase kind name with hkeep | ⟨rfl, rfl⟩
    · exact .inl hkeep
    · exact .inr (.inr ⟨names, rfl⟩)

/-! ### A reconciliation that has lost its lease -/

/-- No step of a reconciliation deletes a resource of its intent once the intent has been applied under a
later epoch. -/
def KeepsApplied (cfg : Settings) (rc : RunnerConfig) (c : Cloud) : Prop :=
  ∀ n reply c' wk i, (cloudSystem cfg rc).step c (.reconcile n reply) = some c' → c.workers[n]? = some wk →
    c.world.db.releaseIntents.get wk.workload.intentId = some i → i.status = .applied →
    wk.workload.leaseEpoch < i.leaseEpoch → ∀ r ∈ c.cluster.rows, r.name = i.deterministicResourceName →
    ∃ r' ∈ c'.cluster.rows, r'.key = r.key

/-- When `MarkReleaseHealthy` commits, every reconciliation of its intent with an earlier epoch is past its
teardown. -/
def staleSettled (c : Cloud) : CloudAction → Bool
  | .reconcile n (.ok _) =>
    match c.workers[n]? with
    | some wk => wk.phase ≠ .markHealthy || c.workers.all fun other =>
        other.workload.intentId ≠ wk.workload.intentId || wk.workload.leaseEpoch ≤ other.workload.leaseEpoch ||
          other.phase.pastTeardown
    | none => true
  | _ => true

def StaleSettled (c : Cloud) : Prop :=
  ∀ wk ∈ c.workers, ∀ i, c.world.db.releaseIntents.get wk.workload.intentId = some i → i.status = .applied →
    wk.workload.leaseEpoch < i.leaseEpoch → wk.phase.pastTeardown = true

lemma pastTeardown_step {wl : ClaimedWorkload} {p p' : Phase} {reply : Reply} {cluster' : Table Resource.key}
    (h : ReconcileStep cfg c wl p reply w' cluster' p') (hp : p.pastTeardown = true) :
    p'.pastTeardown = true := by
  cases h with
  | move hm => exact hm.pastTeardown hp
  | deploy _ hm _ => exact hm.pastTeardown hp
  | teardown _ hm => exact hm.pastTeardown hp
  | failed => rfl
  | list => rfl
  | delete => rfl
  | healthy uid becameCurrent => cases becameCurrent <;> rfl

/-- An intent becomes `APPLIED` in the `markHealthy` phase of a reconciliation, under its epoch. -/
lemma applied_cloud (hw : WorldOK c.world) (hstep : (cloudSystem cfg rc).step c act = some c') {k : Uuid}
    {i i' : ExecutionIntent} (hi : c.world.db.releaseIntents.get k = some i)
    (hi' : c'.world.db.releaseIntents.get k = some i') (hst : i'.status = .applied) :
    i = i' ∨ ∃ n uid wk, act = .reconcile n (.ok uid) ∧ c.workers[n]? = some wk ∧ wk.phase = .markHealthy ∧
      wk.workload.intentId = k ∧ i'.leaseEpoch = wk.workload.leaseEpoch := by
  have hsame : c'.world = c.world → i = i' := fun he => Option.some.inj (hi.symm.trans (he ▸ hi'))
  cases cloud_cases hstep with
  | other a ha hne =>
    rcases applied_back hw ha hi hi' hst with he | ⟨wl, uid, rfl, -⟩
    · exact .inl he
    · exact absurd rfl (hne wl uid)
  | claim wl ha =>
    rcases applied_back hw ha hi hi' hst with he | ⟨wl, uid, hne, -⟩
    · exact .inl he
    · cases hne
  | signal => exact .inl (hsame rfl)
  | @reconcile n reply wk w' cluster' p' hn hrec =>
    generalize hp : wk.phase = p at hrec
    cases hrec with
    | move => exact .inl (hsame rfl)
    | deploy => exact .inl (hsame rfl)
    | teardown => exact .inl (hsame rfl)
    | list => exact .inl (hsame rfl)
    | delete => exact .inl (hsame rfl)
    | failed reason ha =>
      rcases applied_back hw ha hi hi' hst with he | ⟨wl, uid, hne, -⟩
      · exact .inl he
      · cases hne
    | healthy uid becameCurrent ha hdb =>
      rcases applied_back hw ha hi hi' hst with he | ⟨wl, uid', he, hk⟩
      · exact .inl he
      · cases he
        obtain ⟨j, apps, hj, hep, -, hdb', -⟩ := markReleaseHealthy_inv hdb
        refine .inr ⟨n, uid, wk, rfl, hn, hp, hk, ?_⟩
        have hget : w'.db.releaseIntents.get k = some i' := hi'
        rw [hdb', ← hk, Table.get_set_self hj] at hget
        rw [← Option.some.inj hget]
        exact hep

lemma StaleSettled.step (h : StaleSettled c) (hok : ReconcilersOK c) (hw : WorldOK c.world)
    (hguard : staleSettled c act = true) (hstep : (cloudSystem cfg rc).step c act = some c') :
    StaleSettled c' := by
  have hwait : ∀ wk ∈ c.workers, ∀ i, c'.world.db.releaseIntents.get wk.workload.intentId = some i →
      i.status = .applied → wk.workload.leaseEpoch < i.leaseEpoch → wk.phase.pastTeardown = true := by
    intro wk hwk i' hi' hst hlt
    obtain ⟨i, r, hi, -⟩ := hok.bound wk hwk
    rcases applied_cloud hw hstep hi hi' hst with rfl | ⟨n, uid, other, rfl, hn, hp, hk, hep⟩
    · exact h wk hwk i hi hst hlt
    · simp only [staleSettled, hn, hp, ne_eq, not_true_eq_false, decide_false, Bool.false_or,
        List.all_eq_true, Bool.or_eq_true, decide_eq_true_eq] at hguard
      rcases hguard wk hwk with (hne | hle) | hpast
      · exact absurd hk.symm hne
      · omega
      · exact hpast
  refine workers_step (P := fun wl p => ∀ i, c'.world.db.releaseIntents.get wl.intentId = some i →
    i.status = .applied → wl.leaseEpoch < i.leaseEpoch → p.pastTeardown = true) (cloud_cases hstep) hwait
    ?_ (fun _ _ _ _ _ _ => rfl) ?_
  · intro wl workerId lease wss locked hclaim _ i' hi' hst
    -- the intent has just been claimed
    obtain ⟨i, r, hnext, hid, -, -, -, -, -, hdb⟩ := claimNextServiceRelease_inv hclaim
    rw [hdb, hid, Table.get_set_self (nextReleaseIntent_inv hnext).1] at hi'
    rw [← Option.some.inj hi'] at hst
    cases hst
  · intro wk hwk n reply p' _ _ hrec i' hi' hst hlt
    exact pastTeardown_step hrec (hwait wk hwk i' hi' hst hlt)

lemma reach_staleSettled (h : (cloudSystem cfg rc).Reach (fun c act => staleSettled c act = true) c) :
    StaleSettled c := by
  refine (h.invariant (P := fun u => StaleSettled u ∧ (cloudSystem cfg rc).Reachable u) ⟨?_, .refl _⟩ ?_).1
  · simp [StaleSettled, cloudSystem, Cloud.init]
  · rintro u b u' ⟨hu, hr⟩ hguard hstep
    exact ⟨hu.step (reach_reconcilers hr) (reach_ok (cloud_reachable hr)) hguard hstep, .tail b hr trivial hstep⟩

/-- A reconciliation that has lost its lease cannot take down what its successor deployed, if it is past its
own teardown when the successor's `MarkReleaseHealthy` commits. -/
theorem stale_reconciler_keeps_applied (cfg : Settings) (rc : RunnerConfig) {c : Cloud}
    (h : (cloudSystem cfg rc).Reach (fun c act => staleSettled c act = true) c) : KeepsApplied cfg rc c := by
  intro n reply c' wk i hstep hwk hi hst hlt r hr _
  have hmem := List.mem_of_getElem? hwk
  cases cloud_cases hstep with
  | other => exact ⟨r, hr, rfl⟩
  | claim => exact ⟨r, hr, rfl⟩
  | signal => exact ⟨r, hr, rfl⟩
  | @reconcile _ _ wk' _ _ p' hn hrec =>
    obtain rfl : wk' = wk := Option.some.inj (hn.symm.trans hwk)
    rcases reconcile_deletes hrec hr with hkeep | hp | ⟨names, hp⟩
    · exact hkeep
    · have hpast := reach_staleSettled h wk' hmem i hi hst hlt
      rw [hp] at hpast
      cases hpast
    · obtain ⟨-, j, hj, -, hep⟩ := (reach_reconcilers h).promoted wk' hmem (by rw [hp]; rfl)
      obtain rfl : j = i := Option.some.inj (hj.symm.trans hi)
      omega

/-- An executor claims a release and deploys its resources; its lease expires. -/
def expiredReconciliation : List CloudAction :=
  [.other (.service (.createApplication 100 ⟨"shop", none, none⟩)),
    .other (.service (.deployRelease 0 ⟨"quay.io/shop:1", ⟨8080, "/"⟩⟩)), .other (.service .supersedeReleases),
    .other (.service (.selectUnadmittedReleases 50)),
    .other (.service (.createServiceReleaseIntent ⟨2, 0, 100, 1, "quay.io/shop:1", ⟨8080, "/"⟩, 2⟩)),
    .claim "executor-1" (30 * second) [] [], .reconcile 0 (.ok ""), .reconcile 0 (.ok ""),
    .other (.tick (31 * second))]

/-- The successor claims the release again, deploys the same resources and marks the release healthy. -/
def succeedingReconciliation : List CloudAction :=
  [.claim "executor-2" (30 * second) [] [], .reconcile 1 (.ok ""), .reconcile 1 (.ok ""), .reconcile 1 (.ok ""),
    .reconcile 1 (.ok ""), .reconcile 1 (.ok "uid-2")]

/-- The heartbeat of the first executor cancels its context, and it tears down, before the successor
deploys. -/
def settledRun : (cloudSystem Settings.default ⟨false, 3⟩).Run staleSettled where
  labels := expiredReconciliation ++
    [.cancel 0, .reconcile 0 (.ok ""), .reconcile 0 (.ok ""), .reconcile 0 (.ok "")] ++
    succeedingReconciliation
  executes := by decide +kernel

theorem stale_reconciler_keeps_applied_settled : ∃ c,
    (cloudSystem Settings.default ⟨false, 3⟩).Reach (fun c act => staleSettled c act = true) c ∧
    (∃ wk ∈ c.workers, wk.phase = .markFailed ∧ (c.world.db.releaseIntents.get wk.workload.intentId).any
      fun i => i.status = .applied ∧ wk.workload.leaseEpoch < i.leaseEpoch) ∧
    KeepsApplied Settings.default ⟨false, 3⟩ c :=
  ⟨settledRun.final, settledRun.reach, by decide +kernel,
    stale_reconciler_keeps_applied Settings.default ⟨false, 3⟩ settledRun.reach⟩

/-- The heartbeat of the first executor cancels its context only after the successor is done. -/
def lateTeardown : (cloudSystem Settings.default ⟨false, 3⟩).FreeRun where
  labels := expiredReconciliation ++ succeedingReconciliation ++ [.cancel 0, .reconcile 0 (.ok "")]
  executes := by decide +kernel

/-- The stale reconciliation then deletes the deployment of the applied intent. -/
theorem stale_reconciler_deletes_applied : ∃ c, (cloudSystem Settings.default ⟨false, 3⟩).Reachable c ∧
    ¬KeepsApplied Settings.default ⟨false, 3⟩ c := by
  refine ⟨lateTeardown.final, lateTeardown.reachable, fun hkeeps => ?_⟩
  have hstep : ((cloudSystem Settings.default ⟨false, 3⟩).step lateTeardown.final (.reconcile 0 (.ok ""))).any
    (fun c' => c'.cluster.rows.all fun r => r.key ≠ (.deployment, .svc 0 2)) = true := by decide +kernel
  have hintent : (lateTeardown.final.world.db.releaseIntents.get 3).any (fun i => i.status = .applied ∧
    1 < i.leaseEpoch ∧ i.deterministicResourceName = .svc 0 2) = true := by decide +kernel
  have hwk : lateTeardown.final.workers[0]? = some ⟨⟨3, 100, 2, 0, 1, "quay.io/shop:1", 8080, "/", 2, .svc 0 2, 1⟩,
    true, .teardown .deployment⟩ := by decide +kernel
  obtain ⟨c', hc', hgone⟩ := (Option.any_eq_true _ _).mp hstep
  obtain ⟨i, hi, hi'⟩ := (Option.any_eq_true _ _).mp hintent
  obtain ⟨hst, hlt, hname⟩ := of_decide_eq_true hi'
  obtain ⟨r', hr', hkey⟩ := hkeeps 0 _ c' _ i hc' hwk hi hst hlt ⟨.deployment, .svc 0 2, 0, 2⟩
    (by decide +kernel) hname.symm
  exact of_decide_eq_true (List.all_eq_true.mp hgone r' hr') hkey

end HamiCloud.Proofs
