import HamiCloud.Runtime.Reconcile
import HamiCloud.Proofs.Promotions

/-!
# Runs with reconciliation

What one step of a `ReconcileOne` does to the database, the cluster and its own phase. A run of the whole
cloud is, for the database, a run of the system.
-/

namespace HamiCloud

open Library

/-- From here on a reconciliation does not tear down its own resources any more. -/
def Phase.pastTeardown : Phase → Bool
  | markHealthy => true
  | markFailed => true
  | listSuperseded _ => true
  | deleteSuperseded _ _ => true
  | done => true
  | _ => false

/-- Inside `TeardownSupersededGenerations`. -/
def Phase.cleaning : Phase → Bool
  | listSuperseded _ => true
  | deleteSuperseded _ _ => true
  | _ => false

/-- The names that a cleanup has listed and not yet deleted. -/
def Phase.names : Phase → List ResourceName
  | deleteSuperseded _ names => names
  | _ => []

/-- A change of phase without a request that writes. -/
structure Phase.Moves (p p' : Phase) : Prop where
  pastTeardown : p.pastTeardown = true → p'.pastTeardown = true
  cleaning : p'.cleaning = true → p.cleaning = true
  names : p'.names ⊆ p.names

inductive ReconcileStep (cfg : Settings) (c : Cloud) (wl : ClaimedWorkload) :
    Phase → Reply → World → Table Resource.key → Phase → Prop
  | move {p p' : Phase} {reply : Reply} : p.Moves p' → ReconcileStep cfg c wl p reply c.world c.cluster p'
  | deploy (kind : ResourceKind) {p p' : Phase} {reply : Reply} : p.Moves p' → p.cleaning = false →
      ReconcileStep cfg c wl p reply c.world (c.cluster.upsert (wl.resource kind)) p'
  | healthy (uid : String) (becameCurrent : Bool) {w' : World} :
      (system cfg).step c.world (.service (.markReleaseHealthy wl uid)) = some w' →
      markReleaseHealthy c.world.db wl.intentId wl.releaseId wl.applicationId uid wl.leaseEpoch =
        .ok (becameCurrent, w'.db) →
      ReconcileStep cfg c wl .markHealthy (.ok uid) w' c.cluster
        (if becameCurrent then .listSuperseded .deployment else .done)
  | teardown (kind : ResourceKind) {p' : Phase} {reply : Reply} : (Phase.teardown kind).Moves p' →
      ReconcileStep cfg c wl (.teardown kind) reply c.world
        (c.cluster.erase (kind, wl.deterministicResourceName)) p'
  | failed (reason : String) {w' : World} {reply : Reply} :
      (system cfg).step c.world (.service (.markReleaseFailed wl reason)) = some w' →
      ReconcileStep cfg c wl .markFailed reply w' c.cluster .done
  | list (kind : ResourceKind) (text : String) :
      ReconcileStep cfg c wl (.listSuperseded kind) (.ok text) c.world c.cluster
        (.deleteSuperseded kind (supersededNames c.cluster wl kind))
  | delete (kind : ResourceKind) (name : ResourceName) (names : List ResourceName) {reply : Reply} :
      ReconcileStep cfg c wl (.deleteSuperseded kind (name :: names)) reply c.world
        (c.cluster.erase (kind, name)) (.deleteSuperseded kind names)

/-- A step of the cloud: of the database alone, of a claim that starts a reconciliation, of the context of a
reconciliation or its process, or of a reconciliation. -/
inductive CloudStep (cfg : Settings) (c : Cloud) : CloudAction → Cloud → Prop
  | other {act : CloudAction} (a : Action) {w' : World} : (system cfg).step c.world a = some w' →
      (∀ wl uid, a ≠ .service (.markReleaseHealthy wl uid)) → CloudStep cfg c act { c with world := w' }
  | claim {act : CloudAction} {workerId : String} {lease : Time} {wss locked : List Uuid} {w' : World}
      (wl : ClaimedWorkload) :
      (system cfg).step c.world (.service (.claimNextServiceRelease workerId lease wss locked)) = some w' →
      claimNextServiceRelease c.world.db workerId lease wss locked = some (wl, w'.db) →
      wl ∈ w'.services.claims →
      CloudStep cfg c act
        { c with world := w', workers := c.workers ++ [⟨wl, false, .deploy .deployment⟩] }
  | signal {act : CloudAction} (n : Nat) {wk wk' : Worker} : c.workers[n]? = some wk →
      wk'.workload = wk.workload → wk'.phase = wk.phase ∨ wk'.phase = .done →
      CloudStep cfg c act { c with workers := c.workers.set n wk' }
  | reconcile (n : Nat) (reply : Reply) {wk : Worker} {w' : World} {cluster' : Table Resource.key}
      {p' : Phase} : c.workers[n]? = some wk →
      ReconcileStep cfg c wk.workload wk.phase reply w' cluster' p' →
      CloudStep cfg c (.reconcile n reply) ⟨w', cluster', c.workers.set n { wk with phase := p' }⟩

end HamiCloud

namespace HamiCloud.Proofs

open Library

variable {cfg : Settings} {rc : RunnerConfig} {c c' : Cloud}

lemma moves_start (rc : RunnerConfig) {p : Phase} (hp : p.pastTeardown = false) : p.Moves (startProbing rc) := by
  unfold startProbing
  split <;> exact ⟨by simp [hp], by simp [Phase.cleaning], by simp [Phase.names]⟩

lemma moves_afterDeploy (rc : RunnerConfig) (kind : ResourceKind) :
    (Phase.deploy kind).Moves (afterDeploy rc kind) := by
  unfold afterDeploy
  split
  · exact ⟨by simp [Phase.pastTeardown], by simp [Phase.cleaning], by simp [Phase.names]⟩
  · exact moves_start rc rfl

lemma moves_afterTeardown (rc : RunnerConfig) (kind : ResourceKind) :
    (Phase.teardown kind).Moves (afterTeardown rc kind) := by
  unfold afterTeardown
  split <;> exact ⟨by simp [Phase.pastTeardown], by simp [Phase.cleaning], by simp [Phase.names]⟩

lemma moves_afterSuperseded (rc : RunnerConfig) (kind : ResourceKind) {p : Phase} (hp : p.cleaning = true) :
    p.Moves (afterSuperseded rc kind) := by
  unfold afterSuperseded
  split <;> exact ⟨by simp [Phase.pastTeardown], by simp [hp], by simp [Phase.names]⟩

/-- To a phase that tears down nothing of others, from one that may still tear down its own. -/
lemma moves_before {p p' : Phase} (hp : p.pastTeardown = false) (hp' : p'.cleaning = false)
    (hnames : p'.names = []) : p.Moves p' :=
  ⟨by simp [hp], by simp [hp'], by simp [hnames]⟩

lemma reconcileHealthy_inv {w w' : World} {wl : ClaimedWorkload} {uid : String} {p' : Phase}
    (h : reconcileHealthy cfg w wl uid = some (w', p')) :
    ∃ becameCurrent, (system cfg).step w (.service (.markReleaseHealthy wl uid)) = some w' ∧
      markReleaseHealthy w.db wl.intentId wl.releaseId wl.applicationId uid wl.leaseEpoch =
        .ok (becameCurrent, w'.db) ∧
      p' = if becameCurrent then .listSuperseded .deployment else .done := by
  unfold reconcileHealthy at h
  split at h
  · rename_i b db' w₁ hdb hstep
    cases h
    refine ⟨b, hstep, ?_, rfl⟩
    have hsys : (system cfg).step w (.service (.markReleaseHealthy wl uid)) = some w' := hstep
    rcases step_cases hsys with ⟨d, he, -⟩ | ⟨_, _, _, he, -⟩ | ⟨a, db₁, c₁, he, hserv, rfl⟩
    · cases he
    · cases he
    · cases he
      obtain ⟨b', -, hdb', -⟩ := markReleaseHealthy_step hserv
      rw [hdb] at hdb'
      cases hdb'
      exact hdb
  · cases h

lemma reconcileOne_inv {wk : Worker} {p p' : Phase} {reply : Reply} {w' : World} {cluster' : Table Resource.key}
    (h : reconcileOne cfg rc c wk p reply = some (w', cluster', p')) :
    ReconcileStep cfg c wk.workload p reply w' cluster' p' := by
  unfold reconcileOne at h
  split at h
  · cases h
    exact .deploy _ (moves_afterDeploy rc _) rfl
  · cases h
    exact .move (moves_before rfl rfl rfl)
  · cases h
    exact .move (moves_start rc rfl)
  · cases h
    exact .move (by split <;> exact moves_before rfl rfl rfl)
  · split at h
    · cases h
      exact .move (moves_before rfl rfl rfl)
    · cases h
  · cases h
    exact .move (by split <;> exact moves_before rfl rfl rfl)
  · cases h
    exact .move (moves_before rfl rfl rfl)
  · split at h
    · cases h
      exact .move (moves_before rfl rfl rfl)
    · cases h
  · obtain ⟨⟨w₁, p₁⟩, hrec, he⟩ := Option.map_eq_some_iff.mp h
    cases he
    obtain ⟨becameCurrent, hstep, hdb, rfl⟩ := reconcileHealthy_inv hrec
    exact .healthy _ becameCurrent hstep hdb
  · cases h
    exact .move ⟨fun _ => rfl, by simp [Phase.cleaning], by simp [Phase.names]⟩
  · cases h
    exact .teardown _ (moves_afterTeardown rc _)
  · cases h
    exact .move (moves_afterTeardown rc _)
  · obtain ⟨w₁, hstep, he⟩ := Option.map_eq_some_iff.mp h
    cases he
    exact .failed _ hstep
  · cases h
    exact .move ⟨fun _ => rfl, by simp [Phase.cleaning], by simp [Phase.names]⟩
  · cases h
    exact .list _ _
  · cases h
    exact .move (moves_afterSuperseded rc _ rfl)
  · cases h
    exact .move (moves_afterSuperseded rc _ rfl)
  · cases h
    exact .delete _ _ _
  · cases h
    exact .move ⟨fun _ => rfl, fun _ => rfl, by simp [Phase.names]⟩
  · cases h

lemma cloud_cases {act : CloudAction} (h : (cloudSystem cfg rc).step c act = some c') :
    CloudStep cfg c act c' := by
  have hstep : c.step cfg rc act = some c' := h
  cases act with
  | other a =>
    simp only [Cloud.step] at hstep
    split at hstep
    · cases hstep
    · rename_i hext
      obtain ⟨w', hw, rfl⟩ := Option.map_eq_some_iff.mp hstep
      refine .other a hw ?_
      rintro wl uid rfl
      exact hext rfl
  | claim workerId lease wss locked =>
    obtain ⟨w', hw, hlast⟩ := Option.bind_eq_some_iff.mp hstep
    obtain ⟨wl, hwl, rfl⟩ := Option.map_eq_some_iff.mp hlast
    have hsys : (system cfg).step c.world (.service (.claimNextServiceRelease workerId lease wss locked)) =
      some w' := hw
    rcases step_cases hsys with ⟨d, he, -⟩ | ⟨_, _, _, he, -⟩ | ⟨a, db', c', he, hserv, rfl⟩
    · cases he
    · cases he
    · cases he
      obtain ⟨wl', hdb, rfl⟩ := claimNextServiceRelease_step hserv
      obtain rfl : wl' = wl := by simpa using hwl
      exact .claim wl' hsys hdb (by simp)
  | renew n extension =>
    obtain ⟨wk, -, hrenew⟩ := Option.bind_eq_some_iff.mp hstep
    split at hrenew
    · cases hrenew
    · obtain ⟨w', hw, rfl⟩ := Option.map_eq_some_iff.mp hrenew
      exact .other (.service (.renewLease wk.workload extension)) hw (by simp)
  | cancel n =>
    obtain ⟨wk, hwk, rfl⟩ := Option.map_eq_some_iff.mp hstep
    exact .signal n hwk rfl (.inl rfl)
  | crash n =>
    obtain ⟨wk, hwk, rfl⟩ := Option.map_eq_some_iff.mp hstep
    exact .signal n hwk rfl (.inr rfl)
  | reconcile n reply =>
    obtain ⟨wk, hwk, hrec⟩ := Option.bind_eq_some_iff.mp hstep
    obtain ⟨⟨w', cluster', p'⟩, hone, rfl⟩ := Option.map_eq_some_iff.mp hrec
    exact .reconcile n reply hwk (reconcileOne_inv hone)

/-- A step of the cloud is a step of the system, or leaves its state as it is. -/
lemma cloud_world {act : CloudAction} (h : (cloudSystem cfg rc).step c act = some c') :
    c'.world = c.world ∨ ∃ a, (system cfg).step c.world a = some c'.world := by
  cases cloud_cases h with
  | other a hw _ => exact .inr ⟨a, hw⟩
  | claim wl hw _ _ => exact .inr ⟨_, hw⟩
  | signal n _ _ _ => exact .inl rfl
  | @reconcile n reply wk w' cluster' p' _ hrec =>
    generalize wk.phase = p at hrec
    cases hrec with
    | healthy uid _ hw _ => exact .inr ⟨_, hw⟩
    | failed reason hw => exact .inr ⟨_, hw⟩
    | move _ => exact .inl rfl
    | deploy _ _ _ => exact .inl rfl
    | teardown _ _ => exact .inl rfl
    | list _ _ => exact .inl rfl
    | delete _ _ _ => exact .inl rfl

/-- Runs of the cloud are, for the database, runs of the system. -/
theorem cloud_reachable {C : Cloud → CloudAction → Prop} (h : (cloudSystem cfg rc).Reach C c) :
    (system cfg).Reachable c.world := by
  have h0 : (system cfg).Reachable (cloudSystem cfg rc).init.world := System.Path.refl World.init
  refine h.invariant (P := fun u : Cloud => (system cfg).Reachable u.world) h0 ?_
  intro u act u' hu _ hstep
  rcases cloud_world hstep with he | ⟨a, ha⟩
  · exact he ▸ hu
  · exact .tail a hu trivial ha

/-! ### Invariants of workers and resources -/

/-- What holds of every reconciliation after a step: of those that wait, of one that starts, of one that ends,
and of the one that takes the step. -/
lemma workers_step {P : ClaimedWorkload → Phase → Prop} {act : CloudAction} (hstep : CloudStep cfg c act c')
    (hwait : ∀ wk ∈ c.workers, P wk.workload wk.phase)
    (hstart : ∀ wl workerId lease wss locked,
      claimNextServiceRelease c.world.db workerId lease wss locked = some (wl, c'.world.db) →
      wl ∈ c'.world.services.claims → P wl (.deploy .deployment))
    (hdone : ∀ wk ∈ c.workers, P wk.workload .done)
    (hown : ∀ wk ∈ c.workers, ∀ n reply p', act = .reconcile n reply → c.workers[n]? = some wk →
      ReconcileStep cfg c wk.workload wk.phase reply c'.world c'.cluster p' → P wk.workload p') :
    ∀ wk ∈ c'.workers, P wk.workload wk.phase := by
  cases hstep with
  | other a hw _ => exact hwait
  | claim wl hw hdb hmem =>
    intro wk hwk
    rcases List.mem_append.mp hwk with hwk | hwk
    · exact hwait wk hwk
    · rw [List.mem_singleton.mp hwk]
      exact hstart wl _ _ _ _ hdb hmem
  | @signal _ n wk₀ wk₁ hn hwl hp =>
    intro wk hwk
    have hmem := List.mem_of_getElem? hn
    rcases List.mem_or_eq_of_mem_set hwk with hwk | rfl
    · exact hwait wk hwk
    · rw [hwl]
      rcases hp with hp | hp <;> rw [hp]
      · exact hwait wk₀ hmem
      · exact hdone wk₀ hmem
  | @reconcile n reply wk₀ w' cluster' p' hn hrec =>
    intro wk hwk
    rcases List.mem_or_eq_of_mem_set hwk with hwk | rfl
    · exact hwait wk hwk
    · exact hown wk₀ (List.mem_of_getElem? hn) n reply p' rfl hn hrec

end HamiCloud.Proofs
