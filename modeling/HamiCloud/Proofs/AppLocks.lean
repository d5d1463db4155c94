import HamiCloud.Runtime.AppLocks
import HamiCloud.Proofs.Events

/-!
# No lost generation

The entity that a handler loads under the row lock agrees with the row until it commits, so its commit is the
deployment or rollback of the system with one step per transaction. Every bump of a generation is counted, and
deployment events carry distinct generations.
-/

namespace HamiCloud

open Library

/-- The action of the system that a handler with the lock commits. -/
def LockedRelease.action (s : LockedRelease) : Action :=
  match s.request with
  | .deploy payload => .service (.deployRelease s.app.id payload)
  | .rollback target => .service (.rollbackRelease s.app.id target)

/-- The generation of a deployment event of an application. -/
def OutboxEvent.deploymentOf (appId : Uuid) (e : OutboxEvent) : Option Nat :=
  match e.payload with
  | .appDeploymentRequested id _ generation _ _ _ => if id = appId then some generation else none
  | _ => none

/-- The generations of the deployment events of an application, in the order of their commits. -/
def deploymentGenerations (db : Db) (appId : Uuid) : List Nat :=
  db.outbox.filterMap (OutboxEvent.deploymentOf appId)

end HamiCloud

namespace HamiCloud.Proofs

open Library

variable {cfg : Settings} {db db' : Db} {w w' : World} {f f' : LockWorld}

/-! ### Applications in one step of the system -/

/-- Applications keep their workspace and their slug, their generation grows by the bumps, and at most one is new. -/
structure AppsStep (db db' : Db) (bumped : Option Uuid) : Prop where
  kept : ∀ k a, db.apps.get k = some a → ∃ a', db'.apps.get k = some a' ∧
    (a'.workspaceId = a.workspaceId ∧ a'.slug = a.slug) ∧
    a'.desiredGeneration = a.desiredGeneration + if bumped = some k then 1 else 0
  created : ∀ k a', db.apps.get k = none → db'.apps.get k = some a' → NewApplication db a' ∧
    ∀ k', db.apps.get k' = none → db'.apps.get k' ≠ none → k' = k

lemma AppsStep.same (h : db'.apps = db.apps) : AppsStep db db' none where
  kept k a ha := ⟨a, h ▸ ha, ⟨rfl, rfl⟩, rfl⟩
  created k a' hnone ha' := by
    rw [h, hnone] at ha'
    cases ha'

/-- One row is updated; its workspace and its slug stay. -/
lemma AppsStep.set {appId : Uuid} {g : Application → Application} {bumped : Option Uuid}
    (hid : ∀ a, (g a).id = a.id) (h : db'.apps = db.apps.set appId g hid)
    (hkept : ∀ a, (g a).workspaceId = a.workspaceId ∧ (g a).slug = a.slug)
    (hgen : ∀ a, (g a).desiredGeneration = a.desiredGeneration + if bumped = some appId then 1 else 0)
    (hbumped : ∀ k, bumped = some k → k = appId) : AppsStep db db' bumped where
  kept k a ha := by
    rw [h]
    by_cases hk : k = appId
    · subst hk
      exact ⟨g a, Table.get_set_self ha hid, hkept a, hgen a⟩
    · exact ⟨a, (Table.get_set_of_ne hk hid).trans ha, ⟨rfl, rfl⟩, by rw [if_neg fun he => hk (hbumped k he)]; rfl⟩
  created k a' hnone ha' := by
    rw [h, Table.get_set] at ha'
    split at ha'
    · rename_i hk
      rw [← hk, hnone] at ha'
      cases ha'
    · rw [hnone] at ha'
      cases ha'

lemma acceptRelease_apps {app : Application} {digest : String} {config : ReleaseConfig} {rollbackOf : Option Uuid}
    (h : acceptRelease cfg db app digest config rollbackOf = .ok db') : AppsStep db db' (some app.id) := by
  obtain ⟨db₁, r, releases, events, -, -, -, -, -, -, -, rfl⟩ := acceptRelease_inv h
  exact .set (by intro _; rfl) rfl (fun _ => ⟨rfl, rfl⟩) (fun _ => by simp) fun k he => (Option.some.inj he).symm

lemma createApplication_apps {ws : Uuid} {payload : CreateApplicationRequest}
    (h : createApplication db ws payload = .ok db') : AppsStep db db' none := by
  obtain ⟨a, apps, hnew, hins, rfl⟩ := createApplication_inv h
  constructor
  · intro k b hb
    refine ⟨b, ?_, ⟨rfl, rfl⟩, rfl⟩
    have hne : k ≠ a.id := by
      rintro rfl
      rw [Table.fresh_of_insert hins] at hb
      cases hb
    exact (Table.get_insert hins k).trans (by rw [if_neg hne, hb])
  · intro k b hnone hb
    rcases Table.get_insert_cases hins hb with hold | ⟨hk, rfl⟩
    · rw [hnone] at hold
      cases hold
    · refine ⟨hnew, fun k' hnone' hsome => ?_⟩
      by_contra hne
      exact hsome ((Table.get_insert hins k').trans (by rw [if_neg fun he => hne (he.trans hk.symm), hnone']))

lemma serviceStep_apps {c c' : ServiceClients} {b : ServiceAction}
    (h : serviceStep cfg db c b = some (db', c')) : AppsStep db db' (Action.bumps db (.service b)) := by
  cases b with
  | createApplication ws payload => exact createApplication_apps (commit_inv h).1
  | updateApplication app payload =>
    obtain ⟨a, -, rfl⟩ := updateApplication_inv (commit_inv h).1
    exact .set (by intro _; rfl) rfl (fun _ => ⟨rfl, rfl⟩) (fun _ => rfl) (by simp [Action.bumps])
  | deployRelease appId payload =>
    obtain ⟨app, happ, hacc⟩ := deployRelease_inv (commit_inv h).1
    exact Table.key_of_get happ ▸ acceptRelease_apps hacc
  | rollbackRelease appId target =>
    obtain ⟨app, t, happ, -, hacc⟩ := rollbackRelease_inv (commit_inv h).1
    exact Table.key_of_get happ ▸ acceptRelease_apps hacc
  | markReleaseHealthy wl uid =>
    obtain ⟨becameCurrent, -, hdb, -⟩ := markReleaseHealthy_step h
    obtain ⟨i, apps, -, -, -, rfl, ⟨-, a, -, -, rfl⟩ | ⟨-, rfl, -⟩⟩ := markReleaseHealthy_inv hdb
    · exact .set (by intro _; rfl) rfl (fun _ => ⟨rfl, rfl⟩) (fun _ => rfl) (by simp [Action.bumps])
    · exact .same rfl
  | markBuildSucceeded task digest =>
    obtain ⟨r, events, hr, -, rfl⟩ := markBuildSucceeded_inv (held_commit_inv h).2.1
    have hbump : Action.bumps db (.service (.markBuildSucceeded task digest)) = some r.applicationId := by
      simp [Action.bumps, hr]
    rw [hbump]
    exact .set (by intro _; rfl) rfl (fun _ => ⟨rfl, rfl⟩) (fun _ => by simp) fun k he => (Option.some.inj he).symm
  | _ => exact .same ((serviceStep_frame h).apps (by simp [ServiceAction.writes]))

lemma step_apps {a : Action} (h : (system cfg).step w a = some w') : AppsStep w.db w'.db (a.bumps w.db) := by
  rcases step_cases h with ⟨d, rfl, rfl⟩ | ⟨b, db', c', rfl, hjob, rfl⟩ | ⟨b, db', c', rfl, hserv, rfl⟩
  · exact .same rfl
  · exact .same (congrArg (fun frame => frame.2.1) (jobStep_services hjob))
  · exact serviceStep_apps hserv

/-! ### Handlers that hold a lock -/

/-- The entity of a handler agrees with the row in all it uses. -/
def Agrees (db : Db) (app : Application) : Prop :=
  ∃ a, db.apps.get app.id = some a ∧ a.workspaceId = app.workspaceId ∧ a.desiredGeneration = app.desiredGeneration

/-- Every holder of a lock has passed its checks and agrees with its row. -/
def Held (cfg : Settings) (f : LockWorld) : Prop :=
  ∀ id s, f.locked.get id = some s → s.request.validate cfg = .ok () ∧ Agrees f.world.db s.app

/-- A commit from an entity that agrees with the row is the commit of a single transaction. -/
lemma acceptLocked_eq {app a : Application} (ha : db.apps.get app.id = some a)
    (hws : a.workspaceId = app.workspaceId) (hgen : a.desiredGeneration = app.desiredGeneration) (digest : String)
    (config : ReleaseConfig) (rollbackOf : Option Uuid) :
    acceptLocked cfg db app digest config rollbackOf = acceptRelease cfg db a digest config rollbackOf := by
  have hid : a.id = app.id := Table.key_of_get ha
  unfold acceptLocked acceptRelease
  rw [hid, hws, hgen]
  cases hq : enforceWorkspaceQuota cfg db app.workspaceId .deployedService (some app.id) true with
  | error e => rfl
  | ok db₁ =>
    have happs : db₁.apps = db.apps := by rw [(enforceWorkspaceQuota_frame hq).1]
    have hset : db₁.apps.set app.id (fun b =>
          { b with desiredGeneration := app.desiredGeneration + 1, updatedAt := db.now }) =
        db₁.apps.set app.id (fun b =>
          { b with desiredGeneration := b.desiredGeneration + 1, updatedAt := db.now }) := by
      refine Table.set_congr fun r hr => ?_
      rw [happs, ha] at hr
      cases hr
      rw [hgen]
    have hrelease : readyRelease db₁ app digest config = readyRelease db₁ a digest config := by
      simp only [readyRelease, hid, hws]
    simp only [bind, Except.bind, hset, hrelease]

lemma commitLocked_step {s : LockedRelease} (hvalid : s.request.validate cfg = .ok ()) (hagree : Agrees w.db s.app)
    (h : commitLocked cfg w.db s = .ok db') :
    (system cfg).step w s.action = some { w with db := db' } := by
  obtain ⟨a, ha, hws, hgen⟩ := hagree
  have hfound : orError (w.db.apps.get s.app.id) (ApiError.notFound "Application not found") = .ok a := by
    rw [ha]
    rfl
  cases hreq : s.request with
  | deploy payload =>
    simp only [commitLocked, hreq, acceptLocked_eq ha hws hgen] at h
    simp only [hreq, ReleaseRequest.validate, bind_eq_ok] at hvalid
    obtain ⟨_, hpayload, himage⟩ := hvalid
    have hdb : deployRelease cfg w.db s.app.id payload = .ok db' := by
      simp only [deployRelease, bind_eq_ok]
      exact ⟨(), hpayload, a, hfound, (), himage, h⟩
    simp [LockedRelease.action, hreq, system, World.step, serviceStep, hdb, committed, Except.toOption]
  | rollback target =>
    simp only [commitLocked, hreq, bind_eq_ok] at h
    obtain ⟨t, ht, h⟩ := h
    rw [acceptLocked_eq ha hws hgen] at h
    have hdb : rollbackRelease cfg w.db s.app.id target = .ok db' := by
      simp only [rollbackRelease, bind_eq_ok]
      exact ⟨a, hfound, t, ht, h⟩
    simp [LockedRelease.action, hreq, system, World.step, serviceStep, hdb, committed, Except.toOption]

lemma lockedRelease_bumps (s : LockedRelease) (db : Db) : s.action.bumps db = some s.app.id := by
  unfold LockedRelease.action
  split <;> rfl

/-! ### Steps -/

/-- What a step does: an action of the system that bumps no application locked by another handler, a new lock on
a row as it is, or nothing to the database. -/
inductive LockStep (cfg : Settings) (f : LockWorld) : LockWorld → Prop
  | run (a : Action) (w : World) (f' : LockWorld) : (system cfg).step f.world a = some w → f'.world = w →
      f'.bumped = f.bumped ++ (a.bumps f.world.db).toList →
      (∀ id s, f'.locked.get id = some s → f.locked.get id = some s ∧ a.bumps f.world.db ≠ some id) →
      LockStep cfg f f'
  | lock (s : LockedRelease) (f' : LockWorld) : f.world.db.apps.get s.app.id = some s.app →
      s.request.validate cfg = .ok () → f'.world = f.world → f'.bumped = f.bumped →
      (∀ id t, f'.locked.get id = some t → f.locked.get id = some t ∨ t = s) → LockStep cfg f f'
  | quiet (f' : LockWorld) : f'.world = f.world → f'.bumped = f.bumped →
      (∀ id s, f'.locked.get id = some s → f.locked.get id = some s) → LockStep cfg f f'

lemma erase_some {t : Table LockedRelease.appId} {id id' : Uuid} {s : LockedRelease}
    (h : (t.erase id).get id' = some s) : t.get id' = some s ∧ id ≠ id' := by
  rw [Table.get_erase] at h
  split at h
  · cases h
  · rename_i hne
    exact ⟨h, Ne.symm hne⟩

lemma waits_step {row : Option Uuid} {a : Action} (h : f.waits cfg row a = some f')
    (hrow : ∀ id, a.bumps f.world.db = some id → row = some id) : LockStep cfg f f' := by
  unfold LockWorld.waits at h
  split at h
  · rename_i hfree
    obtain ⟨w, hw, rfl⟩ := Option.map_eq_some_iff.mp h
    refine .run a w _ hw rfl rfl fun id s hs => ⟨hs, fun hbump => ?_⟩
    have hs : f.locked.get id = some s := hs
    rw [hrow id hbump] at hfree
    simp [hs] at hfree
  · cases h

lemma bumps_lockedRow {a : Action} (ha : a.loadsApplication = false) (id : Uuid) (h : a.bumps db = some id) :
    a.lockedRow db = some id := by
  cases a with
  | tick d => cases h
  | job b => cases h
  | service b =>
    cases b with
    | deployRelease => cases ha
    | rollbackRelease => cases ha
    | markBuildSucceeded task digest => exact h
    | _ => cases h

lemma lock_step {a : LockAction} (hheld : Held cfg f) (h : (lockSystem cfg).step f a = some f') :
    LockStep cfg f f' := by
  cases a with
  | other b =>
    simp only [lockSystem, LockWorld.step] at h
    split at h
    · cases h
    · rename_i hload
      exact waits_step h (bumps_lockedRow (by simpa using hload))
  | lockApplication appId request =>
    simp only [lockSystem, LockWorld.step] at h
    split at h
    · rename_i app hvalid happ
      obtain ⟨locked, hins, rfl⟩ := Option.map_eq_some_iff.mp h
      refine .lock ⟨app, request⟩ _ ?_ hvalid rfl rfl fun id t ht => ?_
      · rw [Table.key_of_get happ, happ]
      · exact (Table.get_insert_cases hins ht).imp_right And.right
    · cases h
  | commitRelease s =>
    simp only [lockSystem, LockWorld.step] at h
    split at h
    · rename_i hlocked
      obtain ⟨db', hdb, rfl⟩ := Option.map_eq_some_iff.mp h
      obtain ⟨hvalid, hagree⟩ := hheld s.app.id s hlocked
      have hstep := commitLocked_step hvalid hagree (committed_eq_some.mp hdb)
      refine .run s.action _ _ hstep rfl (by rw [lockedRelease_bumps]; rfl) fun id t ht => ?_
      obtain ⟨ht, hne⟩ := erase_some ht
      rw [lockedRelease_bumps]
      exact ⟨ht, fun he => hne (Option.some.inj he)⟩
    · cases h
  | abandon appId =>
    cases h
    exact .quiet _ rfl rfl fun id s hs => (erase_some hs).1
  | loadApplication appId payload =>
    simp only [lockSystem, LockWorld.step] at h
    split at h
    · split at h
      · cases h
        exact .quiet _ rfl rfl fun id s hs => hs
      · cases h
    · cases h
  | commitUpdate u =>
    simp only [lockSystem, LockWorld.step] at h
    split at h
    · exact waits_step h (by rintro id ⟨⟩)
    · cases h

/-! ### Deployment events -/

lemma deploymentGenerations_append {new : List OutboxEvent} (h : db'.outbox = db.outbox ++ new) (k : Uuid) :
    deploymentGenerations db' k = deploymentGenerations db k ++ new.filterMap (OutboxEvent.deploymentOf k) := by
  rw [deploymentGenerations, h, List.filterMap_append]
  rfl

/-- A step announces no deployment of an application, or bumps it and announces its new generation. -/
lemma step_deployments {a : Action} (h : (system cfg).step w a = some w') (k : Uuid) :
    deploymentGenerations w'.db k = deploymentGenerations w.db k ∨
    ∃ app, a.bumps w.db = some k ∧ w.db.apps.get k = some app ∧
      deploymentGenerations w'.db k = deploymentGenerations w.db k ++ [app.desiredGeneration + 1] := by
  obtain ⟨new, hnew, hann⟩ := step_outbox h
  have hgrow := deploymentGenerations_append hnew k
  have hnone : (∀ e ∈ new, e.deploymentOf k = none) → deploymentGenerations w'.db k = deploymentGenerations w.db k := by
    intro hall
    rw [hgrow, List.filterMap_eq_nil_iff.mpr hall, List.append_nil]
  cases hann with
  | plain _ _ _ hplain =>
    refine .inl (hnone fun e he => ?_)
    have hp := hplain e he
    unfold OutboxEvent.deploymentOf
    split
    · rename_i hpayload
      rw [hpayload] at hp
      cases hp
    · rfl
  | alreadyCancelled => exact .inl (hnone fun e he => nomatch he)
  | cancelled _ _ e _ _ he => exact .inl (hnone (by simp [OutboxEvent.deploymentOf, he]))
  | succeeded _ _ _ e he => exact .inl (hnone (by simp [OutboxEvent.deploymentOf, he]))
  | failed _ _ _ _ e he => exact .inl (hnone (by simp [OutboxEvent.deploymentOf, he]))
  | deployed b appId app release digest config rollbackOf e hb happ he =>
    by_cases hk : appId = k
    · subst hk
      refine .inr ⟨app, ?_, happ, ?_⟩
      · rcases hb with ⟨payload, rfl⟩ | ⟨target, rfl⟩ <;> rfl
      · rw [hgrow]
        simp [OutboxEvent.deploymentOf, he]
    · exact .inl (hnone (by simp [OutboxEvent.deploymentOf, he, hk]))

/-! ### Invariant -/

/-- The generation of an application counts its bumps. -/
structure Counted (db : Db) (bumped : List Uuid) : Prop where
  app : ∀ k a, db.apps.get k = some a → a.desiredGeneration = 1 + bumped.count k
  absent : ∀ k, db.apps.get k = none → bumped.count k = 0

/-- Deployment events carry increasing generations, up to that of their application. -/
structure Announced (db : Db) : Prop where
  below : ∀ k a g, db.apps.get k = some a → g ∈ deploymentGenerations db k → g ≤ a.desiredGeneration
  absent : ∀ k, db.apps.get k = none → deploymentGenerations db k = []
  increasing : ∀ k, (deploymentGenerations db k).Pairwise (· < ·)

structure LockInv (cfg : Settings) (f : LockWorld) : Prop where
  world : WorldOK f.world
  held : Held cfg f
  counted : Counted f.world.db f.bumped
  announced : Announced f.world.db

lemma lockInv_init : LockInv cfg LockWorld.init where
  world := worldOK_init
  held := by rintro id s ⟨⟩
  counted := ⟨by rintro k a ⟨⟩, fun _ _ => rfl⟩
  announced := ⟨by rintro k a g ⟨⟩, fun _ _ => rfl, fun _ => List.Pairwise.nil⟩

/-- A bumped application exists. -/
lemma bumps_app {a : Action} (hw : WorldOK w) (h : (system cfg).step w a = some w') (k : Uuid)
    (hk : a.bumps w.db = some k) : w.db.apps.get k ≠ none := by
  rcases step_cases h with ⟨d, rfl, rfl⟩ | ⟨b, db', c', rfl, hjob, rfl⟩ | ⟨b, db', c', rfl, hserv, rfl⟩
  · cases hk
  · cases hk
  · cases b with
    | deployRelease appId payload =>
      cases hk
      obtain ⟨app, happ, -⟩ := deployRelease_inv (commit_inv hserv).1
      simp [happ]
    | rollbackRelease appId target =>
      cases hk
      obtain ⟨app, t, happ, -⟩ := rollbackRelease_inv (commit_inv hserv).1
      simp [happ]
    | markBuildSucceeded task digest =>
      obtain ⟨r, hr, rfl⟩ := Option.map_eq_some_iff.mp hk
      obtain ⟨app, happ⟩ := hw.releases.releaseApp hr
      exact fun hnone => Option.some_ne_none app (happ.symm.trans hnone)
    | _ => cases hk

section AppsStep

variable {n : Option Uuid} {k : Uuid}

/-- The row of an application before a step, or its absence. -/
lemma AppsStep.before (h : AppsStep db db' n) {a' : Application} (ha' : db'.apps.get k = some a') :
    (∃ a, db.apps.get k = some a ∧ a'.desiredGeneration = a.desiredGeneration + if n = some k then 1 else 0) ∨
    (db.apps.get k = none ∧ a'.desiredGeneration = 1) := by
  cases ha : db.apps.get k with
  | some a =>
    obtain ⟨b, hb, -, hgen⟩ := h.kept k a ha
    rw [ha'] at hb
    cases hb
    exact .inl ⟨a, rfl, hgen⟩
  | none => exact .inr ⟨rfl, (h.created k a' ha ha').1.generation⟩

lemma AppsStep.none_before (h : AppsStep db db' n) (hnone : db'.apps.get k = none) : db.apps.get k = none := by
  cases ha : db.apps.get k with
  | none => rfl
  | some a =>
    obtain ⟨b, hb, -⟩ := h.kept k a ha
    rw [hnone] at hb
    cases hb

end AppsStep

lemma count_bumps (bumped : List Uuid) (n : Option Uuid) (k : Uuid) :
    (bumped ++ n.toList).count k = bumped.count k + if n = some k then 1 else 0 := by
  rw [List.count_append]
  cases n with
  | none => rfl
  | some id =>
    rw [Option.toList_some, List.count_singleton]
    simp only [beq_iff_eq, Option.some.injEq]

lemma Counted.step {bumped : List Uuid} {n : Option Uuid} (hc : Counted db bumped) (happs : AppsStep db db' n)
    (hn : ∀ k, n = some k → db.apps.get k ≠ none) : Counted db' (bumped ++ n.toList) := by
  constructor
  · intro k a' ha'
    rw [count_bumps]
    rcases happs.before ha' with ⟨a, ha, hgen⟩ | ⟨hnone, hone⟩
    · rw [hgen, hc.app k a ha, Nat.add_assoc]
    · rw [hone, hc.absent k hnone, if_neg fun hk => hn k hk hnone]
  · intro k hnone
    have hbefore := happs.none_before hnone
    rw [count_bumps, hc.absent k hbefore, if_neg fun hk => hn k hk hbefore]

lemma Announced.step {a : Action} (hi : Announced w.db) (h : (system cfg).step w a = some w') :
    Announced w'.db := by
  have happs := step_apps h
  constructor
  · intro k a' g ha' hg
    rcases step_deployments h k with hsame | ⟨app, hk, happ, hgrow⟩
    · rw [hsame] at hg
      rcases happs.before ha' with ⟨b, hb, hgen⟩ | ⟨hnone, -⟩
      · rw [hgen]
        exact Nat.le_add_right_of_le (hi.below k b g hb hg)
      · rw [hi.absent k hnone] at hg
        cases hg
    · obtain ⟨b, hb, -, hgen⟩ := happs.kept k app happ
      rw [ha'] at hb
      cases hb
      rw [hgen, if_pos hk]
      rw [hgrow] at hg
      rcases List.mem_append.mp hg with hg | hg
      · exact Nat.le_succ_of_le (hi.below k app g happ hg)
      · exact (List.mem_singleton.mp hg).le
  · intro k hnone
    have hbefore := happs.none_before hnone
    rcases step_deployments h k with hsame | ⟨app, -, happ, -⟩
    · rw [hsame, hi.absent k hbefore]
    · rw [hbefore] at happ
      cases happ
  · intro k
    rcases step_deployments h k with hsame | ⟨app, -, happ, hgrow⟩
    · rw [hsame]
      exact hi.increasing k
    · rw [hgrow]
      refine List.pairwise_append.mpr ⟨hi.increasing k, List.pairwise_singleton _ _, ?_⟩
      intro g hg n hn
      rw [List.mem_singleton.mp hn]
      exact Nat.lt_succ_of_le (hi.below k app g happ hg)

/-- A handler with the lock still agrees with its row after a step that does not bump it. -/
lemma Agrees.step {app : Application} {n : Option Uuid} (h : Agrees db app) (happs : AppsStep db db' n)
    (hn : n ≠ some app.id) : Agrees db' app := by
  obtain ⟨a, ha, hws, hgen⟩ := h
  obtain ⟨b, hb, ⟨hbws, -⟩, hbgen⟩ := happs.kept _ a ha
  rw [if_neg hn] at hbgen
  exact ⟨b, hb, hbws.trans hws, hbgen.trans hgen⟩

lemma lockInv_step {a : LockAction} (hi : LockInv cfg f) (h : (lockSystem cfg).step f a = some f') :
    LockInv cfg f' := by
  cases lock_step hi.held h with
  | run b w _ hstep hw hbumped hlocked =>
    subst hw
    refine ⟨hi.world.step hstep, fun id s hs => ?_, ?_, hi.announced.step hstep⟩
    · obtain ⟨hs, hne⟩ := hlocked id s hs
      obtain ⟨hvalid, hagree⟩ := hi.held id s hs
      have hid : s.appId = id := Table.key_of_get hs
      exact ⟨hvalid, hagree.step (step_apps hstep) fun he => hne (he.trans (congrArg some hid))⟩
    · rw [hbumped]
      exact hi.counted.step (step_apps hstep) (bumps_app hi.world hstep)
  | lock s _ happ hvalid hw hbumped hlocked =>
    refine ⟨hw ▸ hi.world, fun id t ht => ?_, by rw [hw, hbumped]; exact hi.counted, hw ▸ hi.announced⟩
    rw [hw]
    rcases hlocked id t ht with ht | rfl
    · exact hi.held id t ht
    · exact ⟨hvalid, _, happ, rfl, rfl⟩
  | quiet _ hw hbumped hlocked =>
    refine ⟨hw ▸ hi.world, fun id t ht => ?_, by rw [hw, hbumped]; exact hi.counted, hw ▸ hi.announced⟩
    rw [hw]
    exact hi.held id t (hlocked id t ht)

/-- No lost generation: whatever the interleaving, the generation of an application is one plus the number of
its committed deploys, rollbacks and successful builds, and no two of its deployment events carry the same one. -/
theorem no_lost_generation (cfg : Settings) (h : (lockSystem cfg).Reachable f) {appId : Uuid} {app : Application}
    (happ : f.world.db.apps.get appId = some app) :
    app.desiredGeneration = 1 + f.bumped.count appId ∧ (deploymentGenerations f.world.db appId).Nodup := by
  have hi : LockInv cfg f :=
    System.Reach.invariant lockInv_init (fun _ _ _ hi _ hstep => lockInv_step hi hstep) h
  exact ⟨hi.counted.app appId app happ, (hi.announced.increasing appId).imp fun hlt => hlt.ne⟩

/-- Application `1` of repository `0`: two deploys, the second one while a `PATCH` has loaded the row. -/
def deployTwice : (lockSystem Settings.default).FreeRun where
  labels := [.other (.service (.createRepository 100)),
    .other (.service (.createApplication 100 ⟨"web", some 0, some "dev"⟩)),
    .loadApplication 1 ⟨none, some "main"⟩,
    .lockApplication 1 (.deploy ⟨"quay.io/web", defaultReleaseConfig⟩),
    .commitRelease ⟨⟨1, 100, "web", 1, none, some 0, some "dev", 0⟩, .deploy ⟨"quay.io/web", defaultReleaseConfig⟩⟩,
    .commitUpdate ⟨⟨1, 100, "web", 1, none, some 0, some "dev", 0⟩, ⟨none, some "main"⟩⟩,
    .lockApplication 1 (.rollback 3),
    .commitRelease ⟨⟨1, 100, "web", 2, none, some 0, some "main", 0⟩, .rollback 3⟩]
  executes := by decide +kernel

theorem no_lost_generation_deployTwice : ∃ f app, (lockSystem Settings.default).Reachable f ∧
    f.world.db.apps.get 1 = some app ∧ app.gitBranch = some "main" ∧ f.bumped = [1, 1] ∧
    deploymentGenerations f.world.db 1 = [2, 3] ∧
    (app.desiredGeneration = 1 + f.bumped.count 1 ∧ (deploymentGenerations f.world.db 1).Nodup) := by
  have hbranch : (deployTwice.final.world.db.apps.get 1).map Application.gitBranch = some (some "main") := by
    decide +kernel
  obtain ⟨app, happ, hmain⟩ := Option.map_eq_some_iff.mp hbranch
  exact ⟨_, app, deployTwice.reachable, happ, hmain, by decide +kernel, by decide +kernel,
    no_lost_generation _ deployTwice.reachable happ⟩

end HamiCloud.Proofs
