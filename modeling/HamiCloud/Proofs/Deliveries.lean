import HamiCloud.Runtime.Deliveries
import HamiCloud.Proofs.Numbering

/-!
# Duplicate deliveries

The answers to the deliveries of one key are that of the recorded one followed by `DUPLICATE`s, as long as every
delivery can be recorded and no commit that handles no collision meets one.
-/

namespace HamiCloud

open Library

/-- The answers to the deliveries of one key, oldest first. -/
def answersOf (d : DeliveryWorld) (key : DeliveryKey) : List DeliveryAnswer :=
  (d.answers.filter (fun x => x.1 = key)).map Prod.snd

/-- A delivery has an id and is recorded already or can be handled. At its commit the id and the event name fit their
columns; a commit without a handler finds no recorded delivery, and a processed push has a commit and a branch that fit
their columns and finds the release numbers it has read to be still the next ones. -/
def undisturbed (d : DeliveryWorld) : DeliveryAction → Bool
  | .receive req => req.deliveryId ≠ "" && ((d.deliveries.get req.key).isSome || req.handling.toOption.isSome)
  | .commit p _ =>
    (p.request.row .processed).fitsColumns &&
    match p.request.handling, p.plan with
    | .ok (.build _ _), some plan =>
      if plan.builds = [] then (d.deliveries.get p.request.key).isNone
      else plan.fitsColumns && plan.builds.all (fun b => b.releaseNumber = nextReleaseNumber d.world.db b.app.id)
    | _, _ => (d.deliveries.get p.request.key).isNone
  | _ => true

/-- One release and one `app.build.requested` event for each planned build. -/
def Builds (plan : WebhookPlan) (db db' : Db) : Prop :=
  ∃ releases events, db'.releases.rows = db.releases.rows ++ releases ∧ db'.outbox = db.outbox ++ events ∧
    releases.map Release.applicationId = plan.builds.map (fun b => b.app.id) ∧
    events.map OutboxEvent.payload = releases.map (fun r =>
      .appBuildRequested r.id r.applicationId plan.repositoryId (some plan.commitSha) plan.branch)

end HamiCloud

namespace HamiCloud.Proofs

open Library

variable {cfg : Settings} {db db' : Db} {d d' : DeliveryWorld}

/-- The release of a planned build waits for the image of the commit on the branch. -/
structure Planned (plan : WebhookPlan) (b : PlannedBuild) (r : Release) : Prop where
  app : r.applicationId = b.app.id
  repository : r.repositoryId = some plan.repositoryId
  commit : r.commitSha = some plan.commitSha
  branch : r.gitRef = some plan.branch
  status : r.status = .requested

lemma insertPlanned_builds {plan : WebhookPlan} {b : PlannedBuild} (h : insertPlanned plan db b = .ok db') :
    ∃ r e, db'.releases.rows = db.releases.rows ++ [r] ∧ db'.outbox = db.outbox ++ [e] ∧ Planned plan b r ∧
      e.payload = .appBuildRequested r.id r.applicationId plan.repositoryId (some plan.commitSha) plan.branch := by
  simp only [insertPlanned, bind_eq_ok, orError_eq_ok, pure_eq_ok] at h
  obtain ⟨-, -, db₁, hins, rfl⟩ := h
  obtain ⟨releases, -, hrel, rfl⟩ := insertRelease_inv hins
  have hrows := Table.rows_insert hrel
  exact ⟨_, _, hrows, rfl, ⟨rfl, rfl, rfl, rfl, rfl⟩, rfl⟩

/-- The loop of the commit inserts one release and one event for each planned build, in their order. -/
lemma commitWebhook_planned {plan : WebhookPlan} (h : commitWebhook db plan = .ok db') :
    ∃ releases events, db'.releases.rows = db.releases.rows ++ releases ∧ db'.outbox = db.outbox ++ events ∧
      List.Forall₂ (Planned plan) plan.builds releases ∧
      events.map OutboxEvent.payload = releases.map (fun r =>
        .appBuildRequested r.id r.applicationId plan.repositoryId (some plan.commitSha) plan.branch) := by
  unfold commitWebhook at h
  generalize plan.builds = builds at h
  induction builds generalizing db with
  | nil =>
    rw [List.foldlM_nil, pure_eq_ok] at h
    exact ⟨[], [], by simp [h], by simp [h], .nil, rfl⟩
  | cons b builds ih =>
    rw [List.foldlM_cons, bind_eq_ok] at h
    obtain ⟨db₁, hb, hrest⟩ := h
    obtain ⟨r, e, hrow, hout, hr, he⟩ := insertPlanned_builds hb
    obtain ⟨releases, events, hrel, hev, hplanned, hpay⟩ := ih hrest
    refine ⟨r :: releases, e :: events, ?_, ?_, .cons hr hplanned, ?_⟩
    · rw [hrel, hrow, List.append_assoc, List.singleton_append]
    · rw [hev, hout, List.append_assoc, List.singleton_append]
    · rw [List.map_cons, List.map_cons, hpay, he]

lemma planned_apps {plan : WebhookPlan} {builds : List PlannedBuild} {releases : List Release}
    (h : List.Forall₂ (Planned plan) builds releases) :
    releases.map Release.applicationId = builds.map (fun b => b.app.id) := by
  induction h with
  | nil => rfl
  | cons hr _ ih => rw [List.map_cons, List.map_cons, ih, hr.app]

lemma commitWebhook_builds {plan : WebhookPlan} (h : commitWebhook db plan = .ok db') : Builds plan db db' := by
  obtain ⟨releases, events, hrel, hev, hplanned, hpay⟩ := commitWebhook_planned h
  exact ⟨releases, events, hrel, hev, planned_apps hplanned, hpay⟩

/-- Only a push with matching applications is recorded as processed. -/
lemma handling_record {req : DeliveryRequest} {status : DeliveryStatus} (h : req.handling = .ok (.record status)) :
    status ≠ .processed := by
  unfold DeliveryRequest.handling at h
  split_ifs at h
  · cases h
    decide
  · cases h
    decide
  · split at h
    · cases h
    · cases h
    · split at h
      · split_ifs at h
        · cases h
          decide
        · cases h
      · cases h
        decide

lemma insertDelivery_ok {deliveries : Table WebhookDelivery.key} {row : WebhookDelivery} (hfits : row.fitsColumns = true)
    (hfree : deliveries.get row.key = none) :
    ∃ deliveries', insertDelivery deliveries row = .ok deliveries' ∧ deliveries.insert row = some deliveries' := by
  obtain ⟨deliveries', hins⟩ := Table.exists_insert hfree
  refine ⟨deliveries', ?_, hins⟩
  rw [insertDelivery, ensure, if_pos hfits, hins]
  rfl

/-- A row that fits its columns is refused only for its key. -/
lemma insertDelivery_error {deliveries : Table WebhookDelivery.key} {row : WebhookDelivery} {e : ApiError}
    (hfits : row.fitsColumns = true) (h : insertDelivery deliveries row = .error e) :
    e = .integrity ∧ (deliveries.get row.key).isSome = true := by
  cases hget : deliveries.get row.key with
  | none =>
    obtain ⟨deliveries', hok, -⟩ := insertDelivery_ok hfits hget
    rw [hok] at h
    cases h
  | some old =>
    cases hins : deliveries.insert row with
    | none =>
      rw [insertDelivery, ensure, if_pos hfits, hins] at h
      cases h
      exact ⟨rfl, rfl⟩
    | some deliveries' =>
      rw [Table.fresh_of_insert hins] at hget
      cases hget

/-! ### Steps -/

/-- What a step does if its commit is undisturbed. -/
inductive DeliveryStep (cfg : Settings) (d : DeliveryWorld) : DeliveryAction → DeliveryWorld → Prop
  | other (a : Action) (w : World) : (system cfg).step d.world a = some w →
      DeliveryStep cfg d (.other a) { d with world := w }
  | waiting (req : DeliveryRequest) : DeliveryStep cfg d (.receive req) { d with pending := d.pending ++ [⟨req, none⟩] }
  | read (p : PendingDelivery) (plan : WebhookPlan) (a : Action) (w : World) : (system cfg).step d.world a = some w →
      w.db = d.world.db → plan ∈ w.services.webhooks →
      DeliveryStep cfg d (.read p) { d with world := w, pending := d.pending.erase p ++ [{ p with plan := some plan }] }
  | duplicate (a : DeliveryAction) (pending : List PendingDelivery) (key : DeliveryKey) : (∀ b, a ≠ .other b) →
      pending ⊆ d.pending → (d.deliveries.get key).isSome = true →
      DeliveryStep cfg d a ({ d with pending := pending }.answer key .duplicate)
  | recorded (p : PendingDelivery) (first : Bool) (row : WebhookDelivery) (deliveries : Table WebhookDelivery.key) :
      row.key = p.request.key → row.status ≠ .processed → d.deliveries.insert row = some deliveries →
      DeliveryStep cfg d (.commit p first)
        ({ d with pending := d.pending.erase p, deliveries := deliveries }.answer row.key (.recorded row.status))
  | built (p : PendingDelivery) (first : Bool) (plan : WebhookPlan) (row : WebhookDelivery)
      (deliveries : Table WebhookDelivery.key) (db : Db) : row.key = p.request.key → row.status = .processed →
      d.deliveries.insert row = some deliveries → p.plan = some plan → commitWebhook d.world.db plan = .ok db →
      (system cfg).step d.world (.service (.commitWebhook plan)) = some { d.world with db := db } →
      DeliveryStep cfg d (.commit p first)
        ({ d with world := { d.world with db := db }, pending := d.pending.erase p,
                  deliveries := deliveries }.answer row.key (.recorded .processed))

structure DeliveryInv (d : DeliveryWorld) : Prop where
  numbers : NumberInv d.world
  plans : ∀ p ∈ d.pending, ∀ plan, p.plan = some plan → plan ∈ d.world.services.webhooks
  /-- the recorded delivery answers first -/
  answered : ∀ key, (d.deliveries.get key = none ∧ answersOf d key = []) ∨
    ∃ row n, d.deliveries.get key = some row ∧ answersOf d key = .recorded row.status :: List.replicate n .duplicate

lemma recordOnly_step {p : PendingDelivery} {first : Bool} {status : DeliveryStatus} (hstatus : status ≠ .processed)
    (hfits : (p.request.row status).fitsColumns = true) (hfree : (d.deliveries.get p.request.key).isNone = true) :
    DeliveryStep cfg d (.commit p first)
      ({ d with pending := d.pending.erase p }.recordOnly p.request status) := by
  have hnone : d.deliveries.get (p.request.row status).key = none := Option.isNone_iff_eq_none.mp hfree
  obtain ⟨deliveries, hok, hins⟩ := insertDelivery_ok hfits hnone
  simp only [DeliveryWorld.recordOnly, hok]
  exact .recorded p first (p.request.row status) deliveries rfl hstatus hins

lemma recordBuilds_step {p : PendingDelivery} {first : Bool} {plan : WebhookPlan} (hi : DeliveryInv d)
    (hp : p ∈ d.pending) (hplan : p.plan = some plan) (hrow : (p.request.row .processed).fitsColumns = true)
    (hfits : plan.fitsColumns = true)
    (hnext : ∀ b ∈ plan.builds, b.releaseNumber = nextReleaseNumber d.world.db b.app.id) :
    DeliveryStep cfg d (.commit p first)
      ({ d with pending := d.pending.erase p }.recordBuilds p.request plan first) := by
  have hmem := hi.plans p hp plan hplan
  obtain ⟨db, hdb⟩ := commitWebhook_ok hfits hi.numbers.numbered (hi.numbers.plans plan hmem) hnext
  cases hins : insertDelivery d.deliveries (p.request.row .processed) with
  | ok deliveries =>
    simp only [DeliveryWorld.recordBuilds, hdb, hins]
    simp only [insertDelivery, bind_eq_ok, orError_eq_ok] at hins
    obtain ⟨-, -, htable⟩ := hins
    refine .built p first plan (p.request.row .processed) deliveries db rfl rfl htable hplan hdb ?_
    simp [system, World.step, serviceStep, hmem, hdb, committed, Except.toOption]
  | error e =>
    obtain ⟨rfl, hsome⟩ := insertDelivery_error hrow hins
    simp only [DeliveryWorld.recordBuilds, hdb, hins]
    exact .duplicate _ _ _ (by rintro b ⟨⟩) List.erase_subset hsome

lemma commit_delivery {p : PendingDelivery} {first : Bool} (hi : DeliveryInv d)
    (hguard : undisturbed d (.commit p first) = true) (h : d.commit p first = some d') :
    DeliveryStep cfg d (.commit p first) d' := by
  unfold DeliveryWorld.commit at h
  obtain ⟨hrow, hguard⟩ := Bool.and_eq_true_iff.mp hguard
  split at h
  · rename_i hp
    cases hhandling : p.request.handling with
    | error refused => simp [hhandling] at h
    | ok handling =>
      cases handling with
      | record status =>
        simp only [hhandling] at h hguard
        cases h
        exact recordOnly_step (handling_record hhandling) hrow hguard
      | build sha branch =>
        cases hplan : p.plan with
        | none => simp [hhandling, hplan] at h
        | some plan =>
          simp only [hhandling, hplan] at h hguard
          split at h
          · rename_i hempty
            cases h
            rw [if_pos hempty] at hguard
            exact recordOnly_step (by decide) hrow hguard
          · rename_i hbuilds
            cases h
            rw [if_neg hbuilds] at hguard
            obtain ⟨hfits, hnext⟩ := Bool.and_eq_true_iff.mp hguard
            exact recordBuilds_step hi hp hplan hrow hfits (by simpa using hnext)
  · cases h

lemma receive_delivery {req : DeliveryRequest} (hguard : undisturbed d (.receive req) = true)
    (h : d.receive req = some d') : DeliveryStep cfg d (.receive req) d' := by
  simp only [undisturbed, Bool.and_eq_true, Bool.or_eq_true, decide_eq_true_eq] at hguard
  obtain ⟨hid, hknown⟩ := hguard
  unfold DeliveryWorld.receive at h
  split at h
  · split at h
    · rename_i row _ hrow
      cases h
      exact .duplicate _ d.pending _ (by rintro b ⟨⟩) (List.Subset.refl _) (by rw [hrow]; rfl)
    · rename_i refused hnone hrefused
      simp [hnone, hrefused, Except.toOption] at hknown
    · cases h
      exact .waiting req
  · cases h

lemma delivery_step {a : DeliveryAction} (hi : DeliveryInv d) (hguard : undisturbed d a = true)
    (h : (deliverySystem cfg).step d a = some d') : DeliveryStep cfg d a d' := by
  cases a with
  | other b =>
    simp only [deliverySystem, DeliveryWorld.step] at h
    split at h
    · cases h
    · obtain ⟨w, hw, rfl⟩ := Option.map_eq_some_iff.mp h
      exact .other b w hw
  | receive req => exact receive_delivery hguard h
  | read p =>
    simp only [deliverySystem, DeliveryWorld.step, DeliveryWorld.read] at h
    split at h
    · rename_i sha branch _
      split at h
      · split at h
        · rename_i plan hplan
          obtain ⟨w, hw, rfl⟩ := Option.map_eq_some_iff.mp h
          obtain ⟨⟨db, c⟩, hserv, rfl⟩ := Option.map_eq_some_iff.mp hw
          obtain ⟨plan', hplan', rfl, rfl⟩ := readWebhook_step hserv
          rw [hplan] at hplan'
          cases hplan'
          exact .read p plan (.service (.readWebhook p.request.repositoryId sha branch)) _ hw rfl (by simp)
        · cases h
      · cases h
    · cases h
  | commit p first => exact commit_delivery hi hguard h

/-! ### Invariant -/

lemma answersOf_answer (d : DeliveryWorld) (k key : DeliveryKey) (answer : DeliveryAnswer) :
    answersOf (d.answer k answer) key = answersOf d key ++ if k = key then [answer] else [] := by
  unfold answersOf DeliveryWorld.answer
  rw [List.filter_append, List.map_append]
  by_cases hk : k = key <;> simp [hk]

lemma DeliveryInv.recorded {row : WebhookDelivery} {deliveries : Table WebhookDelivery.key} (hi : DeliveryInv d)
    (hins : d.deliveries.insert row = some deliveries) (hd : d'.deliveries = deliveries)
    (ha : d'.answers = d.answers ++ [(row.key, .recorded row.status)]) (key : DeliveryKey) :
    (d'.deliveries.get key = none ∧ answersOf d' key = []) ∨
      ∃ row n, d'.deliveries.get key = some row ∧
        answersOf d' key = .recorded row.status :: List.replicate n .duplicate := by
  have hanswers : answersOf d' key = answersOf d key ++ if row.key = key then [.recorded row.status] else [] := by
    rw [← answersOf_answer]
    exact congrArg (fun l => (l.filter (fun x => x.1 = key)).map Prod.snd) ha
  rw [hd, Table.get_insert hins, hanswers]
  by_cases hk : key = row.key
  · rcases hi.answered key with ⟨-, hnil⟩ | ⟨row', n, hrow', -⟩
    · exact .inr ⟨row, 0, if_pos hk, by rw [hnil, if_pos hk.symm]; rfl⟩
    · rw [hk, Table.fresh_of_insert hins] at hrow'
      cases hrow'
  · rw [if_neg hk, if_neg (Ne.symm hk), List.append_nil]
    exact hi.answered key

lemma DeliveryInv.step {a : DeliveryAction} (hi : DeliveryInv d) (hguard : undisturbed d a = true)
    (h : (deliverySystem cfg).step d a = some d') : DeliveryInv d' := by
  have hgrow : ∀ {w : World} {b : Action}, (system cfg).step d.world b = some w →
      ∀ plan ∈ d.world.services.webhooks, plan ∈ w.services.webhooks := by
    intro w b hw plan hplan
    obtain ⟨new, hnew, -⟩ := step_webhooks hw
    rw [hnew]
    exact List.mem_append_left new hplan
  cases delivery_step hi hguard h with
  | other b w hw =>
    exact ⟨hi.numbers.step hw, fun p hp plan hplan => hgrow hw plan (hi.plans p hp plan hplan), hi.answered⟩
  | waiting req =>
    refine ⟨hi.numbers, fun p hp plan hplan => ?_, hi.answered⟩
    rcases List.mem_append.mp hp with hp | hp
    · exact hi.plans p hp plan hplan
    · rw [List.mem_singleton.mp hp] at hplan
      cases hplan
  | read p plan b w hw _ hmem =>
    refine ⟨hi.numbers.step hw, fun q hq plan' hplan => ?_, hi.answered⟩
    rcases List.mem_append.mp hq with hq | hq
    · exact hgrow hw plan' (hi.plans q (List.erase_subset hq) plan' hplan)
    · rw [List.mem_singleton.mp hq] at hplan
      cases hplan
      exact hmem
  | duplicate _ pending k _ hsub hsome =>
    refine ⟨hi.numbers, fun p hp => hi.plans p (hsub hp), fun key => ?_⟩
    rw [answersOf_answer]
    by_cases hk : k = key
    · subst hk
      rcases hi.answered k with ⟨hnone, -⟩ | ⟨row, n, hrow, hanswers⟩
      · rw [hnone] at hsome
        cases hsome
      · refine .inr ⟨row, n + 1, hrow, ?_⟩
        rw [if_pos rfl, List.replicate_succ', ← List.cons_append, ← hanswers]
        rfl
    · rw [if_neg hk, List.append_nil]
      exact hi.answered key
  | recorded p first row deliveries _ _ hins =>
    exact ⟨hi.numbers, fun q hq => hi.plans q (List.erase_subset hq), hi.recorded hins rfl rfl⟩
  | built p first plan row deliveries db _ hstatus hins _ _ hw =>
    refine ⟨hi.numbers.step hw, fun q hq => hi.plans q (List.erase_subset hq), hi.recorded hins rfl ?_⟩
    rw [hstatus]
    rfl

lemma reach_deliveryInv (h : (deliverySystem cfg).Reach (fun d a => undisturbed d a = true) d) : DeliveryInv d := by
  have hworld : (system cfg).Reachable World.init := .refl _
  have hinit : DeliveryInv DeliveryWorld.init :=
    ⟨reach_numberInv hworld, by rintro p ⟨⟩, fun _ => .inl ⟨rfl, rfl⟩⟩
  exact System.Reach.invariant hinit (fun _ _ _ hi hC hstep => hi.step hC hstep) h

/-- Duplicate deliveries are absorbed: the answers to the deliveries of one key are that of the one that is recorded,
followed by `DUPLICATE`s; a step that records a delivery commits its builds, one release and one event for each
matching application of a processed push and none otherwise, and every other step of a handler leaves the
database as it is. -/
theorem duplicate_deliveries_absorbed (cfg : Settings)
    (h : (deliverySystem cfg).Reach (fun d a => undisturbed d a = true) d) :
    (∀ key, (d.deliveries.get key = none ∧ answersOf d key = []) ∨
      ∃ row n, d.deliveries.get key = some row ∧
        answersOf d key = .recorded row.status :: List.replicate n .duplicate) ∧
    ∀ a d', undisturbed d a = true → (deliverySystem cfg).step d a = some d' → (∀ b, a ≠ .other b) →
      (d'.deliveries = d.deliveries ∧ d'.world.db = d.world.db) ∨
      ∃ p first row, a = .commit p first ∧ row.key = p.request.key ∧ d.deliveries.get row.key = none ∧
        d'.deliveries.rows = d.deliveries.rows ++ [row] ∧
        ((row.status ≠ .processed ∧ d'.world.db = d.world.db) ∨
          (row.status = .processed ∧ ∃ plan, p.plan = some plan ∧ Builds plan d.world.db d'.world.db)) := by
  have hi := reach_deliveryInv h
  refine ⟨hi.answered, fun a d' hguard hstep hother => ?_⟩
  cases delivery_step hi hguard hstep with
  | other b => exact absurd rfl (hother b)
  | waiting => exact .inl ⟨rfl, rfl⟩
  | read p plan b w _ hdb => exact .inl ⟨rfl, hdb⟩
  | duplicate => exact .inl ⟨rfl, rfl⟩
  | recorded p first row deliveries hkey hstatus hins =>
    exact .inr ⟨p, first, row, rfl, hkey, Table.fresh_of_insert hins, Table.rows_insert hins, .inl ⟨hstatus, rfl⟩⟩
  | built p first plan row deliveries db hkey hstatus hins hplan hdb =>
    exact .inr ⟨p, first, row, rfl, hkey, Table.fresh_of_insert hins, Table.rows_insert hins,
      .inr ⟨hstatus, plan, hplan, commitWebhook_builds hdb⟩⟩

def ping : DeliveryRequest := ⟨0, "d-1", "ping", .invalid⟩

def push : DeliveryRequest := ⟨0, "d-2", "push", .push ⟨some "c0ffee1", "refs/heads/main"⟩⟩

/-- Application `1` builds repository `0`; a push is delivered three times, the third time while the first one is
being handled. -/
def redelivered : (deliverySystem Settings.default).Run undisturbed where
  labels := [.other (.service (.createRepository 100)),
    .other (.service (.createApplication 100 ⟨"web", some 0, none⟩)), .receive push, .receive push,
    .read ⟨push, none⟩, .commit ⟨push, some pushPlan⟩ false, .receive push, .read ⟨push, none⟩,
    .commit ⟨push, some { pushPlan with builds := [⟨⟨1, 100, "web", 1, none, some 0, some "main", 0⟩, 2,
      defaultReleaseConfig⟩] }⟩ false]
  executes := by decide +kernel

theorem duplicate_deliveries_absorbed_push : ∃ d,
    (deliverySystem Settings.default).Reach (fun d a => undisturbed d a = true) d ∧
    answersOf d push.key = [.recorded .processed, .duplicate, .duplicate] ∧
    (∀ key, (d.deliveries.get key = none ∧ answersOf d key = []) ∨
      ∃ row n, d.deliveries.get key = some row ∧
        answersOf d key = .recorded row.status :: List.replicate n .duplicate) :=
  ⟨_, redelivered.reach, by decide +kernel, (duplicate_deliveries_absorbed Settings.default redelivered.reach).1⟩

/-- Two deliveries of one ping pass the check before either commits. -/
def racingPings : (deliverySystem Settings.default).FreeRun where
  labels := [.other (.service (.createRepository 100)), .receive ping, .receive ping, .commit ⟨ping, none⟩ false,
    .commit ⟨ping, none⟩ false]
  executes := by decide +kernel

/-- Two deliveries of one push have read the same release number before either commits. -/
def racingPushes : (deliverySystem Settings.default).FreeRun where
  labels := [.other (.service (.createRepository 100)),
    .other (.service (.createApplication 100 ⟨"web", some 0, none⟩)), .receive push, .receive push,
    .read ⟨push, none⟩, .read ⟨push, none⟩, .commit ⟨push, some pushPlan⟩ false, .commit ⟨push, some pushPlan⟩ false]
  executes := by decide +kernel

/-- The second one is answered 500. -/
theorem racing_deliveries_fail : ∃ d d', (deliverySystem Settings.default).Reachable d ∧
    answersOf d ping.key = [.recorded .pingAcknowledged, .serverError] ∧
    (deliverySystem Settings.default).Reachable d' ∧
    answersOf d' push.key = [.recorded .processed, .serverError] :=
  ⟨_, _, racingPings.reachable, by decide +kernel, racingPushes.reachable, by decide +kernel⟩

end HamiCloud.Proofs
