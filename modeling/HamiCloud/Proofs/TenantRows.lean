import HamiCloud.Proofs.AppLocks
import HamiCloud.Proofs.DeadLetters
import HamiCloud.Proofs.Numbering
import HamiCloud.Protocol.Rollout

/-!
# Rows stay with their tenant

The attempts and the dead letter of a job are inserted with the workspace of the job, the releases of an application with
that of the application, and no statement moves a row to another workspace.
-/

namespace HamiCloud

open Library

/-- The attempts and the dead letter of a job and the releases of an application have its workspace. -/
structure TenantRows (db : Db) : Prop where
  attempts : ∀ a ∈ db.attempts.rows, ∀ j ∈ db.jobs.get a.jobId, a.workspaceId = j.workspaceId
  deadLetters : ∀ r ∈ db.deadLetters.rows, ∀ j ∈ db.jobs.get r.jobId, r.workspaceId = j.workspaceId
  releases : ∀ r ∈ db.releases.rows, ∀ a ∈ db.apps.get r.applicationId, r.workspaceId = a.workspaceId

end HamiCloud

namespace HamiCloud.Proofs

open Library JobState

variable {cfg : Settings} {db db' : Db} {w w' : World}

/-! ### Dead letters -/

/-- The letters of a table after a write for one job: each has the workspace it had before, or is that of the job and
has a given workspace. -/
def LettersFrom (t t' : Table DeadLetterRecord.jobId) (jobId workspaceId : Uuid) : Prop :=
  ∀ k r', t'.get k = some r' → (∃ r, t.get k = some r ∧ r'.workspaceId = r.workspaceId) ∨
    k = jobId ∧ r'.workspaceId = workspaceId

lemma LettersFrom.refl (t : Table DeadLetterRecord.jobId) (jobId workspaceId : Uuid) :
    LettersFrom t t jobId workspaceId := fun _ r' hr' => .inl ⟨r', hr', rfl⟩

lemma LettersFrom.trans {t t' t'' : Table DeadLetterRecord.jobId} {jobId workspaceId : Uuid}
    (h : LettersFrom t t' jobId workspaceId) (h' : LettersFrom t' t'' jobId workspaceId) :
    LettersFrom t t'' jobId workspaceId := by
  intro k r'' hr''
  rcases h' k r'' hr'' with ⟨r', hr', hws'⟩ | hnew
  · rcases h k r' hr' with ⟨r, hr, hws⟩ | ⟨hk, hws⟩
    · exact .inl ⟨r, hr, hws'.trans hws⟩
    · exact .inr ⟨hk, hws'.trans hws⟩
  · exact .inr hnew

lemma LettersFrom.insert {t t' : Table DeadLetterRecord.jobId} {r : DeadLetterRecord} (h : t.insert r = some t') :
    LettersFrom t t' r.jobId r.workspaceId := by
  intro k r' hr'
  rcases Table.get_insert_cases h hr' with hold | ⟨hk, rfl⟩
  · exact .inl ⟨r', hold, rfl⟩
  · exact .inr ⟨hk, rfl⟩

lemma upsertDeadLetter_from (t : Table DeadLetterRecord.jobId) (r : DeadLetterRecord) :
    LettersFrom t (upsertDeadLetter t r) r.jobId r.workspaceId := by
  unfold upsertDeadLetter
  split
  · rename_i t' hins
    exact .insert hins
  · intro k r' hr'
    rw [Table.get_set] at hr'
    split at hr'
    · rename_i hk
      obtain ⟨old, hold, rfl⟩ := Option.map_eq_some_iff.mp hr'
      exact .inl ⟨old, hk ▸ hold, rfl⟩
    · exact .inl ⟨r', hr', rfl⟩

lemma jobsInsertDeadLetter_from (db : Db) (job : Job) :
    LettersFrom db.deadLetters (jobsInsertDeadLetter db job) job.id job.workspaceId := by
  unfold jobsInsertDeadLetter
  split
  · exact upsertDeadLetter_from _ _
  · cases hins : db.deadLetters.insert ⟨job.id, job.workspaceId, job.currentAttemptNumber, none,
        some "Job reached FAILED state", db.now⟩ with
    | none => exact .refl _ _ _
    | some t => exact .insert hins

lemma updateJob_from {jobId : Uuid} {sources : List JobState} {f : Job → Job} {hf : ∀ j, (f j).id = j.id} {j' : Job}
    (h : updateJob db jobId sources f hf = some (j', db')) :
    LettersFrom db.deadLetters db'.deadLetters jobId j'.workspaceId := by
  unfold updateJob at h
  split at h
  · cases h
  · rename_i old jobs hmod
    obtain ⟨hget, -, -⟩ := Table.modify_eq_some.mp hmod
    simp only [Option.some.injEq, Prod.mk.injEq] at h
    obtain ⟨rfl, rfl⟩ := h
    have hid : (f old).id = jobId := (hf old).trans (Table.key_of_get hget)
    dsimp only
    split
    · exact hid ▸ jobsInsertDeadLetter_from db (f old)
    · exact .refl _ _ _

lemma mayUpsert_from (t : Table DeadLetterRecord.jobId) (r : DeadLetterRecord) (p : Prop) [Decidable p] :
    LettersFrom t (if p then upsertDeadLetter t r else t) r.jobId r.workspaceId := by
  split
  · exact upsertDeadLetter_from t r
  · exact .refl _ _ _

/-- The two transactions that may fail a job write a letter of the workspace of the job. -/
lemma jobStep_letters {c c' : JobClients} {b : JobAction} (h : jobStep cfg db c b = some (db', c')) :
    db'.deadLetters = db.deadLetters ∨
      ∃ k j, db.jobs.get k = some j ∧ LettersFrom db.deadLetters db'.deadLetters k j.workspaceId := by
  cases b with
  | confirmJobRecovery item deleteConfirmed =>
    obtain ⟨retry, -, -, hdb, -⟩ := confirmJobRecovery_step h
    unfold confirmJobRecovery at hdb
    simp only [bind_eq_ok, orError_eq_ok, pure_eq_ok] at hdb
    obtain ⟨⟨j', db₁⟩, hu, rfl⟩ := hdb
    obtain ⟨j, dead, hj, -, rfl, -⟩ := updateJob_inv hu
    have hid : j.id = item.jobId := Table.key_of_get hj
    exact .inr ⟨item.jobId, j, hj, (updateJob_from hu).trans (hid ▸ mayUpsert_from _ _ _)⟩
  | markJobAttemptFailed wl reason exitCode =>
    have hdb := (held_commit_inv h).2.1
    unfold markJobAttemptFailed at hdb
    simp only [bind_eq_ok, orError_eq_ok, pure_eq_ok] at hdb
    obtain ⟨db₁, hfence, -, -, ⟨j', db₂⟩, hu, rfl⟩ := hdb
    obtain ⟨-, i, -, -, -, rfl⟩ := fenceJobIntent_inv hfence
    obtain ⟨j, dead, hj, -, rfl, -⟩ := updateJob_inv hu
    exact .inr ⟨wl.jobId, j, hj, (updateJob_from hu).trans (mayUpsert_from _ _ _)⟩
  | _ => exact .inl (jobStep_deadLetters h rfl)

/-- A letter has the workspace it had before a step, or that of its job. -/
lemma step_letter {a : Action} (hstep : (system cfg).step w a = some w') {k : Uuid} {r' : DeadLetterRecord}
    (hr' : w'.db.deadLetters.get k = some r') :
    (∃ r, w.db.deadLetters.get k = some r ∧ r'.workspaceId = r.workspaceId) ∨
      ∃ j, w.db.jobs.get k = some j ∧ r'.workspaceId = j.workspaceId := by
  rcases step_cases hstep with ⟨d, rfl, rfl⟩ | ⟨act, db', c', rfl, hact, rfl⟩ | ⟨act, db', c', rfl, hact, rfl⟩
  · exact .inl ⟨r', hr', rfl⟩
  · rcases jobStep_letters hact with he | ⟨k₀, j, hj, hfrom⟩
    · exact .inl ⟨r', he ▸ hr', rfl⟩
    · rcases hfrom k r' hr' with hold | ⟨rfl, hws⟩
      · exact .inl hold
      · exact .inr ⟨j, hj, hws⟩
  · exact .inl ⟨r', serviceStep_deadLetters hact ▸ hr', rfl⟩

/-! ### Attempts -/

/-- A new attempt has the workspace of the job that was scanned, which is that of the job. -/
lemma step_newAttempt {a : Action} (hw : WorldOK w) (hstep : (system cfg).step w a = some w') {k : Uuid}
    {b : JobAttempt} (hnone : w.db.attempts.get k = none) (hb : w'.db.attempts.get k = some b) :
    ∃ j, w.db.jobs.get b.jobId = some j ∧ b.workspaceId = j.workspaceId := by
  obtain ⟨jobId, hevent⟩ := (job_side hw hstep).new_attempt hnone hb
  rcases step_cases hstep with ⟨d, rfl, rfl⟩ | ⟨act, db', c', rfl, hjob, rfl⟩ | ⟨act, db', c', rfl, hserv, rfl⟩
  · cases hevent
  · cases act with
    | createJobAttemptIntent job =>
      obtain ⟨i, hmem, hdb, -⟩ := createJobAttemptIntent_step hjob
      obtain ⟨j, a, q, hadm⟩ := createJobAttemptIntent_inv hdb
      obtain ⟨j₀, hj₀, -, -, hws⟩ := hw.jobClients.unadmitted job hmem
      rcases Table.get_insert_cases hadm.attempts hb with hold | ⟨-, rfl⟩
      · rw [hnone] at hold
        cases hold
      · exact ⟨j₀, hadm.attempt.2.1 ▸ hj₀, hadm.workspace.trans hws⟩
    | _ => cases hevent
  · cases hevent

/-! ### Releases -/

lemma commitWebhook_new {plan : WebhookPlan} (h : commitWebhook db plan = .ok db') {k : Uuid} {r : Release}
    (hr : db'.releases.get k = some r) : db.releases.get k = some r ∨
      ∃ b ∈ plan.builds, r.applicationId = b.app.id ∧ r.workspaceId = b.app.workspaceId := by
  unfold commitWebhook at h
  generalize plan.builds = builds at h
  induction builds generalizing db with
  | nil =>
    rw [List.foldlM_nil, pure_eq_ok] at h
    exact .inl (h ▸ hr)
  | cons b builds ih =>
    simp only [List.foldlM_cons, insertPlanned, bind_eq_ok, orError_eq_ok, pure_eq_ok] at h
    obtain ⟨db₁, ⟨-, -, db₂, hdb₂, rfl⟩, hrest⟩ := h
    obtain ⟨releases, -, hins, rfl⟩ := insertRelease_inv hdb₂
    rcases ih hrest with hold | ⟨c, hc, hfrom⟩
    · rcases Table.get_insert_cases hins hold with hold | ⟨-, rfl⟩
      · exact .inl hold
      · exact .inr ⟨b, List.mem_cons_self, rfl, rfl⟩
    · exact .inr ⟨c, List.mem_cons_of_mem b hc, hfrom⟩

/-- The applications of the plans that push deliveries have read. -/
def PlansTenant (w : World) : Prop :=
  ∀ plan ∈ w.services.webhooks, ∀ b ∈ plan.builds, ∃ a, w.db.apps.get b.app.id = some a ∧
    b.app.workspaceId = a.workspaceId

lemma PlansTenant.step {a : Action} (h : PlansTenant w) (hstep : (system cfg).step w a = some w') : PlansTenant w' := by
  obtain ⟨new, hnew, hread⟩ := step_webhooks hstep
  intro plan hplan b hb
  rw [hnew] at hplan
  rcases List.mem_append.mp hplan with hold | hadded
  · obtain ⟨app, happ, hws⟩ := h plan hold b hb
    obtain ⟨app', happ', ⟨hws', -⟩, -⟩ := (step_apps hstep).kept _ app happ
    exact ⟨app', happ', hws.trans hws'.symm⟩
  · obtain ⟨_, _, _, hok⟩ := hread plan hadded
    unfold readWebhook at hok
    simp only [bind_eq_ok, pure_eq_ok] at hok
    obtain ⟨repo, -, rfl⟩ := hok
    obtain ⟨app, happ, rfl⟩ := List.mem_map.mp hb
    exact ⟨app, Table.get_of_mem (List.mem_filter.mp happ).1, rfl⟩

lemma acceptRelease_new {app : Application} {digest : String} {config : ReleaseConfig} {rollbackOf : Option Uuid}
    (h : acceptRelease cfg db app digest config rollbackOf = .ok db') {k : Uuid} {r : Release}
    (hr : db'.releases.get k = some r) :
    db.releases.get k = some r ∨ r.applicationId = app.id ∧ r.workspaceId = app.workspaceId := by
  obtain ⟨db₁, s, releases, events, -, hid, hws, -, -, -, hins, rfl⟩ := acceptRelease_inv h
  rcases Table.get_insert_cases hins hr with hold | ⟨-, rfl⟩
  · exact .inl hold
  · exact .inr ⟨hid, hws⟩

/-- A new release has the workspace of its application. -/
lemma step_newRelease {a : Action} (hw : WorldOK w) (hplans : PlansTenant w)
    (hstep : (system cfg).step w a = some w') {k : Uuid} {r : Release} (hnone : w.db.releases.get k = none)
    (hr : w'.db.releases.get k = some r) :
    ∃ app, w.db.apps.get r.applicationId = some app ∧ r.workspaceId = app.workspaceId := by
  have hold : ∀ s, w.db.releases.get k ≠ some s := by simp [hnone]
  -- only an accepted or a requested release is new
  obtain ⟨-, hkind⟩ := ((service_side hw hstep).release_origin hr).resolve_left (by
    rintro ⟨s, hs, -⟩
    exact hold s hs)
  rcases step_cases hstep with ⟨d, rfl, rfl⟩ | ⟨act, db', c', rfl, hjob, rfl⟩ | ⟨act, db', c', rfl, hserv, rfl⟩
  · simp [Action.releaseEvent] at hkind
  · simp [Action.releaseEvent] at hkind
  · cases act with
    | deployRelease appId payload =>
      obtain ⟨app, happ, hacc⟩ := deployRelease_inv (commit_inv hserv).1
      obtain ⟨hid, hws⟩ := (acceptRelease_new hacc hr).resolve_left (hold r)
      exact ⟨app, by rw [hid, Table.key_of_get happ, happ], hws⟩
    | rollbackRelease appId target =>
      obtain ⟨app, t, happ, -, hacc⟩ := rollbackRelease_inv (commit_inv hserv).1
      obtain ⟨hid, hws⟩ := (acceptRelease_new hacc hr).resolve_left (hold r)
      exact ⟨app, by rw [hid, Table.key_of_get happ, happ], hws⟩
    | triggerBuild appId payload =>
      obtain ⟨db₁, app, s, releases, events, -, happ, hid, hws, -, -, -, -, hins, rfl⟩ :=
        triggerBuild_inv (commit_inv hserv).1
      obtain ⟨-, rfl⟩ := (Table.get_insert_cases hins hr).resolve_left (hold r)
      exact ⟨app, by rw [hid, Table.key_of_get happ, happ], hws⟩
    | commitWebhook plan =>
      obtain ⟨hmem, hdb, -⟩ := held_commit_inv hserv
      obtain ⟨b, hb, hid, hws⟩ := (commitWebhook_new hdb hr).resolve_left (hold r)
      obtain ⟨app, happ, hws'⟩ := hplans plan hmem b hb
      exact ⟨app, hid ▸ happ, hws.trans hws'⟩
    | _ => simp [Action.releaseEvent, releaseEvent] at hkind

/-! ### The invariant -/

/-- Every attempt, dead letter and release has a parent with the same workspace. -/
structure TenantInv (w : World) : Prop where
  ok : WorldOK w
  plans : PlansTenant w
  attempts : ∀ {k a}, w.db.attempts.get k = some a →
    ∃ j, w.db.jobs.get a.jobId = some j ∧ a.workspaceId = j.workspaceId
  deadLetters : ∀ {k r}, w.db.deadLetters.get k = some r →
    ∃ j, w.db.jobs.get k = some j ∧ r.workspaceId = j.workspaceId
  releases : ∀ {k r}, w.db.releases.get k = some r →
    ∃ a, w.db.apps.get r.applicationId = some a ∧ r.workspaceId = a.workspaceId

lemma tenantInv_init : TenantInv World.init where
  ok := worldOK_init
  plans := by rintro plan ⟨⟩
  attempts := by rintro k a ⟨⟩
  deadLetters := by rintro k r ⟨⟩
  releases := by rintro k r ⟨⟩

lemma TenantInv.step {a : Action} (h : TenantInv w) (hstep : (system cfg).step w a = some w') : TenantInv w' := by
  have hevolves := (job_side h.ok hstep).evolves h.ok.jobs
  have hjob : ∀ {k ws}, (∃ j, w.db.jobs.get k = some j ∧ ws = j.workspaceId) →
      ∃ j', w'.db.jobs.get k = some j' ∧ ws = j'.workspaceId := by
    rintro k _ ⟨j, hj, rfl⟩
    obtain ⟨j', hj', hspec, -⟩ := hevolves.job hj
    exact ⟨j', hj', (Job.spec_eq.mp hspec).2.1.symm⟩
  have happ : ∀ {k ws}, (∃ a, w.db.apps.get k = some a ∧ ws = a.workspaceId) →
      ∃ a', w'.db.apps.get k = some a' ∧ ws = a'.workspaceId := by
    rintro k _ ⟨a, ha, rfl⟩
    obtain ⟨a', ha', ⟨hws, -⟩, -⟩ := (step_apps hstep).kept k a ha
    exact ⟨a', ha', hws.symm⟩
  refine ⟨h.ok.step hstep, h.plans.step hstep, ?_, ?_, ?_⟩
  · intro k b' hb'
    cases hold : w.db.attempts.get k with
    | none => exact hjob (step_newAttempt h.ok hstep hold hb')
    | some b =>
      obtain ⟨b₁, hb₁, hspec⟩ := hevolves.attempt hold
      obtain rfl : b' = b₁ := Option.some.inj (hb'.symm.trans hb₁)
      obtain ⟨-, hjobId, hws, -⟩ := JobAttempt.spec_eq.mp hspec
      rw [hjobId, hws]
      exact hjob (h.attempts hold)
  · intro k r' hr'
    rcases step_letter hstep hr' with ⟨r, hr, hws⟩ | hnew
    · rw [hws]
      exact hjob (h.deadLetters hr)
    · exact hjob hnew
  · intro k r' hr'
    cases hold : w.db.releases.get k with
    | none => exact happ (step_newRelease h.ok h.plans hstep hold hr')
    | some r =>
      obtain ⟨r₁, hr₁, hspec⟩ := (service_side h.ok hstep).evolves.release hold
      obtain rfl : r' = r₁ := Option.some.inj (hr'.symm.trans hr₁)
      obtain ⟨-, happId, hws, -⟩ := Release.spec_eq.mp hspec
      rw [happId, hws]
      exact happ (h.releases hold)

/-- Whatever requests and processes have done, no attempt, dead letter or release is under another workspace than its
job or its application. -/
theorem reach_tenantRows {C : World → Action → Prop} (h : (system cfg).Reach C w) : TenantRows w.db := by
  have hinv : TenantInv w := h.invariant tenantInv_init fun _ _ _ hw _ hstep => hw.step hstep
  have hparent : ∀ {α : Type} {x : Option α} {ws : Uuid} {f : α → Uuid}, (∃ a, x = some a ∧ ws = f a) →
      ∀ a ∈ x, ws = f a := by
    rintro α x _ f ⟨a, rfl, rfl⟩ b hb
    rw [Option.mem_some_iff.mp hb]
  exact ⟨fun a ha => hparent (hinv.attempts (Table.get_of_mem ha)),
    fun r hr => hparent (hinv.deadLetters (Table.get_of_mem hr)),
    fun r hr => hparent (hinv.releases (Table.get_of_mem hr))⟩

end HamiCloud.Proofs
