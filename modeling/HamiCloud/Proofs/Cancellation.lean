import HamiCloud.Proofs.JobContract
import HamiCloud.Proofs.Requests

/-!
# Cancellation is requested once

The events and audit records of a cancellation follow the transition of the job into `CANCEL_REQUESTED`: there
is one of each from then on and none before, however many requests are accepted.
-/

namespace HamiCloud

open Library JobState

/-- The committed `job.cancellation.requested` events of a job. -/
def cancellationEvents (db : Db) (jobId : Uuid) : Nat :=
  db.outbox.countP (fun e => e.payload = .jobCancellationRequested jobId)

/-- The committed `job.cancel.requested` audit events of a job. -/
def cancellationAudits (audits : List AuditEvent) (jobId : Uuid) : Nat :=
  audits.count ⟨.jobCancelRequested, jobId⟩

/-- The state shows that the cancellation was requested at some time. -/
def wasCancelled (db : Db) (jobId : Uuid) : Bool :=
  (db.jobs.get jobId).any (fun j => j.state ∈ [cancelRequested, cancelled])

/-- The operation on behalf of which a request takes a step. -/
def RequestAction.operation : RequestAction → Option Operation
  | .other _ => none
  | .check req => some req.operation
  | .commit p _ => some p.request.operation
  | .collide p => some p.request.operation
  | .reread p => some p.request.operation

end HamiCloud

namespace HamiCloud.Proofs

open Library JobState

variable {cfg : Settings} {db db' : Db} {w w' : World} {r r' : RequestWorld} {k : Uuid}

/-- What a step does to the cancellation of one job: nothing, or it is the request that moves the job and
announces it. -/
inductive CancelStep (db db' : Db) (a : Action) (k : Uuid) : Prop
  | same : cancellationEvents db' k = cancellationEvents db k → wasCancelled db' k = wasCancelled db k →
      (a = .job (.cancelJob k) → (db.jobs.get k).any (fun j => j.state = cancelRequested) = true) →
      CancelStep db db' a k
  | requested : a = .job (.cancelJob k) → wasCancelled db k = false → wasCancelled db' k = true →
      cancellationEvents db' k = cancellationEvents db k + 1 → CancelStep db db' a k

lemma cancelJob_cancellation {jobId : Uuid} (h : cancelJob db jobId = .ok db') :
    CancelStep db db' (.job (.cancelJob jobId)) k := by
  unfold cancelJob at h
  simp only [bind_eq_ok, orError_eq_ok] at h
  obtain ⟨j, hj, h⟩ := h
  split at h
  · rename_i hstate
    obtain rfl := pure_eq_ok.mp h
    refine .same rfl rfl fun ha => ?_
    cases ha
    simp [hj, hstate]
  · split at h
    · cases h
    · rename_i hv
      have hedge := (validateJobTransition_ok _ _).mp hv
      obtain rfl := pure_eq_ok.mp h
      by_cases hk : k = jobId
      · subst hk
        refine .requested rfl ?_ ?_ ?_
        · simp only [wasCancelled, hj, Option.any_some]
          revert hedge
          cases j.state <;> decide
        · simp [wasCancelled, insertOutbox, Table.get_set, hj]
        · simp [cancellationEvents, insertOutbox]
      · refine .same ?_ ?_ fun ha => absurd ?_ hk
        · simp [cancellationEvents, insertOutbox, Ne.symm hk]
        · simp only [wasCancelled, insertOutbox, Table.get_set, if_neg hk]
        · cases ha
          rfl

lemma cancellationEvents_append {new : List OutboxEvent} (h : db'.outbox = db.outbox ++ new)
    (hnew : ∀ e ∈ new, e.payload ≠ .jobCancellationRequested k) :
    cancellationEvents db' k = cancellationEvents db k := by
  unfold cancellationEvents
  rw [h, List.countP_append, Nat.add_eq_left, List.countP_eq_zero]
  simpa using hnew

/-- Only a request to cancel announces a cancellation. -/
lemma step_cancellationEvents {a : Action} (ha : ∀ id, a ≠ .job (.cancelJob id))
    (h : (system cfg).step w a = some w') : cancellationEvents w'.db k = cancellationEvents w.db k := by
  obtain ⟨new, hnew, hann⟩ := step_outbox h
  refine cancellationEvents_append hnew fun e he hpayload => ?_
  cases hann with
  | plain _ _ _ hplain =>
    have := hplain e he
    rw [hpayload] at this
    cases this
  | alreadyCancelled id => exact ha id rfl
  | cancelled id => exact ha id rfl
  | succeeded wl uid n e' he' =>
    rw [List.mem_singleton.mp he, he'] at hpayload
    cases hpayload
  | failed wl reason exitCode n e' he' =>
    rw [List.mem_singleton.mp he, he'] at hpayload
    cases hpayload
  | deployed b appId app release digest config rollbackOf e' _ _ he' =>
    rw [List.mem_singleton.mp he, he'] at hpayload
    cases hpayload

lemma jobEvent_ne_cancel {a : Action} (ha : ∀ id, a ≠ .job (.cancelJob id)) (id : Uuid) :
    Action.jobEvent w a ≠ .cancel id := by
  intro he
  cases a with
  | tick d => cases he
  | service b => cases he
  | job b =>
    cases b with
    | cancelJob id' => exact ha id' rfl
    | _ => cases he

/-- A cancelled job stays one, and only a request to cancel makes one. -/
lemma step_wasCancelled {a : Action} (hw : WorldOK w) (ha : ∀ id, a ≠ .job (.cancelJob id))
    (h : (system cfg).step w a = some w') : wasCancelled w'.db k = wasCancelled w.db k := by
  obtain ⟨hkept, hnew⟩ := step_job hw h k
  have hentered : ∀ j', w'.db.jobs.get k = some j' → j'.state = cancelRequested →
      ∃ j, w.db.jobs.get k = some j ∧ j.state = cancelRequested :=
    fun j' => (job_side hw h).cancelRequested_job (jobEvent_ne_cancel ha)
  unfold wasCancelled
  cases hj : w.db.jobs.get k with
  | none =>
    cases hj' : w'.db.jobs.get k with
    | none => rfl
    | some j' => simp [hnew j' hj hj']
  | some j =>
    obtain ⟨j', hj', hedge⟩ := hkept j hj
    have hrequested : j'.state = cancelRequested → j.state = cancelRequested := by
      intro hc
      obtain ⟨i, hi, hic⟩ := hentered j' hj' hc
      rw [hj] at hi
      cases hi
      exact hic
    rw [hj', Option.any_some, Option.any_some]
    revert hedge hrequested
    cases j.state <;> cases j'.state <;> decide

lemma step_cancellation {a : Action} (hw : WorldOK w) (h : (system cfg).step w a = some w') (k : Uuid) :
    CancelStep w.db w'.db a k := by
  by_cases ha : ∃ id, a = .job (.cancelJob id)
  · obtain ⟨id, rfl⟩ := ha
    obtain ⟨⟨db', c'⟩, hjob, rfl⟩ := Option.map_eq_some_iff.mp h
    exact cancelJob_cancellation (commit_inv hjob).1
  · push Not at ha
    exact .same (step_cancellationEvents ha h) (step_wasCancelled hw ha h) fun hk => absurd hk (ha k)

/-! ### Requests -/

/-- Before the job is cancelled there is no event and no audit event, and from then on one of each. -/
structure CancelInv (r : RequestWorld) (k : Uuid) : Prop where
  world : WorldOK r.world
  events : cancellationEvents r.world.db k = if wasCancelled r.world.db k then 1 else 0
  audits : cancellationAudits r.audits k = cancellationEvents r.world.db k

/-- An operation writes the audit event of a cancellation exactly when it requests the cancellation. -/
lemma auditEvents_cancellation (op : Operation) (k : Uuid) :
    cancellationAudits (op.auditEvents db db') k =
      if op = .cancelJob k ∧ (db.jobs.get k).any (fun j => j.state = cancelRequested) = false then 1 else 0 := by
  cases op with
  | cancelJob id =>
    by_cases hk : id = k
    · subst hk
      cases hany : (db.jobs.get id).any (fun j => j.state = cancelRequested) <;>
        simp [Operation.auditEvents, cancellationAudits, hany]
    · cases hany : (db.jobs.get id).any (fun j => j.state = cancelRequested) <;>
        simp [Operation.auditEvents, cancellationAudits, hany, hk]
  | _ => simp [Operation.auditEvents, cancellationAudits]

lemma CancelInv.commit {op : Operation} (hi : CancelInv r k)
    (hw : World.step cfg r.world op.action = some w) {r' : RequestWorld} (hworld : r'.world = w)
    (haudits : r'.audits = r.audits ++ op.auditEvents r.world.db w.db) : CancelInv r' k := by
  obtain rfl := hworld
  have hsum : cancellationAudits r'.audits k =
      cancellationAudits r.audits k + cancellationAudits (op.auditEvents r.world.db r'.world.db) k := by
    rw [haudits]
    exact List.count_append
  rw [auditEvents_cancellation, hi.audits] at hsum
  have hok : WorldOK r'.world := hi.world.step hw
  cases step_cancellation hi.world hw k with
  | same hevents hwas hcancel =>
    have hnot : ¬(op = .cancelJob k ∧
        (r.world.db.jobs.get k).any (fun j => j.state = cancelRequested) = false) := by
      rintro ⟨rfl, hnone⟩
      rw [hcancel rfl] at hnone
      cases hnone
    rw [if_neg hnot, Nat.add_zero, ← hevents] at hsum
    exact ⟨hok, by rw [hevents, hwas, hi.events], hsum⟩
  | requested ha hbefore hafter hevents =>
    have hop : op = .cancelJob k := by
      cases op <;> cases ha
      rfl
    have hnone : (r.world.db.jobs.get k).any (fun j => j.state = cancelRequested) = false := by
      unfold wasCancelled at hbefore
      cases hj : r.world.db.jobs.get k with
      | none => rfl
      | some j =>
        rw [hj, Option.any_some] at hbefore
        simp at hbefore ⊢
        exact hbefore.1
    rw [if_pos ⟨hop, hnone⟩, ← hevents] at hsum
    refine ⟨hok, ?_, hsum⟩
    rw [hevents, hi.events, hbefore, hafter]
    rfl

lemma cancelInv_step {a : RequestAction} (hi : CancelInv r k) (h : (requestSystem cfg).step r a = some r') :
    CancelInv r' k := by
  cases request_step h with
  | other b w hop hw =>
    have hne : ∀ id, b ≠ .job (.cancelJob id) := by
      rintro id rfl
      cases hop
    have hevents := step_cancellationEvents (k := k) hne hw
    have hwas := step_wasCancelled (k := k) hi.world hne hw
    exact ⟨hi.world.step hw, by rw [hevents, hwas, hi.events], hi.audits.trans hevents.symm⟩
  | passed => exact ⟨hi.world, hi.events, hi.audits⟩
  | answered => exact ⟨hi.world, hi.events, hi.audits⟩
  | collided => exact ⟨hi.world, hi.events, hi.audits⟩
  | committed p createdAt w c records hp hw => exact hi.commit hw rfl rfl

lemma reach_cancelInv (h : (requestSystem cfg).Reachable r) (k : Uuid) : CancelInv r k :=
  System.Reach.invariant (P := fun r => CancelInv r k) ⟨worldOK_init, rfl, rfl⟩
    (fun _ _ _ hi _ hstep => cancelInv_step hi hstep) h

lemma CancelInv.le_one (hi : CancelInv r k) : cancellationEvents r.world.db k ≤ 1 := by
  rw [hi.events]
  split <;> decide

/-- A request to cancel is refused once the job has ended. -/
lemma cancelJob_terminal {j : Job} (hj : db.jobs.get k = some j) (hterm : j.state.isTerminal = true) :
    cancelJob db k ≠ .ok db' := by
  intro h
  obtain ⟨new, -, hann⟩ := cancelJob_outbox h
  obtain ⟨⟨j', hj', hstate⟩, -, -⟩ := cancelJob_effect h
  have hend := (isTerminal_iff_contract _).mp hterm
  cases hann with
  | plain => contradiction
  | alreadyCancelled _ hsame =>
    rw [hsame, hj] at hj'
    cases hj'
    rw [hstate] at hterm
    cases hterm
  | cancelled _ i e hi hedge =>
    rw [hj] at hi
    cases hi
    rw [hend] at hedge
    cases hedge

/-- A step changes the database only by a step of the system. -/
lemma request_world {a : RequestAction} (h : (requestSystem cfg).step r a = some r') :
    r'.world = r.world ∨ ∃ b, (system cfg).step r.world b = some r'.world := by
  cases request_step h with
  | other b w _ hw => exact .inr ⟨b, hw⟩
  | passed => exact .inl rfl
  | answered => exact .inl rfl
  | collided => exact .inl rfl
  | committed p createdAt w c records hp hw => exact .inr ⟨_, hw⟩

lemma cancellationEvents_mono (h : (requestSystem cfg).Path (fun _ _ => True) r r') :
    cancellationEvents r.world.db k ≤ cancellationEvents r'.world.db k := by
  refine h.invariant (P := fun u => cancellationEvents r.world.db k ≤ cancellationEvents u.world.db k) le_rfl ?_
  intro u a u' hle _ hstep
  rcases request_world hstep with hsame | ⟨b, hb⟩
  · rw [hsame]
    exact hle
  · obtain ⟨new, hnew, -⟩ := step_outbox hb
    unfold cancellationEvents at hle ⊢
    rw [hnew, List.countP_append]
    exact Nat.le_add_right_of_le hle

/-- Cancellation is requested once: over every run a job has at most one cancellation event and as many audit
events, exactly one of each from the moment it is `CANCEL_REQUESTED`, and no step of a request to cancel
changes anything once the job has ended. -/
theorem cancellation_requested_once (cfg : Settings) (h : (requestSystem cfg).Reachable r) (k : Uuid) :
    (cancellationEvents r.world.db k ≤ 1 ∧
      cancellationAudits r.audits k = cancellationEvents r.world.db k) ∧
    (∀ j r', r.world.db.jobs.get k = some j → j.state = cancelRequested →
      (requestSystem cfg).Path (fun _ _ => True) r r' →
      cancellationEvents r'.world.db k = 1 ∧ cancellationAudits r'.audits k = 1) ∧
    (∀ j a r', r.world.db.jobs.get k = some j → j.state.isTerminal = true → a.operation = some (.cancelJob k) →
      (requestSystem cfg).step r a = some r' →
      r'.world = r.world ∧ r'.records = r.records ∧ r'.audits = r.audits) := by
  have hi := reach_cancelInv h k
  refine ⟨⟨hi.le_one, hi.audits⟩, fun j r' hj hstate hpath => ?_, fun j a r' hj hterm hop hstep => ?_⟩
  · have hi' := reach_cancelInv (System.Path.trans h hpath) k
    have hone : cancellationEvents r.world.db k = 1 := by
      rw [hi.events]
      simp [wasCancelled, hj, hstate]
    have hmono := cancellationEvents_mono (k := k) hpath
    have heq : cancellationEvents r'.world.db k = 1 := le_antisymm hi'.le_one (hone ▸ hmono)
    exact ⟨heq, hi'.audits.trans heq⟩
  · cases request_step hstep with
    | other => cases hop
    | passed => exact ⟨rfl, rfl, rfl⟩
    | answered => exact ⟨rfl, rfl, rfl⟩
    | collided => exact ⟨rfl, rfl, rfl⟩
    | committed p createdAt w c records hp hw =>
      rw [Option.some.inj hop] at hw
      obtain ⟨⟨db', c'⟩, hjob, rfl⟩ := Option.map_eq_some_iff.mp hw
      exact absurd (commit_inv hjob).1 (cancelJob_terminal hj hterm)

def cancellation (header : String) : Request := ⟨.cancelJob 0, header, "empty"⟩

def pendingCancellation (header : String) : PendingRequest :=
  ⟨cancellation header, ⟨100, .cancel 0, header⟩, none, 0, false⟩

/-- Two requests with different keys cancel job `0`; both are accepted. -/
def twoCancellations : (requestSystem Settings.default).FreeRun where
  labels := [.check (submission "key" "sha-1"), .commit (pendingSubmission "key" false) 0,
    .check (cancellation "first"), .check (cancellation "second"),
    .commit (pendingCancellation "second") 0, .commit (pendingCancellation "first") 0]
  executes := by decide +kernel

theorem cancellation_requested_once_two_keys : ∃ r, (requestSystem Settings.default).Reachable r ∧
    (commits r.history).map Commit.operationId = [0, 0, 0] ∧ cancellationEvents r.world.db 0 = 1 ∧
    (cancellationEvents r.world.db 0 ≤ 1 ∧
      cancellationAudits r.audits 0 = cancellationEvents r.world.db 0) :=
  ⟨_, twoCancellations.reachable, by decide +kernel, by decide +kernel,
    (cancellation_requested_once _ twoCancellations.reachable 0).1⟩

end HamiCloud.Proofs
