import HamiCloud.Runtime.JobRunner

/-!
# No orphaned workload

`RunJob` deletes the Kubernetes Job it has created on every exit of its polling loop but one: a status request that
fails with another error than the absence of the Job returns at once, and the Job goes on beside the next attempt.
-/

namespace HamiCloud.Proofs

open Library JobState

variable {cfg : Settings} {rc : JobRunnerConfig} {c c' : JobCloud}

/-- After each successful creation a deletion was requested. -/
def DeletesCreated (requests : List JobRequest) : Prop :=
  ∀ rest, (.create true :: rest) <:+ requests → .delete ∈ rest

/-- `RunJob` has returned, or will not be called any more. -/
def hasReturned : JobPhase → Bool
  | .returned _ => true
  | .checkInterrupted _ => true
  | .markSucceeded => true
  | .markCancelled => true
  | .markFailed _ _ => true
  | .done => true
  | _ => false

/-- An attempt has come to its end. -/
def EndsAttempt (db db' : Db) : Prop :=
  ∃ k a a', db.attempts.get k = some a ∧ db'.attempts.get k = some a' ∧ a.state.isTerminal = false ∧
    a'.state.isTerminal = true

/-- No status request fails with another error than the absence of the Job. -/
def readsStatus (c : JobCloud) : JobCloudAction → Bool
  | .reconcile n (.error _) => c.workers[n]?.all fun wk => wk.phase ≠ .get
  | _ => true

lemma deletesCreated_nil : DeletesCreated [] := by
  intro rest h
  simp at h

lemma deletesCreated_delete (requests : List JobRequest) : DeletesCreated (requests ++ [.delete]) := by
  intro rest h
  rcases List.suffix_concat_iff.mp h with h | ⟨t, he, -⟩
  · cases h
  · cases t with
    | nil => cases he
    | cons r t =>
      rw [(List.cons.inj he).2]
      simp

lemma deletesCreated_failed {requests : List JobRequest} (h : DeletesCreated requests) :
    DeletesCreated (requests ++ [.create false]) := by
  intro rest hs
  rcases List.suffix_concat_iff.mp hs with hs | ⟨t, he, ht⟩
  · cases hs
  · cases t with
    | nil => cases he
    | cons r t =>
      obtain ⟨rfl, rfl⟩ := List.cons.inj he
      exact List.mem_append_left _ (h t ht)

/-! ### Steps -/

/-- The Job of the attempt may exist without a request for its deletion. -/
def mayHoldJob : JobPhase → Bool
  | .poll => true
  | .get => true
  | .deleteFinished _ => true
  | .crashed => true
  | _ => false

/-- What a step of `RunJob` requests. -/
inductive RunStep (p : JobPhase) (reply : JobReply) (p' : JobPhase) : List JobRequest → Prop
  | quiet : mayHoldJob p' = true ∨ mayHoldJob p = false → RunStep p reply p' []
  | created : mayHoldJob p' = true → RunStep p reply p' [.create true]
  | refused : mayHoldJob p = false → RunStep p reply p' [.create false]
  | deleted : RunStep p reply p' [.delete]
  | unread (text : String) : p = .get → reply = .error text → RunStep p reply p' []

lemma runJob_inv {cluster cluster' : List ResourceName} {wk : JobWorker} {p p' : JobPhase} {reply : JobReply}
    {requests : List JobRequest} (h : runJob rc cluster wk p reply = some (cluster', requests, p')) :
    RunStep p reply p' requests := by
  cases p with
  | isolate =>
    cases reply <;> cases h
    · exact .quiet (.inr rfl)
    · exact .quiet (.inr rfl)
  | create =>
    cases reply <;> cases h
    · exact .created rfl
    · exact .refused rfl
    · exact .refused rfl
  | deleteExisting => cases reply <;> cases h <;> exact .deleted
  | recreate =>
    cases reply <;> cases h
    · exact .created rfl
    · exact .refused rfl
    · exact .refused rfl
  | poll =>
    cases reply with
    | ok =>
      cases h
      exact .quiet (.inl rfl)
    | error text =>
      obtain ⟨cause, -, he⟩ := Option.map_eq_some_iff.mp h
      cases he
      exact .quiet (.inl rfl)
    | _ => cases h
  | get =>
    cases reply with
    | error text =>
      cases h
      exact .unread text rfl rfl
    | ok => cases h
    | alreadyExists => cases h
    | _ =>
      cases h
      exact .quiet (.inl rfl)
  | deleteFinished result => cases reply <;> cases h <;> exact .deleted
  | _ => cases h

/-- The transactions of a reconciliation come before or after its polling loop. -/
lemma finalizeJob_inv {w w' : World} {wl : ClaimedJobWorkload} {p p' : JobPhase} {reply : JobReply}
    (h : finalizeJob cfg rc w wl p reply = some (w', p')) : mayHoldJob p = false := by
  cases p with
  | poll => cases reply <;> cases h
  | get => cases reply <;> cases h
  | deleteFinished result => cases reply <;> cases h
  | crashed => cases reply <;> cases h
  | _ => rfl

/-- What the worker has requested when its Job need not exist any more. -/
def WorkerOK (wk : JobWorker) : Prop := mayHoldJob wk.phase = false → DeletesCreated wk.requests

lemma WorkerOK.runJob {wk : JobWorker} {p' : JobPhase} {reply : JobReply} {requests : List JobRequest}
    (h : WorkerOK wk) (hstep : RunStep wk.phase reply p' requests)
    (hread : wk.phase = .get → ∀ text, reply ≠ .error text) :
    WorkerOK { wk with phase := p', requests := wk.requests ++ requests } := by
  intro hp'
  change mayHoldJob p' = false at hp'
  change DeletesCreated (wk.requests ++ requests)
  cases hstep with
  | quiet hp =>
    rw [List.append_nil]
    exact h (hp.resolve_left (by simp [hp']))
  | created hp => simp [hp'] at hp
  | refused hp => exact deletesCreated_failed (h hp)
  | deleted => exact deletesCreated_delete _
  | unread text hget hreply => exact absurd hreply (hread hget text)

/-- A step of the system: of no worker, of a new worker, of the context or the process of a worker, or of a
reconciliation. -/
inductive JobCloudStep (c : JobCloud) : JobCloudAction → JobCloud → Prop
  | world {a : JobCloudAction} (w' : World) : (∀ n reply, a ≠ .reconcile n reply) →
      JobCloudStep c a { c with world := w' }
  | claim {a : JobCloudAction} (w' : World) (wl : ClaimedJobWorkload) : (∀ n reply, a ≠ .reconcile n reply) →
      JobCloudStep c a { c with world := w', workers := c.workers ++ [⟨wl, none, .checkCancelled, []⟩] }
  | signal {a : JobCloudAction} (n : Nat) {wk wk' : JobWorker} : (∀ n reply, a ≠ .reconcile n reply) →
      c.workers[n]? = some wk → wk'.requests = wk.requests → wk'.phase = wk.phase ∨ wk'.phase = .crashed →
      JobCloudStep c a { c with workers := c.workers.set n wk' }
  | run (n : Nat) (reply : JobReply) {wk : JobWorker} {cluster : List ResourceName} {requests : List JobRequest}
      {p' : JobPhase} : c.workers[n]? = some wk → RunStep wk.phase reply p' requests →
      JobCloudStep c (.reconcile n reply) { c with
        cluster := cluster
        workers := c.workers.set n { wk with phase := p', requests := wk.requests ++ requests } }
  | finalize (n : Nat) (reply : JobReply) {wk : JobWorker} {w' : World} {p' : JobPhase} : c.workers[n]? = some wk →
      mayHoldJob wk.phase = false →
      JobCloudStep c (.reconcile n reply)
        { c with world := w', workers := c.workers.set n { wk with phase := p' } }

lemma jobCloud_step {a : JobCloudAction} (h : (jobCloudSystem cfg rc).step c a = some c') :
    JobCloudStep c a c' := by
  cases a with
  | other b =>
    obtain ⟨-, hmap⟩ := Option.ite_none_left_eq_some.mp h
    obtain ⟨w', -, rfl⟩ := Option.map_eq_some_iff.mp hmap
    exact .world w' (by simp)
  | claim workerId lease wss locked =>
    obtain ⟨w', -, hmap⟩ := Option.bind_eq_some_iff.mp h
    obtain ⟨wl, -, rfl⟩ := Option.map_eq_some_iff.mp hmap
    exact .claim w' wl (by simp)
  | renew n extension =>
    obtain ⟨wk, -, hwk⟩ := Option.bind_eq_some_iff.mp h
    obtain ⟨-, hmap⟩ := Option.ite_none_left_eq_some.mp hwk
    obtain ⟨w', -, rfl⟩ := Option.map_eq_some_iff.mp hmap
    exact .world w' (by simp)
  | stop n cause =>
    obtain ⟨wk, hwk, rfl⟩ := Option.map_eq_some_iff.mp h
    exact .signal n (by simp) hwk rfl (.inl rfl)
  | crash n =>
    obtain ⟨wk, hwk, rfl⟩ := Option.map_eq_some_iff.mp h
    exact .signal n (by simp) hwk rfl (.inr rfl)
  | reconcile n reply =>
    obtain ⟨wk, hwk, hrec⟩ := Option.bind_eq_some_iff.mp h
    split at hrec
    · rename_i cluster requests p' hrun
      cases hrec
      exact .run n reply hwk (runJob_inv hrun)
    · obtain ⟨⟨w', p'⟩, hfin, rfl⟩ := Option.map_eq_some_iff.mp hrec
      exact .finalize n reply hwk (finalizeJob_inv hfin)

/-! ### Runs -/

lemma workersOK_step {a : JobCloudAction} (h : ∀ wk ∈ c.workers, WorkerOK wk) (hread : readsStatus c a = true)
    (hstep : (jobCloudSystem cfg rc).step c a = some c') : ∀ wk ∈ c'.workers, WorkerOK wk := by
  have hset : ∀ {n : Nat} {wk' : JobWorker}, WorkerOK wk' → ∀ wk ∈ c.workers.set n wk', WorkerOK wk := by
    intro n wk' hwk' wk hwk
    rcases List.mem_or_eq_of_mem_set hwk with hwk | rfl
    · exact h wk hwk
    · exact hwk'
  cases jobCloud_step hstep with
  | world w' _ => exact h
  | claim w' wl _ =>
    intro wk hwk
    rcases List.mem_append.mp hwk with hwk | hwk
    · exact h wk hwk
    · rw [List.mem_singleton.mp hwk]
      exact fun _ => deletesCreated_nil
  | @signal _ n wk wk' _ hwk hreq hphase =>
    refine hset fun hp => ?_
    rw [hreq]
    rcases hphase with he | he
    · exact h wk (List.mem_of_getElem? hwk) (he ▸ hp)
    · rw [he] at hp
      cases hp
  | @run n reply wk cluster requests p' hwk hrun =>
    refine hset ((h wk (List.mem_of_getElem? hwk)).runJob hrun ?_)
    rintro hget text rfl
    simp [readsStatus, hwk, hget] at hread
  | @finalize n reply wk w' p' hwk hp => exact hset fun _ => h wk (List.mem_of_getElem? hwk) hp

lemma reach_workersOK (h : (jobCloudSystem cfg rc).Reach (fun c a => readsStatus c a = true) c) :
    ∀ wk ∈ c.workers, WorkerOK wk := by
  refine h.invariant (P := fun c => ∀ wk ∈ c.workers, WorkerOK wk) ?_ ?_
  · intro wk hwk
    cases hwk
  · exact fun _ _ _ hc hread hstep => workersOK_step hc hread hstep

/-- In every run of any number of executors in which no status request fails with another error than the absence of
the Job, a `RunJob` that has returned has requested the deletion of the Job after each successful creation, and so has
every reconciliation by the time at which it ends its attempt. -/
theorem no_orphaned_workload (cfg : Settings) (rc : JobRunnerConfig)
    (h : (jobCloudSystem cfg rc).Reach (fun c a => readsStatus c a = true) c) :
    (∀ wk ∈ c.workers, hasReturned wk.phase = true → DeletesCreated wk.requests) ∧
      ∀ n reply wk c', c.workers[n]? = some wk → (jobCloudSystem cfg rc).step c (.reconcile n reply) = some c' →
        EndsAttempt c.world.db c'.world.db → DeletesCreated wk.requests := by
  have hok := reach_workersOK h
  refine ⟨fun wk hwk hret => hok wk hwk ?_, fun n reply wk c' hwk hstep hends => ?_⟩
  · revert hret
    cases wk.phase <;> simp [hasReturned, mayHoldJob]
  · cases jobCloud_step hstep with
    | world w' hne => exact absurd rfl (hne n reply)
    | claim w' wl hne => exact absurd rfl (hne n reply)
    | signal m hne _ _ _ => exact absurd rfl (hne n reply)
    | run _ _ _ _ =>
      obtain ⟨k, a, a', ha, ha', hopen, hended⟩ := hends
      rw [Option.some.inj (ha.symm.trans ha'), hended] at hopen
      cases hopen
    | finalize _ _ hwk' hp =>
      obtain rfl := Option.some.inj (hwk.symm.trans hwk')
      exact hok wk (List.mem_of_getElem? hwk) hp

/-- The first attempt of a job with two retries is claimed, and its Kubernetes Job is created. -/
def createdRun : List JobCloudAction :=
  [.other (.job (.submitJob 100 ⟨"quay.io/tool", 600, 2⟩)), .other (.job (.scanUnadmittedJobs 50)),
    .other (.job (.createJobAttemptIntent ⟨0, 100, 600, 2, 0, .queued⟩)),
    .claim "executor-1" (30 * second) [] [], .reconcile 0 .ok, .reconcile 0 .ok, .reconcile 0 .ok, .reconcile 0 .ok]

/-- The Job fails and is deleted; the attempt is about to be recorded. -/
def deletedRun : (jobCloudSystem Settings.default ⟨toString⟩).Run readsStatus where
  labels := createdRun ++ [.reconcile 0 .ok, .reconcile 0 (.failed 137 "OOMKilled"), .reconcile 0 .ok,
    .reconcile 0 .ok, .reconcile 0 .ok]
  executes := by decide +kernel

/-- The attempt of the worker is recorded as failed. -/
def deletedEnd : JobCloud :=
  ((jobCloudSystem Settings.default ⟨toString⟩).step deletedRun.final (.reconcile 0 .ok)).get (by decide +kernel)

/-- The rows that `EndsAttempt` is about, for the first attempt. -/
def attemptEnded (db db' : Db) : Bool :=
  (db.attempts.get 1).any (fun a => !a.state.isTerminal) && (db'.attempts.get 1).any (fun a => a.state.isTerminal)

lemma endsAttempt_of {db db' : Db} (h : attemptEnded db db' = true) : EndsAttempt db db' := by
  simp only [attemptEnded, Bool.and_eq_true, Option.any_eq_true, Bool.not_eq_true'] at h
  obtain ⟨⟨a, ha, hopen⟩, a', ha', hended⟩ := h
  exact ⟨1, a, a', ha, ha', hopen, hended⟩

theorem no_orphaned_workload_deleted : ∃ (c c' : JobCloud) (wk : JobWorker),
    (jobCloudSystem Settings.default ⟨toString⟩).Reach (fun c a => readsStatus c a = true) c ∧
    c.workers[0]? = some wk ∧ wk.requests = [.create true, .delete] ∧
    EndsAttempt c.world.db c'.world.db ∧ DeletesCreated wk.requests := by
  have hwk : (deletedRun.final.workers[0]?).map JobWorker.requests = some [.create true, .delete] := by decide +kernel
  obtain ⟨wk, hget, hreq⟩ := Option.map_eq_some_iff.mp hwk
  have hends : EndsAttempt deletedRun.final.world.db deletedEnd.world.db := endsAttempt_of (by decide +kernel)
  exact ⟨deletedRun.final, deletedEnd, wk, deletedRun.reach, hget, hreq, hends,
    (no_orphaned_workload Settings.default ⟨toString⟩ deletedRun.reach).2 0 .ok wk deletedEnd hget
      (Option.some_get _).symm hends⟩

/-- A status request times out, and the job is retried. -/
def orphanedRun : (jobCloudSystem Settings.default ⟨toString⟩).FreeRun where
  labels := createdRun ++ [.reconcile 0 .ok, .reconcile 0 (.error "etcdserver: request timed out"), .reconcile 0 .ok,
    .reconcile 0 .ok, .reconcile 0 .ok, .other (.tick (6 * second)), .other (.job (.scanRetryWaitJobs 50)),
    .other (.job (.requeueRetryWaitJob (6 * second) ⟨0, 1, 0⟩ (6 * second))), .other (.job (.scanUnadmittedJobs 50)),
    .other (.job (.createJobAttemptIntent ⟨0, 100, 600, 2, 1, .queued⟩)),
    .claim "executor-2" (30 * second) [] [], .reconcile 1 .ok, .reconcile 1 .ok, .reconcile 1 .ok, .reconcile 1 .ok]
  executes := by decide +kernel

/-- The reconciliation of the first attempt has ended without a request to delete the Kubernetes Job it has created,
which exists beside the one of the second attempt. -/
theorem orphaned_workload : ∃ c wk, (jobCloudSystem Settings.default ⟨toString⟩).Reachable c ∧ wk ∈ c.workers ∧
    hasReturned wk.phase = true ∧ ¬DeletesCreated wk.requests ∧ c.cluster = [.job 0 2, .job 0 1] ∧
    c.world.db.attempts.rows.map JobAttempt.state = [failed, running] := by
  have hwk : (orphanedRun.final.workers[0]?).map (fun wk => (wk.phase, wk.requests)) =
      some (.done, [.create true]) := by decide +kernel
  obtain ⟨wk, hget, he⟩ := Option.map_eq_some_iff.mp hwk
  obtain ⟨hphase, hreq⟩ := Prod.mk.inj he
  refine ⟨orphanedRun.final, wk, orphanedRun.reachable, List.mem_of_getElem? hget, by rw [hphase]; rfl, fun hdel => ?_,
    by decide +kernel, by decide +kernel⟩
  have hmem := hdel [] (hreq ▸ List.suffix_rfl)
  cases hmem

end HamiCloud.Proofs
