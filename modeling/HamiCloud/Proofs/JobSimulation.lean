import HamiCloud.Proofs.JobRefinement

/-!
# Runs of the job side follow the job protocol

A client may act on a row it read long ago. What it still may rely on are the facts that no step
undoes; under them every transaction of the job side is a step of the job protocol.
-/

namespace HamiCloud.Proofs

open Library JobState

variable {db db' : Db} {v v' : JobView}

/-- An intent, its attempt and its job, as a client that holds an old row may rely on them. -/
def Bound (v : JobView) (intentId attemptId jobId : Uuid) (attemptNumber maxRetries epoch : Nat) : Prop :=
  ∃ i a j, v.intent intentId = some i ∧ i.resourceId = attemptId ∧ v.attempt attemptId = some a ∧
    a.jobId = jobId ∧ a.attemptNumber = attemptNumber ∧ v.job jobId = some j ∧ j.maxRetries = maxRetries ∧
    epoch ≤ i.leaseEpoch

abbrev BoundItem (v : JobView) (x : ExpiredJobRecoveryInfo) : Prop :=
  Bound v x.intentId x.attemptId x.jobId x.attemptNumber x.maxRetries x.leaseEpoch

abbrev BoundWorkload (v : JobView) (wl : ClaimedJobWorkload) : Prop :=
  Bound v wl.intentId wl.jobAttemptId wl.jobId wl.attemptNumber wl.maxRetries wl.leaseEpoch

structure JobClientsOK (v : JobView) (c : JobClients) : Prop where
  unadmitted : ∀ u ∈ c.unadmitted, ∃ j, v.job u.jobId = some j ∧
    u.currentAttemptNumber ≤ j.currentAttemptNumber ∧ u.maxRetries = j.maxRetries ∧
    u.workspaceId = j.workspaceId
  expired : ∀ x ∈ c.expired, BoundItem v x
  begun : ∀ x ∈ c.begun, BoundItem v x
  claims : ∀ wl ∈ c.claims, BoundWorkload v wl

lemma Bound.mono {intentId attemptId jobId : Uuid} {n m e : Nat} (hev : Evolves v v')
    (h : Bound v intentId attemptId jobId n m e) : Bound v' intentId attemptId jobId n m e := by
  obtain ⟨i, a, j, hi, hres, ha, hjob, hn, hj, hm, he⟩ := h
  obtain ⟨i', hi', hsi, hei, -⟩ := hev.intent hi
  obtain ⟨a', ha', hsa⟩ := hev.attempt ha
  obtain ⟨j', hj', hsj, -⟩ := hev.job hj
  obtain ⟨-, -, hres', -⟩ := ExecutionIntent.spec_eq.mp hsi
  obtain ⟨-, hjob', -, hn'⟩ := JobAttempt.spec_eq.mp hsa
  obtain ⟨-, -, -, hm', -⟩ := Job.spec_eq.mp hsj
  exact ⟨i', a', j', hi', hres'.trans hres, ha', hjob'.trans hjob, hn'.trans hn, hj', hm'.trans hm,
    he.trans hei⟩

lemma JobClientsOK.mono {c : JobClients} (hev : Evolves v v') (h : JobClientsOK v c) :
    JobClientsOK v' c where
  unadmitted u hu := by
    obtain ⟨j, hj, hc, hm, hws⟩ := h.unadmitted u hu
    obtain ⟨j', hj', hs, hc'⟩ := hev.job hj
    obtain ⟨-, hws', -, hm', -⟩ := Job.spec_eq.mp hs
    exact ⟨j', hj', hc.trans hc', hm.trans hm'.symm, hws.trans hws'.symm⟩
  expired x hx := (h.expired x hx).mono hev
  begun x hx := (h.begun x hx).mono hev
  claims wl hwl := (h.claims wl hwl).mono hev

/-! ### Refinement of the transactions -/

lemma submit_refines {j : Job} {jobs : Table Job.id} (hins : db.jobs.insert j = some jobs)
    (hst : j.state = queued) (hcur : j.currentAttemptNumber = 0) (hjobs : db'.jobs = jobs)
    (hattempts : db'.attempts = db.attempts) (hintents : db'.jobIntents = db.jobIntents) :
    JobStep db.now (jobView db) .submit (jobView db') := by
  have hv : jobView db' = (jobView db).setJob j := by
    simp only [jobView, JobView.setJob, hjobs, hattempts, hintents, Table.get_insert_eq_update hins]
  rw [hv]
  exact .submit _ j (Table.fresh_of_insert hins) hst hcur

lemma move_refines {jobId : Uuid} {j j' : Job} {e : JobEvent} (hj : db.jobs.get jobId = some j)
    (hjobs : db'.jobs.get = Function.update db.jobs.get jobId (some j'))
    (hattempts : db'.attempts = db.attempts) (hintents : db'.jobIntents = db.jobIntents)
    (hspec : j'.spec = j.spec) (hcur : j'.currentAttemptNumber = j.currentAttemptNumber)
    (hmove : Move j e j'.state) : JobStep db.now (jobView db) e (jobView db') := by
  obtain rfl := Table.key_of_get hj
  have hv : jobView db' = (jobView db).setJob j' := by
    simp only [jobView, JobView.setJob, hjobs, hattempts, hintents, (Job.spec_eq.mp hspec).1]
  rw [hv]
  exact .move _ j j' e hj hspec hcur hmove

lemma admission_refines {jobId : Uuid} {j j' : Job} {a : JobAttempt} {i : ExecutionIntent}
    {attempts : Table JobAttempt.id} {intents : Table ExecutionIntent.id}
    (hj : db.jobs.get jobId = some j) (hq : j.state = queued)
    (hjobs : db'.jobs.get = Function.update db.jobs.get jobId (some j'))
    (hspec : j'.spec = j.spec) (hst : j'.state = admitted) (hcur : j'.currentAttemptNumber = a.attemptNumber)
    (hains : db.attempts.insert a = some attempts) (hattempts : db'.attempts = attempts)
    (hajob : a.jobId = jobId) (hast : a.state = admitted)
    (hfree : ∀ b ∈ db.attempts.rows, b.jobId = jobId → b.attemptNumber ≠ a.attemptNumber)
    (hlo : 1 ≤ a.attemptNumber) (hhi : a.attemptNumber ≤ j.currentAttemptNumber + 1)
    (hmax : a.attemptNumber ≤ j.maxRetries + 1)
    (hiins : db.jobIntents.insert i = some intents) (hintents : db'.jobIntents = intents)
    (hres : i.resourceId = a.id) (hist : i.status = .pending) (hep : i.leaseEpoch = 0)
    (hgen : i.targetGeneration = a.attemptNumber)
    (hname : i.deterministicResourceName = .job jobId a.attemptNumber) :
    JobStep db.now (jobView db) (.admission jobId) (jobView db') := by
  obtain rfl := Table.key_of_get hj
  have hv : jobView db' = (((jobView db).setJob j').setAttempt a).setIntent i := by
    simp only [jobView, JobView.setJob, JobView.setAttempt, JobView.setIntent, hjobs, hattempts, hintents,
      (Job.spec_eq.mp hspec).1, Table.get_insert_eq_update hains, Table.get_insert_eq_update hiins]
  rw [hv]
  exact .admission _ j j' a i hj hq hspec hst hcur (Table.fresh_of_insert hains) hajob hast
    (fun k b hb => hfree b (Table.mem_of_get hb)) hlo hhi hmax (Table.fresh_of_insert hiins) hres hist hep
    hgen hname

lemma advance_refines {intentId attemptId jobId : Uuid} {i i' : ExecutionIntent} {a a' : JobAttempt}
    {j j' : Job} {e : JobEvent} (hi : db.jobIntents.get intentId = some i)
    (ha : db.attempts.get attemptId = some a) (hj : db.jobs.get jobId = some j)
    (hlink : i.resourceId = attemptId) (hjob : a.jobId = jobId)
    (hintents : db'.jobIntents.get = Function.update db.jobIntents.get intentId (some i'))
    (hattempts : db'.attempts.get = Function.update db.attempts.get attemptId (some a'))
    (hjobs : db'.jobs.get = Function.update db.jobs.get jobId (some j'))
    (hsi : i'.spec = i.spec) (hsa : a'.spec = a.spec) (hsj : j'.spec = j.spec)
    (hcur : j'.currentAttemptNumber = j.currentAttemptNumber)
    (hadv : Advance db.now i a j e i'.status a'.state j'.state)
    (hep : i'.leaseEpoch = if i.status = .pending then i.leaseEpoch + 1 else i.leaseEpoch)
    (hle : i'.status = .claimed → i'.leaseExpiresAt = none → i.status = .claimed ∧ i.leaseExpiresAt = none) :
    JobStep db.now (jobView db) e (jobView db') := by
  obtain rfl := Table.key_of_get hi
  obtain rfl := Table.key_of_get ha
  obtain rfl := Table.key_of_get hj
  have hv : jobView db' = (((jobView db).setJob j').setAttempt a').setIntent i' := by
    simp only [jobView, JobView.setJob, JobView.setAttempt, JobView.setIntent, hjobs, hattempts, hintents,
      (Job.spec_eq.mp hsj).1, (JobAttempt.spec_eq.mp hsa).1, (ExecutionIntent.spec_eq.mp hsi).1]
  rw [hv]
  exact .advance _ i i' a a' j j' e hi ha hj hlink hjob hsi hsa hsj hcur hadv hep hle

lemma claim_refines {workerId : String} {lease : Time} {wss locked : List Uuid}
    {wl : ClaimedJobWorkload} (h : claimNextJobAttempt db workerId lease wss locked = some (wl, db')) :
    JobStep db.now (jobView db) .claim (jobView db') := by
  obtain ⟨i, a, j, jobs, dead, hnext, -, rfl, hjobs⟩ := claimNextJobAttempt_inv h
  obtain ⟨hi, hp, ha, hj⟩ := nextJobIntent_inv hnext
  have haid := Table.key_of_get ha
  have hjid := Table.key_of_get hj
  have ha' : db.attempts.get a.id = some a := haid ▸ ha
  have hj' : db.jobs.get j.id = some j := hjid ▸ hj
  have hep : (i.claim workerId lease db.now).leaseEpoch =
      if i.status = .pending then i.leaseEpoch + 1 else i.leaseEpoch := by simp [ExecutionIntent.claim, hp]
  have hle : (i.claim workerId lease db.now).status = .claimed →
      (i.claim workerId lease db.now).leaseExpiresAt = none →
      i.status = .claimed ∧ i.leaseExpiresAt = none := by
    intro _ hnone
    simp [ExecutionIntent.claim] at hnone
  rcases hjobs with ⟨hst, rfl⟩ | ⟨hst, rfl⟩
  · refine advance_refines hi ha' hj' haid.symm hjid.symm (Table.get_set_eq_update hi)
      (Table.get_set_eq_update ha') (Table.get_set_eq_update hj') rfl rfl rfl rfl
      (.claim _ hp ?_) hep hle
    rcases hst with hs | hs
    · exact .inl ⟨hs, by simp [Job.claim, hs]⟩
    · exact .inr ⟨by simp [hs], by simp [Job.claim, hs]⟩
  · exact advance_refines hi ha' hj' haid.symm hjid.symm (Table.get_set_eq_update hi)
      (Table.get_set_eq_update ha') (Table.get_eq_update hj') rfl rfl rfl rfl
      (.claim _ hp (.inr ⟨hst, rfl⟩)) hep hle

/-- The rows behind a workload whose epoch still passes the fence. -/
lemma Bound.fenced {intentId attemptId jobId : Uuid} {n m e : Nat} {i : ExecutionIntent}
    (hb : Bound (jobView db) intentId attemptId jobId n m e) (hi : db.jobIntents.get intentId = some i) :
    i.id = intentId ∧ i.resourceId = attemptId ∧ ∃ a j, db.attempts.get attemptId = some a ∧
      a.jobId = jobId ∧ a.attemptNumber = n ∧ db.jobs.get jobId = some j ∧ j.maxRetries = m := by
  obtain ⟨i', a, j, hi', hres, ha, hjob, hn, hj, hm, -⟩ := hb
  obtain rfl : i = i' := Option.some.inj (hi.symm.trans hi')
  exact ⟨Table.key_of_get hi, hres, a, j, ha, hjob, hn, hj, hm⟩

lemma renewLease_inv {intents intents' : Table ExecutionIntent.id} {now ext : Time} {intentId : Uuid}
    {epoch : Nat} (h : renewLease intents now intentId epoch ext = .ok intents') :
    ∃ i, intents.get intentId = some i ∧ i.leaseEpoch = epoch ∧ i.status = .claimed ∧
      intents' = intents.set intentId
        (fun i => { i with leaseExpiresAt := some (now + ext), updatedAt := now }) := by
  unfold renewLease at h
  simp only [bind_eq_ok, ensure_eq_ok, orError_eq_ok, pure_eq_ok] at h
  obtain ⟨-, -, ⟨i, intents''⟩, hmod, rfl⟩ := h
  obtain ⟨hi, hfence, rfl⟩ := Table.modify_eq_some.mp hmod
  simp only [ExecutionIntent.fenced, Bool.and_eq_true, decide_eq_true_eq] at hfence
  exact ⟨i, hi, hfence.1, hfence.2, rfl⟩

lemma renew_refines {wl : ClaimedJobWorkload} {ext : Time} {intents : Table ExecutionIntent.id}
    (hb : BoundWorkload (jobView db) wl)
    (h : renewLease db.jobIntents db.now wl.intentId wl.leaseEpoch ext = .ok intents) :
    JobStep db.now (jobView db) (.renew wl.intentId wl.leaseEpoch)
      (jobView { db with jobIntents := intents }) := by
  obtain ⟨i, hi, hep, hst, rfl⟩ := renewLease_inv h
  obtain ⟨hid, hres, a, j, ha, hjob, -, hj, -⟩ := hb.fenced hi
  refine advance_refines hi ha hj hres hjob (Table.get_set_eq_update hi) (Table.get_eq_update ha)
    (Table.get_eq_update hj) rfl rfl rfl rfl ?_ (by simp [hst]) (by simp)
  rw [← hid, ← hep, hst]
  exact .renew hst

lemma run_refines {wl : ClaimedJobWorkload} (hb : BoundWorkload (jobView db) wl)
    (h : markJobAttemptRunning db wl.intentId wl.jobAttemptId wl.jobId wl.leaseEpoch = .ok db') :
    JobStep db.now (jobView db) (.run wl.intentId wl.leaseEpoch) (jobView db') := by
  obtain ⟨i, a, j, dead, hi, hep, hst, ha, hast, hj, hjst, rfl⟩ := markJobAttemptRunning_inv h
  obtain ⟨hid, hres, a', j', ha', hjob, -⟩ := hb.fenced hi
  obtain rfl : a = a' := Option.some.inj (ha.symm.trans ha')
  refine advance_refines hi ha hj hres hjob (Table.get_set_eq_update hi) (Table.get_set_eq_update ha)
    (Table.get_set_eq_update hj) rfl rfl rfl rfl ?_ (by simp [hst]) ?_
  · rw [← hid, ← hep, hst]
    exact .run hst hast hjst
  · exact fun hcl hnone => ⟨hcl, hnone⟩

lemma finish_refines {wl : ClaimedJobWorkload} {o : Outcome} (hb : BoundWorkload (jobView db) wl)
    (ho : ∀ r, o = .failed r → r = decide (wl.attemptNumber ≤ wl.maxRetries))
    (h : Finished db wl.intentId wl.jobAttemptId wl.jobId wl.leaseEpoch o db') :
    JobStep db.now (jobView db) (.finish wl.intentId wl.leaseEpoch o) (jobView db') := by
  obtain ⟨i, j, f, hf, g, hg, k, hk, dead, events, hi, hep, hst, hj, hsrc, hfi, hga, hkj, rfl⟩ := h
  obtain ⟨hid, hres, a, j', ha, hjob, hn, hj', hm⟩ := hb.fenced hi
  obtain rfl : j = j' := Option.some.inj (hj.symm.trans hj')
  have hks : (k j).spec = j.spec := by rw [hkj]; rfl
  have hkc : (k j).currentAttemptNumber = j.currentAttemptNumber := by rw [hkj]; rfl
  have hkst : (k j).state = o.jobState j.state := by rw [hkj]; rfl
  refine advance_refines hi ha hj hres hjob (Table.get_set_eq_update hi hf)
    (Table.get_set_eq_update ha hg) (Table.get_set_eq_update hj hk) (hfi i).1 (hga a).1 hks hkc ?_ ?_ ?_
  · rw [(hfi i).2.2, (hga a).2, hkst, ← hid, ← hep]
    exact .finish o hst hsrc (by rw [hn, hm]; exact ho)
  · rw [(hfi i).2.1, hst]
    simp
  · rw [(hfi i).2.2]
    cases o <;> simp [Outcome.intentStatus]

lemma begin_refines {item : ExpiredJobRecoveryInfo} (hb : BoundItem (jobView db) item)
    (h : beginJobRecovery db item = .ok db') :
    JobStep db.now (jobView db) (.begin item.intentId item.leaseEpoch) (jobView db') := by
  obtain ⟨db₁, a, i, hdb₁, ha, hast, hi, hep, hst, hexp, rfl⟩ := beginJobRecovery_inv h
  obtain ⟨hid, hres, a', j, ha', hjob, -, hj, -⟩ := hb.fenced hi
  obtain rfl : a = a' := Option.some.inj (ha.symm.trans ha')
  have hfin : (finalizeExpired item db.now a).state = failed ∨
      (finalizeExpired item db.now a).state = cancelled := by
    by_cases hc : item.jobState = cancelRequested <;> simp [finalizeExpired, hc]
  rcases beginRecoveryJob_inv hdb₁ with ⟨-, rfl⟩ | ⟨j', dead, -, hj', hrun, rfl⟩
  · refine advance_refines hi ha hj hres hjob (Table.get_set_eq_update hi) (Table.get_set_eq_update ha)
      (Table.get_eq_update hj) rfl rfl rfl rfl ?_ (by simp [hst]) (by simp)
    rw [← hid, ← hep]
    exact .begin _ _ hst hexp hast hfin (.inr rfl)
  · obtain rfl : j = j' := Option.some.inj (hj.symm.trans hj')
    refine advance_refines hi ha hj hres hjob (Table.get_set_eq_update hi) (Table.get_set_eq_update ha)
      (Table.get_set_eq_update hj) rfl rfl rfl rfl ?_ (by simp [hst]) (by simp)
    rw [← hid, ← hep]
    exact .begin _ _ hst hexp hast hfin (.inl ⟨hrun, rfl⟩)

/-! ### Refinement of a step -/

/-- The request of the protocol that a job action makes. -/
def jobEvent (db : Db) : JobAction → JobEvent
  | .submitJob _ _ => .submit
  | .cancelJob jobId => .cancel jobId
  | .rerunJob _ => .submit
  | .beginJobRecovery item => .begin item.intentId item.leaseEpoch
  | .confirmJobRecovery item deleteConfirmed => .confirm item.jobId item.attemptNumber
      (recoveryTarget ((recoveryShouldRetry db.now item deleteConfirmed).getD false) item.isCancel)
  | .requeueRetryWaitJob _ row _ => .requeue row.id
  | .createJobAttemptIntent job => .admission job.jobId
  | .claimNextJobAttempt _ _ _ _ => .claim
  | .renewLease wl _ => .renew wl.intentId wl.leaseEpoch
  | .markJobAttemptRunning wl => .run wl.intentId wl.leaseEpoch
  | .markJobAttemptSucceeded wl _ => .finish wl.intentId wl.leaseEpoch .succeeded
  | .markJobAttemptFailed wl _ _ =>
    .finish wl.intentId wl.leaseEpoch (.failed (wl.attemptNumber ≤ wl.maxRetries))
  | .markJobAttemptCancelled wl => .finish wl.intentId wl.leaseEpoch .cancelled
  | _ => .scan

lemma recoveryTarget_cases (shouldRetry isCancel : Bool) :
    recoveryTarget shouldRetry isCancel = retryWait ∨ recoveryTarget shouldRetry isCancel = failed ∨
      recoveryTarget shouldRetry isCancel = cancelled := by
  cases shouldRetry <;> cases isCancel <;> simp [recoveryTarget]

@[simp] lemma committed_eq_some {ε : Type} {r : Except ε Db} : committed r = some db' ↔ r = .ok db' := by
  cases r <;> simp [committed, Except.toOption]

@[simp] lemma toOption_eq_some {ε α : Type} {r : Except ε α} {a : α} :
    r.toOption = some a ↔ r = .ok a := by
  cases r <;> simp [Except.toOption]

/-- The shape of a transaction that teaches its client nothing. -/
lemma commit_inv {ε γ : Type} {r : Except ε Db} {c c' : γ}
    (h : (committed r).map (·, c) = some (db', c')) : r = .ok db' ∧ c' = c := by
  obtain ⟨_, hdb, he⟩ := Option.map_eq_some_iff.mp h
  cases he
  exact ⟨committed_eq_some.mp hdb, rfl⟩

/-- The same for a client that has to hold the row it acts on. -/
lemma held_commit_inv {p : Prop} [Decidable p] {ε γ : Type} {r : Except ε Db} {c c' : γ}
    (h : (if p then (committed r).map (·, c) else none) = some (db', c')) : p ∧ r = .ok db' ∧ c' = c := by
  split at h
  · rename_i hp
    exact ⟨hp, commit_inv h⟩
  · cases h

lemma beginJobRecovery_step {cfg : Settings} {c c' : JobClients} {item : ExpiredJobRecoveryInfo}
    (h : jobStep cfg db c (.beginJobRecovery item) = some (db', c')) :
    item ∈ c.expired ∧ item.needsBegin = true ∧ beginJobRecovery db item = .ok db' ∧
      c' = { c with begun := c.begun ++ [item] } := by
  obtain ⟨hmem, hdb, hc⟩ := held_commit_inv h
  exact ⟨hmem.1, hmem.2, hdb, hc⟩

lemma confirmJobRecovery_step {cfg : Settings} {c c' : JobClients} {item : ExpiredJobRecoveryInfo}
    {deleteConfirmed : Bool}
    (h : jobStep cfg db c (.confirmJobRecovery item deleteConfirmed) = some (db', c')) :
    ∃ retry, item ∈ c.begun ∧ recoveryShouldRetry db.now item deleteConfirmed = some retry ∧
      confirmJobRecovery db item.jobId retry item.isCancel = .ok db' ∧ c' = c := by
  obtain ⟨hmem, hrec⟩ := Option.ite_none_right_eq_some.mp h
  split at hrec
  · rename_i retry hretry
    obtain ⟨hdb, hc⟩ := commit_inv hrec
    exact ⟨retry, hmem, hretry, hdb, hc⟩
  · cases hrec

lemma requeueRetryWaitJob_step {cfg : Settings} {c c' : JobClients} {scannedAt now : Time} {row : RetryJob}
    (h : jobStep cfg db c (.requeueRetryWaitJob scannedAt row now) = some (db', c')) :
    (scannedAt, row) ∈ c.retries ∧ scannedAt ≤ now ∧ now ≤ db.now ∧
      requeueRetryWaitJob db schedulerBackoff now row = some db' ∧ c' = c := by
  obtain ⟨hmem, hrow⟩ := Option.ite_none_right_eq_some.mp h
  obtain ⟨_, hdb, he⟩ := Option.map_eq_some_iff.mp hrow
  cases he
  exact ⟨hmem.1, hmem.2.1, hmem.2.2, hdb, rfl⟩

lemma createJobAttemptIntent_step {cfg : Settings} {c c' : JobClients} {job : UnadmittedJob}
    (h : jobStep cfg db c (.createJobAttemptIntent job) = some (db', c')) :
    ∃ i, job ∈ c.unadmitted ∧ createJobAttemptIntent db job = .ok (some (i, db')) ∧ c' = c := by
  obtain ⟨hmem, hadm⟩ := Option.ite_none_right_eq_some.mp h
  split at hadm
  · rename_i i db₁ hdb
    cases hadm
    exact ⟨i, hmem, hdb, rfl⟩
  · cases hadm

lemma claimNextJobAttempt_step {cfg : Settings} {c c' : JobClients} {workerId : String} {lease : Time}
    {wss locked : List Uuid}
    (h : jobStep cfg db c (.claimNextJobAttempt workerId lease wss locked) = some (db', c')) :
    ∃ wl, claimNextJobAttempt db workerId lease wss locked = some (wl, db') ∧
      c' = { c with claims := c.claims ++ [wl] } := by
  obtain ⟨⟨wl, _⟩, hdb, he⟩ := Option.map_eq_some_iff.mp h
  cases he
  exact ⟨wl, hdb, rfl⟩

lemma renewLease_step {cfg : Settings} {c c' : JobClients} {wl : ClaimedJobWorkload} {ext : Time}
    (h : jobStep cfg db c (.renewLease wl ext) = some (db', c')) :
    ∃ intents, wl ∈ c.claims ∧ renewLease db.jobIntents db.now wl.intentId wl.leaseEpoch ext = .ok intents ∧
      db' = { db with jobIntents := intents } ∧ c' = c := by
  obtain ⟨hmem, hren⟩ := Option.ite_none_right_eq_some.mp h
  obtain ⟨intents, hdb, he⟩ := Option.map_eq_some_iff.mp hren
  cases he
  exact ⟨intents, hmem, toOption_eq_some.mp hdb, rfl, rfl⟩

/-- Every transaction of the job side is a step of the job protocol. -/
theorem jobStep_refines {cfg : Settings} {c c' : JobClients} {a : JobAction}
    (hok : JobClientsOK (jobView db) c) (h : jobStep cfg db c a = some (db', c')) :
    JobStep db.now (jobView db) (jobEvent db a) (jobView db') := by
  cases a with
  | submitJob ws payload =>
    obtain ⟨j, jobs, events, -, hst, hcur, hins, rfl⟩ := submitJob_inv (commit_inv h).1
    exact submit_refines hins hst hcur rfl rfl rfl
  | cancelJob id =>
    rcases cancelJob_inv (commit_inv h).1 with rfl | ⟨j, events, hj, hedge, rfl⟩
    · exact .scan _ _
    · refine move_refines hj (Table.get_set_eq_update hj) rfl rfl rfl rfl ?_
      rw [jobEvent, ← Table.key_of_get hj]
      exact .cancel hedge
  | rerunJob id =>
    obtain ⟨j, jobs, events, -, hst, hcur, hins, rfl⟩ := rerunJob_inv (commit_inv h).1
    exact submit_refines hins hst hcur rfl rfl rfl
  | findExpiredJobIntents =>
    cases h
    exact .scan _ _
  | beginJobRecovery item =>
    obtain ⟨hmem, -, hdb, -⟩ := beginJobRecovery_step h
    exact begin_refines (hok.expired item hmem) hdb
  | confirmJobRecovery item deleteConfirmed =>
    obtain ⟨retry, -, hretry, hdb, -⟩ := confirmJobRecovery_step h
    obtain ⟨j, dead, hj, hedge, rfl⟩ := confirmJobRecovery_inv hdb
    refine move_refines hj (Table.get_set_eq_update hj) rfl rfl rfl rfl ?_
    rw [jobEvent, hretry, Option.getD_some, ← Table.key_of_get hj]
    exact .confirm _ _ (recoveryTarget_cases _ _) hedge
  | scanRetryWaitJobs limit =>
    cases h
    exact .scan _ _
  | requeueRetryWaitJob scannedAt row now =>
    obtain ⟨-, -, -, hdb, -⟩ := requeueRetryWaitJob_step h
    obtain ⟨-, j, dead, hj, hst, rfl⟩ := requeueRetryWaitJob_inv hdb
    refine move_refines hj (Table.get_set_eq_update hj) rfl rfl rfl rfl ?_
    rw [jobEvent, ← Table.key_of_get hj]
    exact .requeue hst
  | scanUnadmittedJobs limit =>
    cases h
    exact .scan _ _
  | createJobAttemptIntent job =>
    obtain ⟨i, hmem, hdb, -⟩ := createJobAttemptIntent_step h
    obtain ⟨j, a, q, hadm⟩ := createJobAttemptIntent_inv hdb
    obtain ⟨-, hajob, hanum, hast⟩ := hadm.attempt
    obtain ⟨-, hires, higen, hiname, hist, hiep⟩ := hadm.intent
    obtain ⟨j', hj', hcur, hmax, -⟩ := hok.unadmitted job hmem
    obtain rfl : j = j' := Option.some.inj (hadm.row.symm.trans hj')
    have hjobs := congrArg (fun d : Db => d.jobs.get) hadm.commit
    have hbudget := hadm.budget
    exact admission_refines hadm.row hadm.queued (hjobs.trans (Table.get_set_eq_update hadm.row)) rfl rfl
      hanum.symm hadm.attempts rfl hajob hast (by rw [hanum]; exact hadm.unused) (by omega) (by omega) (by omega)
      hadm.intents rfl hires hist hiep higen hiname
  | claimNextJobAttempt workerId lease wss locked =>
    obtain ⟨wl, hdb, -⟩ := claimNextJobAttempt_step h
    exact claim_refines hdb
  | renewLease wl ext =>
    obtain ⟨intents, hmem, hdb, rfl, -⟩ := renewLease_step h
    exact renew_refines (hok.claims wl hmem) hdb
  | markJobAttemptRunning wl =>
    obtain ⟨hmem, hdb, -⟩ := held_commit_inv h
    exact run_refines (hok.claims wl hmem) hdb
  | markJobAttemptSucceeded wl uid =>
    obtain ⟨hmem, hdb, -⟩ := held_commit_inv h
    exact finish_refines (hok.claims wl hmem) (by simp) (markJobAttemptSucceeded_inv hdb)
  | markJobAttemptFailed wl reason exitCode =>
    obtain ⟨hmem, hdb, -⟩ := held_commit_inv h
    exact finish_refines (hok.claims wl hmem) (fun r hr => (Outcome.failed.inj hr).symm)
      (markJobAttemptFailed_inv hdb)
  | markJobAttemptCancelled wl =>
    obtain ⟨hmem, hdb, -⟩ := held_commit_inv h
    exact finish_refines (hok.claims wl hmem) (by simp) (markJobAttemptCancelled_inv hdb)

/-! ### What clients are given -/

lemma mem_scanUnadmittedJobs {cap limit : Nat} {u : UnadmittedJob}
    (h : u ∈ scanUnadmittedJobs db cap limit) :
    ∃ j, db.jobs.get u.jobId = some j ∧ j.state = queued ∧
      u = ⟨j.id, j.workspaceId, j.timeoutSeconds, j.maxRetries, j.currentAttemptNumber, j.state⟩ := by
  unfold scanUnadmittedJobs at h
  obtain ⟨⟨rank, j⟩, hmem, rfl⟩ := List.mem_map.mp h
  have hrank := (List.mem_filter.mp ((List.mem_insertionSort _).mp (List.mem_of_mem_take hmem))).1
  obtain ⟨⟨j', n⟩, hidx, he⟩ := List.mem_map.mp hrank
  simp only [Prod.mk.injEq] at he
  obtain ⟨-, rfl⟩ := he
  have hq := List.mem_filter.mp (mem_orderBy.mp (List.fst_mem_of_mem_zipIdx hidx))
  exact ⟨j', Table.get_of_mem hq.1, by simpa using hq.2, rfl⟩

lemma mem_findExpiredJobIntents {x : ExpiredJobRecoveryInfo} (h : x ∈ findExpiredJobIntents db) :
    ∃ i a j, db.jobIntents.get x.intentId = some i ∧ i.resourceId = x.attemptId ∧
      db.attempts.get x.attemptId = some a ∧ a.jobId = x.jobId ∧ db.jobs.get x.jobId = some j ∧
      needsRecovery db.now i a j = true ∧
      x = { intentId := i.id, attemptId := a.id, jobId := j.id, attemptNumber := a.attemptNumber,
            maxRetries := j.maxRetries, leaseEpoch := i.leaseEpoch, jobState := j.state,
            deterministicResourceName := i.deterministicResourceName,
            needsBegin := i.status = .claimed && i.leaseExpired db.now, jobUpdatedAt := j.updatedAt } := by
  obtain ⟨i, hmem, hx⟩ := List.mem_filterMap.mp h
  split at hx
  · cases hx
  · rename_i a ha
    split at hx
    · cases hx
    · rename_i j hj
      split at hx
      · rename_i hneeds
        cases hx
        have hi := Table.get_of_mem (mem_orderBy.mp hmem)
        have haid := Table.key_of_get ha
        have hjid := Table.key_of_get hj
        exact ⟨i, a, j, hi, haid.symm, haid ▸ ha, hjid.symm, hjid ▸ hj, hneeds, rfl⟩
      · cases hx

lemma boundItem_of_mem {x : ExpiredJobRecoveryInfo} (h : x ∈ findExpiredJobIntents db) :
    BoundItem (jobView db) x := by
  obtain ⟨i, a, j, hi, hres, ha, hjob, hj, -, hx⟩ := mem_findExpiredJobIntents h
  exact ⟨i, a, j, hi, hres, ha, hjob, by rw [hx], hj, by rw [hx], by rw [hx]⟩

lemma boundWorkload_of_claim {workerId : String} {lease : Time} {wss locked : List Uuid}
    {wl : ClaimedJobWorkload} (h : claimNextJobAttempt db workerId lease wss locked = some (wl, db')) :
    BoundWorkload (jobView db') wl := by
  obtain ⟨i, a, j, jobs, dead, hnext, rfl, rfl, hjobs⟩ := claimNextJobAttempt_inv h
  obtain ⟨hi, hp, ha, hj⟩ := nextJobIntent_inv hnext
  have haid := Table.key_of_get ha
  have hjid := Table.key_of_get hj
  have ha' : db.attempts.get a.id = some a := haid ▸ ha
  have hj' : db.jobs.get j.id = some j := hjid ▸ hj
  obtain ⟨j', hj'', hm⟩ : ∃ j', jobs.get j.id = some j' ∧ j'.maxRetries = j.maxRetries := by
    rcases hjobs with ⟨-, rfl⟩ | ⟨-, rfl⟩
    · exact ⟨j.claim db.now, Table.get_set_self hj', rfl⟩
    · exact ⟨j, hj', rfl⟩
  exact ⟨i.claim workerId lease db.now, a.claim (i.leaseEpoch + 1) db.now, j', Table.get_set_self hi,
    haid.symm, Table.get_set_self ha', hjid.symm, rfl, hj'', hm, le_rfl⟩

/-- The actions that hand a row to their client. -/
def JobAction.learns : JobAction → Bool
  | .findExpiredJobIntents => true
  | .beginJobRecovery _ => true
  | .scanRetryWaitJobs _ => true
  | .scanUnadmittedJobs _ => true
  | .claimNextJobAttempt _ _ _ _ => true
  | _ => false

lemma jobStep_sameClients {cfg : Settings} {c c' : JobClients} {a : JobAction}
    (h : jobStep cfg db c a = some (db', c')) (hl : JobAction.learns a = false) : c' = c := by
  cases a with
  | submitJob ws payload => exact (commit_inv h).2
  | cancelJob id => exact (commit_inv h).2
  | rerunJob id => exact (commit_inv h).2
  | confirmJobRecovery item deleteConfirmed =>
    obtain ⟨-, -, -, -, hc⟩ := confirmJobRecovery_step h
    exact hc
  | requeueRetryWaitJob scannedAt row now =>
    obtain ⟨-, -, -, -, hc⟩ := requeueRetryWaitJob_step h
    exact hc
  | createJobAttemptIntent job =>
    obtain ⟨-, -, -, hc⟩ := createJobAttemptIntent_step h
    exact hc
  | renewLease wl ext =>
    obtain ⟨-, -, -, -, hc⟩ := renewLease_step h
    exact hc
  | markJobAttemptRunning wl => exact (held_commit_inv h).2.2
  | markJobAttemptSucceeded wl uid => exact (held_commit_inv h).2.2
  | markJobAttemptFailed wl reason exitCode => exact (held_commit_inv h).2.2
  | markJobAttemptCancelled wl => exact (held_commit_inv h).2.2
  | _ => cases hl

/-- What clients hold stays valid, and what they are newly given is. -/
theorem jobStep_clients {cfg : Settings} {c c' : JobClients} {a : JobAction}
    (hwf : JobWF (jobView db)) (hok : JobClientsOK (jobView db) c)
    (h : jobStep cfg db c a = some (db', c')) : JobClientsOK (jobView db') c' := by
  have hold : JobClientsOK (jobView db') c := hok.mono ((jobStep_refines hok h).evolves hwf)
  cases a with
  | findExpiredJobIntents =>
    cases h
    refine ⟨hok.unadmitted, fun x hx => ?_, fun x hx => ?_, hok.claims⟩
    · rcases List.mem_append.mp hx with hx | hx
      · exact hok.expired x hx
      · exact boundItem_of_mem hx
    · rcases List.mem_append.mp hx with hx | hx
      · exact hok.begun x hx
      · exact boundItem_of_mem (List.mem_filter.mp hx).1
  | beginJobRecovery item =>
    obtain ⟨hmem, -, -, rfl⟩ := beginJobRecovery_step h
    refine ⟨hold.unadmitted, hold.expired, fun x hx => ?_, hold.claims⟩
    rcases List.mem_append.mp hx with hx | hx
    · exact hold.begun x hx
    · rw [List.mem_singleton.mp hx]
      exact hold.expired item hmem
  | scanRetryWaitJobs limit =>
    cases h
    exact ⟨hok.unadmitted, hok.expired, hok.begun, hok.claims⟩
  | scanUnadmittedJobs limit =>
    cases h
    refine ⟨fun u hu => ?_, hok.expired, hok.begun, hok.claims⟩
    rcases List.mem_append.mp hu with hu | hu
    · exact hok.unadmitted u hu
    · obtain ⟨j, hj, -, he⟩ := mem_scanUnadmittedJobs hu
      exact ⟨j, hj, by rw [he], by rw [he], by rw [he]⟩
  | claimNextJobAttempt workerId lease wss locked =>
    obtain ⟨wl, hdb, rfl⟩ := claimNextJobAttempt_step h
    refine ⟨hold.unadmitted, hold.expired, hold.begun, fun x hx => ?_⟩
    rcases List.mem_append.mp hx with hx | hx
    · exact hold.claims x hx
    · rw [List.mem_singleton.mp hx]
      exact boundWorkload_of_claim hdb
  | _ => exact jobStep_sameClients h rfl ▸ hold

end HamiCloud.Proofs
