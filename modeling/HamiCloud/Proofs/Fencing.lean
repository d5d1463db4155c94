import HamiCloud.Proofs.WorldInvariant

/-!
# Lease fencing

Intents of both resource types are fenced leases in every run: epochs grow, a lease changes hands only
when it is free or has expired, an operation takes effect only under the latest epoch, and an intent
that has been finalised stays as it is.
-/

namespace HamiCloud.Proofs

open Library

variable {cfg : Settings} {w w' : World} {a : Action}

/-- An intent of either resource type. -/
inductive IntentRef
  | job (intentId : Uuid)
  | release (intentId : Uuid)
  deriving DecidableEq

def intentOf (w : World) : IntentRef → Option ExecutionIntent
  | .job k => w.db.jobIntents.get k
  | .release k => w.db.releaseIntents.get k

/-- The epochs that the claims of an intent have returned so far, in order. -/
def grants (w : World) : IntentRef → List Nat
  | .job k => (w.jobs.claims.filter (fun wl => wl.intentId = k)).map ClaimedJobWorkload.leaseEpoch
  | .release k => (w.services.claims.filter (fun wl => wl.intentId = k)).map ClaimedWorkload.leaseEpoch

/-- The intent and the epoch that an operation presents. -/
def presents : Action → Option (IntentRef × Nat)
  | .job (.renewLease wl _) => some (.job wl.intentId, wl.leaseEpoch)
  | .job (.markJobAttemptRunning wl) => some (.job wl.intentId, wl.leaseEpoch)
  | .job (.markJobAttemptSucceeded wl _) => some (.job wl.intentId, wl.leaseEpoch)
  | .job (.markJobAttemptFailed wl _ _) => some (.job wl.intentId, wl.leaseEpoch)
  | .job (.markJobAttemptCancelled wl) => some (.job wl.intentId, wl.leaseEpoch)
  | .job (.beginJobRecovery item) => some (.job item.intentId, item.leaseEpoch)
  | .service (.renewLease wl _) => some (.release wl.intentId, wl.leaseEpoch)
  | .service (.markReleaseHealthy wl _) => some (.release wl.intentId, wl.leaseEpoch)
  | .service (.markReleaseFailed wl _) => some (.release wl.intentId, wl.leaseEpoch)
  | _ => none

/-- The operations that finalise the intent they present. -/
def finalises : Action → Bool
  | .job (.markJobAttemptSucceeded _ _) => true
  | .job (.markJobAttemptFailed _ _ _) => true
  | .job (.markJobAttemptCancelled _) => true
  | .job (.beginJobRecovery _) => true
  | .service (.markReleaseHealthy _ _) => true
  | .service (.markReleaseFailed _ _) => true
  | _ => false

/-! ### Rows -/

/-- The operation of an action on the lease of an intent. -/
def leaseOp (w : World) (a : Action) : IntentRef → Option Lease.Op
  | .job k => (Action.jobEvent w a).leaseOp k
  | .release k => (Action.releaseEvent a).leaseOp k

lemma request_intent {now : Time} {v v' : ReleaseView}
    (h : Relation.ReflTransGen (fun u u' => ReleaseStep now u .request u') v v') {k : Uuid}
    {i : ExecutionIntent} (hi : v.intent k = some i) : v'.intent k = some i := by
  induction h with
  | refl => exact hi
  | tail _ hstep ih =>
    obtain ⟨i', hi', hch⟩ := hstep.intent_row ih
    rcases hch.lease with rfl | ⟨o, ho, -⟩
    · exact hi'
    · cases ho

lemma intent_change {r : IntentRef} {i : ExecutionIntent} (hw : WorldOK w)
    (hstep : (system cfg).step w a = some w') (hi : intentOf w r = some i) :
    ∃ i', intentOf w' r = some i' ∧ IntentChange w.db.now (leaseOp w a r) i i' := by
  cases r with
  | job k => exact (job_side hw hstep).intent_row hi
  | release k =>
    rw [leaseOp]
    have hside := service_side hw hstep
    generalize Action.releaseEvent a = e at hside
    cases hside with
    | step hs => exact hs.intent_row hi
    | requests hs => exact ⟨i, request_intent hs hi, .refl i⟩

/-- What a client has been granted, the intent remembers. -/
lemma grants_le {r : IntentRef} (hw : WorldOK w) {n : Nat} (hn : n ∈ grants w r) :
    ∃ i, intentOf w r = some i ∧ n ≤ i.leaseEpoch := by
  cases r with
  | job k =>
    obtain ⟨wl, hmem, rfl⟩ := List.mem_map.mp hn
    obtain ⟨hwl, hk⟩ := List.mem_filter.mp hmem
    obtain ⟨i, _, _, hi, -, -, -, -, -, -, hle⟩ := hw.jobClients.claims wl hwl
    exact ⟨i, by rw [of_decide_eq_true hk] at hi; exact hi, hle⟩
  | release k =>
    obtain ⟨wl, hmem, rfl⟩ := List.mem_map.mp hn
    obtain ⟨hwl, hk⟩ := List.mem_filter.mp hmem
    obtain ⟨i, _, hi, -, -, -, -, -, hle⟩ := hw.serviceClients.claims wl hwl
    exact ⟨i, by rw [of_decide_eq_true hk] at hi; exact hi, hle⟩

lemma grants_eq_nil {r : IntentRef} (hw : WorldOK w) (hi : intentOf w r = none) : grants w r = [] := by
  apply List.eq_nil_iff_forall_not_mem.mpr
  intro n hn
  obtain ⟨i, hi₁, -⟩ := grants_le hw hn
  rw [hi] at hi₁
  cases hi₁

/-- A claim of an intent that is not free has found its lease expired; it returns the next epoch. -/
structure Claimed (w : World) (r : IntentRef) (w' : World) : Prop where
  row : ∃ i i', intentOf w r = some i ∧ intentOf w' r = some i' ∧ i.claimable w.db.now = true ∧
    i'.status = .claimed ∧ i'.leaseEpoch = i.leaseEpoch + 1 ∧ grants w' r = grants w r ++ [i'.leaseEpoch]

lemma job_claimed {workerId : String} {lease : Time} {wss locked : List Uuid} {db' : Db} {c' : JobClients}
    (h : jobStep cfg w.db w.jobs (.claimNextJobAttempt workerId lease wss locked) = some (db', c')) (k : Uuid) :
    grants { w with db := db', jobs := c' } (.job k) = grants w (.job k) ∨
      Claimed w (.job k) { w with db := db', jobs := c' } := by
  obtain ⟨wl, hdb, rfl⟩ := claimNextJobAttempt_step h
  obtain ⟨i, at₀, j, jobs, dead, hnext, rfl, rfl, -⟩ := claimNextJobAttempt_inv hdb
  obtain ⟨hi, hp, -, -⟩ := nextJobIntent_inv hnext
  by_cases hk : i.id = k
  · subst hk
    refine .inr ⟨i, i.claim workerId lease w.db.now, hi, Table.get_set_self hi, ?_, rfl, rfl, ?_⟩
    · simp [ExecutionIntent.claimable, hp]
    · simp [grants, ExecutionIntent.claim]
  · left
    simp [grants, hk]

lemma release_claimed {workerId : String} {lease : Time} {wss locked : List Uuid} {db' : Db}
    {c' : ServiceClients}
    (h : serviceStep cfg w.db w.services (.claimNextServiceRelease workerId lease wss locked) = some (db', c'))
    (k : Uuid) :
    grants { w with db := db', services := c' } (.release k) = grants w (.release k) ∨
      Claimed w (.release k) { w with db := db', services := c' } := by
  obtain ⟨wl, hdb, rfl⟩ := claimNextServiceRelease_step h
  obtain ⟨i, r, hnext, hint, -, -, -, -, hep, rfl⟩ := claimNextServiceRelease_inv hdb
  obtain ⟨hi, hclaim, -, -⟩ := nextReleaseIntent_inv hnext
  by_cases hk : i.id = k
  · subst hk
    refine .inr ⟨i, i.claim workerId lease w.db.now, hi, Table.get_set_self hi, hclaim, rfl, rfl, ?_⟩
    simp [grants, hint, hep, ExecutionIntent.claim]
  · left
    simp [grants, hint, hk]

lemma grants_step (hstep : (system cfg).step w a = some w') (r : IntentRef) :
    grants w' r = grants w r ∨ Claimed w r w' := by
  rcases step_cases hstep with ⟨d, rfl, rfl⟩ | ⟨b, db', c', rfl, hjob, rfl⟩ | ⟨b, db', c', rfl, hserv, rfl⟩
  · exact .inl (by cases r <;> rfl)
  · cases r with
    | release k => exact .inl rfl
    | job k =>
      have hsame : c'.claims = w.jobs.claims → grants { w with db := db', jobs := c' } (.job k) = grants w (.job k) :=
        fun hc => by simp only [grants, hc]
      cases b with
      | claimNextJobAttempt workerId lease wss locked => exact job_claimed hjob k
      | findExpiredJobIntents => exact .inl (hsame (by cases hjob; rfl))
      | beginJobRecovery item =>
        obtain ⟨_, _, _, hc⟩ := beginJobRecovery_step hjob
        exact .inl (hsame (by rw [hc]))
      | scanRetryWaitJobs limit => exact .inl (hsame (by cases hjob; rfl))
      | scanUnadmittedJobs limit => exact .inl (hsame (by cases hjob; rfl))
      | _ => exact .inl (hsame (by rw [jobStep_sameClients hjob rfl]))
  · cases r with
    | job k => exact .inl rfl
    | release k =>
      have hsame : c'.claims = w.services.claims →
          grants { w with db := db', services := c' } (.release k) = grants w (.release k) :=
        fun hc => by simp only [grants, hc]
      cases b with
      | claimNextServiceRelease workerId lease wss locked => exact release_claimed hserv k
      | readWebhook repo sha branch =>
        obtain ⟨plan, _, _, hc⟩ := readWebhook_step hserv
        exact .inl (hsame (by rw [hc]))
      | selectUnadmittedReleases limit => exact .inl (hsame (by cases hserv; rfl))
      | markReleaseHealthy wl uid =>
        obtain ⟨_, _, _, hc⟩ := markReleaseHealthy_step hserv
        exact .inl (hsame (by rw [hc]))
      | claimNextBuildRelease wss locked =>
        obtain ⟨task, _, hc⟩ := claimNextBuildRelease_step hserv
        exact .inl (hsame (by rw [hc]))
      | _ => exact .inl (hsame (by rw [serviceStep_sameClients hserv rfl]))

/-- The effect of an operation that presents an epoch. -/
structure Presented (w : World) (a : Action) (r : IntentRef) (e : Nat) (w' : World) : Prop where
  row : ∃ i i', intentOf w r = some i ∧ intentOf w' r = some i' ∧ i.status = .claimed ∧ i.leaseEpoch = e ∧
    (finalises a = true → i'.status.isFinal = true) ∧
    ((∃ item, a = .job (.beginJobRecovery item)) → i.leaseExpired w.db.now = true)

lemma finished_presented {db' : Db} {c' : JobClients} {intentId attemptId jobId : Uuid} {e : Nat} {o : Outcome}
    (h : Finished w.db intentId attemptId jobId e o db')
    (hbegin : ¬∃ item, a = .job (.beginJobRecovery item)) :
    Presented w a (.job intentId) e { w with db := db', jobs := c' } := by
  obtain ⟨i, j, f, hf, g, hg, k, hk, dead, events, hi, hep, hst, -, -, hfi, -, -, rfl⟩ := h
  refine ⟨i, f i, hi, Table.get_set_self hi hf, hst, hep, fun _ => ?_, fun hb => absurd hb hbegin⟩
  rw [(hfi i).2.2]
  cases o <;> rfl

lemma presented_step {r : IntentRef} {e : Nat} (hstep : (system cfg).step w a = some w')
    (hp : presents a = some (r, e)) : Presented w a r e w' := by
  rcases step_cases hstep with ⟨d, rfl, rfl⟩ | ⟨b, db', c', rfl, hjob, rfl⟩ | ⟨b, db', c', rfl, hserv, rfl⟩
  · cases hp
  · cases b with
    | renewLease wl ext =>
      cases hp
      obtain ⟨intents, -, hdb, rfl, -⟩ := renewLease_step hjob
      obtain ⟨i, hi, hep, hst, rfl⟩ := renewLease_inv hdb
      exact ⟨i, _, hi, Table.get_set_self hi, hst, hep, by simp [finalises], by simp⟩
    | markJobAttemptRunning wl =>
      cases hp
      obtain ⟨i, at₀, j, dead, hi, hep, hst, -, -, -, -, rfl⟩ :=
        markJobAttemptRunning_inv (held_commit_inv hjob).2.1
      exact ⟨i, _, hi, Table.get_set_self hi, hst, hep, by simp [finalises], by simp⟩
    | markJobAttemptSucceeded wl uid =>
      cases hp
      exact finished_presented (markJobAttemptSucceeded_inv (held_commit_inv hjob).2.1) (by simp)
    | markJobAttemptFailed wl reason exitCode =>
      cases hp
      exact finished_presented (markJobAttemptFailed_inv (held_commit_inv hjob).2.1) (by simp)
    | markJobAttemptCancelled wl =>
      cases hp
      exact finished_presented (markJobAttemptCancelled_inv (held_commit_inv hjob).2.1) (by simp)
    | beginJobRecovery item =>
      cases hp
      obtain ⟨-, -, hdb, -⟩ := beginJobRecovery_step hjob
      obtain ⟨db₁, at₀, i, -, -, -, hi, hep, hst, hx, rfl⟩ := beginJobRecovery_inv hdb
      exact ⟨i, _, hi, Table.get_set_self hi, hst, hep, fun _ => rfl, fun _ => hx⟩
    | _ => cases hp
  · cases b with
    | renewLease wl ext =>
      cases hp
      obtain ⟨intents, -, hdb, rfl, -⟩ := renewLease_service_step hserv
      obtain ⟨i, hi, hep, hst, rfl⟩ := renewLease_inv hdb
      exact ⟨i, _, hi, Table.get_set_self hi, hst, hep, by simp [finalises], by simp⟩
    | markReleaseHealthy wl uid =>
      cases hp
      obtain ⟨becameCurrent, -, hdb, -⟩ := markReleaseHealthy_step hserv
      obtain ⟨i, apps, hi, hep, hst, rfl, -⟩ := markReleaseHealthy_inv hdb
      exact ⟨i, _, hi, Table.get_set_self hi, hst, hep, fun _ => rfl, by simp⟩
    | markReleaseFailed wl reason =>
      cases hp
      obtain ⟨i, hi, hep, hst, rfl⟩ := markReleaseFailed_inv (held_commit_inv hserv).2.1
      exact ⟨i, _, hi, Table.get_set_self hi, hst, hep, fun _ => rfl, by simp⟩
    | _ => cases hp

/-! ### Runs -/

/-- The epochs granted for an intent increase and stay below the epoch it records. -/
def Granted (w : World) : Prop := ∀ r i, intentOf w r = some i → i.lease.Granted (grants w r)

lemma Granted.step (h : Granted w) (hw : WorldOK w) (hstep : (system cfg).step w a = some w') : Granted w' := by
  intro r i' hi'
  cases hi : intentOf w r with
  | none =>
    rcases grants_step hstep r with hg | ⟨i, -, hi₁, -⟩
    · rw [hg, grants_eq_nil hw hi]
      exact ⟨List.Pairwise.nil, by simp⟩
    · rw [hi] at hi₁
      cases hi₁
  | some i =>
    rcases grants_step hstep r with hg | ⟨i₁, i₂, hi₁, hi₂, hclaim, hst, hep, hg⟩
    · obtain ⟨i₂, hi₂, hch⟩ := intent_change hw hstep hi
      obtain rfl : i₂ = i' := Option.some.inj (hi₂.symm.trans hi')
      rw [hg]
      exact (h r i hi).mono hch.epoch_le
    · obtain rfl : i₁ = i := Option.some.inj (hi₁.symm.trans hi)
      obtain rfl : i₂ = i' := Option.some.inj (hi₂.symm.trans hi')
      have hgrant : Lease.Step w.db.now i₁.lease .grant i₂.lease := by
        have hlease : i₂.lease = ⟨.held, i₁.lease.epoch + 1, i₂.leaseExpiresAt⟩ := by
          simp [ExecutionIntent.lease, IntentStatus.phase, hst, hep]
        rw [hlease]
        exact .grant _ (ExecutionIntent.available_of_claimable hclaim)
      rw [hg]
      exact (h r i₁ hi).grant hgrant

lemma reach_granted {C : World → Action → Prop} (h : (system cfg).Reach C w) : Granted w := by
  refine (h.invariant (P := fun u => Granted u ∧ WorldOK u) ⟨?_, worldOK_init⟩ ?_).1
  · intro r i hi
    cases r <;> cases hi
  · rintro u b u' ⟨hg, hu⟩ - hstep
    exact ⟨hg.step hu hstep, hu.step hstep⟩

/-- A finalised intent, and the attempt it belongs to, never change again. -/
lemma path_final {C : World → Action → Prop} {r : IntentRef} {i : ExecutionIntent} (hw : WorldOK w)
    (hpath : (system cfg).Path C w w') (hi : intentOf w r = some i) (hf : i.status.isFinal = true) :
    intentOf w' r = some i ∧
      ∀ k, r = .job k → w'.db.attempts.get i.resourceId = w.db.attempts.get i.resourceId := by
  refine (hpath.invariant (P := fun u => WorldOK u ∧ intentOf u r = some i ∧
    ∀ k, r = .job k → u.db.attempts.get i.resourceId = w.db.attempts.get i.resourceId)
    ⟨hw, hi, fun _ _ => rfl⟩ ?_).2
  rintro u b u' ⟨hu, hiu, hat⟩ - hstep
  obtain ⟨i', hi', hch⟩ := intent_change hu hstep hiu
  rw [hch.final hf] at hi'
  refine ⟨hu.step hstep, hi', ?_⟩
  rintro k rfl
  have hkeep : u'.db.attempts.get i.resourceId = u.db.attempts.get i.resourceId :=
    (job_side hu hstep).final_attempt hu.jobs hiu hf
  exact hkeep.trans (hat k rfl)

/-- What one transaction may do to an intent: its epoch never decreases and no epoch is granted twice; a
claim has found the intent free or its lease expired; and what presents an epoch has found the intent
`CLAIMED` under that epoch, with no later one granted. -/
structure Fencing (w : World) (a : Action) (r : IntentRef) (w' : World) : Prop where
  epoch : ∀ i, intentOf w r = some i → ∃ i', intentOf w' r = some i' ∧ i.leaseEpoch ≤ i'.leaseEpoch
  granted : (grants w' r).Pairwise (· < ·)
  claim : grants w' r = grants w r ∨ Claimed w r w'
  present : ∀ e, presents a = some (r, e) → Presented w a r e w' ∧ ∀ n ∈ grants w r, n ≤ e

lemma grants_increasing {r : IntentRef} (h : Granted w) (hw : WorldOK w) : (grants w r).Pairwise (· < ·) := by
  cases hi : intentOf w r with
  | some i => exact (h r i hi).1
  | none =>
    rw [grants_eq_nil hw hi]
    exact .nil

lemma fencing_step {r : IntentRef} (hg : Granted w) (hw : WorldOK w)
    (hstep : (system cfg).step w a = some w') : Fencing w a r w' where
  epoch i hi := by
    obtain ⟨i', hi', hch⟩ := intent_change hw hstep hi
    exact ⟨i', hi', hch.epoch_le⟩
  granted := grants_increasing (hg.step hw hstep) (hw.step hstep)
  claim := grants_step hstep r
  present e he := by
    have hpres := presented_step hstep he
    obtain ⟨i, i', hi, -, -, hep, -⟩ := hpres.row
    exact ⟨hpres, fun n hn => hep ▸ (hg r i hi).2 n hn⟩

/-- Every transaction of every run fences the intents of both resource types. A finalised intent never
changes again, nor does the attempt it belongs to, and at most one finalisation of an intent commits. -/
theorem lease_fencing (cfg : Settings) {w : World} (hr : (system cfg).Reachable w) (r : IntentRef) :
    (∀ a w', (system cfg).step w a = some w' → Fencing w a r w') ∧
    (∀ i w', intentOf w r = some i → i.status.isFinal = true → (system cfg).Path (fun _ _ => True) w w' →
      intentOf w' r = some i ∧
        ∀ k, r = .job k → w'.db.attempts.get i.resourceId = w.db.attempts.get i.resourceId) ∧
    (∀ a b e e' w₁ w₂, presents a = some (r, e) → finalises a = true → (system cfg).step w a = some w₁ →
      (system cfg).Path (fun _ _ => True) w₁ w₂ → presents b = some (r, e') → finalises b = true →
      (system cfg).step w₂ b = none) := by
  have hw := reach_ok hr
  refine ⟨fun a w' hstep => fencing_step (reach_granted hr) hw hstep,
    fun i w' hi hf hpath => path_final hw hpath hi hf, ?_⟩
  intro a b e e' w₁ w₂ ha hfa hstep hpath hb hfb
  obtain ⟨-, i, -, hi, -, -, hfinal, -⟩ := (presented_step hstep ha).row
  obtain ⟨hi₂, -⟩ := path_final (hw.step hstep) hpath hi (hfinal hfa)
  -- the second finalisation would have to find the intent claimed
  cases hsecond : (system cfg).step w₂ b with
  | none => rfl
  | some w₃ =>
    obtain ⟨i₃, -, hi₃, -, hclaimed, -⟩ := (presented_step hsecond hb).row
    obtain rfl : i₃ = i := Option.some.inj (hi₃.symm.trans hi₂)
    have hf := hfinal hfa
    rw [hclaimed] at hf
    cases hf

/-- An attempt that succeeds. -/
def succeededRun : (system Settings.default).FreeRun where
  labels :=
    [.job (.submitJob 100 ⟨"quay.io/tool", 600, 2⟩), .job (.scanUnadmittedJobs 50),
      .job (.createJobAttemptIntent ⟨0, 100, 600, 2, 0, .queued⟩),
      .job (.claimNextJobAttempt "executor-1" (30 * second) [] []),
      .job (.markJobAttemptRunning ⟨2, 1, 0, 100, 600, 2, 1, .job 0 1, 1⟩),
      .job (.markJobAttemptSucceeded ⟨2, 1, 0, 100, 600, 2, 1, .job 0 1, 1⟩ "uid")]
  executes := by decide +kernel

/-- An attempt that has succeeded: its intent stays `APPLIED` under the one epoch it was claimed with. -/
theorem lease_fencing_succeeded_job : ∃ w i, (system Settings.default).Reachable w ∧
    intentOf w (.job 2) = some i ∧ i.status = .applied ∧ grants w (.job 2) = [1] ∧
    ∀ w', (system Settings.default).Path (fun _ _ => True) w w' → intentOf w' (.job 2) = some i := by
  have hstatus : (intentOf succeededRun.final (.job 2)).map ExecutionIntent.status = some .applied := by
    decide +kernel
  obtain ⟨i, hi, hst⟩ := Option.map_eq_some_iff.mp hstatus
  exact ⟨succeededRun.final, i, succeededRun.reachable, hi, hst, by decide +kernel, fun w' hpath =>
    ((lease_fencing Settings.default succeededRun.reachable (.job 2)).2.1 i w' hi (by rw [hst]; rfl) hpath).1⟩

end HamiCloud.Proofs
