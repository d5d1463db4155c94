import HamiCloud.Proofs.Frames

/-!
# The invariant of the system

The two sides of the system touch disjoint tables, share the clock and the supply of identifiers, and
each follows its protocol. Every reachable world is therefore well formed on both sides, and the rows
that clients hold are bound to the rows of the database.
-/

namespace HamiCloud.Proofs

open Library

variable {cfg : Settings} {db db' : Db}

/-! ### Fresh identifiers -/

/-- The tables of the job side whose keys the supply of identifiers stays ahead of. -/
structure FreshIds (db : Db) : Prop where
  attempts : db.attempts.Below db.nextUuid
  intents : db.jobIntents.Below db.nextUuid
  reservations : db.reservations.Below db.nextUuid

lemma FreshIds.mono (hf : FreshIds db) (hn : db.nextUuid ≤ db'.nextUuid) (hattempts : db'.attempts = db.attempts)
    (hintents : db'.jobIntents = db.jobIntents) (hres : db'.reservations.Below db'.nextUuid) : FreshIds db' :=
  ⟨hattempts ▸ hf.attempts.mono hn, hintents ▸ hf.intents.mono hn, hres⟩

lemma FreshIds.frame {tables : List DbTable} (hf : FreshIds db) (h : Frame tables db db')
    (hattempts : .attempts ∉ tables) (hintents : .jobIntents ∉ tables) (hres : .reservations ∉ tables) : FreshIds db' :=
  hf.mono h.nextUuid (h.attempts hattempts) (h.jobIntents hintents)
    (h.reservations hres ▸ hf.reservations.mono h.nextUuid)

lemma jobStep_fresh {c c' : JobClients} {b : JobAction} (h : jobStep cfg db c b = some (db', c'))
    (hf : FreshIds db) : FreshIds db' := by
  have hfinish : ∀ {intentId attemptId jobId : Uuid} {epoch : Nat} {o : Outcome},
      Finished db intentId attemptId jobId epoch o db' → FreshIds db' := by
    rintro _ _ _ _ _ ⟨i, j, f, hfi, g, hg, k, hk, dead, events, -, -, -, -, -, -, -, -, rfl⟩
    exact ⟨hf.attempts.set hg, hf.intents.set hfi, releaseReservation_below hf.reservations⟩
  have hsubmit : Submitted cfg db db' → FreshIds db' := by
    rintro ⟨j, jobs, events, -, -, -, -, rfl⟩
    exact hf.mono (Nat.le_succ _) rfl rfl ((expireStaleReservations_below hf.reservations).mono (Nat.le_succ _))
  cases b with
  | submitJob ws payload => exact hsubmit (submitJob_inv (commit_inv h).1)
  | rerunJob id => exact hsubmit (rerunJob_inv (commit_inv h).1)
  | beginJobRecovery item =>
    obtain ⟨-, -, hdb, -⟩ := beginJobRecovery_step h
    obtain ⟨db₁, a, i, hdb₁, -, -, -, -, -, -, rfl⟩ := beginJobRecovery_inv hdb
    rcases beginRecoveryJob_inv hdb₁ with ⟨-, rfl⟩ | ⟨j, dead, -, -, -, rfl⟩
    · exact ⟨hf.attempts.set, hf.intents.set, hf.reservations⟩
    · exact ⟨hf.attempts.set, hf.intents.set, hf.reservations⟩
  | confirmJobRecovery item deleteConfirmed =>
    obtain ⟨retry, -, -, hdb, -⟩ := confirmJobRecovery_step h
    obtain ⟨j, dead, -, -, rfl⟩ := confirmJobRecovery_inv hdb
    exact ⟨hf.attempts, hf.intents, releaseReservation_below hf.reservations⟩
  | createJobAttemptIntent job =>
    obtain ⟨i, -, hdb, -⟩ := createJobAttemptIntent_step h
    obtain ⟨j, a, q, hadm⟩ := createJobAttemptIntent_inv hdb
    have hnext : db'.nextUuid = db.nextUuid + 3 := congrArg Db.nextUuid hadm.commit
    have hle : db.nextUuid ≤ db'.nextUuid := hnext ▸ Nat.le_add_right _ _
    refine ⟨hf.attempts.insert hadm.attempts hle ?_, hf.intents.insert hadm.intents hle ?_,
      (expireStaleReservations_below hf.reservations).insert hadm.reservations hle ?_⟩
    · rw [hadm.attempt.1, hnext]
      exact Nat.lt_add_of_pos_right (by decide)
    · rw [hadm.intent.1, hnext]
      exact Nat.add_lt_add_left (by decide) _
    · rw [hadm.reservation.1, hnext]
      exact Nat.add_lt_add_left (by decide) _
  | claimNextJobAttempt workerId lease wss locked =>
    obtain ⟨wl, hdb, -⟩ := claimNextJobAttempt_step h
    obtain ⟨i, a, j, jobs, dead, -, -, rfl, -⟩ := claimNextJobAttempt_inv hdb
    exact ⟨hf.attempts.set, hf.intents.set, hf.reservations⟩
  | renewLease wl ext =>
    obtain ⟨intents, -, hdb, rfl, -⟩ := renewLease_step h
    obtain ⟨i, -, -, -, rfl⟩ := renewLease_inv hdb
    exact ⟨hf.attempts, hf.intents.set, hf.reservations⟩
  | markJobAttemptRunning wl =>
    obtain ⟨-, hdb, -⟩ := held_commit_inv h
    obtain ⟨i, a, j, dead, -, -, -, -, -, -, -, rfl⟩ := markJobAttemptRunning_inv hdb
    exact ⟨hf.attempts.set, hf.intents.set, hf.reservations⟩
  | markJobAttemptSucceeded wl uid => exact hfinish (markJobAttemptSucceeded_inv (held_commit_inv h).2.1)
  | markJobAttemptFailed wl reason exitCode =>
    exact hfinish (markJobAttemptFailed_inv (held_commit_inv h).2.1)
  | markJobAttemptCancelled wl => exact hfinish (markJobAttemptCancelled_inv (held_commit_inv h).2.1)
  | _ => apply hf.frame (jobStep_frame h) <;> simp [JobAction.writes]

lemma serviceStep_fresh {c c' : ServiceClients} {b : ServiceAction} (h : serviceStep cfg db c b = some (db', c'))
    (hf : FreshIds db) : FreshIds db' := by
  have hframe := serviceStep_frame h
  have hwrite : db'.reservations.Below db'.nextUuid → FreshIds db' := by
    apply hf.mono hframe.nextUuid
    · exact hframe.attempts (by cases b <;> simp [ServiceAction.writes])
    · exact hframe.jobIntents (by cases b <;> simp [ServiceAction.writes])
  have haccept : ∀ {app digest config rollbackOf}, acceptRelease cfg db app digest config rollbackOf = .ok db' →
      FreshIds db' := by
    intro app digest config rollbackOf hacc
    obtain ⟨db₁, r, releases, events, hq, -, -, -, -, -, -, rfl⟩ := acceptRelease_inv hacc
    obtain ⟨-, -, hbelow⟩ := enforceWorkspaceQuota_frame hq
    exact hwrite ((hbelow hf.reservations).mono (Nat.le_succ _))
  cases b with
  | deployRelease app payload =>
    obtain ⟨a, -, hacc⟩ := deployRelease_inv (commit_inv h).1
    exact haccept hacc
  | rollbackRelease app target =>
    obtain ⟨a, t, -, -, hacc⟩ := rollbackRelease_inv (commit_inv h).1
    exact haccept hacc
  | triggerBuild app payload =>
    obtain ⟨db₁, a, r, releases, events, hq, -, -, -, -, -, -, -, -, rfl⟩ := triggerBuild_inv (commit_inv h).1
    obtain ⟨-, -, hbelow⟩ := enforceWorkspaceQuota_frame hq
    exact hwrite ((hbelow hf.reservations).mono (Nat.le_succ _))
  | markBuildSucceeded task digest =>
    obtain ⟨r, events, -, -, rfl⟩ := markBuildSucceeded_inv (held_commit_inv h).2.1
    exact hwrite (releaseReservation_below hf.reservations)
  | markBuildFailed task reason =>
    obtain ⟨r, events, -, -, rfl⟩ := markBuildFailed_inv (held_commit_inv h).2.1
    exact hwrite (releaseReservation_below hf.reservations)
  | _ => apply hf.frame hframe <;> simp [ServiceAction.writes]

/-! ### The invariant -/

structure WorldOK (w : World) : Prop where
  jobs : JobWF (jobView w.db)
  jobClients : JobClientsOK (jobView w.db) w.jobs
  releases : ReleaseWF (releaseView w.db)
  serviceClients : ServiceClientsOK (releaseView w.db) w.services
  fresh : FreshIds w.db

lemma worldOK_init : WorldOK World.init where
  jobs := by constructor <;> intros <;> simp_all [jobView, World.init, Db.empty]
  jobClients := by constructor <;> simp [World.init]
  releases := by constructor <;> intros <;> simp_all [releaseView, World.init, Db.empty]
  serviceClients := by constructor <;> simp [World.init]
  fresh := ⟨Table.below_empty, Table.below_empty, Table.below_empty⟩

/-- The step of the world as a step of one of its two sides, or a step of the clock. -/
lemma step_cases {w w' : World} {a : Action} (h : (system cfg).step w a = some w') :
    (∃ d, a = .tick d ∧ w' = { w with db := w.db.tick d }) ∨
    (∃ b db' c', a = .job b ∧ jobStep cfg w.db w.jobs b = some (db', c') ∧
      w' = { w with db := db', jobs := c' }) ∨
    (∃ b db' c', a = .service b ∧ serviceStep cfg w.db w.services b = some (db', c') ∧
      w' = { w with db := db', services := c' }) := by
  cases a with
  | tick d => exact .inl ⟨d, rfl, (Option.some.inj h).symm⟩
  | job b =>
    obtain ⟨⟨db', c'⟩, hstep, he⟩ := Option.map_eq_some_iff.mp h
    exact .inr (.inl ⟨b, db', c', rfl, hstep, he.symm⟩)
  | service b =>
    obtain ⟨⟨db', c'⟩, hstep, he⟩ := Option.map_eq_some_iff.mp h
    exact .inr (.inr ⟨b, db', c', rfl, hstep, he.symm⟩)

theorem WorldOK.step {w w' : World} {a : Action} (hw : WorldOK w) (h : (system cfg).step w a = some w') :
    WorldOK w' := by
  rcases step_cases h with ⟨d, rfl, rfl⟩ | ⟨b, db', c', rfl, hstep, rfl⟩ | ⟨b, db', c', rfl, hstep, rfl⟩
  · exact ⟨hw.jobs, hw.jobClients, hw.releases, hw.serviceClients,
      hw.fresh.attempts, hw.fresh.intents, hw.fresh.reservations⟩
  · have hview := releaseView_of_frame (jobStep_services hstep)
    exact ⟨(jobStep_refines hw.jobClients hstep).wf hw.jobs, jobStep_clients hw.jobs hw.jobClients hstep,
      hview ▸ hw.releases, hview ▸ hw.serviceClients, jobStep_fresh hstep hw.fresh⟩
  · have hview := jobView_of_frame (serviceStep_jobs hstep)
    exact ⟨hview ▸ hw.jobs, hview ▸ hw.jobClients,
      (serviceStep_refines hw.releases hw.serviceClients hstep).wf hw.releases,
      serviceStep_clients hw.releases hw.serviceClients hstep, serviceStep_fresh hstep hw.fresh⟩

theorem reach_ok {C : World → Action → Prop} {w : World} (h : (system cfg).Reach C w) : WorldOK w :=
  h.invariant worldOK_init (fun _ _ _ hw _ hstep => hw.step hstep)

/-! ### Projection to the protocols -/

/-- The request of the job protocol that an action makes. -/
def Action.jobEvent (w : World) : Action → JobEvent
  | .job b => Proofs.jobEvent w.db b
  | _ => .scan

/-- The request of the release protocol that an action makes. -/
def Action.releaseEvent : Action → ReleaseEvent
  | .service b => Proofs.releaseEvent b
  | _ => .scan

/-- A step of the world, seen from the job side. -/
lemma job_side {w w' : World} {a : Action} (hw : WorldOK w) (h : (system cfg).step w a = some w') :
    JobStep w.db.now (jobView w.db) (Action.jobEvent w a) (jobView w'.db) := by
  rcases step_cases h with ⟨d, rfl, rfl⟩ | ⟨b, db', c', rfl, hstep, rfl⟩ | ⟨b, db', c', rfl, hstep, rfl⟩
  · exact .scan _ _
  · exact jobStep_refines hw.jobClients hstep
  · rw [jobView_of_frame (serviceStep_jobs hstep)]
    exact .scan _ _

/-- A step of the world, seen from the service side. -/
lemma service_side {w w' : World} {a : Action} (hw : WorldOK w) (h : (system cfg).step w a = some w') :
    ReleaseRun w.db.now (releaseView w.db) (Action.releaseEvent a) (releaseView w'.db) := by
  rcases step_cases h with ⟨d, rfl, rfl⟩ | ⟨b, db', c', rfl, hstep, rfl⟩ | ⟨b, db', c', rfl, hstep, rfl⟩
  · exact .step (.scan _ _)
  · rw [releaseView_of_frame (jobStep_services hstep)]
    exact .step (.scan _ _)
  · exact serviceStep_refines hw.releases hw.serviceClients hstep

end HamiCloud.Proofs
