import HamiCloud.Runtime.Process
import HamiCloud.Proofs.SingleIntent

/-!
# One scheduler process

A run of the system with one scheduler process is a run of the system in which every confirmation finds the
attempt it recovers: the process admits no attempt between its scan of the expired intents and the confirmations.
-/

namespace HamiCloud.Proofs

open Library JobState

variable {cfg : Settings}

/-! ### The transactions of the process -/

/-- The transaction that a process in this phase makes next, if it is not only moving on. -/
def nextTransaction (deleteConfirmed : Bool) : PassPhase → Option Action
  | .idle => some (.job .findExpiredJobIntents)
  | .recover (item :: _) => if item.needsBegin then some (.job (.beginJobRecovery item)) else none
  | .confirm item _ => some (.job (.confirmJobRecovery item deleteConfirmed))
  | .recover [] => some (.job (.scanRetryWaitJobs scanLimit))
  | .retries _ _ => none
  | .requeue scannedAt now (row :: _) => some (.job (.requeueRetryWaitJob scannedAt row now))
  | .requeue _ _ [] => some (.service .supersedeReleases)
  | .superseded => some (.service (.selectUnadmittedReleases scanLimit))
  | .releases (rel :: _) => some (.service (.createServiceReleaseIntent rel))
  | .releases [] => some (.job (.scanUnadmittedJobs scanLimit))
  | .jobs (job :: _) => some (.job (.createJobAttemptIntent job))
  | .jobs [] => none

/-- The transaction of a step. -/
def transaction (phase : PassPhase) : ProcessAction → Option Action
  | .other a => if a.ofPass then none else some a
  | .proceed deleteConfirmed => nextTransaction deleteConfirmed phase
  | .restart => none

lemma attempt_cases (w : World) (a : Action) :
    w.attempt cfg a = w ∨ w.step cfg a = some (w.attempt cfg a) := by
  unfold World.attempt
  cases w.step cfg a with
  | none => exact .inl rfl
  | some w' => exact .inr rfl

/-- A step of the process leaves the world alone or makes its transaction. -/
lemma process_step {p p' : ProcessWorld} {a : ProcessAction} (h : p.step cfg a = some p') :
    p'.world = p.world ∨ ∃ b, transaction p.phase a = some b ∧ p.world.step cfg b = some p'.world := by
  obtain ⟨w, phase⟩ := p
  have hattempt : ∀ {b : Action} {phase' : PassPhase}, transaction phase a = some b →
      p' = ⟨w.attempt cfg b, phase'⟩ →
      p'.world = w ∨ ∃ b, transaction phase a = some b ∧ w.step cfg b = some p'.world := by
    rintro b phase' hb rfl
    rcases attempt_cases w b with he | he
    · exact .inl he
    · exact .inr ⟨b, hb, he⟩
  have hsame : ∀ {phase' : PassPhase}, p' = ⟨w, phase'⟩ →
      p'.world = w ∨ ∃ b, transaction phase a = some b ∧ w.step cfg b = some p'.world := by
    rintro phase' rfl
    exact .inl rfl
  cases a with
  | other b =>
    obtain ⟨hpass, hmap⟩ := Option.ite_none_left_eq_some.mp h
    obtain ⟨w', hw', rfl⟩ := Option.map_eq_some_iff.mp hmap
    exact .inr ⟨b, if_neg hpass, hw'⟩
  | restart =>
    cases h
    exact .inl rfl
  | proceed deleteConfirmed =>
    have hp : p' = ProcessWorld.proceed cfg ⟨w, phase⟩ deleteConfirmed := (Option.some.inj h).symm
    cases phase with
    | recover items =>
      cases items with
      | nil => exact hattempt rfl hp
      | cons item rest =>
        unfold ProcessWorld.proceed at hp
        simp only at hp
        split at hp
        · rename_i hbegin
          split at hp
          · exact hsame hp
          · rename_i w' hw'
            exact .inr ⟨_, if_pos hbegin, hw'.trans (congrArg some (congrArg ProcessWorld.world hp).symm)⟩
        · exact hsame hp
    | retries scannedAt rows => exact hsame hp
    | requeue scannedAt now rows => cases rows <;> exact hattempt rfl hp
    | releases rows => cases rows <;> exact hattempt rfl hp
    | jobs rows =>
      cases rows with
      | nil => exact hsame hp
      | cons job rows => exact hattempt rfl hp
    | _ => exact hattempt rfl hp

/-! ### Confirmations -/

/-- A confirmation finds the attempt it recovers to be the current one still. -/
def confirmsItsAttempt (w : World) : Action → Bool
  | .job (.confirmJobRecovery item _) =>
    (w.db.jobs.get item.jobId).any (fun j => j.currentAttemptNumber = item.attemptNumber)
  | _ => true

lemma confirmsItsAttempt.current {w : World} {a : Action} (h : confirmsItsAttempt w a = true) :
    confirmsCurrent w a = true := by
  unfold confirmsCurrent
  split
  · rename_i item deleteConfirmed
    have hany : (w.db.jobs.get item.jobId).any (fun j => j.currentAttemptNumber = item.attemptNumber) = true := h
    split
    · rw [hany, Bool.or_true]
    · rfl
  · rfl

/-- The attempt of a scanned row is the current one of its job. -/
def IsCurrent (db : Db) (x : ExpiredJobRecoveryInfo) : Prop :=
  ∃ j, db.jobs.get x.jobId = some j ∧ j.currentAttemptNumber = x.attemptNumber

lemma IsCurrent.confirms {w : World} {x : ExpiredJobRecoveryInfo} (h : IsCurrent w.db x) (deleteConfirmed : Bool) :
    confirmsItsAttempt w (.job (.confirmJobRecovery x deleteConfirmed)) = true := by
  obtain ⟨j, hj, hcur⟩ := h
  simp [confirmsItsAttempt, hj, hcur]

lemma isCurrent_of_mem {db : Db} {x : ExpiredJobRecoveryInfo} (h : x ∈ findExpiredJobIntents db) :
    IsCurrent db x := by
  obtain ⟨i, a, j, -, -, -, -, hj, hneeds, hx⟩ := mem_findExpiredJobIntents h
  simp only [needsRecovery, Bool.and_eq_true, decide_eq_true_eq] at hneeds
  exact ⟨j, hj, by rw [hx]; exact hneeds.1.symm⟩

lemma jobEvent_ne_admission {w : World} {a : Action} (hne : ∀ u, a ≠ .job (.createJobAttemptIntent u)) (k : Uuid) :
    Action.jobEvent w a ≠ .admission k := by
  intro he
  cases a with
  | job b =>
    cases b with
    | createJobAttemptIntent u => exact hne u rfl
    | _ => cases he
  | _ => cases he

lemma IsCurrent.step {w w' : World} {a : Action} {x : ExpiredJobRecoveryInfo} (h : IsCurrent w.db x)
    (hw : WorldOK w) (hne : ∀ u, a ≠ .job (.createJobAttemptIntent u)) (hstep : w.step cfg a = some w') :
    IsCurrent w'.db x := by
  obtain ⟨j, hj, hcur⟩ := h
  have hside : JobStep w.db.now (jobView w.db) (Action.jobEvent w a) (jobView w'.db) := job_side hw hstep
  obtain ⟨j', hj', hcur'⟩ := hside.job_current (jobEvent_ne_admission hne) hj
  exact ⟨j', hj', hcur'.trans hcur⟩

lemma IsCurrent.attempt {w : World} {a : Action} {x : ExpiredJobRecoveryInfo} (h : IsCurrent w.db x)
    (hw : WorldOK w) (hne : ∀ u, a ≠ .job (.createJobAttemptIntent u)) : IsCurrent (w.attempt cfg a).db x := by
  unfold World.attempt
  cases hstep : w.step cfg a with
  | none => exact h
  | some w' => exact h.step hw hne hstep

structure ProcessInv (cfg : Settings) (p : ProcessWorld) : Prop where
  reach : (system cfg).Reach (fun w a => confirmsItsAttempt w a = true) p.world
  items : ∀ x ∈ p.phase.items, IsCurrent p.world.db x

lemma reach_attempt {C : World → Action → Prop} {w : World} {a : Action} (h : (system cfg).Reach C w)
    (hC : C w a) : (system cfg).Reach C (w.attempt cfg a) := by
  unfold World.attempt
  cases hstep : w.step cfg a with
  | none => exact h
  | some w' => exact .tail a h hC hstep

lemma ProcessInv.proceed {p : ProcessWorld} (h : ProcessInv cfg p) (deleteConfirmed : Bool) :
    ProcessInv cfg (p.proceed cfg deleteConfirmed) := by
  obtain ⟨w, phase⟩ := p
  have hw := reach_ok h.reach
  -- a transaction outside of the recovery, after which no row of the scan is left
  have hplain : ∀ {a : Action} {phase' : PassPhase}, confirmsItsAttempt w a = true → phase'.items = [] →
      ProcessInv cfg ⟨w.attempt cfg a, phase'⟩ :=
    fun ha hitems => ⟨reach_attempt h.reach ha, by simp [hitems]⟩
  cases phase with
  | idle =>
    refine ⟨reach_attempt (a := .job .findExpiredJobIntents) h.reach rfl, fun x hx => ?_⟩
    exact (isCurrent_of_mem hx).attempt hw (by simp)
  | recover items =>
    cases items with
    | nil => exact hplain rfl rfl
    | cons item rest =>
      unfold ProcessWorld.proceed
      simp only
      split
      · split
        · exact ⟨h.reach, fun x hx => h.items x (List.mem_cons_of_mem _ hx)⟩
        · rename_i w' hstep
          exact ⟨.tail (.job (.beginJobRecovery item)) h.reach rfl hstep,
            fun x hx => (h.items x hx).step hw (by simp) hstep⟩
      · exact ⟨h.reach, h.items⟩
  | confirm item rest =>
    refine ⟨reach_attempt h.reach ((h.items item List.mem_cons_self).confirms deleteConfirmed), fun x hx => ?_⟩
    exact (h.items x (List.mem_cons_of_mem _ hx)).attempt hw (by simp)
  | retries scannedAt rows => exact ⟨h.reach, by simp [ProcessWorld.proceed, PassPhase.items]⟩
  | requeue scannedAt now rows => cases rows <;> exact hplain rfl rfl
  | superseded => exact hplain rfl rfl
  | releases rows => cases rows <;> exact hplain rfl rfl
  | jobs rows =>
    cases rows with
    | nil => exact ⟨h.reach, by simp [ProcessWorld.proceed, PassPhase.items]⟩
    | cons job rows => exact hplain rfl rfl

lemma ProcessInv.step {p p' : ProcessWorld} {a : ProcessAction} (h : ProcessInv cfg p)
    (hstep : p.step cfg a = some p') : ProcessInv cfg p' := by
  cases a with
  | other a =>
    obtain ⟨hpass, hmap⟩ := Option.ite_none_left_eq_some.mp hstep
    obtain ⟨w', hw', rfl⟩ := Option.map_eq_some_iff.mp hmap
    have hguard : confirmsItsAttempt p.world a = true := by
      unfold confirmsItsAttempt
      split
      · exact absurd rfl hpass
      · rfl
    refine ⟨.tail a h.reach hguard hw', fun x hx => (h.items x hx).step (reach_ok h.reach) ?_ hw'⟩
    rintro u rfl
    exact hpass rfl
  | proceed deleteConfirmed =>
    cases hstep
    exact h.proceed deleteConfirmed
  | restart =>
    cases hstep
    exact ⟨h.reach, by simp [PassPhase.items]⟩

/-- With one scheduler process every confirmation finds the attempt it recovers. -/
theorem process_reach {p : ProcessWorld} (h : (processSystem cfg).Reachable p) :
    (system cfg).Reach (fun w a => confirmsItsAttempt w a = true) p.world := by
  have hinit : ProcessInv cfg ProcessWorld.init := ⟨.refl _, by simp [ProcessWorld.init, PassPhase.items]⟩
  exact (h.invariant (P := ProcessInv cfg) hinit (fun _ _ _ hp _ hstep => hp.step hstep)).reach

end HamiCloud.Proofs
