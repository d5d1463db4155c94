import HamiCloud.Proofs.WorldInvariant

/-!
# Job states follow the contract

Every transaction of every interleaving keeps the state of a job or moves it along an edge of
`job.v1.json`; along a run the state of a job is reachable in that table from where it was.
-/

namespace HamiCloud.Proofs

open Library JobState

variable {cfg : Settings} {w w' : World}

/-- Reachability in the transition table of the contract. -/
def Follows : JobState → JobState → Prop := Relation.ReflTransGen (fun s t => t ∈ contract s)

lemma Follows.of_terminal {s t : JobState} (h : Follows s t) (hs : s.isTerminal = true) : t = s := by
  have hend := (isTerminal_iff_contract s).mp hs
  induction h with
  | refl => rfl
  | tail _ hedge ih =>
    rw [ih, hend] at hedge
    cases hedge

lemma Follows.of_cancelRequested {t : JobState} (h : Follows cancelRequested t) :
    t = cancelRequested ∨ t = cancelled := by
  induction h with
  | refl => exact .inl rfl
  | tail _ hedge ih =>
    rcases ih with rfl | rfl
    · exact .inr (by simpa [contract] using hedge)
    · simp [contract] at hedge

/-- One transaction: a job that is there stays and keeps its state or follows an edge, and a job
that appears is queued. -/
lemma step_job {a : Action} (hw : WorldOK w) (h : (system cfg).step w a = some w') (k : Uuid) :
    (∀ j, w.db.jobs.get k = some j → ∃ j', w'.db.jobs.get k = some j' ∧
      (j'.state = j.state ∨ j'.state ∈ contract j.state)) ∧
    (∀ j', w.db.jobs.get k = none → w'.db.jobs.get k = some j' → j'.state = queued) := by
  have hstep := job_side hw h
  constructor
  · intro j hj
    obtain ⟨j', hj', -, hedge, -⟩ := hstep.job_row hw.jobs hj
    exact ⟨j', hj', hedge⟩
  · intro j' hnone hj'
    exact (hstep.new_job hnone hj').1

lemma path_job {C : World → Action → Prop} (hw : WorldOK w) (h : (system cfg).Path C w w') {k : Uuid}
    {j : Job} (hj : w.db.jobs.get k = some j) :
    ∃ j', w'.db.jobs.get k = some j' ∧ Follows j.state j'.state := by
  refine (h.invariant (P := fun u => WorldOK u ∧ ∃ j', u.db.jobs.get k = some j' ∧ Follows j.state j'.state)
    ⟨hw, j, hj, .refl⟩ ?_).2
  rintro u a u' ⟨hu, i, hi, hfol⟩ - hstep
  obtain ⟨i', hi', hedge⟩ := (step_job hu hstep k).1 i hi
  refine ⟨hu.step hstep, i', hi', ?_⟩
  rcases hedge with he | he
  · rw [he]
    exact hfol
  · exact hfol.tail he

/-- Over every run each transaction keeps the state of a job or moves it along an edge of the contract
(a new job is queued), terminal states are absorbing, and a job whose cancellation was requested ends
`CANCELLED` if it ends at all. -/
theorem jobs_follow_contract (cfg : Settings) {w : World} (hr : (system cfg).Reachable w) (k : Uuid) :
    (∀ a w', (system cfg).step w a = some w' →
      (∀ j, w.db.jobs.get k = some j → ∃ j', w'.db.jobs.get k = some j' ∧
        (j'.state = j.state ∨ j'.state ∈ contract j.state)) ∧
      (∀ j', w.db.jobs.get k = none → w'.db.jobs.get k = some j' → j'.state = queued)) ∧
    (∀ w' j, (system cfg).Path (fun _ _ => True) w w' → w.db.jobs.get k = some j →
      ∃ j', w'.db.jobs.get k = some j' ∧ (j.state.isTerminal = true → j'.state = j.state) ∧
        (j.state = cancelRequested → j'.state = cancelRequested ∨ j'.state = cancelled)) := by
  have hw := reach_ok hr
  refine ⟨fun a w' hstep => step_job hw hstep k, fun w' j hpath hj => ?_⟩
  obtain ⟨j', hj', hfol⟩ := path_job hw hpath hj
  refine ⟨j', hj', hfol.of_terminal, fun hc => ?_⟩
  rw [hc] at hfol
  exact hfol.of_cancelRequested

/-- A job that was cancelled before its first attempt: nothing brings it to another end. -/
theorem jobs_follow_contract_cancelled_job : ∃ w j, (system Settings.default).Reachable w ∧
    w.db.jobs.get 0 = some j ∧ j.state = cancelRequested ∧
    ∀ w', (system Settings.default).Path (fun _ _ => True) w w' →
      ∃ j', w'.db.jobs.get 0 = some j' ∧ (j'.state = cancelRequested ∨ j'.state = cancelled) := by
  let run : List Action := [.job (.submitJob 100 ⟨"quay.io/tool", 600, 2⟩), .job (.cancelJob 0)]
  have hsome : ((system Settings.default).exec World.init run).isSome = true := by decide
  have hstate : (((system Settings.default).exec World.init run).bind (fun w => w.db.jobs.get 0)).map
      Job.state = some cancelRequested := by decide
  obtain ⟨w, hw⟩ := Option.isSome_iff_exists.mp hsome
  rw [hw, Option.bind_some] at hstate
  obtain ⟨j, hj, hst⟩ := Option.map_eq_some_iff.mp hstate
  have hr : (system Settings.default).Reachable w := System.Path.of_exec hw
  refine ⟨w, j, hr, hj, hst, fun w' hpath => ?_⟩
  obtain ⟨j', hj', -, hcancel⟩ := (jobs_follow_contract Settings.default hr 0).2 w' j hpath hj
  exact ⟨j', hj', hcancel hst⟩

end HamiCloud.Proofs
