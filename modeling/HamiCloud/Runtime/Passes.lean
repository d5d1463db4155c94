import HamiCloud.Runtime.Scheduler

/-!
# Overlapping passes of the scheduler

The part of `Scheduler.RunOnce` that admits jobs, for any number of passes at once. A pass takes one snapshot
by `ScanUnadmittedJobs` and then calls `CreateJobAttemptIntent` for each of its rows in turn; between any two
of these the rest of the system, and the other passes, go on. A call that fails or admits nothing is logged
and the pass goes on with the next row.
-/

namespace HamiCloud

open Library

structure PassWorld where
  world : World
  /-- the rows of its snapshot that each pass has still to go through -/
  passes : List (List UnadmittedJob)

def PassWorld.init : PassWorld := ⟨World.init, []⟩

inductive PassAction
  /-- a step of the rest of the system -/
  | other (a : Action)
  | snapshot
  | admission (pass : Nat)
  | crash (pass : Nat)

/-- The transactions that only passes make. -/
def Action.ofAdmission : Action → Bool
  | .job (.scanUnadmittedJobs _) => true
  | .job (.createJobAttemptIntent _) => true
  | _ => false

def PassWorld.step (cfg : Settings) (p : PassWorld) : PassAction → Option PassWorld
  | .other a =>
    if a.ofAdmission then none else (p.world.step cfg a).map fun w => { p with world := w }
  | .snapshot =>
    (p.world.step cfg (.job (.scanUnadmittedJobs scanLimit))).map fun w =>
      ⟨w, p.passes ++ [scanUnadmittedJobs p.world.db cfg.maxConcurrentJobsPerWS scanLimit]⟩
  | .admission n =>
    match p.passes[n]? with
    | some (job :: rest) =>
      some ⟨p.world.attempt cfg (.job (.createJobAttemptIntent job)), p.passes.set n rest⟩
    | _ => none
  | .crash n => p.passes[n]?.map fun _ => { p with passes := p.passes.set n [] }

def passSystem (cfg : Settings) : System PassWorld PassAction := ⟨PassWorld.init, PassWorld.step cfg⟩

end HamiCloud
