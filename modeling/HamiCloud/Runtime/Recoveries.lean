import HamiCloud.Runtime.Process

/-!
# Recoveries of one scheduler process

The run of one scheduler process together with the history of its `BeginJobRecovery` commits.
-/

namespace HamiCloud

open Library

/-- A committed `BeginJobRecovery` and its time. -/
structure BegunRecovery where
  item : ExpiredJobRecoveryInfo
  begunAt : Time
  deriving DecidableEq

structure RecoveryWorld where
  process : ProcessWorld
  begun : List BegunRecovery

def RecoveryWorld.init : RecoveryWorld := ⟨ProcessWorld.init, []⟩

/-- The recovery that a step of the process begins. -/
def begunBy (cfg : Settings) (p : ProcessWorld) : ProcessAction → List BegunRecovery
  | .proceed _ =>
    match p.phase with
    | .recover (item :: _) =>
      if item.needsBegin ∧ (p.world.step cfg (.job (.beginJobRecovery item))).isSome then [⟨item, p.world.db.now⟩]
      else []
    | _ => []
  | _ => []

def RecoveryWorld.step (cfg : Settings) (r : RecoveryWorld) (a : ProcessAction) : Option RecoveryWorld :=
  (r.process.step cfg a).map fun p => ⟨p, r.begun ++ begunBy cfg r.process a⟩

def recoverySystem (cfg : Settings) : System RecoveryWorld ProcessAction :=
  ⟨RecoveryWorld.init, RecoveryWorld.step cfg⟩

end HamiCloud
