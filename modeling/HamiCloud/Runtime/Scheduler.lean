import HamiCloud.Runtime.World

/-!
# A pass of the scheduler

`Scheduler.RunOnce` as a sequence of steps of the system. A transaction of the pass that fails is
logged and skipped. The deleter of Kubernetes Jobs is taken to work, so every deletion is confirmed.
-/

namespace HamiCloud

open Library

/-- `limit` of every scan in `RunOnce`. -/
def scanLimit : Nat := 50

def World.attempt (cfg : Settings) (w : World) (a : Action) : World := (w.step cfg a).getD w

/-- One iteration of `RecoverExpiredJobIntents`. -/
def recoverItem (cfg : Settings) (w : World) (item : ExpiredJobRecoveryInfo) : World :=
  if item.needsBegin then
    match w.step cfg (.job (.beginJobRecovery item)) with
    | none => w
    | some w' => w'.attempt cfg (.job (.confirmJobRecovery item true))
  else w.attempt cfg (.job (.confirmJobRecovery item true))

def recoverExpiredJobIntents (cfg : Settings) (w : World) : World :=
  (findExpiredJobIntents w.db).foldl (recoverItem cfg) (w.attempt cfg (.job .findExpiredJobIntents))

def requeueRetryWaitJobs (cfg : Settings) (w : World) : World :=
  (scanRetryWaitJobs w.db scanLimit).foldl
    (fun u row => u.attempt cfg (.job (.requeueRetryWaitJob w.db.now row w.db.now)))
    (w.attempt cfg (.job (.scanRetryWaitJobs scanLimit)))

def admitReleases (cfg : Settings) (w : World) : World :=
  let w₁ := w.attempt cfg (.service .supersedeReleases)
  (selectUnadmittedReleases w₁.db scanLimit).foldl
    (fun u rel => u.attempt cfg (.service (.createServiceReleaseIntent rel)))
    (w₁.attempt cfg (.service (.selectUnadmittedReleases scanLimit)))

def admitJobs (cfg : Settings) (w : World) : World :=
  (scanUnadmittedJobs w.db cfg.maxConcurrentJobsPerWS scanLimit).foldl
    (fun u job => u.attempt cfg (.job (.createJobAttemptIntent job)))
    (w.attempt cfg (.job (.scanUnadmittedJobs scanLimit)))

def runOnce (cfg : Settings) (w : World) : World :=
  admitJobs cfg (admitReleases cfg (requeueRetryWaitJobs cfg (recoverExpiredJobIntents cfg w)))

/-- The operations of an executor on jobs. -/
def JobAction.byExecutor : JobAction → Bool
  | .claimNextJobAttempt _ _ _ _ => true
  | .renewLease _ _ => true
  | .markJobAttemptRunning _ => true
  | .markJobAttemptSucceeded _ _ => true
  | .markJobAttemptFailed _ _ _ => true
  | .markJobAttemptCancelled _ => true
  | _ => false

/-- What happens without any request: time passes, the scheduler runs, executors work. -/
inductive Continues (cfg : Settings) : World → World → Prop
  | tick (w : World) (d : Time) : Continues cfg w { w with db := w.db.tick d }
  | pass (w : World) : Continues cfg w (runOnce cfg w)
  | executor {w w' : World} {a : JobAction} : a.byExecutor = true → w.step cfg (.job a) = some w' →
      Continues cfg w w'

/-! ### Passes are runs of the system -/

/-- The transactions of a scheduler pass. -/
def Action.ofPass : Action → Bool
  | .job .findExpiredJobIntents => true
  | .job (.beginJobRecovery _) => true
  | .job (.confirmJobRecovery _ _) => true
  | .job (.scanRetryWaitJobs _) => true
  | .job (.requeueRetryWaitJob _ _ _) => true
  | .job (.scanUnadmittedJobs _) => true
  | .job (.createJobAttemptIntent _) => true
  | .service .supersedeReleases => true
  | .service (.selectUnadmittedReleases _) => true
  | .service (.createServiceReleaseIntent _) => true
  | _ => false

section Paths

variable {cfg : Settings}

/-- A run of transactions of passes. -/
def PassPath (cfg : Settings) : World → World → Prop := (system cfg).Path (fun _ a => a.ofPass = true)

lemma step_path {w w' : World} {a : Action} (ha : a.ofPass = true) (h : w.step cfg a = some w') :
    PassPath cfg w w' :=
  System.Path.single (a := a) ha h

lemma attempt_path (w : World) {a : Action} (ha : a.ofPass = true) : PassPath cfg w (w.attempt cfg a) := by
  unfold World.attempt
  cases h : w.step cfg a with
  | none => exact .refl w
  | some w' => exact step_path ha h

lemma foldl_path {α : Type} {f : World → α → World} (hf : ∀ w x, PassPath cfg w (f w x)) (xs : List α)
    (w : World) : PassPath cfg w (xs.foldl f w) := by
  induction xs generalizing w with
  | nil => exact .refl w
  | cons x xs ih => exact (hf w x).trans (ih (f w x))

lemma recoverItem_path (w : World) (item : ExpiredJobRecoveryInfo) : PassPath cfg w (recoverItem cfg w item) := by
  unfold recoverItem
  split
  · split
    · exact .refl w
    · rename_i w' h
      exact (step_path rfl h).trans (attempt_path w' rfl)
  · exact attempt_path w rfl

theorem runOnce_path (w : World) : PassPath cfg w (runOnce cfg w) := by
  have h1 : PassPath cfg w (recoverExpiredJobIntents cfg w) :=
    (attempt_path w rfl).trans (foldl_path recoverItem_path _ _)
  have h2 : ∀ w, PassPath cfg w (requeueRetryWaitJobs cfg w) :=
    fun w => (attempt_path w rfl).trans (foldl_path (fun u _ => attempt_path u rfl) _ _)
  have h3 : ∀ w, PassPath cfg w (admitReleases cfg w) :=
    fun w => ((attempt_path w rfl).trans (attempt_path _ rfl)).trans
      (foldl_path (fun u _ => attempt_path u rfl) _ _)
  have h4 : ∀ w, PassPath cfg w (admitJobs cfg w) :=
    fun w => (attempt_path w rfl).trans (foldl_path (fun u _ => attempt_path u rfl) _ _)
  exact ((h1.trans (h2 _)).trans (h3 _)).trans (h4 _)

lemma Continues.path {w w' : World} (h : Relation.ReflTransGen (Continues cfg) w w') :
    (system cfg).Path (fun _ _ => True) w w' := by
  induction h with
  | refl => exact .refl w
  | tail _ hstep ih =>
    refine ih.trans ?_
    cases hstep with
    | tick d => exact System.Path.single (a := .tick d) trivial rfl
    | pass => exact (runOnce_path _).mono (fun _ _ _ => trivial)
    | @executor _ a _ hs => exact System.Path.single (a := .job a) trivial hs

end Paths

end HamiCloud
