import HamiCloud.Runtime.ServiceReconciler

/-!
# What a service reconciliation calls

Whatever the runner, the store and the context answer, a reconciliation ends in one of two ways: it marks its
release healthy, after a successful deployment and a ready probe, or it tears its workload down and then marks
the release failed. The calls of every run have one shape: a preparation that deploys and probes, and at most
one of the two endings.
-/

namespace HamiCloud.Proofs

open Library

section Events

variable (wl : ClaimedWorkload)

/-- The call is about the claimed workload. -/
def Concerns : ReconcilerCall → Prop
  | .deploy _ wl' => wl' = wl
  | .checkReadiness _ wl' => wl' = wl
  | .teardown _ wl' => wl' = wl
  | .teardownSupersededGenerations _ appId generation => appId = wl.applicationId ∧ generation = wl.targetGeneration
  | .markReleaseHealthy _ intentId releaseId appId _ epoch =>
    intentId = wl.intentId ∧ releaseId = wl.releaseId ∧ appId = wl.applicationId ∧ epoch = wl.leaseEpoch
  | .markReleaseFailed _ intentId releaseId _ epoch =>
    intentId = wl.intentId ∧ releaseId = wl.releaseId ∧ epoch = wl.leaseEpoch
  | .contextDone => True
  | .retryWait => True

/-- `Deploy` of the workload succeeded. -/
def Deployed : ReconcilerEvent → Prop
  | ⟨.deploy _ wl', .ok _⟩ => wl' = wl
  | _ => False

/-- A probe of the workload reported ready. -/
def ReportedReady : ReconcilerEvent → Prop
  | ⟨.checkReadiness _ wl', .ok (true, _)⟩ => wl' = wl
  | _ => False

def TornDown : ReconcilerEvent → Prop
  | ⟨.teardown _ wl', _⟩ => wl' = wl
  | _ => False

end Events

def isProbe : ReconcilerEvent → Bool
  | ⟨.checkReadiness .., _⟩ => true
  | _ => false

def isMarkHealthy : ReconcilerEvent → Bool
  | ⟨.markReleaseHealthy .., _⟩ => true
  | _ => false

def isMarkFailed : ReconcilerEvent → Bool
  | ⟨.markReleaseFailed .., _⟩ => true
  | _ => false

def isTeardownSuperseded : ReconcilerEvent → Bool
  | ⟨.teardownSupersededGenerations .., _⟩ => true
  | _ => false

/-- `MarkReleaseHealthy` returned `becameCurrent`. -/
def BecameCurrent : ReconcilerEvent → Prop
  | ⟨.markReleaseHealthy .., .ok true⟩ => True
  | _ => False

/-- All or nothing toward the store and the cluster. -/
structure AllOrNothing (maxRetries : Nat) (wl : ClaimedWorkload) (calls : List ReconcilerEvent) : Prop where
  concerns : ∀ c ∈ calls, Concerns wl c.query
  healthyOnce : calls.countP isMarkHealthy ≤ 1
  healthyAfterDeploy : OnlyAfter (Deployed wl) (isMarkHealthy ·) calls
  healthyAfterReady : OnlyAfter (ReportedReady wl) (isMarkHealthy ·) calls
  failedOnce : calls.countP isMarkFailed ≤ 1
  failedAfterTeardown : OnlyAfter (TornDown wl) (isMarkFailed ·) calls
  notBoth : ¬((∃ c ∈ calls, isMarkHealthy c) ∧ ∃ c ∈ calls, isMarkFailed c)
  probes : calls.countP isProbe ≤ maxRetries
  supersededAfterCurrent : OnlyAfter BecameCurrent (isTeardownSuperseded ·) calls

/-- The part of a run before its ending: it deploys, probes and waits. -/
structure Preparing (maxRetries : Nat) (wl : ClaimedWorkload) (calls : List ReconcilerEvent) : Prop where
  concerns : ∀ c ∈ calls, Concerns wl c.query
  noHealthy : ∀ c ∈ calls, ¬isMarkHealthy c
  noFailed : ∀ c ∈ calls, ¬isMarkFailed c
  noSuperseded : ∀ c ∈ calls, ¬isTeardownSuperseded c
  probes : calls.countP isProbe ≤ maxRetries

variable {wl : ClaimedWorkload} {calls first tail : List ReconcilerEvent} {n : Nat}

lemma Preparing.nil : Preparing n wl [] := by
  constructor <;> simp

/-- A call that is no probe. -/
lemma Preparing.cons {c : ReconcilerEvent} (hc : Concerns wl c.query) (hprobe : ¬isProbe c) (hhealthy : ¬isMarkHealthy c)
    (hfailed : ¬isMarkFailed c) (hsuperseded : ¬isTeardownSuperseded c) (h : Preparing n wl calls) :
    Preparing n wl (c :: calls) where
  concerns := List.forall_mem_cons.mpr ⟨hc, h.concerns⟩
  noHealthy := List.forall_mem_cons.mpr ⟨hhealthy, h.noHealthy⟩
  noFailed := List.forall_mem_cons.mpr ⟨hfailed, h.noFailed⟩
  noSuperseded := List.forall_mem_cons.mpr ⟨hsuperseded, h.noSuperseded⟩
  probes := by
    rw [List.countP_cons_of_neg hprobe]
    exact h.probes

lemma Preparing.probe {ctx : CallContext} {answer : Except String (Bool × String)} (h : Preparing n wl calls) :
    Preparing (n + 1) wl (⟨.checkReadiness ctx wl, answer⟩ :: calls) where
  concerns := List.forall_mem_cons.mpr ⟨rfl, h.concerns⟩
  noHealthy := List.forall_mem_cons.mpr ⟨Bool.false_ne_true, h.noHealthy⟩
  noFailed := List.forall_mem_cons.mpr ⟨Bool.false_ne_true, h.noFailed⟩
  noSuperseded := List.forall_mem_cons.mpr ⟨Bool.false_ne_true, h.noSuperseded⟩
  probes := by
    rw [List.countP_cons_of_pos rfl]
    exact Nat.succ_le_succ h.probes

/-- A call to the context. -/
lemma Preparing.contextDone {answer : Option String} (h : Preparing n wl calls) :
    Preparing n wl (⟨.contextDone, answer⟩ :: calls) :=
  h.cons trivial Bool.false_ne_true Bool.false_ne_true Bool.false_ne_true Bool.false_ne_true

lemma Preparing.retryWait {answer : Option String} (h : Preparing n wl calls) :
    Preparing n wl (⟨.retryWait, answer⟩ :: calls) :=
  h.cons trivial Bool.false_ne_true Bool.false_ne_true Bool.false_ne_true Bool.false_ne_true

lemma Preparing.deploy {ctx : CallContext} {answer : Except String String} (h : Preparing n wl calls) :
    Preparing n wl (⟨.deploy ctx wl, answer⟩ :: calls) :=
  h.cons rfl Bool.false_ne_true Bool.false_ne_true Bool.false_ne_true Bool.false_ne_true

lemma failureReason_eq_none {answer : Except String (Bool × String)} (h : failureReason answer = none) :
    ∃ text, answer = .ok (true, text) := by
  rcases answer with err | ⟨_ | _, text⟩
  · simp [failureReason] at h
  · simp [failureReason] at h
  · exact ⟨text, rfl⟩

/-- A part of the readiness loop: it is left as ready only by a probe that reported it. -/
structure Probes (n : Nat) (wl : ClaimedWorkload) (calls : List ReconcilerEvent) (out : Option Probing) : Prop where
  preparing : Preparing n wl calls
  ready : out = some .ready → ∃ c ∈ calls, ReportedReady wl c

lemma Probes.nil {out : Option Probing} (h : out ≠ some .ready) : Probes n wl [] out :=
  ⟨.nil, fun hout => absurd hout h⟩

/-- A call before a part of the loop. -/
lemma Probes.cons {m : Nat} {c : ReconcilerEvent} {out : Option Probing} (h : Probes n wl calls out)
    (hc : Preparing m wl (c :: calls)) : Probes m wl (c :: calls) out where
  preparing := hc
  ready hout :=
    let ⟨d, hd, hready⟩ := h.ready hout
    ⟨d, List.mem_cons_of_mem c hd, hready⟩

lemma Probes.contextDone {answer : Option String} {out : Option Probing} (h : Probes n wl calls out) :
    Probes n wl (⟨.contextDone, answer⟩ :: calls) out :=
  h.cons h.preparing.contextDone

lemma Probes.retryWait {answer : Option String} {out : Option Probing} (h : Probes n wl calls out) :
    Probes n wl (⟨.retryWait, answer⟩ :: calls) out :=
  h.cons h.preparing.retryWait

lemma Probes.probe {ctx : CallContext} {answer : Except String (Bool × String)} {out : Option Probing}
    (h : Probes n wl calls out) : Probes (n + 1) wl (⟨.checkReadiness ctx wl, answer⟩ :: calls) out :=
  h.cons h.preparing.probe

lemma probes_of_cancelled {err : String} {out : Option Probing}
    (h : (pure (.cancelled err) : Reconciliation Probing).Runs calls out) : Probes n wl calls out := by
  obtain ⟨rfl, rfl | rfl⟩ := Program.runs_pure.mp h
  · exact .nil (by simp)
  · exact .nil (by simp)

/-- One attempt adds at most one probe to those of the next attempts. -/
lemma runs_attemptProbe {left : Nat} {next : String → Reconciliation Probing} {out : Option Probing}
    (hnext : ∀ {last calls}, (next last).Runs calls out → Probes left wl calls out)
    (h : (attemptProbe wl left next).Runs calls out) : Probes (left + 1) wl calls out := by
  rcases Program.runs_ask_bind.mp h with ⟨rfl, rfl⟩ | ⟨done, rest, rfl, hdone⟩
  · exact .nil (by simp)
  rcases done with _ | err
  swap
  · exact (probes_of_cancelled hdone).contextDone
  rcases Program.runs_ask_bind.mp hdone with ⟨rfl, rfl⟩ | ⟨answer, rest, rfl, hanswer⟩
  · exact (Probes.nil (by simp)).contextDone
  refine Probes.contextDone ?_
  cases hreason : failureReason answer with
  | none =>
    obtain ⟨text, rfl⟩ := failureReason_eq_none hreason
    obtain ⟨rfl, -⟩ := Program.runs_pure.mp hanswer
    exact ⟨Preparing.nil.probe, fun _ => ⟨_, List.mem_cons_self, rfl⟩⟩
  | some last =>
    refine Probes.probe ?_
    simp only [hreason] at hanswer
    split at hanswer
    · rcases Program.runs_ask_bind.mp hanswer with ⟨rfl, rfl⟩ | ⟨done, rest, rfl, hwait⟩
      · exact .nil (by simp)
      · refine Probes.retryWait ?_
        rcases done with _ | err
        · exact hnext hwait
        · exact probes_of_cancelled hwait
    · exact hnext hanswer

/-- The attempts left bound the probes of the readiness loop. -/
lemma runs_probeReadiness {last : String} {out : Option Probing} (h : (probeReadiness wl n last).Runs calls out) :
    Probes n wl calls out := by
  induction n generalizing calls last with
  | zero =>
    obtain ⟨rfl, rfl | rfl⟩ := Program.runs_pure.mp h
    · exact .nil (by simp)
    · exact .nil (by simp)
  | succ left ih => exact runs_attemptProbe ih h

/-- The calls of a cleanup, up to any point. -/
inductive GivingUp (wl : ClaimedWorkload) : List ReconcilerEvent → Prop
  | started : GivingUp wl []
  | tornDown (done : Except String Unit) : GivingUp wl [⟨.teardown .cleanup wl, done⟩]
  | marked (done marked : Except String Unit) (reason : String) :
    GivingUp wl [⟨.teardown .cleanup wl, done⟩,
      ⟨.markReleaseFailed .cleanup wl.intentId wl.releaseId reason wl.leaseEpoch, marked⟩]

/-- The calls that follow a ready probe, up to any point. -/
inductive Finishing (wl : ClaimedWorkload) (resUid : String) : List ReconcilerEvent → Prop
  | started : Finishing wl resUid []
  | marked (answer : Except String Bool) :
    Finishing wl resUid [⟨.markReleaseHealthy .reconciliation wl.intentId wl.releaseId wl.applicationId resUid
      wl.leaseEpoch, answer⟩]
  | current (done : Except String Unit) :
    Finishing wl resUid [⟨.markReleaseHealthy .reconciliation wl.intentId wl.releaseId wl.applicationId resUid
      wl.leaseEpoch, .ok true⟩,
      ⟨.teardownSupersededGenerations .reconciliation wl.applicationId wl.targetGeneration, done⟩]

lemma runs_giveUp {reason : String} {out : Option (Except String Unit)} (h : (giveUp wl reason).Runs calls out) :
    GivingUp wl calls := by
  rcases Program.runs_ask_bind.mp h with ⟨rfl, -⟩ | ⟨done, rest, rfl, hmark⟩
  · exact .started
  · rcases Program.runs_ask hmark with rfl | ⟨marked, rfl⟩
    · exact .tornDown done
    · exact .marked done marked reason

/-- A cleanup whose result is replaced by the error that led to it. -/
lemma runs_giveUp_error {reason err : String} {out : Option (Except String Unit)}
    (h : (giveUp wl reason >>= fun _ => pure (.error err) : Reconciliation (Except String Unit)).Runs calls out) :
    GivingUp wl calls := by
  rcases Program.runs_bind h with ⟨hrun, -⟩ | ⟨first, rest, _, rfl, hrun, hrest⟩
  · exact runs_giveUp hrun
  · obtain ⟨rfl, -⟩ := Program.runs_pure.mp hrest
    rw [List.append_nil]
    exact runs_giveUp hrun

lemma runs_finishHealthy {resUid : String} {out : Option (Except String Unit)}
    (h : (finishHealthy wl resUid).Runs calls out) : Finishing wl resUid calls := by
  rcases Program.runs_ask_bind.mp h with ⟨rfl, -⟩ | ⟨marked, rest, rfl, hrest⟩
  · exact .started
  rcases marked with err | _ | _
  · obtain ⟨rfl, -⟩ := Program.runs_pure.mp hrest
    exact .marked (.error err)
  · obtain ⟨rfl, -⟩ := Program.runs_pure.mp hrest
    exact .marked (.ok false)
  · rcases Program.runs_ask_bind.mp hrest with ⟨rfl, -⟩ | ⟨done, rest, rfl, hend⟩
    · exact .marked (.ok true)
    · obtain ⟨rfl, -⟩ := Program.runs_pure.mp hend
      exact .current done

/-- A preparation followed by an ending that makes no probe and at most one of the two marks. -/
lemma Preparing.append (h : Preparing n wl first) (hconcerns : ∀ c ∈ tail, Concerns wl c.query)
    (hprobes : ∀ c ∈ tail, ¬isProbe c) (hhealthy : tail.countP isMarkHealthy ≤ 1)
    (hfailed : tail.countP isMarkFailed ≤ 1)
    (hboth : (∀ c ∈ tail, ¬isMarkHealthy c) ∨ ∀ c ∈ tail, ¬isMarkFailed c)
    (hdeployed : (∃ c ∈ first, Deployed wl c) ∨ OnlyAfter (Deployed wl) (isMarkHealthy ·) tail)
    (hready : (∃ c ∈ first, ReportedReady wl c) ∨ OnlyAfter (ReportedReady wl) (isMarkHealthy ·) tail)
    (htornDown : OnlyAfter (TornDown wl) (isMarkFailed ·) tail)
    (hcurrent : OnlyAfter BecameCurrent (isTeardownSuperseded ·) tail) : AllOrNothing n wl (first ++ tail) where
  concerns := List.forall_mem_append.mpr ⟨h.concerns, hconcerns⟩
  healthyOnce := by
    rw [List.countP_append, List.countP_eq_zero.mpr h.noHealthy]
    omega
  healthyAfterDeploy := (onlyAfter_of_not h.noHealthy).append hdeployed
  healthyAfterReady := (onlyAfter_of_not h.noHealthy).append hready
  failedOnce := by
    rw [List.countP_append, List.countP_eq_zero.mpr h.noFailed]
    omega
  failedAfterTeardown := (onlyAfter_of_not h.noFailed).append (.inr htornDown)
  notBoth := by
    rintro ⟨⟨c, hc, hch⟩, d, hd, hdf⟩
    rcases hboth with hnone | hnone
    · exact List.forall_mem_append.mpr ⟨h.noHealthy, hnone⟩ c hc hch
    · exact List.forall_mem_append.mpr ⟨h.noFailed, hnone⟩ d hd hdf
  probes := by
    rw [List.countP_append, List.countP_eq_zero.mpr hprobes]
    exact h.probes
  supersededAfterCurrent := (onlyAfter_of_not h.noSuperseded).append (.inr hcurrent)

/-- A preparation that is given up, at any point of the cleanup. -/
lemma Preparing.givingUp (h : Preparing n wl first) (htail : GivingUp wl tail) :
    AllOrNothing n wl (first ++ tail) := by
  have hhealthy : ∀ c ∈ tail, ¬isMarkHealthy c := by cases htail <;> simp [isMarkHealthy]
  have hsuperseded : ∀ c ∈ tail, ¬isTeardownSuperseded c := by cases htail <;> simp [isTeardownSuperseded]
  refine h.append ?_ ?_ ?_ ?_ (.inl hhealthy) (.inr (onlyAfter_of_not hhealthy))
    (.inr (onlyAfter_of_not hhealthy)) ?_ (onlyAfter_of_not hsuperseded)
  · cases htail <;> simp [Concerns]
  · cases htail <;> simp [isProbe]
  · rw [List.countP_eq_zero.mpr hhealthy]
    exact Nat.zero_le 1
  · cases htail <;> simp [isMarkFailed]
  · cases htail with
    | started => exact onlyAfter_of_not (by simp)
    | tornDown => exact onlyAfter_of_not (by simp [isMarkFailed])
    | marked => exact .cons (by simp [isMarkFailed]) (.inl rfl)

/-- A successful deployment that reported ready, at any point after it. -/
lemma Preparing.finishing {resUid : String} (h : Preparing n wl first) (hdeployed : ∃ c ∈ first, Deployed wl c)
    (hready : ∃ c ∈ first, ReportedReady wl c) (htail : Finishing wl resUid tail) :
    AllOrNothing n wl (first ++ tail) := by
  have hfailed : ∀ c ∈ tail, ¬isMarkFailed c := by cases htail <;> simp [isMarkFailed]
  refine h.append ?_ ?_ ?_ ?_ (.inr hfailed) (.inl hdeployed) (.inl hready) (onlyAfter_of_not hfailed) ?_
  · cases htail <;> simp [Concerns]
  · cases htail <;> simp [isProbe]
  · cases htail <;> simp [List.countP_cons, isMarkHealthy]
  · rw [List.countP_eq_zero.mpr hfailed]
    exact Nat.zero_le 1
  · cases htail with
    | started => exact onlyAfter_of_not (by simp)
    | marked => exact onlyAfter_of_not (by simp [isTeardownSuperseded])
    | current => exact .cons (by simp [isTeardownSuperseded]) (.inl trivial)

/-- For every number of retries and every answer of the runner, the store and the context, up to every point of
the run, the calls of `ReconcileOne` are all or nothing toward the store and the cluster. -/
theorem reconcileOne_allOrNothing (r : ServiceReconciler) (wl : ClaimedWorkload) (calls : List ReconcilerEvent)
    (out : Option (Except String Unit)) (h : (r.reconcileOne wl).Runs calls out) :
    AllOrNothing r.maxRetries wl calls := by
  rcases Program.runs_ask_bind.mp h with ⟨rfl, -⟩ | ⟨deployed, rest, rfl, hdeployed⟩
  · exact Preparing.nil.givingUp .started
  rcases deployed with err | resUid
  · exact Preparing.nil.deploy.givingUp (runs_giveUp_error hdeployed)
  rcases Program.runs_bind hdeployed with ⟨hprobe, -⟩ | ⟨probes, rest, probing, rfl, hprobe, hrest⟩
  · rw [← List.append_nil (_ :: _)]
    exact (runs_probeReadiness hprobe).preparing.deploy.givingUp .started
  have hprobes := runs_probeReadiness hprobe
  cases probing with
  | ready =>
    obtain ⟨c, hc, hready⟩ := hprobes.ready rfl
    exact hprobes.preparing.deploy.finishing ⟨_, List.mem_cons_self, rfl⟩ ⟨c, List.mem_cons_of_mem _ hc, hready⟩
      (runs_finishHealthy hrest)
  | cancelled err => exact hprobes.preparing.deploy.givingUp (runs_giveUp_error hrest)
  | exhausted reason => exact hprobes.preparing.deploy.givingUp (runs_giveUp hrest)

def probedWorkload : ClaimedWorkload :=
  ⟨1, 2, 3, 4, 1, "registry.hamicloud.io/web@sha256:1", 8080, "/healthz", 1, .svc 4 1, 1⟩

/-- A release whose first probe fails and whose second reports ready. -/
def secondProbeReady : List ReconcilerEvent :=
  [⟨.deploy .reconciliation probedWorkload, .ok "uid"⟩, ⟨.contextDone, none⟩,
    ⟨.checkReadiness .reconciliation probedWorkload, .error "get deployment"⟩, ⟨.retryWait, none⟩,
    ⟨.contextDone, none⟩, ⟨.checkReadiness .reconciliation probedWorkload, .ok (true, "")⟩,
    ⟨.markReleaseHealthy .reconciliation 1 3 4 "uid" 1, .ok true⟩,
    ⟨.teardownSupersededGenerations .reconciliation 4 1, .ok ()⟩]

theorem reconcileOne_allOrNothing_second_probe :
    (newServiceReconciler.reconcileOne probedWorkload).Runs secondProbeReady (some (.ok ())) ∧
      AllOrNothing 3 probedWorkload secondProbeReady := by
  have hruns : (newServiceReconciler.reconcileOne probedWorkload).Runs secondProbeReady (some (.ok ())) :=
    .called _ (.called _ (.called _ (.called _ (.called _ (.called _ (.called _ (.called _ (.returned _))))))))
  exact ⟨hruns, reconcileOne_allOrNothing newServiceReconciler probedWorkload secondProbeReady _ hruns⟩

end HamiCloud.Proofs
