import HamiCloud.Store.Releases
import HamiCloud.Protocol.Intents

/-!
# The release protocol

Applications, releases and `SERVICE_RELEASE` intents as partial functions of their identifiers, and
the steps that API requests, builds, schedulers and executors take on them. A generation bump and the
release it belongs to are one step, which is what makes a generation identify a release.
-/

namespace HamiCloud

open Library

structure ReleaseView where
  app : Uuid → Option Application
  release : Uuid → Option Release
  intent : Uuid → Option ExecutionIntent

namespace ReleaseView

variable (v : ReleaseView)

def setApp (a : Application) : ReleaseView := { v with app := Function.update v.app a.id (some a) }

def setRelease (r : Release) : ReleaseView := { v with release := Function.update v.release r.id (some r) }

def setIntent (i : ExecutionIntent) : ReleaseView := { v with intent := Function.update v.intent i.id (some i) }

@[simp] lemma setApp_app (a : Application) (k : Uuid) :
    (v.setApp a).app k = if k = a.id then some a else v.app k := by
  simp [setApp, Function.update_apply]

@[simp] lemma setApp_release (a : Application) : (v.setApp a).release = v.release := rfl

@[simp] lemma setApp_intent (a : Application) : (v.setApp a).intent = v.intent := rfl

@[simp] lemma setRelease_release (r : Release) (k : Uuid) :
    (v.setRelease r).release k = if k = r.id then some r else v.release k := by
  simp [setRelease, Function.update_apply]

@[simp] lemma setRelease_app (r : Release) : (v.setRelease r).app = v.app := rfl

@[simp] lemma setRelease_intent (r : Release) : (v.setRelease r).intent = v.intent := rfl

@[simp] lemma setIntent_intent (i : ExecutionIntent) (k : Uuid) :
    (v.setIntent i).intent k = if k = i.id then some i else v.intent k := by
  simp [setIntent, Function.update_apply]

@[simp] lemma setIntent_app (i : ExecutionIntent) : (v.setIntent i).app = v.app := rfl

@[simp] lemma setIntent_release (i : ExecutionIntent) : (v.setIntent i).release = v.release := rfl

/-- The release with identifier `k` has the highest number among the deployable releases of its
application. -/
def Latest (k : Uuid) : Prop :=
  ∃ r, v.release k = some r ∧ r.deployable = true ∧
    ∀ k' s, v.release k' = some s → s.applicationId = r.applicationId → s.deployable = true →
      s.releaseNumber ≤ r.releaseNumber

end ReleaseView

/-- The columns of a release that no step changes. -/
def Release.spec (r : Release) : Uuid × Uuid × Uuid × Nat × ReleaseConfig × Option Uuid :=
  (r.id, r.applicationId, r.workspaceId, r.releaseNumber, r.config, r.repositoryId)

lemma Release.spec_eq {r r' : Release} : r'.spec = r.spec ↔ r'.id = r.id ∧
    r'.applicationId = r.applicationId ∧ r'.workspaceId = r.workspaceId ∧
    r'.releaseNumber = r.releaseNumber ∧ r'.config = r.config ∧ r'.repositoryId = r.repositoryId := by
  simp [Release.spec]

inductive ReleaseEvent
  | scan
  | configure
  | accept
  | request
  | supersede
  | admission
  | claim
  | renew (intentId : Uuid) (epoch : Nat)
  | healthy (intentId : Uuid) (epoch : Nat)
  | failed (intentId : Uuid) (epoch : Nat)
  | startBuild
  | built
  | buildFailed
  deriving DecidableEq

/-- Steps on an intent and its release: the new status of both. -/
inductive Deploy (now : Time) (i : ExecutionIntent) (r : Release) :
    ReleaseEvent → IntentStatus → ReleaseStatus → Prop
  | claim : i.claimable now = true → r.status ≠ .superseded → Deploy now i r .claim .claimed .deploying
  | renew : i.status = .claimed → Deploy now i r (.renew i.id i.leaseEpoch) .claimed r.status
  | healthy : i.status = .claimed → Deploy now i r (.healthy i.id i.leaseEpoch) .applied .healthy
  | failed : i.status = .claimed → Deploy now i r (.failed i.id i.leaseEpoch) .terminated .deployFailed

/-- Steps of a source build on its release. -/
inductive Build (r : Release) : ReleaseEvent → ReleaseStatus → String → Prop
  | start : r.status = .requested → r.imageDigest = "pending" → Build r .startBuild .building r.imageDigest
  | built (digest : String) : r.status = .building → Build r .built .imageReady digest
  | failed : r.status = .building → Build r .buildFailed .buildFailed r.imageDigest

inductive ReleaseStep (now : Time) : ReleaseView → ReleaseEvent → ReleaseView → Prop
  | scan (v : ReleaseView) (e : ReleaseEvent) : ReleaseStep now v e v
  | createApp (v : ReleaseView) (a : Application) : v.app a.id = none → a.currentReleaseId = none →
      ReleaseStep now v .configure (v.setApp a)
  | updateApp (v : ReleaseView) (a a' : Application) : v.app a.id = some a → a'.id = a.id →
      a'.desiredGeneration = a.desiredGeneration → a'.currentReleaseId = a.currentReleaseId →
      ReleaseStep now v .configure (v.setApp a')
  | accept (v : ReleaseView) (a a' : Application) (r : Release) : v.app a.id = some a → a'.id = a.id →
      a'.desiredGeneration = a.desiredGeneration + 1 → a'.currentReleaseId = a.currentReleaseId →
      v.release r.id = none → r.applicationId = a.id → r.status = .imageReady →
      (∀ k s, v.release k = some s → s.applicationId = a.id → s.releaseNumber < r.releaseNumber) →
      ReleaseStep now v .accept ((v.setApp a').setRelease r)
  | request (v : ReleaseView) (a : Application) (r : Release) : v.app a.id = some a →
      v.release r.id = none → r.applicationId = a.id → r.status = .requested → r.imageDigest = "pending" →
      (∀ k s, v.release k = some s → s.applicationId = a.id → s.releaseNumber ≠ r.releaseNumber) →
      ReleaseStep now v .request (v.setRelease r)
  | supersede (v v' : ReleaseView) : v'.app = v.app →
      (∀ k, v'.release k = v.release k ∨ ∃ r r' n, v.release k = some r ∧ v'.release k = some r' ∧
        r'.spec = r.spec ∧ r'.imageDigest = r.imageDigest ∧
        (r.status = .imageReady ∨ r.status = .requested) ∧ r'.status = .superseded ∧
        v.release n.id = some n ∧ n.deployable = true ∧ n.applicationId = r.applicationId ∧
        r.releaseNumber < n.releaseNumber) →
      (∀ k, v'.intent k = v.intent k ∨ ∃ i i' r, v.intent k = some i ∧ v'.intent k = some i' ∧
        i'.spec = i.spec ∧ i'.leaseEpoch = i.leaseEpoch ∧ i.status = .pending ∧ i'.status = .terminated ∧
        v'.release i.resourceId = some r ∧ r.status = .superseded) →
      ReleaseStep now v .supersede v'
  | admission (v : ReleaseView) (r : Release) (i : ExecutionIntent) : v.release r.id = some r →
      v.intent i.id = none → i.resourceId = r.id → i.status = .pending → i.leaseEpoch = 0 →
      i.deterministicResourceName = .svc r.applicationId i.targetGeneration →
      (∀ k i', v.intent k = some i' → i'.resourceId = r.id → i'.targetGeneration ≠ i.targetGeneration) →
      ReleaseStep now v .admission (v.setIntent i)
  | deploy (v : ReleaseView) (i i' : ExecutionIntent) (r r' : Release) (e : ReleaseEvent) :
      v.intent i.id = some i → v.release r.id = some r → i.resourceId = r.id →
      i'.spec = i.spec → r'.spec = r.spec → r'.imageDigest = r.imageDigest →
      Deploy now i r e i'.status r'.status →
      (i'.leaseEpoch = if e = .claim then i.leaseEpoch + 1 else i.leaseEpoch) →
      (∀ a, v.app r.applicationId = some a → e = .healthy i.id i.leaseEpoch →
        a.desiredGeneration ≠ i.targetGeneration) →
      ReleaseStep now v e ((v.setRelease r').setIntent i')
  | promote (v : ReleaseView) (i i' : ExecutionIntent) (r r' : Release) (a a' : Application) :
      v.intent i.id = some i → v.release r.id = some r → v.app a.id = some a →
      i.resourceId = r.id → r.applicationId = a.id →
      i'.spec = i.spec → r'.spec = r.spec → r'.imageDigest = r.imageDigest →
      i.status = .claimed → i'.status = .applied → r'.status = .healthy →
      i'.leaseEpoch = i.leaseEpoch → a.desiredGeneration = i.targetGeneration →
      a'.id = a.id → a'.desiredGeneration = a.desiredGeneration → a'.currentReleaseId = some r.id →
      ReleaseStep now v (.healthy i.id i.leaseEpoch) (((v.setApp a').setRelease r').setIntent i')
  | build (v : ReleaseView) (r r' : Release) (e : ReleaseEvent) : v.release r.id = some r →
      r'.spec = r.spec → Build r e r'.status r'.imageDigest → e ≠ .built →
      ReleaseStep now v e (v.setRelease r')
  | built (v : ReleaseView) (r r' : Release) (a a' : Application) : v.release r.id = some r →
      r'.spec = r.spec → Build r .built r'.status r'.imageDigest → v.app a.id = some a →
      r.applicationId = a.id → a'.id = a.id → a'.desiredGeneration = a.desiredGeneration + 1 →
      a'.currentReleaseId = a.currentReleaseId →
      ReleaseStep now v .built ((v.setApp a').setRelease r')

/-! ### Well-formed views -/

/-- Release numbers are unique in an application, an intent names its release and generation and is
unique for them, and a release whose image is still to be built has none. -/
structure ReleaseWF (v : ReleaseView) : Prop where
  appKey : ∀ {k a}, v.app k = some a → a.id = k
  releaseKey : ∀ {k r}, v.release k = some r → r.id = k
  intentKey : ∀ {k i}, v.intent k = some i → i.id = k
  releaseApp : ∀ {k r}, v.release k = some r → ∃ a, v.app r.applicationId = some a
  numberUnique : ∀ {k k' r r'}, v.release k = some r → v.release k' = some r' →
    r.applicationId = r'.applicationId → r.releaseNumber = r'.releaseNumber → k = k'
  unbuilt : ∀ {k r}, v.release k = some r → r.status = .requested ∨ r.status = .building →
    r.deployable = false
  intentRelease : ∀ {k i}, v.intent k = some i → ∃ r, v.release i.resourceId = some r ∧
    i.deterministicResourceName = .svc r.applicationId i.targetGeneration
  intentUnique : ∀ {k k' i i'}, v.intent k = some i → v.intent k' = some i' →
    i.resourceId = i'.resourceId → i.targetGeneration = i'.targetGeneration → k = k'

section Steps

variable {now : Time} {v v' : ReleaseView} {e : ReleaseEvent}

lemma Release.deployable_eq_false {r : Release} : r.deployable = false ↔ r.imageDigest = "pending" := by
  simp [Release.deployable]

/-- An application row stays, and its generation never decreases. -/
lemma ReleaseStep.app_row (hstep : ReleaseStep now v e v') {k : Uuid} {a₀ : Application}
    (hk : v.app k = some a₀) :
    ∃ a', v'.app k = some a' ∧ a'.id = a₀.id ∧ a₀.desiredGeneration ≤ a'.desiredGeneration := by
  have hset : ∀ {a a' : Application} {n : Nat}, v.app a.id = some a → a'.id = a.id →
      a'.desiredGeneration = a.desiredGeneration + n →
      ∃ b, (v.setApp a').app k = some b ∧ b.id = a₀.id ∧ a₀.desiredGeneration ≤ b.desiredGeneration := by
    intro a a' n ha hid hgen
    rw [ReleaseView.setApp_app, hid]
    by_cases hka : k = a.id
    · subst hka
      obtain rfl : a₀ = a := Option.some.inj (hk.symm.trans ha)
      exact ⟨a', if_pos rfl, hid, by omega⟩
    · exact ⟨a₀, by rw [if_neg hka, hk], rfl, le_rfl⟩
  have hsame : ∃ b, v.app k = some b ∧ b.id = a₀.id ∧ a₀.desiredGeneration ≤ b.desiredGeneration :=
    ⟨a₀, hk, rfl, le_rfl⟩
  cases hstep with
  | scan => exact hsame
  | createApp a hnew _ =>
    have hne : k ≠ a.id := by
      rintro rfl
      rw [hnew] at hk
      cases hk
    exact ⟨a₀, by simp [hne, hk], rfl, le_rfl⟩
  | updateApp a a' ha hid hgen _ => exact hset (n := 0) ha hid hgen
  | accept a a' r ha hid hgen => exact hset ha hid hgen
  | request => exact hsame
  | supersede v' happ => rw [happ]; exact hsame
  | admission => exact hsame
  | deploy => exact hsame
  | promote i i' r r' a a' _ _ ha _ _ _ _ _ _ _ _ _ _ hid hgen _ => exact hset (n := 0) ha hid hgen
  | build => exact hsame
  | built r r' a a' _ _ _ ha _ hid hgen => exact hset ha hid hgen

/-- What a step may do to a release: its image changes only when its build succeeds, and a release
whose image is still to be built was so before. -/
structure ReleaseChange (e : ReleaseEvent) (r r' : Release) : Prop where
  spec : r'.spec = r.spec
  image : r'.imageDigest = r.imageDigest ∨ r.status = .building ∧ e = .built
  unbuilt : r'.status = .requested ∨ r'.status = .building →
    r'.imageDigest = r.imageDigest ∧ (r.status = .requested ∨ r.status = .building)

lemma ReleaseChange.refl (e : ReleaseEvent) (r : Release) : ReleaseChange e r r :=
  ⟨rfl, .inl rfl, fun h => ⟨rfl, h⟩⟩

lemma Deploy.change {i : ExecutionIntent} {r r' : Release} {st : IntentStatus}
    (h : Deploy now i r e st r'.status) (hs : r'.spec = r.spec) (hd : r'.imageDigest = r.imageDigest) :
    ReleaseChange e r r' := by
  refine ⟨hs, .inl hd, fun hun => ⟨hd, ?_⟩⟩
  generalize hst : r'.status = t at h hun
  cases h with
  | claim => simp at hun
  | renew => exact hun
  | healthy => simp at hun
  | failed => simp at hun

lemma Build.change {r r' : Release} (h : Build r e r'.status r'.imageDigest) (hs : r'.spec = r.spec) :
    ReleaseChange e r r' := by
  generalize hst : r'.status = t at h
  generalize hd : r'.imageDigest = d at h
  cases h with
  | start hr _ => exact ⟨hs, .inl hd, fun _ => ⟨hd, .inl hr⟩⟩
  | built digest hr => exact ⟨hs, .inr ⟨hr, rfl⟩, fun hun => by simp [hst] at hun⟩
  | failed hr => exact ⟨hs, .inl hd, fun _ => ⟨hd, .inr hr⟩⟩

lemma ReleaseStep.release_row (hstep : ReleaseStep now v e v') {k : Uuid} {r₀ : Release}
    (hk : v.release k = some r₀) : ∃ r', v'.release k = some r' ∧ ReleaseChange e r₀ r' := by
  have hold : ∀ {k' : Uuid}, v.release k' = none → k ≠ k' := by
    rintro k' hnew rfl
    rw [hnew] at hk
    cases hk
  have hset : ∀ {r r' : Release}, v.release r.id = some r → ReleaseChange e r r' →
      ∃ s, (v.setRelease r').release k = some s ∧ ReleaseChange e r₀ s := by
    intro r r' hr hch
    rw [ReleaseView.setRelease_release, (Release.spec_eq.mp hch.spec).1]
    by_cases hkr : k = r.id
    · subst hkr
      obtain rfl : r₀ = r := Option.some.inj (hk.symm.trans hr)
      exact ⟨r', if_pos rfl, hch⟩
    · exact ⟨r₀, by rw [if_neg hkr, hk], .refl e r₀⟩
  have hsame : ∃ s, v.release k = some s ∧ ReleaseChange e r₀ s := ⟨r₀, hk, .refl e r₀⟩
  cases hstep with
  | scan => exact hsame
  | createApp => exact hsame
  | updateApp => exact hsame
  | accept a a' r _ _ _ _ hnew => exact ⟨r₀, by simp [hold hnew, hk], .refl _ r₀⟩
  | request a r _ hnew => exact ⟨r₀, by simp [hold hnew, hk], .refl _ r₀⟩
  | supersede v' _ hrel _ =>
    rcases hrel k with he | ⟨r, r', n, hr, hr', hs, hd, -, hst, -⟩
    · exact ⟨r₀, he.trans hk, .refl _ r₀⟩
    · obtain rfl : r₀ = r := Option.some.inj (hk.symm.trans hr)
      exact ⟨r', hr', hs, .inl hd, fun hun => by simp [hst] at hun⟩
  | admission => exact hsame
  | deploy i i' r r' e _ hr _ _ hs hd hdep => exact hset hr (hdep.change hs hd)
  | promote i i' r r' a a' _ hr _ _ _ _ hs hd _ _ hst =>
    exact hset hr ⟨hs, .inl hd, fun hun => by simp [hst] at hun⟩
  | build r r' e hr hs hb => exact hset hr (hb.change hs)
  | built r r' a a' hr hs hb => exact hset hr (hb.change hs)

/-- A release that a step adds belongs to an application, has a free number, and is either ready
for deployment, with a new generation, or waits for its build. -/
structure NewRelease (v : ReleaseView) (e : ReleaseEvent) (r : Release) : Prop where
  app : ∃ a, v.app r.applicationId = some a
  number : ∀ k s, v.release k = some s → s.applicationId = r.applicationId →
    s.releaseNumber ≠ r.releaseNumber
  kind : (e = .accept ∧ r.status = .imageReady) ∨
    (r.status = .requested ∧ r.imageDigest = "pending" ∧ e = .request)

lemma ReleaseStep.new_release (hstep : ReleaseStep now v e v') {k : Uuid} {r' : Release}
    (hk : v.release k = none) (hk' : v'.release k = some r') :
    r'.id = k ∧ (∀ k', k' ≠ k → v'.release k' = v.release k') ∧ NewRelease v e r' := by
  have hnone : v.release k ≠ some r' := by simp [hk]
  have hset : ∀ {r s : Release}, v.release r.id = some r → s.spec = r.spec →
      (v.setRelease s).release k ≠ some r' := by
    intro r s hr hs
    have hne : k ≠ r.id := by
      rintro rfl
      rw [hk] at hr
      cases hr
    rw [ReleaseView.setRelease_release, (Release.spec_eq.mp hs).1, if_neg hne]
    exact hnone
  have hnew : ∀ {r : Release}, (v.setRelease r).release k = some r' → k = r.id ∧ r' = r := by
    intro r h
    rw [ReleaseView.setRelease_release] at h
    split at h
    · rename_i hkr
      exact ⟨hkr, (Option.some.inj h).symm⟩
    · exact absurd h hnone
  cases hstep with
  | scan => exact absurd hk' hnone
  | createApp => exact absurd hk' hnone
  | updateApp => exact absurd hk' hnone
  | accept a a' r ha _ _ _ _ happ hst hnum =>
    obtain ⟨rfl, rfl⟩ := hnew hk'
    exact ⟨rfl, fun k' hne => by simp [hne], ⟨a, happ ▸ ha⟩,
      fun k s hs hsa => (hnum k s hs (hsa.trans happ)).ne, .inl ⟨rfl, hst⟩⟩
  | request a r ha _ happ hst hd hnum =>
    obtain ⟨rfl, rfl⟩ := hnew hk'
    exact ⟨rfl, fun k' hne => by simp [hne], ⟨a, happ ▸ ha⟩,
      fun k s hs hsa => hnum k s hs (hsa.trans happ), .inr ⟨hst, hd, rfl⟩⟩
  | supersede v' _ hrel _ =>
    rcases hrel k with he | ⟨r, r', n, hr, -⟩
    · exact absurd (he.symm.trans hk') hnone
    · rw [hk] at hr
      cases hr
  | admission => exact absurd hk' hnone
  | deploy i i' r s e _ hr _ _ hs => exact absurd hk' (hset hr hs)
  | promote i i' r s a a' _ hr _ _ _ _ hs => exact absurd hk' (hset hr hs)
  | build r s e hr hs => exact absurd hk' (hset hr hs)
  | built r s a a' hr hs => exact absurd hk' (hset hr hs)

/-- Where a release row after a step comes from. -/
lemma ReleaseStep.release_origin (hstep : ReleaseStep now v e v') {k : Uuid} {r' : Release}
    (hk' : v'.release k = some r') :
    (∃ r, v.release k = some r ∧ ReleaseChange e r r') ∨
      (v.release k = none ∧ r'.id = k ∧ (∀ k', k' ≠ k → v'.release k' = v.release k') ∧
        NewRelease v e r') := by
  cases hk : v.release k with
  | none => exact .inr ⟨rfl, hstep.new_release hk hk'⟩
  | some r =>
    obtain ⟨s, hs, hch⟩ := hstep.release_row hk
    obtain rfl : s = r' := Option.some.inj (hs.symm.trans hk')
    exact .inl ⟨r, rfl, hch⟩

/-! ### Intents -/

/-- The operation of an event on the lease of an intent. -/
def ReleaseEvent.leaseOp : ReleaseEvent → Uuid → Option Lease.Op
  | .claim, _ => some .grant
  | .supersede, _ => some .withdraw
  | .renew id e, k => if k = id then some (.keep e) else none
  | .healthy id e, k => if k = id then some (.close e) else none
  | .failed id e, k => if k = id then some (.close e) else none
  | _, _ => none

lemma ExecutionIntent.available_of_claimable {i : ExecutionIntent} (h : i.claimable now = true) :
    i.lease.Available now := by
  simp only [ExecutionIntent.claimable, Bool.or_eq_true, Bool.and_eq_true, decide_eq_true_eq] at h
  rcases h with hp | ⟨hc, hx⟩
  · exact .inl (by simp [ExecutionIntent.lease, IntentStatus.phase, hp])
  · exact .inr ⟨by simp [ExecutionIntent.lease, IntentStatus.phase, hc],
      ExecutionIntent.expired_of_leaseExpired hx⟩

lemma Deploy.lease {i i' : ExecutionIntent} {r : Release} {t : ReleaseStatus}
    (h : Deploy now i r e i'.status t)
    (hep : i'.leaseEpoch = if e = .claim then i.leaseEpoch + 1 else i.leaseEpoch) :
    ∃ o, e.leaseOp i.id = some o ∧ Lease.Step now i.lease o i'.lease := by
  have hlease : i'.lease = ⟨i'.status.phase, i'.leaseEpoch, i'.leaseExpiresAt⟩ := rfl
  rw [hlease]
  generalize i'.status = st at h
  cases h with
  | claim hc _ =>
    rw [hep, if_pos rfl]
    exact ⟨.grant, rfl, .grant _ (ExecutionIntent.available_of_claimable hc)⟩
  | renew hc =>
    rw [hep, if_neg (by simp)]
    exact ⟨.keep i.leaseEpoch, if_pos rfl, .keep _ (ExecutionIntent.held_of_claimed hc)⟩
  | healthy hc =>
    rw [hep, if_neg (by simp)]
    exact ⟨.close i.leaseEpoch, if_pos rfl, .close _ (ExecutionIntent.held_of_claimed hc)⟩
  | failed hc =>
    rw [hep, if_neg (by simp)]
    exact ⟨.close i.leaseEpoch, if_pos rfl, .close _ (ExecutionIntent.held_of_claimed hc)⟩

lemma ReleaseStep.intent_row (hstep : ReleaseStep now v e v') {k : Uuid} {i₀ : ExecutionIntent}
    (hk : v.intent k = some i₀) : ∃ i', v'.intent k = some i' ∧ IntentChange now (e.leaseOp k) i₀ i' := by
  have hset : ∀ {w : ReleaseView} {i i' : ExecutionIntent}, w.intent = v.intent → v.intent i.id = some i →
      i'.spec = i.spec → (∃ o, e.leaseOp i.id = some o ∧ Lease.Step now i.lease o i'.lease) →
      ∃ s, (w.setIntent i').intent k = some s ∧ IntentChange now (e.leaseOp k) i₀ s := by
    intro w i i' hw hi hs hl
    rw [ReleaseView.setIntent_intent, (ExecutionIntent.spec_eq.mp hs).1, hw]
    by_cases hki : k = i.id
    · subst hki
      obtain rfl : i₀ = i := Option.some.inj (hk.symm.trans hi)
      exact ⟨i', if_pos rfl, hs, .inr hl⟩
    · exact ⟨i₀, by rw [if_neg hki, hk], .refl i₀⟩
  have hsame : ∃ s, v.intent k = some s ∧ IntentChange now (e.leaseOp k) i₀ s := ⟨i₀, hk, .refl i₀⟩
  cases hstep with
  | scan => exact hsame
  | createApp => exact hsame
  | updateApp => exact hsame
  | accept => exact hsame
  | request => exact hsame
  | supersede v' _ _ hint =>
    rcases hint k with he | ⟨i, i', r, hi, hi', hs, hep, hp, hst, -⟩
    · exact ⟨i₀, he.trans hk, .refl i₀⟩
    · obtain rfl : i₀ = i := Option.some.inj (hk.symm.trans hi)
      have hlease : i'.lease = ⟨.closed, i₀.lease.epoch, i'.leaseExpiresAt⟩ := by
        simp [ExecutionIntent.lease, IntentStatus.phase, hst, hep]
      refine ⟨i', hi', hs, .inr ⟨.withdraw, rfl, ?_⟩⟩
      rw [hlease]
      exact .withdraw _ (by simp [ExecutionIntent.lease, IntentStatus.phase, hp])
  | admission r i _ hnew =>
    have hne : k ≠ i.id := by
      rintro rfl
      rw [hnew] at hk
      cases hk
    exact ⟨i₀, by simp [hne, hk], .refl i₀⟩
  | deploy i i' r r' e hi _ _ hs _ _ hdep hep => exact hset rfl hi hs (hdep.lease hep)
  | promote i i' r r' a a' hi _ _ _ _ hs _ _ hc ha _ hep =>
    refine hset rfl hi hs ⟨.close i.leaseEpoch, if_pos rfl, ?_⟩
    have hlease : i'.lease = ⟨.closed, i.lease.epoch, i'.leaseExpiresAt⟩ := by
      simp [ExecutionIntent.lease, IntentStatus.phase, ha, hep]
    rw [hlease]
    exact .close _ (ExecutionIntent.held_of_claimed hc)
  | build => exact hsame
  | built => exact hsame

/-- An intent that a step adds is pending and names a release and a generation it has no intent for. -/
structure NewIntent (v : ReleaseView) (i : ExecutionIntent) : Prop where
  release : ∃ r, v.release i.resourceId = some r ∧
    i.deterministicResourceName = .svc r.applicationId i.targetGeneration
  free : ∀ k i', v.intent k = some i' → i'.resourceId = i.resourceId →
    i'.targetGeneration ≠ i.targetGeneration
  status : i.status = .pending
  epoch : i.leaseEpoch = 0

lemma ReleaseStep.new_intent (hstep : ReleaseStep now v e v') {k : Uuid} {i' : ExecutionIntent}
    (hk : v.intent k = none) (hk' : v'.intent k = some i') :
    i'.id = k ∧ (∀ k', k' ≠ k → v'.intent k' = v.intent k') ∧ e = .admission ∧ NewIntent v i' := by
  have hnone : v.intent k ≠ some i' := by simp [hk]
  have hset : ∀ {w : ReleaseView} {i s : ExecutionIntent}, w.intent = v.intent → v.intent i.id = some i →
      s.spec = i.spec → (w.setIntent s).intent k ≠ some i' := by
    intro w i s hw hi hs
    have hne : k ≠ i.id := by
      rintro rfl
      rw [hk] at hi
      cases hi
    rw [ReleaseView.setIntent_intent, (ExecutionIntent.spec_eq.mp hs).1, if_neg hne, hw]
    exact hnone
  cases hstep with
  | scan => exact absurd hk' hnone
  | createApp => exact absurd hk' hnone
  | updateApp => exact absurd hk' hnone
  | accept => exact absurd hk' hnone
  | request => exact absurd hk' hnone
  | supersede v' _ _ hint =>
    rcases hint k with he | ⟨i, s, r, hi, -⟩
    · exact absurd (he.symm.trans hk') hnone
    · rw [hk] at hi
      cases hi
  | admission r i hr _ hres hst hep hname hfree =>
    rw [ReleaseView.setIntent_intent] at hk'
    split at hk'
    · rename_i hki
      obtain rfl := Option.some.inj hk'
      subst hki
      exact ⟨rfl, fun k' hne => by simp [hne], rfl, ⟨r, hres ▸ hr, hname⟩,
        fun k s hs hsr => hfree k s hs (hsr.trans hres), hst, hep⟩
    · exact absurd hk' hnone
  | deploy i s r r' e hi _ _ hs => exact absurd hk' (hset rfl hi hs)
  | promote i s r r' a a' hi _ _ _ _ hs => exact absurd hk' (hset rfl hi hs)
  | build => exact absurd hk' hnone
  | built => exact absurd hk' hnone

lemma ReleaseStep.intent_origin (hstep : ReleaseStep now v e v') {k : Uuid} {i' : ExecutionIntent}
    (hk' : v'.intent k = some i') :
    (∃ i, v.intent k = some i ∧ IntentChange now (e.leaseOp k) i i') ∨
      (v.intent k = none ∧ i'.id = k ∧ (∀ k', k' ≠ k → v'.intent k' = v.intent k') ∧ e = .admission ∧
        NewIntent v i') := by
  cases hk : v.intent k with
  | none => exact .inr ⟨rfl, hstep.new_intent hk hk'⟩
  | some i =>
    obtain ⟨s, hs, hch⟩ := hstep.intent_row hk
    obtain rfl : s = i' := Option.some.inj (hs.symm.trans hk')
    exact .inl ⟨i, rfl, hch⟩

/-! ### Preservation -/

lemma ReleaseStep.app_key (hstep : ReleaseStep now v e v') (h : ReleaseWF v) {k : Uuid} {a' : Application}
    (hk' : v'.app k = some a') : a'.id = k := by
  cases hk : v.app k with
  | some a =>
    obtain ⟨b, hb, hid, -⟩ := hstep.app_row hk
    obtain rfl : b = a' := Option.some.inj (hb.symm.trans hk')
    exact hid.trans (h.appKey hk)
  | none =>
    have hset : ∀ {b : Application}, (v.setApp b).app k = some a' → a'.id = k := by
      intro b hb
      rw [ReleaseView.setApp_app, hk] at hb
      split at hb
      · rename_i hkb
        rw [← Option.some.inj hb, hkb]
      · cases hb
    have hnone : v.app k ≠ some a' := by simp [hk]
    cases hstep with
    | scan => exact absurd hk' hnone
    | createApp => exact hset hk'
    | updateApp => exact hset hk'
    | accept => exact hset hk'
    | request => exact absurd hk' hnone
    | supersede v' happ => exact absurd (happ ▸ hk') hnone
    | admission => exact absurd hk' hnone
    | deploy => exact absurd hk' hnone
    | promote => exact hset hk'
    | build => exact absurd hk' hnone
    | built => exact hset hk'

lemma ReleaseStep.deployable_row (hstep : ReleaseStep now v e v') (h : ReleaseWF v) {k : Uuid} {r : Release}
    (hk : v.release k = some r) (hd : r.deployable = true) :
    ∃ r', v'.release k = some r' ∧ r'.spec = r.spec ∧ r'.deployable = true := by
  obtain ⟨r', hr', hch⟩ := hstep.release_row hk
  refine ⟨r', hr', hch.spec, ?_⟩
  rcases hch.image with himg | ⟨hb, -⟩
  · simpa [Release.deployable, himg] using hd
  · rw [h.unbuilt hk (.inr hb)] at hd
    cases hd

/-- Only a step that bumps the generation of an application gives it a deployable release. -/
lemma ReleaseStep.deployable_origin (hstep : ReleaseStep now v e v') {k : Uuid} {r' : Release}
    (hk' : v'.release k = some r') (hd : r'.deployable = true) :
    (∃ r, v.release k = some r ∧ r'.spec = r.spec ∧ r.deployable = true) ∨
      ∃ a a', v.app r'.applicationId = some a ∧ v'.app r'.applicationId = some a' ∧
        a'.desiredGeneration = a.desiredGeneration + 1 := by
  have hkept : e ≠ .accept → e ≠ .built →
      ∃ r, v.release k = some r ∧ r'.spec = r.spec ∧ r.deployable = true := by
    intro hacc hbuilt
    rcases hstep.release_origin hk' with ⟨r, hr, hch⟩ | ⟨-, -, -, hnew⟩
    · rcases hch.image with himg | ⟨-, he⟩
      · exact ⟨r, hr, hch.spec, by simpa [Release.deployable, himg] using hd⟩
      · exact absurd he hbuilt
    · rcases hnew.kind with ⟨he, -⟩ | ⟨-, himg, -⟩
      · exact absurd he hacc
      · simp [Release.deployable, himg] at hd
  have hself : ∀ {s : Release}, k ≠ s.id → (v.setRelease s).release k = some r' →
      ∃ r, v.release k = some r ∧ r'.spec = r.spec ∧ r.deployable = true := by
    intro s hne hs
    rw [ReleaseView.setRelease_release, if_neg hne] at hs
    exact ⟨r', hs, rfl, hd⟩
  cases hstep with
  | accept a a' r ha hid hgen _ _ happ =>
    by_cases hkr : k = r.id
    · subst hkr
      obtain rfl : r = r' := by simpa using hk'
      exact .inr ⟨a, a', happ ▸ ha, by simp [happ, hid], hgen⟩
    · exact .inl (hself hkr hk')
  | built r s a a' hr hs hb ha happ hid hgen =>
    by_cases hkr : k = s.id
    · subst hkr
      obtain rfl : s = r' := by simpa using hk'
      have hsa : s.applicationId = a.id := (Release.spec_eq.mp hs).2.1.trans happ
      exact .inr ⟨a, a', hsa ▸ ha, by simp [hsa, hid], hgen⟩
    · exact .inl (hself hkr hk')
  | scan => exact .inl ⟨r', hk', rfl, hd⟩
  | createApp => exact .inl (hkept (by simp) (by simp))
  | updateApp => exact .inl (hkept (by simp) (by simp))
  | request => exact .inl (hkept (by simp) (by simp))
  | supersede => exact .inl (hkept (by simp) (by simp))
  | admission => exact .inl (hkept (by simp) (by simp))
  | deploy i i' r s e _ _ _ _ _ _ hdep =>
    generalize i'.status = st, s.status = t at hdep
    exact .inl (hkept (by rintro rfl; cases hdep) (by rintro rfl; cases hdep))
  | promote => exact .inl (hkept (by simp) (by simp))
  | build r s e _ _ hb hne =>
    generalize s.status = t, s.imageDigest = d at hb
    exact .inl (hkept (by rintro rfl; cases hb) hne)

/-- Every step of the protocol keeps the view well formed. -/
theorem ReleaseStep.wf (hstep : ReleaseStep now v e v') (h : ReleaseWF v) : ReleaseWF v' where
  appKey hk := hstep.app_key h hk
  releaseKey hk := by
    rcases hstep.release_origin hk with ⟨r, hr, hch⟩ | ⟨-, hid, -⟩
    · exact (Release.spec_eq.mp hch.spec).1.trans (h.releaseKey hr)
    · exact hid
  intentKey hk := by
    rcases hstep.intent_origin hk with ⟨i, hi, hch⟩ | ⟨-, hid, -⟩
    · exact (ExecutionIntent.spec_eq.mp hch.spec).1.trans (h.intentKey hi)
    · exact hid
  releaseApp {k r'} hk := by
    obtain ⟨a, ha⟩ : ∃ a, v.app r'.applicationId = some a := by
      rcases hstep.release_origin hk with ⟨r, hr, hch⟩ | ⟨-, -, -, hnew⟩
      · rw [(Release.spec_eq.mp hch.spec).2.1]
        exact h.releaseApp hr
      · exact hnew.app
    obtain ⟨a', ha', -⟩ := hstep.app_row ha
    exact ⟨a', ha'⟩
  numberUnique {k k' r r'} hk hk' happ hnum := by
    by_contra hne
    rcases hstep.release_origin hk with ⟨s, hs, hch⟩ | ⟨hnone, -, hframe, hnew⟩ <;>
      rcases hstep.release_origin hk' with ⟨s', hs', hch'⟩ | ⟨hnone', -, -, hnew'⟩
    · obtain ⟨-, h1, -, h2, -⟩ := Release.spec_eq.mp hch.spec
      obtain ⟨-, h3, -, h4, -⟩ := Release.spec_eq.mp hch'.spec
      exact hne (h.numberUnique hs hs' (h1.symm.trans (happ.trans h3)) (h2.symm.trans (hnum.trans h4)))
    · obtain ⟨-, h1, -, h2, -⟩ := Release.spec_eq.mp hch.spec
      exact hnew'.number k s hs (h1.symm.trans happ) (h2.symm.trans hnum)
    · obtain ⟨-, h3, -, h4, -⟩ := Release.spec_eq.mp hch'.spec
      exact hnew.number k' s' hs' (h3.symm.trans happ.symm) (h4.symm.trans hnum.symm)
    · rw [hframe k' (Ne.symm hne), hnone'] at hk'
      cases hk'
  unbuilt hk hun := by
    rcases hstep.release_origin hk with ⟨r, hr, hch⟩ | ⟨-, -, -, hnew⟩
    · obtain ⟨himg, hold⟩ := hch.unbuilt hun
      rw [Release.deployable_eq_false, himg]
      exact Release.deployable_eq_false.mp (h.unbuilt hr hold)
    · rcases hnew.kind with ⟨-, hst⟩ | ⟨-, himg, -⟩
      · simp [hst] at hun
      · exact Release.deployable_eq_false.mpr himg
  intentRelease hk := by
    rcases hstep.intent_origin hk with ⟨i, hi, hch⟩ | ⟨-, -, -, -, hnew⟩
    · obtain ⟨-, -, hres, hgen, hname, -⟩ := ExecutionIntent.spec_eq.mp hch.spec
      obtain ⟨r, hr, hn⟩ := h.intentRelease hi
      obtain ⟨r', hr', hch'⟩ := hstep.release_row hr
      exact ⟨r', hres ▸ hr', by rw [hname, hn, hgen, (Release.spec_eq.mp hch'.spec).2.1]⟩
    · obtain ⟨r, hr, hn⟩ := hnew.release
      obtain ⟨r', hr', hch'⟩ := hstep.release_row hr
      exact ⟨r', hr', by rw [hn, (Release.spec_eq.mp hch'.spec).2.1]⟩
  intentUnique {k k' i i'} hk hk' hres hgen := by
    by_contra hne
    rcases hstep.intent_origin hk with ⟨s, hs, hch⟩ | ⟨hnone, -, hframe, -, hnew⟩ <;>
      rcases hstep.intent_origin hk' with ⟨s', hs', hch'⟩ | ⟨hnone', -, -, -, hnew'⟩
    · obtain ⟨-, -, h1, h2, -⟩ := ExecutionIntent.spec_eq.mp hch.spec
      obtain ⟨-, -, h3, h4, -⟩ := ExecutionIntent.spec_eq.mp hch'.spec
      exact hne (h.intentUnique hs hs' (h1.symm.trans (hres.trans h3)) (h2.symm.trans (hgen.trans h4)))
    · obtain ⟨-, -, h1, h2, -⟩ := ExecutionIntent.spec_eq.mp hch.spec
      exact hnew'.free k s hs (h1.symm.trans hres) (h2.symm.trans hgen)
    · obtain ⟨-, -, h3, h4, -⟩ := ExecutionIntent.spec_eq.mp hch'.spec
      exact hnew.free k' s' hs' (h3.symm.trans hres.symm) (h4.symm.trans hgen.symm)
    · rw [hframe k' (Ne.symm hne), hnone'] at hk'
      cases hk'

/-! ### Transactions -/

/-- A transaction is one step, or adds several releases that wait for their builds. -/
inductive ReleaseRun (now : Time) : ReleaseView → ReleaseEvent → ReleaseView → Prop
  | step {v v' : ReleaseView} {e : ReleaseEvent} : ReleaseStep now v e v' → ReleaseRun now v e v'
  | requests {v v' : ReleaseView} :
      Relation.ReflTransGen (fun u u' => ReleaseStep now u .request u') v v' → ReleaseRun now v .request v'

lemma ReleaseRun.single (hrun : ReleaseRun now v e v') (he : e ≠ .request) : ReleaseStep now v e v' := by
  cases hrun with
  | step hstep => exact hstep
  | requests => exact absurd rfl he

/-- What every step keeps, a transaction keeps. -/
lemma ReleaseRun.invariant {P : ReleaseView → Prop} (hrun : ReleaseRun now v e v')
    (hstep : ∀ u u', ReleaseStep now u e u' → P u → P u') (h : P v) : P v' := by
  cases hrun with
  | step hs => exact hstep _ _ hs h
  | requests hs =>
    induction hs with
    | refl => exact h
    | tail _ hs ih => exact hstep _ _ hs ih

lemma ReleaseRun.wf (hrun : ReleaseRun now v e v') (h : ReleaseWF v) : ReleaseWF v' :=
  hrun.invariant (fun _ _ hs => hs.wf) h

/-! ### What later steps cannot undo -/

structure ReleaseEvolves (v v' : ReleaseView) : Prop where
  app : ∀ {k a}, v.app k = some a →
    ∃ a', v'.app k = some a' ∧ a.desiredGeneration ≤ a'.desiredGeneration
  release : ∀ {k r}, v.release k = some r → ∃ r', v'.release k = some r' ∧ r'.spec = r.spec
  intent : ∀ {k i}, v.intent k = some i →
    ∃ i', v'.intent k = some i' ∧ i'.spec = i.spec ∧ i.leaseEpoch ≤ i'.leaseEpoch ∧
      (i.status.isFinal = true → i' = i)

lemma ReleaseEvolves.refl (v : ReleaseView) : ReleaseEvolves v v :=
  ⟨fun h => ⟨_, h, le_rfl⟩, fun h => ⟨_, h, rfl⟩, fun h => ⟨_, h, rfl, le_rfl, fun _ => rfl⟩⟩

lemma ReleaseEvolves.trans {v'' : ReleaseView} (h : ReleaseEvolves v v') (h' : ReleaseEvolves v' v'') :
    ReleaseEvolves v v'' where
  app hk := by
    obtain ⟨a₁, ha₁, hc₁⟩ := h.app hk
    obtain ⟨a₂, ha₂, hc₂⟩ := h'.app ha₁
    exact ⟨a₂, ha₂, hc₁.trans hc₂⟩
  release hk := by
    obtain ⟨r₁, hr₁, hs₁⟩ := h.release hk
    obtain ⟨r₂, hr₂, hs₂⟩ := h'.release hr₁
    exact ⟨r₂, hr₂, hs₂.trans hs₁⟩
  intent hk := by
    obtain ⟨i₁, hi₁, hs₁, hc₁, hf₁⟩ := h.intent hk
    obtain ⟨i₂, hi₂, hs₂, hc₂, hf₂⟩ := h'.intent hi₁
    refine ⟨i₂, hi₂, hs₂.trans hs₁, hc₁.trans hc₂, fun hf => ?_⟩
    have he := hf₁ hf
    rw [hf₂ (he ▸ hf), he]

lemma ReleaseStep.evolves (hstep : ReleaseStep now v e v') : ReleaseEvolves v v' where
  app hk := by
    obtain ⟨a', ha', -, hgen⟩ := hstep.app_row hk
    exact ⟨a', ha', hgen⟩
  release hk := by
    obtain ⟨r', hr', hch⟩ := hstep.release_row hk
    exact ⟨r', hr', hch.spec⟩
  intent hk := by
    obtain ⟨i', hi', hch⟩ := hstep.intent_row hk
    exact ⟨i', hi', hch.spec, hch.epoch_le, hch.final⟩

theorem ReleaseRun.evolves (hrun : ReleaseRun now v e v') : ReleaseEvolves v v' :=
  hrun.invariant (fun _ _ hs h => h.trans hs.evolves) (.refl v)

end Steps

end HamiCloud
