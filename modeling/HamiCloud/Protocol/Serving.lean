import HamiCloud.Protocol.Rollout

/-!
# The serving release

Two things go wrong when the generation of an application is bumped although its latest release stays the
same, as a late build of an older release does. If the latest release has been handed out but not claimed,
it is handed out again, and its two intents overwrite each other's outcome. If it is being deployed, its
generation is no longer the desired one and it is never promoted. `Deployments` and `Serving` say what
holds as long as no bump comes at such a moment.
-/

namespace HamiCloud

/-- The statuses of a release that has one intent, by the status of the intent. -/
def IntentStatus.fits : IntentStatus → ReleaseStatus → Bool
  | .pending, .imageReady => true
  | .pending, .superseded => true
  | .claimed, .deploying => true
  | .applied, .healthy => true
  | .terminated, .deployFailed => true
  | .terminated, .superseded => true
  | _, _ => false

/-- No bump of a generation finds a release with property `P` that is the latest one and stays so. -/
def Undisturbed (P : Uuid → Release → Prop) (v v' : ReleaseView) : Prop :=
  ∀ ⦃k r a a'⦄, v.release k = some r → P k r → v'.Latest k → v.app r.applicationId = some a →
    v'.app r.applicationId = some a' → a'.desiredGeneration = a.desiredGeneration

/-- Handed out, and not yet claimed. -/
def Waiting (stamp : Uuid → Nat → Prop) (k : Uuid) (r : Release) : Prop :=
  r.status = .imageReady ∧ ∃ g, stamp k g

lemma Waiting.not_building {stamp : Uuid → Nat → Prop} {k : Uuid} {r : Release} (h : Waiting stamp k r) :
    r.status ≠ .building := by
  rw [h.1]
  simp

structure Deployments (v : ReleaseView) (stamp : Uuid → Nat → Prop) : Prop where
  once : ∀ {k g g'}, stamp k g → stamp k g' → g = g'
  ready : ∀ {k g r a}, stamp k g → v.release k = some r → r.status = .imageReady → v.Latest k →
    v.app r.applicationId = some a → g = a.desiredGeneration
  fits : ∀ {k i r}, v.intent k = some i → v.release i.resourceId = some r → i.status.fits r.status = true
  claimed : ∀ {k r}, v.release k = some r → r.status.rolledOut = true →
    ∃ k' i, v.intent k' = some i ∧ i.resourceId = k
  buildFailed : ∀ {k r}, v.release k = some r → r.status = .buildFailed → r.deployable = false
  current : ∀ {k a k'}, v.app k = some a → a.currentReleaseId = some k' →
    ∃ r, v.release k' = some r ∧ r.status = .healthy

variable {now : Time} {v v' : ReleaseView} {e : ReleaseEvent} {stamp stamp' : Uuid → Nat → Prop}

lemma Deploy.fits {i : ExecutionIntent} {r : Release} {st : IntentStatus} {t : ReleaseStatus}
    (h : Deploy now i r e st t) (hfit : i.status.fits r.status = true) : st.fits t = true := by
  cases h with
  | claim => rfl
  | renew hc => exact hc ▸ hfit
  | healthy => rfl
  | failed => rfl

/-- Nothing can be done any more with the intent of a healthy release. -/
lemma Deploy.not_of_healthy {i : ExecutionIntent} {r : Release} {st : IntentStatus} {t : ReleaseStatus}
    (h : Deploy now i r e st t) (hfit : i.status.fits r.status = true) : r.status ≠ .healthy := by
  intro hst
  rw [hst] at hfit
  have hi : i.status = .applied := by
    cases his : i.status <;> simp [his, IntentStatus.fits] at hfit ⊢
  cases h with
  | claim hc => simp [ExecutionIntent.claimable, hi] at hc
  | renew hc => simp [hi] at hc
  | healthy hc => simp [hi] at hc
  | failed hc => simp [hi] at hc

/-- A release that has been handed out is not waiting for its build. -/
lemma Generations.not_built {stamp : Uuid → Nat → Prop} (hgen : Generations v stamp) (hwf : ReleaseWF v)
    {k : Uuid} {g : Nat} {r : Release} (hs : stamp k g) (hr : v.release k = some r) :
    r.deployable = true ∧ r.status ≠ .requested ∧ r.status ≠ .building := by
  obtain ⟨s, hs', hd⟩ := hgen.release hs
  obtain rfl : s = r := Option.some.inj (hs'.symm.trans hr)
  refine ⟨hd, fun hst => ?_, fun hst => ?_⟩
  · rw [hwf.unbuilt hr (.inl hst)] at hd
    cases hd
  · rw [hwf.unbuilt hr (.inr hst)] at hd
    cases hd

/-- What a step does to a release that has been handed out. -/
lemma Generations.ready_back {r r' : Release} {k : Uuid} {g : Nat} (hgen : Generations v stamp)
    (hwf : ReleaseWF v) (hs : stamp k g) (hr : v.release k = some r) (hmove : ReleaseMove now v e v' r r')
    (hst : r'.status = .imageReady) : r.status = .imageReady := by
  obtain ⟨-, hreq, hbld⟩ := hgen.not_built hwf hs hr
  cases hmove with
  | same he => exact he ▸ hst
  | deploy i i' _ _ _ _ _ _ hdep =>
    generalize r'.status = t, i'.status = u at hdep hst
    cases hdep with
    | claim => cases hst
    | renew => exact hst
    | healthy => cases hst
    | failed => cases hst
  | build _ hb =>
    generalize r'.status = t, r'.imageDigest = d at hb
    cases hb with
    | start h _ => exact absurd h hreq
    | built _ h => exact absurd h hbld
    | failed h => exact absurd h hbld
  | supersede n _ _ _ _ hsup =>
    rw [hst] at hsup
    cases hsup

namespace Deployments

/-- A release has one intent. -/
lemma intent_eq (h : Deployments v stamp) (hgen : Generations v stamp) (hwf : ReleaseWF v) {k k' : Uuid}
    {i i' : ExecutionIntent} (hi : v.intent k = some i) (hi' : v.intent k' = some i')
    (hres : i.resourceId = i'.resourceId) : k = k' ∧ i = i' := by
  have hs := hgen.intent hi
  rw [hres] at hs
  obtain rfl := hwf.intentUnique hi hi' hres (h.once hs (hgen.intent hi'))
  exact ⟨rfl, Option.some.inj (hi.symm.trans hi')⟩

lemma step_ready (h : Deployments v stamp) (hgen : Generations v stamp) (hwf : ReleaseWF v)
    (hstep : ReleaseStep now v e v') (hbump : Undisturbed (Waiting stamp) v v') {k : Uuid} {g : Nat}
    {r' : Release} {a' : Application} (hs : stamp k g) (hr' : v'.release k = some r')
    (hst : r'.status = .imageReady) (hl : v'.Latest k) (ha' : v'.app r'.applicationId = some a') :
    g = a'.desiredGeneration := by
  obtain ⟨r, hr, hd⟩ := hgen.release hs
  obtain ⟨s, hs', hmove⟩ := hstep.release_move hr
  obtain rfl : s = r' := Option.some.inj (hs'.symm.trans hr')
  have hready := hgen.ready_back hwf hs hr hmove hst
  have happ := (Release.spec_eq.mp hmove.spec).2.1
  rw [happ] at ha'
  obtain ⟨a, ha⟩ := hwf.releaseApp hr
  rw [hbump hr ⟨hready, g, hs⟩ hl ha ha']
  exact h.ready hs hr hready (hstep.latest_back hwf hr hd hl) ha

/-- A new intent belongs to a release that nobody has claimed. -/
lemma fits_new (h : Deployments v stamp) (hgen : Generations v stamp) (hwf : ReleaseWF v) {i : ExecutionIntent}
    {r : Release} (hnew : NewIntent v i) (hs : stamp i.resourceId i.targetGeneration)
    (hr : v.release i.resourceId = some r) : i.status.fits r.status = true := by
  rw [hnew.status]
  obtain ⟨hd, hreq, hbld⟩ := hgen.not_built hwf hs hr
  have hfresh : r.status.rolledOut = false := by
    by_contra hout
    obtain ⟨k, j, hj, hres⟩ := h.claimed hr (by simpa using hout)
    have hsj := hgen.intent hj
    rw [hres] at hsj
    exact hnew.free k j hj hres (h.once hsj hs)
  cases hst : r.status with
  | imageReady => rfl
  | superseded => rfl
  | requested => exact absurd hst hreq
  | building => exact absurd hst hbld
  | buildFailed =>
    rw [h.buildFailed hr hst] at hd
    cases hd
  | deploying => simp [hst, ReleaseStatus.rolledOut] at hfresh
  | healthy => simp [hst, ReleaseStatus.rolledOut] at hfresh
  | deployFailed => simp [hst, ReleaseStatus.rolledOut] at hfresh

lemma fits_old (h : Deployments v stamp) (hgen : Generations v stamp) (hwf : ReleaseWF v) {k : Uuid}
    {i i' : ExecutionIntent} {r r' : Release} (hi : v.intent k = some i) (hi' : v'.intent k = some i')
    (hr : v.release i.resourceId = some r) (hr' : v'.release i.resourceId = some r')
    (himove : IntentMove now v e v' i i') (hrmove : ReleaseMove now v e v' r r') :
    i'.status.fits r'.status = true := by
  have hfit := h.fits hi hr
  have hrid := hwf.releaseKey hr
  -- both moves, if they are steps of a rollout, are the same step
  have hdeploy : ∀ q q', v.release q.id = some q → v'.release q.id = some q' → i.resourceId = q.id →
      Deploy now i q e i'.status q'.status → i'.status.fits r'.status = true := by
    intro q q' hq hq' hres hdep
    rw [← hres] at hq hq'
    obtain rfl : r = q := Option.some.inj (hr.symm.trans hq)
    obtain rfl : r' = q' := Option.some.inj (hr'.symm.trans hq')
    exact hdep.fits hfit
  cases hrmove with
  | deploy j j' hj hj' hres _ _ _ hdep =>
    obtain ⟨hk, rfl⟩ := h.intent_eq hgen hwf hi hj (hrid.symm.trans hres.symm)
    rw [← hk, hi'] at hj'
    obtain rfl := Option.some.inj hj'
    exact hdep.fits hfit
  | build _ hb =>
    obtain ⟨-, hreq, hbld⟩ := hgen.not_built hwf (hgen.intent hi) hr
    generalize r'.status = t, r'.imageDigest = d at hb
    cases hb with
    | start hst _ => exact absurd hst hreq
    | built _ hst => exact absurd hst hbld
    | failed hst => exact absurd hst hbld
  | same he =>
    cases himove with
    | same hie => rw [hie, he]; exact hfit
    | deploy q q' hq hq' hres _ _ hdep => exact hdeploy q q' hq hq' hres hdep
    | withdraw q _ _ hterm hq hsup =>
      obtain rfl : r' = q := Option.some.inj (hr'.symm.trans hq)
      rw [hterm, hsup]
      rfl
  | supersede n _ _ _ hold hsup =>
    have hp : i.status = .pending := by
      obtain ⟨-, hreq, -⟩ := hgen.not_built hwf (hgen.intent hi) hr
      rcases hold with hst | hst
      · rw [hst] at hfit
        cases his : i.status <;> simp [his, IntentStatus.fits] at hfit ⊢
      · exact absurd hst hreq
    cases himove with
    | same hie => rw [hie, hp, hsup]; rfl
    | deploy q q' hq hq' hres _ _ hdep => exact hdeploy q q' hq hq' hres hdep
    | withdraw q _ _ hterm _ _ => rw [hterm, hsup]; rfl

/-- A healthy release stays healthy: its intent is final, and it has no other. -/
lemma healthy_stays (h : Deployments v stamp) (hwf : ReleaseWF v) {k : Uuid} {r r' : Release}
    (hr : v.release k = some r) (hst : r.status = .healthy) (hmove : ReleaseMove now v e v' r r') :
    r'.status = .healthy := by
  cases hmove with
  | same he => rw [he, hst]
  | deploy i i' hi _ hres _ _ _ hdep =>
    have hrow : v.release i.resourceId = some r := by rw [hres, hwf.releaseKey hr, hr]
    exact absurd hst (hdep.not_of_healthy (h.fits hi hrow))
  | build _ hb =>
    generalize r'.status = t, r'.imageDigest = d at hb
    cases hb with
    | start h' _ => simp [hst] at h'
    | built _ h' => simp [hst] at h'
    | failed h' => simp [hst] at h'
  | supersede n _ _ _ hold _ => simp [hst] at hold

/-- Step lemma: nothing new is handed out, and no bump disturbs a release that waits to be claimed. -/
lemma step (h : Deployments v stamp) (hgen : Generations v stamp) (hwf : ReleaseWF v)
    (hstep : ReleaseStep now v e v') (hbump : Undisturbed (Waiting stamp) v v')
    (hadm : ∀ k i, v.intent k = none → v'.intent k = some i → stamp i.resourceId i.targetGeneration) :
    Deployments v' stamp where
  once := h.once
  ready hs hr hst hl ha := h.step_ready hgen hwf hstep hbump hs hr hst hl ha
  fits {k i' r'} hi' hr' := by
    rcases hstep.intent_origin hi' with ⟨i, hi, -⟩ | ⟨hnone, -, -, he, hnew⟩
    · obtain ⟨s, hs, himove⟩ := hstep.intent_move hi
      obtain rfl : s = i' := Option.some.inj (hs.symm.trans hi')
      rw [(ExecutionIntent.spec_eq.mp himove.spec).2.2.1] at hr'
      obtain ⟨r, hr, -⟩ := hwf.intentRelease hi
      obtain ⟨q, hq, hrmove⟩ := hstep.release_move hr
      obtain rfl : q = r' := Option.some.inj (hq.symm.trans hr')
      exact h.fits_old hgen hwf hi hi' hr hr' himove hrmove
    · obtain ⟨r, hr, -⟩ := hnew.release
      obtain ⟨q, hq, hrmove⟩ := hstep.release_move hr
      obtain rfl : q = r' := Option.some.inj (hq.symm.trans hr')
      rw [hrmove.eq_of_insert (.inr he)]
      exact h.fits_new hgen hwf hnew (hadm k i' hnone hi') hr
  claimed {k r'} hr' hout := by
    rcases (ReleaseRun.step hstep).release_origin hr' with ⟨r, hr, hmove⟩ | ⟨-, hnew⟩
    · have hkeep : ∀ {k' i}, v.intent k' = some i → i.resourceId = k →
          ∃ k' i, v'.intent k' = some i ∧ i.resourceId = k := by
        intro k' i hi hres
        obtain ⟨i', hi', himove⟩ := hstep.intent_move hi
        exact ⟨k', i', hi', (ExecutionIntent.spec_eq.mp himove.spec).2.2.1.trans hres⟩
      cases hmove with
      | same he =>
        obtain ⟨k', i, hi, hres⟩ := h.claimed hr (he ▸ hout)
        exact hkeep hi hres
      | deploy i i' hi _ hres => exact hkeep hi (hres.trans (hwf.releaseKey hr))
      | build _ hb =>
        generalize r'.status = t, r'.imageDigest = d at hb hout
        cases hb <;> cases hout
      | supersede n _ _ _ _ hsup =>
        rw [hsup] at hout
        cases hout
    · rcases hnew with ⟨-, hst⟩ | ⟨hst, -⟩ <;> rw [hst] at hout <;> cases hout
  buildFailed {k r'} hr' hst := by
    rw [Release.deployable_eq_false]
    rcases (ReleaseRun.step hstep).release_origin hr' with ⟨r, hr, hmove⟩ | ⟨-, hnew⟩
    · cases hmove with
      | same he =>
        rw [he]
        exact Release.deployable_eq_false.mp (h.buildFailed hr (he ▸ hst))
      | deploy i i' _ _ _ _ _ hd hdep =>
        generalize r'.status = t, i'.status = u at hdep hst
        cases hdep with
        | claim => cases hst
        | renew => rw [hd]; exact Release.deployable_eq_false.mp (h.buildFailed hr hst)
        | healthy => cases hst
        | failed => cases hst
      | build _ hb =>
        generalize r'.status = t, r'.imageDigest = d at hb hst
        cases hb with
        | start => cases hst
        | built => cases hst
        | failed hbld => exact Release.deployable_eq_false.mp (hwf.unbuilt hr (.inr hbld))
      | supersede n _ _ _ _ hsup => simp [hst] at hsup
    · simp [hst] at hnew
  current {k a' k'} ha' hcur := by
    have hkeep : ∀ {a}, v.app k = some a → a.currentReleaseId = some k' →
        ∃ r, v'.release k' = some r ∧ r.status = .healthy := by
      intro a ha hcur
      obtain ⟨r, hr, hst⟩ := h.current ha hcur
      obtain ⟨r', hr', hmove⟩ := hstep.release_move hr
      exact ⟨r', hr', h.healthy_stays hwf hr hst hmove⟩
    cases ha : v.app k with
    | none =>
      rw [hstep.new_app ha ha'] at hcur
      cases hcur
    | some a =>
      obtain ⟨b, hb, hmove⟩ := hstep.app_move ha
      obtain rfl : b = a' := Option.some.inj (hb.symm.trans ha')
      cases hmove with
      | same _ he => exact hkeep ha (he ▸ hcur)
      | bump _ he => exact hkeep ha (he ▸ hcur)
      | promote i r r' _ _ _ hr' _ _ _ hst _ _ he =>
        rw [he] at hcur
        rw [← Option.some.inj hcur]
        exact ⟨r', hr', hst⟩

lemma scan (h : Deployments v stamp)
    (hnew : ∀ k g, stamp' k g → stamp k g ∨ ∃ r a, v.release k = some r ∧ v.app r.applicationId = some a ∧
      g = a.desiredGeneration ∧ r.status = .imageReady ∧ v.Latest k) : Deployments v stamp' where
  once {k g g'} hs hs' := by
    rcases hnew k g hs with hs | ⟨r, a, hr, ha, hg, hst, hl⟩ <;>
      rcases hnew k g' hs' with hs' | ⟨r', a', hr', ha', hg', hst', hl'⟩
    · exact h.once hs hs'
    · rw [hg']
      exact h.ready hs hr' hst' hl' ha'
    · rw [hg]
      exact (h.ready hs' hr hst hl ha).symm
    · obtain rfl : r = r' := Option.some.inj (hr.symm.trans hr')
      obtain rfl : a = a' := Option.some.inj (ha.symm.trans ha')
      rw [hg, hg']
  ready {k g r a} hs hr hst hl ha := by
    rcases hnew k g hs with hs | ⟨s, b, hsr, hb, hg, -, -⟩
    · exact h.ready hs hr hst hl ha
    · obtain rfl : r = s := Option.some.inj (hr.symm.trans hsr)
      obtain rfl : a = b := Option.some.inj (ha.symm.trans hb)
      exact hg
  fits := h.fits
  claimed := h.claimed
  buildFailed := h.buildFailed
  current := h.current

end Deployments

/-! ### Promotion -/

/-- Handed out and not yet claimed, or being deployed. -/
def RollingOut (stamp : Uuid → Nat → Prop) (k : Uuid) (r : Release) : Prop :=
  Waiting stamp k r ∨ r.status = .deploying

lemma RollingOut.not_building {k : Uuid} {r : Release} (h : RollingOut stamp k r) : r.status ≠ .building := by
  rcases h with h | h
  · exact h.not_building
  · rw [h]
    simp

lemma Undisturbed.waiting (h : Undisturbed (RollingOut stamp) v v') : Undisturbed (Waiting stamp) v v' :=
  fun _ _ _ _ hr hp => h hr (.inl hp)

structure Serving (v : ReleaseView) (stamp : Uuid → Nat → Prop) : Prop where
  deploying : ∀ {k g r a}, stamp k g → v.release k = some r → r.status = .deploying → v.Latest k →
    v.app r.applicationId = some a → g = a.desiredGeneration
  healthy : ∀ {k r a}, v.release k = some r → r.status = .healthy → v.Latest k →
    v.app r.applicationId = some a → a.currentReleaseId = some k

namespace Serving

lemma step_deploying (h : Serving v stamp) (hdep : Deployments v stamp) (hgen : Generations v stamp)
    (hwf : ReleaseWF v) (hstep : ReleaseStep now v e v') (hbump : Undisturbed (RollingOut stamp) v v')
    {k : Uuid} {g : Nat} {r' : Release} {a' : Application} (hs : stamp k g) (hr' : v'.release k = some r')
    (hst : r'.status = .deploying) (hl : v'.Latest k) (ha' : v'.app r'.applicationId = some a') :
    g = a'.desiredGeneration := by
  obtain ⟨r, hr, hd⟩ := hgen.release hs
  have hlv := hstep.latest_back hwf hr hd hl
  obtain ⟨s, hs', hmove⟩ := hstep.release_move hr
  obtain rfl : s = r' := Option.some.inj (hs'.symm.trans hr')
  rw [(Release.spec_eq.mp hmove.spec).2.1] at ha'
  obtain ⟨a, ha⟩ := hwf.releaseApp hr
  have hdeploying : r.status = .deploying → g = a'.desiredGeneration := by
    intro hold
    rw [hbump hr (.inr hold) hl ha ha']
    exact h.deploying hs hr hold hlv ha
  cases hmove with
  | same he => exact hdeploying (he ▸ hst)
  | deploy i i' hi _ hres _ _ _ hdp =>
    have hfit := hdep.fits hi (by rw [hres, hwf.releaseKey hr, hr])
    generalize s.status = t, i'.status = u at hdp hst
    cases hdp with
    | claim hc hne =>
      cases hrst : r.status with
      | deploying => exact hdeploying hrst
      | imageReady =>
        rw [hbump hr (.inl ⟨hrst, g, hs⟩) hl ha ha']
        exact hdep.ready hs hr hrst hlv ha
      | superseded => exact absurd hrst hne
      | deployFailed =>
        cases his : i.status <;> simp [his, hrst, IntentStatus.fits] at hfit
        simp [ExecutionIntent.claimable, his] at hc
      | healthy =>
        cases his : i.status <;> simp [his, hrst, IntentStatus.fits] at hfit
        simp [ExecutionIntent.claimable, his] at hc
      | _ => cases his : i.status <;> simp [his, hrst, IntentStatus.fits] at hfit
    | renew => exact hdeploying hst
    | healthy => cases hst
    | failed => cases hst
  | build _ hb =>
    generalize s.status = t, s.imageDigest = d at hb hst
    cases hb <;> cases hst
  | supersede n _ _ _ _ hsup =>
    rw [hst] at hsup
    cases hsup

lemma step_healthy (h : Serving v stamp) (hdep : Deployments v stamp) (hgen : Generations v stamp)
    (hwf : ReleaseWF v) (hstep : ReleaseStep now v e v') {k : Uuid} {r' : Release} {a' : Application}
    (hr' : v'.release k = some r') (hst : r'.status = .healthy) (hl : v'.Latest k)
    (ha' : v'.app r'.applicationId = some a') : a'.currentReleaseId = some k := by
  rcases (ReleaseRun.step hstep).release_origin hr' with ⟨r, hr, hmove⟩ | ⟨-, hnew⟩
  · rw [(Release.spec_eq.mp hmove.spec).2.1] at ha'
    obtain ⟨a, ha⟩ := hwf.releaseApp hr
    by_cases hold : r.status = .healthy
    · obtain ⟨k', i, hi, hres⟩ := hdep.claimed hr (by rw [hold]; rfl)
      obtain ⟨hd, -, -⟩ := hgen.not_built hwf (hres ▸ hgen.intent hi) hr
      have hlv := hstep.latest_back hwf hr hd hl
      have hcur := h.healthy hr hold hlv ha
      obtain ⟨b, hb, hamove⟩ := hstep.app_move ha
      obtain rfl : b = a' := Option.some.inj (hb.symm.trans ha')
      cases hamove with
      | same _ he => rw [he, hcur]
      | bump _ he => rw [he, hcur]
      | promote j q q' _ hj hq _ hjres happ _ _ htarget _ he =>
        -- what is promoted has the desired generation, and so is the latest release too
        have hs := hgen.intent hj
        rw [hjres, ← htarget] at hs
        have hqa : v.app q.applicationId = some a := by rw [happ, hwf.appKey ha, ha]
        have hql := hgen.latest hs hq hqa
        rw [he, hlv.unique hwf hql hr hq (by rw [happ, hwf.appKey ha])]
    · obtain ⟨i, hi, hres, hc, hpromote⟩ := hstep.becomes_healthy hwf hr hr' hold hst
      have hs := hgen.intent hi
      rw [hres] at hs
      obtain ⟨hd, -, -⟩ := hgen.not_built hwf hs hr
      have hlv := hstep.latest_back hwf hr hd hl
      have hdeploying : r.status = .deploying := by
        have hfit := hdep.fits hi (hres ▸ hr)
        rw [hc] at hfit
        cases hrst : r.status <;> simp [hrst, IntentStatus.fits] at hfit ⊢
      obtain ⟨b, hb, hcur⟩ := hpromote a ha (h.deploying hs hr hdeploying hlv ha).symm
      obtain rfl : b = a' := Option.some.inj (hb.symm.trans ha')
      exact hcur
  · simp [hst] at hnew

/-- Step lemma: nothing new is handed out, and no bump disturbs a rollout of the latest release. -/
lemma step (h : Serving v stamp) (hdep : Deployments v stamp) (hgen : Generations v stamp) (hwf : ReleaseWF v)
    (hstep : ReleaseStep now v e v') (hbump : Undisturbed (RollingOut stamp) v v') : Serving v' stamp where
  deploying hs hr hst hl ha := h.step_deploying hdep hgen hwf hstep hbump hs hr hst hl ha
  healthy hr hst hl ha := h.step_healthy hdep hgen hwf hstep hr hst hl ha

lemma scan (h : Serving v stamp)
    (hnew : ∀ k g, stamp' k g → stamp k g ∨ ∃ r a, v.release k = some r ∧ v.app r.applicationId = some a ∧
      g = a.desiredGeneration ∧ r.status = .imageReady ∧ v.Latest k) : Serving v stamp' where
  deploying {k g r a} hs hr hst hl ha := by
    rcases hnew k g hs with hs | ⟨s, b, hsr, hb, hg, -, -⟩
    · exact h.deploying hs hr hst hl ha
    · obtain rfl : r = s := Option.some.inj (hr.symm.trans hsr)
      obtain rfl : a = b := Option.some.inj (ha.symm.trans hb)
      exact hg
  healthy := h.healthy

end Serving

/-! ### Transactions -/

/-- Only the events that make a release ready for deployment bump a generation. -/
lemma ReleaseStep.generation_eq (hstep : ReleaseStep now v e v') (haccept : e ≠ .accept) (hbuilt : e ≠ .built) {k : Uuid}
    {a : Application} (ha : v.app k = some a) :
    ∃ a', v'.app k = some a' ∧ a'.desiredGeneration = a.desiredGeneration := by
  obtain ⟨a', ha', hmove⟩ := hstep.app_move ha
  refine ⟨a', ha', ?_⟩
  cases hmove with
  | same hgen _ => exact hgen
  | bump _ _ he => exact absurd he (not_or.mpr ⟨haccept, hbuilt⟩)
  | promote _ _ _ _ _ _ _ _ _ _ _ _ hgen _ => exact hgen

lemma ReleaseRun.undisturbed {P : Uuid → Release → Prop} (hrun : ReleaseRun now v e v') (haccept : e ≠ .accept)
    (hbuilt : e ≠ .built) : Undisturbed P v v' := by
  intro k r a a' _ _ _ ha ha'
  obtain ⟨b, hb, hgen⟩ := hrun.invariant
    (P := fun u => ∃ b, u.app r.applicationId = some b ∧ b.desiredGeneration = a.desiredGeneration)
    (fun u u' hs ⟨b, hb, hgen⟩ => (hs.generation_eq haccept hbuilt hb).imp fun _ h => ⟨h.1, h.2.trans hgen⟩)
    ⟨a, ha, rfl⟩
  exact Option.some.inj (hb.symm.trans ha') ▸ hgen

/-- What every step keeps that hands out nothing and disturbs no release with property `Q`, a transaction
keeps. -/
lemma ReleaseRun.invariant_stamped {P : ReleaseView → Prop} {Q : Uuid → Release → Prop}
    (hrun : ReleaseRun now v e v') (hwf : ReleaseWF v) (hgen : Generations v stamp)
    (hbump : Undisturbed Q v v')
    (hadm : ∀ k i, v.intent k = none → v'.intent k = some i → stamp i.resourceId i.targetGeneration)
    (hstep : ∀ {u u'}, ReleaseWF u → Generations u stamp → ReleaseStep now u e u' → Undisturbed Q u u' →
      (∀ k i, u.intent k = none → u'.intent k = some i → stamp i.resourceId i.targetGeneration) →
      P u → P u')
    (h : P v) : P v' := by
  cases hrun with
  | step hs => exact hstep hwf hgen hs hbump hadm h
  | requests hs =>
    refine (ReleaseRun.invariant (P := fun u => ReleaseWF u ∧ Generations u stamp ∧ P u) (.requests hs) ?_
      ⟨hwf, hgen, h⟩).2.2
    rintro u u' hu ⟨huwf, hugen, hp⟩
    have hnone : ∀ k i, u.intent k = none → u'.intent k = some i →
        stamp i.resourceId i.targetGeneration := by
      intro k i hk hk'
      obtain ⟨-, -, he, -⟩ := hu.new_intent hk hk'
      cases he
    exact ⟨hu.wf huwf, hugen.step huwf hu hnone, hstep huwf hugen hu
      ((ReleaseRun.step hu).undisturbed (by simp) (by simp)) hnone hp⟩

lemma Deployments.run (h : Deployments v stamp) (hgen : Generations v stamp) (hwf : ReleaseWF v)
    (hrun : ReleaseRun now v e v') (hbump : Undisturbed (Waiting stamp) v v')
    (hadm : ∀ k i, v.intent k = none → v'.intent k = some i → stamp i.resourceId i.targetGeneration) :
    Deployments v' stamp := by
  refine hrun.invariant_stamped (P := fun u => Deployments u stamp) hwf hgen hbump hadm ?_ h
  intro u u' hwf hgen hs hb ha hd
  exact hd.step hgen hwf hs hb ha

lemma Serving.run (h : Serving v stamp) (hdep : Deployments v stamp) (hgen : Generations v stamp)
    (hwf : ReleaseWF v) (hrun : ReleaseRun now v e v') (hbump : Undisturbed (RollingOut stamp) v v')
    (hadm : ∀ k i, v.intent k = none → v'.intent k = some i → stamp i.resourceId i.targetGeneration) :
    Serving v' stamp := by
  refine (hrun.invariant_stamped (P := fun u => Deployments u stamp ∧ Serving u stamp) hwf hgen hbump hadm ?_
    ⟨hdep, h⟩).2
  rintro u u' hwf hgen hs hb ha ⟨hd, hv⟩
  exact ⟨hd.step hgen hwf hs hb.waiting ha, hv.step hd hgen hwf hs hb⟩

end HamiCloud
