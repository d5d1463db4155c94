import HamiCloud.Protocol.Generations

/-!
# Rollouts

What a transaction of the release protocol does to one release, to one intent and to one application,
with the rows on both sides of it. A release that has been claimed once is `DEPLOYING`, `HEALTHY` or
`DEPLOY_FAILED` from then on.
-/

namespace HamiCloud

variable {now : Time} {v v' : ReleaseView} {e : ReleaseEvent}

/-! ### Releases -/

inductive ReleaseMove (now : Time) (v : ReleaseView) (e : ReleaseEvent) (v' : ReleaseView) (r r' : Release) : Prop
  | same : r' = r → ReleaseMove now v e v' r r'
  | deploy (i i' : ExecutionIntent) : v.intent i.id = some i → v'.intent i.id = some i' →
      i.resourceId = r.id → i'.spec = i.spec → r'.spec = r.spec → r'.imageDigest = r.imageDigest →
      Deploy now i r e i'.status r'.status → ReleaseMove now v e v' r r'
  | build : r'.spec = r.spec → Build r e r'.status r'.imageDigest → ReleaseMove now v e v' r r'
  | supersede (n : Release) : e = .supersede → r'.spec = r.spec → r'.imageDigest = r.imageDigest →
      r.status = .imageReady ∨ r.status = .requested → r'.status = .superseded → v.release n.id = some n →
      n.deployable = true → n.applicationId = r.applicationId → r.releaseNumber < n.releaseNumber →
      ReleaseMove now v e v' r r'

lemma ReleaseStep.release_move (hstep : ReleaseStep now v e v') {k : Uuid} {r : Release}
    (hk : v.release k = some r) : ∃ r', v'.release k = some r' ∧ ReleaseMove now v e v' r r' := by
  have hsame : v'.release k = v.release k → ∃ r', v'.release k = some r' ∧ ReleaseMove now v e v' r r' :=
    fun he => ⟨r, he.trans hk, .same rfl⟩
  have hold : ∀ {s : Release}, v.release s.id = none → k ≠ s.id := by
    rintro s hnew rfl
    rw [hnew] at hk
    cases hk
  cases hstep with
  | scan => exact hsame rfl
  | createApp => exact hsame rfl
  | updateApp => exact hsame rfl
  | accept a a' s _ _ _ _ hnew => exact hsame (by simp [hold hnew])
  | request a s _ hnew => exact hsame (by simp [hold hnew])
  | supersede v' _ hrel _ =>
    rcases hrel k with he | ⟨s, s', n, hs, hs', hspec, hd, hst, hst', hn, hnd, hna, hlt⟩
    · exact hsame he
    · obtain rfl : r = s := Option.some.inj (hk.symm.trans hs)
      exact ⟨s', hs', .supersede n rfl hspec hd hst hst' hn hnd hna hlt⟩
  | admission => exact hsame rfl
  | deploy i i' s s' e hi hs hres hsi hss hd hdep =>
    by_cases hks : k = s.id
    · subst hks
      obtain rfl : r = s := Option.some.inj (hk.symm.trans hs)
      refine ⟨s', by simp [(Release.spec_eq.mp hss).1], .deploy i i' hi ?_ hres hsi hss hd hdep⟩
      simp [(ExecutionIntent.spec_eq.mp hsi).1]
    · exact hsame (by simp [(Release.spec_eq.mp hss).1, hks])
  | promote i i' s s' a a' hi hs _ hres _ hsi hss hd hc ha hst =>
    by_cases hks : k = s.id
    · subst hks
      obtain rfl : r = s := Option.some.inj (hk.symm.trans hs)
      refine ⟨s', by simp [(Release.spec_eq.mp hss).1], .deploy i i' hi ?_ hres hsi hss hd ?_⟩
      · simp [(ExecutionIntent.spec_eq.mp hsi).1]
      · rw [ha, hst]
        exact .healthy hc
    · exact hsame (by simp [(Release.spec_eq.mp hss).1, hks])
  | build s s' e hs hss hb =>
    by_cases hks : k = s.id
    · subst hks
      obtain rfl : r = s := Option.some.inj (hk.symm.trans hs)
      exact ⟨s', by simp [(Release.spec_eq.mp hss).1], .build hss hb⟩
    · exact hsame (by simp [(Release.spec_eq.mp hss).1, hks])
  | built s s' a a' hs hss hb =>
    by_cases hks : k = s.id
    · subst hks
      obtain rfl : r = s := Option.some.inj (hk.symm.trans hs)
      exact ⟨s', by simp [(Release.spec_eq.mp hss).1], .build hss hb⟩
    · exact hsame (by simp [(Release.spec_eq.mp hss).1, hks])

/-- The statuses of a release that an executor has claimed. -/
def ReleaseStatus.rolledOut : ReleaseStatus → Bool
  | .deploying => true
  | .healthy => true
  | .deployFailed => true
  | _ => false

lemma ReleaseMove.spec {r r' : Release} (h : ReleaseMove now v e v' r r') : r'.spec = r.spec := by
  cases h with
  | same he => rw [he]
  | deploy _ _ _ _ _ _ hs => exact hs
  | build hs => exact hs
  | supersede _ _ hs => exact hs

/-- A request for a build, and the creation of an intent, leave every release as it was. -/
lemma ReleaseMove.eq_of_insert {r r' : Release} (h : ReleaseMove now v e v' r r')
    (he : e = .request ∨ e = .admission) : r' = r := by
  cases h with
  | same hr => exact hr
  | deploy i i' _ _ _ _ _ _ hdep =>
    generalize r'.status = t, i'.status = s at hdep
    rcases he with rfl | rfl <;> cases hdep
  | build _ hb =>
    generalize r'.status = t, r'.imageDigest = d at hb
    rcases he with rfl | rfl <;> cases hb
  | supersede n hsup =>
    rw [hsup] at he
    simp at he

/-- A release without intents stays as it is before its image is there, unless its build goes on or ends
or it is superseded. -/
lemma ReleaseMove.from_unbuilt {r r' : Release} (h : ReleaseMove now v e v' r r')
    (hst : r.status = .requested ∨ r.status = .building)
    (hnone : ∀ i, v.intent i.id = some i → i.resourceId ≠ r.id) :
    r' = r ∨ r'.status = .building ∨ e = .built ∨ e = .buildFailed ∨ (e = .supersede ∧ r.status = .requested) := by
  cases h with
  | same he => exact .inl he
  | deploy i _ hi _ hres => exact absurd hres (hnone i hi)
  | supersede _ he _ _ hold =>
    rcases hst with hst | hst
    · exact .inr (.inr (.inr (.inr ⟨he, hst⟩)))
    · rw [hst] at hold
      rcases hold with hold | hold <;> cases hold
  | build _ hb =>
    generalize r'.status = t, r'.imageDigest = d at hb
    cases hb with
    | start => exact .inr (.inl rfl)
    | built => exact .inr (.inr (.inl rfl))
    | failed => exact .inr (.inr (.inr (.inl rfl)))

lemma ReleaseRun.release_move (hrun : ReleaseRun now v e v') {k : Uuid} {r : Release}
    (hk : v.release k = some r) : ∃ r', v'.release k = some r' ∧ ReleaseMove now v e v' r r' := by
  cases hrun with
  | step hstep => exact hstep.release_move hk
  | requests hsteps =>
    refine ⟨r, ReleaseRun.invariant (P := fun u => u.release k = some r) (.requests hsteps) ?_ hk, .same rfl⟩
    intro u u' hstep hu
    obtain ⟨r', hr', hmove⟩ := hstep.release_move hu
    rw [hr', hmove.eq_of_insert (.inl rfl)]

/-- Where a release row after a transaction comes from. -/
lemma ReleaseRun.release_origin (hrun : ReleaseRun now v e v') {k : Uuid} {r' : Release}
    (hk : v'.release k = some r') :
    (∃ r, v.release k = some r ∧ ReleaseMove now v e v' r r') ∨
      (v.release k = none ∧ ((e = .accept ∧ r'.status = .imageReady) ∨
        (r'.status = .requested ∧ r'.imageDigest = "pending" ∧ e = .request))) := by
  cases hold : v.release k with
  | some r =>
    obtain ⟨s, hs, hmove⟩ := hrun.release_move hold
    obtain rfl : s = r' := Option.some.inj (hs.symm.trans hk)
    exact .inl ⟨r, rfl, hmove⟩
  | none =>
    refine .inr ⟨rfl, ?_⟩
    cases hrun with
    | step hstep => exact (hstep.new_release hold hk).2.2.kind
    | requests hsteps =>
      refine ReleaseRun.invariant (P := fun u => ∀ s, u.release k = some s →
        (ReleaseEvent.request = .accept ∧ s.status = .imageReady) ∨
          (s.status = .requested ∧ s.imageDigest = "pending" ∧ ReleaseEvent.request = .request))
        (.requests hsteps) ?_ ?_ r' hk
      · intro u u' hstep hu s' hs'
        rcases hstep.release_origin hs' with ⟨s, hs, -⟩ | ⟨-, -, -, hnew⟩
        · obtain ⟨t, ht, hmove⟩ := hstep.release_move hs
          obtain rfl : t = s' := Option.some.inj (ht.symm.trans hs')
          rw [hmove.eq_of_insert (.inl rfl)]
          exact hu s hs
        · exact hnew.kind
      · intro s hs
        rw [hold] at hs
        cases hs

lemma ReleaseMove.rolledOut {r r' : Release} (h : ReleaseMove now v e v' r r')
    (hst : r.status.rolledOut = true) : r'.status.rolledOut = true := by
  cases h with
  | same he => rw [he]; exact hst
  | deploy i i' _ _ _ _ _ _ hdep =>
    generalize r'.status = t, i'.status = s at hdep
    cases hdep with
    | claim => rfl
    | renew => exact hst
    | healthy => rfl
    | failed => rfl
  | build _ hb =>
    generalize r'.status = t, r'.imageDigest = d at hb
    cases hb with
    | start hr _ => rw [hr] at hst; cases hst
    | built _ hr => rw [hr] at hst; cases hst
    | failed hr => rw [hr] at hst; cases hst
  | supersede n _ _ _ hr =>
    rcases hr with hr | hr <;> rw [hr] at hst <;> cases hst

/-! ### Intents -/

inductive IntentMove (now : Time) (v : ReleaseView) (e : ReleaseEvent) (v' : ReleaseView)
    (i i' : ExecutionIntent) : Prop
  | same : i' = i → IntentMove now v e v' i i'
  | deploy (r r' : Release) : v.release r.id = some r → v'.release r.id = some r' → i.resourceId = r.id →
      i'.spec = i.spec → r'.spec = r.spec → Deploy now i r e i'.status r'.status →
      IntentMove now v e v' i i'
  | withdraw (r : Release) : i'.spec = i.spec → i.status = .pending → i'.status = .terminated →
      v'.release i.resourceId = some r → r.status = .superseded → IntentMove now v e v' i i'

lemma ReleaseStep.intent_move (hstep : ReleaseStep now v e v') {k : Uuid} {i : ExecutionIntent}
    (hk : v.intent k = some i) : ∃ i', v'.intent k = some i' ∧ IntentMove now v e v' i i' := by
  have hsame : v'.intent k = v.intent k → ∃ i', v'.intent k = some i' ∧ IntentMove now v e v' i i' :=
    fun he => ⟨i, he.trans hk, .same rfl⟩
  cases hstep with
  | scan => exact hsame rfl
  | createApp => exact hsame rfl
  | updateApp => exact hsame rfl
  | accept => exact hsame rfl
  | request => exact hsame rfl
  | supersede v' _ _ hint =>
    rcases hint k with he | ⟨s, s', r, hs, hs', hspec, -, hp, hst, hr, hsup⟩
    · exact hsame he
    · obtain rfl : i = s := Option.some.inj (hk.symm.trans hs)
      exact ⟨s', hs', .withdraw r hspec hp hst hr hsup⟩
  | admission r s _ hnew =>
    have hne : k ≠ s.id := by
      rintro rfl
      rw [hnew] at hk
      cases hk
    exact hsame (by simp [hne])
  | deploy s s' r r' e hs hr hres hss hrs _ hdep =>
    by_cases hks : k = s.id
    · subst hks
      obtain rfl : i = s := Option.some.inj (hk.symm.trans hs)
      refine ⟨s', by simp [(ExecutionIntent.spec_eq.mp hss).1], .deploy r r' hr ?_ hres hss hrs hdep⟩
      simp [(Release.spec_eq.mp hrs).1]
    · exact hsame (by simp [(ExecutionIntent.spec_eq.mp hss).1, hks])
  | promote s s' r r' a a' hs hr _ hres _ hss hrs _ hc ha hst =>
    by_cases hks : k = s.id
    · subst hks
      obtain rfl : i = s := Option.some.inj (hk.symm.trans hs)
      refine ⟨s', by simp [(ExecutionIntent.spec_eq.mp hss).1], .deploy r r' hr ?_ hres hss hrs ?_⟩
      · simp [(Release.spec_eq.mp hrs).1]
      · rw [ha, hst]
        exact .healthy hc
    · exact hsame (by simp [(ExecutionIntent.spec_eq.mp hss).1, hks])
  | build => exact hsame rfl
  | built => exact hsame rfl

lemma IntentMove.spec {i i' : ExecutionIntent} (h : IntentMove now v e v' i i') : i'.spec = i.spec := by
  cases h with
  | same he => rw [he]
  | deploy _ _ _ _ _ hs => exact hs
  | withdraw _ hs => exact hs

/-! ### Applications -/

inductive AppMove (v : ReleaseView) (e : ReleaseEvent) (v' : ReleaseView) (a a' : Application) : Prop
  | same : a'.desiredGeneration = a.desiredGeneration → a'.currentReleaseId = a.currentReleaseId →
      AppMove v e v' a a'
  | bump : a'.desiredGeneration = a.desiredGeneration + 1 → a'.currentReleaseId = a.currentReleaseId →
      e = .accept ∨ e = .built → AppMove v e v' a a'
  | promote (i : ExecutionIntent) (r r' : Release) : e = .healthy i.id i.leaseEpoch →
      v.intent i.id = some i → v.release r.id = some r → v'.release r.id = some r' →
      i.resourceId = r.id → r.applicationId = a.id → i.status = .claimed → r'.status = .healthy →
      a.desiredGeneration = i.targetGeneration → a'.desiredGeneration = a.desiredGeneration →
      a'.currentReleaseId = some r.id → AppMove v e v' a a'

lemma ReleaseStep.app_move (hstep : ReleaseStep now v e v') {k : Uuid} {a : Application}
    (hk : v.app k = some a) : ∃ a', v'.app k = some a' ∧ AppMove v e v' a a' := by
  have hsame : v'.app k = v.app k → ∃ a', v'.app k = some a' ∧ AppMove v e v' a a' :=
    fun he => ⟨a, he.trans hk, .same rfl rfl⟩
  -- the step writes `b'` over `b`
  have hset : ∀ {b b' : Application}, v.app b.id = some b → b'.id = b.id → v'.app = (v.setApp b').app →
      (k = b.id → a = b → AppMove v e v' b b') → ∃ a', v'.app k = some a' ∧ AppMove v e v' a a' := by
    intro b b' hb hid happ hmove
    by_cases hkb : k = b.id
    · subst hkb
      obtain rfl : a = b := Option.some.inj (hk.symm.trans hb)
      exact ⟨b', by simp [happ, hid], hmove rfl rfl⟩
    · exact hsame (by simp [happ, hid, hkb])
  cases hstep with
  | scan => exact hsame rfl
  | createApp b hnew _ =>
    have hne : k ≠ b.id := by
      rintro rfl
      rw [hnew] at hk
      cases hk
    exact hsame (by simp [hne])
  | updateApp b b' hb hid hgen hcur => exact hset hb hid rfl (fun _ _ => .same hgen hcur)
  | accept b b' r hb hid hgen hcur => exact hset hb hid rfl (fun _ _ => .bump hgen hcur (.inl rfl))
  | request => exact hsame rfl
  | supersede v' happ => exact hsame (by rw [happ])
  | admission => exact hsame rfl
  | deploy => exact hsame rfl
  | promote i i' r r' b b' hi hr hb hres happ _ hrs _ hc _ hst _ htarget hid hgen hcur =>
    refine hset hb hid rfl (fun _ _ => .promote i r r' rfl hi hr ?_ hres happ hc hst htarget hgen hcur)
    simp [(Release.spec_eq.mp hrs).1]
  | build => exact hsame rfl
  | built r r' b b' _ _ _ hb _ hid hgen hcur => exact hset hb hid rfl (fun _ _ => .bump hgen hcur (.inr rfl))

lemma ReleaseStep.new_app (hstep : ReleaseStep now v e v') {k : Uuid} {a' : Application} (hk : v.app k = none)
    (hk' : v'.app k = some a') : a'.currentReleaseId = none := by
  have hnone : v.app k ≠ some a' := by simp [hk]
  have hset : ∀ {b b' : Application}, v.app b.id = some b → b'.id = b.id → (v.setApp b').app k ≠ some a' := by
    intro b b' hb hid
    have hne : k ≠ b.id := by
      rintro rfl
      rw [hk] at hb
      cases hb
    simpa [hid, hne] using hnone
  cases hstep with
  | createApp b _ hcur =>
    rw [ReleaseView.setApp_app, hk] at hk'
    split at hk'
    · rw [← Option.some.inj hk', hcur]
    · cases hk'
  | scan => exact absurd hk' hnone
  | updateApp b b' hb hid => exact absurd hk' (hset hb hid)
  | accept b b' r hb hid => exact absurd hk' (hset hb hid)
  | request => exact absurd hk' hnone
  | supersede v' happ => exact absurd (happ ▸ hk') hnone
  | admission => exact absurd hk' hnone
  | deploy => exact absurd hk' hnone
  | promote i i' r r' b b' _ _ hb _ _ _ _ _ _ _ _ _ _ hid => exact absurd hk' (hset hb hid)
  | build => exact absurd hk' hnone
  | built r r' b b' _ _ _ hb _ hid => exact absurd hk' (hset hb hid)

lemma Deploy.of_healthy {i : ExecutionIntent} {r : Release} {st : IntentStatus} {t : ReleaseStatus}
    (h : Deploy now i r e st t) (ht : t = .healthy) (hne : r.status ≠ .healthy) :
    i.status = .claimed ∧ e = .healthy i.id i.leaseEpoch := by
  cases h with
  | claim => cases ht
  | renew => exact absurd ht hne
  | healthy hc => exact ⟨hc, rfl⟩
  | failed => cases ht

/-- A release that becomes healthy has been claimed, and it becomes the current one if its intent has the
generation that the application desires. -/
lemma ReleaseStep.becomes_healthy (hstep : ReleaseStep now v e v') (hwf : ReleaseWF v) {k : Uuid}
    {r r' : Release} (hk : v.release k = some r) (hk' : v'.release k = some r') (hne : r.status ≠ .healthy)
    (hst : r'.status = .healthy) :
    ∃ i, v.intent i.id = some i ∧ i.resourceId = k ∧ i.status = .claimed ∧
      ∀ a, v.app r.applicationId = some a → a.desiredGeneration = i.targetGeneration →
        ∃ a', v'.app r.applicationId = some a' ∧ a'.currentReleaseId = some k := by
  have hrid := hwf.releaseKey hk
  obtain ⟨s, hs, hmove⟩ := hstep.release_move hk
  obtain rfl : s = r' := Option.some.inj (hs.symm.trans hk')
  cases hmove with
  | same he => exact absurd (he ▸ hst) hne
  | build _ hb =>
    generalize s.status = t, s.imageDigest = d at hb hst
    cases hb <;> cases hst
  | supersede n _ _ _ _ hsup =>
    rw [hst] at hsup
    cases hsup
  | deploy i i' hi _ hres _ _ _ hdep =>
    obtain ⟨hc, he⟩ := hdep.of_healthy hst hne
    refine ⟨i, hi, hres.trans hrid, hc, fun a ha htarget => ?_⟩
    cases hstep with
    | deploy j j' q q' _ hj hq hjres _ _ _ hjdep _ hnot =>
      generalize j'.status = st, q'.status = t at hjdep
      rw [he] at hnot
      cases hjdep with
      | claim => cases he
      | renew => cases he
      | failed => cases he
      | healthy =>
        obtain ⟨hid, hep⟩ := ReleaseEvent.healthy.inj he
        rw [hid, hi] at hj
        obtain rfl := Option.some.inj hj
        rw [← hjres, hres, hrid, hk] at hq
        obtain rfl := Option.some.inj hq
        exact absurd htarget (hnot a ha rfl)
    | promote j j' q q' b b' hj hq hb hjres happ _ _ _ _ _ _ _ _ hbid _ hcur =>
      obtain ⟨hid, hep⟩ := ReleaseEvent.healthy.inj he
      rw [hid, hi] at hj
      obtain rfl := Option.some.inj hj
      rw [← hjres, hres, hrid, hk] at hq
      obtain rfl := Option.some.inj hq
      exact ⟨b', by simp [happ, hbid], by rw [hcur, hrid]⟩
    | scan =>
      obtain rfl : r = s := Option.some.inj (hk.symm.trans hk')
      exact absurd hst hne
    | build q q' _ _ _ hb =>
      generalize q'.status = t, q'.imageDigest = d at hb
      rw [he] at hb
      cases hb
    | _ => cases he

end HamiCloud
