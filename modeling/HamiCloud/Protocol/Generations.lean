import HamiCloud.Protocol.Releases

/-!
# Generations

A scan hands out a release together with the generation its application desires at that moment, and an
intent may be created from the scanned row at any later time. `stamp k g` says that release `k` has been
handed out for generation `g`. Every step that adds a deployable release also bumps the generation, so a
generation is only ever handed out for one release of an application.
-/

namespace HamiCloud

section Latest

variable {now : Time} {v v' : ReleaseView} {e : ReleaseEvent}

/-- An application has one latest release. -/
lemma ReleaseView.Latest.unique (hwf : ReleaseWF v) {k k' : Uuid} {r r' : Release} (h : v.Latest k)
    (h' : v.Latest k') (hr : v.release k = some r) (hr' : v.release k' = some r')
    (happ : r.applicationId = r'.applicationId) : k = k' := by
  obtain ⟨s, hs, hd, hmax⟩ := h
  obtain ⟨s', hs', hd', hmax'⟩ := h'
  obtain rfl : r = s := Option.some.inj (hr.symm.trans hs)
  obtain rfl : r' = s' := Option.some.inj (hr'.symm.trans hs')
  have hle := hmax k' r' hr' happ.symm hd'
  have hle' := hmax' k r hr happ hd
  exact hwf.numberUnique hr hr' happ (le_antisymm hle' hle)

/-- The latest release stays the latest while the generation of its application stays the same. -/
lemma ReleaseStep.latest_keep (hstep : ReleaseStep now v e v') (hwf : ReleaseWF v) {k : Uuid} {r : Release}
    {a a' : Application} (hr : v.release k = some r) (h : v.Latest k) (ha : v.app r.applicationId = some a)
    (ha' : v'.app r.applicationId = some a') (hgen : a'.desiredGeneration = a.desiredGeneration) :
    v'.Latest k := by
  obtain ⟨s, hs, hd, hmax⟩ := h
  obtain rfl : r = s := Option.some.inj (hr.symm.trans hs)
  obtain ⟨r', hr', hspec, hd'⟩ := hstep.deployable_row hwf hr hd
  obtain ⟨-, happ, -, hnum, -⟩ := Release.spec_eq.mp hspec
  refine ⟨r', hr', hd', fun k' t ht hta htd => ?_⟩
  rw [happ] at hta
  rcases hstep.deployable_origin ht htd with ⟨u, hu, hus, hud⟩ | ⟨b, b', hb, hb', hbump⟩
  · obtain ⟨-, huapp, -, hunum, -⟩ := Release.spec_eq.mp hus
    rw [hunum, hnum]
    exact hmax k' u hu (huapp.symm.trans hta) hud
  · rw [hta, ha] at hb
    rw [hta, ha'] at hb'
    rw [← Option.some.inj hb, ← Option.some.inj hb', hgen] at hbump
    omega

/-- A deployable release that is the latest after a step was so before. -/
lemma ReleaseStep.latest_back (hstep : ReleaseStep now v e v') (hwf : ReleaseWF v) {k : Uuid} {r : Release}
    (hr : v.release k = some r) (hd : r.deployable = true) (h : v'.Latest k) : v.Latest k := by
  obtain ⟨r', hr', -, hmax⟩ := h
  obtain ⟨s, hs, hspec, -⟩ := hstep.deployable_row hwf hr hd
  obtain rfl : r' = s := Option.some.inj (hr'.symm.trans hs)
  obtain ⟨-, happ, -, hnum, -⟩ := Release.spec_eq.mp hspec
  refine ⟨r, hr, hd, fun k' t ht hta htd => ?_⟩
  obtain ⟨t', ht', htspec, htd'⟩ := hstep.deployable_row hwf ht htd
  obtain ⟨-, htapp, -, htnum, -⟩ := Release.spec_eq.mp htspec
  rw [← hnum, ← htnum]
  exact hmax k' t' ht' (htapp.trans (hta.trans happ.symm)) htd'

end Latest

structure Generations (v : ReleaseView) (stamp : Uuid → Nat → Prop) : Prop where
  release : ∀ {k g}, stamp k g → ∃ r, v.release k = some r ∧ r.deployable = true
  intent : ∀ {k i}, v.intent k = some i → stamp i.resourceId i.targetGeneration
  le : ∀ {k g r a}, stamp k g → v.release k = some r → v.app r.applicationId = some a →
    g ≤ a.desiredGeneration
  latest : ∀ {k r a}, stamp k a.desiredGeneration → v.release k = some r →
    v.app r.applicationId = some a → v.Latest k
  unique : ∀ {k k' g r r'}, stamp k g → stamp k' g → v.release k = some r → v.release k' = some r' →
    r.applicationId = r'.applicationId → k = k'

namespace Generations

variable {now : Time} {v v' : ReleaseView} {e : ReleaseEvent} {stamp stamp' : Uuid → Nat → Prop}

/-- Step lemma: nothing new is handed out, and an intent is created from what has been. -/
lemma step (h : Generations v stamp) (hwf : ReleaseWF v) (hstep : ReleaseStep now v e v')
    (hadm : ∀ k i, v.intent k = none → v'.intent k = some i → stamp i.resourceId i.targetGeneration) :
    Generations v' stamp := by
  -- a stamped release with its row and its application before the step
  have hback : ∀ {k g r'}, stamp k g → v'.release k = some r' → ∃ r a, v.release k = some r ∧
      r.deployable = true ∧ r'.applicationId = r.applicationId ∧ v.app r.applicationId = some a := by
    intro k g r' hs hr'
    obtain ⟨r, hr, hd⟩ := h.release hs
    obtain ⟨s, hs', hspec, -⟩ := hstep.deployable_row hwf hr hd
    obtain rfl : s = r' := Option.some.inj (hs'.symm.trans hr')
    obtain ⟨a, ha⟩ := hwf.releaseApp hr
    exact ⟨r, a, hr, hd, (Release.spec_eq.mp hspec).2.1, ha⟩
  constructor
  · intro k g hs
    obtain ⟨r, hr, hd⟩ := h.release hs
    obtain ⟨r', hr', -, hd'⟩ := hstep.deployable_row hwf hr hd
    exact ⟨r', hr', hd'⟩
  · intro k i' hi'
    cases hi : v.intent k with
    | none => exact hadm k i' hi hi'
    | some i =>
      obtain ⟨s, hs, hch⟩ := hstep.intent_row hi
      obtain rfl : s = i' := Option.some.inj (hs.symm.trans hi')
      obtain ⟨-, -, hres, hgen, -⟩ := ExecutionIntent.spec_eq.mp hch.spec
      rw [hres, hgen]
      exact h.intent hi
  · intro k g r' a' hs hr' ha'
    obtain ⟨r, a, hr, -, happ, ha⟩ := hback hs hr'
    obtain ⟨b, hb, -, hle⟩ := hstep.app_row ha
    rw [happ, hb] at ha'
    rw [← Option.some.inj ha']
    exact (h.le hs hr ha).trans hle
  · intro k r' a' hs hr' ha'
    obtain ⟨r, a, hr, -, happ, ha⟩ := hback hs hr'
    obtain ⟨b, hb, -, hle⟩ := hstep.app_row ha
    rw [happ, hb] at ha'
    obtain rfl := Option.some.inj ha'
    -- the stamp is not above the old generation, so the generation was not bumped
    have hgen : b.desiredGeneration = a.desiredGeneration := le_antisymm (h.le hs hr ha) hle
    exact hstep.latest_keep hwf hr (h.latest (hgen ▸ hs) hr ha) ha hb hgen
  · intro k k' g r r' hs hs' hr hr' happ
    obtain ⟨t, -, ht, -, hta, -⟩ := hback hs hr
    obtain ⟨t', -, ht', -, hta', -⟩ := hback hs' hr'
    exact h.unique hs hs' ht ht' (hta.symm.trans (happ.trans hta'))

/-- A scan hands out the latest release of an application for the generation it desires. -/
lemma scan (h : Generations v stamp) (hwf : ReleaseWF v)
    (hnew : ∀ k g, stamp' k g → stamp k g ∨ ∃ r a, v.release k = some r ∧ v.app r.applicationId = some a ∧
      g = a.desiredGeneration ∧ v.Latest k) (hold : ∀ k g, stamp k g → stamp' k g) :
    Generations v stamp' := by
  have hlatest : ∀ {k g r a}, stamp' k g → v.release k = some r → v.app r.applicationId = some a →
      g ≤ a.desiredGeneration ∧ (g = a.desiredGeneration → v.Latest k) := by
    intro k g r a hs hr ha
    rcases hnew k g hs with hs | ⟨s, b, hsr, hb, rfl, hl⟩
    · exact ⟨h.le hs hr ha, fun hg => h.latest (hg ▸ hs) hr ha⟩
    · obtain rfl : r = s := Option.some.inj (hr.symm.trans hsr)
      obtain rfl : a = b := Option.some.inj (ha.symm.trans hb)
      exact ⟨le_rfl, fun _ => hl⟩
  constructor
  · intro k g hs
    rcases hnew k g hs with hs | ⟨r, a, hr, -, -, s, hs, hd, -⟩
    · exact h.release hs
    · exact ⟨s, hs, hd⟩
  · intro k i hi
    exact hold _ _ (h.intent hi)
  · intro k g r a hs hr ha
    exact (hlatest hs hr ha).1
  · intro k r a hs hr ha
    exact (hlatest hs hr ha).2 rfl
  · intro k k' g r r' hs hs' hr hr' happ
    -- unless both are old, the generation is the desired one, and both are the latest release
    have hdesired : ∀ {k k' r r'}, stamp' k g → stamp' k' g → v.release k = some r → v.release k' = some r' →
        r.applicationId = r'.applicationId → ¬stamp k g → k = k' := by
      intro k k' r r' hs hs' hr hr' happ hnot
      rcases hnew k g hs with hs | ⟨s, a, hsr, ha, hg, hl⟩
      · exact absurd hs hnot
      · obtain rfl : r = s := Option.some.inj (hr.symm.trans hsr)
        exact hl.unique hwf ((hlatest hs' hr' (happ ▸ ha)).2 hg) hr hr' happ
    by_cases hk : stamp k g
    · by_cases hk' : stamp k' g
      · exact h.unique hk hk' hr hr' happ
      · exact (hdesired hs' hs hr' hr happ.symm hk').symm
    · exact hdesired hs hs' hr hr' happ hk

/-- A transaction that adds no intent, or one created from what has been handed out. -/
lemma run (h : Generations v stamp) (hwf : ReleaseWF v) (hrun : ReleaseRun now v e v')
    (hadm : ∀ k i, v.intent k = none → v'.intent k = some i → stamp i.resourceId i.targetGeneration) :
    Generations v' stamp := by
  cases hrun with
  | step hstep => exact h.step hwf hstep hadm
  | requests hsteps =>
    refine (ReleaseRun.invariant (P := fun u => ReleaseWF u ∧ Generations u stamp) (.requests hsteps)
      (fun u u' hs hu => ⟨hs.wf hu.1, hu.2.step hu.1 hs fun k i hk hk' => ?_⟩) ⟨hwf, h⟩).2
    obtain ⟨-, -, he, -⟩ := hs.new_intent hk hk'
    cases he

end Generations

end HamiCloud
