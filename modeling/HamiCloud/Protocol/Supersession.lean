import HamiCloud.Protocol.Rollout

/-!
# Supersession

A release is superseded by a deployable release with a higher number, before anybody has claimed it.
The finalising steps of the protocol do not look at the status of the release; that they never touch a
superseded one follows from what a live intent says about its release.
-/

namespace HamiCloud

/-- A deployable release of the same application has a higher number. -/
def ReleaseView.Outnumbered (v : ReleaseView) (r : Release) : Prop :=
  ∃ k n, v.release k = some n ∧ n.deployable = true ∧ n.applicationId = r.applicationId ∧
    r.releaseNumber < n.releaseNumber

structure Supersession (v : ReleaseView) : Prop where
  live : ∀ {k i}, v.intent k = some i → i.status = .claimed ∨ i.status = .applied →
    ∃ r, v.release i.resourceId = some r ∧ r.status.rolledOut = true
  outnumbered : ∀ {k r}, v.release k = some r → r.status = .superseded → v.Outnumbered r

variable {now : Time} {v v' : ReleaseView} {e : ReleaseEvent}

lemma ReleaseView.Outnumbered.step {r r' : Release} (h : v.Outnumbered r) (hwf : ReleaseWF v)
    (hstep : ReleaseStep now v e v') (hspec : r'.spec = r.spec) : v'.Outnumbered r' := by
  obtain ⟨k, n, hn, hd, happ, hlt⟩ := h
  obtain ⟨n', hn', hns, hd'⟩ := hstep.deployable_row hwf hn hd
  obtain ⟨-, hra, -, hrn, -⟩ := Release.spec_eq.mp hspec
  obtain ⟨-, hna, -, hnn, -⟩ := Release.spec_eq.mp hns
  exact ⟨k, n', hn', hd', hna.trans (happ.trans hra.symm), by omega⟩

/-- The status of a release becomes `SUPERSEDED` only while the release is outnumbered. -/
lemma ReleaseMove.superseded {r r' : Release} (h : ReleaseMove now v e v' r r')
    (hst : r'.status = .superseded) : r.status = .superseded ∨ v.Outnumbered r := by
  cases h with
  | same he => exact .inl (he ▸ hst)
  | deploy i i' _ _ _ _ _ _ hdep =>
    generalize r'.status = t, i'.status = s at hdep hst
    cases hdep with
    | claim => cases hst
    | renew => exact .inl hst
    | healthy => cases hst
    | failed => cases hst
  | build _ hb =>
    generalize r'.status = t, r'.imageDigest = d at hb hst
    cases hb <;> cases hst
  | supersede n _ _ _ _ _ hn hd happ hlt => exact .inr ⟨n.id, n, hn, hd, happ, hlt⟩

lemma ReleaseRun.superseded_origin (hrun : ReleaseRun now v e v') {k : Uuid} {r' : Release}
    (hk : v'.release k = some r') (hst : r'.status = .superseded) :
    ∃ r, v.release k = some r ∧ r'.spec = r.spec ∧ (r.status = .superseded ∨ v.Outnumbered r) := by
  rcases hrun.release_origin hk with ⟨r, hr, hmove⟩ | ⟨-, hnew⟩
  · exact ⟨r, hr, hmove.spec, hmove.superseded hst⟩
  · simp [hst] at hnew

namespace Supersession

lemma step (h : Supersession v) (hwf : ReleaseWF v) (hstep : ReleaseStep now v e v') : Supersession v' where
  live {k i'} hk hst := by
    rcases hstep.intent_origin hk with ⟨i, hi, -⟩ | ⟨-, -, -, -, hnew⟩
    · obtain ⟨s, hs, hmove⟩ := hstep.intent_move hi
      obtain rfl : s = i' := Option.some.inj (hs.symm.trans hk)
      have hkeep : i.status = .claimed ∨ i.status = .applied →
          ∃ r, v'.release s.resourceId = some r ∧ r.status.rolledOut = true := by
        intro hold
        obtain ⟨r, hr, hout⟩ := h.live hi hold
        obtain ⟨r', hr', hrmove⟩ := hstep.release_move hr
        rw [(ExecutionIntent.spec_eq.mp hmove.spec).2.2.1]
        exact ⟨r', hr', hrmove.rolledOut hout⟩
      cases hmove with
      | same he => exact hkeep (he ▸ hst)
      | deploy r r' hr hr' hres hspec _ hdep =>
        rw [(ExecutionIntent.spec_eq.mp hspec).2.2.1, hres]
        generalize hs' : s.status = st at hdep hst
        generalize ht : r'.status = t at hdep
        cases hdep with
        | claim => exact ⟨r', hr', by rw [ht]; rfl⟩
        | renew hc =>
          obtain ⟨q, hq, hout⟩ := hkeep (.inl hc)
          rw [(ExecutionIntent.spec_eq.mp hspec).2.2.1, hres] at hq
          exact ⟨q, hq, hout⟩
        | healthy => exact ⟨r', hr', by rw [ht]; rfl⟩
        | failed => simp at hst
      | withdraw r _ _ hterm => simp [hterm] at hst
    · simp [hnew.status] at hst
  outnumbered {k r'} hk hst := by
    obtain ⟨r, hr, hspec, hold⟩ := (ReleaseRun.step hstep).superseded_origin hk hst
    rcases hold with hold | hout
    · exact (h.outnumbered hr hold).step hwf hstep hspec
    · exact hout.step hwf hstep hspec

/-- A superseded release stays so: nobody holds a lease on an intent of it. -/
lemma final (h : Supersession v) (hwf : ReleaseWF v) (hstep : ReleaseStep now v e v') {k : Uuid} {r : Release}
    (hk : v.release k = some r) (hst : r.status = .superseded) :
    ∃ r', v'.release k = some r' ∧ r'.status = .superseded := by
  obtain ⟨r', hr', hmove⟩ := hstep.release_move hk
  refine ⟨r', hr', ?_⟩
  cases hmove with
  | same he => rw [he, hst]
  | deploy i i' hi _ hres _ _ _ hdep =>
    have hheld : i.status ≠ .claimed := by
      intro hc
      obtain ⟨s, hs, hout⟩ := h.live hi (.inl hc)
      rw [hres, hwf.releaseKey hk, hk] at hs
      rw [← Option.some.inj hs, hst] at hout
      cases hout
    generalize i'.status = s, r'.status = t at hdep
    cases hdep with
    | claim _ hne => exact absurd hst hne
    | renew hc => exact absurd hc hheld
    | healthy hc => exact absurd hc hheld
    | failed hc => exact absurd hc hheld
  | build _ hb =>
    generalize r'.status = t, r'.imageDigest = d at hb
    cases hb with
    | start hr _ => rw [hst] at hr; cases hr
    | built _ hr => rw [hst] at hr; cases hr
    | failed hr => rw [hst] at hr; cases hr
  | supersede n _ _ _ _ hsup => exact hsup

end Supersession

end HamiCloud
