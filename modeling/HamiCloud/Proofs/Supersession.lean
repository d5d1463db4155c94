import HamiCloud.Protocol.Supersession
import HamiCloud.Proofs.WorldInvariant

/-!
# Supersession in runs of the system

Scheduler passes supersede older releases while executors, builds and requests go on, and a scheduler with
an old snapshot may still create an intent for a release that has meanwhile been superseded.
-/

namespace HamiCloud.Proofs

open Library

variable {cfg : Settings} {w w' : World}

/-- An invariant of the steps of the release protocol, in every run of the system. -/
lemma reach_release_invariant {P : ReleaseView → Prop} {C : World → Action → Prop}
    (hinit : P (releaseView World.init.db))
    (hstep : ∀ now v e v', ReleaseWF v → ReleaseStep now v e v' → P v → P v')
    (h : (system cfg).Reach C w) : P (releaseView w.db) := by
  refine (h.invariant (P := fun u => WorldOK u ∧ P (releaseView u.db)) ⟨worldOK_init, hinit⟩ ?_).2
  rintro u a u' ⟨hu, hp⟩ - hs
  refine ⟨hu.step hs, ?_⟩
  refine ((service_side hu hs).invariant (P := fun v => ReleaseWF v ∧ P v) ?_ ⟨hu.releases, hp⟩).2
  rintro v v' hv ⟨hwf, hpv⟩
  exact ⟨hv.wf hwf, hstep _ v _ v' hwf hv hpv⟩

lemma reach_supersession {C : World → Action → Prop} (h : (system cfg).Reach C w) :
    Supersession (releaseView w.db) := by
  refine reach_release_invariant ?_ (fun now v e v' hwf hs hv => hv.step hwf hs) h
  constructor <;> intros <;> simp_all [releaseView, World.init, Db.empty]

lemma path_superseded {C : World → Action → Prop} {k : Uuid} {r : Release} (hr : (system cfg).Reachable w)
    (hpath : (system cfg).Path C w w') (hk : w.db.releases.get k = some r) (hst : r.status = .superseded) :
    ∃ r', w'.db.releases.get k = some r' ∧ r'.status = .superseded := by
  refine (hpath.invariant (P := fun u => (system cfg).Reachable u ∧
    ∃ r', u.db.releases.get k = some r' ∧ r'.status = .superseded) ⟨hr, r, hk, hst⟩ ?_).2
  rintro u a u' ⟨hu, s, hs, hsup⟩ - hstep
  refine ⟨.tail a hu trivial hstep, ?_⟩
  have hok := reach_ok hu
  refine ((service_side hok hstep).invariant (P := fun v => ReleaseWF v ∧ Supersession v ∧
    ∃ r', v.release k = some r' ∧ r'.status = .superseded) ?_
    ⟨hok.releases, reach_supersession hu, s, hs, hsup⟩).2.2
  rintro v v' hv ⟨hwf, hsv, t, ht, htsup⟩
  exact ⟨hv.wf hwf, hsv.step hwf hv, hsv.final hwf hv ht htsup⟩

/-- A release becomes `SUPERSEDED` only while its application has a deployable release with a higher
number, so the highest one never does; it then stays so, and none of its intents is claimed or applied. -/
theorem supersession_sound_final (cfg : Settings) {w : World} (hr : (system cfg).Reachable w) :
    (∀ a w' k r', (system cfg).step w a = some w' → w'.db.releases.get k = some r' →
      r'.status = .superseded → ∃ r, w.db.releases.get k = some r ∧ (r.status = .superseded ∨
        ∃ k' n, w.db.releases.get k' = some n ∧ n.deployable = true ∧ n.applicationId = r.applicationId ∧
          r.releaseNumber < n.releaseNumber)) ∧
    (∀ k r, w.db.releases.get k = some r → r.deployable = true →
      maxDeployable w.db.releases r.applicationId = some r.releaseNumber → r.status ≠ .superseded) ∧
    (∀ w' k r, (system cfg).Path (fun _ _ => True) w w' → w.db.releases.get k = some r →
      r.status = .superseded → ∃ r', w'.db.releases.get k = some r' ∧ r'.status = .superseded) ∧
    (∀ k i r, w.db.releaseIntents.get k = some i → w.db.releases.get i.resourceId = some r →
      r.status = .superseded → i.status ≠ .claimed ∧ i.status ≠ .applied) := by
  have hsup := reach_supersession hr
  refine ⟨?_, ?_, ?_, ?_⟩
  · intro a w' k r' hstep hk hst
    obtain ⟨r, hrel, -, hold⟩ := (service_side (reach_ok hr) hstep).superseded_origin hk hst
    exact ⟨r, hrel, hold⟩
  · intro k r hk hd hmax hst
    obtain ⟨k', n, hn, hnd, happ, hlt⟩ := hsup.outnumbered hk hst
    have hle := (maxDeployable_eq_some.mp hmax).2 k' n hn happ hnd
    omega
  · intro w' k r hpath hk hst
    exact path_superseded hr hpath hk hst
  · intro k i r hi hrel hst
    have hdead : ¬(i.status = .claimed ∨ i.status = .applied) := by
      intro hlive
      obtain ⟨s, hs, hout⟩ := hsup.live hi hlive
      obtain rfl : s = r := Option.some.inj (hs.symm.trans hrel)
      rw [hst] at hout
      cases hout
    exact not_or.mp hdead

/-- The first release is superseded by the second; a pass with an old snapshot then creates an intent
for it. -/
def supersededRun : (system Settings.default).FreeRun where
  labels :=
    [.service (.createApplication 100 ⟨"shop", none, none⟩),
      .service (.deployRelease 0 ⟨"quay.io/shop:1", ⟨8080, "/"⟩⟩), .service (.selectUnadmittedReleases 50),
      .service (.deployRelease 0 ⟨"quay.io/shop:2", ⟨8080, "/"⟩⟩), .service .supersedeReleases,
      .service (.createServiceReleaseIntent ⟨2, 0, 100, 1, "quay.io/shop:1", ⟨8080, "/"⟩, 2⟩)]
  executes := by decide +kernel

/-- Nobody can claim the intent of a superseded release. -/
theorem supersession_sound_final_stale_intent : ∃ w i r, (system Settings.default).Reachable w ∧
    w.db.releaseIntents.get 5 = some i ∧ i.status = .pending ∧ w.db.releases.get i.resourceId = some r ∧
    r.status = .superseded ∧
    ∀ w', (system Settings.default).Path (fun _ _ => True) w w' →
      ∃ r', w'.db.releases.get i.resourceId = some r' ∧ r'.status = .superseded := by
  have hrow : (supersededRun.final.db.releaseIntents.get 5).map (fun i =>
      (i.status, (supersededRun.final.db.releases.get i.resourceId).map Release.status)) =
      some (.pending, some .superseded) := by decide +kernel
  obtain ⟨i, hi, he⟩ := Option.map_eq_some_iff.mp hrow
  obtain ⟨hist, hrst⟩ := Prod.mk.inj he
  obtain ⟨r, hrel, hst⟩ := Option.map_eq_some_iff.mp hrst
  exact ⟨_, i, r, supersededRun.reachable, hi, hist, hrel, hst, fun w' hpath =>
    (supersession_sound_final Settings.default supersededRun.reachable).2.2.1 w' i.resourceId r hpath hrel hst⟩

end HamiCloud.Proofs
