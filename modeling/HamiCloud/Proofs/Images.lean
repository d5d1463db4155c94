import HamiCloud.Protocol.Rollout
import HamiCloud.Proofs.Generations

/-!
# Releases without an image

A release that is ready for deployment, being deployed or serving should name an image. `rollback_release`
copies the digest of its target whatever the state of the target, so a rollback to a release whose build
is still outstanding (or has failed) creates a ready release with the digest `pending`.
-/

namespace HamiCloud

variable {now : Time} {v v' : ReleaseView} {e : ReleaseEvent}

/-- A release that becomes ready for deployment has been accepted as such or has been built. -/
lemma ReleaseRun.ready_origin (hrun : ReleaseRun now v e v') {k : Uuid} {r' : Release}
    (hk : v'.release k = some r') (hst : r'.status = .imageReady) :
    (∃ r, v.release k = some r ∧ r.status = .imageReady ∧ r'.imageDigest = r.imageDigest) ∨
      e = .accept ∨ e = .built := by
  rcases hrun.release_origin hk with ⟨r, hr, hmove⟩ | ⟨-, hnew⟩
  · cases hmove with
    | same he => exact .inl ⟨r, hr, he ▸ hst, by rw [he]⟩
    | deploy i i' _ _ _ _ _ hd hdep =>
      generalize r'.status = t, i'.status = u at hdep hst
      cases hdep with
      | claim => cases hst
      | renew => exact .inl ⟨r, hr, hst, hd⟩
      | healthy => cases hst
      | failed => cases hst
    | build _ hb =>
      generalize r'.status = t, r'.imageDigest = d at hb hst
      cases hb with
      | start => cases hst
      | built => exact .inr (.inr rfl)
      | failed => cases hst
    | supersede n _ _ _ _ hsup => simp [hst] at hsup
  · rcases hnew with ⟨he, -⟩ | ⟨hreq, -⟩
    · exact .inr (.inl he)
    · simp [hst] at hreq

/-- A release that is claimed or becomes healthy belongs to an intent, and so has an image. -/
lemma ReleaseRun.rollout_origin {stamp : Uuid → Nat → Prop} (hgen : Generations v stamp) (hwf : ReleaseWF v)
    (hrun : ReleaseRun now v e v') {k : Uuid} {r' : Release} (hk : v'.release k = some r')
    (hst : r'.status = .deploying ∨ r'.status = .healthy) :
    r'.deployable = true ∨ ∃ r, v.release k = some r ∧ (r.status = .deploying ∨ r.status = .healthy) ∧
      r'.imageDigest = r.imageDigest := by
  rcases hrun.release_origin hk with ⟨r, hr, hmove⟩ | ⟨-, hnew⟩
  · cases hmove with
    | same he => exact .inr ⟨r, hr, he ▸ hst, by rw [he]⟩
    | deploy i i' hi _ hres _ _ hd _ =>
      obtain ⟨t, ht, htd⟩ := hgen.release (hgen.intent hi)
      rw [hres, hwf.releaseKey hr, hr] at ht
      rw [← Option.some.inj ht] at htd
      exact .inl (by simpa [Release.deployable, hd] using htd)
    | build _ hb =>
      generalize r'.status = t, r'.imageDigest = d at hb hst
      cases hb <;> simp at hst
    | supersede n _ _ _ _ hsup => simp [hsup] at hst
  · rcases hnew with ⟨-, hready⟩ | ⟨hreq, -⟩
    · simp [hready] at hst
    · simp [hreq] at hst

end HamiCloud

namespace HamiCloud.Proofs

open Library

variable {cfg : Settings} {w w' : World} {a : Action}

/-- The statuses that count as a deployed service come with an image. -/
def HasImages (db : Db) : Prop :=
  ∀ k r, db.releases.get k = some r → r.status ∈ activeServiceReleaseStatuses → r.imageDigest ≠ "pending"

/-- Every request and every build that makes a release ready names an image for it. -/
def namesImage (w : World) : Action → Bool
  | .service (.deployRelease _ payload) => payload.imageDigest ≠ "pending"
  | .service (.rollbackRelease _ target) => (w.db.releases.get target).all (fun r => r.imageDigest ≠ "pending")
  | .service (.markBuildSucceeded _ digest) => digest ≠ "pending"
  | _ => true

lemma acceptRelease_image {db db' : Db} {app : Application} {digest : String} {config : ReleaseConfig}
    {rollbackOf : Option Uuid} (h : acceptRelease cfg db app digest config rollbackOf = .ok db')
    (hd : digest ≠ "pending") (himg : HasImages db) : HasImages db' := by
  obtain ⟨db₁, r, releases, events, -, -, -, hdigest, -, -, hins, rfl⟩ := acceptRelease_inv h
  intro k s hs hst
  rcases Table.get_insert_cases hins hs with hold | ⟨-, rfl⟩
  · exact himg k s hold hst
  · rw [hdigest]
    exact hd

lemma service_images {db db' : Db} {c c' : ServiceClients} {b : ServiceAction}
    (h : serviceStep cfg db c b = some (db', c')) (he : releaseEvent b = .accept ∨ releaseEvent b = .built)
    (hguard : namesImage ⟨db, w.jobs, c⟩ (.service b) = true) (himg : HasImages db) : HasImages db' := by
  cases b with
  | deployRelease app payload =>
    obtain ⟨a, -, hacc⟩ := deployRelease_inv (commit_inv h).1
    exact acceptRelease_image hacc (of_decide_eq_true hguard) himg
  | rollbackRelease app target =>
    obtain ⟨a, t, -, ht, hacc⟩ := rollbackRelease_inv (commit_inv h).1
    simp only [namesImage, ht, Option.all_some, decide_eq_true_eq] at hguard
    exact acceptRelease_image hacc hguard himg
  | markBuildSucceeded task digest =>
    obtain ⟨r, events, hr, -, rfl⟩ := markBuildSucceeded_inv (held_commit_inv h).2.1
    intro k s hs hst
    rw [Table.get_set] at hs
    split at hs
    · obtain ⟨t, -, rfl⟩ := Option.map_eq_some_iff.mp hs
      exact of_decide_eq_true hguard
    · exact himg k s hs hst
  | _ => simp [releaseEvent] at he

lemma step_images (hw : WorldOK w) (hgen : Generations (releaseView w.db) (Stamped w.services))
    (hstep : (system cfg).step w a = some w') (hguard : namesImage w a = true) (himg : HasImages w.db) :
    HasImages w'.db := by
  by_cases he : Action.releaseEvent a = .accept ∨ Action.releaseEvent a = .built
  · rcases step_cases hstep with ⟨d, rfl, rfl⟩ | ⟨b, db', c', rfl, -, -⟩ | ⟨b, db', c', rfl, hserv, rfl⟩
    · exact himg
    · simp [Action.releaseEvent] at he
    · exact service_images (w := w) hserv he hguard himg
  · intro k r' hk hst
    have hrun := service_side hw hstep
    simp only [activeServiceReleaseStatuses, List.mem_cons, List.not_mem_nil, or_false] at hst
    rcases hst with hready | hout
    · rcases hrun.ready_origin hk hready with ⟨r, hr, hrst, hd⟩ | hev
      · rw [hd]
        exact himg k r hr (by simp [activeServiceReleaseStatuses, hrst])
      · exact absurd hev he
    · rcases hrun.rollout_origin hgen hw.releases hk hout with hd | ⟨r, hr, hrst, hd⟩
      · simpa [Release.deployable] using hd
      · rw [hd]
        exact himg k r hr (by rcases hrst with h | h <;> simp [activeServiceReleaseStatuses, h])

/-- When every rollback goes to a release with an image, and no deployment request or build gives the
literal `pending` for one, a release that is ready, being deployed or serving has an image. -/
theorem active_releases_have_images (cfg : Settings) {w : World}
    (hr : (system cfg).Reach (fun w a => namesImage w a = true) w) : HasImages w.db := by
  refine (hr.invariant (P := fun u => HasImages u.db ∧ (system cfg).Reachable u) ⟨?_, .refl _⟩ ?_).1
  · intro k r hk
    cases hk
  · rintro u a u' ⟨himg, hu⟩ hguard hstep
    exact ⟨step_images (reach_ok hu) (reach_generations hu) hstep hguard himg, .tail a hu trivial hstep⟩

/-- A build is requested. -/
def buildRequested : List Action :=
  [.service (.createRepository 100), .service (.createApplication 100 ⟨"shop", some 0, none⟩),
    .service (.triggerBuild 1 ⟨some "abc1234", "main", none, none⟩)]

/-- The build finishes, and a rollback copies its image. -/
def rollbackRun : (system Settings.default).Run namesImage where
  labels := buildRequested ++
    [.service (.claimNextBuildRelease [] []),
      .service (.markBuildSucceeded ⟨3, 1, 100, 1, 0, "abc1234", "main"⟩ "sha256:1"),
      .service (.rollbackRelease 1 3)]
  executes := by decide +kernel

theorem active_releases_have_images_rollback : ∃ w, (system Settings.default).Reach
      (fun w a => namesImage w a = true) w ∧
    (w.db.releases.get 5).map Release.status = some .imageReady ∧ HasImages w.db :=
  ⟨rollbackRun.final, rollbackRun.reach, by decide +kernel,
    active_releases_have_images Settings.default rollbackRun.reach⟩

/-- A rollback to the requested release before its build has started, which copies the placeholder of its image. -/
def earlyRollbackRun : (system Settings.default).FreeRun where
  labels := buildRequested ++ [.service (.rollbackRelease 1 3)]
  executes := by decide +kernel

/-- A rollback to a release whose build is outstanding is ready for deployment without an image. -/
theorem rollback_to_requested_has_no_image : ∃ w, (system Settings.default).Reachable w ∧ ¬HasImages w.db := by
  refine ⟨_, earlyRollbackRun.reachable, fun himg => ?_⟩
  have hrow : (earlyRollbackRun.final.db.releases.get 5).map (fun r => (r.status, r.imageDigest)) =
      some (.imageReady, "pending") := by decide +kernel
  obtain ⟨r, hr, he⟩ := Option.map_eq_some_iff.mp hrow
  obtain ⟨hst, hd⟩ := Prod.mk.inj he
  exact himg 5 r hr (by simp [activeServiceReleaseStatuses, hst]) hd

end HamiCloud.Proofs
