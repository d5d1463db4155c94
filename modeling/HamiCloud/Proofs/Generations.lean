import HamiCloud.Protocol.Generations
import HamiCloud.Proofs.WorldInvariant

/-!
# Generations in runs of the system

What the scans of `ScanUnadmittedReleases` have handed out so far, however old, keeps one release per
generation of an application; so do the intents created from it, and the resource names they carry.
-/

namespace HamiCloud.Proofs

open Library

variable {cfg : Settings} {db db' : Db} {w w' : World}

/-- A scan has returned release `k` for generation `g`. -/
def Stamped (c : ServiceClients) (k : Uuid) (g : Nat) : Prop :=
  ∃ u ∈ c.unadmitted, u.releaseId = k ∧ u.desiredGeneration = g

lemma stamped_congr {c c' : ServiceClients} (h : c'.unadmitted = c.unadmitted) : Stamped c' = Stamped c := by
  funext k g
  simp only [Stamped, h]

/-- Only a scan hands out releases. -/
lemma serviceStep_unadmitted {c c' : ServiceClients} {a : ServiceAction}
    (h : serviceStep cfg db c a = some (db', c')) :
    c'.unadmitted = c.unadmitted ∨ ∃ limit, a = .selectUnadmittedReleases limit ∧ db' = db ∧
      c'.unadmitted = c.unadmitted ++ selectUnadmittedReleases db limit := by
  cases a with
  | readWebhook repo sha branch =>
    obtain ⟨plan, -, -, rfl⟩ := readWebhook_step h
    exact .inl rfl
  | selectUnadmittedReleases limit =>
    cases h
    exact .inr ⟨limit, rfl, rfl, rfl⟩
  | claimNextServiceRelease workerId lease wss locked =>
    obtain ⟨wl, -, rfl⟩ := claimNextServiceRelease_step h
    exact .inl rfl
  | markReleaseHealthy wl uid =>
    obtain ⟨becameCurrent, -, -, rfl⟩ := markReleaseHealthy_step h
    exact .inl rfl
  | claimNextBuildRelease wss locked =>
    obtain ⟨task, -, rfl⟩ := claimNextBuildRelease_step h
    exact .inl rfl
  | _ => exact .inl (by rw [serviceStep_sameClients h rfl])

/-- What a scan returns is the latest release of its application, under the generation it desires. -/
lemma stamped_scan {c : ServiceClients} {limit : Nat} {k : Uuid} {g : Nat}
    (h : ∃ u ∈ c.unadmitted ++ selectUnadmittedReleases db limit, u.releaseId = k ∧ u.desiredGeneration = g) :
    Stamped c k g ∨ ∃ r a, db.releases.get k = some r ∧ db.apps.get r.applicationId = some a ∧
      g = a.desiredGeneration ∧ (r.status = .imageReady ∨ r.status = .requested) ∧
      (releaseView db).Latest k := by
  obtain ⟨u, hu, rfl, rfl⟩ := h
  rcases List.mem_append.mp hu with hu | hu
  · exact .inl ⟨u, hu, rfl, rfl⟩
  · obtain ⟨r, a, hr, ha, happ, hgen, hst, hl⟩ := mem_selectUnadmittedReleases hu
    exact .inr ⟨r, a, hr, happ ▸ ha, hgen, hst, hl⟩

/-- An intent that a step adds was created from a scanned row. -/
lemma serviceStep_newIntent {c c' : ServiceClients} {a : ServiceAction} (hwf : ReleaseWF (releaseView db))
    (hok : ServiceClientsOK (releaseView db) c) (h : serviceStep cfg db c a = some (db', c')) {k : Uuid}
    {i : ExecutionIntent} (hk : db.releaseIntents.get k = none) (hk' : db'.releaseIntents.get k = some i) :
    Stamped c i.resourceId i.targetGeneration := by
  have hrefines := serviceStep_refines hwf hok h
  by_cases hadm : releaseEvent a = .admission
  · cases a with
    | createServiceReleaseIntent rel =>
      obtain ⟨j, hmem, hdb, -⟩ := createServiceReleaseIntent_step h
      obtain ⟨intents, hres, hgen, -, -, -, -, hins, rfl⟩ := createServiceReleaseIntent_inv hdb
      have hrow : Function.update db.releaseIntents.get j.id (some j) k = some i := by
        rw [← Table.get_insert_eq_update hins]
        exact hk'
      by_cases hkj : k = j.id
      · subst hkj
        obtain rfl : j = i := by simpa using hrow
        exact ⟨rel, hmem, hres.symm, hgen.symm⟩
      · rw [Function.update_of_ne hkj, hk] at hrow
        cases hrow
    | _ => cases hadm
  · exfalso
    generalize releaseEvent a = e at hrefines hadm
    have hnone : (releaseView db').intent k = none := by
      refine hrefines.invariant (P := fun v => v.intent k = none) (fun u u' hs hu => ?_) hk
      cases hu' : u'.intent k with
      | none => rfl
      | some j => exact absurd (hs.new_intent hu hu').2.2.1 hadm
    have hsome : (releaseView db').intent k = some i := hk'
    rw [hnone] at hsome
    cases hsome

/-! ### The invariant in runs -/

lemma generations_service {c c' : ServiceClients} {a : ServiceAction} (hwf : ReleaseWF (releaseView db))
    (hok : ServiceClientsOK (releaseView db) c) (h : serviceStep cfg db c a = some (db', c'))
    (hgen : Generations (releaseView db) (Stamped c)) : Generations (releaseView db') (Stamped c') := by
  rcases serviceStep_unadmitted h with hun | ⟨limit, rfl, rfl, hun⟩
  · rw [stamped_congr hun]
    exact hgen.run hwf (serviceStep_refines hwf hok h) (fun k i => serviceStep_newIntent hwf hok h)
  · refine hgen.scan hwf (fun k g hs => ?_) (fun k g hs => ?_)
    · unfold Stamped at hs
      rw [hun] at hs
      rcases stamped_scan hs with hold | ⟨r, a, hr, ha, hg, -, hl⟩
      · exact .inl hold
      · exact .inr ⟨r, a, hr, ha, hg, hl⟩
    · obtain ⟨u, hu, hku⟩ := hs
      exact ⟨u, by rw [hun]; exact List.mem_append_left _ hu, hku⟩

theorem reach_generations {C : World → Action → Prop} (h : (system cfg).Reach C w) :
    Generations (releaseView w.db) (Stamped w.services) := by
  refine (h.invariant
    (P := fun u => WorldOK u ∧ Generations (releaseView u.db) (Stamped u.services)) ⟨worldOK_init, ?_⟩ ?_).2
  · constructor <;> intros <;> simp_all [releaseView, Stamped, system, World.init, Db.empty]
  · rintro u a u' ⟨hu, hgen⟩ - hstep
    refine ⟨hu.step hstep, ?_⟩
    rcases step_cases hstep with ⟨d, rfl, rfl⟩ | ⟨b, db', c', rfl, hjob, rfl⟩ | ⟨b, db', c', rfl, hserv, rfl⟩
    · exact hgen
    · rw [releaseView_of_frame (jobStep_services hjob)]
      exact hgen
    · exact generations_service hu.releases hu.serviceClients hserv hgen

/-! ### One release per generation -/

lemma intent_unique {stamp : Uuid → Nat → Prop} {v : ReleaseView} (hgen : Generations v stamp) {k k' : Uuid}
    {i i' : ExecutionIntent} {r r' : Release} (hi : v.intent k = some i) (hi' : v.intent k' = some i')
    (hr : v.release i.resourceId = some r) (hr' : v.release i'.resourceId = some r')
    (happ : r.applicationId = r'.applicationId) (htarget : i.targetGeneration = i'.targetGeneration) :
    i.resourceId = i'.resourceId := by
  have hs' := hgen.intent hi'
  rw [← htarget] at hs'
  exact hgen.unique (hgen.intent hi) hs' hr hr' happ

lemma eq_of_last_dash {x y d d' : List Char} (hd : '-' ∉ d) (hd' : '-' ∉ d')
    (h : x ++ '-' :: d = y ++ '-' :: d') : x = y ∧ d = d' := by
  rcases List.append_eq_append_iff.mp h with ⟨t, rfl, ht⟩ | ⟨t, rfl, ht⟩
  · cases t with
    | nil => exact ⟨(List.append_nil x).symm, (List.cons.inj ht).2⟩
    | cons c t => exact absurd ((List.cons.inj ht).2 ▸ List.mem_append_right t (List.mem_cons_self ..)) hd
  · cases t with
    | nil => exact ⟨List.append_nil y, (List.cons.inj ht).2.symm⟩
    | cons c t => exact absurd ((List.cons.inj ht).2 ▸ List.mem_append_right t (List.mem_cons_self ..)) hd'

lemma dash_notMem_repr (n : Nat) : '-' ∉ (Nat.repr n).toList := by
  intro h
  rw [Nat.toList_repr] at h
  have hdigit := Nat.isDigit_of_mem_toDigits (by decide) (by decide) h
  exact absurd hdigit (by decide)

/-- The text of a service name determines its application and generation: what follows the last dash
is the generation. -/
lemma svc_text_inj {uuidText : Uuid → String} (hinj : Function.Injective uuidText) {k k' : Uuid} {g g' : Nat}
    (h : (ResourceName.svc k g).text uuidText = (ResourceName.svc k' g').text uuidText) :
    k = k' ∧ g = g' := by
  have hlist := congrArg String.toList h
  simp only [ResourceName.text, String.toList_append, List.append_assoc] at hlist
  obtain ⟨huuid, hnum⟩ := eq_of_last_dash (dash_notMem_repr g) (dash_notMem_repr g')
    (List.append_cancel_left hlist)
  exact ⟨hinj (String.toList_inj.mp huuid), Nat.repr_injective (String.toList_inj.mp hnum)⟩

/-- In every reachable state, intents of one application with one target generation belong to one release,
and so do intents whose resources have the same name. -/
theorem generation_identifies_release (cfg : Settings) {w : World} (hr : (system cfg).Reachable w) {k k' : Uuid}
    {i i' : ExecutionIntent} (hi : w.db.releaseIntents.get k = some i)
    (hi' : w.db.releaseIntents.get k' = some i') :
    (∀ r r', w.db.releases.get i.resourceId = some r → w.db.releases.get i'.resourceId = some r' →
      r.applicationId = r'.applicationId → i.targetGeneration = i'.targetGeneration →
      i.resourceId = i'.resourceId) ∧
    (∀ uuidText : Uuid → String, Function.Injective uuidText →
      i.deterministicResourceName.text uuidText = i'.deterministicResourceName.text uuidText →
      i.resourceId = i'.resourceId) := by
  have hgen := reach_generations hr
  refine ⟨fun r r' hrow hrow' happ htarget => intent_unique hgen hi hi' hrow hrow' happ htarget, ?_⟩
  intro uuidText hinj htext
  obtain ⟨r, hrow, hname⟩ := (reach_ok hr).releases.intentRelease hi
  obtain ⟨r', hrow', hname'⟩ := (reach_ok hr).releases.intentRelease hi'
  rw [hname, hname'] at htext
  obtain ⟨happ, htarget⟩ := svc_text_inj hinj htext
  exact intent_unique hgen hi hi' hrow hrow' happ htarget

/-- An old snapshot of the first release is admitted after the second one. -/
def staleScanRun : (system Settings.default).FreeRun where
  labels :=
    [.service (.createApplication 100 ⟨"shop", none, none⟩),
      .service (.deployRelease 0 ⟨"quay.io/shop:1", ⟨8080, "/"⟩⟩), .service (.selectUnadmittedReleases 50),
      .service (.deployRelease 0 ⟨"quay.io/shop:2", ⟨8080, "/"⟩⟩), .service (.selectUnadmittedReleases 50),
      .service (.createServiceReleaseIntent ⟨4, 0, 100, 2, "quay.io/shop:2", ⟨8080, "/"⟩, 3⟩),
      .service (.createServiceReleaseIntent ⟨2, 0, 100, 1, "quay.io/shop:1", ⟨8080, "/"⟩, 2⟩)]
  executes := by decide +kernel

/-- The intent created from the old snapshot keeps a generation and a name of its own. -/
theorem generation_identifies_release_stale_scan : ∃ w i r, (system Settings.default).Reachable w ∧
    w.db.releaseIntents.get 6 = some i ∧ w.db.releases.get i.resourceId = some r ∧ i.resourceId = 2 ∧
    i.targetGeneration = 2 ∧
    ∀ k i' r', w.db.releaseIntents.get k = some i' → w.db.releases.get i'.resourceId = some r' →
      (r'.applicationId = r.applicationId ∧ i'.targetGeneration = 2 ∨
        i'.deterministicResourceName.text Nat.repr = i.deterministicResourceName.text Nat.repr) →
      i'.resourceId = 2 := by
  have hrow : (staleScanRun.final.db.releaseIntents.get 6).map (fun i => (i.resourceId, i.targetGeneration,
      (staleScanRun.final.db.releases.get i.resourceId).isSome)) = some (2, 2, true) := by decide +kernel
  obtain ⟨i, hi, he⟩ := Option.map_eq_some_iff.mp hrow
  simp only [Prod.mk.injEq] at he
  obtain ⟨hres, hgen, hsome⟩ := he
  obtain ⟨r, hrel⟩ := Option.isSome_iff_exists.mp hsome
  refine ⟨_, i, r, staleScanRun.reachable, hi, hrel, hres, hgen, fun k i' r' hi' hr' hsame => ?_⟩
  obtain ⟨hsameGen, hsameName⟩ :=
    generation_identifies_release Settings.default staleScanRun.reachable hi' hi
  rw [← hres]
  rcases hsame with ⟨happ, hgen'⟩ | htext
  · exact hsameGen r' r hr' hrel happ (hgen'.trans hgen.symm)
  · exact hsameName Nat.repr (fun _ _ => Nat.repr_injective) htext

end HamiCloud.Proofs
