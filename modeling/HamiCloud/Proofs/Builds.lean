import HamiCloud.Library.Count
import HamiCloud.Runtime.Builds
import HamiCloud.Proofs.Serving

/-!
# No build is stranded

A `BUILDING` release leaves that status only through the executor that claimed it. As long as every such
executor lives until it has recorded its result, each accepted build can be brought to its end; a release
whose executor is gone stays `BUILDING` whatever happens.
-/

namespace HamiCloud

variable {now : Time} {v v' : ReleaseView} {e : ReleaseEvent} {r r' : Release}

lemma ReleaseMove.to_building (h : ReleaseMove now v e v' r r') (hst : r'.status = .building) :
    r.status = .building ∨ e = .startBuild := by
  cases h with
  | same he => exact .inl (he ▸ hst)
  | supersede _ _ _ _ _ hsup =>
    rw [hst] at hsup
    cases hsup
  | deploy i i' _ _ _ _ _ _ hdep =>
    generalize r'.status = t, i'.status = s at hdep hst
    cases hdep with
    | renew => exact .inl hst
    | claim => cases hst
    | healthy => cases hst
    | failed => cases hst
  | build _ hb =>
    generalize r'.status = t, r'.imageDigest = d at hb hst
    cases hb with
    | start => exact .inr rfl
    | built => cases hst
    | failed => cases hst

end HamiCloud

namespace HamiCloud.Proofs

open Library

variable {cfg : Settings} {w w' : World} {a : Action} {b b' : BuildWorld} {act : BuildAction} {k : Uuid}

/-! ### Building releases in the system -/

/-- A build is started by its claim only. -/
lemma building_back (hw : WorldOK w) (hstep : (system cfg).step w a = some w')
    (ha : ∀ wss locked, a ≠ .service (.claimNextBuildRelease wss locked)) {r' : Release}
    (hr' : w'.db.releases.get k = some r') (hst : r'.status = .building) :
    ∃ r, w.db.releases.get k = some r ∧ r.status = .building := by
  rcases (service_side hw hstep).release_origin hr' with ⟨r, hr, hmove⟩ | ⟨-, ⟨-, hnew⟩ | ⟨hnew, -⟩⟩
  · rcases hmove.to_building hst with hold | he
    · exact ⟨r, hr, hold⟩
    · exfalso
      cases a with
      | tick d => cases he
      | job c => cases he
      | service c =>
        cases c with
        | claimNextBuildRelease wss locked => exact ha wss locked rfl
        | _ => cases he
  · rw [hst] at hnew
    cases hnew
  · rw [hst] at hnew
    cases hnew

/-- A step that takes no part in a build ends none. -/
lemma building_stays (hr : (system cfg).Reachable w) (hstep : (system cfg).step w a = some w')
    (ha : a.ofBuilder = false) {r : Release} (hk : w.db.releases.get k = some r) (hst : r.status = .building) :
    ∃ r', w'.db.releases.get k = some r' ∧ r'.status = .building := by
  have hw := reach_ok hr
  obtain ⟨r', hr', hmove⟩ := (service_side hw hstep).release_move hk
  refine ⟨r', hr', ?_⟩
  rcases hmove.from_unbuilt (.inr hst) (unbuilt_no_intent hr hk (.inr hst)) with rfl | hst' | he | he | ⟨-, hreq⟩
  · exact hst
  · exact hst'
  rotate_right
  · rw [hst] at hreq
    cases hreq
  all_goals
    exfalso
    cases a with
    | tick d => cases he
    | job c => cases he
    | service c =>
      cases c with
      | markBuildSucceeded task digest => cases ha
      | markBuildFailed task reason => cases ha
      | _ => cases he

lemma builds_mono (hstep : (system cfg).step w a = some w') : w.services.builds ⊆ w'.services.builds := by
  rcases step_cases hstep with ⟨d, rfl, rfl⟩ | ⟨c, db', c', rfl, -, rfl⟩ | ⟨c, db', c', rfl, hserv, rfl⟩
  · exact List.Subset.refl _
  · exact List.Subset.refl _
  · cases c with
    | markReleaseHealthy wl uid =>
      obtain ⟨-, -, -, rfl⟩ := markReleaseHealthy_step hserv
      exact List.Subset.refl _
    | readWebhook repo sha branch =>
      obtain ⟨plan, -, -, rfl⟩ := readWebhook_step hserv
      exact List.Subset.refl _
    | selectUnadmittedReleases limit =>
      cases hserv
      exact List.Subset.refl _
    | claimNextServiceRelease workerId lease wss locked =>
      obtain ⟨wl, -, rfl⟩ := claimNextServiceRelease_step hserv
      exact List.Subset.refl _
    | claimNextBuildRelease wss locked =>
      obtain ⟨task, -, rfl⟩ := claimNextBuildRelease_step hserv
      exact List.subset_append_left _ _
    | _ =>
      rw [serviceStep_sameClients hserv rfl]
      exact List.Subset.refl _

/-! ### The transactions of a build -/

/-- The repository of a release, which `ClaimNextBuildRelease` joins with it. -/
def hasRepository (db : Db) (r : Release) : Bool := (r.repositoryId.bind db.repositories.get).isSome

lemma claimNextBuildRelease_enabled {r : Release} (hw : WorldOK w) (hk : w.db.releases.get k = some r)
    (hst : r.status = .requested) (hrepo : hasRepository w.db r = true) :
    ∃ task db', claimNextBuildRelease w.db [] [] = some (task, db') := by
  obtain ⟨repo, hrepo⟩ := Option.isSome_iff_exists.mp hrepo
  obtain ⟨a, ha⟩ := hw.releases.releaseApp hk
  have hpending := Release.deployable_eq_false.mp (hw.releases.unbuilt hk (.inl hst))
  have hnext : (nextBuildRelease w.db [] []).isSome = true := by
    rw [nextBuildRelease, List.findSome?_isSome_iff]
    refine ⟨r, mem_orderBy.mpr (Table.mem_of_get hk), ?_⟩
    have ha' : w.db.apps.get r.applicationId = some a := ha
    simp [hst, hpending, workspaceFilter, hrepo, ha']
  obtain ⟨⟨s, a', repo'⟩, hs⟩ := Option.isSome_iff_exists.mp hnext
  obtain ⟨s', hmem, hs'⟩ := List.exists_of_findSome?_eq_some hs
  have hfound : s' = s ∧ s.status = .requested := by
    split at hs'
    · rename_i hc
      split at hs'
      · cases hs'
        exact ⟨rfl, hc.1⟩
      · cases hs'
    · cases hs'
  obtain ⟨rfl, hreq⟩ := hfound
  have hget := Table.get_of_mem (mem_orderBy.mp hmem)
  obtain ⟨u, hu⟩ : ∃ u, w.db.releases.modify s'.id (fun r => r.status = .requested)
      (fun r => { r with status := .building, updatedAt := w.db.now }) = some (s', u) :=
    ⟨_, Table.modify_eq_some.mpr ⟨hget, by simpa using hreq, rfl⟩⟩
  rw [claimNextBuildRelease, hs]
  simp only [hu]
  exact ⟨_, _, rfl⟩

lemma markBuildSucceeded_ok {db : Db} {r : Release} {digest : String} (hk : db.releases.get k = some r)
    (hst : r.status = .building) (hlen : digest.length ≤ 255) : ∃ db', markBuildSucceeded db k digest = .ok db' := by
  simp only [markBuildSucceeded, ensureVarchar, bind_eq_ok, ensure_eq_ok, orError_eq_ok, pure_eq_ok]
  exact ⟨_, (), hlen, ⟨r, _⟩, Table.modify_eq_some.mpr ⟨hk, by simpa using hst, rfl⟩, rfl⟩

lemma markBuildFailed_ok {db : Db} {r : Release} {reason : String} (hk : db.releases.get k = some r)
    (hst : r.status = .building) (hlen : reason.length ≤ 500) : ∃ db', markBuildFailed db k reason = .ok db' := by
  simp only [markBuildFailed, ensureVarchar, bind_eq_ok, ensure_eq_ok, orError_eq_ok, pure_eq_ok]
  exact ⟨_, (), hlen, ⟨r, _⟩, Table.modify_eq_some.mpr ⟨hk, by simpa using hst, rfl⟩, rfl⟩

/-! ### Builds that end -/

/-- The text that is to be recorded fits its column. -/
def fitsColumn : BuildPhase → Bool
  | .build => true
  | .markSucceeded imageDigest => imageDigest.length ≤ 255
  | .markFailed reason => reason.length ≤ 500
  | .done => false

/-- The executor will record the result of its build. -/
def alive (bd : Builder) : Bool := !bd.cancelled && fitsColumn bd.phase

/-- Neither a crash nor a cancellation reaches an executor between its claim and the transaction that
records the result, and the digest or the reason of that transaction fits its column. -/
def buildsEnd (b : BuildWorld) : BuildAction → Bool
  | .cancel n => b.builders[n]?.all fun bd => bd.phase = .done
  | .crash n => b.builders[n]?.all fun bd => bd.phase = .done
  | .built _ res err => fitsColumn (buildOutcome res err)
  | _ => true

/-- A release that waits for its build or is being built. -/
def awaitsBuild (r : Release) : Bool := r.status = .requested || r.status = .building

lemma record_commits {bd : Builder} {r : Release} (cfg : Settings) (hmem : bd.task ∈ w.services.builds)
    (hr : w.db.releases.get bd.task.releaseId = some r) (hst : r.status = .building) (hlive : alive bd = true)
    (hphase : bd.phase ≠ .build) :
    ∃ w' r', bd.record cfg w = some w' ∧ w'.db.releases.get bd.task.releaseId = some r' ∧
      awaitsBuild r' = false := by
  simp only [alive, Bool.and_eq_true, Bool.not_eq_true'] at hlive
  obtain ⟨hcancel, hfits⟩ := hlive
  cases hp : bd.phase with
  | build => exact absurd hp hphase
  | done =>
    rw [hp] at hfits
    cases hfits
  | markSucceeded digest =>
    rw [hp] at hfits
    obtain ⟨db', hdb⟩ := markBuildSucceeded_ok hr hst (of_decide_eq_true hfits)
    obtain ⟨r₁, events, hr₁, -, hdb'⟩ := markBuildSucceeded_inv hdb
    have hstep : w.step cfg (.service (.markBuildSucceeded bd.task digest)) = some { w with db := db' } := by
      simp [World.step, serviceStep, hmem, committed, hdb, Except.toOption]
    have hget := Table.get_set_self (f := fun r : Release =>
      { r with status := .imageReady, imageDigest := digest, statusReason := none, updatedAt := w.db.now }) hr
    refine ⟨{ w with db := db' }, _, ?_, (congrArg (fun d : Db => d.releases.get _) hdb').trans hget, rfl⟩
    simp [Builder.record, hp, hcancel, World.attempt, hstep]
  | markFailed reason =>
    rw [hp] at hfits
    obtain ⟨db', hdb⟩ := markBuildFailed_ok hr hst (of_decide_eq_true hfits)
    obtain ⟨r₁, events, hr₁, -, hdb'⟩ := markBuildFailed_inv hdb
    have hstep : w.step cfg (.service (.markBuildFailed bd.task reason)) = some { w with db := db' } := by
      simp [World.step, serviceStep, hmem, committed, hdb, Except.toOption]
    have hget := Table.get_set_self (f := fun r : Release =>
      { r with status := .buildFailed, statusReason := some reason, updatedAt := w.db.now }) hr
    refine ⟨{ w with db := db' }, _, ?_, (congrArg (fun d : Db => d.releases.get _) hdb').trans hget, rfl⟩
    simp [Builder.record, hp, hcancel, World.attempt, hstep]

/-- Recording a result is a step of the system that claims nothing, or changes nothing. -/
lemma record_step {bd : Builder} (h : bd.record cfg w = some w') :
    w' = w ∨ ∃ a, (system cfg).step w a = some w' ∧
      ((∃ digest, a = .service (.markBuildSucceeded bd.task digest)) ∨
        ∃ reason, a = .service (.markBuildFailed bd.task reason)) := by
  have hattempt : ∀ a, (if bd.cancelled then w else w.attempt cfg a) = w ∨
      (system cfg).step w a = some (if bd.cancelled then w else w.attempt cfg a) := by
    intro a
    split
    · exact .inl rfl
    · unfold World.attempt
      cases hstep : w.step cfg a with
      | none => exact .inl rfl
      | some u => exact .inr hstep
  unfold Builder.record at h
  split at h
  · cases h
    exact (hattempt _).imp_right fun hs => ⟨_, hs, .inl ⟨_, rfl⟩⟩
  · cases h
    exact (hattempt _).imp_right fun hs => ⟨_, hs, .inr ⟨_, rfl⟩⟩
  · cases h

/-- Runs with builds are, for the database, runs of the system. -/
lemma build_reachable {C : BuildWorld → BuildAction → Prop} (h : (buildSystem cfg).Reach C b) :
    (system cfg).Reachable b.world := by
  have h0 : (system cfg).Reachable (buildSystem cfg).init.world := System.Path.refl World.init
  refine h.invariant (P := fun u : BuildWorld => (system cfg).Reachable u.world) h0 ?_
  intro u act u' hu _ hstep
  have hb : u.step cfg act = some u' := hstep
  cases act with
  | other a =>
    simp only [BuildWorld.step] at hb
    split at hb
    · cases hb
    · obtain ⟨w', hw, rfl⟩ := Option.map_eq_some_iff.mp hb
      exact .tail a hu trivial hw
  | claim wss locked =>
    obtain ⟨w', hw, hlast⟩ := Option.bind_eq_some_iff.mp hb
    obtain ⟨task, -, rfl⟩ := Option.map_eq_some_iff.mp hlast
    exact .tail (.service (.claimNextBuildRelease wss locked)) hu trivial hw
  | cancel n =>
    obtain ⟨bd, -, rfl⟩ := Option.map_eq_some_iff.mp hb
    exact hu
  | crash n =>
    obtain ⟨bd, -, rfl⟩ := Option.map_eq_some_iff.mp hb
    exact hu
  | built n res err =>
    obtain ⟨bd, -, hphase⟩ := Option.bind_eq_some_iff.mp hb
    split at hphase
    · cases hphase
      exact hu
    · cases hphase
  | record n =>
    obtain ⟨bd, -, hrec⟩ := Option.bind_eq_some_iff.mp hb
    obtain ⟨w', hw, rfl⟩ := Option.map_eq_some_iff.mp hrec
    rcases record_step hw with rfl | ⟨a, ha, -⟩
    · exact hu
    · exact .tail a hu trivial ha

structure BuildersOK (cfg : Settings) (b : BuildWorld) : Prop where
  reachable : (system cfg).Reachable b.world
  held : ∀ {n : Nat} {bd : Builder}, b.builders[n]? = some bd → bd.task ∈ b.world.services.builds
  owned : ∀ {k r}, b.world.db.releases.get k = some r → r.status = .building →
    ∃ (n : Nat) (bd : Builder), b.builders[n]? = some bd ∧ bd.task.releaseId = k ∧ alive bd = true

/-- The executors of a list in which one has been replaced. -/
lemma getElem?_replaced {l : List Builder} {n m : Nat} {bd bd' x : Builder} (hn : l[n]? = some bd)
    (h : (l.set n bd')[m]? = some x) : (m = n ∧ x = bd') ∨ (m ≠ n ∧ l[m]? = some x) := by
  by_cases hm : m = n
  · subst hm
    have hlt : m < l.length := (List.getElem?_eq_some_iff.mp hn).1
    rw [List.getElem?_set_self hlt] at h
    exact .inl ⟨rfl, (Option.some.inj h).symm⟩
  · rw [List.getElem?_set_ne (Ne.symm hm)] at h
    exact .inr ⟨hm, h⟩

/-- An executor that replaces another one in its place, for the same build and no less alive. -/
lemma BuildersOK.replace (h : BuildersOK cfg b) {n : Nat} {bd bd' : Builder} (hn : b.builders[n]? = some bd)
    (htask : bd'.task = bd.task) (hlive : alive bd = true → alive bd' = true) :
    BuildersOK cfg { b with builders := b.builders.set n bd' } := by
  refine ⟨h.reachable, fun {m x} hm => ?_, fun {k r} hr hst => ?_⟩
  · rcases getElem?_replaced hn hm with ⟨-, rfl⟩ | ⟨-, hm⟩
    · rw [htask]
      exact h.held hn
    · exact h.held hm
  · obtain ⟨m, x, hm, hk, hx⟩ := h.owned hr hst
    by_cases hmn : m = n
    · subst hmn
      obtain rfl : x = bd := Option.some.inj (hm.symm.trans hn)
      exact ⟨m, bd', List.getElem?_set_self (List.getElem?_eq_some_iff.mp hn).1, htask ▸ hk, hlive hx⟩
    · exact ⟨m, x, (List.getElem?_set_ne (Ne.symm hmn)).trans hm, hk, hx⟩

/-- The rest of the system takes a step that claims no build. -/
lemma BuildersOK.advance (h : BuildersOK cfg b) (hstep : (system cfg).step b.world a = some w')
    (ha : ∀ wss locked, a ≠ .service (.claimNextBuildRelease wss locked)) :
    BuildersOK cfg { b with world := w' } := by
  refine ⟨.tail a h.reachable trivial hstep, fun hm => builds_mono hstep (h.held hm), fun hr hst => ?_⟩
  obtain ⟨r, hr, hst⟩ := building_back (reach_ok h.reachable) hstep ha hr hst
  exact h.owned hr hst

/-- The task that a claim has returned. -/
lemma claim_task {task : ClaimedBuildTask} {wss locked : List Uuid}
    (hstep : (system cfg).step w (.service (.claimNextBuildRelease wss locked)) = some w')
    (htask : w'.services.builds.getLast? = some task) :
    claimNextBuildRelease w.db wss locked = some (task, w'.db) := by
  rcases step_cases hstep with ⟨d, he, -⟩ | ⟨_, _, _, he, -⟩ | ⟨c, db', c', he, hserv, rfl⟩
  · cases he
  · cases he
  · cases he
    obtain ⟨task', hdb, rfl⟩ := claimNextBuildRelease_step hserv
    obtain rfl : task' = task := by simpa using htask
    exact hdb

lemma BuildersOK.claim (h : BuildersOK cfg b) {task : ClaimedBuildTask} {wss locked : List Uuid}
    (hstep : (system cfg).step b.world (.service (.claimNextBuildRelease wss locked)) = some w')
    (htask : w'.services.builds.getLast? = some task) :
    BuildersOK cfg ⟨w', b.builders ++ [⟨task, false, .build⟩]⟩ := by
  obtain ⟨r, hr, -, -, hdb⟩ := claimNextBuildRelease_inv (claim_task hstep htask)
  refine ⟨.tail _ h.reachable trivial hstep, fun {m x} hm => ?_, fun {k s} hs hst => ?_⟩
  · rcases List.mem_append.mp (List.mem_of_getElem? hm) with hx | hx
    · obtain ⟨i, hi⟩ := List.mem_iff_getElem?.mp hx
      exact builds_mono hstep (h.held hi)
    · rw [List.mem_singleton.mp hx]
      exact List.mem_of_getLast? htask
  · by_cases hk : k = task.releaseId
    · exact ⟨b.builders.length, _, List.getElem?_concat_length, hk.symm, rfl⟩
    · have hold : b.world.db.releases.get k = some s := by
        have hs' : w'.db.releases.get k = some s := hs
        rwa [hdb, Table.get_set, if_neg hk] at hs'
      obtain ⟨m, x, hm, hxk, hx⟩ := h.owned hold hst
      exact ⟨m, x, List.getElem?_append_left (List.getElem?_eq_some_iff.mp hm).1 ▸ hm, hxk, hx⟩

lemma BuildersOK.record (h : BuildersOK cfg b) {n : Nat} {bd : Builder} (hn : b.builders[n]? = some bd)
    (hrec : bd.record cfg b.world = some w') :
    BuildersOK cfg ⟨w', b.builders.set n { bd with phase := .done }⟩ := by
  have hadv : BuildersOK cfg { b with world := w' } := by
    rcases record_step hrec with rfl | ⟨a, ha, ⟨_, rfl⟩ | ⟨_, rfl⟩⟩
    · exact h
    · exact h.advance ha (by simp)
    · exact h.advance ha (by simp)
  refine ⟨hadv.reachable, fun {m x} hm => ?_, fun {k r} hr hst => ?_⟩
  · rcases getElem?_replaced hn hm with ⟨-, rfl⟩ | ⟨-, hm⟩
    · have hbd : bd.task ∈ w'.services.builds := hadv.held hn
      exact hbd
    · exact hadv.held hm
  · obtain ⟨m, x, hm, hk, hx⟩ := hadv.owned hr hst
    by_cases hmn : m = n
    · -- the transaction has taken the release of this executor out of `BUILDING`
      exfalso
      subst hmn
      obtain rfl : x = bd := Option.some.inj (hm.symm.trans hn)
      have hphase : x.phase ≠ .build := by
        intro hp
        simp [Builder.record, hp] at hrec
      have hold : ∃ r₀, b.world.db.releases.get k = some r₀ ∧ r₀.status = .building := by
        rcases record_step hrec with rfl | ⟨a, ha, ⟨_, rfl⟩ | ⟨_, rfl⟩⟩
        · exact ⟨r, hr, hst⟩
        · exact building_back (reach_ok h.reachable) ha (by simp) hr hst
        · exact building_back (reach_ok h.reachable) ha (by simp) hr hst
      obtain ⟨r₀, hr₀, hst₀⟩ := hold
      subst hk
      obtain ⟨u, s, hu, hs, hend⟩ := record_commits cfg (h.held hn) hr₀ hst₀ hx hphase
      obtain rfl : u = w' := Option.some.inj (hu.symm.trans hrec)
      obtain rfl : s = r := Option.some.inj (hs.symm.trans hr)
      simp [awaitsBuild, hst] at hend
    · exact ⟨m, x, (List.getElem?_set_ne (Ne.symm hmn)).trans hm, hk, hx⟩

lemma BuildersOK.step (h : BuildersOK cfg b) (hguard : buildsEnd b act = true)
    (hstep : (buildSystem cfg).step b act = some b') : BuildersOK cfg b' := by
  have hb : b.step cfg act = some b' := hstep
  cases act with
  | other a =>
    simp only [BuildWorld.step] at hb
    split at hb
    · cases hb
    · rename_i hother
      obtain ⟨w', hw, rfl⟩ := Option.map_eq_some_iff.mp hb
      refine h.advance hw ?_
      rintro wss locked rfl
      exact hother rfl
  | claim wss locked =>
    obtain ⟨w', hw, hlast⟩ := Option.bind_eq_some_iff.mp hb
    obtain ⟨task, htask, rfl⟩ := Option.map_eq_some_iff.mp hlast
    exact h.claim hw htask
  | cancel n =>
    obtain ⟨bd, hn, rfl⟩ := Option.map_eq_some_iff.mp hb
    simp only [buildsEnd, hn, Option.all_some, decide_eq_true_eq] at hguard
    exact h.replace hn rfl (by simp [alive, hguard, fitsColumn])
  | crash n =>
    obtain ⟨bd, hn, rfl⟩ := Option.map_eq_some_iff.mp hb
    simp only [buildsEnd, hn, Option.all_some, decide_eq_true_eq] at hguard
    exact h.replace hn rfl (by simp [alive, hguard, fitsColumn])
  | built n res err =>
    obtain ⟨bd, hn, hphase⟩ := Option.bind_eq_some_iff.mp hb
    split at hphase
    · cases hphase
      have hfits : fitsColumn (buildOutcome res err) = true := hguard
      refine h.replace hn rfl fun hlive => ?_
      simp only [alive, Bool.and_eq_true] at hlive ⊢
      exact ⟨hlive.1, hfits⟩
    · cases hphase
  | record n =>
    obtain ⟨bd, hn, hrec⟩ := Option.bind_eq_some_iff.mp hb
    obtain ⟨w', hw, rfl⟩ := Option.map_eq_some_iff.mp hrec
    exact h.record hn hw

lemma reach_builders (h : (buildSystem cfg).Reach (fun b act => buildsEnd b act = true) b) :
    BuildersOK cfg b := by
  have h0 : BuildersOK cfg (buildSystem cfg).init :=
    ⟨System.Path.refl World.init, (fun hn => nomatch hn), (fun hr => nomatch hr)⟩
  exact h.invariant h0 (fun _ _ _ hb hguard hstep => hb.step hguard hstep)

/-! ### Progress -/

/-- A live executor can record the result of its build. -/
lemma exists_record (h : BuildersOK cfg b) {r : Release} (hr : b.world.db.releases.get k = some r)
    (hst : r.status = .building) :
    ∃ b' r', Relation.ReflTransGen (BuildContinues cfg) b b' ∧ b'.world.db.releases.get k = some r' ∧
      awaitsBuild r' = false := by
  obtain ⟨n, bd, hn, rfl, hlive⟩ := h.owned hr hst
  -- from any later phase the next step is the transaction
  have hrecord : ∀ {u : BuildWorld} {x : Builder}, u.world = b.world → u.builders[n]? = some x →
      x.task = bd.task → alive x = true → x.phase ≠ .build →
      ∃ b' r', BuildContinues cfg u b' ∧ b'.world.db.releases.get bd.task.releaseId = some r' ∧
        awaitsBuild r' = false := by
    intro u x hu hx htask hxlive hphase
    rw [← htask] at hr
    obtain ⟨w', r', hrec, hr', hend⟩ := record_commits cfg (htask ▸ h.held hn) hr hst hxlive hphase
    have hstep : u.step cfg (.record n) = some ⟨w', u.builders.set n { x with phase := .done }⟩ := by
      simp [BuildWorld.step, hx, hu, hrec]
    exact ⟨_, r', .executor rfl hstep, htask ▸ hr', hend⟩
  by_cases hphase : bd.phase = .build
  · -- the build succeeds first
    let x : Builder := { bd with phase := .markSucceeded "sha256:0" }
    have hbuilt : b.step cfg (.built n (some ⟨"sha256:0", ""⟩) none) =
        some { b with builders := b.builders.set n x } := by
      have hout : buildOutcome (some ⟨"sha256:0", ""⟩) none = .markSucceeded "sha256:0" := rfl
      simp [BuildWorld.step, hn, hphase, hout, x]
    have hxlive : alive x = true := by
      simp only [alive, Bool.and_eq_true] at hlive ⊢
      exact ⟨hlive.1, (by decide : fitsColumn (.markSucceeded "sha256:0") = true)⟩
    obtain ⟨b', r', hcont, hr', hend⟩ := hrecord (u := { b with builders := b.builders.set n x }) rfl
      (List.getElem?_set_self (List.getElem?_eq_some_iff.mp hn).1) rfl hxlive (by simp [x])
    exact ⟨b', r', (Relation.ReflTransGen.single (.executor rfl hbuilt)).tail hcont, hr', hend⟩
  · obtain ⟨b', r', hcont, hr', hend⟩ := hrecord rfl hn rfl hlive hphase
    exact ⟨b', r', .single hcont, hr', hend⟩

/-- The releases that wait for an executor. -/
def requestedReleases (b : BuildWorld) : Nat := b.world.db.releases.count (fun r => r.status = .requested)

/-- While a release waits for an executor one can claim it, or claim another one before it. -/
lemma exists_claim (h : BuildersOK cfg b) {r : Release} (hr : b.world.db.releases.get k = some r)
    (hst : r.status = .requested) (hrepo : hasRepository b.world.db r = true) :
    ∃ b' r', BuildContinues cfg b b' ∧ BuildersOK cfg b' ∧ b'.world.db.releases.get k = some r' ∧
      (r'.status = .requested ∧ hasRepository b'.world.db r' = true ∨ r'.status = .building) ∧
      requestedReleases b' < requestedReleases b := by
  obtain ⟨task, db', hclaim⟩ := claimNextBuildRelease_enabled (reach_ok h.reachable) hr hst hrepo
  obtain ⟨s, hs, hreq, -, hdb'⟩ := claimNextBuildRelease_inv hclaim
  have hw : (system cfg).step b.world (.service (.claimNextBuildRelease [] [])) =
      some { b.world with
        db := db', services := { b.world.services with builds := b.world.services.builds ++ [task] } } := by
    simp [system, World.step, serviceStep, hclaim]
  have hb : b.step cfg (.claim [] []) = some
      ⟨{ b.world with db := db', services := { b.world.services with builds := b.world.services.builds ++ [task] } },
        b.builders ++ [⟨task, false, .build⟩]⟩ := by
    have hw' : b.world.step cfg (.service (.claimNextBuildRelease [] [])) = _ := hw
    simp [BuildWorld.step, hw']
  refine ⟨_, if k = task.releaseId then { r with status := .building, updatedAt := b.world.db.now } else r,
    .executor rfl hb, h.claim hw (by simp), ?_, ?_, ?_⟩
  · simp only [hdb', Table.get_set]
    by_cases hk : k = task.releaseId
    · rw [if_pos hk, if_pos hk, ← hk, hr]
      rfl
    · rw [if_neg hk, if_neg hk, hr]
  · by_cases hk : k = task.releaseId
    · exact .inr (by simp [hk])
    · refine .inl ?_
      rw [if_neg hk]
      exact ⟨hst, by rw [hasRepository, hdb']; exact hrepo⟩
  · have hcount := Table.count_set (f := fun r : Release => { r with status := .building, updatedAt := b.world.db.now })
      hs (fun _ => rfl) (fun r => r.status = .requested)
    simp only [hreq, decide_true, Bool.toNat_true, reduceCtorEq, decide_false, Bool.toNat_false] at hcount
    simp only [requestedReleases, hdb']
    omega

/-- In every run in which each executor lives until it has recorded the result of its build, every accepted
build can be brought to its end by time, scheduler passes and live executors alone. -/
theorem no_build_stranded (cfg : Settings) {b : BuildWorld}
    (h : (buildSystem cfg).Reach (fun b act => buildsEnd b act = true) b) {k : Uuid} {r : Release}
    (hr : b.world.db.releases.get k = some r)
    (hwaits : r.status = .requested ∧ hasRepository b.world.db r = true ∨ r.status = .building) :
    ∃ b' r', Relation.ReflTransGen (BuildContinues cfg) b b' ∧ b'.world.db.releases.get k = some r' ∧
      r'.status ≠ .requested ∧ r'.status ≠ .building := by
  obtain ⟨b₁, hcont, hok, r₁, hr₁, hst₁⟩ := reaches_of_variant (R := BuildContinues cfg)
    (P := fun u => BuildersOK cfg u ∧ ∃ s, u.world.db.releases.get k = some s ∧
      (s.status = .requested ∧ hasRepository u.world.db s = true ∨ s.status = .building))
    (G := fun u => BuildersOK cfg u ∧ ∃ s, u.world.db.releases.get k = some s ∧ s.status = .building)
    requestedReleases
    (by
      rintro u ⟨hu, s, hs, ⟨hst, hrepo⟩ | hst⟩ hgoal
      · obtain ⟨u', s', hstep, hu', hs', hwaits', hlt⟩ := exists_claim hu hs hst hrepo
        exact ⟨u', .single hstep, ⟨hu', s', hs', hwaits'⟩, hlt⟩
      · exact absurd ⟨hu, s, hs, hst⟩ hgoal) b ⟨reach_builders h, r, hr, hwaits⟩
  obtain ⟨b', r', hcont', hr', hend⟩ := exists_record hok hr₁ hst₁
  refine ⟨b', r', hcont.trans hcont', hr', ?_⟩
  simpa [awaitsBuild] using hend

/-- An executor is in the middle of a build. -/
def buildRunning : (buildSystem Settings.default).Run buildsEnd where
  labels :=
    [.other (.service (.createRepository 100)), .other (.service (.createApplication 100 ⟨"shop", some 0, none⟩)),
      .other (.service (.triggerBuild 1 ⟨some "abc1234", "main", none, none⟩)), .claim [] []]
  executes := by decide +kernel

theorem no_build_stranded_running : ∃ b r, (buildSystem Settings.default).Reach
      (fun b act => buildsEnd b act = true) b ∧
    b.world.db.releases.get 3 = some r ∧ r.status = .building ∧
    ∃ b' r', Relation.ReflTransGen (BuildContinues Settings.default) b b' ∧
      b'.world.db.releases.get 3 = some r' ∧ r'.status ≠ .requested ∧ r'.status ≠ .building := by
  have hrow : (buildRunning.final.world.db.releases.get 3).any (fun r => r.status = .building) = true := by
    decide +kernel
  obtain ⟨r, hr, hst⟩ := (Option.any_eq_true _ _).mp hrow
  exact ⟨buildRunning.final, r, buildRunning.reach, hr, of_decide_eq_true hst,
    no_build_stranded Settings.default buildRunning.reach hr (.inr (of_decide_eq_true hst))⟩

/-! ### A build whose executor is gone -/

structure Orphaned (cfg : Settings) (k : Uuid) (b : BuildWorld) : Prop where
  reachable : (system cfg).Reachable b.world
  building : ∃ r, b.world.db.releases.get k = some r ∧ r.status = .building
  gone : ∀ bd ∈ b.builders, bd.task.releaseId = k → bd.phase = .done

lemma Orphaned.advance (h : Orphaned cfg k b) (hstep : (system cfg).step b.world a = some w')
    (ha : a.ofBuilder = false) : Orphaned cfg k { b with world := w' } := by
  obtain ⟨r, hr, hst⟩ := h.building
  exact ⟨.tail a h.reachable trivial hstep, building_stays h.reachable hstep ha hr hst, h.gone⟩

lemma Orphaned.replace (h : Orphaned cfg k b) {n : Nat} {bd bd' : Builder} (hn : b.builders[n]? = some bd)
    (htask : bd'.task = bd.task) (hphase : bd.phase = .done → bd'.phase = .done) :
    Orphaned cfg k { b with builders := b.builders.set n bd' } := by
  refine ⟨h.reachable, h.building, fun x hx hk => ?_⟩
  rcases List.mem_or_eq_of_mem_set hx with hx | rfl
  · exact h.gone x hx hk
  · exact hphase (h.gone bd (List.mem_of_getElem? hn) (htask ▸ hk))

/-- A claim takes a release that is still `REQUESTED`. -/
lemma Orphaned.claim (h : Orphaned cfg k b) {task : ClaimedBuildTask} {wss locked : List Uuid}
    (hstep : (system cfg).step b.world (.service (.claimNextBuildRelease wss locked)) = some w')
    (hdb : claimNextBuildRelease b.world.db wss locked = some (task, w'.db)) :
    Orphaned cfg k ⟨w', b.builders ++ [⟨task, false, .build⟩]⟩ := by
  obtain ⟨r, hr, hst⟩ := h.building
  obtain ⟨s, hs, hreq, -, hdb'⟩ := claimNextBuildRelease_inv hdb
  have hne : k ≠ task.releaseId := by
    rintro rfl
    obtain rfl : r = s := Option.some.inj (hr.symm.trans hs)
    rw [hst] at hreq
    cases hreq
  refine ⟨.tail _ h.reachable trivial hstep, ⟨r, ?_, hst⟩, fun x hx hk => ?_⟩
  · rw [hdb', Table.get_set, if_neg hne, hr]
  · rcases List.mem_append.mp hx with hx | hx
    · exact h.gone x hx hk
    · rw [List.mem_singleton.mp hx] at hk
      exact absurd hk.symm hne

/-- An executor that is about to record a result has another release. -/
lemma Orphaned.record (h : Orphaned cfg k b) {n : Nat} {bd : Builder} (hn : b.builders[n]? = some bd)
    (hrec : bd.record cfg b.world = some w') :
    Orphaned cfg k ⟨w', b.builders.set n { bd with phase := .done }⟩ := by
  obtain ⟨r, hr, hst⟩ := h.building
  have hne : k ≠ bd.task.releaseId := by
    intro hk
    simp [Builder.record, h.gone bd (List.mem_of_getElem? hn) hk.symm] at hrec
  have hworld : Orphaned cfg k { b with world := w' } := by
    rcases record_step hrec with rfl | ⟨a, ha, hact⟩
    · exact h
    · refine ⟨.tail a h.reachable trivial ha, ⟨r, ?_, hst⟩, h.gone⟩
      rcases step_cases ha with ⟨d, rfl, -⟩ | ⟨_, _, _, rfl, -⟩ | ⟨c, db', c', rfl, hserv, rfl⟩
      · simp at hact
      · simp at hact
      · rcases hact with ⟨digest, he⟩ | ⟨reason, he⟩
        · cases he
          obtain ⟨s, events, -, -, rfl⟩ := markBuildSucceeded_inv (held_commit_inv hserv).2.1
          simp only [Table.get_set, if_neg hne, hr]
        · cases he
          obtain ⟨s, events, -, -, rfl⟩ := markBuildFailed_inv (held_commit_inv hserv).2.1
          simp only [Table.get_set, if_neg hne, hr]
  exact hworld.replace hn rfl (fun _ => rfl)

lemma Orphaned.step (h : Orphaned cfg k b) (hb : b.step cfg act = some b') : Orphaned cfg k b' := by
  cases act with
  | other a =>
    simp only [BuildWorld.step] at hb
    split at hb
    · cases hb
    · rename_i hother
      obtain ⟨w', hw, rfl⟩ := Option.map_eq_some_iff.mp hb
      exact h.advance hw (by simpa using hother)
  | claim wss locked =>
    obtain ⟨w', hw, hlast⟩ := Option.bind_eq_some_iff.mp hb
    obtain ⟨task, htask, rfl⟩ := Option.map_eq_some_iff.mp hlast
    have hsys : (system cfg).step b.world (.service (.claimNextBuildRelease wss locked)) = some w' := hw
    exact h.claim hsys (claim_task hsys htask)
  | cancel n =>
    obtain ⟨bd, hn, rfl⟩ := Option.map_eq_some_iff.mp hb
    exact h.replace hn rfl id
  | crash n =>
    obtain ⟨bd, hn, rfl⟩ := Option.map_eq_some_iff.mp hb
    exact h.replace hn rfl (fun _ => rfl)
  | built n res err =>
    obtain ⟨bd, hn, hphase⟩ := Option.bind_eq_some_iff.mp hb
    split at hphase
    · rename_i hbuild
      cases hphase
      refine h.replace hn rfl fun hdone => ?_
      rw [hbuild] at hdone
      cases hdone
    · cases hphase
  | record n =>
    obtain ⟨bd, hn, hrec⟩ := Option.bind_eq_some_iff.mp hb
    obtain ⟨w', hw, rfl⟩ := Option.map_eq_some_iff.mp hrec
    exact h.record hn hw

lemma Orphaned.pass (h : Orphaned cfg k b) (hpath : PassPath cfg b.world w') :
    Orphaned cfg k { b with world := w' } := by
  refine hpath.invariant (P := fun u => Orphaned cfg k { b with world := u }) h ?_
  intro u a u' hu hpass hstep
  refine hu.advance hstep ?_
  cases a with
  | tick d => rfl
  | job c => rfl
  | service c =>
    cases c with
    | claimNextBuildRelease wss locked => cases hpass
    | markBuildSucceeded task digest => cases hpass
    | markBuildFailed task reason => cases hpass
    | _ => rfl

lemma Orphaned.continues (h : Orphaned cfg k b) (hcont : Relation.ReflTransGen (BuildContinues cfg) b b') :
    Orphaned cfg k b' := by
  induction hcont with
  | refl => exact h
  | tail _ hstep ih =>
    cases hstep with
    | tick d => exact ih.advance (a := .tick d) rfl rfl
    | pass => exact ih.pass (runOnce_path _)
    | executor _ hb => exact ih.step hb

/-- The executor of a build crashes. -/
def buildCrashed : (buildSystem Settings.default).FreeRun where
  labels :=
    [.other (.service (.createRepository 100)), .other (.service (.createApplication 100 ⟨"shop", some 0, none⟩)),
      .other (.service (.triggerBuild 1 ⟨some "abc1234", "main", none, none⟩)), .claim [] [], .crash 0]
  executes := by decide +kernel

/-- Its release stays `BUILDING` whatever happens without a request. -/
theorem crashed_build_stranded : ∃ b r, (buildSystem Settings.default).Reachable b ∧
    b.world.db.releases.get 3 = some r ∧ r.status = .building ∧
    ∀ b', Relation.ReflTransGen (BuildContinues Settings.default) b b' →
      ∃ r', b'.world.db.releases.get 3 = some r' ∧ r'.status = .building := by
  have hrow : (buildCrashed.final.world.db.releases.get 3).any (fun r => r.status = .building) = true := by
    decide +kernel
  have hgone : ∀ bd ∈ buildCrashed.final.builders, bd.task.releaseId = 3 → bd.phase = .done := by decide +kernel
  obtain ⟨r, hr, hst⟩ := (Option.any_eq_true _ _).mp hrow
  have horphaned : Orphaned Settings.default 3 buildCrashed.final :=
    ⟨build_reachable buildCrashed.reachable, ⟨r, hr, of_decide_eq_true hst⟩, hgone⟩
  exact ⟨buildCrashed.final, r, buildCrashed.reachable, hr, of_decide_eq_true hst,
    fun b' hcont => (horphaned.continues hcont).building⟩

end HamiCloud.Proofs
