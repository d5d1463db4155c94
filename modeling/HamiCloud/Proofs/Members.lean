import HamiCloud.Api.Members

/-!
# Owners of a workspace

What a commit does to the memberships is said once, by `CommitEffect`; how it changes the number of owners follows from
that. A handler that has counted keeps every other commit on its workspace out, so it still finds two owners when it
commits. A handler that did not have to count may find that its target has become an owner meanwhile, and then nothing
protects the last one.
-/

namespace HamiCloud

open Library

namespace Proofs

variable {w w' : MemberWorld} {db db' : MemberDb} {h g : MemberHandler} {existing : Option WorkspaceMembership}
  {ws : Uuid}

/-! ### Commits -/

/-- What a commit has written when it succeeds. -/
inductive CommitEffect (h : MemberHandler) (db : MemberDb) : Option WorkspaceMembership → MemberDb → Prop
  | kept (existing : Option WorkspaceMembership) (audit : List WorkspaceAuditEvent) :
      CommitEffect h db existing { db with audit := audit }
  | inserted (workspaceId : Uuid) (userSubject : String) (role : WorkspaceRole) (memberships : Memberships)
      (audit : List WorkspaceAuditEvent) : h.request = .upsert workspaceId userSubject role →
      db.memberships.insert ⟨db.nextUuid, h.request.key, role⟩ = some memberships →
      CommitEffect h db none { db with memberships := memberships, audit := audit, nextUuid := db.nextUuid + 1 }
  | updated (workspaceId : Uuid) (userSubject : String) (role : WorkspaceRole) (existing : WorkspaceMembership)
      (audit : List WorkspaceAuditEvent) : h.request = .upsert workspaceId userSubject role →
      CommitEffect h db (some existing)
        { db with memberships := setRole db.memberships existing.id role, audit := audit }
  | removed (workspaceId : Uuid) (userSubject : String) (target : WorkspaceMembership)
      (audit : List WorkspaceAuditEvent) : h.request = .remove workspaceId userSubject →
      CommitEffect h db (some target) { db with memberships := db.memberships.erase target.id, audit := audit }

lemma get_setRole (memberships : Memberships) (id k : Uuid) (role : WorkspaceRole) :
    (setRole memberships id role).get k =
      if k = id then (memberships.get id).map fun m => { m with role := role } else memberships.get k :=
  Table.get_set memberships.toTable id (fun m => { m with role := role }) (fun _ => rfl) k

lemma setRole_follows (memberships : Memberships) (id : Uuid) (role : WorkspaceRole) (n : Nat) :
    memberships.Follows n (setRole memberships id role) n := by
  unfold setRole
  exact UniqueTable.follows_set

lemma record_eq_ok {caller : Caller} {key : MemberKey} {action : WorkspaceAuditAction}
    (hok : db.record caller key action = .ok db') : ∃ audit, db' = { db with audit := audit } := by
  obtain ⟨-, -, hpure⟩ := bind_eq_ok.mp hok
  exact ⟨_, (pure_eq_ok.mp hpure).symm⟩

lemma commit_effect (hok : h.commit db existing = .ok db') : CommitEffect h db existing db' := by
  unfold MemberHandler.commit at hok
  split at hok
  · rename_i workspaceId userSubject role hreq
    obtain ⟨memberships, hins, hrecord⟩ := bind_eq_ok.mp hok
    obtain ⟨audit, rfl⟩ := record_eq_ok hrecord
    exact .inserted workspaceId userSubject role memberships audit hreq (orError_eq_ok.mp hins)
  · rename_i workspaceId userSubject role existing hreq
    unfold MemberDb.updateMember at hok
    split at hok
    · obtain ⟨audit, rfl⟩ := record_eq_ok hok
      exact .kept _ audit
    · obtain ⟨-, -, hrecord⟩ := bind_eq_ok.mp hok
      obtain ⟨audit, rfl⟩ := record_eq_ok hrecord
      exact .updated workspaceId userSubject role existing audit hreq
  · rename_i workspaceId userSubject target hreq
    obtain ⟨audit, rfl⟩ := record_eq_ok hok
    exact .removed workspaceId userSubject target audit hreq
  · cases hok
    exact .kept none db.audit

/-- The row that is written is not an owner of the workspace, or becomes one. -/
def SparesOwners (h : MemberHandler) (db : MemberDb) (existing : Option WorkspaceMembership) (ws : Uuid) : Prop :=
  ∀ e ∈ existing, ∀ r, db.memberships.get e.id = some r → r.key.workspaceId = ws → r.role = .owner →
    h.request.grantsOwner = true

lemma CommitEffect.workspaces (he : CommitEffect h db existing db') : db'.workspaces = db.workspaces := by
  cases he <;> rfl

lemma CommitEffect.follows (he : CommitEffect h db existing db') :
    db.memberships.Follows db.nextUuid db'.memberships db'.nextUuid := by
  cases he with
  | kept => exact .refl _ _
  | inserted _ _ _ memberships audit hreq hins => exact UniqueTable.follows_insert hins le_rfl (Nat.lt_succ_self _)
  | updated => exact setRole_follows _ _ _ _
  | removed => exact UniqueTable.follows_erase

lemma ownerCount_insert {m : WorkspaceMembership} {memberships : Memberships}
    (hins : db.memberships.insert m = some memberships) (ws : Uuid) :
    db.ownerCount ws ≤ memberships.toTable.count fun m => m.key.workspaceId = ws && m.role = .owner := by
  rw [Table.count_insert (UniqueTable.toTable_insert hins)]
  exact Nat.le_add_right _ _

lemma CommitEffect.ownerCount_le (he : CommitEffect h db existing db') (hspares : SparesOwners h db existing ws) :
    db.ownerCount ws ≤ db'.ownerCount ws := by
  cases he with
  | kept => exact le_rfl
  | inserted _ _ _ memberships audit hreq hins => exact ownerCount_insert hins ws
  | updated workspaceId userSubject role e audit hreq =>
    refine Table.count_le fun k r hr hp => ?_
    by_cases hk : k = e.id
    · subst hk
      obtain ⟨hws, howner⟩ := Bool.and_eq_true_iff.mp hp
      have hgrants := hspares e rfl r hr (of_decide_eq_true hws) (of_decide_eq_true howner)
      rw [hreq] at hgrants
      refine ⟨_, (get_setRole _ _ _ _).trans ((if_pos rfl).trans (congrArg _ hr)), ?_⟩
      exact Bool.and_eq_true_iff.mpr ⟨hws, hgrants⟩
    · exact ⟨r, (get_setRole _ _ k _).trans ((if_neg hk).trans hr), hp⟩
  | removed workspaceId userSubject target audit hreq =>
    refine Table.count_le fun k r hr hp => ⟨r, ?_, hp⟩
    refine (Table.get_erase _ _ k).trans ((if_neg ?_).trans hr)
    rintro rfl
    obtain ⟨hws, howner⟩ := Bool.and_eq_true_iff.mp hp
    have hgrants := hspares target rfl r hr (of_decide_eq_true hws) (of_decide_eq_true howner)
    rw [hreq] at hgrants
    cases hgrants

lemma CommitEffect.ownerCount_le_succ (he : CommitEffect h db existing db') (ws : Uuid) :
    db.ownerCount ws ≤ db'.ownerCount ws + 1 := by
  cases he with
  | kept => exact Nat.le_succ _
  | inserted _ _ _ memberships audit hreq hins => exact (ownerCount_insert hins ws).trans (Nat.le_succ _)
  | updated workspaceId userSubject role e audit hreq =>
    refine Table.count_le_succ e.id fun k r hr hp hk => ⟨r, ?_, hp⟩
    exact (get_setRole _ _ k _).trans ((if_neg hk).trans hr)
  | removed workspaceId userSubject target audit hreq =>
    refine Table.count_le_succ target.id fun k r hr hp hk => ⟨r, ?_, hp⟩
    exact (Table.get_erase _ _ k).trans ((if_neg hk).trans hr)

/-! ### What a step does -/

/-- Where a handler comes from: it has just been authorized, has advanced, or was there. -/
inductive HandlerChange (w : MemberWorld) : MemberHandler → Prop
  | same (h : MemberHandler) : h ∈ w.pending → HandlerChange w h
  | authorized (caller : Caller) (request : MemberRequest) (h : MemberHandler) :
      authorizeMemberRequest w.db caller request = .ok h → HandlerChange w h
  | selected (h : MemberHandler) (phase : MemberPhase) : h ∈ w.pending → h.select w.db = .ok phase →
      HandlerChange w { h with phase := phase }
  | locked (h : MemberHandler) (e : WorkspaceMembership) : h ∈ w.pending → h.phase = .locking e →
      HandlerChange w { h with phase := .locked e }
  | counted (h : MemberHandler) (e : WorkspaceMembership) : h ∈ w.pending → h.phase = .locked e →
      1 < w.db.ownerCount h.request.workspaceId → HandlerChange w { h with phase := .counted e }

/-- The database changes only by the commit of a handler that nobody locks out. -/
inductive MemberChange (w : MemberWorld) : MemberLabel → MemberWorld → Prop
  | handlers (a : MemberLabel) (w' : MemberWorld) : w'.db = w.db → (∀ g ∈ w'.pending, HandlerChange w g) →
      MemberChange w a w'
  | created (n : NewWorkspace) (w' : MemberWorld) : w.db.createWorkspace n = .ok w'.db → w'.pending = w.pending →
      MemberChange w (.commitWorkspace n) w'
  | committed (h : MemberHandler) (existing : Option WorkspaceMembership) (w' : MemberWorld) : h ∈ w.pending →
      w.isLocked h = false → h.phase.toCommit = some existing → CommitEffect h w.db existing w'.db →
      w'.pending = w.pending.erase h → MemberChange w (.commit h) w'

/-- Handlers only end. -/
lemma MemberChange.ended (a : MemberLabel) (hdb : w'.db = w.db) (hpending : ∀ g ∈ w'.pending, g ∈ w.pending) :
    MemberChange w a w' :=
  .handlers a w' hdb fun g hg => .same g (hpending g hg)

lemma MemberChange.advance (a : MemberLabel) {result : Except ApiError MemberPhase}
    (hresult : ∀ phase, result = .ok phase → HandlerChange w { h with phase := phase }) :
    MemberChange w a (w.advance h result) := by
  cases result with
  | error err => exact .ended a rfl fun g hg => List.mem_of_mem_erase hg
  | ok phase =>
    refine .handlers a _ rfl fun g hg => ?_
    rcases List.mem_append.mp hg with hg | hg
    · exact .same g (List.mem_of_mem_erase hg)
    · rw [List.mem_singleton.mp hg]
      exact hresult phase rfl

lemma commit_change (hh : h ∈ w.pending) (hstep : w.commit h = some w') : MemberChange w (.commit h) w' := by
  unfold MemberWorld.commit at hstep
  split at hstep
  · cases hstep
  · rename_i hfree
    obtain ⟨existing, hread, hw'⟩ := Option.map_eq_some_iff.mp hstep
    split at hw'
    · rename_i db hcommit
      subst hw'
      exact .committed h existing _ hh (Bool.eq_false_iff.mpr hfree) hread (commit_effect hcommit) rfl
    · subst hw'
      exact .ended _ rfl fun g hg => List.mem_of_mem_erase hg

lemma member_step {a : MemberLabel} (hstep : w.step a = some w') : MemberChange w a w' := by
  cases a with
  | checkSlug n =>
    obtain ⟨-, ht⟩ := Option.ite_none_right_eq_some.mp hstep
    cases ht
    exact .ended _ rfl fun g hg => hg
  | commitWorkspace n =>
    obtain ⟨-, ht⟩ := Option.ite_none_right_eq_some.mp hstep
    split at ht
    · rename_i db hok
      cases ht
      exact .created n _ hok rfl
    · cases ht
      exact .ended _ rfl fun g hg => hg
  | authorize caller request =>
    simp only [MemberWorld.step] at hstep
    split at hstep
    · rename_i h hok
      cases hstep
      refine .handlers _ _ rfl fun g hg => ?_
      rcases List.mem_append.mp hg with hg | hg
      · exact .same g hg
      · rw [List.mem_singleton.mp hg]
        exact .authorized caller request h hok
    · cases hstep
  | select h =>
    obtain ⟨hh, ht⟩ := Option.ite_none_right_eq_some.mp hstep
    cases ht
    exact .advance _ fun phase hphase => .selected h phase hh.1 hphase
  | lock h =>
    obtain ⟨hh, ht⟩ := Option.ite_none_right_eq_some.mp hstep
    unfold MemberWorld.lock at ht
    split at ht
    · rename_i e hphase
      obtain ⟨-, ht⟩ := Option.ite_none_left_eq_some.mp ht
      cases ht
      refine .advance _ fun phase heq => ?_
      cases heq
      exact .locked h e hh hphase
    · cases ht
  | count h =>
    obtain ⟨hh, ht⟩ := Option.ite_none_right_eq_some.mp hstep
    unfold MemberWorld.count at ht
    split at ht
    · rename_i e hphase
      cases ht
      refine .advance _ fun phase hcount => ?_
      obtain ⟨_, htwo, hpure⟩ := bind_eq_ok.mp hcount
      obtain rfl := pure_eq_ok.mp hpure
      exact .counted h e hh hphase (ensure_eq_ok.mp htwo)
    · cases ht
  | commit h =>
    obtain ⟨hh, ht⟩ := Option.ite_none_right_eq_some.mp hstep
    exact commit_change hh ht
  | abort h =>
    obtain ⟨-, ht⟩ := Option.ite_none_right_eq_some.mp hstep
    cases ht
    exact .ended _ rfl fun g hg => List.mem_of_mem_erase hg

/-- What the creation of a workspace has written. -/
lemma createWorkspace_effect {n : NewWorkspace} (hok : db.createWorkspace n = .ok db') :
    db.workspaces.insert ⟨db.nextUuid, n.slug⟩ = some db'.workspaces ∧
      db.memberships.insert ⟨db.nextUuid + 1, ⟨db.nextUuid, n.caller.subject⟩, .owner⟩ = some db'.memberships ∧
      db'.nextUuid = db.nextUuid + 2 := by
  obtain ⟨-, -, hok⟩ := bind_eq_ok.mp hok
  obtain ⟨workspaces, hws, hok⟩ := bind_eq_ok.mp hok
  obtain ⟨memberships, hms, hok⟩ := bind_eq_ok.mp hok
  obtain rfl := pure_eq_ok.mp hok
  exact ⟨orError_eq_ok.mp hws, orError_eq_ok.mp hms, rfl⟩

lemma createWorkspace_follows {n : NewWorkspace} (hok : db.createWorkspace n = .ok db') :
    db.memberships.Follows db.nextUuid db'.memberships db'.nextUuid := by
  obtain ⟨-, hms, hnext⟩ := createWorkspace_effect hok
  exact UniqueTable.follows_insert hms (Nat.le_succ _) (hnext ▸ Nat.lt_succ_self _)

/-! ### What handlers have read -/

/-- The membership that a handler has read and may write. -/
def readMembership : MemberPhase → Option WorkspaceMembership
  | .authorized => none
  | .ready existing => existing
  | .locking existing | .locked existing | .counted existing => some existing

/-- Ids are not used again, so the row that a handler has read is still the one of its key. -/
structure MembersNamed (w : MemberWorld) : Prop where
  drawn : w.db.memberships.Below w.db.nextUuid
  named : ∀ h ∈ w.pending, ∀ e ∈ readMembership h.phase, w.db.memberships.Names w.db.nextUuid e.id h.request.key

lemma MembersNamed.init : MembersNamed memberSystem.init := ⟨List.forall_mem_nil _, List.forall_mem_nil _⟩

lemma loaded_id (h : MemberHandler) (row : WorkspaceMembership) : (h.loaded row).id = row.id := by
  unfold MemberHandler.loaded
  split
  · rename_i he
    exact he.symm
  · rfl

lemma select_reads {phase : MemberPhase} (hselect : h.select db = .ok phase) :
    ∀ e ∈ readMembership phase, ∃ row, db.memberships.find h.request.key = some row ∧ e.id = row.id := by
  have hread : ∀ e ∈ (db.memberships.find h.request.key).map h.loaded,
      ∃ row, db.memberships.find h.request.key = some row ∧ e.id = row.id := by
    intro e he
    obtain ⟨row, hrow, rfl⟩ := Option.map_eq_some_iff.mp he
    exact ⟨row, hrow, loaded_id h row⟩
  unfold MemberHandler.select at hselect
  split at hselect
  · cases hselect
    exact nofun
  · rename_i existing hfound
    obtain ⟨-, -, hpure⟩ := bind_eq_ok.mp hselect
    rw [pure_eq_ok] at hpure
    subst hpure
    split <;> exact fun e he => hread e (hfound ▸ he)
  · cases hselect
  · rename_i target hfound
    obtain ⟨-, -, hpure⟩ := bind_eq_ok.mp hselect
    rw [pure_eq_ok] at hpure
    subst hpure
    split <;> exact fun e he => hread e (hfound ▸ he)

/-- A handler does not skip its check. -/
lemma select_phase {phase : MemberPhase} (hselect : h.select db = .ok phase) (e : WorkspaceMembership) :
    phase ≠ .counted e := by
  unfold MemberHandler.select at hselect
  split at hselect
  · cases hselect
    exact nofun
  · obtain ⟨-, -, hpure⟩ := bind_eq_ok.mp hselect
    rw [pure_eq_ok] at hpure
    subst hpure
    split <;> exact nofun
  · cases hselect
  · obtain ⟨-, -, hpure⟩ := bind_eq_ok.mp hselect
    rw [pure_eq_ok] at hpure
    subst hpure
    split <;> exact nofun

/-- A handler that has read an owner goes on to count, unless its target stays an owner. -/
lemma select_spares {phase : MemberPhase} (hselect : h.select db = .ok phase) {e : WorkspaceMembership}
    (he : phase = .ready (some e)) (howner : e.role = .owner) : h.request.grantsOwner = true := by
  unfold MemberHandler.select at hselect
  split at hselect
  · cases hselect
    cases he
  · rename_i workspaceId userSubject role existing hreq hfound
    obtain ⟨-, -, hpure⟩ := bind_eq_ok.mp hselect
    rw [pure_eq_ok] at hpure
    subst hpure
    split at he
    · cases he
    · rename_i hkeeps
      cases he
      rw [hreq]
      exact decide_eq_true (not_not.mp fun hne => hkeeps ⟨howner, hne⟩)
  · cases hselect
  · obtain ⟨-, -, hpure⟩ := bind_eq_ok.mp hselect
    rw [pure_eq_ok] at hpure
    subst hpure
    split at he
    · cases he
    · rename_i hother
      cases he
      exact absurd howner hother

lemma authorizeMemberRequest_eq_ok {caller : Caller} {request : MemberRequest}
    (hok : authorizeMemberRequest db caller request = .ok h) :
    h.caller = caller ∧ h.request = request ∧ h.phase = .authorized ∧
      db.memberships.find ⟨request.workspaceId, caller.subject⟩ = some h.callerMembership ∧
      (request.grantsOwner = true → h.callerMembership.role = .owner) := by
  obtain ⟨-, -, hok⟩ := bind_eq_ok.mp hok
  obtain ⟨membership, haccess, hok⟩ := bind_eq_ok.mp hok
  obtain ⟨_, hgrants, hok⟩ := bind_eq_ok.mp hok
  obtain rfl := pure_eq_ok.mp hok
  obtain ⟨found, hfound, haccess⟩ := bind_eq_ok.mp haccess
  obtain ⟨-, -, hpure⟩ := bind_eq_ok.mp haccess
  obtain rfl := pure_eq_ok.mp hpure
  exact ⟨rfl, rfl, rfl, orError_eq_ok.mp hfound, ensure_eq_ok.mp hgrants⟩

lemma MembersNamed.handler (hw : MembersNamed w) (hg : HandlerChange w g) :
    ∀ e ∈ readMembership g.phase, w.db.memberships.Names w.db.nextUuid e.id g.request.key := by
  cases hg with
  | same _ hg => exact hw.named g hg
  | authorized caller request _ hok =>
    rw [(authorizeMemberRequest_eq_ok hok).2.2.1]
    exact nofun
  | selected h phase hh hselect =>
    intro e he
    obtain ⟨row, hrow, hid⟩ := select_reads hselect e he
    exact hid ▸ hw.drawn.names_of_find hrow
  | locked h e hh hphase => exact fun e' he' => hw.named h hh e' (hphase ▸ he')
  | counted h e hh hphase htwo => exact fun e' he' => hw.named h hh e' (hphase ▸ he')

lemma MembersNamed.step {a : MemberLabel} (hw : MembersNamed w) (hchange : MemberChange w a w') : MembersNamed w' := by
  cases hchange with
  | handlers _ _ hdb hhandlers =>
    exact ⟨hdb ▸ hw.drawn, fun g hg => hdb ▸ hw.handler (hhandlers g hg)⟩
  | created n _ hok hpending =>
    have hfollows := createWorkspace_follows hok
    exact ⟨hw.drawn.follows hfollows, fun g hg e he => (hw.named g (hpending ▸ hg) e he).follows hfollows⟩
  | committed h existing _ hh hfree hread heffect hpending =>
    refine ⟨hw.drawn.follows heffect.follows, fun g hg e he => ?_⟩
    exact (hw.named g (List.mem_of_mem_erase (hpending ▸ hg)) e he).follows heffect.follows

lemma mem_readMembership (hread : h.phase.toCommit = some existing) {e : WorkspaceMembership} (he : e ∈ existing) :
    e ∈ readMembership h.phase := by
  cases hphase : h.phase with
  | ready found | counted found =>
    rw [hphase] at hread
    cases hread
    exact he
  | authorized | locking _ | locked _ =>
    rw [hphase] at hread
    cases hread

/-- The row that a commit addresses is the one of the request's key. -/
lemma MembersNamed.key_eq (hw : MembersNamed w) (hh : h ∈ w.pending) (hread : h.phase.toCommit = some existing)
    {e r : WorkspaceMembership} (he : e ∈ existing) (hr : w.db.memberships.get e.id = some r) :
    r.key = h.request.key :=
  (hw.named h hh e (mem_readMembership hread he)).2 r (Table.mem_of_get hr) (Table.key_of_get hr)

/-! ### At least one owner -/

structure MembersOK (w : MemberWorld) : Prop where
  named : MembersNamed w
  owned : ∀ ws ∈ w.db.workspaces.rows, 1 ≤ w.db.ownerCount ws.id
  counted : ∀ h ∈ w.pending, ∀ e, h.phase = .counted e → 1 < w.db.ownerCount h.request.workspaceId
  /-- a handler that has read an owner is spared the count only if it leaves the role alone -/
  spared : ∀ h ∈ w.pending, ∀ e, h.phase = .ready (some e) → e.role = .owner → h.request.grantsOwner = true

/-- A commit that was spared the count, because the target it has read was no owner, does not find that the target has
become one meanwhile. -/
def noStaleTarget (w : MemberWorld) : MemberLabel → Bool
  | .commit h =>
    match h.phase with
    | .ready (some existing) =>
      existing.role = .owner || (w.db.memberships.get existing.id).all fun m => m.role ≠ .owner
    | _ => true
  | _ => true

lemma MembersOK.init : MembersOK memberSystem.init :=
  ⟨.init, List.forall_mem_nil _, List.forall_mem_nil _, List.forall_mem_nil _⟩

lemma MembersOK.handler (hw : MembersOK w) (hg : HandlerChange w g) :
    ∀ e, g.phase = .counted e → 1 < w.db.ownerCount g.request.workspaceId := by
  intro e he
  cases hg with
  | same _ hg => exact hw.counted g hg e he
  | authorized caller request _ hok =>
    rw [(authorizeMemberRequest_eq_ok hok).2.2.1] at he
    cases he
  | selected h phase hh hselect => exact absurd he (select_phase hselect e)
  | locked h e' hh hphase => cases he
  | counted h e' hh hphase htwo => exact htwo

lemma MembersOK.spared_handler (hw : MembersOK w) (hg : HandlerChange w g) :
    ∀ e, g.phase = .ready (some e) → e.role = .owner → g.request.grantsOwner = true := by
  intro e he howner
  cases hg with
  | same _ hg => exact hw.spared g hg e he howner
  | authorized caller request _ hok =>
    rw [(authorizeMemberRequest_eq_ok hok).2.2.1] at he
    cases he
  | selected h phase hh hselect => exact select_spares hselect he howner
  | locked h e' hh hphase => cases he
  | counted h e' hh hphase htwo => cases he

lemma not_holdsLock_of_mem_erase (hlocked : w.isLocked h = false) (hg : g ∈ w.pending.erase h) :
    g.holdsLock h.request.workspaceId = false := by
  simpa using List.any_eq_false.mp hlocked g hg

/-- The commit of a handler leaves the owners of every other workspace alone. -/
lemma MembersNamed.sparesOwners (hw : MembersNamed w) (hh : h ∈ w.pending) (hread : h.phase.toCommit = some existing)
    (hne : ws ≠ h.request.workspaceId) : SparesOwners h w.db existing ws := by
  intro e he r hr hws _
  exact absurd (hws.symm.trans (congrArg MemberKey.workspaceId (hw.key_eq hh hread he hr))) hne

/-- A handler that has not counted takes no owner away, by the condition on the run; one that has leaves the other. -/
lemma MembersOK.owned_commit (hw : MembersOK w) (hh : h ∈ w.pending) (hC : noStaleTarget w (.commit h) = true)
    (hread : h.phase.toCommit = some existing) (heffect : CommitEffect h w.db existing db')
    {x : Workspace} (hx : x ∈ w.db.workspaces.rows) : 1 ≤ db'.ownerCount x.id := by
  have howned := hw.owned x hx
  by_cases hws : x.id = h.request.workspaceId
  · cases hphase : h.phase with
    | ready found =>
      rw [hphase] at hread
      cases hread
      refine howned.trans (heffect.ownerCount_le fun e he r hr _ howner => ?_)
      cases he
      simp only [noStaleTarget, hphase, hr, Option.all_some, Bool.or_eq_true, decide_eq_true_eq] at hC
      -- the target was read as an owner, or it is none when the handler commits
      rcases hC with hread | hnone
      · exact hw.spared h hh e hphase hread
      · exact absurd howner hnone
    | counted found =>
      have htwo := hw.counted h hh found hphase
      have hone := heffect.ownerCount_le_succ h.request.workspaceId
      rw [hws]
      omega
    | authorized | locking _ | locked _ =>
      rw [hphase] at hread
      cases hread
  · exact howned.trans (heffect.ownerCount_le (hw.named.sparesOwners hh hread hws))

lemma MembersOK.step {a : MemberLabel} (hw : MembersOK w) (hC : noStaleTarget w a = true)
    (hchange : MemberChange w a w') : MembersOK w' := by
  refine ⟨hw.named.step hchange, ?_, ?_, ?_⟩
  · intro x hx
    cases hchange with
    | handlers _ _ hdb hhandlers =>
      rw [hdb] at hx ⊢
      exact hw.owned x hx
    | created n _ hok hpending =>
      obtain ⟨hws, hms, -⟩ := createWorkspace_effect hok
      rcases (UniqueTable.mem_insert hws).mp hx with hold | rfl
      · exact (hw.owned x hold).trans (ownerCount_insert hms x.id)
      · refine List.countP_pos_iff.mpr ⟨_, (UniqueTable.mem_insert hms).mpr (.inr rfl), ?_⟩
        exact Bool.and_eq_true_iff.mpr ⟨decide_eq_true rfl, rfl⟩
    | committed h existing _ hh hfree hread heffect hpending =>
      exact hw.owned_commit hh hC hread heffect (heffect.workspaces ▸ hx)
  · intro g hg e he
    cases hchange with
    | handlers _ _ hdb hhandlers =>
      rw [hdb]
      exact hw.handler (hhandlers g hg) e he
    | created n _ hok hpending =>
      obtain ⟨-, hms, -⟩ := createWorkspace_effect hok
      exact (hw.counted g (hpending ▸ hg) e he).trans_le (ownerCount_insert hms _)
    | committed h existing _ hh hfree hread heffect hpending =>
      -- no other handler of the workspace has the lock, so none has counted
      rw [hpending] at hg
      have hunlocked := not_holdsLock_of_mem_erase hfree hg
      refine (hw.counted g (List.mem_of_mem_erase hg) e he).trans_le (heffect.ownerCount_le ?_)
      refine hw.named.sparesOwners hh hread fun hws => ?_
      simp [MemberHandler.holdsLock, he, hws] at hunlocked
  · intro g hg e he howner
    cases hchange with
    | handlers _ _ hdb hhandlers => exact hw.spared_handler (hhandlers g hg) e he howner
    | created n _ hok hpending => exact hw.spared g (hpending ▸ hg) e he howner
    | committed h existing _ hh hfree hread heffect hpending =>
      exact hw.spared g (List.mem_of_mem_erase (hpending ▸ hg)) e he howner

/-- Every workspace keeps an owner, as long as no handler that was spared the count, because it has read a target that
was no owner, commits while that target is an owner. -/
theorem every_workspace_has_owner (hs : memberSystem.Reach (fun w a => noStaleTarget w a = true) w) :
    ∀ ws ∈ w.db.workspaces.rows, ∃ m ∈ w.db.memberships.rows, m.key.workspaceId = ws.id ∧ m.role = .owner := by
  intro ws hws
  have hok : MembersOK w := hs.invariant .init fun _ _ _ hw hC h => hw.step hC (member_step h)
  obtain ⟨m, hm, hp⟩ := List.countP_pos_iff.mp (hok.owned ws hws)
  obtain ⟨hkey, howner⟩ := Bool.and_eq_true_iff.mp hp
  exact ⟨m, hm, of_decide_eq_true hkey, of_decide_eq_true howner⟩

/-! ### Who becomes an owner -/

/-- The subject of the key was an owner of its workspace at some moment of the run. -/
def WasOwner (w : MemberWorld) (key : MemberKey) : Prop :=
  ∃ w₀, memberSystem.Reachable w₀ ∧ memberSystem.Path (fun _ _ => True) w₀ w ∧
    ∃ m ∈ w₀.db.memberships.rows, m.key = key ∧ m.role = .owner

/-- Handlers that grant the role were started by owners. -/
structure GrantsOK (w : MemberWorld) : Prop where
  reachable : memberSystem.Reachable w
  named : MembersNamed w
  owners : ∀ h ∈ w.pending, h.request.grantsOwner = true → WasOwner w ⟨h.request.workspaceId, h.caller.subject⟩

lemma GrantsOK.init : GrantsOK memberSystem.init := ⟨.refl _, .init, List.forall_mem_nil _⟩

lemma GrantsOK.handler (hw : GrantsOK w) (hg : HandlerChange w g) (hgrants : g.request.grantsOwner = true) :
    WasOwner w ⟨g.request.workspaceId, g.caller.subject⟩ := by
  cases hg with
  | same _ hg => exact hw.owners g hg hgrants
  | selected h phase hh hselect => exact hw.owners h hh hgrants
  | locked h e hh hphase => exact hw.owners h hh hgrants
  | counted h e hh hphase htwo => exact hw.owners h hh hgrants
  | authorized caller request _ hok =>
    obtain ⟨hcaller, hrequest, -, hfound, howner⟩ := authorizeMemberRequest_eq_ok hok
    refine ⟨w, hw.reachable, .refl w, g.callerMembership, UniqueTable.mem_of_find hfound, ?_, howner (hrequest ▸ hgrants)⟩
    rw [hcaller, hrequest]
    exact UniqueTable.alt_of_find hfound

lemma GrantsOK.step {a : MemberLabel} (hw : GrantsOK w) (hstep : memberSystem.step w a = some w') : GrantsOK w' := by
  have hchange := member_step hstep
  refine ⟨.tail a hw.reachable trivial hstep, hw.named.step hchange, fun g hg hgrants => ?_⟩
  obtain ⟨w₀, hreach, hpath, hm⟩ : WasOwner w ⟨g.request.workspaceId, g.caller.subject⟩ := by
    cases hchange with
    | handlers _ _ hdb hhandlers => exact hw.handler (hhandlers g hg) hgrants
    | created n _ hok hpending => exact hw.owners g (hpending ▸ hg) hgrants
    | committed h existing _ hh hfree hread heffect hpending =>
      exact hw.owners g (List.mem_of_mem_erase (hpending ▸ hg)) hgrants
  exact ⟨w₀, hreach, .tail a hpath trivial hstep, hm⟩

/-- A commit makes owners by a request that says so. -/
lemma CommitEffect.new_owner (heffect : CommitEffect h db existing db')
    (hkey : ∀ e ∈ existing, ∀ r, db.memberships.get e.id = some r → r.key = h.request.key)
    {m' : WorkspaceMembership} (hm' : m' ∈ db'.memberships.rows) (howner : m'.role = .owner) :
    (∃ m ∈ db.memberships.rows, m.key = m'.key ∧ m.role = .owner) ∨
      h.request.grantsOwner = true ∧ h.request.key = m'.key := by
  cases heffect with
  | kept => exact .inl ⟨m', hm', rfl, howner⟩
  | inserted workspaceId userSubject role memberships audit hreq hins =>
    rcases (UniqueTable.mem_insert hins).mp hm' with hold | rfl
    · exact .inl ⟨m', hold, rfl, howner⟩
    · refine .inr ⟨?_, rfl⟩
      rw [hreq]
      exact decide_eq_true howner
  | updated workspaceId userSubject role e audit hreq =>
    have hget := Table.get_of_mem hm'
    rw [get_setRole] at hget
    split at hget
    · rename_i hid
      obtain ⟨r, hr, rfl⟩ := Option.map_eq_some_iff.mp hget
      refine .inr ⟨?_, (hkey e rfl r hr).symm⟩
      rw [hreq]
      exact decide_eq_true howner
    · exact .inl ⟨m', Table.mem_of_get hget, rfl, howner⟩
  | removed workspaceId userSubject target audit hreq =>
    exact .inl ⟨m', (UniqueTable.mem_erase.mp hm').1, rfl, howner⟩

/-- Whoever becomes an owner has created the workspace, or was granted the role by a request of somebody who was an
owner of the workspace when the request was authorized. -/
theorem owner_role_granted_by_owner (hs : memberSystem.Reachable w) {a : MemberLabel}
    (hstep : memberSystem.step w a = some w') {m' : WorkspaceMembership} (hm' : m' ∈ w'.db.memberships.rows)
    (howner : m'.role = .owner) (hnew : ∀ m ∈ w.db.memberships.rows, m.key = m'.key → m.role ≠ .owner) :
    (∃ n, a = .commitWorkspace n ∧ n.caller.subject = m'.key.userSubject ∧
      ∀ ws ∈ w.db.workspaces.rows, ws.id ≠ m'.key.workspaceId) ∨
    ∃ h, a = .commit h ∧ h.request.grantsOwner = true ∧ h.request.key = m'.key ∧
      WasOwner w ⟨m'.key.workspaceId, h.caller.subject⟩ := by
  have hok : GrantsOK w := System.Reach.invariant .init (fun _ _ _ hw _ h => hw.step h) hs
  cases member_step hstep with
  | handlers _ _ hdb hhandlers => exact absurd howner (hnew m' (hdb ▸ hm') rfl)
  | created n _ hcreate hpending =>
    obtain ⟨hws, hms, -⟩ := createWorkspace_effect hcreate
    rcases (UniqueTable.mem_insert hms).mp hm' with hold | rfl
    · exact absurd howner (hnew m' hold rfl)
    · exact .inl ⟨n, rfl, rfl, fun ws hws' => (UniqueTable.insert_eq_some hws).2.1 ws hws'⟩
  | committed h existing _ hh hfree hread heffect hpending =>
    rcases heffect.new_owner (fun e he r hr => hok.named.key_eq hh hread he hr) hm' howner with
      ⟨m, hm, hkey, hold⟩ | ⟨hgrants, hkey⟩
    · exact absurd hold (hnew m hm hkey)
    · refine .inr ⟨h, rfl, hgrants, hkey, ?_⟩
      rw [← hkey]
      exact hok.owners h hh hgrants

/-! ### Runs -/

/-- A handler that serves a request of the first owner. -/
def ofFirstOwner (request : MemberRequest) (phase : MemberPhase) : MemberHandler :=
  ⟨⟨"a"⟩, request, ⟨1, ⟨0, "a"⟩, .owner⟩, phase⟩

def secondMember : WorkspaceMembership := ⟨2, ⟨0, "b"⟩, .admin⟩

/-- The first owner creates a workspace and adds an admin. -/
def addSecondMember : List MemberLabel :=
  let n : NewWorkspace := ⟨⟨"a"⟩, "Team", "team"⟩
  let add : MemberRequest := .upsert 0 "b" .admin
  [.checkSlug n, .commitWorkspace n, .authorize ⟨"a"⟩ add, .select (ofFirstOwner add .authorized),
    .commit (ofFirstOwner add (.ready none))]

/-- A request to demote the second member reads its membership, an admin's, and is spared the count. -/
def readSecondMember : List MemberLabel :=
  let demote : MemberRequest := .upsert 0 "b" .developer
  [.authorize ⟨"a"⟩ demote, .select (ofFirstOwner demote .authorized)]

/-- The request to demote the second member commits on the membership that it has read. -/
def demoteSecondMember : MemberLabel :=
  .commit (ofFirstOwner (.upsert 0 "b" .developer) (.ready (some secondMember)))

/-- The first owner makes the second member an owner too and steps down, which takes the lock and the count. -/
def handOver (readB : WorkspaceMembership) : List MemberLabel :=
  let promote : MemberRequest := .upsert 0 "b" .owner
  let stepDown : MemberRequest := .upsert 0 "a" .admin
  let self : WorkspaceMembership := ⟨1, ⟨0, "a"⟩, .owner⟩
  [.authorize ⟨"a"⟩ promote, .select (ofFirstOwner promote .authorized),
    .commit (ofFirstOwner promote (.ready (some readB))),
    .authorize ⟨"a"⟩ stepDown, .select (ofFirstOwner stepDown .authorized), .lock (ofFirstOwner stepDown (.locking self)),
    .count (ofFirstOwner stepDown (.locked self)), .commit (ofFirstOwner stepDown (.counted self))]

/-- The run before the first owner's promotion of the second member commits. -/
def promotion : memberSystem.FreeRun where
  labels :=
    let promote : MemberRequest := .upsert 0 "b" .owner
    addSecondMember ++ [.authorize ⟨"a"⟩ promote, .select (ofFirstOwner promote .authorized)]
  executes := by decide +kernel

def commitPromotion : MemberLabel := .commit (ofFirstOwner (.upsert 0 "b" .owner) (.ready (some secondMember)))

theorem owner_role_granted_by_owner_promoted :
    ∃ w', memberSystem.step promotion.final commitPromotion = some w' ∧
      ⟨2, ⟨0, "b"⟩, .owner⟩ ∈ w'.db.memberships.rows ∧ WasOwner promotion.final ⟨0, "a"⟩ := by
  have hcommit : (memberSystem.step promotion.final commitPromotion).any
      (fun w' => ⟨2, ⟨0, "b"⟩, .owner⟩ ∈ w'.db.memberships.rows) = true := by decide +kernel
  obtain ⟨w', hstep, hmem⟩ := (Option.any_eq_true _ _).mp hcommit
  have hnew : ∀ m ∈ promotion.final.db.memberships.rows, m.key = ⟨0, "b"⟩ → m.role ≠ .owner := by decide +kernel
  refine ⟨w', hstep, of_decide_eq_true hmem, ?_⟩
  rcases owner_role_granted_by_owner promotion.reachable hstep (of_decide_eq_true hmem) rfl hnew with
    ⟨n, hlabel, -⟩ | ⟨h, hlabel, -, -, hwas⟩
  · cases hlabel
  · cases hlabel
    exact hwas

/-- The only owner is upserted as what it is, which no lock and no count guards. -/
def confirmFirstOwner : List MemberLabel :=
  let confirm : MemberRequest := .upsert 0 "a" .owner
  [.authorize ⟨"a"⟩ confirm, .select (ofFirstOwner confirm .authorized),
    .commit (ofFirstOwner confirm (.ready (some ⟨1, ⟨0, "a"⟩, .owner⟩)))]

/-- The run in which the demotion commits before the second member is promoted. -/
def orderedHandOver : memberSystem.Run noStaleTarget where
  labels := addSecondMember ++ confirmFirstOwner ++ readSecondMember ++ [demoteSecondMember] ++
    handOver ⟨2, ⟨0, "b"⟩, .developer⟩
  executes := by decide +kernel

theorem every_workspace_has_owner_handed_over :
    orderedHandOver.final.db.memberships.rows = [⟨1, ⟨0, "a"⟩, .admin⟩, ⟨2, ⟨0, "b"⟩, .owner⟩] ∧
      ∀ ws ∈ orderedHandOver.final.db.workspaces.rows,
        ∃ m ∈ orderedHandOver.final.db.memberships.rows, m.key.workspaceId = ws.id ∧ m.role = .owner :=
  ⟨by decide +kernel, every_workspace_has_owner orderedHandOver.reach⟩

/-- The run in which the demotion, whose target was read before the hand-over, commits after it. -/
def staleDemotion : memberSystem.FreeRun where
  labels := addSecondMember ++ readSecondMember ++ handOver secondMember ++ [demoteSecondMember]
  executes := by decide +kernel

/-- The workspace is left with an admin and a developer, and nobody can grant the owner role any more. -/
theorem stale_demotion_leaves_no_owner :
    memberSystem.Reachable staleDemotion.final ∧
      staleDemotion.final.db.memberships.rows = [⟨1, ⟨0, "a"⟩, .admin⟩, ⟨2, ⟨0, "b"⟩, .developer⟩] ∧
      ¬∀ ws ∈ staleDemotion.final.db.workspaces.rows,
        ∃ m ∈ staleDemotion.final.db.memberships.rows, m.key.workspaceId = ws.id ∧ m.role = .owner :=
  ⟨staleDemotion.reachable, by decide +kernel, by decide +kernel⟩

end Proofs

end HamiCloud
