import HamiCloud.Api.Secrets
import HamiCloud.Library.History
import HamiCloud.Library.Sequential

/-!
# Versions of a secret

The version of a secret counts its upserts as long as no upsert writes over a rotation that it has not seen. A rotation
computes the new version from the row it has read without locking it, so that two overlapping rotations store the same
version.
-/

namespace HamiCloud

open Library

/-- The secret of a `secret.created` or a `secret.rotated`. -/
def WorkspaceAuditEvent.upserted (e : WorkspaceAuditEvent) : Option SecretKey :=
  match e.action with
  | .secretCreated name _ => some ⟨e.workspaceId, name⟩
  | .secretRotated name _ => some ⟨e.workspaceId, name⟩
  | _ => none

def WorkspaceAuditEvent.createsSecret (e : WorkspaceAuditEvent) : Bool :=
  match e.action with
  | .secretCreated _ _ => true
  | _ => false

/-- The `key_version` in the details. -/
def WorkspaceAuditEvent.keyVersion (e : WorkspaceAuditEvent) : Nat :=
  match e.action with
  | .secretCreated _ keyVersion => keyVersion
  | .secretRotated _ keyVersion => keyVersion
  | _ => 0

/-- The upserts of the present incarnation of a secret, or of the last one. -/
def upsertsSinceCreation (key : SecretKey) (audit : List WorkspaceAuditEvent) : List WorkspaceAuditEvent :=
  sinceLast WorkspaceAuditEvent.createsSecret (audit.filter fun e => e.upserted = some key)

/-- A rotation that commits has read the version that the secret has, if the secret still exists. -/
def readsCurrentVersion (w : SecretWorld) : SecretLabel → Bool
  | .commit ⟨_, .upsert _ _, some (some existing)⟩ =>
    (w.store.secrets.get existing.id).all fun s => s.keyVersion = existing.keyVersion
  | _ => true

namespace Proofs

variable {w w' : SecretWorld} {l : SecretLabel} {key : SecretKey} {audit : List WorkspaceAuditEvent}

section Upserts

variable {e : WorkspaceAuditEvent}

lemma upsertsSinceCreation_other (he : e.upserted ≠ some key) :
    upsertsSinceCreation key (audit ++ [e]) = upsertsSinceCreation key audit := by
  simp [upsertsSinceCreation, he]

lemma upsertsSinceCreation_created (he : e.upserted = some key) (hc : e.createsSecret = true) :
    upsertsSinceCreation key (audit ++ [e]) = [e] := by
  simp [upsertsSinceCreation, he, hc]

lemma upsertsSinceCreation_rotated (he : e.upserted = some key) (hc : e.createsSecret = false) :
    upsertsSinceCreation key (audit ++ [e]) = upsertsSinceCreation key audit ++ [e] := by
  simp [upsertsSinceCreation, he, hc]

end Upserts

/-- What a step does to the stored secrets and the audit log. -/
inductive SecretStep (w : SecretWorld) (l : SecretLabel) (store : SecretStore) : Prop
  | quiet (hstore : store = w.store)
  | created (h : SecretHandler) (key : SecretKey) (encryptedValue : String)
      (hins : w.store.secrets.insert ⟨w.store.nextUuid, key, encryptedValue, 1⟩ = some store.secrets)
      (haudit : store.audit = w.store.audit ++ [⟨key.workspaceId, h.caller.subject, .secretCreated key.name 1⟩])
      (hnext : store.nextUuid = w.store.nextUuid + 1)
  | rotated (h : SecretHandler) (key : SecretKey) (encryptedValue : String) (existing r : SecretReference)
      (hl : l = .commit h) (hh : h ∈ w.pending) (hreq : h.request = .upsert key encryptedValue)
      (hfound : h.found = some (some existing)) (hr : w.store.secrets.get existing.id = some r)
      (hsecrets : store.secrets = w.store.secrets.set existing.id fun s =>
        { s with encryptedValue := encryptedValue, keyVersion := existing.keyVersion + 1 })
      (haudit : store.audit = w.store.audit ++
        [⟨key.workspaceId, h.caller.subject, .secretRotated key.name (existing.keyVersion + 1)⟩])
      (hnext : store.nextUuid = w.store.nextUuid)
  | deleted (h : SecretHandler) (key : SecretKey) (target : SecretReference)
      (hsecrets : store.secrets = w.store.secrets.erase target.id)
      (haudit : store.audit = w.store.audit ++ [⟨key.workspaceId, h.caller.subject, .secretDeleted key.name⟩])
      (hnext : store.nextUuid = w.store.nextUuid)

lemma createSecret_inv {store store' : SecretStore} {caller : Caller} {encryptedValue : String}
    (h : createSecret store caller key encryptedValue = .ok store') :
    ∃ secrets, store.secrets.insert ⟨store.nextUuid, key, encryptedValue, 1⟩ = some secrets ∧
      store' = {
        secrets := secrets
        audit := store.audit ++ [⟨key.workspaceId, caller.subject, .secretCreated key.name 1⟩]
        nextUuid := store.nextUuid + 1 } := by
  simp only [createSecret, bind_eq_ok, orError_eq_ok, pure_eq_ok] at h
  obtain ⟨secrets, hins, rfl⟩ := h
  exact ⟨secrets, hins, rfl⟩

lemma rotateSecret_inv {store store' : SecretStore} {caller : Caller} {encryptedValue : String}
    {existing : SecretReference} (h : rotateSecret store caller key encryptedValue existing = .ok store') :
    (store.secrets.get existing.id).isSome = true ∧
      store' = { store with
        secrets := store.secrets.set existing.id fun s =>
          { s with encryptedValue := encryptedValue, keyVersion := existing.keyVersion + 1 }
        audit := store.audit ++
          [⟨key.workspaceId, caller.subject, .secretRotated key.name (existing.keyVersion + 1)⟩] } := by
  simp only [rotateSecret, bind_eq_ok, ensure_eq_ok, pure_eq_ok] at h
  obtain ⟨-, -, -, hsome, rfl⟩ := h
  exact ⟨hsome, rfl⟩

lemma secretStep (hstep : secretSystem.step w l = some w') : SecretStep w l w'.store := by
  cases l with
  | members memberships =>
    obtain rfl := Option.some.inj hstep
    exact .quiet rfl
  | authorize caller request =>
    simp only [secretSystem, SecretWorld.step, SecretWorld.authorize] at hstep
    split at hstep
    · split at hstep
      · obtain rfl := Option.some.inj hstep
        exact .quiet rfl
      · cases hstep
    · cases hstep
  | select h =>
    simp only [secretSystem, SecretWorld.step, SecretWorld.select] at hstep
    split at hstep
    · split at hstep <;>
      · obtain rfl := Option.some.inj hstep
        exact .quiet rfl
    · cases hstep
  | commit h =>
    simp only [secretSystem, SecretWorld.step, SecretWorld.commit] at hstep
    split at hstep
    case isFalse => cases hstep
    rename_i hh
    obtain ⟨result, hresult, rfl⟩ := Option.map_eq_some_iff.mp hstep
    cases result with
    | error e => exact .quiet rfl
    | ok store =>
      unfold SecretHandler.commit at hresult
      split at hresult
      · rename_i key encryptedValue hreq hfound
        obtain ⟨secrets, hins, rfl⟩ := createSecret_inv (Option.some.inj hresult)
        exact .created h key encryptedValue hins rfl rfl
      · rename_i key encryptedValue existing hreq hfound
        obtain ⟨hsome, rfl⟩ := rotateSecret_inv (Option.some.inj hresult)
        obtain ⟨r, hr⟩ := Option.isSome_iff_exists.mp hsome
        exact .rotated h key encryptedValue existing r rfl hh hreq hfound hr rfl rfl rfl
      · rename_i key target hreq hfound
        obtain rfl := Except.ok.inj (Option.some.inj hresult)
        exact .deleted h key target rfl rfl rfl
      · cases hresult

/-- A handler is new, has just run its `SELECT`, or was there before. -/
lemma secretStep_pending (hstep : secretSystem.step w l = some w') {h : SecretHandler} (hh : h ∈ w'.pending) :
    h ∈ w.pending ∨ h.found = none ∨ h.found = some (w.store.secrets.find h.request.key) ∧ w'.store = w.store := by
  cases l with
  | members memberships =>
    obtain rfl := Option.some.inj hstep
    exact .inl hh
  | authorize caller request =>
    simp only [secretSystem, SecretWorld.step, SecretWorld.authorize] at hstep
    split at hstep
    · split at hstep
      · obtain rfl := Option.some.inj hstep
        rcases List.mem_append.mp hh with hh | hh
        · exact .inl hh
        · rw [List.mem_singleton.mp hh]
          exact .inr (.inl rfl)
      · cases hstep
    · cases hstep
  | select h₀ =>
    simp only [secretSystem, SecretWorld.step, SecretWorld.select] at hstep
    split at hstep
    · split at hstep
      · obtain rfl := Option.some.inj hstep
        exact .inl (List.mem_of_mem_erase hh)
      · obtain rfl := Option.some.inj hstep
        rcases List.mem_append.mp hh with hh | hh
        · exact .inl (List.mem_of_mem_erase hh)
        · rw [List.mem_singleton.mp hh]
          exact .inr (.inr ⟨rfl, rfl⟩)
    · cases hstep
  | commit h₀ =>
    simp only [secretSystem, SecretWorld.step, SecretWorld.commit] at hstep
    split at hstep
    case isFalse => cases hstep
    obtain ⟨result, -, rfl⟩ := Option.map_eq_some_iff.mp hstep
    refine .inl (List.mem_of_mem_erase (a := h) (b := h₀) ?_)
    cases result <;> exact hh

structure SecretInv (w : SecretWorld) : Prop where
  below : w.store.secrets.Below w.store.nextUuid
  /-- the row that a handler has read is the only one with its id, also later -/
  found : ∀ h ∈ w.pending, ∀ existing, h.found = some (some existing) →
    w.store.secrets.Names w.store.nextUuid existing.id h.request.key
  count : ∀ s ∈ w.store.secrets.rows, s.keyVersion = (upsertsSinceCreation s.key w.store.audit).length
  versions : ∀ key log, log <+: w.store.audit →
    Sequential ((upsertsSinceCreation key log).map WorkspaceAuditEvent.keyVersion)

lemma secretInv_init : SecretInv secretSystem.init where
  below := by simp [secretSystem, UniqueTable.Below, UniqueTable.empty, Table.empty]
  found := by simp [secretSystem]
  count := by simp [secretSystem, UniqueTable.empty, Table.empty]
  versions := by
    rintro key log hlog
    rw [List.prefix_nil.mp hlog]
    exact sequential_nil

/-- The versions in every stretch of the log, once they are in order in the whole of it. -/
lemma versions_concat {e : WorkspaceAuditEvent}
    (h : ∀ key log, log <+: audit → Sequential ((upsertsSinceCreation key log).map WorkspaceAuditEvent.keyVersion))
    (he : ∀ key, e.upserted = some key →
      Sequential ((upsertsSinceCreation key (audit ++ [e])).map WorkspaceAuditEvent.keyVersion)) (key : SecretKey)
    (log : List WorkspaceAuditEvent) (hlog : log <+: audit ++ [e]) :
    Sequential ((upsertsSinceCreation key log).map WorkspaceAuditEvent.keyVersion) := by
  rcases List.prefix_concat_iff.mp hlog with rfl | hlog
  · by_cases hkey : e.upserted = some key
    · exact he key hkey
    · rw [upsertsSinceCreation_other hkey]
      exact h key audit List.prefix_rfl
  · exact h key log hlog

lemma SecretStep.follows {store : SecretStore} (h : SecretStep w l store) :
    w.store.secrets.Follows w.store.nextUuid store.secrets store.nextUuid := by
  cases h with
  | quiet hstore => exact hstore ▸ .refl _ _
  | created h key encryptedValue hins haudit hnext =>
    exact UniqueTable.follows_insert hins le_rfl (hnext ▸ Nat.lt_succ_self _)
  | rotated h key encryptedValue existing r hl hh hreq hfound hr hsecrets haudit hnext =>
    rw [hsecrets, hnext]
    exact UniqueTable.follows_set
  | deleted h key target hsecrets haudit hnext =>
    rw [hsecrets, hnext]
    exact UniqueTable.follows_erase

lemma SecretInv.found_step (hinv : SecretInv w) (hstep : secretSystem.step w l = some w') :
    ∀ h ∈ w'.pending, ∀ existing, h.found = some (some existing) →
      w'.store.secrets.Names w'.store.nextUuid existing.id h.request.key := by
  intro h hh existing hfound
  rcases secretStep_pending hstep hh with hh | hnone | ⟨hread, hstore⟩
  · exact (hinv.found h hh existing hfound).follows (secretStep hstep).follows
  · rw [hnone] at hfound
    cases hfound
  · rw [hread, Option.some.injEq] at hfound
    rw [hstore]
    exact hinv.below.names_of_find hfound

section Step

variable {h : SecretHandler} {encryptedValue : String} {store : SecretStore}

lemma SecretInv.count_created (hinv : SecretInv w)
    (hins : w.store.secrets.insert ⟨w.store.nextUuid, key, encryptedValue, 1⟩ = some store.secrets)
    (haudit : store.audit = w.store.audit ++ [⟨key.workspaceId, h.caller.subject, .secretCreated key.name 1⟩]) :
    ∀ s ∈ store.secrets.rows, s.keyVersion = (upsertsSinceCreation s.key store.audit).length := by
  intro s hs
  rw [haudit]
  rcases (UniqueTable.mem_insert hins).mp hs with hs | rfl
  · have hne : s.key ≠ key := (UniqueTable.insert_eq_some hins).2.2 s hs
    refine (hinv.count s hs).trans (congrArg List.length (upsertsSinceCreation_other ?_).symm)
    exact fun he => hne (Option.some.inj he).symm
  · rw [upsertsSinceCreation_created rfl rfl]
    rfl

lemma SecretInv.versions_created (hinv : SecretInv w)
    (haudit : store.audit = w.store.audit ++ [⟨key.workspaceId, h.caller.subject, .secretCreated key.name 1⟩]) :
    ∀ key log, log <+: store.audit →
      Sequential ((upsertsSinceCreation key log).map WorkspaceAuditEvent.keyVersion) := by
  rw [haudit]
  refine versions_concat hinv.versions fun key' hkey' => ?_
  rw [upsertsSinceCreation_created hkey' rfl]
  rfl

variable {existing r : SecretReference}

/-- The row that a rotation changes is that of its secret, at the version that the rotation has read. -/
lemma SecretInv.rotated_row (hinv : SecretInv w) (hread : readsCurrentVersion w (.commit h) = true)
    (hh : h ∈ w.pending) (hreq : h.request = .upsert key encryptedValue) (hfound : h.found = some (some existing))
    (hr : w.store.secrets.get existing.id = some r) :
    r.key = key ∧ existing.keyVersion = (upsertsSinceCreation key w.store.audit).length := by
  have hmem := Table.mem_of_get hr
  have hkey : r.key = key := by
    rw [(hinv.found h hh existing hfound).2 r hmem (Table.key_of_get hr), hreq]
    rfl
  obtain ⟨caller, request, found⟩ := h
  subst hreq hfound
  have hversion : r.keyVersion = existing.keyVersion := by
    simpa only [readsCurrentVersion, hr, Option.all_some, decide_eq_true_eq] using hread
  refine ⟨hkey, ?_⟩
  rw [← hversion, ← hkey]
  exact hinv.count r hmem

lemma SecretInv.count_rotated (hinv : SecretInv w) (hr : w.store.secrets.get existing.id = some r) (hkey : r.key = key)
    (hversion : existing.keyVersion = (upsertsSinceCreation key w.store.audit).length)
    (hsecrets : store.secrets = w.store.secrets.set existing.id fun s =>
      { s with encryptedValue := encryptedValue, keyVersion := existing.keyVersion + 1 })
    (haudit : store.audit = w.store.audit ++
      [⟨key.workspaceId, h.caller.subject, .secretRotated key.name (existing.keyVersion + 1)⟩]) :
    ∀ s ∈ store.secrets.rows, s.keyVersion = (upsertsSinceCreation s.key store.audit).length := by
  intro s hs
  rw [hsecrets, UniqueTable.mem_set] at hs
  obtain ⟨r', hr', rfl⟩ := hs
  rw [haudit]
  by_cases hid : r'.id = existing.id
  · have hrr : some r' = some r := (Table.get_of_mem hr').symm.trans (hid ▸ hr)
    obtain rfl := Option.some.inj hrr
    rw [if_pos hid, hkey, upsertsSinceCreation_rotated rfl rfl, List.length_append, ← hversion]
    rfl
  · rw [if_neg hid]
    refine (hinv.count r' hr').trans (congrArg List.length (upsertsSinceCreation_other ?_).symm)
    intro he
    -- names are unique, so another row has another name
    have hrr := UniqueTable.eq_of_alt_eq hr' (Table.mem_of_get hr) ((Option.some.inj he).symm.trans hkey.symm)
    exact hid (hrr ▸ Table.key_of_get hr)

lemma SecretInv.versions_rotated (hinv : SecretInv w)
    (hversion : existing.keyVersion = (upsertsSinceCreation key w.store.audit).length)
    (haudit : store.audit = w.store.audit ++
      [⟨key.workspaceId, h.caller.subject, .secretRotated key.name (existing.keyVersion + 1)⟩]) :
    ∀ key log, log <+: store.audit →
      Sequential ((upsertsSinceCreation key log).map WorkspaceAuditEvent.keyVersion) := by
  rw [haudit]
  refine versions_concat hinv.versions fun key' hkey' => ?_
  obtain rfl : key = key' := Option.some.inj hkey'
  have hseq := (hinv.versions key w.store.audit List.prefix_rfl).concat
  rw [List.length_map, ← hversion] at hseq
  rw [upsertsSinceCreation_rotated rfl rfl, List.map_append]
  exact hseq

/-- An event that is no upsert, with the rows of before or some of them. -/
lemma SecretInv.count_deleted (hinv : SecretInv w) {target : Uuid}
    (hsecrets : store.secrets = w.store.secrets.erase target)
    (haudit : store.audit = w.store.audit ++ [⟨key.workspaceId, h.caller.subject, .secretDeleted key.name⟩]) :
    ∀ s ∈ store.secrets.rows, s.keyVersion = (upsertsSinceCreation s.key store.audit).length := by
  intro s hs
  rw [hsecrets, UniqueTable.mem_erase] at hs
  rw [haudit]
  refine (hinv.count s hs.1).trans (congrArg List.length (upsertsSinceCreation_other ?_).symm)
  exact (Option.some_ne_none _).symm

lemma SecretInv.versions_deleted (hinv : SecretInv w)
    (haudit : store.audit = w.store.audit ++ [⟨key.workspaceId, h.caller.subject, .secretDeleted key.name⟩]) :
    ∀ key log, log <+: store.audit →
      Sequential ((upsertsSinceCreation key log).map WorkspaceAuditEvent.keyVersion) := by
  rw [haudit]
  exact versions_concat hinv.versions fun key' hkey' => absurd hkey'.symm (Option.some_ne_none key')

end Step

lemma SecretInv.step (hinv : SecretInv w) (hread : readsCurrentVersion w l = true)
    (hstep : secretSystem.step w l = some w') : SecretInv w' := by
  suffices hlog : (∀ s ∈ w'.store.secrets.rows, s.keyVersion = (upsertsSinceCreation s.key w'.store.audit).length) ∧
      ∀ key log, log <+: w'.store.audit →
        Sequential ((upsertsSinceCreation key log).map WorkspaceAuditEvent.keyVersion) from
    ⟨hinv.below.follows (secretStep hstep).follows, hinv.found_step hstep, hlog.1, hlog.2⟩
  cases secretStep hstep with
  | quiet hstore =>
    rw [hstore]
    exact ⟨hinv.count, hinv.versions⟩
  | created h key encryptedValue hins haudit hnext =>
    exact ⟨hinv.count_created hins haudit, hinv.versions_created haudit⟩
  | rotated h key encryptedValue existing r hl hh hreq hfound hr hsecrets haudit hnext =>
    obtain ⟨hkey, hversion⟩ := hinv.rotated_row (hl ▸ hread) hh hreq hfound hr
    exact ⟨hinv.count_rotated hr hkey hversion hsecrets haudit, hinv.versions_rotated hversion haudit⟩
  | deleted h key target hsecrets haudit hnext =>
    exact ⟨hinv.count_deleted hsecrets haudit, hinv.versions_deleted haudit⟩

lemma reach_secretInv (h : secretSystem.Reach (fun w l => readsCurrentVersion w l = true) w) : SecretInv w :=
  System.Reach.invariant secretInv_init (fun _ _ _ hinv hread hstep => hinv.step hread hstep) h

/-- The version of a secret is the number of upserts since it was created, and the upserts of one incarnation have
different versions. -/
theorem secret_versions_count_upserts (h : secretSystem.Reach (fun w l => readsCurrentVersion w l = true) w) :
    (∀ s ∈ w.store.secrets.rows, s.keyVersion = (upsertsSinceCreation s.key w.store.audit).length) ∧
      ∀ key log, log <+: w.store.audit →
        ((upsertsSinceCreation key log).map WorkspaceAuditEvent.keyVersion).Nodup := by
  have hinv := reach_secretInv h
  refine ⟨hinv.count, fun key log hlog => ?_⟩
  rw [hinv.versions key log hlog]
  exact List.nodup_range'

section Runs

def secretAdmin : Caller := ⟨"admin"⟩

def apiKeySecret : SecretKey := ⟨1, "API_KEY"⟩

/-- An upsert of the secret whose value is encrypted to this text, at a stage of its handler. -/
def apiKeyUpsert (encryptedValue : String) (found : Option (Option SecretReference)) : SecretHandler :=
  ⟨secretAdmin, .upsert apiKeySecret encryptedValue, found⟩

def startUpsert (encryptedValue : String) : List SecretLabel :=
  [.authorize secretAdmin (.upsert apiKeySecret encryptedValue), .select (apiKeyUpsert encryptedValue none)]

def createApiKey : List SecretLabel :=
  .members ⟨⟨[⟨0, ⟨1, "admin"⟩, .admin⟩], by decide⟩, by decide⟩ ::
    (startUpsert "v1:a" ++ [.commit (apiKeyUpsert "v1:a" (some none))])

/-- The secret as it is created. -/
def createdApiKey : SecretReference := ⟨0, apiKeySecret, "v1:a", 1⟩

/-- A creation and a rotation after it. -/
def rotatedRun : secretSystem.Run readsCurrentVersion where
  labels := createApiKey ++ startUpsert "v1:b" ++ [.commit (apiKeyUpsert "v1:b" (some (some createdApiKey)))]
  executes := by decide +kernel

theorem secret_versions_count_upserts_rotated :
    (∃ s ∈ rotatedRun.final.store.secrets.rows, s.keyVersion = 2) ∧
      (∀ s ∈ rotatedRun.final.store.secrets.rows,
        s.keyVersion = (upsertsSinceCreation s.key rotatedRun.final.store.audit).length) ∧
      ∀ key log, log <+: rotatedRun.final.store.audit →
        ((upsertsSinceCreation key log).map WorkspaceAuditEvent.keyVersion).Nodup :=
  ⟨by decide +kernel, secret_versions_count_upserts rotatedRun.reach⟩

/-- Two rotations that read the secret before either of them commits. -/
def overlappingRun : secretSystem.FreeRun where
  labels := createApiKey ++ startUpsert "v1:b" ++ startUpsert "v1:c" ++
    [.commit (apiKeyUpsert "v1:b" (some (some createdApiKey))),
     .commit (apiKeyUpsert "v1:c" (some (some createdApiKey)))]
  executes := by decide +kernel

/-- After a creation and two rotations the secret has version 2, and both rotations have recorded that version. -/
theorem overlapping_rotations_share_version : ∃ w, secretSystem.Reachable w ∧
    (∃ s ∈ w.store.secrets.rows, s.keyVersion = 2 ∧ (upsertsSinceCreation s.key w.store.audit).length = 3) ∧
    ¬((upsertsSinceCreation apiKeySecret w.store.audit).map WorkspaceAuditEvent.keyVersion).Nodup :=
  ⟨overlappingRun.final, overlappingRun.reachable, by decide +kernel, by decide +kernel⟩

end Runs

end Proofs

end HamiCloud
