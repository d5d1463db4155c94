import HamiCloud.Library.History
import HamiCloud.Runtime.Requests
import HamiCloud.Proofs.Events

/-!
# Idempotent acceptance

Whatever the interleaving, the commits under one key are separated by the whole life of a record, a 202
response carries the operation that was committed last under its key and for its payload, and a commit
consists of the operation, at most one event and one record.
-/

namespace HamiCloud

open Library JobState

def HistoryEntry.commit? : HistoryEntry → Option Commit
  | .committed c => some c
  | .answered _ _ _ => none

/-- The committed requests, oldest first. -/
def commits (history : List HistoryEntry) : List Commit := history.filterMap HistoryEntry.commit?

/-- What the transaction of an operation does to jobs and releases. -/
def Operation.Effect (db db' : Db) (id : Uuid) : Operation → Prop
  | .submitJob _ _ => ∃ j, j.id = id ∧ j.state = queued ∧ db'.jobs.rows = db.jobs.rows ++ [j] ∧
      db'.releases = db.releases
  | .rerunJob _ => ∃ j, j.id = id ∧ j.state = queued ∧ db'.jobs.rows = db.jobs.rows ++ [j] ∧
      db'.releases = db.releases
  | .cancelJob jobId => id = jobId ∧ (∃ j, db'.jobs.get jobId = some j ∧ j.state = cancelRequested) ∧
      (∀ k, k ≠ jobId → db'.jobs.get k = db.jobs.get k) ∧ db'.releases = db.releases
  | .deployRelease appId _ => ∃ rel, rel.id = id ∧ rel.applicationId = appId ∧
      db'.releases.rows = db.releases.rows ++ [rel] ∧ db'.jobs = db.jobs
  | .rollbackRelease appId _ => ∃ rel, rel.id = id ∧ rel.applicationId = appId ∧
      db'.releases.rows = db.releases.rows ++ [rel] ∧ db'.jobs = db.jobs

/-- Everything a commit stores: the effect of its operation, at most one event and one record. -/
structure Commit.Effects (c : Commit) (r r' : RequestWorld) : Prop where
  operation : c.operation.Effect r.world.db r'.world.db c.operationId
  outbox : ∃ new, r'.world.db.outbox = r.world.db.outbox ++ new ∧ new.length ≤ 1
  record : r'.records.get = Function.update r.records.get c.key (some c.record)

/-- Every 202 response carries the operation committed last under its key, for the payload it was
committed for. -/
def AnswersCommitted (history : List HistoryEntry) : Prop :=
  ∀ before after key payloadHash operationId,
    history = before ++ .answered key payloadHash (.accepted operationId) :: after →
    ∃ c, latest Commit.key (commits before) key = some c ∧ c.requestHash = payloadHash ∧ c.operationId = operationId

end HamiCloud

namespace HamiCloud.Proofs

open Library JobState

variable {cfg : Settings} {db db' : Db} {r r' : RequestWorld}

/-! ### Effects of the operations -/

lemma insertJob_effect {ws : Uuid} {timeout retries : Nat} {parent : Option Uuid} {db₁ : Db}
    (hq : enforceWorkspaceQuota cfg db ws .concurrentJob none false = .ok db₁)
    (h : insertJob db₁ ws timeout retries parent = .ok db') :
    (∃ j, j.id = db'.nextUuid - 1 ∧ j.state = queued ∧ db'.jobs.rows = db.jobs.rows ++ [j] ∧
      db'.releases = db.releases) ∧ ∃ e, db'.outbox = db.outbox ++ [e] := by
  obtain ⟨hframe, -, -⟩ := enforceWorkspaceQuota_frame hq
  unfold insertJob at h
  simp only [bind_eq_ok, orError_eq_ok, pure_eq_ok] at h
  obtain ⟨jobs, hins, rfl⟩ := h
  have hjobs : db₁.jobs = db.jobs := by rw [hframe]
  have hreleases : db₁.releases = db.releases := by rw [hframe]
  have houtbox : db₁.outbox = db.outbox := by rw [hframe]
  have hrows := Table.rows_insert hins
  rw [hjobs] at hrows
  exact ⟨⟨_, rfl, rfl, hrows, hreleases⟩, _, congrArg (· ++ [_]) houtbox⟩

lemma acceptRelease_effect {app : Application} {digest : String} {config : ReleaseConfig}
    {rollbackOf : Option Uuid} (h : acceptRelease cfg db app digest config rollbackOf = .ok db') :
    (∃ rel, rel.id = db'.nextUuid - 1 ∧ rel.applicationId = app.id ∧
      db'.releases.rows = db.releases.rows ++ [rel] ∧ db'.jobs = db.jobs) ∧ ∃ e, db'.outbox = db.outbox ++ [e] := by
  obtain ⟨e, -, houtbox, -⟩ := acceptRelease_outbox h
  unfold acceptRelease at h
  simp only [bind_eq_ok, orError_eq_ok, pure_eq_ok] at h
  obtain ⟨db₁, hq, db₂, hins, rfl⟩ := h
  obtain ⟨hframe, -, -⟩ := enforceWorkspaceQuota_frame hq
  obtain ⟨releases, -, hrel, rfl⟩ := insertRelease_inv hins
  have hjobs : db₁.jobs = db.jobs := by rw [hframe]
  have hreleases : db₁.releases = db.releases := by rw [hframe]
  have hrows := Table.rows_insert hrel
  refine ⟨⟨readyRelease db₁ app digest config, rfl, rfl, ?_, hjobs⟩, e, houtbox⟩
  rw [← hreleases]
  exact hrows

lemma cancelJob_effect {jobId : Uuid} (h : cancelJob db jobId = .ok db') :
    (∃ j, db'.jobs.get jobId = some j ∧ j.state = cancelRequested) ∧
      (∀ k, k ≠ jobId → db'.jobs.get k = db.jobs.get k) ∧ db'.releases = db.releases := by
  unfold cancelJob at h
  simp only [bind_eq_ok, orError_eq_ok] at h
  obtain ⟨j, hj, h⟩ := h
  split at h
  · rename_i hstate
    obtain rfl := pure_eq_ok.mp h
    exact ⟨⟨j, hj, hstate⟩, fun _ _ => rfl, rfl⟩
  · split at h
    · cases h
    · obtain rfl := pure_eq_ok.mp h
      refine ⟨⟨_, Table.get_set_self hj, rfl⟩, fun k hk => ?_, rfl⟩
      simp only [insertOutbox, Table.get_set, if_neg hk]

/-- The transaction of an operation has its effect and announces it at most once. -/
lemma operation_effect {w w' : World} (op : Operation) (h : World.step cfg w op.action = some w') :
    op.Effect w.db w'.db (op.operationId w'.db) ∧
      ∃ new, w'.db.outbox = w.db.outbox ++ new ∧ new.length ≤ 1 := by
  cases op with
  | submitJob ws payload =>
    obtain ⟨⟨db', c'⟩, hjob, rfl⟩ := Option.map_eq_some_iff.mp h
    have hdb := (commit_inv hjob).1
    unfold submitJob at hdb
    simp only [bind_eq_ok] at hdb
    obtain ⟨-, -, -, -, db₁, hq, hdb⟩ := hdb
    obtain ⟨heffect, e, he⟩ := insertJob_effect hq hdb
    exact ⟨heffect, [e], he, le_rfl⟩
  | cancelJob id =>
    obtain ⟨⟨db', c'⟩, hjob, rfl⟩ := Option.map_eq_some_iff.mp h
    have hdb := (commit_inv hjob).1
    obtain ⟨new, hnew, hann⟩ := cancelJob_outbox hdb
    refine ⟨⟨rfl, cancelJob_effect hdb⟩, new, hnew, ?_⟩
    cases hann with
    | plain => contradiction
    | alreadyCancelled => exact Nat.zero_le _
    | cancelled => exact le_rfl
  | rerunJob id =>
    obtain ⟨⟨db', c'⟩, hjob, rfl⟩ := Option.map_eq_some_iff.mp h
    have hdb := (commit_inv hjob).1
    unfold rerunJob at hdb
    simp only [bind_eq_ok] at hdb
    obtain ⟨job, -, -, -, db₁, hq, hdb⟩ := hdb
    obtain ⟨heffect, e, he⟩ := insertJob_effect hq hdb
    exact ⟨heffect, [e], he, le_rfl⟩
  | deployRelease app payload =>
    obtain ⟨⟨db', c'⟩, hserv, rfl⟩ := Option.map_eq_some_iff.mp h
    obtain ⟨a, ha, hacc⟩ := deployRelease_inv (commit_inv hserv).1
    obtain ⟨⟨rel, hid, happ, hrel⟩, e, he⟩ := acceptRelease_effect hacc
    exact ⟨⟨rel, hid, happ.trans (Table.key_of_get ha), hrel⟩, [e], he, le_rfl⟩
  | rollbackRelease app target =>
    obtain ⟨⟨db', c'⟩, hserv, rfl⟩ := Option.map_eq_some_iff.mp h
    obtain ⟨a, t, ha, -, hacc⟩ := rollbackRelease_inv (commit_inv hserv).1
    obtain ⟨⟨rel, hid, happ, hrel⟩, e, he⟩ := acceptRelease_effect hacc
    exact ⟨⟨rel, hid, happ.trans (Table.key_of_get ha), hrel⟩, [e], he, le_rfl⟩

/-! ### Records -/

/-- The row under the key after the deletion of an expired one. -/
lemma purgeRecord_get (records : Table IdempotencyRecord.key) (key k : RecordKey) (purged : Option Uuid)
    (hk : k ≠ key) : (purgeRecord records key purged).get k = records.get k := by
  unfold purgeRecord
  split
  · rw [Table.get_erase, if_neg hk]
  · rfl

/-- A key is free after the deletion only if it was free before or its row is the deleted one. -/
lemma purgeRecord_free {records : Table IdempotencyRecord.key} {key : RecordKey} {purged : Option Uuid}
    {existing : IdempotencyRecord} (h : (purgeRecord records key purged).get key = none)
    (hget : records.get key = some existing) : purged = some existing.id := by
  unfold purgeRecord at h
  split at h
  · rename_i hany
    simpa [hget] using hany
  · rw [h] at hget
    cases hget

/-! ### Steps -/

/-- What a step of the requests does. -/
inductive RequestStep (cfg : Settings) (r : RequestWorld) : RequestAction → RequestWorld → Prop
  | other (a : Action) (w : World) : a.isOperation = false → World.step cfg r.world a = some w →
      RequestStep cfg r (.other a) { r with world := w }
  | passed (req : Request) (p : PendingRequest) :
      checkIdempotency r.world.db.now r.records p.key req.payloadHash = .proceed p.purged →
      p.checkedAt = r.world.db.now → RequestStep cfg r (.check req) { r with pending := r.pending ++ [p] }
  | answered (a : RequestAction) (pending : List PendingRequest) (key : RecordKey) (payloadHash : String)
      (answer : Answer) : (∃ req, a = .check req) ∨ (∃ p, a = .reread p) → pending ⊆ r.pending →
      (∀ id, answer = .accepted id → ∃ existing, r.records.get key = some existing ∧
        existing.requestHash = payloadHash ∧ existing.operationId = id) →
      RequestStep cfg r a ({ r with pending := pending }.answer key payloadHash answer)
  | collided (p : PendingRequest) : p ∈ r.pending →
      RequestStep cfg r (.collide p) { r with pending := r.pending.erase p ++ [{ p with collided := true }] }
  | committed (p : PendingRequest) (createdAt : Time) (w : World) (c : Commit)
      (records : Table IdempotencyRecord.key) : p ∈ r.pending →
      World.step cfg r.world p.request.operation.action = some w →
      c.operation = p.request.operation → c.operationId = p.request.operation.operationId w.db →
      c.key = p.key → c.recordId = r.nextRecord → c.requestHash = p.request.payloadHash →
      c.checkedAt = p.checkedAt → (purgeRecord r.records p.key p.purged).insert c.record = some records →
      RequestStep cfg r (.commit p createdAt)
        { world := w, records := records, nextRecord := r.nextRecord + 1,
          audits := r.audits ++ p.request.operation.auditEvents r.world.db w.db,
          pending := r.pending.erase p,
          history := r.history ++
            [.committed c, .answered p.key p.request.payloadHash (.accepted c.operationId)] }

lemma check_step {req : Request} (h : r.check req = some r') : RequestStep cfg r (.check req) r' := by
  obtain ⟨key, -, rfl⟩ := Option.map_eq_some_iff.mp h
  split
  · rename_i operationId hcheck
    refine .answered _ r.pending key req.payloadHash _ (.inl ⟨req, rfl⟩) (List.Subset.refl _) ?_
    rintro id hid
    cases hid
    unfold checkIdempotency at hcheck
    split at hcheck
    · cases hcheck
    · rename_i existing hget
      split_ifs at hcheck with hexp hhash
      cases hcheck
      exact ⟨existing, hget, hhash, rfl⟩
  · refine .answered _ r.pending key req.payloadHash _ (.inl ⟨req, rfl⟩) (List.Subset.refl _) ?_
    rintro id hid
    cases hid
  · rename_i purged hcheck
    exact .passed req ⟨req, key, purged, r.world.db.now, false⟩ hcheck rfl

lemma commit_step {p : PendingRequest} {createdAt : Time} (h : r.commit cfg p createdAt = some r') :
    RequestStep cfg r (.commit p createdAt) r' := by
  unfold RequestWorld.commit at h
  split at h
  · rename_i hguard
    obtain ⟨w, hw, h⟩ := Option.bind_eq_some_iff.mp h
    obtain ⟨records, hins, h⟩ := Option.bind_eq_some_iff.mp h
    cases h
    exact .committed p createdAt w _ records hguard.1.1 hw rfl rfl rfl rfl rfl rfl hins
  · cases h

lemma reread_step {p : PendingRequest} (h : r.reread p = some r') : RequestStep cfg r (.reread p) r' := by
  unfold RequestWorld.reread at h
  split at h
  · split at h
    · rename_i operationId hrace
      cases h
      refine .answered _ (r.pending.erase p) _ _ _ (.inr ⟨p, rfl⟩) List.erase_subset ?_
      rintro id hid
      cases hid
      obtain ⟨existing, hex, rfl⟩ := Option.map_eq_some_iff.mp hrace
      obtain ⟨hget, hhash⟩ := Option.filter_eq_some_iff.mp hex
      exact ⟨existing, hget, by simpa using hhash, rfl⟩
    · cases h
      refine .answered _ (r.pending.erase p) _ _ _ (.inr ⟨p, rfl⟩) List.erase_subset ?_
      rintro id hid
      cases hid
  · cases h

lemma request_step {a : RequestAction} (h : (requestSystem cfg).step r a = some r') : RequestStep cfg r a r' := by
  cases a with
  | other b =>
    simp only [requestSystem, RequestWorld.step] at h
    split at h
    · cases h
    · rename_i hop
      obtain ⟨w, hw, rfl⟩ := Option.map_eq_some_iff.mp h
      exact .other b w (by simpa using hop) hw
  | check req => exact check_step h
  | commit p createdAt => exact commit_step h
  | collide p =>
    simp only [requestSystem, RequestWorld.step, RequestWorld.collide] at h
    split at h
    · rename_i hguard
      cases h
      exact .collided p hguard.1.1
    · cases h
  | reread p => exact reread_step h

/-! ### History -/

@[simp] lemma commits_answered (history : List HistoryEntry) (key : RecordKey) (payloadHash : String)
    (answer : Answer) : commits (history ++ [.answered key payloadHash answer]) = commits history := by
  simp [commits, HistoryEntry.commit?]

@[simp] lemma commits_committed (history : List HistoryEntry) (c : Commit) :
    commits (history ++ [.committed c]) = commits history ++ [c] := by
  simp [commits, HistoryEntry.commit?]

lemma answersCommitted_concat {history : List HistoryEntry} {entry : HistoryEntry} (h : AnswersCommitted history)
    (hentry : ∀ key payloadHash id, entry = .answered key payloadHash (.accepted id) →
      ∃ c, latest Commit.key (commits history) key = some c ∧ c.requestHash = payloadHash ∧ c.operationId = id) :
    AnswersCommitted (history ++ [entry]) := by
  intro before after key payloadHash id heq
  rcases List.eq_nil_or_concat after with rfl | ⟨after, last, rfl⟩
  · obtain ⟨rfl, hlast⟩ := List.append_inj' heq rfl
    exact hentry key payloadHash id (List.singleton_inj.mp hlast)
  · rw [List.concat_eq_append, ← List.cons_append, ← List.append_assoc] at heq
    exact h before after key payloadHash id (List.append_inj' heq rfl).1

/-! ### Invariant -/

structure RequestInv (r : RequestWorld) : Prop where
  /-- the record of a key is that of its last commit -/
  stored : ∀ k, r.records.get k = (latest Commit.key (commits r.history) k).map Commit.record
  below : ∀ c ∈ commits r.history, c.recordId < r.nextRecord
  distinct : ((commits r.history).map Commit.recordId).Nodup
  /-- what a request has deleted had expired -/
  purged : ∀ p ∈ r.pending, ∀ id, p.purged = some id →
    ∃ c ∈ commits r.history, c.recordId = id ∧ c.expiresAt ≤ p.checkedAt
  separated : (commits r.history).Pairwise (fun c d => c.key = d.key → c.expiresAt ≤ d.checkedAt)
  answers : AnswersCommitted r.history

lemma requestInv_init : RequestInv RequestWorld.init where
  stored _ := rfl
  below := by simp [RequestWorld.init, commits]
  distinct := by simp [RequestWorld.init, commits]
  purged := by simp [RequestWorld.init]
  separated := by simp [RequestWorld.init, commits]
  answers := by
    intro before after key payloadHash id heq
    simp [RequestWorld.init] at heq

lemma RequestInv.passed {req : Request} {p : PendingRequest} (hi : RequestInv r)
    (hcheck : checkIdempotency r.world.db.now r.records p.key req.payloadHash = .proceed p.purged)
    (htime : p.checkedAt = r.world.db.now) : RequestInv { r with pending := r.pending ++ [p] } := by
  refine ⟨hi.stored, hi.below, hi.distinct, ?_, hi.separated, hi.answers⟩
  intro q hq id hid
  rcases List.mem_append.mp hq with hq | hq
  · exact hi.purged q hq id hid
  · obtain rfl := List.mem_singleton.mp hq
    unfold checkIdempotency at hcheck
    rw [hid] at hcheck
    split at hcheck
    · cases hcheck
    · rename_i existing hget
      split_ifs at hcheck with hexp
      cases hcheck
      rw [hi.stored] at hget
      obtain ⟨c, hc, rfl⟩ := Option.map_eq_some_iff.mp hget
      exact ⟨c, mem_of_latest hc, rfl, htime ▸ hexp⟩

lemma RequestInv.answered {pending : List PendingRequest} {key : RecordKey} {payloadHash : String}
    {answer : Answer} (hi : RequestInv r) (hsub : pending ⊆ r.pending)
    (hacc : ∀ id, answer = .accepted id → ∃ existing, r.records.get key = some existing ∧
      existing.requestHash = payloadHash ∧ existing.operationId = id) :
    RequestInv ({ r with pending := pending }.answer key payloadHash answer) := by
  refine ⟨?_, ?_, ?_, ?_, ?_, ?_⟩ <;>
    simp only [RequestWorld.answer, commits_answered]
  · exact hi.stored
  · exact hi.below
  · exact hi.distinct
  · exact fun p hp => hi.purged p (hsub hp)
  · exact hi.separated
  · refine answersCommitted_concat hi.answers ?_
    rintro k hash id heq
    cases heq
    obtain ⟨existing, hget, hhash, hid⟩ := hacc id rfl
    rw [hi.stored] at hget
    obtain ⟨c, hc, rfl⟩ := Option.map_eq_some_iff.mp hget
    exact ⟨c, hc, hhash, hid⟩

/-- A commit that finds its key free comes after the end of the life of every earlier record of the key. -/
lemma RequestInv.expired {p : PendingRequest} {b : Commit} (hi : RequestInv r) (hp : p ∈ r.pending)
    (hfree : (purgeRecord r.records p.key p.purged).get p.key = none)
    (hb : latest Commit.key (commits r.history) p.key = some b) : b.expiresAt ≤ p.checkedAt := by
  have hget : r.records.get p.key = some b.record := by rw [hi.stored, hb]; rfl
  obtain ⟨c, hc, hid, hexp⟩ := hi.purged p hp _ (purgeRecord_free hfree hget)
  obtain rfl : c = b := List.inj_on_of_nodup_map hi.distinct hc (mem_of_latest hb) hid
  exact hexp

lemma insert_purged {p : PendingRequest} {c : Commit} {records : Table IdempotencyRecord.key}
    (hkey : c.key = p.key) (hins : (purgeRecord r.records p.key p.purged).insert c.record = some records) :
    records.get = Function.update r.records.get c.key (some c.record) := by
  funext k
  rw [Table.get_insert hins, Function.update_apply]
  change (if k = c.key then _ else _) = _
  split
  · rfl
  · rename_i hk
    exact purgeRecord_get _ _ _ _ (hkey ▸ hk)

lemma RequestInv.committed {p : PendingRequest} {w : World} {c : Commit} {audits : List AuditEvent}
    {records : Table IdempotencyRecord.key} (hi : RequestInv r) (hp : p ∈ r.pending) (hkey : c.key = p.key)
    (hid : c.recordId = r.nextRecord) (hhash : c.requestHash = p.request.payloadHash)
    (htime : c.checkedAt = p.checkedAt)
    (hins : (purgeRecord r.records p.key p.purged).insert c.record = some records) :
    RequestInv
      { world := w, records := records, nextRecord := r.nextRecord + 1, audits := audits,
        pending := r.pending.erase p,
        history := r.history ++
          [.committed c, .answered p.key p.request.payloadHash (.accepted c.operationId)] } := by
  have hcommits : commits (r.history ++ [.committed c, .answered p.key p.request.payloadHash
      (.accepted c.operationId)]) = commits r.history ++ [c] := by
    simp [commits, HistoryEntry.commit?]
  have hfree : (purgeRecord r.records p.key p.purged).get p.key = none := hkey ▸ Table.fresh_of_insert hins
  refine ⟨?_, ?_, ?_, ?_, ?_, ?_⟩ <;> simp only [hcommits]
  · intro k
    rw [insert_purged hkey hins, Function.update_apply, latest_concat]
    split
    · rfl
    · exact hi.stored k
  · intro d hd
    rcases List.mem_append.mp hd with hd | hd
    · exact (hi.below d hd).trans (Nat.lt_succ_self _)
    · rw [List.mem_singleton.mp hd, hid]
      exact Nat.lt_succ_self _
  · rw [List.map_append, List.nodup_append]
    refine ⟨hi.distinct, List.nodup_singleton _, ?_⟩
    intro n hn m hm
    obtain ⟨d, hd, rfl⟩ := List.mem_map.mp hn
    rw [List.mem_singleton.mp hm, hid]
    exact (hi.below d hd).ne
  · intro q hq id hpurged
    obtain ⟨d, hd, hd'⟩ := hi.purged q (List.erase_subset hq) id hpurged
    exact ⟨d, List.mem_append_left _ hd, hd'⟩
  · refine pairwise_concat_of_latest (R := fun c d : Commit => c.expiresAt ≤ d.checkedAt) ?_ hi.separated ?_
    · intro a b d hab hbd
      exact hab.trans ((b.ordered.trans (Nat.le_add_right _ _)).trans hbd)
    · intro b hb
      rw [hkey] at hb
      rw [htime]
      exact hi.expired hp hfree hb
  · rw [← List.singleton_append, ← List.append_assoc]
    refine answersCommitted_concat (answersCommitted_concat hi.answers (by rintro _ _ _ ⟨⟩)) ?_
    rintro k hash id heq
    cases heq
    exact ⟨c, by simp [hkey], hhash, rfl⟩

lemma requestInv_step {a : RequestAction} (hi : RequestInv r) (h : (requestSystem cfg).step r a = some r') :
    RequestInv r' := by
  cases request_step h with
  | other b w => exact ⟨hi.stored, hi.below, hi.distinct, hi.purged, hi.separated, hi.answers⟩
  | passed req p hcheck htime => exact hi.passed hcheck htime
  | answered a pending key hash answer _ hsub hacc => exact hi.answered hsub hacc
  | collided p hp =>
    refine ⟨hi.stored, hi.below, hi.distinct, fun q hq id hid => ?_, hi.separated, hi.answers⟩
    rcases List.mem_append.mp hq with hq | hq
    · exact hi.purged q (List.erase_subset hq) id hid
    · rw [List.mem_singleton.mp hq] at hid ⊢
      exact hi.purged p hp id hid
  | committed p createdAt w c records hp hw hop hopid hkey hid hhash htime hins =>
    exact hi.committed hp hkey hid hhash htime hins

lemma reach_requestInv (h : (requestSystem cfg).Reachable r) : RequestInv r :=
  System.Reach.invariant requestInv_init (fun _ _ _ hi _ hstep => requestInv_step hi hstep) h

/-- Idempotent acceptance. A commit under a key comes from a request that was checked after the end of the
life of every record committed before under that key; a 202 response carries the operation committed last
under its key, for the same payload; and a step either commits nothing for a request or commits all of one. -/
theorem idempotent_acceptance (cfg : Settings) (h : (requestSystem cfg).Reachable r) :
    (commits r.history).Pairwise (fun c d => c.key = d.key → c.expiresAt ≤ d.checkedAt) ∧
    AnswersCommitted r.history ∧
    ∀ a r', (requestSystem cfg).step r a = some r' →
      (commits r'.history = commits r.history ∧ r'.records = r.records ∧
        (r'.world = r.world ∨ ∃ b, a = .other b ∧ b.isOperation = false)) ∨
      ∃ c, commits r'.history = commits r.history ++ [c] ∧ c.Effects r r' := by
  have hi := reach_requestInv h
  refine ⟨hi.separated, hi.answers, fun a r' hstep => ?_⟩
  cases request_step hstep with
  | other b w hop => exact .inl ⟨rfl, rfl, .inr ⟨b, rfl, hop⟩⟩
  | passed req p => exact .inl ⟨rfl, rfl, .inl rfl⟩
  | answered a pending key hash answer => exact .inl ⟨commits_answered _ _ _ _, rfl, .inl rfl⟩
  | collided p => exact .inl ⟨rfl, rfl, .inl rfl⟩
  | committed p createdAt w c records hp hw hop hopid hkey hid hhash htime hins =>
    obtain ⟨heffect, houtbox⟩ := operation_effect p.request.operation hw
    rw [← hopid, ← hop] at heffect
    exact .inr ⟨c, by simp [commits, HistoryEntry.commit?], heffect, houtbox, insert_purged hkey hins⟩

def submission (header payloadHash : String) : Request :=
  ⟨.submitJob 100 ⟨"quay.io/tool", 600, 2⟩, header, payloadHash⟩

def pendingSubmission (header : String) (collided : Bool) : PendingRequest :=
  ⟨submission header "sha-1", ⟨100, .jobs 100, "key"⟩, none, 0, collided⟩

/-- Two equal submissions pass the check, and the second one to commit collides; a third one brings
another payload. -/
def racingSubmissions : (requestSystem Settings.default).FreeRun where
  labels := [.check (submission "key" "sha-1"), .check (submission " key " "sha-1"),
    .commit (pendingSubmission " key " false) 0, .collide (pendingSubmission "key" false),
    .reread (pendingSubmission "key" true), .check (submission "key" "sha-2")]
  executes := by decide +kernel

theorem idempotent_acceptance_racing : ∃ r, (requestSystem Settings.default).Reachable r ∧
    r.history.count (.answered ⟨100, .jobs 100, "key"⟩ "sha-1" (.accepted 0)) = 2 ∧
    r.history.getLast? = some (.answered ⟨100, .jobs 100, "key"⟩ "sha-2" .idempotencyConflict) ∧
    (commits r.history).map Commit.operationId = [0] ∧
    (commits r.history).Pairwise (fun c d => c.key = d.key → c.expiresAt ≤ d.checkedAt) ∧
    AnswersCommitted r.history :=
  have h := racingSubmissions.reachable
  have haccept := idempotent_acceptance _ h
  ⟨_, h, by decide +kernel, by decide +kernel, by decide +kernel, haccept.1, haccept.2.1⟩

end HamiCloud.Proofs
