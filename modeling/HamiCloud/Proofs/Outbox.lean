import HamiCloud.Api.Outbox

/-!
# The outbox loses nothing

A locked row is pending in the database for as long as it is locked, and its copy in memory is marked as published only
after an acknowledgement. So whatever a crash forgets is still pending, and what a commit writes is true.
-/

namespace HamiCloud

open Library

namespace Proofs

/-! ### Headers -/

lemma lookup_setHeader {headers : List (String × String)} {name value k : String} (hne : k ≠ name) :
    (setHeader headers name value).lookup k = headers.lookup k := by
  have hk : (k == name) = false := beq_false_of_ne hne
  have hmap : (headers.map fun h => if h.1 = name then (name, value) else h).lookup k = headers.lookup k := by
    induction headers with
    | nil => rfl
    | cons h headers ih =>
      obtain ⟨n, v⟩ := h
      rw [List.map_cons, List.lookup_cons, ih, List.lookup_cons]
      by_cases hn : n = name
      · simp [hn, hk]
      · simp [hn]
  unfold setHeader
  split
  · exact hmap
  · rw [List.lookup_append, List.lookup_cons, hk]
    cases headers.lookup k <;> rfl

/-- What `headers_json` does not mention keeps its value. -/
lemma lookup_messageHeaders {uuidText : Uuid → String} {e : OutboxRow}
    (hfree : "Nats-Msg-Id" ∉ e.headersJson.map Prod.fst) :
    (messageHeaders uuidText e).lookup "Nats-Msg-Id" = some (uuidText e.eventId) := by
  have hfold : ∀ (own headers : List (String × String)), "Nats-Msg-Id" ∉ own.map Prod.fst →
      (own.foldl (fun headers h => setHeader headers h.1 h.2) headers).lookup "Nats-Msg-Id"
        = headers.lookup "Nats-Msg-Id" := by
    intro own
    induction own with
    | nil => exact fun _ _ => rfl
    | cons h own ih =>
      intro headers hnot
      rw [List.map_cons, List.mem_cons, not_or] at hnot
      obtain ⟨hhead, htail⟩ := hnot
      rw [List.foldl_cons, ih _ htail, lookup_setHeader hhead]
  exact hfold e.headersJson _ hfree

/-! ### What a step does -/

/-- What a step can make of a stored row: nothing, what a transaction has in memory at its end, or a requeued event. -/
inductive RowChange (s t : OutboxState) (r : OutboxRow) : OutboxRow → Prop
  | same : RowChange s t r r
  | written (h : Hold BatchEvent) : h ∈ s.locks.rows → h.row.id = r.id → h.row.attempted = true →
      (∀ g ∈ t.locks.rows, g.row.id ≠ r.id) → RowChange s t r (r.write h.row.event)
  | requeued : r.status = .failed →
      RowChange s t r { r with status := .pending, retryCount := 0, nextAttemptAt := some s.now }

/-- Where a lock comes from: it was there, it was just taken on a pending row, or its event was just answered. -/
inductive LockChange (uuidText : Uuid → String) (s t : OutboxState) : Hold BatchEvent → Prop
  | same (h : Hold BatchEvent) : h ∈ s.locks.rows → LockChange uuidText s t h
  | taken (dispatcher : Nat) (r : OutboxRow) : r ∈ s.rows.rows → r.status = .pending →
      (∀ g ∈ s.locks.rows, g.row.id ≠ r.id) → LockChange uuidText s t ⟨dispatcher, ⟨r, s.now, false⟩⟩
  | answered (h : Hold BatchEvent) (outcome : PublishOutcome) : h ∈ s.locks.rows →
      (outcome = .acknowledged → ⟨h.row.event.eventId, messageOf uuidText h.row.event⟩ ∈ t.acknowledged) →
      LockChange uuidText s t ⟨h.holder, h.row.answered outcome⟩

variable {uuidText : Uuid → String} {s t : OutboxState} {a : OutboxAction} {e r r' : OutboxRow} {eventId : Uuid}

lemma RowChange.keys (h : RowChange s t r r') : r'.id = r.id ∧ r'.eventId = r.eventId := by
  cases h <;> exact ⟨rfl, rfl⟩

/-- A row that is not locked by the transaction stays as it is; otherwise its copy is in memory. -/
lemma flushed_cases (locks : RowLocks BatchEvent.id) (dispatcher : Nat) (r : OutboxRow) :
    r.flushed locks dispatcher = r ∨
      ∃ b, ⟨dispatcher, b⟩ ∈ locks.rows ∧ b.id = r.id ∧ r.flushed locks dispatcher = r.write b.event := by
  unfold OutboxRow.flushed
  split
  · rename_i b hfind
    exact .inr ⟨b, RowLocks.mem_heldBy.mp (List.mem_of_find?_eq_some hfind), by simpa using List.find?_some hfind, rfl⟩
  · exact .inl rfl

/-- What the commit writes for a locked row. -/
lemma flushed_of_lock {locks : RowLocks BatchEvent.id} {g : Hold BatchEvent} (hg : g ∈ locks.rows)
    (hid : g.row.id = r.id) : r.flushed locks g.holder = r.write g.row.event := by
  obtain ⟨b, hfind⟩ : ∃ b, (locks.heldBy g.holder).find? (fun b => b.id = r.id) = some b := by
    refine Option.isSome_iff_exists.mp (List.find?_isSome.mpr ⟨g.row, RowLocks.mem_heldBy.mpr hg, ?_⟩)
    exact decide_eq_true hid
  have hb : ⟨g.holder, b⟩ ∈ locks.rows := RowLocks.mem_heldBy.mp (List.mem_of_find?_eq_some hfind)
  have hidb : b.id = r.id := by simpa using List.find?_some hfind
  have hsame : ⟨g.holder, b⟩ = g := Table.eq_of_key_eq hb hg (hidb.trans hid.symm)
  rw [OutboxRow.flushed, hfind]
  exact congrArg (fun g => r.write g.row.event) hsame

lemma mem_selectBatch {limit : Nat} (h : r ∈ selectBatch s limit) :
    r ∈ s.rows.rows ∧ r.isDue s.now = true ∧ s.locks.isFree r.id = true := by
  obtain ⟨hmem, hdue⟩ := List.mem_filter.mp (List.mem_of_mem_take h)
  exact ⟨mem_orderBy.mp hmem, Bool.and_eq_true_iff.mp hdue⟩

lemma status_of_isDue {now : Time} (h : r.isDue now = true) : r.status = .pending :=
  of_decide_eq_true (Bool.and_eq_true_iff.mp h).1

lemma status_of_isExpired {now retention : Time} (h : r.isExpired now retention = true) : r.status = .published :=
  of_decide_eq_true (Bool.and_eq_true_iff.mp h).1

lemma flushed_change {dispatcher : Nat} (hall : (s.locks.heldBy dispatcher).all BatchEvent.attempted = true)
    (ht : t.locks = s.locks.release dispatcher) : RowChange s t r (r.flushed s.locks dispatcher) := by
  rcases flushed_cases s.locks dispatcher r with hsame | ⟨b, hb, hid, hwritten⟩
  · rw [hsame]
    exact .same
  · rw [hwritten]
    refine .written ⟨dispatcher, b⟩ hb hid (List.all_eq_true.mp hall b (RowLocks.mem_heldBy.mpr hb)) fun g hg he => ?_
    -- the lock on the row was this transaction's, and is gone
    obtain ⟨hg, hholder⟩ := RowLocks.mem_release.mp (ht ▸ hg)
    have hsame : g = ⟨dispatcher, b⟩ := Table.eq_of_key_eq hg hb (he.trans hid.symm)
    exact hholder (congrArg Hold.holder hsame)

/-- Every row stays, possibly changed, unless it is purged. -/
lemma step_row_kept (h : s.step uuidText a = some t) (hr : r ∈ s.rows.rows) :
    (∃ r' ∈ t.rows.rows, RowChange s t r r') ∨
      ∃ retentionDays, a = .purge retentionDays ∧ r.isExpired s.now (retentionDays * day) = true := by
  cases a with
  | tick d =>
    cases h
    exact .inl ⟨r, hr, .same⟩
  | produce e =>
    obtain ⟨rows, hins, rfl⟩ := Option.map_eq_some_iff.mp h
    exact .inl ⟨r, (UniqueTable.mem_insert hins).mpr (.inl hr), .same⟩
  | select dispatcher limit =>
    obtain ⟨-, ht⟩ := Option.ite_none_right_eq_some.mp h
    cases ht
    exact .inl ⟨r, hr, .same⟩
  | publish dispatcher outcome =>
    obtain ⟨b, -, rfl⟩ := Option.map_eq_some_iff.mp h
    exact .inl ⟨r, hr, .same⟩
  | commit dispatcher =>
    obtain ⟨hall, ht⟩ := Option.ite_none_right_eq_some.mp h
    cases ht
    exact .inl ⟨_, List.mem_map.mpr ⟨r, hr, rfl⟩, flushed_change hall rfl⟩
  | crash dispatcher =>
    cases h
    exact .inl ⟨r, hr, .same⟩
  | purge retentionDays =>
    cases h
    cases hold : r.isExpired s.now (retentionDays * day) with
    | true => exact .inr ⟨retentionDays, rfl, hold⟩
    | false => exact .inl ⟨r, List.mem_filter.mpr ⟨hr, by rw [hold]; rfl⟩, .same⟩
  | requeueFailed eventIds =>
    cases h
    refine .inl ⟨_, List.mem_map.mpr ⟨r, hr, rfl⟩, ?_⟩
    split
    · rename_i hsel
      exact .requeued (of_decide_eq_true (Bool.and_eq_true_iff.mp hsel).1)
    · exact .same

/-- Every row was there, possibly changed, or is new. -/
lemma step_row_origin (h : s.step uuidText a = some t) (hr' : r' ∈ t.rows.rows) :
    (∃ r ∈ s.rows.rows, RowChange s t r r') ∨ ∃ e, a = .produce e ∧ r' = createOutboxEvent s.now e := by
  cases a with
  | tick d =>
    cases h
    exact .inl ⟨r', hr', .same⟩
  | produce e =>
    obtain ⟨rows, hins, rfl⟩ := Option.map_eq_some_iff.mp h
    rcases (UniqueTable.mem_insert hins).mp hr' with hold | hnew
    · exact .inl ⟨r', hold, .same⟩
    · exact .inr ⟨e, rfl, hnew⟩
  | select dispatcher limit =>
    obtain ⟨-, ht⟩ := Option.ite_none_right_eq_some.mp h
    cases ht
    exact .inl ⟨r', hr', .same⟩
  | publish dispatcher outcome =>
    obtain ⟨b, -, rfl⟩ := Option.map_eq_some_iff.mp h
    exact .inl ⟨r', hr', .same⟩
  | commit dispatcher =>
    obtain ⟨hall, ht⟩ := Option.ite_none_right_eq_some.mp h
    cases ht
    obtain ⟨r, hr, rfl⟩ := List.mem_map.mp hr'
    exact .inl ⟨r, hr, flushed_change hall rfl⟩
  | crash dispatcher =>
    cases h
    exact .inl ⟨r', hr', .same⟩
  | purge retentionDays =>
    cases h
    exact .inl ⟨r', (List.mem_filter.mp hr').1, .same⟩
  | requeueFailed eventIds =>
    cases h
    obtain ⟨r, hr, rfl⟩ := List.mem_map.mp hr'
    refine .inl ⟨r, hr, ?_⟩
    split
    · rename_i hsel
      exact .requeued (of_decide_eq_true (Bool.and_eq_true_iff.mp hsel).1)
    · exact .same

lemma step_lock_origin (h : s.step uuidText a = some t) {g : Hold BatchEvent} (hg : g ∈ t.locks.rows) :
    LockChange uuidText s t g := by
  cases a with
  | tick d | purge retentionDays | requeueFailed eventIds =>
    cases h
    exact .same g hg
  | produce e =>
    obtain ⟨rows, -, rfl⟩ := Option.map_eq_some_iff.mp h
    exact .same g hg
  | select dispatcher limit =>
    obtain ⟨-, ht⟩ := Option.ite_none_right_eq_some.mp h
    cases ht
    rcases RowLocks.mem_lock hg with hold | ⟨hholder, hrow⟩
    · exact .same g hold
    · obtain ⟨r, hr, heq⟩ := List.mem_map.mp hrow
      obtain ⟨holder, row⟩ := g
      cases heq
      obtain ⟨hmem, hdue, hfree⟩ := mem_selectBatch hr
      exact .taken holder r hmem (status_of_isDue hdue) (RowLocks.isFree_iff.mp hfree)
  | publish dispatcher outcome =>
    obtain ⟨b, hb, rfl⟩ := Option.map_eq_some_iff.mp h
    have hheld := RowLocks.mem_heldBy.mp (List.mem_of_find?_eq_some hb)
    obtain ⟨f, hf, heq⟩ := List.mem_map.mp hg
    by_cases hid : f.row.id = b.id
    · rw [← heq, if_pos (decide_eq_true hid)]
      obtain rfl : f = ⟨dispatcher, b⟩ := Table.eq_of_key_eq hf hheld hid
      refine .answered _ outcome hf ?_
      rintro rfl
      exact List.mem_append_right _ List.mem_cons_self
    · rw [← heq, if_neg fun h => hid (of_decide_eq_true h)]
      exact .same f hf
  | commit dispatcher =>
    obtain ⟨-, ht⟩ := Option.ite_none_right_eq_some.mp h
    cases ht
    exact .same g (RowLocks.mem_release.mp hg).1
  | crash dispatcher =>
    cases h
    exact .same g (RowLocks.mem_release.mp hg).1

/-- An acknowledgement is for the event that a dispatcher has just published. -/
lemma step_acknowledged (h : s.step uuidText a = some t) :
    (∃ g ∈ s.locks.rows, g.row.attempted = false ∧ ⟨g.holder, g.row.answered .acknowledged⟩ ∈ t.locks.rows ∧
      t.acknowledged = s.acknowledged ++ [⟨g.row.event.eventId, messageOf uuidText g.row.event⟩]) ∨
    t.acknowledged = s.acknowledged := by
  cases a with
  | tick d | crash dispatcher | purge retentionDays | requeueFailed eventIds =>
    cases h
    exact .inr rfl
  | produce e =>
    obtain ⟨rows, -, rfl⟩ := Option.map_eq_some_iff.mp h
    exact .inr rfl
  | select dispatcher limit | commit dispatcher =>
    obtain ⟨-, ht⟩ := Option.ite_none_right_eq_some.mp h
    cases ht
    exact .inr rfl
  | publish dispatcher outcome =>
    obtain ⟨b, hb, rfl⟩ := Option.map_eq_some_iff.mp h
    cases outcome with
    | failed err received => exact .inr rfl
    | acknowledged =>
      have hheld := RowLocks.mem_heldBy.mp (List.mem_of_find?_eq_some hb)
      refine .inl ⟨⟨dispatcher, b⟩, hheld, by simpa using List.find?_some hb, ?_, rfl⟩
      exact List.mem_map.mpr ⟨_, hheld, if_pos (decide_eq_true rfl)⟩

lemma step_committed (h : s.step uuidText a = some t) :
    t.committed = s.committed ∨
      ∃ e, a = .produce e ∧ t.committed = s.committed ++ [e.eventId] ∧ createOutboxEvent s.now e ∈ t.rows.rows := by
  cases a with
  | tick d | crash dispatcher | purge retentionDays | requeueFailed eventIds =>
    cases h
    exact .inl rfl
  | produce e =>
    obtain ⟨rows, hins, rfl⟩ := Option.map_eq_some_iff.mp h
    exact .inr ⟨e, rfl, rfl, (UniqueTable.mem_insert hins).mpr (.inr rfl)⟩
  | select dispatcher limit | commit dispatcher =>
    obtain ⟨-, ht⟩ := Option.ite_none_right_eq_some.mp h
    cases ht
    exact .inl rfl
  | publish dispatcher outcome =>
    obtain ⟨b, -, rfl⟩ := Option.map_eq_some_iff.mp h
    exact .inl rfl

/-! ### Locked rows -/

/-- A locked row is pending in the database. -/
def LocksPending (s : OutboxState) : Prop :=
  ∀ g ∈ s.locks.rows, ∃ r ∈ s.rows.rows, r.id = g.row.id ∧ r.eventId = g.row.event.eventId ∧ r.status = .pending

lemma LocksPending.row (hs : LocksPending s) {g : Hold BatchEvent} (hg : g ∈ s.locks.rows) (hr : r ∈ s.rows.rows)
    (hid : g.row.id = r.id) : r.eventId = g.row.event.eventId ∧ r.status = .pending := by
  obtain ⟨r', hr', hid', hevent, hpending⟩ := hs g hg
  have heq : r' = r := Table.eq_of_key_eq hr' hr (hid'.trans hid)
  exact heq ▸ ⟨hevent, hpending⟩

/-- A locked row is not written, requeued or purged by anyone. -/
lemma locked_row_kept (h : s.step uuidText a = some t) (hr : r ∈ s.rows.rows) (hpending : r.status = .pending)
    {g : Hold BatchEvent} (hg : g ∈ t.locks.rows) (hid : g.row.id = r.id) : r ∈ t.rows.rows := by
  rcases step_row_kept h hr with ⟨r', hr', hchange⟩ | ⟨days, -, hold⟩
  · cases hchange with
    | same => exact hr'
    | written f hf hidf hattempted hfree => exact absurd hid (hfree g hg)
    | requeued hfailed =>
      rw [hpending] at hfailed
      cases hfailed
  · have hpublished := status_of_isExpired hold
    rw [hpending] at hpublished
    cases hpublished

lemma LocksPending.step (hs : LocksPending s) (h : s.step uuidText a = some t) : LocksPending t := by
  intro g hg
  obtain ⟨r, hr, hid, hevent, hpending⟩ : ∃ r ∈ s.rows.rows, r.id = g.row.id ∧ r.eventId = g.row.event.eventId ∧
      r.status = .pending := by
    cases step_lock_origin h hg with
    | same _ hold => exact hs g hold
    | taken dispatcher r hr hpending hfree => exact ⟨r, hr, rfl, rfl, hpending⟩
    | answered f outcome hf hack =>
      obtain ⟨r, hr, hid, hevent, hpending⟩ := hs f hf
      exact ⟨r, hr, hid.trans (f.row.answered_id outcome).symm,
        hevent.trans (f.row.event.answered_eventId f.row.selectedAt outcome).symm, hpending⟩
  exact ⟨r, locked_row_kept h hr hpending hg hid.symm, hid, hevent, hpending⟩

/-- A published row stays published until it is deleted. -/
lemma LocksPending.published_kept (hs : LocksPending s) (hr : r ∈ s.rows.rows) (hchange : RowChange s t r r')
    (hp : r.status = .published) : r'.status = .published ∧ r'.publishedAt = r.publishedAt := by
  cases hchange with
  | same => exact ⟨hp, rfl⟩
  | written g hg hid hattempted hfree =>
    have hpending := (hs.row hg hr hid).2
    rw [hp] at hpending
    cases hpending
  | requeued hfailed =>
    rw [hp] at hfailed
    cases hfailed

/-! ### The invariant -/

/-- The broker acknowledged a publish of the event that carried its own id for deduplication. -/
def Delivered (uuidText : Uuid → String) (s : OutboxState) (eventId : Uuid) : Prop :=
  ∃ a ∈ s.acknowledged, a.eventId = eventId ∧ a.message.headers.lookup "Nats-Msg-Id" = some (uuidText eventId)

/-- The headers that producers choose do not replace the id. -/
def keepsMessageId (_ : OutboxState) : OutboxAction → Bool
  | .produce e => "Nats-Msg-Id" ∉ e.headersJson.map Prod.fst
  | _ => true

/-- An event, stored or in memory, that is marked as published only if it was delivered. -/
structure Honest (uuidText : Uuid → String) (s : OutboxState) (e : OutboxRow) : Prop where
  header : "Nats-Msg-Id" ∉ e.headersJson.map Prod.fst
  delivered : e.status = .published → Delivered uuidText s e.eventId

structure OutboxOK (uuidText : Uuid → String) (s : OutboxState) : Prop where
  rows : ∀ r ∈ s.rows.rows, Honest uuidText s r
  locks : ∀ h ∈ s.locks.rows, Honest uuidText s h.row.event
  locked : LocksPending s
  committed : ∀ e ∈ s.committed, (∃ r ∈ s.rows.rows, r.eventId = e) ∨ Delivered uuidText s e

lemma OutboxOK.init : OutboxOK uuidText .init :=
  ⟨List.forall_mem_nil _, List.forall_mem_nil _, List.forall_mem_nil _, List.forall_mem_nil _⟩

lemma Delivered.mono (hd : Delivered uuidText s eventId) (hst : s.acknowledged ⊆ t.acknowledged) :
    Delivered uuidText t eventId := by
  obtain ⟨a, ha, hevent⟩ := hd
  exact ⟨a, hst ha, hevent⟩

lemma Honest.mono (he : Honest uuidText s e) (hst : s.acknowledged ⊆ t.acknowledged) : Honest uuidText t e :=
  ⟨he.header, fun hp => (he.delivered hp).mono hst⟩

lemma acknowledged_subset (h : s.step uuidText a = some t) : s.acknowledged ⊆ t.acknowledged := by
  rcases step_acknowledged h with ⟨g, -, -, -, hack⟩ | hack
  · exact hack ▸ List.subset_append_left _ _
  · exact hack ▸ List.Subset.refl _

/-- Only an acknowledgement marks an event as published. -/
lemma answered_status {now : Time} {outcome : PublishOutcome}
    (h : (e.answered now outcome).status = .published) : outcome = .acknowledged := by
  cases outcome with
  | acknowledged => rfl
  | failed err received =>
    rw [OutboxRow.answered] at h
    split at h <;> cases h

lemma answered_headersJson {now : Time} {outcome : PublishOutcome} :
    (e.answered now outcome).headersJson = e.headersJson := by
  unfold OutboxRow.answered
  split
  · rfl
  · split <;> rfl

lemma OutboxOK.step_rows (hs : OutboxOK uuidText s) (hC : keepsMessageId s a = true) (h : s.step uuidText a = some t)
    (hr' : r' ∈ t.rows.rows) : Honest uuidText t r' := by
  refine Honest.mono ?_ (acknowledged_subset h)
  rcases step_row_origin h hr' with ⟨r, hr, hchange⟩ | ⟨e, rfl, rfl⟩
  · cases hchange with
    | same => exact hs.rows r' hr
    | written g hg hid hattempted hfree =>
      refine ⟨(hs.rows r hr).header, fun hp => ?_⟩
      have hevent : r.eventId = g.row.event.eventId := (hs.locked.row hg hr hid).1
      exact (congrArg _ hevent).mpr ((hs.locks g hg).delivered hp)
    | requeued hfailed => exact ⟨(hs.rows r hr).header, nofun⟩
  · exact ⟨of_decide_eq_true hC, nofun⟩

lemma OutboxOK.step_locks (hs : OutboxOK uuidText s) (h : s.step uuidText a = some t) {g : Hold BatchEvent}
    (hg : g ∈ t.locks.rows) : Honest uuidText t g.row.event := by
  cases step_lock_origin h hg with
  | same _ hold => exact (hs.locks g hold).mono (acknowledged_subset h)
  | taken dispatcher r hr hpending hfree => exact (hs.rows r hr).mono (acknowledged_subset h)
  | answered f outcome hf hack =>
    have hheader := (hs.locks f hf).header
    refine ⟨?_, fun hp => ?_⟩
    · show _ ∉ (f.row.event.answered f.row.selectedAt outcome).headersJson.map Prod.fst
      rwa [answered_headersJson]
    · refine ⟨_, hack (answered_status hp), ?_, ?_⟩
      · exact (f.row.event.answered_eventId f.row.selectedAt outcome).symm
      · show _ = some (uuidText (f.row.event.answered f.row.selectedAt outcome).eventId)
        rw [OutboxRow.answered_eventId]
        exact lookup_messageHeaders hheader

/-- What is purged was delivered. -/
lemma OutboxOK.step_committed (hs : OutboxOK uuidText s) (h : s.step uuidText a = some t)
    (he : eventId ∈ t.committed) : (∃ r ∈ t.rows.rows, r.eventId = eventId) ∨ Delivered uuidText t eventId := by
  have hold : eventId ∈ s.committed → (∃ r ∈ t.rows.rows, r.eventId = eventId) ∨ Delivered uuidText t eventId := by
    intro he
    rcases hs.committed eventId he with ⟨r, hr, rfl⟩ | hdelivered
    · rcases step_row_kept h hr with ⟨r', hr', hchange⟩ | ⟨days, -, hexpired⟩
      · exact .inl ⟨r', hr', hchange.keys.2⟩
      · exact .inr (((hs.rows r hr).delivered (status_of_isExpired hexpired)).mono (acknowledged_subset h))
    · exact .inr (hdelivered.mono (acknowledged_subset h))
  rcases Proofs.step_committed h with hsame | ⟨e, -, happend, hnew⟩
  · exact hold (hsame ▸ he)
  · rw [happend] at he
    rcases List.mem_append.mp he with he | he
    · exact hold he
    · exact .inl ⟨_, hnew, (List.mem_singleton.mp he).symm⟩

lemma OutboxOK.step (hs : OutboxOK uuidText s) (hC : keepsMessageId s a = true) (h : s.step uuidText a = some t) :
    OutboxOK uuidText t :=
  ⟨fun _ => hs.step_rows hC h, fun _ => hs.step_locks h, hs.locked.step h, fun _ => hs.step_committed h⟩

lemma outbox_ok (hs : (outboxSystem uuidText).Reach (fun s a => keepsMessageId s a = true) s) : OutboxOK uuidText s :=
  hs.invariant .init fun _ _ _ hs hC h => hs.step hC h

/-- What has become of a row after a step: it stays, and if it is published it stays published, unless the step is a
purge and it was published before the retention. -/
def Retained (s t : OutboxState) (a : OutboxAction) (r : OutboxRow) : Prop :=
  (∃ r' ∈ t.rows.rows, r'.id = r.id ∧ r'.eventId = r.eventId ∧
    (r.status = .published → r'.status = .published ∧ r'.publishedAt = r.publishedAt)) ∨
  ∃ retentionDays, a = .purge retentionDays ∧ r.status = .published ∧
    ∃ publishedAt, r.publishedAt = some publishedAt ∧ publishedAt + retentionDays * day < s.now

lemma OutboxOK.retained (hs : OutboxOK uuidText s) (h : s.step uuidText a = some t) (hr : r ∈ s.rows.rows) :
    Retained s t a r := by
  rcases step_row_kept h hr with ⟨r', hr', hchange⟩ | ⟨days, rfl, hexpired⟩
  · exact .inl ⟨r', hr', hchange.keys.1, hchange.keys.2, hs.locked.published_kept hr hchange⟩
  · obtain ⟨hp, hage⟩ := Bool.and_eq_true_iff.mp hexpired
    obtain ⟨publishedAt, hat, hlt⟩ := (Option.any_eq_true _ _).mp hage
    exact .inr ⟨days, rfl, of_decide_eq_true hp, publishedAt, hat, of_decide_eq_true hlt⟩

/-- Every committed event is stored and not yet published, or was delivered; a row says published only if it was
delivered, never takes it back, and is deleted only after the retention. -/
theorem outbox_loses_nothing (uuidText : Uuid → String) {s : OutboxState}
    (hs : (outboxSystem uuidText).Reach (fun s a => keepsMessageId s a = true) s) :
    (∀ eventId ∈ s.committed,
      (∃ r ∈ s.rows.rows, r.eventId = eventId ∧ (r.status = .pending ∨ r.status = .failed)) ∨
        Delivered uuidText s eventId) ∧
    (∀ r ∈ s.rows.rows, r.status = .published → Delivered uuidText s r.eventId) ∧
    ∀ a t, (outboxSystem uuidText).step s a = some t → ∀ r ∈ s.rows.rows, Retained s t a r := by
  have hok := outbox_ok hs
  refine ⟨fun eventId he => ?_, fun r hr => (hok.rows r hr).delivered, fun a t h r hr => hok.retained h hr⟩
  rcases hok.committed eventId he with ⟨r, hr, rfl⟩ | hdelivered
  · cases hstatus : r.status with
    | pending => exact .inl ⟨r, hr, rfl, .inl hstatus⟩
    | failed => exact .inl ⟨r, hr, rfl, .inr hstatus⟩
    | published => exact .inr ((hok.rows r hr).delivered hstatus)
  · exact .inr hdelivered

/-- One dispatcher publishes two events and crashes; another publishes them again, with a permanent error for the second,
which is requeued, and the first is purged a day later. -/
def crashedDispatcher : (outboxSystem toString).Run keepsMessageId where
  labels :=
    [.produce ⟨1, 10, 7, 1, "job.created", "null", [("trace", "t")]⟩, .produce ⟨2, 11, 7, 1, "job.created", "null", []⟩,
      .select 0 5, .publish 0 .acknowledged, .publish 0 .acknowledged, .crash 0,
      .tick 3, .select 1 5, .publish 1 .acknowledged, .publish 1 (.failed ⟨true, false, "bad subject"⟩ false), .commit 1,
      .requeueFailed [], .tick (2 * day), .purge 1]
  executes := by decide +kernel

theorem outbox_loses_nothing_after_crash :
    crashedDispatcher.final.committed = [10, 11] ∧ crashedDispatcher.final.rows.rows.map OutboxRow.eventId = [11] ∧
      ∀ eventId ∈ crashedDispatcher.final.committed,
        (∃ r ∈ crashedDispatcher.final.rows.rows, r.eventId = eventId ∧ (r.status = .pending ∨ r.status = .failed)) ∨
          Delivered toString crashedDispatcher.final eventId :=
  ⟨by decide +kernel, by decide +kernel, (outbox_loses_nothing toString crashedDispatcher.reach).1⟩

end Proofs

end HamiCloud
