import HamiCloud.Proofs.Outbox

/-!
# Delivery from the outbox

Two further sides of the outbox. A message is published again only because an acknowledgement was lost: the publish
failed although the broker received the message, or the batch that held the acknowledgement was not committed. And no
event is stuck: from every reachable state it can be published once the broker answers again, after the longest backoff
at most.
-/

namespace HamiCloud

open Library

namespace Proofs

variable {uuidText : Uuid → String} {s t : OutboxState} {a : OutboxAction} {r r' : OutboxRow} {eventId : Uuid}

/-! ### Once for each lost acknowledgement -/

/-- Event ids are not used again. -/
def freshEvents (s : OutboxState) : OutboxAction → Bool
  | .produce e => e.eventId ∉ s.committed
  | _ => true

/-- A lock on an event that was attempted stays, unless its dispatcher crashes or the event is written. -/
lemma step_lock_kept (h : s.step uuidText a = some t) {g : Hold BatchEvent} (hg : g ∈ s.locks.rows)
    (hattempted : g.row.attempted = true) : g ∈ t.locks.rows ∨ a = .crash g.holder ∨
      ∀ r ∈ s.rows.rows, r.id = g.row.id → r.write g.row.event ∈ t.rows.rows := by
  cases a with
  | tick d | purge retentionDays | requeueFailed eventIds =>
    cases h
    exact .inl hg
  | produce e =>
    obtain ⟨rows, -, rfl⟩ := Option.map_eq_some_iff.mp h
    exact .inl hg
  | select dispatcher limit =>
    obtain ⟨-, ht⟩ := Option.ite_none_right_eq_some.mp h
    cases ht
    refine .inl (RowLocks.mem_lock_of_free hg fun b hb => ?_)
    obtain ⟨r, hr, rfl⟩ := List.mem_map.mp hb
    exact RowLocks.isFree_iff.mp (mem_selectBatch hr).2.2 g hg
  | publish dispatcher outcome =>
    obtain ⟨b, hb, rfl⟩ := Option.map_eq_some_iff.mp h
    have hheld := RowLocks.mem_heldBy.mp (List.mem_of_find?_eq_some hb)
    refine .inl (List.mem_map.mpr ⟨g, hg, if_neg fun hid => ?_⟩)
    -- the event that is published has not been attempted
    obtain rfl : g = ⟨dispatcher, b⟩ := Table.eq_of_key_eq hg hheld (of_decide_eq_true hid)
    have hnot := List.find?_some hb
    rw [show b.attempted = true from hattempted] at hnot
    cases hnot
  | commit dispatcher =>
    obtain ⟨-, ht⟩ := Option.ite_none_right_eq_some.mp h
    cases ht
    by_cases hholder : g.holder = dispatcher
    · subst hholder
      refine .inr (.inr fun r hr hid => List.mem_map.mpr ⟨r, hr, ?_⟩)
      exact flushed_of_lock hg hid.symm
    · exact .inl (RowLocks.mem_release.mpr ⟨hg, hholder⟩)
  | crash dispatcher =>
    cases h
    by_cases hholder : g.holder = dispatcher
    · exact .inr (.inl (hholder ▸ rfl))
    · exact .inl (RowLocks.mem_release.mpr ⟨hg, hholder⟩)

/-- What a step adds to the books of the broker: nothing but losses, or the event that a dispatcher has just published,
which is in memory as published unless it counts as lost. -/
inductive Accounted (s t : OutboxState) : Prop
  | kept : t.received = s.received → t.acknowledged = s.acknowledged → s.lost.Sublist t.lost → Accounted s t
  | confirmed (g : Hold BatchEvent) (k : Acknowledgement) : g ∈ s.locks.rows → g.row.attempted = false →
      ⟨g.holder, g.row.answered .acknowledged⟩ ∈ t.locks.rows → t.received = s.received ++ [g.row.event.eventId] →
      k.eventId = g.row.event.eventId → t.acknowledged = s.acknowledged ++ [k] → t.lost = s.lost → Accounted s t
  | lost (g : Hold BatchEvent) : g ∈ s.locks.rows → g.row.attempted = false →
      t.received = s.received ++ [g.row.event.eventId] → t.acknowledged = s.acknowledged →
      t.lost = s.lost ++ [g.row.event.eventId] → Accounted s t

lemma step_accounted (h : s.step uuidText a = some t) : Accounted s t := by
  cases a with
  | tick d | purge retentionDays | requeueFailed eventIds =>
    cases h
    exact .kept rfl rfl (.refl _)
  | crash dispatcher =>
    cases h
    exact .kept rfl rfl (List.sublist_append_left _ _)
  | produce e =>
    obtain ⟨rows, -, rfl⟩ := Option.map_eq_some_iff.mp h
    exact .kept rfl rfl (.refl _)
  | select dispatcher limit | commit dispatcher =>
    obtain ⟨-, ht⟩ := Option.ite_none_right_eq_some.mp h
    cases ht
    exact .kept rfl rfl (.refl _)
  | publish dispatcher outcome =>
    obtain ⟨b, hb, rfl⟩ := Option.map_eq_some_iff.mp h
    have hheld := RowLocks.mem_heldBy.mp (List.mem_of_find?_eq_some hb)
    have hattempted : b.attempted = false := by simpa using List.find?_some hb
    cases outcome with
    | acknowledged =>
      refine .confirmed ⟨dispatcher, b⟩ _ hheld hattempted ?_ rfl rfl rfl rfl
      exact List.mem_map.mpr ⟨_, hheld, if_pos (decide_eq_true rfl)⟩
    | failed err received =>
      cases received with
      | false => exact .kept rfl rfl (.refl _)
      | true => exact .lost ⟨dispatcher, b⟩ hheld hattempted rfl rfl rfl

/-- The event is marked as published, in its row or in the memory of the dispatcher that holds it. -/
def Confirmed (s : OutboxState) (r : OutboxRow) : Prop :=
  r.status = .published ∨ ∃ g ∈ s.locks.rows, g.row.id = r.id ∧ g.row.event.status = .published

/-- Every message that was received counts as lost, but for one, and for that only if it is known to be published. -/
structure CountsOK (s : OutboxState) : Prop where
  locked : LocksPending s
  waiting : ∀ g ∈ s.locks.rows, g.row.attempted = false → g.row.event.status = .pending
  rows : ∀ r ∈ s.rows.rows, r.eventId ∈ s.committed
  received : s.received ⊆ s.committed
  acknowledged : (s.acknowledged.map Acknowledgement.eventId).Sublist s.received
  bound : ∀ eventId, s.received.count eventId ≤ s.lost.count eventId + 1
  unconfirmed : ∀ r ∈ s.rows.rows, ¬Confirmed s r → s.received.count r.eventId ≤ s.lost.count r.eventId

lemma CountsOK.init : CountsOK .init :=
  ⟨List.forall_mem_nil _, List.forall_mem_nil _, List.forall_mem_nil _, List.Subset.refl _, .refl _,
    fun _ => Nat.zero_le _, List.forall_mem_nil _⟩

/-- An event that its dispatcher has yet to publish is not confirmed. -/
lemma CountsOK.unattempted (hs : CountsOK s) {g : Hold BatchEvent} (hg : g ∈ s.locks.rows)
    (hattempted : g.row.attempted = false) : g.row.event.eventId ∈ s.committed ∧
      s.received.count g.row.event.eventId ≤ s.lost.count g.row.event.eventId := by
  obtain ⟨r, hr, hid, hevent, hpending⟩ := hs.locked g hg
  rw [← hevent]
  refine ⟨hs.rows r hr, hs.unconfirmed r hr ?_⟩
  rintro (hp | ⟨f, hf, hidf, hp⟩)
  · rw [hpending] at hp
    cases hp
  · obtain rfl : f = g := Table.eq_of_key_eq hf hg (hidf.trans hid)
    rw [hs.waiting f hf hattempted] at hp
    cases hp

lemma CountsOK.step_waiting (hs : CountsOK s) (h : s.step uuidText a = some t) {g : Hold BatchEvent}
    (hg : g ∈ t.locks.rows) (hattempted : g.row.attempted = false) : g.row.event.status = .pending := by
  cases step_lock_origin h hg with
  | same _ hold => exact hs.waiting g hold hattempted
  | taken dispatcher r hr hpending hfree => exact hpending
  | answered f outcome hf hack => cases hattempted

lemma committed_subset (h : s.step uuidText a = some t) : s.committed ⊆ t.committed := by
  rcases step_committed h with hsame | ⟨e, -, happend, -⟩
  · exact hsame ▸ List.Subset.refl _
  · exact happend ▸ List.subset_append_left _ _

lemma CountsOK.step_rows (hs : CountsOK s) (h : s.step uuidText a = some t) (hr' : r' ∈ t.rows.rows) :
    r'.eventId ∈ t.committed := by
  rcases step_row_origin h hr' with ⟨r, hr, hchange⟩ | ⟨e, rfl, rfl⟩
  · rw [hchange.keys.2]
    exact committed_subset h (hs.rows r hr)
  · obtain ⟨rows, -, rfl⟩ := Option.map_eq_some_iff.mp h
    exact List.mem_append_right _ List.mem_cons_self

lemma CountsOK.step_received (hs : CountsOK s) (h : s.step uuidText a = some t) : t.received ⊆ s.committed := by
  cases step_accounted h with
  | kept hreceived => exact hreceived ▸ hs.received
  | confirmed g k hg hattempted _ hreceived =>
    rw [hreceived]
    exact List.append_subset.mpr ⟨hs.received, by simp [(hs.unattempted hg hattempted).1]⟩
  | lost g hg hattempted hreceived =>
    rw [hreceived]
    exact List.append_subset.mpr ⟨hs.received, by simp [(hs.unattempted hg hattempted).1]⟩

lemma CountsOK.step_acknowledged (hs : CountsOK s) (h : s.step uuidText a = some t) :
    (t.acknowledged.map Acknowledgement.eventId).Sublist t.received := by
  cases step_accounted h with
  | kept hreceived hack => rw [hreceived, hack]; exact hs.acknowledged
  | confirmed g k hg _ _ hreceived hk hack =>
    rw [hreceived, hack, List.map_append, List.map_cons, List.map_nil, hk]
    exact hs.acknowledged.append (.refl _)
  | lost g hg _ hreceived hack =>
    rw [hreceived, hack]
    exact hs.acknowledged.trans (List.sublist_append_left _ _)

lemma CountsOK.step_bound (hs : CountsOK s) (h : s.step uuidText a = some t) (eventId : Uuid) :
    t.received.count eventId ≤ t.lost.count eventId + 1 := by
  have hbound := hs.bound eventId
  cases step_accounted h with
  | kept hreceived _ hlost =>
    rw [hreceived]
    exact hbound.trans (Nat.succ_le_succ (hlost.count_le eventId))
  | confirmed g k hg hattempted _ hreceived _ _ hlost =>
    rw [hreceived, hlost, List.count_append, List.count_singleton]
    split
    · rename_i heq
      rw [← beq_iff_eq.mp heq]
      exact Nat.succ_le_succ (hs.unattempted hg hattempted).2
    · exact hbound
  | lost g hg _ hreceived _ hlost =>
    rw [hreceived, hlost, List.count_append, List.count_append]
    omega

/-- What is confirmed stays so, unless its dispatcher crashes: a lock ends with the commit of what was learned. -/
lemma CountsOK.confirmed_kept (hs : CountsOK s) (h : s.step uuidText a = some t) (hr : r ∈ s.rows.rows)
    (hr' : r' ∈ t.rows.rows) (hchange : RowChange s t r r') (hconfirmed : Confirmed s r) :
    Confirmed t r' ∨ ∃ g ∈ s.locks.rows, a = .crash g.holder ∧ g.row.event.eventId = r.eventId ∧
      g.row.event.status = .published := by
  rcases hconfirmed with hp | ⟨g, hg, hid, hp⟩
  · exact .inl (.inl (hs.locked.published_kept hr hchange hp).1)
  · have hattempted : g.row.attempted = true := by
      by_contra hnot
      rw [hs.waiting g hg (Bool.eq_false_of_not_eq_true hnot)] at hp
      cases hp
    rcases step_lock_kept h hg hattempted with hkept | hcrash | hwritten
    · exact .inl (.inr ⟨g, hkept, hid.trans hchange.keys.1.symm, hp⟩)
    · exact .inr ⟨g, hg, hcrash, ((hs.locked.row hg hr hid).1).symm, hp⟩
    · have heq : r' = r.write g.row.event := Table.eq_of_key_eq hr' (hwritten r hr hid.symm) hchange.keys.1
      exact .inl (.inl (heq ▸ hp))

/-- A crash forgets what its dispatcher holds as published. -/
lemma CountsOK.crash_unconfirmed (hs : CountsOK s) {g : Hold BatchEvent} (h : s.step uuidText (.crash g.holder) = some t)
    (hg : g ∈ s.locks.rows) (hp : g.row.event.status = .published) :
    t.received.count g.row.event.eventId ≤ t.lost.count g.row.event.eventId := by
  cases h
  have hmem : g.row.event.eventId ∈ ((s.locks.heldBy g.holder).filter fun b => b.event.status = .published).map
      fun b => b.event.eventId :=
    List.mem_map.mpr ⟨g.row, List.mem_filter.mpr ⟨RowLocks.mem_heldBy.mpr hg, decide_eq_true hp⟩, rfl⟩
  have hpos := List.count_pos_iff.mpr hmem
  have hbound := hs.bound g.row.event.eventId
  show s.received.count _ ≤ (s.lost ++ _).count _
  rw [List.count_append]
  omega

lemma CountsOK.step_unconfirmed (hs : CountsOK s) (hC : freshEvents s a = true) (h : s.step uuidText a = some t)
    (hr' : r' ∈ t.rows.rows) (hnot : ¬Confirmed t r') : t.received.count r'.eventId ≤ t.lost.count r'.eventId := by
  rcases step_row_origin h hr' with ⟨r, hr, hchange⟩ | ⟨e, rfl, rfl⟩
  · rw [hchange.keys.2]
    by_cases hconfirmed : Confirmed s r
    · obtain ⟨g, hg, rfl, hevent, hp⟩ := (hs.confirmed_kept h hr hr' hchange hconfirmed).resolve_left hnot
      exact hevent ▸ hs.crash_unconfirmed h hg hp
    · have hbefore := hs.unconfirmed r hr hconfirmed
      cases step_accounted h with
      | kept hreceived _ hlost =>
        rw [hreceived]
        exact hbefore.trans (hlost.count_le r.eventId)
      | confirmed g k hg _ hanswered hreceived _ _ hlost =>
        -- the event that was just published is in memory as such, so it is another one
        have hne : g.row.event.eventId ≠ r.eventId := by
          intro he
          obtain ⟨r₀, hr₀, hid₀, hevent₀, -⟩ := hs.locked g hg
          obtain rfl : r₀ = r := UniqueTable.eq_of_alt_eq hr₀ hr (hevent₀.trans he)
          exact hnot (.inr ⟨_, hanswered, hid₀.symm.trans hchange.keys.1.symm, rfl⟩)
        rw [hreceived, hlost, List.count_append, List.count_singleton, if_neg (by simpa using hne)]
        exact hbefore
      | lost g hg _ hreceived _ hlost =>
        rw [hreceived, hlost, List.count_append, List.count_append]
        exact Nat.add_le_add_right hbefore _
  · have hfresh : e.eventId ∉ s.committed := of_decide_eq_true hC
    have hzero : t.received.count e.eventId = 0 :=
      List.count_eq_zero.mpr fun hmem => hfresh (hs.step_received h hmem)
    exact hzero.le.trans (Nat.zero_le _)

lemma CountsOK.step (hs : CountsOK s) (hC : freshEvents s a = true) (h : s.step uuidText a = some t) : CountsOK t where
  locked := hs.locked.step h
  waiting _ hg := hs.step_waiting h hg
  rows _ hr := hs.step_rows h hr
  received := List.Subset.trans (hs.step_received h) (committed_subset h)
  acknowledged := hs.step_acknowledged h
  bound := hs.step_bound h
  unconfirmed _ hr := hs.step_unconfirmed hC h hr

/-- Duplicates are accounted for: however many dispatchers drain, retry, requeue and crash, the broker receives an event
at most once more than acknowledgements for it were lost. -/
theorem received_once_unless_lost (uuidText : Uuid → String) {s : OutboxState}
    (hs : (outboxSystem uuidText).Reach (fun s a => freshEvents s a = true) s) (eventId : Uuid) :
    (s.acknowledged.map Acknowledgement.eventId).count eventId ≤ s.received.count eventId ∧
      s.received.count eventId ≤ 1 + s.lost.count eventId := by
  have hok : CountsOK s := hs.invariant .init fun _ _ _ hs hC h => hs.step hC h
  exact ⟨hok.acknowledged.count_le eventId, Nat.add_comm 1 _ ▸ hok.bound eventId⟩

/-- Two dispatchers share three events. The acknowledgement of the first one is late, and later forgotten in a crash;
that of the second one arrives at once, and the third one fails for good and is requeued. -/
def lostAcknowledgements : (outboxSystem toString).Run freshEvents where
  labels :=
    [.produce ⟨1, 10, 7, 1, "job.created", "null", []⟩, .produce ⟨2, 11, 7, 1, "job.created", "null", []⟩,
      .produce ⟨3, 12, 7, 1, "app.created", "null", []⟩, .select 0 1, .select 1 2,
      .publish 0 (.failed ⟨false, false, "nats: timeout"⟩ true), .publish 1 .acknowledged,
      .publish 1 (.failed ⟨true, false, ""⟩ false), .commit 1, .commit 0, .requeueFailed [12], .tick (2 * second),
      .select 1 5, .publish 1 .acknowledged, .crash 1, .select 0 5, .publish 0 .acknowledged, .publish 0 .acknowledged,
      .commit 0]
  executes := by decide +kernel

theorem received_once_unless_lost_crashed :
    lostAcknowledgements.final.received = [10, 11, 10, 10, 12] ∧ lostAcknowledgements.final.lost = [10, 10] ∧
      lostAcknowledgements.final.received.count 10 ≤ 1 + lostAcknowledgements.final.lost.count 10 :=
  ⟨by decide +kernel, by decide +kernel, (received_once_unless_lost toString lostAcknowledgements.reach 10).2⟩

/-! ### No event is stuck -/

lemma backoffSeconds_le (n : Nat) : backoffSeconds n ≤ 300 := min_le_left _ _

/-- The attempt that an event waits for is not further away than the longest backoff. -/
def WaitsAtMost (now : Time) (e : OutboxRow) : Prop := ∀ next ∈ e.nextAttemptAt, next ≤ now + 300 * second

structure BackoffOK (s : OutboxState) : Prop where
  rows : ∀ r ∈ s.rows.rows, WaitsAtMost s.now r
  locks : ∀ g ∈ s.locks.rows, WaitsAtMost s.now g.row.event ∧ g.row.selectedAt ≤ s.now

lemma BackoffOK.init : BackoffOK .init := ⟨List.forall_mem_nil _, List.forall_mem_nil _⟩

lemma WaitsAtMost.mono {now later : Time} {e : OutboxRow} (h : WaitsAtMost now e) (hle : now ≤ later) :
    WaitsAtMost later e :=
  fun next hnext => (h next hnext).trans (Nat.add_le_add_right hle _)

lemma now_le (h : s.step uuidText a = some t) : s.now ≤ t.now := by
  cases a with
  | tick d =>
    cases h
    exact Nat.le_add_right _ _
  | crash dispatcher | purge retentionDays | requeueFailed eventIds =>
    cases h
    exact le_rfl
  | produce e =>
    obtain ⟨rows, -, rfl⟩ := Option.map_eq_some_iff.mp h
    exact le_rfl
  | select dispatcher limit | commit dispatcher =>
    obtain ⟨-, ht⟩ := Option.ite_none_right_eq_some.mp h
    cases ht
    exact le_rfl
  | publish dispatcher outcome =>
    obtain ⟨b, -, rfl⟩ := Option.map_eq_some_iff.mp h
    exact le_rfl

lemma WaitsAtMost.answered {now selectedAt : Time} {e : OutboxRow} (h : WaitsAtMost now e) (hle : selectedAt ≤ now)
    (outcome : PublishOutcome) : WaitsAtMost now (e.answered selectedAt outcome) := by
  cases outcome with
  | acknowledged => exact h
  | failed err received =>
    rw [OutboxRow.answered]
    split
    · exact h
    · intro next hnext
      cases hnext
      exact Nat.add_le_add hle (Nat.mul_le_mul_right second (backoffSeconds_le _))

lemma BackoffOK.step (hs : BackoffOK s) (h : s.step uuidText a = some t) : BackoffOK t := by
  have hnow := now_le h
  constructor
  · intro r' hr'
    rcases step_row_origin h hr' with ⟨r, hr, hchange⟩ | ⟨e, -, rfl⟩
    · refine WaitsAtMost.mono ?_ hnow
      cases hchange with
      | same => exact hs.rows r' hr
      | written g hg hid hattempted hfree => exact (hs.locks g hg).1
      | requeued hfailed =>
        intro next hnext
        cases hnext
        exact Nat.le_add_right _ _
    · exact nofun
  · intro g hg
    cases step_lock_origin h hg with
    | same _ hold => exact ⟨(hs.locks g hold).1.mono hnow, (hs.locks g hold).2.trans hnow⟩
    | taken dispatcher r hr hpending hfree => exact ⟨(hs.rows r hr).mono hnow, hnow⟩
    | answered f outcome hf hack =>
      obtain ⟨hwaits, hselected⟩ := hs.locks f hf
      exact ⟨(hwaits.answered hselected outcome).mono hnow, hselected.trans hnow⟩

/-- The broker acknowledges what it is given. -/
def brokerUp (_ : OutboxState) : OutboxAction → Bool
  | .publish _ (.failed _ _) => false
  | _ => true

/-- Steps in which the broker, if it is asked, acknowledges. -/
abbrev CanReach (uuidText : Uuid → String) (s t : OutboxState) : Prop :=
  (outboxSystem uuidText).Path (fun s a => brokerUp s a = true) s t

lemma CanReach.single (hup : brokerUp s a = true) (h : s.step uuidText a = some t) : CanReach uuidText s t :=
  .tail a (.refl s) hup h

lemma countP_lt_countP {α : Type} {l : List α} {p q : α → Bool} (hpq : ∀ x ∈ l, p x = true → q x = true) {x : α}
    (hx : x ∈ l) (hp : p x = false) (hq : q x = true) : l.countP p < l.countP q := by
  obtain ⟨before, after, rfl⟩ := List.append_of_mem hx
  have hbefore : before.countP p ≤ before.countP q :=
    List.countP_mono_left fun y hy => hpq y (List.mem_append_left _ hy)
  have hafter : after.countP p ≤ after.countP q :=
    List.countP_mono_left fun y hy => hpq y (List.mem_append_right before (List.mem_cons_of_mem x hy))
  rw [List.countP_append, List.countP_append, List.countP_cons_of_pos hq, List.countP_cons_of_neg (by simp [hp])]
  omega

/-- The events that a dispatcher has yet to publish. -/
def unattempted (s : OutboxState) (dispatcher : Nat) : Nat :=
  s.locks.rows.countP fun g => g.holder = dispatcher && !g.row.attempted

/-- The dispatcher holds the row, and has published it if it has come to it. -/
def HoldsToPublish (s : OutboxState) (dispatcher : Nat) (id : Uuid) : Prop :=
  ∃ g ∈ s.locks.rows, g.holder = dispatcher ∧ g.row.id = id ∧
    (g.row.attempted = true → g.row.event.status = .published)

variable (uuidText) in
lemma publish_next {dispatcher : Nat} {id : Uuid} {b : BatchEvent} (hholds : HoldsToPublish s dispatcher id)
    (hb : (s.locks.heldBy dispatcher).find? (fun b => !b.attempted) = some b) :
    ∃ t, s.step uuidText (.publish dispatcher .acknowledged) = some t ∧ t.rows = s.rows ∧ t.now = s.now ∧
      unattempted t dispatcher < unattempted s dispatcher ∧ HoldsToPublish t dispatcher id := by
  have hheld := RowLocks.mem_heldBy.mp (List.mem_of_find?_eq_some hb)
  have hattempted := List.find?_some hb
  rw [OutboxState.step, hb]
  refine ⟨_, rfl, rfl, rfl, ?_, ?_⟩
  · show (s.locks.rows.map _).countP _ < _
    rw [List.countP_map]
    refine countP_lt_countP (fun g hg hp => ?_) hheld ?_ ?_
    · rw [Function.comp_apply] at hp
      split at hp
      · simp [BatchEvent.answered] at hp
      · exact hp
    · rw [Function.comp_apply, if_pos (decide_eq_true rfl)]
      simp [BatchEvent.answered]
    · simpa using hattempted
  · obtain ⟨g, hg, hholder, hid, hpublished⟩ := hholds
    refine ⟨_, List.mem_map_of_mem hg, ?_⟩
    split
    · exact ⟨hholder, (g.row.answered_id .acknowledged).trans hid, fun _ => rfl⟩
    · exact ⟨hholder, hid, hpublished⟩

variable (uuidText) in
/-- The loop over the batch. -/
lemma publish_all {dispatcher : Nat} {id : Uuid} (hholds : HoldsToPublish s dispatcher id) :
    ∃ t, CanReach uuidText s t ∧ t.rows = s.rows ∧ t.now = s.now ∧
      (t.locks.heldBy dispatcher).all BatchEvent.attempted = true ∧ HoldsToPublish t dispatcher id := by
  induction hn : unattempted s dispatcher using Nat.strong_induction_on generalizing s with
  | _ n ih =>
    cases hb : (s.locks.heldBy dispatcher).find? (fun b => !b.attempted) with
    | none => exact ⟨s, .refl s, rfl, rfl, by simpa using hb, hholds⟩
    | some b =>
      obtain ⟨t, hstep, hrows, hnow, hlt, hholds⟩ := publish_next uuidText hholds hb
      obtain ⟨u, hpath, hrows', hnow', hall, hholds'⟩ := ih _ (hn ▸ hlt) hholds rfl
      exact ⟨u, (CanReach.single rfl hstep).trans hpath, hrows'.trans hrows, hnow'.trans hnow, hall, hholds'⟩

/-- A crash of its holder frees the row. -/
lemma exists_free (s : OutboxState) (r : OutboxRow) :
    ∃ dispatcher, (s.locks.release dispatcher).heldBy dispatcher = [] ∧
      (s.locks.release dispatcher).isFree r.id = true := by
  have hnone : ∀ dispatcher, (s.locks.release dispatcher).heldBy dispatcher = [] := by
    intro dispatcher
    refine List.eq_nil_iff_forall_not_mem.mpr fun b hb => ?_
    exact (RowLocks.mem_release.mp (RowLocks.mem_heldBy.mp hb)).2 rfl
  by_cases hlocked : ∃ g ∈ s.locks.rows, g.row.id = r.id
  · obtain ⟨g, hg, hid⟩ := hlocked
    refine ⟨g.holder, hnone _, RowLocks.isFree_iff.mpr fun f hf he => ?_⟩
    obtain ⟨hf, hholder⟩ := RowLocks.mem_release.mp hf
    exact hholder (congrArg Hold.holder (Table.eq_of_key_eq hf hg (he.trans hid.symm)))
  · refine ⟨0, hnone 0, RowLocks.isFree_iff.mpr fun f hf he => hlocked ⟨f, ?_, he⟩⟩
    exact (RowLocks.mem_release.mp hf).1

/-- A batch that is large enough takes every free row that is due. -/
lemma mem_selectBatch_of_due (hr : r ∈ s.rows.rows) (hdue : r.isDue s.now = true)
    (hfree : s.locks.isFree r.id = true) : r ∈ selectBatch s s.rows.rows.length := by
  have hlength : (orderBy OutboxRow.createdAt s.rows.rows).length = s.rows.rows.length :=
    List.length_insertionSort _ _
  rw [selectBatch, List.take_of_length_le (hlength ▸ List.length_filter_le _ _)]
  exact List.mem_filter.mpr ⟨mem_orderBy.mpr hr, Bool.and_eq_true_iff.mpr ⟨hdue, hfree⟩⟩

/-- A free row that is due can be published by any dispatcher that holds nothing. -/
lemma publish_due {dispatcher : Nat} (hr : r ∈ s.rows.rows) (hdue : r.isDue s.now = true)
    (hfree : s.locks.isFree r.id = true) (hidle : s.locks.heldBy dispatcher = []) :
    ∃ t, CanReach uuidText s t ∧ t.now = s.now ∧
      ∃ r' ∈ t.rows.rows, r'.id = r.id ∧ r'.eventId = r.eventId ∧ r'.status = .published := by
  obtain ⟨s₁, hselect, hrows₁, hnow₁, hholds⟩ : ∃ s₁,
      s.step uuidText (.select dispatcher s.rows.rows.length) = some s₁ ∧ s₁.rows = s.rows ∧ s₁.now = s.now ∧
        HoldsToPublish s₁ dispatcher r.id := by
    refine ⟨_, if_pos hidle, rfl, rfl, ⟨dispatcher, ⟨r, s.now, false⟩⟩, ?_, rfl, rfl, nofun⟩
    refine RowLocks.mem_lock_of_mem (List.mem_map_of_mem (mem_selectBatch_of_due hr hdue hfree)) fun b hb hid => ?_
    obtain ⟨r', hr', rfl⟩ := List.mem_map.mp hb
    rw [Table.eq_of_key_eq (mem_selectBatch hr').1 hr hid]
  obtain ⟨s₂, hpath, hrows₂, hnow₂, hall, g, hg, rfl, hid, hpublished⟩ := publish_all uuidText hholds
  have hr₂ : r ∈ s₂.rows.rows := by rwa [hrows₂, hrows₁]
  obtain ⟨s₃, hcommit, hnow₃, hwritten⟩ : ∃ s₃, s₂.step uuidText (.commit g.holder) = some s₃ ∧ s₃.now = s₂.now ∧
      r.flushed s₂.locks g.holder ∈ s₃.rows.rows :=
    ⟨_, if_pos hall, rfl, List.mem_map_of_mem hr₂⟩
  rw [flushed_of_lock hg hid] at hwritten
  refine ⟨s₃, ((CanReach.single rfl hselect).trans hpath).trans (CanReach.single rfl hcommit),
    hnow₃.trans (hnow₂.trans hnow₁), _, hwritten, rfl, rfl, ?_⟩
  exact hpublished (List.all_eq_true.mp hall g.row (RowLocks.mem_heldBy.mpr hg))

/-- After a crash of the dispatcher, a requeue and the longest backoff, a row that is not published is due. -/
lemma make_due (dispatcher : Nat) (hr : r ∈ s.rows.rows) (hp : r.status ≠ .published) (hwaits : WaitsAtMost s.now r) :
    ∃ t, CanReach uuidText s t ∧ t.now = s.now + 300 * second ∧ t.locks = s.locks.release dispatcher ∧
      ∃ r' ∈ t.rows.rows, r'.id = r.id ∧ r'.eventId = r.eventId ∧ r'.isDue t.now = true := by
  obtain ⟨s₁, hcrash, hrows₁, hnow₁, hlocks₁⟩ : ∃ s₁, s.step uuidText (.crash dispatcher) = some s₁ ∧
      s₁.rows = s.rows ∧ s₁.now = s.now ∧ s₁.locks = s.locks.release dispatcher := ⟨_, rfl, rfl, rfl, rfl⟩
  obtain ⟨s₂, hrequeue, hnow₂, hlocks₂, hmem⟩ : ∃ s₂, s₁.step uuidText (.requeueFailed []) = some s₂ ∧
      s₂.now = s₁.now ∧ s₂.locks = s₁.locks ∧
      (if r.status = .failed then { r with status := .pending, retryCount := 0, nextAttemptAt := some s₁.now }
        else r) ∈ s₂.rows.rows := by
    refine ⟨_, rfl, rfl, rfl, List.mem_map.mpr ⟨r, hrows₁ ▸ hr, ?_⟩⟩
    by_cases hfailed : r.status = .failed <;> simp [hfailed]
  obtain ⟨s₃, htick, hnow₃, hrows₃, hlocks₃⟩ : ∃ s₃, s₂.step uuidText (.tick (300 * second)) = some s₃ ∧
      s₃.now = s₂.now + 300 * second ∧ s₃.rows = s₂.rows ∧ s₃.locks = s₂.locks := ⟨_, rfl, rfl, rfl, rfl⟩
  have hnow : s₃.now = s.now + 300 * second := by rw [hnow₃, hnow₂, hnow₁]
  refine ⟨s₃, ((CanReach.single rfl hcrash).trans (CanReach.single rfl hrequeue)).trans (CanReach.single rfl htick),
    hnow, by rw [hlocks₃, hlocks₂, hlocks₁], _, hrows₃ ▸ hmem, ?_⟩
  rw [hnow, OutboxRow.isDue]
  split
  · rw [hnow₁]
    refine ⟨rfl, rfl, Bool.and_eq_true_iff.mpr ⟨rfl, ?_⟩⟩
    exact decide_eq_true (Nat.le_add_right _ _)
  · rename_i hfailed
    have hpending : r.status = .pending := by
      cases hstatus : r.status with
      | pending => rfl
      | published => exact absurd hstatus hp
      | failed => exact absurd hstatus hfailed
    refine ⟨rfl, rfl, Bool.and_eq_true_iff.mpr ⟨decide_eq_true hpending, ?_⟩⟩
    exact (Option.all_eq_true _ _).mpr fun next hnext => decide_eq_true (hwaits next hnext)

/-- From every reachable state every stored event can be published, within the longest backoff, once the broker
acknowledges again. -/
theorem stored_event_can_be_published (uuidText : Uuid → String) {s : OutboxState}
    (hs : (outboxSystem uuidText).Reachable s) {r : OutboxRow} (hr : r ∈ s.rows.rows) :
    ∃ t, CanReach uuidText s t ∧ t.now ≤ s.now + 300 * second ∧
      ∃ r' ∈ t.rows.rows, r'.id = r.id ∧ r'.eventId = r.eventId ∧ r'.status = .published := by
  have hwaits : WaitsAtMost s.now r :=
    (System.Reach.invariant (P := BackoffOK) .init (fun _ _ _ hs _ h => hs.step h) hs).rows r hr
  by_cases hp : r.status = .published
  · exact ⟨s, .refl s, Nat.le_add_right _ _, r, hr, rfl, rfl, hp⟩
  · obtain ⟨dispatcher, hidle, hfree⟩ := exists_free s r
    obtain ⟨t, hdelay, hnow, hlocks, r₁, hr₁, hid, hevent, hdue⟩ := make_due dispatcher hr hp hwaits
    rw [← hlocks] at hidle hfree
    obtain ⟨u, hpublish, hnow', r', hr', hid', hevent', hstatus⟩ :=
      publish_due hr₁ hdue (hid ▸ hfree) hidle
    exact ⟨u, hdelay.trans hpublish, (hnow'.trans hnow).le, r', hr', hid'.trans hid, hevent'.trans hevent, hstatus⟩

/-- A dispatcher that hangs with an event that has failed before. -/
def hungDispatcher : (outboxSystem toString).FreeRun where
  labels :=
    [.produce ⟨1, 10, 7, 1, "job.created", "null", []⟩,
      .select 0 5, .publish 0 (.failed ⟨true, false, ""⟩ false), .commit 0,
      .tick second, .requeueFailed [], .select 1 5]
  executes := by decide +kernel

def heldEvent : OutboxRow := ⟨1, 10, 7, 1, "job.created", "null", [], .pending, 0, some second, none, 0⟩

theorem stored_event_can_be_published_held :
    heldEvent.id ∈ hungDispatcher.final.locks.rows.map (fun g => g.row.id) ∧
      ∃ t, CanReach toString hungDispatcher.final t ∧ t.now ≤ hungDispatcher.final.now + 300 * second ∧
        ∃ r' ∈ t.rows.rows, r'.id = 1 ∧ r'.eventId = 10 ∧ r'.status = .published :=
  ⟨by decide +kernel,
    stored_event_can_be_published toString hungDispatcher.reachable (r := heldEvent) (by decide +kernel)⟩

end Proofs

end HamiCloud
