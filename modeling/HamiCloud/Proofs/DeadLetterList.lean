import HamiCloud.Library.Segments
import HamiCloud.Web.DeadLetterList

/-!
# The loaded dead-letter records

The loaded list is a segment of the records of the server as long as each answer still fits it: the page of a poll that
arrives after the user has paged has the newest loaded record, and a page of older records arrives while the last loaded
record is the one it continues. Without the conditions a poll that arrives between a request for more and its answer
leaves a gap.
-/

namespace HamiCloud.Proofs

open Library

variable {server records items : List ListedRow} {limit : Nat} {s s' : DlqState}

/-- The records of a workspace, the newest first. -/
structure ServerRecords (server : List ListedRow) : Prop where
  descending : server.Pairwise fun a b => b.key < a.key
  ids : (server.map ListedRow.id).Nodup

lemma ServerRecords.nodup (h : ServerRecords server) : server.Nodup := h.ids.of_map ListedRow.id

lemma ServerRecords.eq_of_id (h : ServerRecords server) {a b : ListedRow} (ha : a ∈ server) (hb : b ∈ server)
    (he : a.id = b.id) : a = b :=
  List.inj_on_of_nodup_map h.ids ha hb he

/-- A polled page that has the newest loaded record keeps the list without gaps. -/
lemma merge_segment (h : ServerRecords server) (hrecords : records <:+: server) (hitems : items <:+: server)
    {fresh : Bool} (hfits : fresh = false → ∀ newest ∈ records.head?, newest ∈ items) :
    mergeDlqRecords records items fresh <:+: server := by
  cases fresh with
  | true => exact hitems
  | false =>
    have hsame : (records.filter fun r => r.id ∉ items.map ListedRow.id) = records.filter (· ∉ items) := by
      refine List.filter_congr fun r hr => ?_
      refine decide_eq_decide.mpr (not_congr ⟨fun hid => ?_, fun hmem => List.mem_map_of_mem hmem⟩)
      obtain ⟨t, ht, he⟩ := List.mem_map.mp hid
      exact h.eq_of_id (hitems.subset ht) (hrecords.subset hr) he ▸ ht
    show items ++ records.filter (fun r => r.id ∉ items.map ListedRow.id) <:+: server
    rw [hsame]
    cases records with
    | nil => simpa using hitems
    | cons newest older => exact infix_merge h.nodup hitems hrecords (hfits rfl newest rfl)

/-- So does a further page that starts after the last loaded record. -/
lemma append_segment (h : ServerRecords server) (hrecords : records <:+: server) {oldest : ListedRow}
    (hlast : records.getLast? = some oldest) (hitems : oldest :: items <:+: server) :
    appendDlqPage records items <:+: server := by
  obtain ⟨newer, rfl⟩ := List.getLast?_eq_some_iff.mp hlast
  have hjoined : newer ++ oldest :: items <:+: server := infix_join h.nodup hrecords hitems
  have hids : (((newer ++ [oldest]) ++ items).map ListedRow.id).Nodup := by
    have hnodup := h.ids.sublist (hjoined.sublist.map ListedRow.id)
    simpa using hnodup
  rw [List.map_append] at hids
  have hnew : items.filter (fun r => r.id ∉ (newer ++ [oldest]).map ListedRow.id) = items := by
    refine List.filter_eq_self.mpr fun r hr => decide_eq_true fun hold => ?_
    exact (List.nodup_append.mp hids).2.2 r.id hold r.id (List.mem_map_of_mem hr) rfl
  rw [appendDlqPage, hnew]
  simpa using hjoined

/-- A cursor is the position of a record. -/
def Positioned (server : List ListedRow) (cursor : Option DlqCursor) : Prop := ∀ c ∈ cursor, ∃ r ∈ server, r.key = c

lemma Positioned.insert {cursor : Option DlqCursor} (h : Positioned server cursor) (r : ListedRow) :
    Positioned (r :: server) cursor := fun c hc =>
  let ⟨t, ht, he⟩ := h c hc
  ⟨t, List.mem_cons_of_mem r ht, he⟩

/-- The answer of a poll, and that of a request for more than `cursor`. -/
def PollAnswer (server : List ListedRow) (data : DlqPage) : Prop :=
  data.1 <:+: server ∧ Positioned server data.2

def MoreAnswer (server : List ListedRow) (cursor : DlqCursor) (data : DlqPage) : Prop :=
  (∃ r : ListedRow, r.key = cursor ∧ r :: data.1 <:+: server) ∧ Positioned server data.2

structure DlqInv (s : DlqState) : Prop where
  server : ServerRecords s.server
  records : s.console.records <:+: s.server
  polls : ∀ data ∈ s.polls, PollAnswer s.server data
  nextCursor : Positioned s.server s.console.nextCursor
  requested : Positioned s.server s.requested
  answered : ∀ a ∈ s.answered, MoreAnswer s.server a.1 a.2

lemma dlqInv_init : DlqInv DlqState.init where
  server := ⟨.nil, .nil⟩
  records := List.nil_infix
  polls := by simp [DlqState.init]
  nextCursor := by simp [Positioned, DlqState.init, DlqConsole.init]
  requested := by simp [Positioned, DlqState.init]
  answered := by simp [DlqState.init]

lemma pollAnswer_page (h : ServerRecords server) : PollAnswer server (page ListedRow.key server none limit) :=
  ⟨page_first_segment h.descending limit, fun _ hc => page_cursor hc⟩

lemma moreAnswer_page (h : ServerRecords server) {r : ListedRow} (hr : r ∈ server) :
    MoreAnswer server r.key (page ListedRow.key server (some r.key) limit) :=
  ⟨⟨r, rfl, page_after_segment h.descending hr limit⟩, fun _ hc => page_cursor hc⟩

lemma DlqInv.insert (h : DlqInv s) {r : ListedRow} (hr : ∀ old ∈ s.server, old.key < r.key ∧ old.id ≠ r.id) :
    DlqInv { s with server := r :: s.server } where
  server := by
    refine ⟨List.pairwise_cons.mpr ⟨fun old hold => (hr old hold).1, h.server.descending⟩, ?_⟩
    refine List.nodup_cons.mpr ⟨fun hid => ?_, h.server.ids⟩
    obtain ⟨old, hold, he⟩ := List.mem_map.mp hid
    exact (hr old hold).2 he
  records := List.infix_cons h.records
  polls data hdata := ⟨List.infix_cons (h.polls data hdata).1, (h.polls data hdata).2.insert r⟩
  nextCursor := h.nextCursor.insert r
  requested := h.requested.insert r
  answered a ha := by
    obtain ⟨⟨t, ht, hsegment⟩, hnext⟩ := h.answered a ha
    exact ⟨⟨t, ht, List.infix_cons hsegment⟩, hnext.insert r⟩

/-- The answer that arrives still fits the loaded list. -/
def fits (s : DlqState) : DlqAction → Bool
  | .pollArrives n =>
    s.polls[n]?.all fun data => !s.console.hasLoadedMore || s.console.records.head?.all (· ∈ data.1)
  | .moreArrives => s.answered.all fun (cursor, _) => s.console.records.getLast?.map ListedRow.key = some cursor
  | _ => true

lemma receivePoll_segment (h : ServerRecords server) {c : DlqConsole} {data : DlqPage} (hrecords : c.records <:+: server)
    (hdata : PollAnswer server data)
    (hfits : (!c.hasLoadedMore || c.records.head?.all (· ∈ data.1)) = true) :
    (c.receivePoll data).records <:+: server := by
  refine merge_segment h hrecords hdata.1 fun hfresh newest hnewest => ?_
  have hpaged : c.hasLoadedMore = true := by
    revert hfresh
    cases c.isCurrent <;> cases c.hasLoadedMore <;> simp
  rw [hpaged, Bool.not_true, Bool.false_or, Option.mem_def.mp hnewest] at hfits
  exact of_decide_eq_true hfits

lemma receivePoll_cursor {c : DlqConsole} {data : DlqPage} (hc : Positioned server c.nextCursor)
    (hdata : PollAnswer server data) : Positioned server (c.receivePoll data).nextCursor := by
  simp only [DlqConsole.receivePoll, resolveDlqCursor]
  split
  · exact hdata.2
  · exact hc

lemma receiveMore_segment (h : ServerRecords server) {c : DlqConsole} {cursor : DlqCursor} {data : DlqPage}
    (hrecords : c.records <:+: server) (hdata : MoreAnswer server cursor data)
    (hfits : c.records.getLast?.map ListedRow.key = some cursor) : (c.receiveMore data).records <:+: server := by
  obtain ⟨oldest, hlast, hkey⟩ := Option.map_eq_some_iff.mp hfits
  obtain ⟨⟨r, hr, hsegment⟩, -⟩ := hdata
  -- the position determines the record
  have hmem : oldest ∈ server := hrecords.subset (List.mem_of_getLast? hlast)
  have hsame : r = oldest :=
    List.inj_on_of_nodup_map (distinctKeys_of_pairwise h.descending) (hsegment.subset List.mem_cons_self) hmem
      (hr.trans hkey.symm)
  subst hsame
  unfold DlqConsole.receiveMore
  split
  · exact append_segment h hrecords hlast hsegment
  · exact hrecords

lemma receiveMore_cursor {c : DlqConsole} {cursor : DlqCursor} {data : DlqPage} (hc : Positioned server c.nextCursor)
    (hdata : MoreAnswer server cursor data) : Positioned server (c.receiveMore data).nextCursor := by
  unfold DlqConsole.receiveMore
  split
  · exact hdata.2
  · exact hc

lemma DlqInv.step (h : DlqInv s) {a : DlqAction} (hfits : fits s a = true) (hstep : s.step limit a = some s') :
    DlqInv s' := by
  cases a with
  | insert r =>
    obtain ⟨hr, he⟩ := Option.ite_none_right_eq_some.mp hstep
    cases he
    exact h.insert hr
  | poll =>
    cases hstep
    refine { h with polls := fun data hdata => ?_ }
    rcases List.mem_append.mp hdata with hdata | hdata
    · exact h.polls data hdata
    · rw [List.mem_singleton.mp hdata]
      exact pollAnswer_page h.server
  | pollArrives n =>
    obtain ⟨data, hn, rfl⟩ := Option.map_eq_some_iff.mp hstep
    have hdata := h.polls data (List.mem_of_getElem? hn)
    simp only [fits, hn, Option.all_some] at hfits
    exact { h with
      records := receivePoll_segment h.server h.records hdata hfits
      polls := fun data' hdata' => h.polls data' (List.mem_of_mem_eraseIdx hdata')
      nextCursor := receivePoll_cursor h.nextCursor hdata }
  | pollFails n =>
    obtain ⟨data, -, rfl⟩ := Option.map_eq_some_iff.mp hstep
    exact { h with polls := fun data' hdata' => h.polls data' (List.mem_of_mem_eraseIdx hdata') }
  | loadMore =>
    simp only [DlqState.step] at hstep
    split at hstep
    · rename_i cursor hcursor
      split at hstep
      · cases hstep
      · cases hstep
        exact { h with requested := hcursor ▸ h.nextCursor }
    · cases hstep
  | answerMore =>
    obtain ⟨cursor, hcursor, rfl⟩ := Option.map_eq_some_iff.mp hstep
    obtain ⟨r, hr, rfl⟩ := h.requested cursor hcursor
    refine { h with requested := fun _ hc => by simp at hc, answered := fun a ha => ?_ }
    obtain rfl : _ = a := Option.some.inj ha
    exact moreAnswer_page h.server hr
  | moreArrives =>
    obtain ⟨⟨cursor, data⟩, hanswered, rfl⟩ := Option.map_eq_some_iff.mp hstep
    have hdata := h.answered (cursor, data) hanswered
    simp only [fits, hanswered, Option.all_some, decide_eq_true_eq] at hfits
    exact { h with
      records := receiveMore_segment h.server h.records hdata hfits
      nextCursor := receiveMore_cursor h.nextCursor hdata
      answered := fun a ha => by simp at ha }
  | moreFails =>
    obtain ⟨-, he⟩ := Option.ite_none_right_eq_some.mp hstep
    cases he
    exact { h with requested := fun _ hc => by simp at hc, answered := fun a ha => by simp at ha }

/-- When every answer that arrives fits the loaded list, the loaded records have distinct ids, are in the order of the
server, and have every record of the server between two of them. -/
theorem loaded_records_without_gaps (limit : Nat) {s : DlqState}
    (hs : (dlqSystem limit).Reach (fun s a => fits s a = true) s) :
    (s.console.records.map ListedRow.id).Nodup ∧ s.console.records.Pairwise (fun a b => b.key < a.key) ∧
      ∀ r ∈ s.server, ∀ oldest ∈ s.console.records, ∀ newest ∈ s.console.records,
        oldest.key ≤ r.key → r.key ≤ newest.key → r ∈ s.console.records := by
  have h : DlqInv s := hs.invariant (P := DlqInv) dlqInv_init fun _ _ _ h hfits hstep => h.step hfits hstep
  refine ⟨h.server.ids.sublist (h.records.sublist.map ListedRow.id), h.server.descending.sublist h.records.sublist, ?_⟩
  intro r hr oldest holdest newest hnewest hle hge
  exact mem_of_between h.server.descending h.records hr holdest hnewest hle hge

/-- The dead-letter records of the runs below, in the order of their creation. -/
def letter (n : Fin 24) : ListedRow := ⟨n, 100, ⟨n, n.isLt.trans (by decide)⟩, ""⟩

/-- The page size of the console. -/
def dlqPageSize : Nat := Listing.workspaceDeadLetterRecords.defaultLimit

/-- The console has loaded the first page of 23 records, and the server has answered its request for more. -/
def moreRequested : List DlqAction :=
  ((List.finRange 24).take 23).map (fun n => .insert (letter n)) ++ [.poll, .pollArrives 0, .loadMore, .answerMore]

/-- The answer to the request for more arrives before the next poll: every answer fits, and all 24 records are loaded. -/
def pagedRun : (dlqSystem dlqPageSize).Run fits where
  labels := moreRequested ++ [.moreArrives, .insert (letter 23), .poll, .pollArrives 0]
  executes := by decide +kernel

theorem loaded_records_without_gaps_paged : pagedRun.final.console.records = ((List.finRange 24).map letter).reverse ∧
    (pagedRun.final.console.records.map ListedRow.id).Nodup :=
  ⟨by decide +kernel, (loaded_records_without_gaps dlqPageSize pagedRun.reach).1⟩

/-- A poll with a 24th record arrives before the answer to the request for more. It replaces the first page, so the answer
no longer continues the loaded list. -/
def pollFirstRun : (dlqSystem dlqPageSize).FreeRun where
  labels := moreRequested ++ [.insert (letter 23), .poll, .pollArrives 0, .moreArrives]
  executes := by decide +kernel

/-- A poll that arrives between a request for more and its answer replaces the page that the answer continues: the last
record of the former page is lost between its neighbours. -/
theorem poll_before_answer_leaves_gap : ∃ s, (dlqSystem dlqPageSize).Reachable s ∧ letter 3 ∈ s.server ∧
    letter 2 ∈ s.console.records ∧ letter 4 ∈ s.console.records ∧ (letter 2).key ≤ (letter 3).key ∧
    (letter 3).key ≤ (letter 4).key ∧ letter 3 ∉ s.console.records :=
  ⟨pollFirstRun.final, pollFirstRun.reachable, by decide +kernel⟩

end HamiCloud.Proofs
