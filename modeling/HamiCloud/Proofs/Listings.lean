import HamiCloud.Proofs.Enabled
import HamiCloud.Proofs.Formats

/-!
# Traversal of a listing

A cursor decodes to the instant and the identifier it was made of, with or without its padding. So a listing page is
a page of the keyset pagination, and a client that follows `next_cursor` sees every row of the listing once.
-/

namespace HamiCloud.Proofs

open Library

variable {α : Type} {F : TextFormats} {l : Listing} {row : α → ListedRow}

/-! ### Cursors -/

lemma fromUTF8?_toUTF8 (text : String) : String.fromUTF8? ⟨text.toUTF8.data.toList.toArray⟩ = some text := by
  have hvalid : text.toUTF8.IsValidUTF8 := text.isValidUTF8
  change String.fromUTF8? text.toUTF8 = some text
  unfold String.fromUTF8?
  rw [dif_pos hvalid]
  rfl

lemma urlsafeB64decode_encode (text : String) : urlsafeB64decode (urlsafeB64encode text) = some text := by
  unfold urlsafeB64decode urlsafeB64encode
  rw [String.toList_ofList, Base64.decode_encode, Option.bind_some, fromUTF8?_toUTF8]

/-- `cursor.rstrip("=")`. -/
def stripPadding (cursor : String) : String := String.ofList (cursor.toList.rdropWhile (· = '='))

lemma toList_padBase64 (text : String) : (padBase64 text).toList = Base64.pad text.toList := by
  rw [padBase64, String.toList_append, String.toList_ofList, Base64.pad, String.length_toList]

/-- The padding is recovered from the length, whether it was stripped or not. -/
lemma padBase64_encode (text : String) : padBase64 (urlsafeB64encode text) = urlsafeB64encode text ∧
    padBase64 (stripPadding (urlsafeB64encode text)) = urlsafeB64encode text := by
  constructor
  · rw [← String.toList_inj, toList_padBase64, urlsafeB64encode, String.toList_ofList, Base64.pad_encode]
  · rw [← String.toList_inj, toList_padBase64, stripPadding, urlsafeB64encode, String.toList_ofList,
      String.toList_ofList, Base64.pad_rdropWhile_encode]

lemma splitBar_eq {date id : String} (h : '|' ∉ date.toList) : splitBar (date ++ "|" ++ id) = some (date, id) := by
  have hlist : (date ++ "|" ++ id).toList = date.toList ++ '|' :: id.toList := by simp
  have hspan : (date.toList ++ '|' :: id.toList).span (· ≠ '|') = (date.toList, '|' :: id.toList) := by
    have hall : ∀ c ∈ date.toList, decide (c ≠ '|') = true := by
      intro c hc
      exact decide_eq_true fun he => h (he ▸ hc)
    rw [List.span_eq_takeWhile_dropWhile, List.takeWhile_append_of_pos hall, List.dropWhile_append_of_pos hall]
    simp
  unfold splitBar
  rw [hlist, hspan]
  simp only [String.ofList_toList]

lemma toUtc_utcDateTime (t : Instant) : (utcDateTime t).toUtc = utcDateTime t := by
  unfold DateTime.toUtc utcDateTime
  rw [Option.getD_some, sub_zero]

lemma instant_of_range {dt : DateTime} (h : 0 ≤ dt.wall ∧ dt.wall < yearTenThousand)
    (hlt : dt.wall.toNat < yearTenThousand) : dt.instant = some ⟨dt.wall.toNat, hlt⟩ := by
  rw [DateTime.instant, dif_pos h]

lemma instant_utcDateTime (t : Instant) : (utcDateTime t).instant = some t := by
  have hrange : 0 ≤ (utcDateTime t).wall ∧ (utcDateTime t).wall < yearTenThousand :=
    ⟨Int.natCast_nonneg t.val, Int.ofNat_lt.mpr t.isLt⟩
  have hval : (utcDateTime t).wall.toNat = t.val := Int.toNat_natCast t.val
  rw [instant_of_range hrange (hval ▸ t.isLt)]
  exact congrArg some (Fin.ext hval)

lemma parseCursor_of_decoded {F : TextFormats} {cursor : String} {t : Instant} {id : Uuid}
    (h : urlsafeB64decode (padBase64 cursor) = some (F.isoformat (utcDateTime t) ++ "|" ++ F.uuidText id)) :
    parseCursor F cursor = some (t, id) := by
  unfold parseCursor
  rw [h, Option.bind_eq_bind, Option.bind_some, splitBar_eq (F.isoformat_noBar t), Option.bind_eq_bind,
    Option.bind_some]
  dsimp only
  rw [F.fromisoformat_isoformat t, Option.bind_eq_bind, Option.bind_some, toUtc_utcDateTime, instant_utcDateTime,
    Option.bind_eq_bind, Option.bind_some, F.parseUuid_uuidText id]
  rfl

theorem decodeCursor_encodeCursor (F : TextFormats) (t : Instant) (id : Uuid) :
    decodeCursor F (encodeCursor F t id) = .ok (t, id) ∧
      decodeCursor F (stripPadding (encodeCursor F t id)) = .ok (t, id) := by
  unfold decodeCursor encodeCursor
  obtain ⟨hpadded, hstripped⟩ := padBase64_encode (F.isoformat (utcDateTime t) ++ "|" ++ F.uuidText id)
  rw [parseCursor_of_decoded (hpadded ▸ urlsafeB64decode_encode _),
    parseCursor_of_decoded (hstripped ▸ urlsafeB64decode_encode _)]
  exact ⟨rfl, rfl⟩

/-! ### Pages -/

/-- The cursor of a position in the listing. -/
def cursorText (F : TextFormats) (k : Instant ×ₗ Uuid) : String := encodeCursor F (ofLex k).1 (ofLex k).2

lemma cursorText_ne_empty (k : Instant ×ₗ Uuid) : cursorText F k ≠ "" := by
  intro hempty
  have hdecode : decodeCursor F (cursorText F k) = .ok ((ofLex k).1, (ofLex k).2) :=
    (decodeCursor_encodeCursor F _ _).1
  have hfails : parseCursor F "" = none := rfl
  rw [hempty, decodeCursor, hfails] at hdecode
  cases hdecode

lemma position_cursorText (cursor : Option (Instant ×ₗ Uuid)) :
    l.position F (cursor.map (cursorText F)) = .ok (cursor.map ofLex) := by
  cases cursor with
  | none => rfl
  | some k =>
    have huses : l.usesCursor (cursorText F k) = true := by
      cases l with
      | workspaceAuditEvents action => rfl
      | _ => exact decide_eq_true (cursorText_ne_empty k)
    have hdecode : decodeCursor F (cursorText F k) = .ok (ofLex k) := (decodeCursor_encodeCursor F _ _).1
    rw [Option.map_some, Listing.position, if_pos huses, hdecode]
    rfl

/-- A page of a listing is a page of the keyset pagination. -/
lemma list_eq_page {rows : List α} {scopeId : Uuid} {limit : Nat} (hlimit : 1 ≤ limit ∧ limit ≤ 100)
    (haction : l.validAction = true) (cursor : Option (Instant ×ₗ Uuid)) :
    l.list F row scopeId rows (some limit) (cursor.map (cursorText F)) =
      .ok ((page (fun a => (row a).key) (rows.filter fun a => l.selects scopeId (row a)) cursor limit).1,
        (page (fun a => (row a).key) (rows.filter fun a => l.selects scopeId (row a)) cursor limit).2.map
          (cursorText F)) := by
  have hposition : (cursor.map ofLex).map toLex = cursor := by
    rw [Option.map_map]
    exact Option.map_id'
  unfold Listing.list page
  simp only [Option.getD_some, ensure_of hlimit, ensure_of haction, ok_bind, position_cursorText, hposition]
  split
  · rw [Option.map_map]
    rfl
  · rfl

lemma follow_eq_follow {rows : Nat → List α} {scopeId : Uuid} {limit : Nat → Nat}
    (hlimit : ∀ n, 1 ≤ limit n ∧ limit n ≤ 100) (haction : l.validAction = true) (fuel n : Nat)
    (cursor : Option (Instant ×ₗ Uuid)) :
    l.follow F row scopeId rows limit fuel n (cursor.map (cursorText F)) =
      follow (fun a => (row a).key) (fun n => (rows n).filter fun a => l.selects scopeId (row a)) limit fuel n
        cursor := by
  induction fuel generalizing n cursor with
  | zero => rfl
  | succ fuel ih =>
    unfold Listing.follow follow
    rw [list_eq_page (hlimit n) haction]
    rcases page (fun a => (row a).key) ((rows n).filter fun a => l.selects scopeId (row a)) cursor (limit n)
      with ⟨items, next⟩
    cases next with
    | none => rfl
    | some k => exact congrArg (Option.map (items :: ·)) (ih (n + 1) (some k))

lemma distinctKeys {rows : List α} (h : (rows.map fun a => (row a).id).Nodup) (p : α → Bool) :
    DistinctKeys (fun a => (row a).key) (rows.filter p) := by
  have hids : ((rows.filter p).map fun a => (row a).id).Nodup := h.sublist (List.filter_sublist.map _)
  have hsnd : ((rows.filter p).map fun a => (row a).id) =
      ((rows.filter p).map fun a => (row a).key).map (fun k => (ofLex k).2) := by
    rw [List.map_map]
    rfl
  rw [hsnd] at hids
  exact hids.of_map _

/-- Cursors decode to what they were made of, also without their padding. Following `next_cursor` through a listing
ends after at most one request more than the listing has rows, and its pages list the rows of the first request once
each, by strictly descending creation time and identifier, if between two requests only greater rows are inserted. -/
theorem listing_traversed {α : Type} (F : TextFormats) (l : Listing) (row : α → ListedRow) (scopeId : Uuid)
    {rows : Nat → List α} {limit : Nat → Nat} (haction : l.validAction = true)
    (hlimit : ∀ n, 1 ≤ limit n ∧ limit n ≤ 100) (hids : ∀ n, ((rows n).map fun a => (row a).id).Nodup)
    (hinserts : ∀ n, ∃ new, (rows (n + 1)).Perm (rows n ++ new) ∧ ∀ r ∈ new, l.selects scopeId (row r) = true →
      ∀ s ∈ rows 0, l.selects scopeId (row s) = true → (row s).key < (row r).key) :
    (∀ t id, decodeCursor F (encodeCursor F t id) = .ok (t, id) ∧
      decodeCursor F (stripPadding (encodeCursor F t id)) = .ok (t, id)) ∧
    ∃ pages, l.follow F row scopeId rows limit (((rows 0).filter fun a => l.selects scopeId (row a)).length + 1) 0 none =
        some pages ∧
      pages.flatten.Perm ((rows 0).filter fun a => l.selects scopeId (row a)) ∧
      pages.flatten.Pairwise fun a b => (row b).key < (row a).key := by
  have hgrows : GrowsAbove (fun a => (row a).key) fun n => (rows n).filter fun a => l.selects scopeId (row a) := by
    refine ⟨fun n => distinctKeys (hids n) _, fun n => ?_⟩
    obtain ⟨new, hperm, hnew⟩ := hinserts n
    refine ⟨new.filter fun a => l.selects scopeId (row a), ?_, fun r hr s hs => ?_⟩
    · rw [← List.filter_append]
      exact hperm.filter _
    · obtain ⟨hr, hrsel⟩ := List.mem_filter.mp hr
      obtain ⟨hs, hssel⟩ := List.mem_filter.mp hs
      exact hnew r hr hrsel s hs hssel
  refine ⟨decodeCursor_encodeCursor F, ?_⟩
  obtain ⟨pages, hfollow, hperm, hsorted⟩ := hgrows.follow_lists (fun n => (hlimit n).1)
  exact ⟨pages, (follow_eq_follow hlimit haction _ 0 none).trans hfollow, hperm, hsorted⟩

/-- Three jobs of workspace `100`, two of them created at the same moment; a fourth one is inserted after the first
request. -/
def jobRows (n : Nat) : List ListedRow :=
  let started : List ListedRow :=
    [⟨1, 100, ⟨5, by decide⟩, ""⟩, ⟨2, 100, ⟨7, by decide⟩, ""⟩, ⟨3, 100, ⟨7, by decide⟩, ""⟩]
  if n = 0 then started else started ++ [⟨0, 100, ⟨9, by decide⟩, ""⟩]

theorem listing_traversed_jobs : ∃ pages : List (List ListedRow),
    Listing.workspaceJobs.follow pythonFormats id 100 jobRows (fun _ => 1) 4 0 none = some pages ∧
    pages.flatten.Perm (jobRows 0) ∧ pages.flatten.Pairwise fun a b => b.key < a.key := by
  have hids : ∀ n, ((jobRows n).map ListedRow.id).Nodup := by
    intro n
    unfold jobRows
    split <;> decide
  have hinserts : ∀ n, ∃ new, (jobRows (n + 1)).Perm (jobRows n ++ new) ∧ ∀ r ∈ new,
      Listing.workspaceJobs.selects 100 r = true → ∀ s ∈ jobRows 0, Listing.workspaceJobs.selects 100 s = true →
        s.key < r.key := by
    intro n
    cases n with
    | zero => exact ⟨[⟨0, 100, ⟨9, by decide⟩, ""⟩], .refl _, by decide⟩
    | succ n => exact ⟨[], by rw [List.append_nil]; exact .refl _, by simp⟩
  exact (listing_traversed pythonFormats .workspaceJobs id 100 rfl (fun _ => by decide) hids hinserts).2

end HamiCloud.Proofs
