import HamiCloud.Proofs.AppLocks
import HamiCloud.Runtime.Naming

/-!
# Names of distinct applications

Slugs are unique as they are stored, and names are built from slugs whose outer hyphens are trimmed and that are cut
after 63 characters. Names are distinct exactly if what is left of the slugs is; slugs that neither rule touches give
distinct names to distinct applications, others may share them, within a workspace and between workspaces.
-/

namespace HamiCloud.Proofs

open Library

variable {cfg : Settings} {w w' : World} {s t : String}

/-! ### Slugs that stay as they are -/

/-- Short enough, and without a hyphen at either end. -/
def tidySlug (s : String) : Bool := s.length ≤ 63 && s.toList.head? ≠ some '-' && s.toList.getLast? ≠ some '-'

lemma isSlug_chars (h : isSlug s = true) : ∀ c ∈ s.toList, isSlugChar c = true := by
  simp only [isSlug, Bool.and_eq_true] at h
  exact List.all_eq_true.mp h.2

lemma isSlug_ne_nil (h : isSlug s = true) : s.toList ≠ [] := by
  simp only [isSlug, Bool.and_eq_true, decide_eq_true_eq] at h
  intro hnil
  have hlen : s.length = 0 := by rw [← String.length_toList, hnil]; rfl
  omega

lemma toLowerRune_slugChar {c : Char} (h : isSlugChar c = true) : toLowerRune c = c := by
  simp only [isSlugChar, Bool.or_eq_true, Bool.and_eq_true, decide_eq_true_eq] at h
  have hascii : c.toNat < 0x80 := by
    rcases h with (⟨-, hz⟩ | ⟨-, h9⟩) | rfl
    · exact lt_of_le_of_lt (UInt32.le_iff_toNat_le.mp hz) (by decide)
    · exact lt_of_le_of_lt (UInt32.le_iff_toNat_le.mp h9) (by decide)
    · decide
  have hlower : ¬(c.val ≥ 'A'.val ∧ c.val ≤ 'Z'.val) := by
    rintro ⟨hA, hZ⟩
    rcases h with (⟨ha, -⟩ | ⟨-, h9⟩) | rfl
    · exact absurd (UInt32.le_trans ha hZ) (by decide)
    · exact absurd (UInt32.le_trans hA h9) (by decide)
    · exact absurd hA (by decide)
  rw [toLowerRune, if_neg (by omega), if_neg (by omega)]
  exact dif_neg hlower

lemma trimHyphens_eq_self {l : List Char} (hhead : l.head? ≠ some '-') (hlast : l.getLast? ≠ some '-') :
    trimHyphens l = l := by
  have hleft : l.dropWhile (· = '-') = l := by
    cases l with
    | nil => rfl
    | cons c l => exact List.dropWhile_cons_of_neg (by simpa using hhead)
  rw [trimHyphens, hleft, List.rdropWhile_eq_self_iff]
  intro hne
  simpa [List.getLast?_eq_some_getLast hne] using hlast

/-- Characters that are kept as they are. -/
lemma map_kept {l : List Char} (h : ∀ c ∈ l, isSlugChar c = true) :
    ((l.map toLowerRune).map fun r => if isSlugChar r then r else '-') = l := by
  rw [List.map_map]
  refine (List.map_congr_left fun c hc => ?_).trans (List.map_id l)
  rw [Function.comp_apply, toLowerRune_slugChar (h c hc), if_pos (h c hc), id]

/-- What a resource name keeps of an accepted slug. -/
def resourceSlug (s : String) : List Char :=
  let short := ((trimHyphens s.toList).take 63).rdropWhile (· = '-')
  if short = [] then "workload".toList else short

lemma toList_sanitizeResourceName (hchars : ∀ c ∈ s.toList, isSlugChar c = true) :
    (sanitizeResourceName s).toList = resourceSlug s := by
  have hcut : (if 63 < (trimHyphens s.toList).length then ((trimHyphens s.toList).take 63).rdropWhile (· = '-')
      else trimHyphens s.toList) = ((trimHyphens s.toList).take 63).rdropWhile (· = '-') := by
    split
    · rfl
    · rename_i hshort
      rw [List.take_of_length_le (Nat.le_of_not_lt hshort), trimHyphens, List.rdropWhile_idempotent]
  unfold sanitizeResourceName resourceSlug
  dsimp only
  rw [map_kept hchars, hcut]
  split
  · rfl
  · exact String.toList_ofList

lemma resourceSlug_chars (hchars : ∀ c ∈ s.toList, isSlugChar c = true) : ∀ c ∈ resourceSlug s, isSlugChar c = true := by
  unfold resourceSlug
  dsimp only
  split
  · exact List.all_eq_true.mp (by decide)
  · intro c hc
    have htrimmed : c ∈ trimHyphens s.toList := List.mem_of_mem_take ((List.rdropWhile_prefix _ _).subset hc)
    exact hchars c (List.dropWhile_subset _ ((List.rdropWhile_prefix _ _).subset htrimmed))

lemma sanitizeResourceName_of_kept (hchars : ∀ c ∈ s.toList, isSlugChar c = true) (hne : s.toList ≠ [])
    (htidy : tidySlug s = true) : sanitizeResourceName s = s := by
  simp only [tidySlug, Bool.and_eq_true, decide_eq_true_eq] at htidy
  obtain ⟨⟨hlen, hhead⟩, hlast⟩ := htidy
  have hshort : ¬63 < s.toList.length := by
    rw [String.length_toList]
    omega
  unfold sanitizeResourceName
  dsimp only
  rw [map_kept hchars, trimHyphens_eq_self (by simpa using hhead) (by simpa using hlast), if_neg hshort,
    if_neg hne, String.ofList_toList]

lemma resourceSlug_of_tidy (h : isSlug s = true) (htidy : tidySlug s = true) : resourceSlug s = s.toList := by
  rw [← toList_sanitizeResourceName (isSlug_chars h),
    sanitizeResourceName_of_kept (isSlug_chars h) (isSlug_ne_nil h) htidy]

/-! ### Slugs of the system -/

/-- The slugs are accepted ones, and unique in their workspace. -/
structure Slugs (db : Db) : Prop where
  accepted : ∀ k a, db.apps.get k = some a → isSlug a.slug = true
  unique : ∀ k k' a a', db.apps.get k = some a → db.apps.get k' = some a' → a.workspaceId = a'.workspaceId →
    a.slug = a'.slug → k = k'

/-- A row after a step is a row before it with the same workspace and slug, or the one that is new. -/
lemma AppsStep.slug_before {db db' : Db} {n : Option Uuid} (h : AppsStep db db' n) {k : Uuid} {a' : Application}
    (ha' : db'.apps.get k = some a') :
    (∃ a, db.apps.get k = some a ∧ a'.workspaceId = a.workspaceId ∧ a'.slug = a.slug) ∨ db.apps.get k = none := by
  cases ha : db.apps.get k with
  | none => exact .inr rfl
  | some a =>
    obtain ⟨b, hb, hsame, -⟩ := h.kept k a ha
    obtain rfl : a' = b := Option.some.inj (ha'.symm.trans hb)
    exact .inl ⟨a, rfl, hsame⟩

lemma Slugs.step {db db' : Db} {n : Option Uuid} (hi : Slugs db) (h : AppsStep db db' n) : Slugs db' := by
  -- a new application differs from every other one
  have hnew : ∀ k k' a a', db.apps.get k = none → db'.apps.get k = some a → db'.apps.get k' = some a' →
      a.workspaceId = a'.workspaceId → a.slug = a'.slug → k' = k := by
    intro k k' a a' hnone ha ha' hws hslug
    obtain ⟨hfresh, hone⟩ := h.created k a hnone ha
    rcases h.slug_before ha' with ⟨b, hb, hbws, hbslug⟩ | hnone'
    · exact absurd (hbslug.symm.trans hslug.symm) (hfresh.unused k' b hb (hbws.symm.trans hws.symm))
    · exact hone k' hnone' (by rw [ha']; exact Option.some_ne_none a')
  constructor
  · intro k a ha
    rcases h.slug_before ha with ⟨b, hb, -, hslug⟩ | hnone
    · rw [hslug]
      exact hi.accepted k b hb
    · exact (h.created k a hnone ha).1.slug
  · intro k k' a a' ha ha' hws hslug
    rcases h.slug_before ha with ⟨b, hb, hbws, hbslug⟩ | hnone
    · rcases h.slug_before ha' with ⟨b', hb', hbws', hbslug'⟩ | hnone'
      · refine hi.unique k k' b b' hb hb' ?_ ?_
        · rw [← hbws, ← hbws', hws]
        · rw [← hbslug, ← hbslug', hslug]
      · exact hnew k' k a' a hnone' ha' ha hws.symm hslug.symm
    · exact (hnew k k' a a' hnone ha ha' hws hslug).symm

lemma reach_slugs {C : World → Action → Prop} (h : (system cfg).Reach C w) : Slugs w.db := by
  refine h.invariant (P := fun u => Slugs u.db) ?_ (fun _ _ _ hi _ hstep => hi.step (step_apps hstep))
  constructor
  · intro k a ha
    cases ha
  · intro k k' a a' ha
    cases ha

/-! ### Distinct names -/

lemma not_mem_slug {c : Char} (h : isSlug s = true) (hc : isSlugChar c = false) : c ∉ s.toList :=
  fun hmem => by simp [isSlug_chars h c hmem] at hc

lemma not_mem_resourceSlug {c : Char} (h : isSlug s = true) (hc : isSlugChar c = false) : c ∉ resourceSlug s :=
  fun hmem => by simp [resourceSlug_chars (isSlug_chars h) c hmem] at hc

lemma imageRepoPath_eq_iff {ws ws' s s' : String} (hws : isSlug ws = true) (hs : isSlug s = true)
    (hws' : isSlug ws' = true) (hs' : isSlug s' = true) : imageRepoPath ws s = imageRepoPath ws' s' ↔
      resourceSlug ws = resourceSlug ws' ∧ resourceSlug s = resourceSlug s' := by
  unfold imageRepoPath
  rw [← String.toList_inj, String.toList_append, String.toList_append, String.toList_append, String.toList_append,
    toList_sanitizeResourceName (isSlug_chars hws), toList_sanitizeResourceName (isSlug_chars hs),
    toList_sanitizeResourceName (isSlug_chars hws'), toList_sanitizeResourceName (isSlug_chars hs'), List.append_assoc,
    List.append_assoc]
  refine (List.append_cons_inj_of_notMem (not_mem_resourceSlug hws (by decide))
    (not_mem_resourceSlug hs (by decide))).trans ?_
  exact and_congr_right fun _ => and_iff_right rfl

lemma ingressHost_eq_iff {domain ws ws' s s' : String} (hws : isSlug ws = true) (hs : isSlug s = true)
    (hws' : isSlug ws' = true) (hs' : isSlug s' = true) : ingressHost domain ws s = ingressHost domain ws' s' ↔
      ws = ws' ∧ resourceSlug s = resourceSlug s' := by
  have hne : ∀ {t : String}, isSlug t = true → ¬t = "" := by
    rintro t ht rfl
    cases ht
  have hlist : ∀ {t v : String}, isSlug t = true → isSlug v = true →
      (ingressHost domain v t).toList = (resourceSlug t ++ '.' :: v.toList) ++ '.' :: domain.toList := by
    intro t v ht hv
    simp [ingressHost, hne hv, toList_sanitizeResourceName (isSlug_chars ht)]
  rw [← String.toList_inj, hlist hs hws, hlist hs' hws', List.append_left_inj]
  refine (List.append_cons_inj_of_notMem (not_mem_resourceSlug hs (by decide)) (not_mem_slug hws (by decide))).trans ?_
  rw [String.toList_inj]
  exact ⟨fun h => ⟨h.2.2, h.1⟩, fun h => ⟨h.2, rfl, h.1⟩⟩

/-- Two applications have distinct ingress hosts exactly if they are of different workspaces or what is left of their
slugs differs, and distinct image repositories exactly if what is left of the slugs of their workspaces or of theirs
differs. If the slugs are tidy, distinct applications have distinct hosts; if those of their workspaces are tidy as
well, they have distinct image repositories. -/
theorem application_names_distinct (cfg : Settings) (W : Workspaces) {w : World} (h : (system cfg).Reachable w)
    {k k' : Uuid} {a a' : Application} {ws ws' : Workspace} (ha : w.db.apps.get k = some a)
    (ha' : w.db.apps.get k' = some a') (hne : k ≠ k') (hws : W.table.get a.workspaceId = some ws)
    (hws' : W.table.get a'.workspaceId = some ws') :
    (∀ domain, ingressHost domain ws.slug a.slug ≠ ingressHost domain ws'.slug a'.slug ↔
      a.workspaceId ≠ a'.workspaceId ∨ resourceSlug a.slug ≠ resourceSlug a'.slug) ∧
    (imageRepoPath ws.slug a.slug ≠ imageRepoPath ws'.slug a'.slug ↔
      resourceSlug ws.slug ≠ resourceSlug ws'.slug ∨ resourceSlug a.slug ≠ resourceSlug a'.slug) ∧
    (tidySlug a.slug = true → tidySlug a'.slug = true →
      (∀ domain, ingressHost domain ws.slug a.slug ≠ ingressHost domain ws'.slug a'.slug) ∧
      (tidySlug ws.slug = true → tidySlug ws'.slug = true →
        imageRepoPath ws.slug a.slug ≠ imageRepoPath ws'.slug a'.slug)) := by
  have hi := reach_slugs h
  have hs := hi.accepted k a ha
  have hs' := hi.accepted k' a' ha'
  have hacc := W.accepted ws (Table.mem_of_get hws)
  have hacc' := W.accepted ws' (Table.mem_of_get hws')
  -- workspaces are told apart by their slugs, and applications of one workspace by theirs
  have hids : ws.slug = ws'.slug ↔ a.workspaceId = a'.workspaceId := by
    constructor
    · intro hslugs
      have heq : ws = ws' := W.unique ws (Table.mem_of_get hws) ws' (Table.mem_of_get hws') hslugs
      rw [← Table.key_of_get hws, ← Table.key_of_get hws', heq]
    · intro hid
      rw [hid, hws'] at hws
      cases hws
      rfl
  have hsame : ¬(ws.slug = ws'.slug ∧ a.slug = a'.slug) := fun hboth =>
    hne (hi.unique k k' a a' ha ha' (hids.mp hboth.1) hboth.2)
  refine ⟨fun domain => ?_, ?_, fun htidy htidy' => ⟨fun domain hhost => hsame ?_, fun tidy tidy' hpath => hsame ?_⟩⟩
  · rw [Ne, ingressHost_eq_iff hacc hs hacc' hs', hids, not_and_or]
  · rw [Ne, imageRepoPath_eq_iff hacc hs hacc' hs', not_and_or]
  · have hboth := (ingressHost_eq_iff hacc hs hacc' hs').mp hhost
    rw [resourceSlug_of_tidy hs htidy, resourceSlug_of_tidy hs' htidy', String.toList_inj] at hboth
    exact hboth
  · have hboth := (imageRepoPath_eq_iff hacc hs hacc' hs').mp hpath
    rw [resourceSlug_of_tidy hacc tidy, resourceSlug_of_tidy hacc' tidy', resourceSlug_of_tidy hs htidy,
      resourceSlug_of_tidy hs' htidy', String.toList_inj, String.toList_inj] at hboth
    exact hboth

/-- Two workspaces whose slugs differ in a hyphen at the end. -/
def twoWorkspaces : Workspaces where
  table := ⟨[⟨100, "acme"⟩, ⟨200, "acme-"⟩], by decide⟩
  accepted := by decide
  unique := by decide

/-- The workspace `acme` has the applications `-web` and `docs`. -/
def twoApps : (system Settings.default).FreeRun where
  labels := [.service (.createApplication 100 ⟨"-web", none, none⟩),
    .service (.createApplication 100 ⟨"docs", none, none⟩)]
  executes := by decide +kernel

theorem application_names_distinct_acme : ∃ (w : World) (a a' : Application), (system Settings.default).Reachable w ∧
    w.db.apps.get 0 = some a ∧ w.db.apps.get 1 = some a' ∧
    (∀ domain, ingressHost domain "acme" a.slug ≠ ingressHost domain "acme" a'.slug) ∧
    imageRepoPath "acme" a.slug ≠ imageRepoPath "acme" a'.slug := by
  have ha : twoApps.final.db.apps.get 0 = some ⟨0, 100, "-web", 1, none, none, some "main", 0⟩ := by decide +kernel
  have ha' : twoApps.final.db.apps.get 1 = some ⟨1, 100, "docs", 1, none, none, some "main", 0⟩ := by decide +kernel
  have hws : twoWorkspaces.table.get 100 = some ⟨100, "acme"⟩ := by decide
  obtain ⟨hhosts, hpaths, -⟩ := application_names_distinct Settings.default twoWorkspaces twoApps.reachable ha ha'
    (by decide) hws hws
  exact ⟨_, _, _, twoApps.reachable, ha, ha', fun domain => (hhosts domain).mpr (.inr (by decide)),
    hpaths.mpr (.inr (by decide))⟩

/-- Application `0` of `acme`, and two applications whose slugs begin with a hyphen or whose workspace is `acme-`. -/
def untidyApps : (system Settings.default).FreeRun where
  labels := [.service (.createApplication 100 ⟨"web", none, none⟩),
    .service (.createApplication 100 ⟨"-web", none, none⟩), .service (.createApplication 200 ⟨"web", none, none⟩)]
  executes := by decide +kernel

/-- Two applications of one workspace share their host and their image repository, and two applications of different
workspaces share their image repository. -/
theorem untidy_names_collide : ∃ w, (system Settings.default).Reachable w ∧
    w.db.apps.rows.map (fun a => (a.id, a.workspaceId, a.slug)) = [(0, 100, "web"), (1, 100, "-web"), (2, 200, "web")] ∧
    twoWorkspaces.table.rows = [⟨100, "acme"⟩, ⟨200, "acme-"⟩] ∧
    (∀ domain, ingressHost domain "acme" "web" = ingressHost domain "acme" "-web") ∧
    imageRepoPath "acme" "web" = imageRepoPath "acme" "-web" ∧
    imageRepoPath "acme" "web" = imageRepoPath "acme-" "web" := by
  have htrim : sanitizeResourceName "web" = sanitizeResourceName "-web" := by decide +kernel
  refine ⟨_, untidyApps.reachable, by decide +kernel, rfl, fun domain => ?_, ?_, by decide +kernel⟩
  · unfold ingressHost
    rw [htrim]
  · unfold imageRepoPath
    rw [htrim]

end HamiCloud.Proofs
