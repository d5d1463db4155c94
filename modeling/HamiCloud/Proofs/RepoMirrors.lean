import HamiCloud.Proofs.RepositoryHosts
import HamiCloud.Runtime.RepoMirrors

/-!
# Mirrors and double dots

The candidates for a local mirror are joined from the directory of the mirrors and the path of the address. They stay in
the directory unless the path, or its last name alone, leaves a double dot behind. Accepted addresses may contain such
paths, also some whose double dot appears only once a `.git` is cut off.
-/

namespace HamiCloud.Proofs

open Library

variable {p path dir : List UInt8} {R : AuthorityRules} {isDir : List UInt8 → Bool} {gitReposDir env repoUrl : String}

/-- The path that is joined with the directory of the mirrors, or its last name, climbs out of it. -/
def leaves (path : List UInt8) : Bool :=
  bytePath.up ∈ bytePath.walk false [] (mirrorPath path) || pathBase (mirrorPath path) = bytePath.up

/-- An address whose mirror is looked for outside the directory. -/
def leavesDirectory (R : AuthorityRules) (repoUrl : String) : Bool :=
  (parseUrl R (utf8 repoUrl)).any fun u => (u.scheme = utf8 "http" || u.scheme = utf8 "https") && leaves u.path

/-- The address is used as it is, or replaced by a path within the directory of the mirrors. -/
def MirrorWithin (R : AuthorityRules) (isDir : List UInt8 → Bool) (gitReposDir env repoUrl : String) : Prop :=
  resolveRepoSource R isDir gitReposDir env repoUrl = utf8 repoUrl ∨
    bytePath.Below (utf8 (effectiveReposDir gitReposDir env)) (resolveRepoSource R isDir gitReposDir env repoUrl)

/-- An absolute directory whose last name is not one of the path of the address. -/
def UnmentionedDirectory (R : AuthorityRules) (dir repoUrl : String) : Prop :=
  bytePath.isRooted (utf8 dir) = true ∧
    ∃ last, (bytePath.names (utf8 dir)).getLast? = some last ∧
      ∀ u, parseUrl R (utf8 repoUrl) = some u → last ∉ (mirrorPath u.path).splitOn bytePath.sep

/-! ### The candidates -/

lemma up_notMem_walk_git (h : bytePath.up ∉ bytePath.walk false [] p) :
    bytePath.up ∉ bytePath.walk false [] (p ++ utf8 ".git") := by
  have hgit : utf8 ".git" = [46, 103, 105, 116] := by decide +kernel
  obtain ⟨front, last, hsplit, -, happend⟩ := PathSymbols.splitOn_last (S := bytePath) p
  rw [PathSymbols.walk, hsplit, List.foldl_append] at h
  rw [PathSymbols.walk, hgit, happend _ (by decide), List.foldl_append]
  generalize front.foldl (bytePath.push false) [] = names at h
  have hnames : bytePath.up ∉ names := fun hmem => h (PathSymbols.up_mem_push hmem)
  -- with the suffix the last name is too long to be anything special
  have hlong : ∀ short : List UInt8, short.length ≤ 2 → last ++ [46, 103, 105, 116] ≠ short := by
    rintro short hshort rfl
    simp at hshort
  rw [List.foldl_cons, List.foldl_nil, PathSymbols.push, if_neg, if_neg (hlong _ (by decide))]
  · intro hmem
    rcases List.mem_append.mp hmem with hmem | hmem
    · exact hnames hmem
    · exact hlong _ (by decide) (List.mem_singleton.mp hmem).symm
  · rintro (hnil | hhere)
    · exact hlong _ (by decide) hnil
    · exact hlong _ (by decide) hhere

lemma walk_name (hsep : bytePath.sep ∉ p) : bytePath.walk false [] p = bytePath.push false [] p := by
  rw [PathSymbols.walk, List.splitOn_eq_singleton hsep]
  rfl

lemma up_notMem_walk_pathBase (h : pathBase p ≠ bytePath.up) : bytePath.up ∉ bytePath.walk false [] (pathBase p) := by
  unfold pathBase at h ⊢
  split
  · decide
  · rename_i hp
    rw [if_neg hp] at h
    dsimp only at h ⊢
    split
    · decide
    · rename_i hslashes
      rw [if_neg hslashes] at h
      obtain ⟨front, last, hsplit, hlast, -⟩ := PathSymbols.splitOn_last (S := bytePath) (p.rdropWhile (· = byte '/'))
      have hmem : last ∈ (p.rdropWhile (· = byte '/')).splitOn bytePath.sep :=
        hsplit ▸ List.mem_append_right _ List.mem_cons_self
      have hbase : ((p.rdropWhile (· = byte '/')).reverse.takeWhile (· ≠ byte '/')).reverse = last := hlast
      rw [hbase] at h ⊢
      rw [walk_name (PathSymbols.notMem_of_mem_splitOn hmem), PathSymbols.push]
      split
      · simp
      · simpa using h.symm

lemma candidate_below (hdir : dir ≠ []) (h : leaves path = false) :
    ∀ c ∈ mirrorCandidates dir path, bytePath.Below dir c := by
  simp only [leaves, Bool.or_eq_false_iff, decide_eq_false_iff_not] at h
  obtain ⟨hclean, hname⟩ := h
  have hbase := up_notMem_walk_pathBase hname
  intro c hc
  simp only [mirrorCandidates, List.mem_cons, List.not_mem_nil, or_false] at hc
  rcases hc with rfl | rfl | rfl | rfl
  · exact PathSymbols.below_join hdir hclean
  · exact PathSymbols.below_join hdir (up_notMem_walk_git hclean)
  · exact PathSymbols.below_join hdir hbase
  · exact PathSymbols.below_join hdir (up_notMem_walk_git hbase)

lemma isRooted_candidate (hdir : dir ≠ []) :
    ∀ c ∈ mirrorCandidates dir path, bytePath.isRooted c = bytePath.isRooted dir := by
  intro c hc
  simp only [mirrorCandidates, List.mem_cons, List.not_mem_nil, or_false] at hc
  rcases hc with rfl | rfl | rfl | rfl <;> exact PathSymbols.isRooted_join hdir _

/-- A path that leaves has a candidate outside of every directory whose last name it does not mention. -/
lemma exists_candidate_not_below {last : List UInt8} (hlast : (bytePath.names dir).getLast? = some last)
    (hup : last ≠ bytePath.up) (hpath : last ∉ (mirrorPath path).splitOn bytePath.sep) (h : leaves path = true) :
    ∃ c ∈ mirrorCandidates dir path, ¬bytePath.Below dir c := by
  simp only [leaves, Bool.or_eq_true, decide_eq_true_eq] at h
  rcases h with hclean | hbase
  · refine ⟨bytePath.join [dir, mirrorPath path], ?_, PathSymbols.not_below_join hlast hup hpath hclean⟩
    simp [mirrorCandidates]
  · refine ⟨bytePath.join [dir, bytePath.up], ?_, PathSymbols.not_below_join hlast hup ?_ (by decide)⟩
    · simp [mirrorCandidates, hbase]
    · rw [List.splitOn_eq_singleton PathSymbols.up_noSep, List.mem_singleton]
      exact hup

/-! ### The resolved address -/

lemma utf8_ne_nil {s : String} (hs : s ≠ "") : utf8 s ≠ [] := by
  intro hnil
  have hempty : utf8 "" = [] := by decide +kernel
  exact hs (utf8_injective (hnil.trans hempty.symm))

lemma resolveRepoSource_eq {u : ParsedUrl} (hdir : effectiveReposDir gitReposDir env ≠ "")
    (hu : parseUrl R (utf8 repoUrl) = some u) (hscheme : u.scheme = utf8 "http" ∨ u.scheme = utf8 "https") :
    resolveRepoSource R isDir gitReposDir env repoUrl =
      ((mirrorCandidates (utf8 (effectiveReposDir gitReposDir env)) u.path).find? isDir).getD (utf8 repoUrl) := by
  unfold resolveRepoSource
  dsimp only
  rw [if_neg hdir, hu]
  dsimp only
  rw [if_pos hscheme]

lemma mirrorWithin_of_stays (hdir : effectiveReposDir gitReposDir env ≠ "") (h : leavesDirectory R repoUrl = false) :
    MirrorWithin R isDir gitReposDir env repoUrl := by
  unfold MirrorWithin
  cases hu : parseUrl R (utf8 repoUrl) with
  | none =>
    refine .inl ?_
    unfold resolveRepoSource
    dsimp only
    rw [if_neg hdir, hu]
  | some u =>
    by_cases hscheme : u.scheme = utf8 "http" ∨ u.scheme = utf8 "https"
    · rw [resolveRepoSource_eq hdir hu hscheme]
      have hpath : leaves u.path = false := by
        simpa [leavesDirectory, hu, ← not_or, hscheme] using h
      cases hfind : (mirrorCandidates (utf8 (effectiveReposDir gitReposDir env)) u.path).find? isDir with
      | none => exact .inl rfl
      | some c => exact .inr (candidate_below (utf8_ne_nil hdir) hpath c (List.mem_of_find?_eq_some hfind))
    · refine .inl ?_
      unfold resolveRepoSource
      dsimp only
      rw [if_neg hdir, hu]
      dsimp only
      rw [if_neg hscheme]

/-- An address with a scheme is no absolute path. -/
lemma scheme_of_rooted {raw : List UInt8} {u : ParsedUrl} (hraw : bytePath.isRooted raw = true)
    (hu : parseUrl R raw = some u) : u.scheme = [] := by
  obtain ⟨rest, rfl⟩ : ∃ rest, raw = byte '/' :: rest := by
    cases raw with
    | nil => cases hraw
    | cons b rest =>
      cases of_decide_eq_true hraw
      exact ⟨rest, rfl⟩
  have hcut : (cut (byte '#') (byte '/' :: rest)).1 = byte '/' :: (cut (byte '#') rest).1 := by
    rw [cut, List.takeWhile_cons_of_pos (by decide)]
    rfl
  unfold parseUrl at hu
  dsimp only at hu
  rw [hcut] at hu
  split at hu
  · cases hu
  · split at hu
    · cases hu
      rfl
    · have hscheme : getScheme (byte '/' :: (cut (byte '#') rest).1) =
          some ([], byte '/' :: (cut (byte '#') rest).1) := by
        unfold getScheme
        dsimp only
        rw [List.dropWhile_cons_of_neg (by decide)]
        rfl
      rw [hscheme] at hu
      simp only [Option.bind_eq_bind, Option.bind_some, Option.bind_eq_some_iff, Option.some.injEq] at hu
      obtain ⟨-, -, -, -, rfl⟩ := hu
      rfl

lemma stays_of_mirrorWithin (hdir : UnmentionedDirectory R (effectiveReposDir gitReposDir env) repoUrl)
    (h : ∀ isDir, MirrorWithin R isDir gitReposDir env repoUrl) : leavesDirectory R repoUrl = false := by
  obtain ⟨hrooted, last, hlast, hfresh⟩ := hdir
  have hne : effectiveReposDir gitReposDir env ≠ "" := by
    intro hempty
    rw [hempty] at hrooted
    exact absurd hrooted (by decide +kernel)
  by_contra hleaves
  obtain ⟨u, hu, hout⟩ := (Option.any_eq_true _ _).mp (Bool.not_eq_false _ ▸ hleaves)
  simp only [Bool.and_eq_true, Bool.or_eq_true, decide_eq_true_eq] at hout
  obtain ⟨hscheme, hpath⟩ := hout
  have hup := (PathSymbols.plain_of_rooted hrooted last (List.mem_of_getLast? hlast)).ne_up
  obtain ⟨c, hc, hbelow⟩ := exists_candidate_not_below hlast hup (hfresh u hu) hpath
  -- the only directory of the file system is the candidate outside
  have hresolved : resolveRepoSource R (· = c) gitReposDir env repoUrl = c := by
    rw [resolveRepoSource_eq hne hu hscheme]
    cases hfind : (mirrorCandidates (utf8 (effectiveReposDir gitReposDir env)) u.path).find? (· = c) with
    | none => simpa using List.find?_eq_none.mp hfind c hc
    | some c' => simpa using List.find?_some hfind
  rcases h (· = c) with hsame | hwithin
  · have hcRooted : bytePath.isRooted c = true := (isRooted_candidate (utf8_ne_nil hne) c hc).trans hrooted
    rw [hresolved] at hsame
    rw [scheme_of_rooted (hsame ▸ hcRooted) hu] at hscheme
    revert hscheme
    decide +kernel
  · rw [hresolved] at hwithin
    exact hbelow hwithin

/-- An address that does not leave is used as it is or replaced by a path within the directory of the mirrors, whatever
the file system contains; and for an absolute directory whose last name the address does not mention, no other one is. -/
theorem mirror_within_directory (R : AuthorityRules) (gitReposDir env repoUrl : String)
    (hdir : effectiveReposDir gitReposDir env ≠ "") :
    (leavesDirectory R repoUrl = false → ∀ isDir, MirrorWithin R isDir gitReposDir env repoUrl) ∧
    (UnmentionedDirectory R (effectiveReposDir gitReposDir env) repoUrl →
      ((∀ isDir, MirrorWithin R isDir gitReposDir env repoUrl) ↔ leavesDirectory R repoUrl = false)) :=
  ⟨fun h _ => mirrorWithin_of_stays hdir h,
    fun hfresh => ⟨stays_of_mirrorWithin hfresh, fun h _ => mirrorWithin_of_stays hdir h⟩⟩

/-- Plain host names are the only authorities. -/
def plainAuthorities : AuthorityRules where
  accepts authority := authority.all (· ∈ utf8 "abcdefghijklmnopqrstuvwxyz0123456789.-")
  plain _ h := List.all_eq_true.mpr fun b hb => decide_eq_true (h b hb)

theorem mirror_within_directory_web :
    resolveRepoSource plainAuthorities (· = utf8 "/srv/mirrors/shop/web") "/srv/mirrors" ""
      "https://github.com/shop/web.git" = utf8 "/srv/mirrors/shop/web" ∧
    bytePath.Below (utf8 "/srv/mirrors") (utf8 "/srv/mirrors/shop/web") ∧
    ¬∀ isDir, MirrorWithin plainAuthorities isDir "/srv/mirrors" "" "https://github.com/shop/../.." := by
  have hresolved : resolveRepoSource plainAuthorities (· = utf8 "/srv/mirrors/shop/web") "/srv/mirrors" ""
      "https://github.com/shop/web.git" = utf8 "/srv/mirrors/shop/web" := by decide +kernel
  have hparse : parseUrl plainAuthorities (utf8 "https://github.com/shop/../..") =
      some ⟨utf8 "https", utf8 "/shop/../.."⟩ := by decide +kernel
  have hfresh : UnmentionedDirectory plainAuthorities (effectiveReposDir "/srv/mirrors" "")
      "https://github.com/shop/../.." := by
    refine ⟨by decide +kernel, utf8 "mirrors", by decide +kernel, fun u hu => ?_⟩
    rw [← Option.some.inj (hparse.symm.trans hu)]
    decide +kernel
  refine ⟨hresolved, ?_, fun hwithin => ?_⟩
  · rcases (mirror_within_directory plainAuthorities "/srv/mirrors" "" "https://github.com/shop/web.git"
      (by decide +kernel)).1 (by decide +kernel) (· = utf8 "/srv/mirrors/shop/web") with hsame | hbelow
    · exact absurd (hresolved.symm.trans hsame) (by decide +kernel)
    · rw [hresolved] at hbelow
      exact hbelow
  · have hstays := ((mirror_within_directory plainAuthorities "/srv/mirrors" "" "https://github.com/shop/../.."
      (by decide +kernel)).2 hfresh).mp hwithin
    exact absurd hstays (by decide +kernel)

/-- Two accepted addresses whose mirror is looked for outside the directory. -/
theorem mirror_outside_directory :
    (validateRepoUrl asciiRules approvedRepositoryHosts "https://github.com/../../etc" =
        .ok "https://github.com/../../etc" ∧
      resolveRepoSource plainAuthorities (· = utf8 "/etc") "/srv/mirrors" "" "https://github.com/../../etc" =
        utf8 "/etc" ∧
      ¬bytePath.Below (utf8 "/srv/mirrors") (utf8 "/etc")) ∧
    validateRepoUrl asciiRules approvedRepositoryHosts "https://github.com/...git" = .ok "https://github.com/...git" ∧
    resolveRepoSource plainAuthorities (· = utf8 "/srv") "/srv/mirrors" "" "https://github.com/...git" = utf8 "/srv" ∧
    ¬bytePath.Below (utf8 "/srv/mirrors") (utf8 "/srv") := by
  have hout : ∀ p, bytePath.isRooted p = true → ¬bytePath.names (utf8 "/srv/mirrors") <+: bytePath.names p →
      ¬bytePath.Below (utf8 "/srv/mirrors") p :=
    fun p hp hnot hbelow => hnot ((PathSymbols.below_iff_prefixed (by decide +kernel) hp).mp hbelow)
  exact ⟨⟨toOption_eq_some.mp (by decide +kernel), by decide +kernel, hout _ (by decide +kernel) (by decide +kernel)⟩,
    toOption_eq_some.mp (by decide +kernel), by decide +kernel, hout _ (by decide +kernel) (by decide +kernel)⟩

end HamiCloud.Proofs
