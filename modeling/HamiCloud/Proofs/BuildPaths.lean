import HamiCloud.Proofs.Enabled
import HamiCloud.Runtime.BuildPaths

/-!
# Build paths stay inside the clone

`verifyPathWithinRoot` joins and normalises, so between rooted paths its test on the relative path decides whether the
target is below the root. The context directory is below the clone, and what is found below the context directory is
below the clone as well.
-/

namespace HamiCloud

open Library

/-- After lexical normalisation the path is the root or below it. -/
def LexicallyWithin (root p : String) : Prop := unixPath.Below root.toList p.toList

namespace Proofs

variable {wd root rel target : String}

lemma toList_ne_nil (hroot : filepathIsAbs root = true) : root.toList ≠ [] := by
  intro hnil
  simp [filepathIsAbs, PathSymbols.isRooted, hnil] at hroot

lemma filepathIsAbs_join (hroot : filepathIsAbs root = true) (rel : String) :
    filepathIsAbs (filepathJoin root rel) = true := by
  have hne := toList_ne_nil hroot
  rw [filepathIsAbs, filepathJoin, String.toList_ofList, PathSymbols.join_pair hne, PathSymbols.isRooted_clean,
    PathSymbols.isRooted_append hne]
  exact hroot

/-- Joining normalises, so neither a second normalisation nor one of the root makes a difference. -/
lemma filepathAbs_join (hroot : filepathIsAbs root = true) (rel : String) :
    filepathAbs wd (filepathJoin (filepathAbs wd root) rel) = filepathJoin root rel := by
  have hne := toList_ne_nil hroot
  have hclean : filepathJoin (filepathAbs wd root) rel = filepathJoin root rel := by
    rw [filepathAbs, if_pos hroot, filepathJoin, filepathJoin, filepathClean, String.toList_ofList,
      PathSymbols.join_clean_left hne]
  rw [hclean, filepathAbs, if_pos (filepathIsAbs_join hroot rel), filepathClean, filepathJoin, String.toList_ofList,
    PathSymbols.clean_join hne]

/-- The relative path from the root exists, and it starts with a double dot unless the target is within the root. -/
lemma filepathRel_within (wd : String) (hroot : filepathIsAbs root = true) (htarget : filepathIsAbs target = true) :
    ∃ r, filepathRel (filepathAbs wd root) target = some r ∧
      ((r = ".." ∨ "../".toList.isPrefixOf r.toList = true) ↔ ¬LexicallyWithin root target) := by
  have hrooted : unixPath.isRooted (unixPath.clean root.toList) = true := by
    rw [PathSymbols.isRooted_clean]
    exact hroot
  obtain ⟨r, hr, hclimbs⟩ := PathSymbols.rel_rooted hrooted htarget
  refine ⟨String.ofList r, ?_, ?_⟩
  · rw [filepathRel, filepathAbs, if_pos hroot, filepathClean, String.toList_ofList, hr]
    rfl
  · rw [PathSymbols.below_clean_left] at hclimbs
    rw [LexicallyWithin, ← hclimbs, PathSymbols.climbs, Bool.or_eq_true, decide_eq_true_eq, ← String.toList_inj,
      String.toList_ofList]
    rfl

lemma filepathIsAbs_eq (p : String) : filepathIsAbs p = ['/'].isPrefixOf p.toList := by
  unfold filepathIsAbs PathSymbols.isRooted
  cases p.toList with
  | nil => rfl
  | cons c l =>
    rw [List.head?_cons, List.isPrefixOf_cons_cons, List.isPrefixOf_nil_left, Bool.and_true, Bool.eq_iff_iff,
      decide_eq_true_eq, beq_iff_eq, Option.some.injEq]
    exact eq_comm

/-- A path that `verifyPathWithinRoot` forbids at once. -/
def isForbidden (rel : String) : Bool := ['/'].isPrefixOf rel.toList || ['\\'].isPrefixOf rel.toList

lemma verifyPathWithinRoot_eq_ok (hroot : filepathIsAbs root = true) :
    verifyPathWithinRoot wd root rel = .ok target ↔
      isForbidden (trimSpace rel) = false ∧ LexicallyWithin root (filepathJoin root (trimSpace rel)) ∧
        target = filepathJoin root (trimSpace rel) := by
  have hcleaned : filepathJoin root (if trimSpace rel = "" then "." else trimSpace rel) =
      filepathJoin root (trimSpace rel) := by
    split
    · rename_i hempty
      rw [hempty]
      exact congrArg String.ofList (PathSymbols.join_here (S := unixPath) (toList_ne_nil hroot))
    · rfl
  have hforbidden : ¬(filepathIsAbs (if trimSpace rel = "" then "." else trimSpace rel) = true ∨
      ['/'].isPrefixOf (if trimSpace rel = "" then "." else trimSpace rel).toList = true ∨
      ['\\'].isPrefixOf (if trimSpace rel = "" then "." else trimSpace rel).toList = true) ↔
      isForbidden (trimSpace rel) = false := by
    split
    · rename_i hempty
      rw [hempty]
      decide
    · rw [filepathIsAbs_eq, isForbidden]
      cases ['/'].isPrefixOf (trimSpace rel).toList <;> cases ['\\'].isPrefixOf (trimSpace rel).toList <;> decide
  obtain ⟨r, hr, hclimbs⟩ := filepathRel_within wd hroot (filepathIsAbs_join hroot (trimSpace rel))
  unfold verifyPathWithinRoot
  simp only [bind_eq_ok, ensure_eq_ok, orError_eq_ok, pure_eq_ok, filepathAbs_join hroot, hcleaned, hr, hforbidden]
  constructor
  · rintro ⟨-, hallowed, a, ha, -, hstays, rfl⟩
    obtain rfl := Option.some.inj ha
    exact ⟨hallowed, not_not.mp (mt hclimbs.mpr hstays), rfl⟩
  · rintro ⟨hallowed, hwithin, rfl⟩
    exact ⟨(), hallowed, r, rfl, (), fun hclimb => hclimbs.mp hclimb hwithin, rfl⟩

lemma verifyPathWithinRoot_within (hroot : filepathIsAbs root = true)
    (h : verifyPathWithinRoot wd root rel = .ok target) :
    LexicallyWithin root target ∧ filepathIsAbs target = true := by
  obtain ⟨-, hwithin, rfl⟩ := (verifyPathWithinRoot_eq_ok hroot).mp h
  exact ⟨hwithin, filepathIsAbs_join hroot _⟩

lemma lookupDockerfile_within {fs : FileSystem} {context inClone : String}
    (hcontext : LexicallyWithin root context ∧ filepathIsAbs context = true) (hclone : LexicallyWithin root inClone) :
    LexicallyWithin root (lookupDockerfile fs wd root context inClone rel) := by
  unfold lookupDockerfile
  split
  · split
    · rename_i candidate hcandidate
      split
      · exact hcontext.1.trans (verifyPathWithinRoot_within hcontext.2 hcandidate).1
      · exact hclone
    · exact hclone
  · exact hclone

/-- What is handed to the image builder is within the clone, and a path that is not absolute is accepted exactly if it
leads to something within the root, which is then returned. -/
theorem build_paths_within_clone (wd root : String) (hroot : filepathIsAbs root = true) :
    (∀ fs contextDir dockerfilePath context dockerfile,
      resolveBuildPaths fs wd root contextDir dockerfilePath = .ok (context, dockerfile) →
      LexicallyWithin root context ∧ LexicallyWithin root dockerfile) ∧
    ∀ rel, ¬['/'] <+: (trimSpace rel).toList → ¬['\\'] <+: (trimSpace rel).toList →
      ((∃ target, verifyPathWithinRoot wd root rel = .ok target) ↔
        LexicallyWithin root (filepathJoin root (trimSpace rel))) ∧
      ∀ target, verifyPathWithinRoot wd root rel = .ok target → target = filepathJoin root (trimSpace rel) := by
  constructor
  · intro fs contextDir dockerfilePath context dockerfile h
    simp only [resolveBuildPaths, bind_eq_ok, ensure_eq_ok, pure_eq_ok] at h
    obtain ⟨context', hcontext, inClone, hclone, -, -, -, -, hpair⟩ := h
    obtain ⟨rfl, rfl⟩ := Prod.mk.inj hpair
    have hwithin := verifyPathWithinRoot_within hroot hcontext
    exact ⟨hwithin.1, lookupDockerfile_within hwithin (verifyPathWithinRoot_within hroot hclone).1⟩
  · intro rel hslash hbackslash
    have hallowed : isForbidden (trimSpace rel) = false := by
      rw [isForbidden, Bool.or_eq_false_iff, ← Bool.not_eq_true, ← Bool.not_eq_true, List.isPrefixOf_iff_prefix,
        List.isPrefixOf_iff_prefix]
      exact ⟨hslash, hbackslash⟩
    refine ⟨⟨?_, ?_⟩, ?_⟩
    · rintro ⟨target, htarget⟩
      exact ((verifyPathWithinRoot_eq_ok hroot).mp htarget).2.1
    · intro hwithin
      exact ⟨_, (verifyPathWithinRoot_eq_ok hroot).mpr ⟨hallowed, hwithin, rfl⟩⟩
    · intro target htarget
      exact ((verifyPathWithinRoot_eq_ok hroot).mp htarget).2.2

/-- A clone with a directory `web` that holds the Dockerfile. -/
def webClone : FileSystem := fun p =>
  if p = "/tmp/repo/web" then some .dir else if p = "/tmp/repo/web/Dockerfile" then some .other else none

theorem build_paths_within_clone_web :
    resolveBuildPaths webClone "/" "/tmp/repo" " ./web/ " "" = .ok ("/tmp/repo/web", "/tmp/repo/web/Dockerfile") ∧
    LexicallyWithin "/tmp/repo" "/tmp/repo/web" ∧ LexicallyWithin "/tmp/repo" "/tmp/repo/web/Dockerfile" ∧
    ¬∃ target, verifyPathWithinRoot "/" "/tmp/repo" "web/../.." = .ok target := by
  have hok : resolveBuildPaths webClone "/" "/tmp/repo" " ./web/ " "" =
      .ok ("/tmp/repo/web", "/tmp/repo/web/Dockerfile") := by decide +kernel
  have hout : verifyPathWithinRoot "/" "/tmp/repo" "web/../.." = .error (.escapes "web/../..") := by decide +kernel
  obtain ⟨hpaths, -⟩ := build_paths_within_clone "/" "/tmp/repo" (by decide)
  refine ⟨hok, (hpaths _ _ _ _ _ hok).1, (hpaths _ _ _ _ _ hok).2, ?_⟩
  rintro ⟨target, htarget⟩
  rw [hout] at htarget
  cases htarget

end Proofs

end HamiCloud
