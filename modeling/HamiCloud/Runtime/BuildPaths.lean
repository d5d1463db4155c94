import HamiCloud.Library.LexicalPath
import HamiCloud.Store.Schema

/-!
# Paths of a build

`verifyPathWithinRoot` of `runtime/internal/reconciler/build_reconciler.go` and what `Build` does with it: the context
directory and the Dockerfile that are handed to the image builder. Paths are those of Unix.
-/

namespace HamiCloud

open Library

def unixPath : PathSymbols Char := ⟨'/', '.', by decide⟩

def filepathIsAbs (p : String) : Bool := unixPath.isRooted p.toList

def filepathClean (p : String) : String := String.ofList (unixPath.clean p.toList)

def filepathJoin (p q : String) : String := String.ofList (unixPath.join [p.toList, q.toList])

def filepathRel (base targ : String) : Option String :=
  (unixPath.rel base.toList targ.toList).map String.ofList

/-- `filepath.Abs` in a working directory. -/
def filepathAbs (wd p : String) : String := if filepathIsAbs p then filepathClean p else filepathJoin wd p

/-- `unicode.IsSpace`. -/
def goIsSpace (c : Char) : Bool :=
  (9 ≤ c.toNat && c.toNat ≤ 13) || c.toNat ∈ [0x20, 0x85, 0xA0, 0x1680, 0x2028, 0x2029, 0x202F, 0x205F, 0x3000] ||
    (0x2000 ≤ c.toNat && c.toNat ≤ 0x200A)

/-- `strings.TrimSpace`. -/
def trimSpace (s : String) : String := String.ofList ((s.toList.dropWhile goIsSpace).rdropWhile goIsSpace)

inductive BuildPathError
  /-- `path traversal rejected: absolute path … is forbidden` -/
  | absolute (relPath : String)
  /-- `compute relative path: …` -/
  | unrelated
  /-- `path traversal rejected: … escapes repository root` -/
  | escapes (relPath : String)
  /-- `build context directory … not found` -/
  | contextNotFound (contextRel : String)
  /-- `Dockerfile … not found in repository` -/
  | dockerfileNotFound (dockerfileRel : String)
  deriving DecidableEq

def verifyPathWithinRoot (wd rootDir relPath : String) : Except BuildPathError String := do
  let cleanedRel := if trimSpace relPath = "" then "." else trimSpace relPath
  ensure (¬(filepathIsAbs cleanedRel ∨ ['/'].isPrefixOf cleanedRel.toList ∨ ['\\'].isPrefixOf cleanedRel.toList))
    (.absolute relPath)
  let absRoot := filepathAbs wd rootDir
  let absTarget := filepathAbs wd (filepathJoin absRoot cleanedRel)
  let rel ← orError (filepathRel absRoot absTarget) .unrelated
  ensure (¬(rel = ".." ∨ "../".toList.isPrefixOf rel.toList)) (.escapes relPath)
  pure absTarget

/-- What `os.Stat` reports of a path that exists. -/
inductive FileKind
  | dir
  | other
  deriving DecidableEq

abbrev FileSystem := String → Option FileKind

/-- The Dockerfile, looked up in the clone and then in the context directory. -/
def lookupDockerfile (fs : FileSystem) (wd cloneDir absContextDir absDockerfile dockerfileRel : String) : String :=
  if fs absDockerfile = none ∧ absContextDir ≠ cloneDir then
    match verifyPathWithinRoot wd absContextDir dockerfileRel with
    | .ok candidate => if (fs candidate).isSome then candidate else absDockerfile
    | .error _ => absDockerfile
  else absDockerfile

/-- The arguments `absContextDir` and `absDockerfile` of `buildAndPushImage`. -/
def resolveBuildPaths (fs : FileSystem) (wd cloneDir contextDir dockerfilePath : String) :
    Except BuildPathError (String × String) := do
  let contextRel := if trimSpace contextDir = "" then "." else contextDir
  let absContextDir ← verifyPathWithinRoot wd cloneDir contextRel
  let dockerfileRel := if trimSpace dockerfilePath = "" then "Dockerfile" else dockerfilePath
  let inClone ← verifyPathWithinRoot wd cloneDir dockerfileRel
  let absDockerfile := lookupDockerfile fs wd cloneDir absContextDir inClone dockerfileRel
  ensure (fs absContextDir = some .dir) (.contextNotFound contextRel)
  ensure (fs absDockerfile = some .other) (.dockerfileNotFound dockerfileRel)
  pure (absContextDir, absDockerfile)

end HamiCloud
