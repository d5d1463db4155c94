import HamiCloud.Library.Base64
import HamiCloud.Runtime.BuildPaths

/-!
# Local mirrors of repositories

`resolveRepoSource` of `runtime/internal/reconciler/build_reconciler.go`, with `url.Parse` of Go. Texts are their bytes
here, since the path of an address is percent-decoded.
-/

namespace HamiCloud

open Library

/-- The authorities that `url.Parse` accepts: those of plain host names, and others. -/
structure AuthorityRules where
  accepts : List UInt8 → Bool
  plain : ∀ authority, (∀ b ∈ authority, b ∈ utf8 "abcdefghijklmnopqrstuvwxyz0123456789.-") → accepts authority = true

structure ParsedUrl where
  scheme : List UInt8
  path : List UInt8
  deriving DecidableEq

def byte (c : Char) : UInt8 := c.toUInt8

def isAlphaByte (b : UInt8) : Bool := (97 ≤ b && b ≤ 122) || (65 ≤ b && b ≤ 90)

def isDigitByte (b : UInt8) : Bool := 48 ≤ b && b ≤ 57

def lowerByte (b : UInt8) : UInt8 := if 65 ≤ b && b ≤ 90 then b + 32 else b

/-- `getScheme`: the scheme and the rest, or nothing for an address that begins with a colon. -/
def getScheme (url : List UInt8) : Option (List UInt8 × List UInt8) :=
  let isSchemeByte := fun b => isAlphaByte b || isDigitByte b || b = byte '+' || b = byte '-' || b = byte '.'
  let scheme := url.takeWhile isSchemeByte
  match url.dropWhile isSchemeByte with
  | b :: rest =>
    if b ≠ byte ':' then some ([], url)
    else if scheme = [] then none
    else if scheme.head?.all isAlphaByte then some (scheme, rest)
    else some ([], url)
  | [] => some ([], url)

def hexValue (b : UInt8) : Option UInt8 :=
  if isDigitByte b then some (b - 48)
  else if 97 ≤ b && b ≤ 102 then some (b - 87)
  else if 65 ≤ b && b ≤ 70 then some (b - 55)
  else none

/-- `unescape` for paths and fragments. -/
def unescape : List UInt8 → Option (List UInt8)
  | [] => some []
  | b :: text =>
    if b = byte '%' then
      match text with
      | x :: y :: text => do
        let x ← hexValue x
        let y ← hexValue y
        let rest ← unescape text
        some ((x * 16 + y) :: rest)
      | _ => none
    else (unescape text).map (b :: ·)

/-- The text up to a byte and the text after it. -/
def cut (b : UInt8) (text : List UInt8) : List UInt8 × List UInt8 :=
  (text.takeWhile (· ≠ b), (text.dropWhile (· ≠ b)).drop 1)

/-- The `Path` of an address without its scheme, query and fragment. -/
def urlPath (R : AuthorityRules) (scheme rest : List UInt8) : Option (List UInt8) :=
  if rest.head? ≠ some (byte '/') then
    -- a rootless path after a scheme is opaque
    if scheme ≠ [] then some []
    else if byte ':' ∈ (cut (byte '/') rest).1 then none
    else unescape rest
  else if (utf8 "//").isPrefixOf rest ∧ (scheme ≠ [] ∨ ¬(utf8 "///").isPrefixOf rest) then
    let authority := (rest.drop 2).takeWhile (· ≠ byte '/')
    if R.accepts authority then unescape ((rest.drop 2).dropWhile (· ≠ byte '/')) else none
  else unescape rest

def parseUrl (R : AuthorityRules) (rawUrl : List UInt8) : Option ParsedUrl := do
  let (url, frag) := cut (byte '#') rawUrl
  if url.any fun b => b < 32 || b = 127 then none
  else if url = utf8 "*" then some ⟨[], url⟩
  else
    let (scheme, rest) ← getScheme url
    let path ← urlPath R scheme (cut (byte '?') rest).1
    let _ ← unescape frag
    some ⟨scheme.map lowerByte, path⟩

def bytePath : PathSymbols UInt8 := ⟨byte '/', byte '.', by decide⟩

/-- `path.Base`. -/
def pathBase (p : List UInt8) : List UInt8 :=
  if p = [] then [byte '.']
  else
    let p := p.rdropWhile (· = byte '/')
    if p = [] then [byte '/'] else (p.reverse.takeWhile (· ≠ byte '/')).reverse

/-- `strings.Trim(p, "/")`. -/
def trimSlashes (p : List UInt8) : List UInt8 := (p.dropWhile (· = byte '/')).rdropWhile (· = byte '/')

/-- `strings.TrimSuffix(p, ".git")`. -/
def trimGitSuffix (p : List UInt8) : List UInt8 :=
  if (utf8 ".git").isSuffixOf p then p.take (p.length - 4) else p

def mirrorPath (path : List UInt8) : List UInt8 := trimGitSuffix (trimSlashes path)

def mirrorCandidates (gitReposDir path : List UInt8) : List (List UInt8) :=
  let cleanPath := mirrorPath path
  let repoBase := pathBase cleanPath
  [bytePath.join [gitReposDir, cleanPath], bytePath.join [gitReposDir, cleanPath ++ utf8 ".git"],
    bytePath.join [gitReposDir, repoBase], bytePath.join [gitReposDir, repoBase ++ utf8 ".git"]]

/-- `GitReposDir`, or the variable `BUILD_GIT_REPOS_DIR` if it is blank. -/
def effectiveReposDir (gitReposDir env : String) : String :=
  if trimSpace gitReposDir = "" then trimSpace env else trimSpace gitReposDir

def resolveRepoSource (R : AuthorityRules) (isDir : List UInt8 → Bool) (gitReposDir env repoUrl : String) : List UInt8 :=
  let dir := effectiveReposDir gitReposDir env
  if dir = "" then utf8 repoUrl
  else
    match parseUrl R (utf8 repoUrl) with
    | some u =>
      if u.scheme = utf8 "http" ∨ u.scheme = utf8 "https" then
        ((mirrorCandidates (utf8 dir) u.path).find? isDir).getD (utf8 repoUrl)
      else utf8 repoUrl
    | none => utf8 repoUrl

end HamiCloud
