import HamiCloud.Api.Idempotency

/-!
# Repository addresses

`extract_repo_host` and `validate_repo_url` of `app/api/v1/repositories.py`, with `urllib.parse.urlsplit` as in
CPython 3.12.
-/

namespace HamiCloud

/-- What depends on the tables of Unicode: `str.lower`, and whether `urlsplit` accepts a network location (it refuses
bracketed hosts that are no IPv6 addresses and characters that normalise to delimiters). -/
structure UrlRules where
  lower : String → String
  checkNetloc : String → Bool
  /-- the letters before a `%` are lowered as at the end of a text: it ends a word, where a sigma has another form -/
  lower_append : ∀ s t, t.toList.head?.all (· = '%') = true → lower (lower s ++ t) = lower (s ++ t)

def isSchemeChar (c : Char) : Bool := c.isAlphanum || c = '+' || c = '-' || c = '.'

/-- The `netloc` of `urlsplit`. -/
def netloc (text : List Char) : List Char :=
  let url := (text.dropWhile fun c => c.toNat ≤ 0x20).filter fun c => c ≠ '\t' && c ≠ '\r' && c ≠ '\n'
  let scheme := url.takeWhile (· ≠ ':')
  let rest := if ':' ∈ url ∧ scheme.head?.any Char.isAlpha ∧ scheme.all isSchemeChar then url.drop (scheme.length + 1)
    else url
  if "//".toList.isPrefixOf rest then (rest.drop 2).takeWhile fun c => c ≠ '/' && c ≠ '?' && c ≠ '#' else []

/-- The part after the last occurrence of a character, or all of the text. -/
def afterLast (c : Char) (text : List Char) : List Char := (text.reverse.takeWhile (· ≠ c)).reverse

/-- The first component of `_hostinfo`. -/
def hostinfo (netloc : List Char) : List Char :=
  let info := afterLast '@' netloc
  if '[' ∈ info then ((info.dropWhile (· ≠ '[')).drop 1).takeWhile (· ≠ ']') else info.takeWhile (· ≠ ':')

/-- The `hostname` of `urlsplit`: what follows a `%` is not lowered. -/
def hostname (U : UrlRules) (netloc : List Char) : Option String :=
  let host := hostinfo netloc
  if host = [] then none
  else some (U.lower (String.ofList (host.takeWhile (· ≠ '%'))) ++ String.ofList (host.dropWhile (· ≠ '%')))

/-- The text after the first `://`. -/
def afterScheme : List Char → Option (List Char)
  | [] => none
  | c :: text => if "://".toList.isPrefixOf (c :: text) then some ((c :: text).drop 3) else afterScheme text

def extractRepoHost (U : UrlRules) (repoUrl : String) : Except ApiError String :=
  let url := (strip repoUrl).toList
  if afterScheme url = none ∧ ':' ∈ url then
    let afterUser := if '@' ∈ url then (url.dropWhile (· ≠ '@')).drop 1 else url
    let hostPart := afterUser.takeWhile (· ≠ ':')
    pure (U.lower (String.ofList (hostPart.takeWhile (· ≠ '/'))))
  else do
    ensure (U.checkNetloc (String.ofList (netloc url))) .exception
    let host ← orError (hostname U (netloc url))
      (.unprocessable "Invalid repository URL: unable to extract hostname")
    pure (U.lower host)

/-- The check of `https` addresses. A `username` or a `password` implies an `@` in the `netloc`. -/
def ensureNoUserinfo (U : UrlRules) (url : List Char) : Except ApiError Unit :=
  if "https://".toList.isPrefixOf url then do
    ensure (U.checkNetloc (String.ofList (netloc url))) .exception
    ensure (¬('@' ∈ netloc url ∨ '@' ∈ (url.drop 8).takeWhile (· ≠ '/')))
      (.unprocessable "Invalid repository URL: userinfo is not allowed on https")
  else pure ()

def validateRepoUrl (U : UrlRules) (approvedRepositoryHosts : List String) (repoUrl : String) :
    Except ApiError String := do
  ensure ('\\' ∉ repoUrl.toList) (.unprocessable "Invalid repository URL: backslash is not allowed")
  ensure (¬repoUrl.toList.any isSpace) (.unprocessable "Invalid repository URL: whitespace is not allowed")
  let url := strip repoUrl
  ensure ("https://".toList.isPrefixOf url.toList ∨ "git@".toList.isPrefixOf url.toList ∨
      "ssh://".toList.isPrefixOf url.toList)
    (.unprocessable "Invalid repository URL: must start with https://, git@, or ssh://")
  ensureNoUserinfo U url.toList
  let host ← extractRepoHost U url
  ensure (host ∈ approvedRepositoryHosts.map fun h => U.lower (strip h))
    (.unprocessable
      "REPOSITORY_POLICY_VIOLATION: Repository host is not in the approved repository allowlist")
  pure url

end HamiCloud
