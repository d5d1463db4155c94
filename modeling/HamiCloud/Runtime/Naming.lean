import HamiCloud.Runtime.World

/-!
# Names built from slugs

`sanitizeResourceName` and the ingress host of `runtime/internal/reconciler/kube_runner.go`, and the image repository
of `runtime/internal/reconciler/build_reconciler.go`. What is trimmed and cut consists of ASCII characters, so its length
in bytes is its number of characters.
-/

namespace HamiCloud

open Library

structure Workspace where
  id : Uuid
  slug : String
  deriving DecidableEq

/-- The rows of `workspaces`: their slugs are accepted ones, and unique by `uq_workspace_slug`. -/
structure Workspaces where
  table : Table Workspace.id
  accepted : ∀ ws ∈ table.rows, isSlug ws.slug = true
  unique : ∀ ws ∈ table.rows, ∀ ws' ∈ table.rows, ws.slug = ws'.slug → ws = ws'

/-- `strings.Trim(s, "-")`. -/
def trimHyphens (s : List Char) : List Char := (s.dropWhile (· = '-')).rdropWhile (· = '-')

/-- `unicode.ToLower`, for the runes whose lower case is an ASCII letter: those of ASCII, the capital I with a dot above
and the Kelvin sign. Every other rune outside ASCII stays outside it. -/
def toLowerRune (r : Char) : Char :=
  if r.toNat = 0x130 then 'i' else if r.toNat = 0x212a then 'k' else r.toLower

def sanitizeResourceName (name : String) : String :=
  let name := name.toList.map toLowerRune
  let b := name.map fun r => if isSlugChar r then r else '-'
  let s := trimHyphens b
  let s := if 63 < s.length then (s.take 63).rdropWhile (· = '-') else s
  if s = [] then "workload" else String.ofList s

/-- `repoPath` of `Build`. -/
def imageRepoPath (workspaceSlug applicationSlug : String) : String :=
  sanitizeResourceName workspaceSlug ++ "/" ++ sanitizeResourceName applicationSlug

/-- The host of the ingress rule of `Deploy`, for a configured ingress domain. -/
def ingressHost (ingressDomain workspaceSlug applicationSlug : String) : String :=
  let wsSlug := if workspaceSlug = "" then "default" else workspaceSlug
  sanitizeResourceName applicationSlug ++ "." ++ wsSlug ++ "." ++ ingressDomain

end HamiCloud
