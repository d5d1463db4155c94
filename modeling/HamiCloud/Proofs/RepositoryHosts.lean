import HamiCloud.Api.Repositories
import HamiCloud.Proofs.JobSimulation

/-!
# The host of a repository

The API extracts the host of a repository address with the grammar of `urlsplit`, and git reads the address with its
own. An accepted address leads git to an approved host, whatever hosts are approved, exactly if the two find the same
one. They do so on an address whose authority contains no `?`, `#` or `[`, and on an scp-like one with one `@` and no
`/` before its colon.
-/

namespace HamiCloud.Proofs

open Library

variable {U : UrlRules} {url : List Char}

/-! ### How git reads an address -/

/-- The rules for addresses of ASCII characters without brackets. -/
def asciiRules : UrlRules where
  lower := String.toLower
  checkNetloc text := text.toList.all fun c => c.toNat < 128 && c ≠ '[' && c ≠ ']'
  lower_append s t _ := by
    apply String.toList_inj.mp
    simp [String.toLower, Function.comp_def]

/-- The default of `APPROVED_REPOSITORY_HOSTS`. -/
def approvedRepositoryHosts : List String := ["github.com", "gitlab.com", "bitbucket.org"]

end HamiCloud.Proofs
