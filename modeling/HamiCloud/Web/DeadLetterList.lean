import HamiCloud.Library.Transition
import HamiCloud.Api.Listings

/-!
# The dead-letter list of the console

`apps/web/src/dlqUtils.ts`, with `pollDlq` and `handleLoadMoreDlq` of `apps/web/src/App.tsx`, for one workspace. The
server answers a request at some moment after it was sent, and the answer arrives at any later moment, polls in any
order. A cursor is the position it encodes.
-/

namespace HamiCloud

open Library

abbrev DlqCursor := Instant ×ₗ Uuid

def mergeDlqRecords (existingRecords incomingPage : List ListedRow) (isNewWorkspaceOrNotPaged : Bool) :
    List ListedRow :=
  if isNewWorkspaceOrNotPaged then incomingPage
  else incomingPage ++ existingRecords.filter fun r => r.id ∉ incomingPage.map ListedRow.id

def appendDlqPage (existingRecords newPage : List ListedRow) : List ListedRow :=
  existingRecords ++ newPage.filter fun r => r.id ∉ existingRecords.map ListedRow.id

def resolveDlqCursor (currentCursor incomingPageCursor : Option DlqCursor) (isNewWorkspaceOrNotPaged : Bool) :
    Option DlqCursor :=
  if isNewWorkspaceOrNotPaged then incomingPageCursor else currentCursor

/-- What a listing answers: the records of a page and the next cursor. -/
abbrev DlqPage := List ListedRow × Option DlqCursor

structure DlqConsole where
  records : List ListedRow
  nextCursor : Option DlqCursor
  /-- `currentDlqWorkspaceIdRef` names the workspace -/
  isCurrent : Bool
  hasLoadedMore : Bool
  isLoadingMore : Bool
  deriving DecidableEq

def DlqConsole.init : DlqConsole := ⟨[], none, false, false, false⟩

/-- The answer of a poll arrives. -/
def DlqConsole.receivePoll (c : DlqConsole) (data : DlqPage) : DlqConsole :=
  let isNewWorkspace := !c.isCurrent
  let hasLoadedMore := c.hasLoadedMore && !isNewWorkspace
  let isNewWorkspaceOrNotPaged := isNewWorkspace || !hasLoadedMore
  { c with records := mergeDlqRecords c.records data.1 isNewWorkspaceOrNotPaged
           nextCursor := resolveDlqCursor c.nextCursor data.2 isNewWorkspaceOrNotPaged
           isCurrent := true, hasLoadedMore := hasLoadedMore }

/-- The answer of a request for more arrives; it is dropped when no poll of the workspace has arrived. -/
def DlqConsole.receiveMore (c : DlqConsole) (data : DlqPage) : DlqConsole :=
  if c.isCurrent then
    { c with records := appendDlqPage c.records data.1, nextCursor := data.2, hasLoadedMore := true
             isLoadingMore := false }
  else { c with isLoadingMore := false }

structure DlqState where
  /-- the records of the workspace, in the order of the listing -/
  server : List ListedRow
  /-- answered polls on their way -/
  polls : List DlqPage
  /-- the cursor of a request for more that is not answered yet -/
  requested : Option DlqCursor
  /-- an answered request for more on its way, with its cursor -/
  answered : Option (DlqCursor × DlqPage)
  console : DlqConsole
  deriving DecidableEq

def DlqState.init : DlqState := ⟨[], [], none, none, .init⟩

inductive DlqAction
  /-- the server adds a record that is newer than all it has -/
  | insert (record : ListedRow)
  | poll
  | pollArrives (n : Nat)
  | pollFails (n : Nat)
  | loadMore
  | answerMore
  | moreArrives
  | moreFails
  deriving DecidableEq

/-- The pages have this number of records. -/
def DlqState.step (limit : Nat) (s : DlqState) : DlqAction → Option DlqState
  | .insert r =>
    if ∀ old ∈ s.server, old.key < r.key ∧ old.id ≠ r.id then some { s with server := r :: s.server } else none
  | .poll => some { s with polls := s.polls ++ [page ListedRow.key s.server none limit] }
  | .pollArrives n =>
    s.polls[n]?.map fun data => { s with polls := s.polls.eraseIdx n, console := s.console.receivePoll data }
  | .pollFails n => s.polls[n]?.map fun _ => { s with polls := s.polls.eraseIdx n }
  | .loadMore =>
    match s.console.nextCursor with
    | some cursor =>
      if s.console.isLoadingMore then none
      else some { s with requested := some cursor, console := { s.console with isLoadingMore := true } }
    | none => none
  | .answerMore =>
    s.requested.map fun cursor =>
      { s with requested := none, answered := some (cursor, page ListedRow.key s.server (some cursor) limit) }
  | .moreArrives =>
    s.answered.map fun (_, data) => { s with answered := none, console := s.console.receiveMore data }
  | .moreFails =>
    if s.console.isLoadingMore then
      some { s with requested := none, answered := none, console := { s.console with isLoadingMore := false } }
    else none

def dlqSystem (limit : Nat) : System DlqState DlqAction := ⟨.init, DlqState.step limit⟩

end HamiCloud
