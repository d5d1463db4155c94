import HamiCloud.Library.FairScan
import HamiCloud.Store.Jobs

/-!
# The admission scan is fair

`ScanUnadmittedJobs` is a fair scan of the queued jobs: the groups are the workspaces, the quota of a workspace is
what its active jobs leave of its cap, and rows with the same number are taken by age. Jobs of the same age stand in
the order of the table.
-/

namespace HamiCloud.Proofs

open Library JobState

/-- The queued jobs of a workspace by age. -/
def workspaceQueue (db : Db) (ws : Uuid) : List Job :=
  orderBy Job.createdAt (db.jobs.rows.filter fun j => j.workspaceId = ws && j.state = queued)

/-- The place of a queued job in the queue of its workspace, from one. -/
def rank (db : Db) (j : Job) : Nat := (workspaceQueue db j.workspaceId).idxOf j + 1

/-- The queued jobs that fit under the caps of their workspaces. -/
def eligibleJobs (db : Db) (cap : Nat) : List Job :=
  db.jobs.rows.filter fun j => j.state = queued && activeJobs db j.workspaceId + rank db j ≤ cap

def unadmittedRow (j : Job) : UnadmittedJob :=
  ⟨j.id, j.workspaceId, j.timeoutSeconds, j.maxRetries, j.currentAttemptNumber, j.state⟩

/-- What a scan with a cap and a limit may return. -/
structure FairAdmission (db : Db) (cap limit : Nat) (jobs : List Job) : Prop where
  length : jobs.length ≤ limit
  queued : ∀ j ∈ jobs, j ∈ db.jobs.rows ∧ j.state = queued
  /-- each workspace gets an initial segment of its queue -/
  segment : ∀ ws, ∃ n, n ≤ cap - activeJobs db ws ∧
    jobs.filter (fun j => j.workspaceId = ws) = (workspaceQueue db ws).take n
  ordered : jobs.Pairwise fun a b => rank db a < rank db b ∨ (rank db a = rank db b ∧ a.createdAt ≤ b.createdAt)
  /-- the limit cuts the highest ranks first -/
  cut : ∀ j ∈ eligibleJobs db cap, j ∉ jobs → ∀ j' ∈ jobs, rank db j' ≤ rank db j
  /-- a limit that cuts nothing leaves each workspace what its cap allows -/
  fits : (eligibleJobs db cap).length ≤ limit → ∀ ws,
    jobs.filter (fun j => j.workspaceId = ws) = (workspaceQueue db ws).take (cap - activeJobs db ws)

/-! ### The scan as a fair scan -/

/-- All queued jobs by age. -/
def queuedJobs (db : Db) : List Job := orderBy Job.createdAt (db.jobs.rows.filter fun j => j.state = queued)

lemma orderBy_filter {α : Type} (column : α → Nat) (p : α → Bool) (rows : List α) :
    (orderBy column rows).filter p = orderBy column (rows.filter p) := by
  have : IsTrans α (fun a b => column a ≤ column b) := ⟨fun _ _ _ => le_trans⟩
  have : Std.Total (fun a b : α => column a ≤ column b) := ⟨fun a b => le_total (column a) (column b)⟩
  exact filter_insertionSort p rows

lemma queuedJobs_filter (db : Db) (ws : Uuid) :
    (queuedJobs db).filter (fun j => j.workspaceId = ws) = workspaceQueue db ws := by
  rw [queuedJobs, orderBy_filter, List.filter_filter, workspaceQueue]

lemma mem_queuedJobs {db : Db} {j : Job} : j ∈ queuedJobs db ↔ j ∈ db.jobs.rows ∧ j.state = queued := by
  rw [queuedJobs, mem_orderBy, List.mem_filter, decide_eq_true_eq]

lemma workspaceQueue_nodup (db : Db) (ws : Uuid) : (workspaceQueue db ws).Nodup :=
  (List.perm_insertionSort _ _).nodup_iff.mpr ((db.jobs.nodup.of_map _).filter _)

/-- The number that the query gives to a row is its rank. -/
lemma rank_of_mem {db : Db} {x : Nat × Job} (h : x ∈ rowNumbers Job.workspaceId (queuedJobs db)) :
    1 ≤ x.1 ∧ x.1 = rank db x.2 := by
  obtain ⟨hpos, hget⟩ := getElem?_of_mem_rowNumbers Job.workspaceId h
  rw [queuedJobs_filter] at hget
  obtain ⟨hlt, he⟩ := List.getElem?_eq_some_iff.mp hget
  have hidx := (workspaceQueue_nodup db x.2.workspaceId).idxOf_getElem _ hlt
  rw [he] at hidx
  refine ⟨hpos, ?_⟩
  rw [rank, hidx]
  omega

lemma rowNumbers_queuedJobs (db : Db) :
    (rowNumbers Job.workspaceId (queuedJobs db)).map Prod.snd = queuedJobs db := by
  rw [rowNumbers, List.map_map]
  exact List.zipIdx_map_fst _ _

lemma exists_rowNumber {db : Db} {j : Job} (h : j ∈ queuedJobs db) :
    (rank db j, j) ∈ rowNumbers Job.workspaceId (queuedJobs db) := by
  rw [← rowNumbers_queuedJobs] at h
  obtain ⟨x, hx, rfl⟩ := List.mem_map.mp h
  rwa [← (rank_of_mem hx).2]

/-- What the active jobs of a workspace leave of its cap. -/
def quotaLeft (db : Db) (cap : Nat) (ws : Uuid) : Nat := cap - activeJobs db ws

lemma scanUnadmittedJobs_eq {cap : Nat} (hcap : 1 ≤ cap) (db : Db) (limit : Nat) :
    scanUnadmittedJobs db cap limit =
      ((fairScan Job.workspaceId Job.createdAt (quotaLeft db cap) limit (queuedJobs db)).map Prod.snd).map
        unadmittedRow := by
  have hpos : ¬cap ≤ 0 := by omega
  have hfilter : (rankedQueued db).filter (fun x => activeJobs db x.2.workspaceId + x.1 ≤ cap) =
      withinQuota Job.workspaceId (quotaLeft db cap) (queuedJobs db) := by
    refine List.filter_congr fun x hx => ?_
    have hrank := (rank_of_mem hx).1
    have hiff : activeJobs db x.2.workspaceId + x.1 ≤ cap ↔ x.1 ≤ cap - activeJobs db x.2.workspaceId := by omega
    exact decide_eq_decide.mpr hiff
  unfold scanUnadmittedJobs
  simp only [if_neg hpos, List.map_map]
  rw [hfilter]
  rfl

/-! ### Fairness -/

lemma mem_withinQuota {db : Db} {cap : Nat} {j : Job} (h : j ∈ eligibleJobs db cap) :
    (rank db j, j) ∈ withinQuota Job.workspaceId (quotaLeft db cap) (queuedJobs db) := by
  simp only [eligibleJobs, List.mem_filter, Bool.and_eq_true, decide_eq_true_eq] at h
  obtain ⟨hmem, hq, hle⟩ := h
  have hrank : rank db j ≤ cap - activeJobs db j.workspaceId := by omega
  exact List.mem_filter.mpr ⟨exists_rowNumber (mem_queuedJobs.mpr ⟨hmem, hq⟩), decide_eq_true hrank⟩

/-- The rows within the quotas are the eligible jobs. -/
lemma withinQuota_perm (db : Db) (cap : Nat) :
    ((withinQuota Job.workspaceId (quotaLeft db cap) (queuedJobs db)).map Prod.snd).Perm (eligibleJobs db cap) := by
  have hranks : withinQuota Job.workspaceId (quotaLeft db cap) (queuedJobs db) =
      (rowNumbers Job.workspaceId (queuedJobs db)).filter
        ((fun j => activeJobs db j.workspaceId + rank db j ≤ cap) ∘ Prod.snd) := by
    refine List.filter_congr fun x hx => decide_eq_decide.mpr ?_
    obtain ⟨hpos, hrank⟩ := rank_of_mem hx
    rw [← hrank, quotaLeft]
    omega
  have hsplit : eligibleJobs db cap = (db.jobs.rows.filter fun j => j.state = queued).filter
      (fun j => activeJobs db j.workspaceId + rank db j ≤ cap) := by
    rw [List.filter_filter, eligibleJobs]
    exact List.filter_congr fun j _ => Bool.and_comm _ _
  rw [hranks, ← List.filter_map, rowNumbers_queuedJobs, hsplit]
  exact (List.perm_insertionSort _ _).filter _

lemma fairScan_admission (db : Db) (cap limit : Nat) : FairAdmission db cap limit
    ((fairScan Job.workspaceId Job.createdAt (quotaLeft db cap) limit (queuedJobs db)).map Prod.snd) where
  length := by
    rw [List.length_map]
    exact List.length_take_le _ _
  queued j hj := by
    obtain ⟨x, hx, rfl⟩ := List.mem_map.mp hj
    have hfst := (mem_of_mem_fairScan hx).1
    rw [← mem_queuedJobs, ← rowNumbers_queuedJobs]
    exact List.mem_map_of_mem hfst
  segment ws := by
    rw [List.filter_map]
    obtain ⟨n, hn, he⟩ := fairScan_segment Job.workspaceId Job.createdAt (quotaLeft db cap) limit (queuedJobs db) ws
    exact ⟨n, hn, by rw [← queuedJobs_filter, ← he]; rfl⟩
  ordered := by
    refine List.pairwise_map.mpr (fairScan_pairwise.imp_of_mem fun {a b} ha hb hab => ?_)
    rw [← (rank_of_mem (mem_of_mem_fairScan ha).1).2, ← (rank_of_mem (mem_of_mem_fairScan hb).1).2]
    exact hab
  cut j hj hcut j' hj' := by
    obtain ⟨x, hx, rfl⟩ := List.mem_map.mp hj'
    rw [← (rank_of_mem (mem_of_mem_fairScan hx).1).2]
    exact fairScan_cut (mem_withinQuota hj) (fun h => hcut (List.mem_map_of_mem h)) hx
  fits hfits ws := by
    have hlength : (withinQuota Job.workspaceId (quotaLeft db cap) (queuedJobs db)).length ≤ limit := by
      rw [← List.length_map (f := Prod.snd), (withinQuota_perm db cap).length_eq]
      exact hfits
    rw [List.filter_map, ← queuedJobs_filter]
    exact fairScan_of_fits Job.createdAt hlength ws

lemma scan_of_fits {db : Db} {cap limit : Nat} (hcap : 1 ≤ cap) (hfits : (eligibleJobs db cap).length ≤ limit)
    (ws : Uuid) : (scanUnadmittedJobs db cap limit).filter (fun u => u.workspaceId = ws) =
      ((workspaceQueue db ws).take (cap - activeJobs db ws)).map unadmittedRow := by
  rw [scanUnadmittedJobs_eq hcap, List.filter_map, ← (fairScan_admission db cap limit).fits hfits ws]
  rfl

section Workspace

variable {db db' : Db} {ws : Uuid}
  (h : db'.jobs.rows.filter (fun j => j.workspaceId = ws) = db.jobs.rows.filter (fun j => j.workspaceId = ws))

include h

lemma workspaceQueue_congr : workspaceQueue db' ws = workspaceQueue db ws := by
  have hsplit : ∀ d : Db, d.jobs.rows.filter (fun j => j.workspaceId = ws && j.state = queued) =
      (d.jobs.rows.filter (fun j => j.workspaceId = ws)).filter (fun j => j.state = queued) := by
    intro d
    rw [List.filter_filter]
    exact List.filter_congr fun j _ => Bool.and_comm _ _
  rw [workspaceQueue, workspaceQueue, hsplit, hsplit, h]

lemma activeJobs_congr : activeJobs db' ws = activeJobs db ws := by
  have hsplit : ∀ d : Db, activeJobs d ws =
      (d.jobs.rows.filter (fun j => j.workspaceId = ws)).countP (fun j => j.state ∈ activeJobStates) := by
    intro d
    rw [List.countP_filter, activeJobs]
    exact List.countP_congr fun j _ => by rw [Bool.and_comm]
  rw [hsplit, hsplit, h]

end Workspace

/-- For any jobs, workspaces, cap and limit, the scan returns an initial segment of the queue of each workspace, by
rank and then by age, and cuts the highest ranks first; and when all eligible jobs fit in the limit, a workspace gets
all that its cap allows, which does not depend on the jobs of the others. -/
theorem scan_is_fair (db : Db) (cap limit : Nat) (hcap : 1 ≤ cap) :
    ∃ jobs, scanUnadmittedJobs db cap limit = jobs.map unadmittedRow ∧ FairAdmission db cap limit jobs ∧
      ∀ ws db' limit', (eligibleJobs db cap).length ≤ limit → (eligibleJobs db' cap).length ≤ limit' →
        db'.jobs.rows.filter (fun j => j.workspaceId = ws) = db.jobs.rows.filter (fun j => j.workspaceId = ws) →
        (scanUnadmittedJobs db' cap limit').filter (fun u => u.workspaceId = ws) =
          (scanUnadmittedJobs db cap limit).filter (fun u => u.workspaceId = ws) := by
  refine ⟨_, scanUnadmittedJobs_eq hcap db limit, fairScan_admission db cap limit, ?_⟩
  intro ws db' limit' hfits hfits' hsame
  rw [scan_of_fits hcap hfits, scan_of_fits hcap hfits', workspaceQueue_congr hsame, activeJobs_congr hsame]

/-- Workspace 1 has one running job and three queued ones, workspace 2 has one queued job, the youngest of all. -/
def noisyAndQuiet : Db :=
  { Db.empty with
    jobs := ⟨[⟨0, 1, 600, 0, 1, running, 0, 0⟩, ⟨1, 1, 600, 0, 0, queued, 1, 1⟩, ⟨2, 1, 600, 0, 0, queued, 2, 2⟩,
      ⟨3, 1, 600, 0, 0, queued, 2, 2⟩, ⟨4, 2, 600, 0, 0, queued, 9, 9⟩], by decide⟩ }

theorem scan_is_fair_noisy : (scanUnadmittedJobs noisyAndQuiet 3 2).map UnadmittedJob.jobId = [1, 4] ∧
    ∃ jobs, scanUnadmittedJobs noisyAndQuiet 3 2 = jobs.map unadmittedRow ∧ FairAdmission noisyAndQuiet 3 2 jobs := by
  obtain ⟨jobs, hscan, hfair, -⟩ := scan_is_fair noisyAndQuiet 3 2 (by decide)
  exact ⟨by decide +kernel, jobs, hscan, hfair⟩

end HamiCloud.Proofs
