import HamiCloud.Proofs.Deliveries

/-!
# The branch of a push

The webhook handler derives the branch of a push by deleting every occurrence of `refs/heads/` from its ref. For a
branch name without such an occurrence that is the branch, and a push that can be stored builds the applications that
follow it. A name with one collapses to a shorter name, and the push builds the applications of another branch.
-/

namespace HamiCloud.Proofs

open Library

variable {cfg : Settings} {d d' : DeliveryWorld} {req : DeliveryRequest} {repo : Repository}

/-! ### Deleting a text -/

lemma removeAll_eq_self {pattern text : List Char} (h : ¬pattern <:+: text) (fuel : Nat) :
    removeAll pattern fuel text = text := by
  induction fuel generalizing text with
  | zero => rfl
  | succ fuel ih =>
    cases text with
    | nil => rfl
    | cons c text =>
      have hhead : ¬pattern.isPrefixOf (c :: text) = true :=
        fun hp => h (List.isPrefixOf_iff_prefix.mp hp).isInfix
      have htail : ¬pattern <:+: text := fun hi => h (hi.trans (List.suffix_cons c text).isInfix)
      rw [removeAll, if_neg hhead, ih htail]

lemma removeAll_length_le (pattern : List Char) (fuel : Nat) (text : List Char) :
    (removeAll pattern fuel text).length ≤ text.length := by
  induction fuel generalizing text with
  | zero => exact le_rfl
  | succ fuel ih =>
    cases text with
    | nil => exact le_rfl
    | cons c text =>
      rw [removeAll]
      split
      · exact (ih _).trans (by rw [List.length_drop]; exact Nat.sub_le _ _)
      · exact Nat.succ_le_succ (ih text)

lemma removeAll_append {pattern : List Char} (hne : pattern ≠ []) (fuel : Nat) (text : List Char) :
    removeAll pattern (fuel + 1) (pattern ++ text) = removeAll pattern fuel text := by
  obtain ⟨c, rest, rfl⟩ := List.exists_cons_of_ne_nil hne
  have hhead : (c :: rest).isPrefixOf (c :: (rest ++ text)) = true :=
    List.isPrefixOf_iff_prefix.mpr (List.prefix_append (c :: rest) text)
  rw [List.cons_append, removeAll, if_pos hhead, ← List.cons_append, List.drop_left]

/-- A text that contains the pattern gets shorter. -/
lemma removeAll_length_lt {pattern text : List Char} (hne : pattern ≠ []) (h : pattern <:+: text) {fuel : Nat}
    (hfuel : text.length ≤ fuel) : (removeAll pattern fuel text).length < text.length := by
  induction fuel generalizing text with
  | zero =>
    have hnil : text = [] := List.length_eq_zero_iff.mp (Nat.le_zero.mp hfuel)
    rw [hnil, List.infix_nil] at h
    exact absurd h hne
  | succ fuel ih =>
    cases text with
    | nil => exact absurd (List.infix_nil.mp h) hne
    | cons c text =>
      have hpos : 0 < pattern.length := List.length_pos_iff.mpr hne
      rw [removeAll]
      split
      · have hdrop := removeAll_length_le pattern fuel ((c :: text).drop pattern.length)
        rw [List.length_drop] at hdrop
        have hcons : 0 < (c :: text).length := Nat.succ_pos _
        omega
      · rename_i hhead
        rcases List.infix_cons_iff.mp h with hprefix | htail
        · exact absurd (List.isPrefixOf_iff_prefix.mpr hprefix) hhead
        · exact Nat.succ_lt_succ (ih htail (Nat.le_of_succ_le_succ hfuel))

/-! ### Branches -/

/-- The branch name contains `refs/heads/`. -/
def embedsHeads (branch : String) : Prop := "refs/heads/".toList <:+: branch.toList

instance (branch : String) : Decidable (embedsHeads branch) := inferInstanceAs (Decidable (_ <:+: _))

lemma branchOf_heads (b : String) :
    branchOf ("refs/heads/" ++ b) = String.ofList (removeAll "refs/heads/".toList (b.length + 10) b.toList) := by
  have htext : ("refs/heads/" ++ b).toList = "refs/heads/".toList ++ b.toList := String.toList_append
  have hlen : ("refs/heads/" ++ b).length = b.length + 10 + 1 := by
    rw [String.length_append]
    have hheads : "refs/heads/".length = 11 := by decide
    omega
  have hprefix : "refs/heads/".toList.isPrefixOf ("refs/heads/".toList ++ b.toList) = true :=
    List.isPrefixOf_iff_prefix.mpr (List.prefix_append _ _)
  unfold branchOf
  dsimp only
  rw [htext, if_pos hprefix, hlen, removeAll_append (by decide)]

/-- The handler finds the branch of a ref exactly when its name does not contain `refs/heads/`. -/
theorem branchOf_eq_iff (b : String) : branchOf ("refs/heads/" ++ b) = b ↔ ¬embedsHeads b := by
  rw [branchOf_heads]
  constructor
  · intro he hembeds
    have hfuel : b.toList.length ≤ b.length + 10 := by
      rw [String.length_toList]
      exact Nat.le_add_right _ _
    have hlt := removeAll_length_lt (by decide) hembeds hfuel
    rw [← String.length_ofList, he, String.length_toList] at hlt
    exact lt_irrefl _ hlt
  · intro hfree
    rw [removeAll_eq_self hfree, String.ofList_toList]

/-- The applications of the workspace and the repository whose `git_branch` is null or the branch. -/
def followsBranch (repo : Repository) (b : String) (a : Application) : Bool :=
  a.workspaceId = repo.workspaceId && a.repositoryId = some repo.id && (a.gitBranch = none || a.gitBranch = some b)

lemma readWebhook_eq {db : Db} {repositoryId : Uuid} {repo : Repository} (sha b : String)
    (hrepo : db.repositories.get repositoryId = some repo) : readWebhook db repositoryId sha b =
      .ok ⟨repositoryId, sha, b, (db.apps.rows.filter (followsBranch repo b)).map
        (fun a => ⟨a, nextReleaseNumber db a.id, latestConfig db a.id⟩)⟩ := by
  have hid : repo.id = repositoryId := Table.key_of_get hrepo
  have hfilter : db.apps.rows.filter (followsBranch repo b) = db.apps.rows.filter (fun a =>
      a.workspaceId = repo.workspaceId && a.repositoryId = some repositoryId &&
        (a.gitBranch = some b || a.gitBranch = none)) := by
    refine List.filter_congr fun a _ => ?_
    rw [followsBranch, hid, Bool.or_comm (decide (a.gitBranch = none))]
  unfold readWebhook
  rw [hrepo, hfilter]
  rfl

/-! ### Handlers in any interleaving -/

/-- The plan of a handler was read for its request, in a world before this one. -/
def ReadBefore (cfg : Settings) (w : World) (req : DeliveryRequest) (plan : WebhookPlan) : Prop :=
  ∃ u sha b, (system cfg).Path (fun _ _ => True) u w ∧ req.handling = .ok (.build sha b) ∧
    readWebhook u.db req.repositoryId sha b = .ok plan

structure PushInv (cfg : Settings) (d : DeliveryWorld) : Prop where
  world : (system cfg).Reachable d.world
  held : ∀ p ∈ d.pending, ∀ plan, p.plan = some plan → plan ∈ d.world.services.webhooks
  read : ∀ p ∈ d.pending, ∀ plan, p.plan = some plan → ReadBefore cfg d.world p.request plan

/-- What the commit of a handler may write: nothing, or the releases of its plan. -/
inductive Committed (d : DeliveryWorld) (p : PendingDelivery) (d' : DeliveryWorld) : Prop
  | nothing : d'.world = d.world → Committed d p d'
  | builds (plan : WebhookPlan) (db : Db) : p.plan = some plan → commitWebhook d.world.db plan = .ok db →
      d'.world = { d.world with db := db } → Committed d p d'

lemma recordOnly_frame (d : DeliveryWorld) (req : DeliveryRequest) (status : DeliveryStatus) :
    (d.recordOnly req status).world = d.world ∧ (d.recordOnly req status).pending = d.pending := by
  unfold DeliveryWorld.recordOnly
  split <;> exact ⟨rfl, rfl⟩

lemma commit_committed {p : PendingDelivery} {first : Bool} (h : d.commit p first = some d') :
    p ∈ d.pending ∧ d'.pending = d.pending.erase p ∧ Committed d p d' := by
  have honly : ∀ status, ({ d with pending := d.pending.erase p }.recordOnly p.request status).pending =
      d.pending.erase p ∧ Committed d p ({ d with pending := d.pending.erase p }.recordOnly p.request status) :=
    fun status => ⟨(recordOnly_frame _ _ status).2, .nothing (recordOnly_frame _ _ status).1⟩
  unfold DeliveryWorld.commit at h
  split at h
  · rename_i hp
    dsimp only at h
    split at h
    · cases h
      exact ⟨hp, honly _⟩
    · rename_i plan _ hplan
      split at h
      · cases h
        exact ⟨hp, honly _⟩
      · cases h
        unfold DeliveryWorld.recordBuilds
        split
        · rename_i db deliveries hdb _
          exact ⟨hp, rfl, .builds plan db hplan hdb rfl⟩
        all_goals exact ⟨hp, rfl, .nothing rfl⟩
    · cases h
  · cases h

lemma ReadBefore.mono {w w' : World} {a : Action} {req : DeliveryRequest} {plan : WebhookPlan}
    (h : ReadBefore cfg w req plan) (hstep : (system cfg).step w a = some w') : ReadBefore cfg w' req plan := by
  obtain ⟨u, sha, b, hpath, hread⟩ := h
  exact ⟨u, sha, b, .tail a hpath trivial hstep, hread⟩

/-- A step of the system keeps what is known of the plans that are held. -/
lemma PushInv.world_step {a : Action} (hi : PushInv cfg d) (hstep : (system cfg).step d.world a = some d'.world)
    (hsub : d'.pending ⊆ d.pending) : PushInv cfg d' := by
  obtain ⟨new, hnew, -⟩ := step_webhooks hstep
  refine ⟨.tail a hi.world trivial hstep, fun p hp plan hplan => ?_, fun p hp plan hplan => ?_⟩
  · rw [hnew]
    exact List.mem_append_left _ (hi.held p (hsub hp) plan hplan)
  · exact (hi.read p (hsub hp) plan hplan).mono hstep

lemma PushInv.same_world (hi : PushInv cfg d) (hw : d'.world = d.world) (hsub : d'.pending ⊆ d.pending) :
    PushInv cfg d' := by
  refine ⟨hw ▸ hi.world, fun p hp plan hplan => ?_, fun p hp plan hplan => ?_⟩
  · rw [hw]
    exact hi.held p (hsub hp) plan hplan
  · rw [hw]
    exact hi.read p (hsub hp) plan hplan

/-- One more handler, which holds no plan or one that was read in this world. -/
lemma PushInv.append {q : PendingDelivery} (hi : PushInv cfg d)
    (hq : ∀ plan, q.plan = some plan → plan ∈ d.world.services.webhooks ∧ ReadBefore cfg d.world q.request plan) :
    PushInv cfg { d with pending := d.pending ++ [q] } := by
  refine ⟨hi.world, fun p hp plan hplan => ?_, fun p hp plan hplan => ?_⟩
  · rcases List.mem_append.mp hp with hp | hp
    · exact hi.held p hp plan hplan
    · rw [List.mem_singleton.mp hp] at hplan
      exact (hq plan hplan).1
  · rcases List.mem_append.mp hp with hp | hp
    · exact hi.read p hp plan hplan
    · rw [List.mem_singleton.mp hp] at hplan ⊢
      exact (hq plan hplan).2

lemma PushInv.read_step {p : PendingDelivery} (hi : PushInv cfg d) (h : d.read cfg p = some d') : PushInv cfg d' := by
  unfold DeliveryWorld.read at h
  split at h
  · rename_i sha b hhandling
    split at h
    · split at h
      · rename_i plan hplan
        obtain ⟨w, hw, rfl⟩ := Option.map_eq_some_iff.mp h
        have hstep : (system cfg).step d.world (.service (.readWebhook p.request.repositoryId sha b)) = some w := hw
        obtain ⟨⟨db, c⟩, hserv, rfl⟩ := Option.map_eq_some_iff.mp hw
        obtain ⟨plan', hplan', rfl, rfl⟩ := readWebhook_step hserv
        obtain rfl : plan' = plan := Except.ok.inj (hplan'.symm.trans hplan)
        have herased : PushInv cfg { d with
            world := { d.world with
              services := { d.world.services with webhooks := d.world.services.webhooks ++ [plan'] } }
            pending := d.pending.erase p } := hi.world_step hstep List.erase_subset
        refine herased.append fun plan hq => ?_
        obtain rfl : plan' = plan := Option.some.inj hq
        exact ⟨by simp, d.world, sha, b, .single trivial hstep, hhandling, hplan⟩
      · cases h
    · cases h
  · cases h

lemma PushInv.step {a : DeliveryAction} (hi : PushInv cfg d) (h : (deliverySystem cfg).step d a = some d') :
    PushInv cfg d' := by
  cases a with
  | other b =>
    simp only [deliverySystem, DeliveryWorld.step] at h
    split at h
    · cases h
    · obtain ⟨w, hw, rfl⟩ := Option.map_eq_some_iff.mp h
      exact hi.world_step hw (List.Subset.refl _)
  | receive req =>
    simp only [deliverySystem, DeliveryWorld.step, DeliveryWorld.receive] at h
    split at h
    · split at h
      · cases h
        exact hi.same_world rfl (List.Subset.refl _)
      · split at h
        · cases h
          exact hi.same_world rfl (List.Subset.refl _)
        · cases h
          exact hi.same_world rfl (List.Subset.refl _)
        · cases h
          exact hi.append (by rintro plan ⟨⟩)
    · cases h
  | read p => exact hi.read_step h
  | commit p first =>
    obtain ⟨hp, hpending, hcommitted⟩ := commit_committed h
    have hsub : d'.pending ⊆ d.pending := hpending ▸ List.erase_subset
    cases hcommitted with
    | nothing hw => exact hi.same_world hw hsub
    | builds plan db hplan hdb hw =>
      have hmem := hi.held p hp plan hplan
      refine hi.world_step (a := .service (.commitWebhook plan)) ?_ hsub
      rw [hw]
      simp [system, World.step, serviceStep, hmem, hdb, committed, Except.toOption]

lemma reach_pushInv (h : (deliverySystem cfg).Reachable d) : PushInv cfg d := by
  have hinit : PushInv cfg DeliveryWorld.init := ⟨.refl _, by rintro p ⟨⟩, by rintro p ⟨⟩⟩
  exact System.Reach.invariant hinit (fun _ _ _ hi _ hstep => hi.step hstep) h

/-! ### Pushes -/

/-- The new releases are one for each of the applications, of the commit and the branch. -/
def BuildsBranch (repositoryId : Uuid) (after : Option String) (b : String) (apps : List Application) (db db' : Db) :
    Prop :=
  ∃ new, db'.releases.rows = db.releases.rows ++ new ∧ new.map Release.applicationId = apps.map Application.id ∧
    ∀ r ∈ new, r.repositoryId = some repositoryId ∧ r.commitSha = after ∧ r.gitRef = some b ∧ r.status = .requested

lemma planned_branch {plan : WebhookPlan} {builds : List PlannedBuild} {releases : List Release}
    (h : List.Forall₂ (Planned plan) builds releases) :
    ∀ r ∈ releases, r.repositoryId = some plan.repositoryId ∧ r.commitSha = some plan.commitSha ∧
      r.gitRef = some plan.branch ∧ r.status = .requested := by
  induction h with
  | nil => simp
  | cons hr _ ih =>
    intro r hmem
    rcases List.mem_cons.mp hmem with rfl | hmem
    · exact ⟨hr.repository, hr.commit, hr.branch, hr.status⟩
    · exact ih r hmem

/-- The commit of a plan builds its branch for the applications that followed it when the plan was read. -/
lemma commitWebhook_branch {u : Db} {repositoryId : Uuid} {repo : Repository} {sha b : String} {plan : WebhookPlan}
    {db db' : Db} (hrepo : u.repositories.get repositoryId = some repo)
    (hread : readWebhook u repositoryId sha b = .ok plan) (h : commitWebhook db plan = .ok db') :
    BuildsBranch repositoryId (some sha) b (u.apps.rows.filter (followsBranch repo b)) db db' := by
  rw [readWebhook_eq sha b hrepo] at hread
  obtain rfl := Except.ok.inj hread
  obtain ⟨new, events, hrows, -, hplanned, -⟩ := commitWebhook_planned h
  refine ⟨new, hrows, ?_, planned_branch hplanned⟩
  rw [planned_apps hplanned, List.map_map]
  rfl

/-- Whatever happens between the reads of a handler and its commit, the commit writes nothing, or builds the branch that
the handler has derived for the applications that followed it when they were read. -/
theorem interleaved_push_builds_branch (cfg : Settings) {p : PendingDelivery} {first : Bool}
    (h : (deliverySystem cfg).Reachable d) (hstep : (deliverySystem cfg).step d (.commit p first) = some d') :
    d'.world = d.world ∨ ∃ (u : World) (repo : Repository) (sha b : String),
      (system cfg).Path (fun _ _ => True) u d.world ∧ p.request.handling = .ok (.build sha b) ∧
      u.db.repositories.get p.request.repositoryId = some repo ∧
      BuildsBranch p.request.repositoryId (some sha) b (u.db.apps.rows.filter (followsBranch repo b)) d.world.db
        d'.world.db := by
  obtain ⟨hp, -, hcommitted⟩ := commit_committed hstep
  cases hcommitted with
  | nothing hw => exact .inl hw
  | builds plan db hplan hdb hw =>
    obtain ⟨u, sha, b, hpath, hhandling, hread⟩ := (reach_pushInv h).read p hp plan hplan
    obtain ⟨repo, hrepo⟩ : ∃ repo, u.db.repositories.get p.request.repositoryId = some repo := by
      simp only [readWebhook, bind_eq_ok, orError_eq_ok] at hread
      exact ⟨hread.choose, hread.choose_spec.1⟩
    refine .inr ⟨u, repo, sha, b, hpath, hhandling, hrepo, ?_⟩
    rw [hw]
    exact commitWebhook_branch hrepo hread hdb

/-! ### A handler that nothing interrupts -/

/-- A push whose builds can be stored: its delivery id is new and fits its column, and it has a commit that, like the
branch, fits its column. -/
def storesBuilds (d : DeliveryWorld) (req : DeliveryRequest) (after : Option String) (branch : String) : Bool :=
  req.deliveryId ≠ "" && req.deliveryId.length ≤ 100 && (d.deliveries.get req.key).isNone &&
    after.any (fun sha => sha ≠ "" && sha ≠ zeroSha && sha.length ≤ 40) && branch.length ≤ 100

lemma handle_answered {key : DeliveryKey} {answer : DeliveryAnswer}
    (h : d.receive req = some (d.answer key answer)) : d.handle cfg req = some (d.answer key answer) := by
  rw [DeliveryWorld.handle, h]
  exact if_pos rfl

lemma receive_fresh {handling : Handling} (hrepo : d.world.db.repositories.get req.repositoryId = some repo)
    (hid : req.deliveryId ≠ "") (hfresh : d.deliveries.get req.key = none) (hhandling : req.handling = .ok handling) :
    d.receive req = some { d with pending := d.pending ++ [⟨req, none⟩] } := by
  simp [DeliveryWorld.receive, hrepo, hid, hfresh, hhandling]

lemma read_received (cfg : Settings) {sha b : String} {plan : WebhookPlan}
    (hp : (⟨req, none⟩ : PendingDelivery) ∈ d.pending) (hhandling : req.handling = .ok (.build sha b))
    (hread : readWebhook d.world.db req.repositoryId sha b = .ok plan) :
    ∃ d', d.read cfg ⟨req, none⟩ = some d' ∧ d'.world.db = d.world.db ∧ d'.deliveries = d.deliveries ∧
      d'.pending = d.pending.erase ⟨req, none⟩ ++ [⟨req, some plan⟩] := by
  simp [DeliveryWorld.read, hhandling, hp, hread, World.step, serviceStep, Except.toOption]

/-- The commit of a push that is not recorded yet stores the releases of its plan if the delivery fits its columns and
they can be inserted, and nothing otherwise. -/
lemma commit_push {sha b : String} {plan : WebhookPlan} (hp : (⟨req, some plan⟩ : PendingDelivery) ∈ d.pending)
    (hhandling : req.handling = .ok (.build sha b)) (hfresh : d.deliveries.get req.key = none) :
    ∃ d', d.commit ⟨req, some plan⟩ false = some d' ∧
      ((req.row .processed).fitsColumns = true → ∀ db, commitWebhook d.world.db plan = .ok db → d'.world.db = db) ∧
      ((req.row .processed).fitsColumns = false ∨ (∃ e, commitWebhook d.world.db plan = .error e) →
        d'.world.db = d.world.db) := by
  simp only [DeliveryWorld.commit, if_pos hp, hhandling]
  by_cases hempty : plan.builds = []
  · rw [if_pos hempty]
    refine ⟨_, rfl, fun _ db hdb => ?_, fun _ => congrArg World.db (recordOnly_frame _ _ _).1⟩
    rw [commitWebhook, hempty, List.foldlM_nil, pure_eq_ok] at hdb
    rw [← hdb]
    exact congrArg World.db (recordOnly_frame _ _ _).1
  · rw [if_neg hempty]
    refine ⟨_, rfl, fun hfits db hdb => ?_, fun hfails => ?_⟩
    · obtain ⟨deliveries, hok, -⟩ := insertDelivery_ok hfits hfresh
      simp only [DeliveryWorld.recordBuilds, hdb, hok]
      rfl
    · unfold DeliveryWorld.recordBuilds
      split
      · rename_i db deliveries hdb hok
        rcases hfails with hwide | ⟨e, he⟩
        · simp [insertDelivery, ensure, hwide] at hok
        · rw [he] at hdb
          cases hdb
      all_goals rfl

lemma handling_deleted {after : Option String} {ref : String} (hevent : req.event = "push")
    (hbody : req.body = .push ⟨after, ref⟩) (hafter : ∀ sha, after = some sha → sha = "" ∨ sha = zeroSha) :
    req.handling = .ok (.record .ignoredBranchDeleted) := by
  unfold DeliveryRequest.handling
  rw [hevent, hbody, if_neg (by decide), if_neg (by decide)]
  cases after with
  | none => rfl
  | some sha => exact if_pos (hafter sha rfl)

lemma handling_build {sha ref : String} (hevent : req.event = "push") (hbody : req.body = .push ⟨some sha, ref⟩)
    (hsha : ¬(sha = "" ∨ sha = zeroSha)) : req.handling = .ok (.build sha (branchOf ref)) := by
  unfold DeliveryRequest.handling
  rw [hevent, hbody, if_neg (by decide), if_neg (by decide)]
  exact if_neg hsha

lemma handle_deleted {status : DeliveryStatus} (cfg : Settings)
    (hrepo : d.world.db.repositories.get req.repositoryId = some repo) (hid : req.deliveryId ≠ "")
    (hfresh : d.deliveries.get req.key = none) (hhandling : req.handling = .ok (.record status)) :
    ∃ d', d.handle cfg req = some d' ∧ d'.world.db = d.world.db := by
  rw [DeliveryWorld.handle, receive_fresh hrepo hid hfresh hhandling]
  simp only [Option.bind_eq_bind, Option.bind_some, hhandling]
  rw [if_neg (by simp), DeliveryWorld.commit, if_pos (by simp)]
  simp only [hhandling]
  exact ⟨_, rfl, congrArg World.db (recordOnly_frame _ _ _).1⟩

/-- A new push with a commit stores its builds if they and the delivery fit their columns, and nothing otherwise. -/
lemma handle_commit {sha b : String} (h : (system cfg).Reachable d.world)
    (hrepo : d.world.db.repositories.get req.repositoryId = some repo) (hid : req.deliveryId ≠ "")
    (hfresh : d.deliveries.get req.key = none) (hhandling : req.handling = .ok (.build sha b)) :
    ∃ d', d.handle cfg req = some d' ∧
      if (req.row .processed).fitsColumns = true ∧ sha.length ≤ 40 ∧ b.length ≤ 100 then
        BuildsBranch req.repositoryId (some sha) b (d.world.db.apps.rows.filter (followsBranch repo b)) d.world.db
          d'.world.db
      else d'.world.db = d.world.db := by
  have hread := readWebhook_eq sha b hrepo
  generalize hplan : (⟨req.repositoryId, sha, b, _⟩ : WebhookPlan) = plan at hread
  obtain ⟨d₂, hread₂, hdb, hdeliveries, hpending⟩ := read_received cfg
    (d := { d with pending := d.pending ++ [⟨req, none⟩] }) (by simp) hhandling hread
  have hp : (⟨req, some plan⟩ : PendingDelivery) ∈ d₂.pending := by
    rw [hpending]
    exact List.mem_append_right _ List.mem_cons_self
  obtain ⟨d₃, hcommit, hstores, hfails⟩ := commit_push hp hhandling (hdeliveries ▸ hfresh)
  rw [hdb] at hstores hfails
  have hhandle : d.handle cfg req = some d₃ := by
    rw [DeliveryWorld.handle, receive_fresh hrepo hid hfresh hhandling]
    simp only [Option.bind_eq_bind, Option.bind_some, hhandling]
    rw [if_neg (by simp), hread₂, Option.bind_some, hpending, List.getLast?_concat, Option.bind_some, hcommit]
  have hfitsPlan : plan.fitsColumns = true ↔ sha.length ≤ 40 ∧ b.length ≤ 100 := by
    simp [← hplan, WebhookPlan.fitsColumns]
  refine ⟨d₃, hhandle, ?_⟩
  split
  · rename_i hfits
    -- the numbers that were read are still the next ones
    obtain ⟨db', hdb'⟩ := commitWebhook_ok (hfitsPlan.mpr hfits.2) (reach_numberInv h).numbered
      (readWebhook_plan hread) (by
      intro c hc
      rw [← hplan] at hc
      obtain ⟨a, -, rfl⟩ := List.mem_map.mp hc
      rfl)
    rw [hstores hfits.1 db' hdb']
    exact commitWebhook_branch hrepo hread hdb'
  · rename_i hwide
    by_cases hrow : (req.row .processed).fitsColumns = true
    · rcases commitWebhook_overlong d.world.db (mt hfitsPlan.mp fun hplan => hwide ⟨hrow, hplan⟩) with hok | herror
      · exact hstores hrow _ hok
      · exact hfails (.inr ⟨_, herror⟩)
    · exact hfails (.inl (Bool.not_eq_true _ ▸ hrow))

lemma push_fitsColumns (hevent : req.event = "push") :
    (req.row .processed).fitsColumns = true ↔ req.deliveryId.length ≤ 100 := by
  have hwidth : req.eventType.length ≤ 50 := by
    rw [DeliveryRequest.eventType, hevent]
    decide
  rw [WebhookDelivery.fitsColumns, Bool.and_eq_true, decide_eq_true_eq, decide_eq_true_eq]
  exact and_iff_left hwidth

/-- What a push builds: the branch that the handler has derived, if its builds can be stored, and nothing otherwise. -/
lemma handle_push {after : Option String} {ref : String} (h : (system cfg).Reachable d.world)
    (hevent : req.event = "push") (hbody : req.body = .push ⟨after, ref⟩)
    (hrepo : d.world.db.repositories.get req.repositoryId = some repo) :
    ∃ d', d.handle cfg req = some d' ∧
      if storesBuilds d req after (branchOf ref) = true then
        BuildsBranch req.repositoryId after (branchOf ref)
          (d.world.db.apps.rows.filter (followsBranch repo (branchOf ref))) d.world.db d'.world.db
      else d'.world.db = d.world.db := by
  by_cases hid : req.deliveryId = ""
  · have hreceive : d.receive req = some (d.answer req.key .badRequest) := by
      simp [DeliveryWorld.receive, hrepo, hid]
    exact ⟨_, handle_answered hreceive, by rw [if_neg (by simp [storesBuilds, hid])]; rfl⟩
  cases hfresh : d.deliveries.get req.key with
  | some row =>
    have hreceive : d.receive req = some (d.answer req.key .duplicate) := by
      simp [DeliveryWorld.receive, hrepo, hid, hfresh]
    exact ⟨_, handle_answered hreceive, by rw [if_neg (by simp [storesBuilds, hfresh])]; rfl⟩
  | none =>
    by_cases hdeleted : ∀ sha, after = some sha → sha = "" ∨ sha = zeroSha
    · obtain ⟨d', hhandle, hdb⟩ := handle_deleted cfg hrepo hid hfresh (handling_deleted hevent hbody hdeleted)
      refine ⟨d', hhandle, ?_⟩
      rw [if_neg]
      · exact hdb
      · simp only [storesBuilds, Bool.and_eq_true, Option.any_eq_true, decide_eq_true_eq]
        rintro ⟨⟨-, sha, hsha, ⟨hempty, hzero⟩, -⟩, -⟩
        exact (hdeleted sha hsha).elim hempty hzero
    · push Not at hdeleted
      obtain ⟨sha, rfl, hempty, hzero⟩ := hdeleted
      obtain ⟨d', hhandle, hdb⟩ :=
        handle_commit h hrepo hid hfresh (handling_build hevent hbody (not_or.mpr ⟨hempty, hzero⟩))
      refine ⟨d', hhandle, ?_⟩
      have hstores : storesBuilds d req (some sha) (branchOf ref) = true ↔
          (req.row .processed).fitsColumns = true ∧ sha.length ≤ 40 ∧ (branchOf ref).length ≤ 100 := by
        simp [storesBuilds, push_fitsColumns hevent, hid, hfresh, hempty, hzero, and_assoc]
      simp only [hstores]
      exact hdb

/-- Where nothing was built, a branch is built exactly if there is nothing to build. -/
lemma buildsBranch_of_same {repositoryId : Uuid} {after : Option String} {b : String} {apps : List Application}
    {db db' : Db} (h : db'.releases.rows = db.releases.rows) :
    BuildsBranch repositoryId after b apps db db' ↔ apps = [] := by
  constructor
  · rintro ⟨new, hrows, hids, -⟩
    rw [h, List.self_eq_append_right] at hrows
    rw [hrows, List.map_nil] at hids
    exact List.map_eq_nil_iff.mp hids.symm
  · rintro rfl
    exact ⟨[], by rw [h, List.append_nil], rfl, by simp⟩

/-- What is built of one branch is built of another one only if it is nothing. -/
lemma BuildsBranch.of_ne {repositoryId : Uuid} {after : Option String} {b b' : String} {apps apps' : List Application}
    {db db' : Db} (hbuilt : BuildsBranch repositoryId after b' apps' db db') (hne : b' ≠ b) :
    BuildsBranch repositoryId after b apps db db' ↔ apps = [] ∧ apps' = [] := by
  have hsame : apps' = [] → db'.releases.rows = db.releases.rows := by
    rintro rfl
    obtain ⟨new, hrows, hids, -⟩ := hbuilt
    rw [hrows, List.map_eq_nil_iff.mp hids, List.append_nil]
  constructor
  · intro h
    have hnil : apps' = [] := by
      obtain ⟨new, hrows, hids, hnew⟩ := hbuilt
      obtain ⟨new', hrows', -, hnew'⟩ := h
      obtain rfl : new = new' := List.append_cancel_left (hrows.symm.trans hrows')
      cases new with
      | nil => exact List.map_eq_nil_iff.mp hids.symm
      | cons r new =>
        have href := (hnew r List.mem_cons_self).2.2.1.symm.trans (hnew' r List.mem_cons_self).2.2.1
        exact absurd (Option.some.inj href) hne
    exact ⟨(buildsBranch_of_same (hsame hnil)).mp h, hnil⟩
  · rintro ⟨happs, happs'⟩
    exact (buildsBranch_of_same (hsame happs')).mpr happs

/-- A handler is a run of the system. -/
lemma handle_path (h : d.handle cfg req = some d') : (deliverySystem cfg).Path (fun _ _ => True) d d' := by
  simp only [DeliveryWorld.handle, Option.bind_eq_bind, Option.bind_eq_some_iff] at h
  obtain ⟨d₁, hreceive, h⟩ := h
  have hreceived : (deliverySystem cfg).Path (fun _ _ => True) d d₁ := .single (a := .receive req) trivial hreceive
  split at h
  · cases h
    exact hreceived
  · split at h
    · obtain ⟨d₂, hread, p, -, hcommit⟩ := by simpa only [Option.bind_eq_some_iff] using h
      exact .tail (.commit p false) (.tail (.read ⟨req, none⟩) hreceived trivial hread) trivial hcommit
    · exact .tail (.commit ⟨req, none⟩ false) hreceived trivial h

/-- A push of a branch is handled to its end. It builds the branch for exactly the applications that follow it if its
builds can be stored and the name of the branch does not contain `refs/heads/`; otherwise only if there is nothing to
build, for that branch and for the one that the handler has derived. -/
theorem pushed_branch_built (cfg : Settings) {d : DeliveryWorld} {req : DeliveryRequest} {after : Option String}
    {b : String} {repo : Repository} (h : (deliverySystem cfg).Reachable d) (hevent : req.event = "push")
    (hbody : req.body = .push ⟨after, "refs/heads/" ++ b⟩)
    (hrepo : d.world.db.repositories.get req.repositoryId = some repo) :
    ∃ d', d.handle cfg req = some d' ∧ (deliverySystem cfg).Path (fun _ _ => True) d d' ∧
      (BuildsBranch req.repositoryId after b (d.world.db.apps.rows.filter (followsBranch repo b)) d.world.db
          d'.world.db ↔
        (storesBuilds d req after b = true ∧ ¬embedsHeads b) ∨
        (d.world.db.apps.rows.filter (followsBranch repo b) = [] ∧
          (d.world.db.apps.rows.filter (followsBranch repo (branchOf ("refs/heads/" ++ b))) = [] ∨
            storesBuilds d req after (branchOf ("refs/heads/" ++ b)) = false))) := by
  obtain ⟨d', hhandle, hbuilt⟩ := handle_push (reach_pushInv h).world hevent hbody hrepo
  refine ⟨d', hhandle, handle_path hhandle, ?_⟩
  by_cases hstores : storesBuilds d req after (branchOf ("refs/heads/" ++ b)) = true
  · rw [if_pos hstores] at hbuilt
    by_cases hb : embedsHeads b
    · rw [hbuilt.of_ne (mt (branchOf_eq_iff b).mp (not_not.mpr hb))]
      simp [hb, hstores]
    · rw [(branchOf_eq_iff b).mpr hb] at hbuilt hstores
      exact iff_of_true hbuilt (.inl ⟨hstores, hb⟩)
  · rw [if_neg hstores] at hbuilt
    rw [buildsBranch_of_same (by rw [hbuilt]), Bool.eq_false_of_not_eq_true hstores]
    constructor
    · exact fun hnone => .inr ⟨hnone, .inr rfl⟩
    · rintro (⟨hstored, hb⟩ | ⟨hnone, -⟩)
      · rw [(branchOf_eq_iff b).mpr hb] at hstores
        exact absurd hstored hstores
      · exact hnone

/-- Applications `1` and `2` of repository `0` follow `main`, the third one follows `dev`. -/
def followers : (deliverySystem Settings.default).FreeRun where
  labels := [.other (.service (.createRepository 100)),
    .other (.service (.createApplication 100 ⟨"web", some 0, some "main"⟩)),
    .other (.service (.createApplication 100 ⟨"docs", some 0, none⟩)),
    .other (.service (.createApplication 100 ⟨"beta", some 0, some "dev"⟩))]
  executes := by decide +kernel

theorem pushed_branch_built_main : ∃ d repo d', (deliverySystem Settings.default).Reachable d ∧
    (d.world.db.apps.rows.filter (followsBranch repo "main")).map Application.id = [1, 2] ∧
    d.handle Settings.default push = some d' ∧
    BuildsBranch 0 (some "c0ffee1") "main" (d.world.db.apps.rows.filter (followsBranch repo "main")) d.world.db
      d'.world.db := by
  have hrepo : followers.final.world.db.repositories.get push.repositoryId = some ⟨0, 100⟩ := by decide +kernel
  have hbody : push.body = .push ⟨some "c0ffee1", "refs/heads/" ++ "main"⟩ := by decide
  obtain ⟨d', hhandle, -, hbuilds⟩ := pushed_branch_built Settings.default followers.reachable rfl hbody hrepo
  exact ⟨_, ⟨0, 100⟩, d', followers.reachable, by decide +kernel, hhandle,
    hbuilds.mpr (.inl ⟨by decide +kernel, by decide⟩)⟩

/-- A push to the branch `refs/heads/main`. -/
def disguisedPush : DeliveryRequest := ⟨0, "d-3", "push", .push ⟨some "bad5eed", "refs/heads/" ++ "refs/heads/main"⟩⟩

/-- The push to `refs/heads/main`, which nobody follows, builds the applications that follow `main`. -/
theorem disguised_branch_built : ∃ d repo d', (deliverySystem Settings.default).Reachable d ∧
    d.world.db.apps.rows.map (fun a => (a.id, a.gitBranch)) = [(1, some "main"), (2, some "main"), (3, some "dev")] ∧
    d.world.db.apps.rows.filter (followsBranch repo "refs/heads/main") = [] ∧
    d.handle Settings.default disguisedPush = some d' ∧
    d'.world.db.releases.rows.map (fun r => (r.applicationId, r.commitSha, r.gitRef)) =
      [(1, some "bad5eed", some "main"), (2, some "bad5eed", some "main")] := by
  have hbuilt : (followers.final.handle Settings.default disguisedPush).map
      (fun d' => d'.world.db.releases.rows.map fun r => (r.applicationId, r.commitSha, r.gitRef)) =
      some [(1, some "bad5eed", some "main"), (2, some "bad5eed", some "main")] := by decide +kernel
  obtain ⟨d', hhandle, hrows⟩ := Option.map_eq_some_iff.mp hbuilt
  exact ⟨_, ⟨0, 100⟩, d', followers.reachable, by decide +kernel, by decide +kernel, hhandle, hrows⟩

end HamiCloud.Proofs
