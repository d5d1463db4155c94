import HamiCloud.Runtime.Containers
import HamiCloud.Protocol.Rollout
import HamiCloud.Proofs.Generations

/-!
# What reaches the container

The image, the port and the health path of an accepted deployment request reach the container of its release, from
whatever later state the release is claimed: its row keeps them. The environment variables and the two limits are
stored with the release and reach no container, and an empty health path is replaced by a default. So the container is
the requested one exactly for requests without variables and limits, and with a health path.
-/

namespace HamiCloud

/-- A release whose image needs no build keeps its image and its configuration. -/
lemma ReleaseMove.keeps {now : Time} {v v' : ReleaseView} {e : ReleaseEvent} {r r' : Release}
    (h : ReleaseMove now v e v' r r') (hst : r.status ≠ .requested ∧ r.status ≠ .building) :
    r'.imageDigest = r.imageDigest ∧ r'.config = r.config ∧ r'.status ≠ .requested ∧ r'.status ≠ .building := by
  have hconfig : r'.config = r.config := (Release.spec_eq.mp h.spec).2.2.2.2.1
  cases h with
  | same he =>
    rw [he]
    exact ⟨rfl, rfl, hst⟩
  | deploy i i' _ _ _ _ _ hd hdep =>
    refine ⟨hd, hconfig, ?_⟩
    generalize r'.status = t, i'.status = u at hdep ⊢
    cases hdep with
    | claim => simp
    | renew => exact hst
    | healthy => simp
    | failed => simp
  | build _ hb =>
    generalize r'.status = t, r'.imageDigest = d at hb
    cases hb with
    | start hreq => exact absurd hreq hst.1
    | built _ hbuild => exact absurd hbuild hst.2
    | failed hbuild => exact absurd hbuild hst.2
  | supersede n _ _ hd _ hsup => exact ⟨hd, hconfig, by simp [hsup]⟩

namespace Proofs

open Library

/-- The limit that a text of the request asks for; an empty text asks for none. -/
def requestedLimit (limit : String) : Option String := if limit = "" then none else some limit

/-- The container runs the requested image and has exactly the requested port, health path, variables and limits. -/
structure RunsAsRequested (p : DeployPayload) (c : Container) : Prop where
  image : c.image = p.imageDigest
  port : c.ports.map ContainerPort.containerPort = [(p.port : Int)]
  healthPath : c.readinessProbe.map ReadinessProbe.path = some (withLeadingSlash p.healthPath)
  env : c.env.Perm p.envVars
  cpu : c.limits.lookup "cpu" = requestedLimit p.cpuLimit
  memory : c.limits.lookup "memory" = requestedLimit p.memoryLimit

/-- The decoder reads back the two members it knows. -/
lemma releaseConfig_configData (p : DeployPayload) : releaseConfig p.configData = ⟨p.port, p.healthPath⟩ := by
  have hport : unmarshalInt (.number p.port) = some (some (p.port : Int)) := by
    have hrange := p.port_range
    have hfits : (-2 ^ 63 : Int) ≤ p.port ∧ (p.port : Int) < 2 ^ 63 := by omega
    rw [unmarshalInt, if_pos hfits]
  have hdecoded : unmarshalConfig p.configData = some ⟨some p.port, p.healthPath⟩ := by
    have hnames : "port".toLower = "port" ∧ "health_path".toLower = "health_path" ∧ "env_vars".toLower = "env_vars" ∧
        "cpu_limit".toLower = "cpu_limit" ∧ "memory_limit".toLower = "memory_limit" := by decide +kernel
    simp [unmarshalConfig, DeployPayload.configData, ReleaseConfigPayload.setMember, unmarshalString, hnames, hport]
  rw [releaseConfig, hdecoded]
  rfl

/-- A release with this image and configuration, which needs no build. -/
def Carries (image : String) (config : ReleaseConfig) (r : Release) : Prop :=
  r.imageDigest = image ∧ r.config = config ∧ r.status ≠ .requested ∧ r.status ≠ .building

variable {cfg : Settings} {w w' : World}

lemma acceptRelease_carries {db db' : Db} {app : Application} {digest : String} {config : ReleaseConfig}
    {rollbackOf : Option Uuid} {k : Uuid} {r : Release}
    (h : acceptRelease cfg db app digest config rollbackOf = .ok db') (hnew : db.releases.get k = none)
    (hr : db'.releases.get k = some r) : Carries digest config r := by
  unfold acceptRelease at h
  simp only [bind_eq_ok, orError_eq_ok, pure_eq_ok] at h
  obtain ⟨db₁, hq, db₂, hins, rfl⟩ := h
  obtain ⟨hframe, -, -⟩ := enforceWorkspaceQuota_frame hq
  rw [hframe] at hins
  obtain ⟨releases, -, hrel, rfl⟩ := insertRelease_inv hins
  rcases Table.get_insert_cases hrel hr with hold | ⟨-, rfl⟩
  · rw [hnew] at hold
    cases hold
  · exact ⟨rfl, rfl, by simp [readyRelease]⟩

lemma deployRelease_carries {appId k : Uuid} {p : DeployPayload} {r : Release}
    (h : (system cfg).step w (.service (.deployRelease appId p.request)) = some w')
    (hold : w.db.releases.get k = none) (hr : w'.db.releases.get k = some r) :
    Carries p.imageDigest ⟨p.port, p.healthPath⟩ r := by
  rcases step_cases h with ⟨_, he, _⟩ | ⟨_, _, _, he, _⟩ | ⟨_, db', c', he, hserv, rfl⟩
  · cases he
  · cases he
  · cases he
    obtain ⟨app, -, hacc⟩ := deployRelease_inv (commit_inv hserv).1
    rw [← releaseConfig_configData p]
    exact acceptRelease_carries hacc hold hr

/-- A release keeps what it carries along every path. -/
lemma path_carries {image : String} {config : ReleaseConfig} {k : Uuid} {r : Release} (hw : WorldOK w)
    (hr : w.db.releases.get k = some r) (hc : Carries image config r)
    (hpath : (system cfg).Path (fun _ _ => True) w w') :
    ∃ r', w'.db.releases.get k = some r' ∧ Carries image config r' := by
  refine (hpath.invariant (P := fun u => WorldOK u ∧ ∃ s, u.db.releases.get k = some s ∧ Carries image config s)
    ⟨hw, r, hr, hc⟩ ?_).2
  rintro u a u' ⟨hu, s, hs, himage, hconfig, hst⟩ - hstep
  obtain ⟨s', hs', hmove⟩ := (service_side hu hstep).release_move hs
  obtain ⟨himage', hconfig', hst'⟩ := hmove.keeps hst
  exact ⟨hu.step hstep, s', hs', himage'.trans himage, hconfig'.trans hconfig, hst'⟩

/-- A claimed workload has the image of its release, and its configuration up to the defaults. -/
lemma claimNextServiceRelease_carries {db db' : Db} {workerId : String} {lease : Time} {wss locked : List Uuid}
    {wl : ClaimedWorkload} {image : String} {config : ReleaseConfig} {r : Release}
    (h : claimNextServiceRelease db workerId lease wss locked = some (wl, db'))
    (hr : db.releases.get wl.releaseId = some r) (hc : Carries image config r) :
    wl.imageDigest = image ∧ wl.port = (if 0 < config.port then config.port else 8080) ∧
      wl.healthPath = if config.healthPath ≠ "" then config.healthPath else "/healthz" := by
  obtain ⟨i, s, hnext, -, hid, -⟩ := claimNextServiceRelease_inv h
  obtain ⟨-, -, hs, -⟩ := nextReleaseIntent_inv hnext
  have hkey : s.id = i.resourceId := Table.key_of_get hs
  obtain rfl : s = r := by
    rw [hid, hkey, hs] at hr
    exact Option.some.inj hr
  obtain ⟨rfl, rfl, -⟩ := hc
  unfold claimNextServiceRelease at h
  simp only [hnext] at h
  split at h
  · cases h
  · cases h
    exact ⟨rfl, rfl, rfl⟩

lemma int32_of_lt {n : Nat} (h : n < 2 ^ 31) : int32 n = n := by
  rw [int32, BitVec.toInt_ofNat', Int.bmod_eq_of_le (by omega) (by omega)]

/-- The health path that a workload gets for the one of the request. -/
def effectivePath (healthPath : String) : String := if healthPath ≠ "" then healthPath else "/healthz"

lemma effectivePath_ne (healthPath : String) : effectivePath healthPath ≠ "" := by
  unfold effectivePath
  split
  · assumption
  · decide

/-- The container of a workload with the port of a request and a path. -/
lemma deployContainer_fields (slug : String) (wl : ClaimedWorkload) (hport : 1 ≤ wl.port ∧ wl.port ≤ 65535)
    (hpath : wl.healthPath ≠ "") :
    (deployContainer slug wl).ports.map ContainerPort.containerPort = [(wl.port : Int)] ∧
      (deployContainer slug wl).readinessProbe.map ReadinessProbe.path = some (withLeadingSlash wl.healthPath) := by
  have h32 : int32 wl.port = wl.port := int32_of_lt (by omega)
  have hkept : (if int32 wl.port ≤ 0 then 8080 else int32 wl.port) = (wl.port : Int) := by
    rw [if_neg (by omega), h32]
  simp only [deployContainer, hkept, if_pos hpath, List.map_cons, List.map_nil, Option.map_some, and_self]

/-- A container without variables and limits is the requested one when none are asked for. -/
lemma runsAsRequested_iff {p : DeployPayload} {c : Container} (himage : c.image = p.imageDigest)
    (hport : c.ports.map ContainerPort.containerPort = [(p.port : Int)])
    (hpath : c.readinessProbe.map ReadinessProbe.path = some (withLeadingSlash (effectivePath p.healthPath)))
    (henv : c.env = []) (hlimits : c.limits = []) :
    RunsAsRequested p c ↔ p.envVars = [] ∧ p.cpuLimit = "" ∧ p.memoryLimit = "" ∧ p.healthPath ≠ "" := by
  have hlimit : ∀ {name limit : String}, c.limits.lookup name = requestedLimit limit ↔ limit = "" := by
    intro name limit
    simp [hlimits, requestedLimit]
  constructor
  · intro h
    refine ⟨List.nil_perm.mp (henv ▸ h.env), hlimit.mp h.cpu, hlimit.mp h.memory, fun hempty => ?_⟩
    -- an empty path asks for the root, and the default is another
    have hroot : withLeadingSlash (effectivePath "") ≠ withLeadingSlash "" := by decide +kernel
    have hsame := Option.some.inj (hpath.symm.trans h.healthPath)
    rw [hempty] at hsame
    exact hroot hsame
  · rintro ⟨hvars, hcpu, hmem, hgiven⟩
    refine ⟨himage, hport, ?_, ?_, hlimit.mpr hcpu, hlimit.mpr hmem⟩
    · rw [hpath, effectivePath, if_pos hgiven]
    · rw [henv, hvars]

/-- Whenever the release of an accepted request is claimed, its container runs the requested image with the requested
port and a health path that was given. It is the requested one exactly when no variables and no limits were asked
for and a health path was. -/
theorem accepted_config_reaches_container (cfg : Settings) {w w₁ w₂ : World} (hw : (system cfg).Reachable w)
    (appId : Uuid) (p : DeployPayload)
    (haccept : (system cfg).step w (.service (.deployRelease appId p.request)) = some w₁)
    (hpath : (system cfg).Path (fun _ _ => True) w₁ w₂) {workerId : String} {lease : Time} {wss locked : List Uuid}
    {wl : ClaimedWorkload} {db : Db}
    (hclaim : claimNextServiceRelease w₂.db workerId lease wss locked = some (wl, db))
    (hold : w.db.releases.get wl.releaseId = none) (hnew : (w₁.db.releases.get wl.releaseId).isSome = true)
    (slug : String) :
    (deployContainer slug wl).image = p.imageDigest ∧
      (deployContainer slug wl).ports.map ContainerPort.containerPort = [(p.port : Int)] ∧
      (p.healthPath ≠ "" → (deployContainer slug wl).readinessProbe.map ReadinessProbe.path =
        some (withLeadingSlash p.healthPath)) ∧
      (RunsAsRequested p (deployContainer slug wl) ↔
        p.envVars = [] ∧ p.cpuLimit = "" ∧ p.memoryLimit = "" ∧ p.healthPath ≠ "") := by
  obtain ⟨r, hr⟩ := Option.isSome_iff_exists.mp hnew
  have hcarries : Carries p.imageDigest ⟨p.port, p.healthPath⟩ r := deployRelease_carries haccept hold hr
  obtain ⟨r', hr', hcarries'⟩ := path_carries ((reach_ok hw).step haccept) hr hcarries hpath
  obtain ⟨himage, hport, hhealth⟩ := claimNextServiceRelease_carries hclaim hr' hcarries'
  replace hport : wl.port = p.port := hport.trans (if_pos p.port_range.1)
  replace hhealth : wl.healthPath = effectivePath p.healthPath := hhealth
  obtain ⟨hports, hprobe⟩ := deployContainer_fields slug wl (hport ▸ p.port_range)
    (hhealth ▸ effectivePath_ne p.healthPath)
  rw [hport] at hports
  rw [hhealth] at hprobe
  refine ⟨himage, hports, fun hgiven => ?_, runsAsRequested_iff himage hports hprobe rfl rfl⟩
  rw [hprobe, effectivePath, if_pos hgiven]

/-- An application without releases. -/
def shopRun : (system Settings.default).FreeRun where
  labels := [.service (.createApplication 100 ⟨"shop", none, none⟩)]
  executes := by decide +kernel

/-- The request is accepted, its release is admitted, and an executor claims it. -/
def rollout (p : DeployPayload) : Option (World × World × ClaimedWorkload × Db) := do
  let w₁ ← (system Settings.default).step shopRun.final (.service (.deployRelease 0 p.request))
  let w₂ ← (system Settings.default).exec w₁ [.service (.selectUnadmittedReleases 50),
    .service (.createServiceReleaseIntent ⟨2, 0, 100, 1, p.imageDigest, ⟨p.port, p.healthPath⟩, 2⟩)]
  let (wl, db) ← claimNextServiceRelease w₂.db "executor-1" (30 * second) [] []
  pure (w₁, w₂, wl, db)

lemma rollout_inv {p : DeployPayload} {w₁ w₂ : World} {wl : ClaimedWorkload} {db : Db}
    (h : rollout p = some (w₁, w₂, wl, db)) :
    (system Settings.default).step shopRun.final (.service (.deployRelease 0 p.request)) = some w₁ ∧
      (system Settings.default).Path (fun _ _ => True) w₁ w₂ ∧
      claimNextServiceRelease w₂.db "executor-1" (30 * second) [] [] = some (wl, db) := by
  obtain ⟨u₁, hstep, h⟩ := Option.bind_eq_some_iff.mp h
  obtain ⟨u₂, hexec, h⟩ := Option.bind_eq_some_iff.mp h
  obtain ⟨⟨ul, ud⟩, hclaim, h⟩ := Option.bind_eq_some_iff.mp h
  cases h
  exact ⟨hstep, System.Path.of_exec hexec, hclaim⟩

/-- A request that asks for no variables and no limits. -/
def plainPayload : DeployPayload :=
  ⟨"quay.io/shop:1", 3000, "ready", [], "", "", by decide, by decide, by decide⟩

theorem accepted_config_reaches_container_plain : ∃ w₁ w₂ wl db,
    rollout plainPayload = some (w₁, w₂, wl, db) ∧ RunsAsRequested plainPayload (deployContainer "shop" wl) := by
  obtain ⟨⟨w₁, w₂, wl, db⟩, h⟩ := Option.isSome_iff_exists.mp (by decide +kernel : (rollout plainPayload).isSome = true)
  obtain ⟨hstep, hpath, hclaim⟩ := rollout_inv h
  have hnew : wl.releaseId = 2 ∧ (w₁.db.releases.get 2).isSome = true := by
    have hall : (rollout plainPayload).all (fun (w₁, _, wl, _) =>
        wl.releaseId = 2 && (w₁.db.releases.get 2).isSome) = true := by decide +kernel
    rw [h] at hall
    simpa using hall
  have hold : shopRun.final.db.releases.get 2 = none := by decide +kernel
  exact ⟨w₁, w₂, wl, db, h, (accepted_config_reaches_container Settings.default shopRun.reachable 0 plainPayload hstep
    hpath hclaim (hnew.1 ▸ hold) (hnew.1 ▸ hnew.2) "shop").2.2.2.mpr ⟨rfl, rfl, rfl, by decide⟩⟩

/-- A request with a variable and the default limits. -/
def configuredPayload : DeployPayload :=
  ⟨"quay.io/shop:1", 8080, "/healthz", [("LOG_LEVEL", "debug")], "500m", "512Mi", by decide, by decide, by decide⟩

/-- The release of an accepted request is claimed and deployed without its variable and without its limits. -/
theorem configured_variables_dropped : ∃ w₁ w₂ wl db,
    rollout configuredPayload = some (w₁, w₂, wl, db) ∧
      ¬RunsAsRequested configuredPayload (deployContainer "shop" wl) := by
  obtain ⟨⟨w₁, w₂, wl, db⟩, h⟩ :=
    Option.isSome_iff_exists.mp (by decide +kernel : (rollout configuredPayload).isSome = true)
  refine ⟨w₁, w₂, wl, db, h, fun hruns => ?_⟩
  have hvars : [] = configuredPayload.envVars := (List.nil_perm.mp hruns.env).symm
  exact absurd hvars (by decide)

end Proofs

end HamiCloud
