import HamiCloud.Runtime.Naming

/-!
# From a deployment request to its container

The configuration of a release on its way to the cluster: `deploy_release` of `app/api/v1/apps.py` stores it as
`config_json`, `ClaimNextServiceRelease` of `runtime/internal/store/postgres.go` decodes that into a
`releaseConfigPayload`, and `Deploy` of `runtime/internal/reconciler/kube_runner.go` builds the container from the claimed
workload. The database keeps of `config_json` what the decoder reads.
-/

namespace HamiCloud

/-- What is stored in a `JSON` column; an object is the list of its members. -/
inductive JsonValue
  | null
  | number (n : Int)
  | string (s : String)
  | object (members : List (String × JsonValue))

abbrev JsonObject := List (String × JsonValue)

/-- A `DeployReleaseRequest` that has passed its schema; a dict is the list of its items. -/
structure DeployPayload where
  imageDigest : String
  port : Nat
  healthPath : String
  envVars : List (String × String)
  cpuLimit : String
  memoryLimit : String
  imageDigest_length : 5 ≤ imageDigest.length
  port_range : 1 ≤ port ∧ port ≤ 65535
  envVars_keys : (envVars.map Prod.fst).Nodup

/-- `config_data` of `deploy_release`. -/
def DeployPayload.configData (p : DeployPayload) : JsonObject :=
  [("port", .number p.port), ("health_path", .string p.healthPath),
    ("env_vars", .object (p.envVars.map fun (name, value) => (name, .string value))),
    ("cpu_limit", .string p.cpuLimit), ("memory_limit", .string p.memoryLimit)]

structure ReleaseConfigPayload where
  port : Option Int
  healthPath : String

/-- A value for a field of type `*int`. -/
def unmarshalInt : JsonValue → Option (Option Int)
  | .null => some none
  | .number n => if -2 ^ 63 ≤ n ∧ n < 2 ^ 63 then some (some n) else none
  | .string _ => none
  | .object _ => none

/-- A value for a field of type `string`; `null` leaves the field as it is. -/
def unmarshalString (old : String) : JsonValue → Option String
  | .null => some old
  | .number _ => none
  | .string s => some s
  | .object _ => none

/-- A member of the object, for the field whose name it has up to case; no other member is looked at. -/
def ReleaseConfigPayload.setMember (cfg : ReleaseConfigPayload) (name : String) (value : JsonValue) :
    Option ReleaseConfigPayload :=
  if name.toLower = "port" then (unmarshalInt value).map fun port => { cfg with port := port }
  else if name.toLower = "health_path" then
    (unmarshalString cfg.healthPath value).map fun healthPath => { cfg with healthPath := healthPath }
  else some cfg

/-- `json.Unmarshal` into an empty `releaseConfigPayload`; a value of another type than its field is an error. -/
def unmarshalConfig (raw : JsonObject) : Option ReleaseConfigPayload :=
  raw.foldlM (fun cfg (name, value) => cfg.setMember name value) ⟨none, ""⟩

/-- What `ClaimNextServiceRelease` has of `config_json` before it puts its defaults, which stand for a port that is
not positive and an empty path. -/
def releaseConfig (raw : JsonObject) : ReleaseConfig :=
  match unmarshalConfig raw with
  | none => ⟨0, ""⟩
  | some cfg => ⟨(cfg.port.getD 0).toNat, cfg.healthPath⟩

/-- The request as the handler stores it. -/
def DeployPayload.request (p : DeployPayload) : DeployReleaseRequest := ⟨p.imageDigest, releaseConfig p.configData⟩

structure ContainerPort where
  name : String
  containerPort : Int
  deriving DecidableEq

structure ReadinessProbe where
  path : String
  port : Int
  initialDelaySeconds : Nat
  periodSeconds : Nat
  timeoutSeconds : Nat
  failureThreshold : Nat
  deriving DecidableEq

/-- The fields of `corev1.Container` that a deployment request can be about. -/
structure Container where
  name : String
  image : String
  ports : List ContainerPort
  readinessProbe : Option ReadinessProbe
  /-- `Env`, by name -/
  env : List (String × String)
  /-- `Resources.Limits`, by resource -/
  limits : List (String × String)
  deriving DecidableEq

/-- The conversion `int32(n)`. -/
def int32 (n : Nat) : Int := (BitVec.ofNat 32 n).toInt

/-- The path of a request with a leading `/`. -/
def withLeadingSlash (path : String) : String := if path.startsWith "/" then path else "/" ++ path

/-- The container of `Deploy`; `Env` and `Resources` are not set. -/
def deployContainer (applicationSlug : String) (wl : ClaimedWorkload) : Container :=
  let port := if int32 wl.port ≤ 0 then 8080 else int32 wl.port
  { name := sanitizeResourceName applicationSlug
    image := wl.imageDigest
    ports := [⟨"http", port⟩]
    readinessProbe := if wl.healthPath ≠ "" then some ⟨withLeadingSlash wl.healthPath, port, 2, 5, 2, 3⟩ else none
    env := []
    limits := [] }

end HamiCloud
