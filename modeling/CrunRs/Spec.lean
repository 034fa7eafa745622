import CrunRs.Namespace

/-!
# The configuration of a bundle

`spec/config.rs`: what `config.json` says, as far as running a container reads it.  How the file is
read is left to the callers, which get the configuration or an error; what `validate` accepts is the
subject of `CrunRs.Spec.Validate`.
-/

set_option autoImplicit false

namespace CrunRs

open State

structure ProcessUser where
  uid : UInt32 := 0
  gid : UInt32 := 0
  additionalGids : List UInt32 := []
  deriving DecidableEq, Repr

structure LinuxCapabilities where
  bounding : List String := []
  effective : List String := []
  inheritable : List String := []
  permitted : List String := []
  ambient : List String := []
  deriving DecidableEq, Repr

structure LinuxRlimit where
  rlimitType : String
  hard : UInt64
  soft : UInt64
  deriving DecidableEq, Repr

structure Process where
  args : List String
  env : List String := []
  cwd : Option String := none
  user : Option ProcessUser := none
  capabilities : Option LinuxCapabilities := none
  rlimits : List LinuxRlimit := []
  deriving DecidableEq, Repr

structure Root where
  path : String
  readonly : Bool := false
  deriving DecidableEq, Repr

structure Mount where
  destination : String
  source : Option String := none
  mountType : String
  options : List String := []
  deriving DecidableEq, Repr

/-- `LinuxResources`, with its memory, cpu and pids sections flattened. -/
structure LinuxResources where
  memoryLimit : Option Int := none
  cpuQuota : Option Int := none
  cpuPeriod : Option UInt64 := none
  pidsLimit : Option Int := none
  deriving DecidableEq, Repr

structure Linux where
  namespaces : List String := []
  resources : Option LinuxResources := none
  maskedPaths : List String := []
  readonlyPaths : List String := []
  deriving DecidableEq, Repr

structure Health.Healthcheck where
  test : List String := []
  interval : Option String := none
  timeout : Option String := none
  retries : Option UInt32 := none
  deriving DecidableEq, Repr

structure CrunOverlay where
  enabled : Bool := false
  lowerdir : Option String := none
  upperdir : String
  workdir : String
  mergeddir : String
  deriving DecidableEq, Repr

structure CrunConfig where
  profile : Option String := none
  overlay : Option CrunOverlay := none
  deriving DecidableEq, Repr

structure OciConfig where
  hostname : Option String := none
  process : Process
  root : Root
  mounts : List Mount := []
  healthcheck : Option Health.Healthcheck := none
  linux : Option Linux := none
  crun : Option CrunConfig := none
  deriving DecidableEq, Repr

/-- `validate_process_user` of `userns/mod.rs`: only root is mapped into a private namespace. -/
def validateProcessUser (mode : UserNamespaceMode) (processUser : Option ProcessUser) :
    Except LifecycleError Unit :=
  match mode, processUser with
  | .private_ _, some user =>
    if user.uid ≠ 0 ∨ user.gid ≠ 0 ∨ user.additionalGids ≠ [] then
      .error (.context ("private user namespace only supports OCI uid=0, gid=0 and no " ++
        "additionalGids because the runtime maps container root only"))
    else .ok ()
  | _, _ => .ok ()

/-- `UserNamespaceMode::as_str`. -/
def UserNamespaceMode.asStr : UserNamespaceMode → String
  | .host => "host"
  | .private_ _ => "private"

/-- The mapping a state records for a mode. -/
def UserNamespaceMode.map? : UserNamespaceMode → Option UserNamespaceMap
  | .host => none
  | .private_ map => some map

/-- `parse_userns_mode` of `main.rs`. -/
def parseUsernsMode (value : String) (persistedMap : Option UserNamespaceMap) :
    Except LifecycleError UserNamespaceMode :=
  if value = "host" then .ok .host
  else if value = "private" then match persistedMap with
    | some map => .ok (.private_ map)
    | none => .error (.context ("private user namespace state has no persisted UID/GID mapping; " ++
        "recreate the container"))
  else .error (.context ("invalid user namespace mode in state: " ++ value))

@[simp] theorem parseUsernsMode_asStr (mode : UserNamespaceMode) :
    parseUsernsMode mode.asStr mode.map? = .ok mode := by
  cases mode <;> rfl

end CrunRs
