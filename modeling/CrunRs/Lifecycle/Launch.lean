import CrunRs.Lifecycle.Run
import CrunRs.Policy
import CrunRs.Seccomp.Options

/-!
# Launching a container

The three commands of `main.rs` that lead to a container process: `run`, and `create` followed by
`start`.  All of them end in `run_container_process`, which turns the options and the bundle into
what `run_process` is given.

`run` has the options as they were typed.  `create` writes them down in the state, as strings, and
`start` parses them back.  What the state has no field for is lost (the capture file of learn mode),
what is not text comes back different (the paths), and what `create` wrote before it was made
effective stays as it was written (the network mode): `create_start_eq_run_iff` says which options
survive.
-/

set_option autoImplicit false

namespace CrunRs.Lifecycle

open Network State Seccomp

/-! ## The root filesystem -/

structure OverlayConfig where
  lowerdir : OsPath
  upperdir : OsPath
  workdir : OsPath
  mergeddir : OsPath
  deriving DecidableEq, Repr

inductive RootfsMode
  | direct
  | overlay
  deriving DecidableEq, Repr

/-- `RootfsMode::as_str`. -/
def RootfsMode.asStr : RootfsMode → String
  | .direct => "direct"
  | .overlay => "overlay"

structure ResolvedRootfs where
  path : OsPath
  overlayConfig : Option OverlayConfig
  mode : RootfsMode
  deriving DecidableEq, Repr

/-- `resolve_bundle_path`; an absolute path replaces the bundle in `join`, too. -/
def resolveBundlePath (bundle : OsPath) (path : String) : OsPath :=
  if (OsPath.ofString path).isAbsolute then .ofString path else bundle.join (.ofString path)

/-- `resolve_overlay_config`. -/
def resolveOverlayConfig (bundle : OsPath) (rootPath : String) (crun : Option CrunConfig) :
    Option OverlayConfig :=
  match crun.bind CrunConfig.overlay with
  | none => none
  | some overlay =>
    if !overlay.enabled then none
    else some {
      lowerdir := resolveBundlePath bundle (overlay.lowerdir.getD rootPath)
      upperdir := resolveBundlePath bundle overlay.upperdir
      workdir := resolveBundlePath bundle overlay.workdir
      mergeddir := resolveBundlePath bundle overlay.mergeddir }

/-- `resolve_rootfs`. -/
def resolveRootfs (bundle : OsPath) (rootPath : String) (crun : Option CrunConfig) :
    ResolvedRootfs :=
  let overlayConfig := resolveOverlayConfig bundle rootPath crun
  { path := resolveBundlePath bundle rootPath
    overlayConfig
    mode := if overlayConfig.isSome then .overlay else .direct }

/-! ## `run_container_process` up to the fork -/

/-- What the commands find on the machine: who runs them, the bundles, and the profiles.  All of them
are run in the same directory. -/
structure Machine where
  target : Target
  isRoot : Bool
  stdinIsTerminal : Bool
  /-- `load_config` of the `config.json` in a bundle. -/
  loadConfig : OsPath → Except LifecycleError OciConfig
  profiles : ProfileFiles

/-- `ProcessConfig`: what `run_process` is given. -/
structure ProcessConfig where
  id : String
  hostname : Option String
  args : List String
  env : List String
  cwd : Option String
  rootfs : OsPath
  overlayConfig : Option OverlayConfig
  readonlyRootfs : Bool
  mounts : List Mount
  processUser : Option ProcessUser
  rlimits : List LinuxRlimit
  maskedPaths : List String
  readonlyPaths : List String
  logPath : Option String
  flags : CloneFlags
  cgroupConfig : Option CgroupConfig
  networkMode : NetworkMode
  securityProfile : SecurityProfile
  usernsMode : UserNamespaceMode
  tty : Bool
  seccompMode : SeccompMode
  seccompProgram : Option Program
  seccompFlags : UInt64
  deriving DecidableEq, Repr

/-- `RunOptions`, and with `captureLogs` the `ContainerRunOptions` made of them. -/
structure RunOptions where
  id : String
  bundle : OsPath
  networkMode : NetworkMode
  securityProfile : SecurityProfile
  logMode : LogMode
  usernsMode : UserNamespaceMode
  tty : Bool
  seccomp : SeccompOptions
  deriving DecidableEq, Repr

/-- How a container is launched. -/
structure Launch where
  bundle : OsPath
  process : ProcessConfig
  logMode : LogMode
  seccomp : SeccompOptions
  deriving DecidableEq, Repr

/-- The policy of a bundle, applied to some options. -/
def effectivePolicy (config : OciConfig) (options : RunOptions) :
    Except LifecycleError EffectivePolicy :=
  (resolveEffectivePolicy config.crun (config.linux.bind Linux.resources) options.securityProfile
    options.logMode).mapError .policy

/-- The metadata of the options, as the states record it; the two callers differ in the network
mode. -/
def runtimeMetadata (m : Machine) (options : RunOptions) (networkMode : NetworkMode)
    (policy : EffectivePolicy) (rootfsMode : RootfsMode) : RuntimeMetadata where
  networkMode := networkMode.asStr
  securityProfile := policy.securityProfile.asStr
  logMode := policy.logMode.asStr
  usernsMode := options.usernsMode.asStr
  usernsMap := options.usernsMode.map?
  rootfsMode := rootfsMode.asStr
  policyProfile := policy.profile.asStr
  tty := options.tty
  seccompMode := options.seccomp.mode.asStr
  seccompProfile := options.seccomp.profilePath.map (OsPath.display m.profiles.lossy)
  seccompAction := some options.seccomp.action.asStr
  seccompOrder := options.seccomp.order.asStr
  seccompLog := options.seccomp.log

/-- The first half of `run_container_process`: how the container is launched, and what is recorded
of it. -/
def prepareLaunch (m : Machine) (options : RunOptions) (captureLogs : Bool) :
    Except LifecycleError (Launch × ContainerRun) := do
  let networkMode := options.networkMode.toEffective m.isRoot
  let config ← m.loadConfig options.bundle
  validateProcessUser options.usernsMode config.process.user
  let policy ← effectivePolicy config options
  let rootfs := resolveRootfs options.bundle config.root.path config.crun
  let namespaces := (config.linux.map Linux.namespaces).getD []
  let flags ← (effectiveNamespaceFlags namespaces networkMode options.usernsMode).mapError .context
  let compiledProfile ← prepare m.target m.profiles options.seccomp
  (validateId options.id).mapError .state
  let process : ProcessConfig :=
    { id := options.id
      hostname := config.hostname
      args := config.process.args
      env := config.process.env
      cwd := config.process.cwd
      rootfs := rootfs.path
      overlayConfig := rootfs.overlayConfig
      readonlyRootfs := config.root.readonly
      mounts := config.mounts
      processUser := config.process.user
      rlimits := config.process.rlimits
      maskedPaths := (config.linux.map Linux.maskedPaths).getD []
      readonlyPaths := (config.linux.map Linux.readonlyPaths).getD []
      logPath := if captureLogs then some (logFile options.id) else none
      flags
      cgroupConfig := policy.cgroupConfig
      networkMode
      securityProfile := policy.securityProfile
      usernsMode := options.usernsMode
      tty := options.tty
      seccompMode := options.seccomp.mode
      seccompProgram := compiledProfile.map CompiledProfile.program
      seccompFlags := options.seccomp.filterFlags }
  return (
    { bundle := options.bundle, process, logMode := policy.logMode, seccomp := options.seccomp },
    { id := options.id
      bundle := options.bundle.display m.profiles.lossy
      captureLogs
      metadata := runtimeMetadata m options networkMode policy rootfs.mode })

/-- `execute_container`, up to the save of the running state: `run_process` has started the process
and calls `on_started`. -/
def executeContainer (m : Machine) (options : RunOptions) (existing : Option ContainerState)
    (host : Host) (started : StartedProcess) : Except LifecycleError (Launch × ContainerState) := do
  let config ← m.loadConfig options.bundle
  let policy ← effectivePolicy config options
  let captureLogs := !options.tty && shouldCaptureLogs policy.logMode m.stdinIsTerminal
  let (launch, run) ← prepareLaunch m options captureLogs
  let state ← (startedState run host existing started).mapError .state
  return (launch, state)

/-! ## The commands -/

/-- `ensure_container_absent`. -/
def ensureContainerAbsent (id : String) (file : StateFile) : Except LifecycleError Unit := do
  (validateId id).mapError .state
  if file ≠ .missing then .error (.containerAlreadyExists id) else .ok ()

/-- `run`, when the audit log works. -/
def runContainer (m : Machine) (options : RunOptions) (file : StateFile) (host : Host)
    (started : StartedProcess) : Except LifecycleError (Launch × ContainerState) := do
  ensureContainerAbsent options.id file
  executeContainer m options none host started

/-- The state `create` saves. -/
def createdState (m : Machine) (options : RunOptions) (file : StateFile) (now : Option UInt64) :
    Except LifecycleError ContainerState := do
  ensureContainerAbsent options.id file
  let config ← m.loadConfig options.bundle
  validateProcessUser options.usernsMode config.process.user
  let policy ← effectivePolicy config options
  let rootfsMode := (resolveRootfs options.bundle config.root.path config.crun).mode
  (ContainerState.created now options.id (options.bundle.display m.profiles.lossy)
    (runtimeMetadata m options options.networkMode policy rootfsMode)).mapError .state

/-- `create`, when saving and the audit log work. -/
def create (m : Machine) (options : RunOptions) (file : StateFile) (now : Option UInt64) :
    Except LifecycleError StateFile := do
  let state ← createdState m options file now
  match saveTo {} file state with
  | (file, .ok ()) => .ok file
  | (_, .error e) => .error (.state e)

/-- `load_created`. -/
def loadCreated (id : String) (file : StateFile) (host : Host) :
    Except LifecycleError ContainerState := do
  let state ← (loadCurrentFrom host {} id file).result.mapError .state
  if state.status ≠ .created then .error (.containerNotCreated id) else .ok state

/-- `capture_file`. -/
def captureFile (id : String) : OsPath := .ofString ("/run/crun-rs/" ++ id ++ "/syscalls.json")

/-- The action of a state, as `seccomp_options_from_state` and `exec_seccomp_program` read it. -/
def recordedAction (state : ContainerState) : Except LifecycleError SeccompAction :=
  match state.seccompAction with
  | some action => (parseAction action).mapError .seccomp
  | none => .ok .errno

/-- `seccomp_options_from_state`: there is no capture file in a state. -/
def seccompOptionsFromState (state : ContainerState) : Except LifecycleError SeccompOptions := do
  let mode ← (parseMode state.seccompMode).mapError .seccomp
  let action ← recordedAction state
  (validateId state.id).mapError .state
  let order ← (parseOrder state.seccompOrder).mapError .seccomp
  (resolveOptions mode (state.seccompProfile.map OsPath.ofString) none action order state.seccompLog
    (captureFile state.id)).mapError .seccomp

/-- The options `start` reads from a state. -/
def optionsFromState (state : ContainerState) : Except LifecycleError RunOptions := do
  if state.schemaVersion ≠ stateSchemaVersion then
    .error (.context ("container state schema " ++ toString state.schemaVersion.toNat ++
      " cannot be started by this runtime; recreate the container"))
  let seccomp ← seccompOptionsFromState state
  let networkMode ← (parseNetworkMode state.networkMode).mapError .mode
  let securityProfile ← (parseSecurityProfile state.securityProfile).mapError .mode
  let logMode ← (parseLogMode state.logMode).mapError .mode
  let usernsMode ← parseUsernsMode state.usernsMode state.usernsMap
  return {
    id := state.id, bundle := .ofString state.bundle, networkMode, securityProfile, logMode,
    usernsMode, tty := state.tty, seccomp }

/-- `start`. -/
def startContainer (m : Machine) (id : String) (file : StateFile) (loadHost host : Host)
    (started : StartedProcess) : Except LifecycleError (Launch × ContainerState) := do
  let state ← loadCreated id file loadHost
  let options ← optionsFromState state
  executeContainer m options (some state) host started

/-- `create`, and then `start`. -/
def createThenStart (m : Machine) (options : RunOptions) (createdAt : Option UInt64)
    (loadHost host : Host) (started : StartedProcess) :
    Except LifecycleError (Launch × ContainerState) := do
  let file ← create m options .missing createdAt
  startContainer m options.id file loadHost host started

/-! ## What a launch is made of -/

variable {m : Machine} {options : RunOptions}

theorem effectivePolicy_idem {config : OciConfig} {policy : EffectivePolicy}
    (h : effectivePolicy config options = .ok policy) :
    effectivePolicy config
        { options with securityProfile := policy.securityProfile, logMode := policy.logMode } =
      .ok policy := by
  rw [effectivePolicy, Fallible.mapError_eq_ok_iff] at h ⊢
  exact resolveEffectivePolicy_idem h

/-- A launch does not see the modes the policy was applied to, only the policy. -/
theorem executeContainer_congr {config : OciConfig} {policy : EffectivePolicy}
    (hconfig : m.loadConfig options.bundle = .ok config)
    (hpolicy : effectivePolicy config options = .ok policy) (existing : Option ContainerState)
    (host : Host) (started : StartedProcess) :
    executeContainer m
        { options with securityProfile := policy.securityProfile, logMode := policy.logMode }
        existing host started =
      executeContainer m options existing host started := by
  have hagain := effectivePolicy_idem hpolicy
  simp only [executeContainer, prepareLaunch, hconfig, hpolicy, hagain, Fallible.ok_bind]
  rfl

/-- What a prepared launch and its record have of the options. -/
theorem prepareLaunch_eq_ok {captureLogs : Bool} {launch : Launch} {run : ContainerRun}
    (h : prepareLaunch m options captureLogs = .ok (launch, run)) :
    ∃ config policy, m.loadConfig options.bundle = .ok config ∧
      validateProcessUser options.usernsMode config.process.user = .ok () ∧
      effectivePolicy config options = .ok policy ∧ validateId options.id = .ok () ∧
      launch.bundle = options.bundle ∧ launch.seccomp = options.seccomp ∧
      run = { id := options.id, bundle := options.bundle.display m.profiles.lossy, captureLogs
              metadata := runtimeMetadata m options (options.networkMode.toEffective m.isRoot) policy
                (resolveRootfs options.bundle config.root.path config.crun).mode } := by
  obtain ⟨config, hconfig, h⟩ := Fallible.bind_eq_ok_iff.mp h
  obtain ⟨⟨⟩, huser, h⟩ := Fallible.bind_eq_ok_iff.mp h
  obtain ⟨policy, hpolicy, h⟩ := Fallible.bind_eq_ok_iff.mp h
  obtain ⟨flags, _, h⟩ := Fallible.bind_eq_ok_iff.mp h
  obtain ⟨compiled, _, h⟩ := Fallible.bind_eq_ok_iff.mp h
  obtain ⟨⟨⟩, hid, h⟩ := Fallible.bind_eq_ok_iff.mp h
  obtain ⟨hlaunch, hrun⟩ := Prod.mk.inj (Fallible.pure_eq_ok_iff.mp h)
  refine ⟨config, policy, hconfig, huser, hpolicy, Fallible.mapError_eq_ok_iff.mp hid, ?_, ?_,
    hrun.symm⟩
  · rw [← hlaunch]
  · rw [← hlaunch]

/-- A launch that works is a prepared one whose state was made. -/
theorem executeContainer_eq_ok_iff {existing : Option ContainerState} {host : Host}
    {started : StartedProcess} {launch : Launch} {state : ContainerState} :
    executeContainer m options existing host started = .ok (launch, state) ↔
      ∃ config policy run, m.loadConfig options.bundle = .ok config ∧
        effectivePolicy config options = .ok policy ∧
        prepareLaunch m options
          (!options.tty && shouldCaptureLogs policy.logMode m.stdinIsTerminal) = .ok (launch, run) ∧
        startedState run host existing started = .ok state := by
  constructor
  · intro h
    obtain ⟨config, hconfig, h⟩ := Fallible.bind_eq_ok_iff.mp h
    obtain ⟨policy, hpolicy, h⟩ := Fallible.bind_eq_ok_iff.mp h
    obtain ⟨⟨launch', run⟩, hprepare, h⟩ := Fallible.bind_eq_ok_iff.mp h
    obtain ⟨state', hstate, h⟩ := Fallible.bind_eq_ok_iff.mp h
    obtain ⟨rfl, rfl⟩ := Prod.mk.inj (Fallible.pure_eq_ok_iff.mp h)
    exact ⟨config, policy, run, hconfig, hpolicy, hprepare, Fallible.mapError_eq_ok_iff.mp hstate⟩
  · rintro ⟨config, policy, run, hconfig, hpolicy, hprepare, hstate⟩
    simp only [executeContainer, hconfig, hpolicy, hprepare, hstate, Fallible.ok_bind]
    rfl

/-! ## What comes back from a state -/

/-- A path after it was written down as text. -/
def rewritten (m : Machine) (path : OsPath) : OsPath := .ofString (path.display m.profiles.lossy)

/-- The options `start` has of the options `create` had. -/
def restored (m : Machine) (options : RunOptions) (policy : EffectivePolicy) : RunOptions :=
  { options with
    bundle := rewritten m options.bundle
    securityProfile := policy.securityProfile
    logMode := policy.logMode
    seccomp := { options.seccomp with
      profilePath := options.seccomp.profilePath.map (rewritten m)
      capturePath :=
        if options.seccomp.mode = .learn then some (captureFile options.id) else none } }

theorem seccompOptionsFromState_eq (hseccomp : options.seccomp.Resolved)
    (hid : validateId options.id = .ok ()) {state : ContainerState} (hstate : state.id = options.id)
    (hmode : state.seccompMode = options.seccomp.mode.asStr)
    (hprofile : state.seccompProfile =
      options.seccomp.profilePath.map (OsPath.display m.profiles.lossy))
    (haction : state.seccompAction = some options.seccomp.action.asStr)
    (horder : state.seccompOrder = options.seccomp.order.asStr)
    (hlog : state.seccompLog = options.seccomp.log) (policy : EffectivePolicy) :
    seccompOptionsFromState state = .ok (restored m options policy).seccomp := by
  have hpath : state.seccompProfile.map OsPath.ofString =
      options.seccomp.profilePath.map (rewritten m) := by
    rw [hprofile, Option.map_map]
    rfl
  have hresolved : { options.seccomp with
      profilePath := options.seccomp.profilePath.map (rewritten m) }.Resolved :=
    ⟨by simpa using hseccomp.profile, hseccomp.capture⟩
  have hagain := resolveOptions_idem hresolved (captureFile options.id)
  have hparsed : recordedAction state = .ok options.seccomp.action := by
    rw [recordedAction, haction]
    exact congrArg (Except.mapError LifecycleError.seccomp) (parseAction_asStr _)
  rw [seccompOptionsFromState, hmode, hparsed, horder, hstate, hid, hpath, hlog, parseMode_asStr,
    parseOrder_asStr]
  show (resolveOptions _ _ _ _ _ _ _).mapError _ = _
  rw [hagain]
  rfl

/-- What a created state holds of its metadata. -/
structure Records (metadata : RuntimeMetadata) (id bundle : String) (state : ContainerState) : Prop where
  status : state.status = .created
  schemaVersion : state.schemaVersion = stateSchemaVersion
  id : state.id = id
  bundle : state.bundle = bundle
  networkMode : state.networkMode = metadata.networkMode
  securityProfile : state.securityProfile = metadata.securityProfile
  logMode : state.logMode = metadata.logMode
  usernsMode : state.usernsMode = metadata.usernsMode
  usernsMap : state.usernsMap = metadata.usernsMap
  tty : state.tty = metadata.tty
  seccompMode : state.seccompMode = metadata.seccompMode
  seccompProfile : state.seccompProfile = metadata.seccompProfile
  seccompAction : state.seccompAction = metadata.seccompAction
  seccompOrder : state.seccompOrder = metadata.seccompOrder
  seccompLog : state.seccompLog = metadata.seccompLog

theorem records_created {now : Option UInt64} {id bundle : String} {metadata : RuntimeMetadata}
    {state : ContainerState} (h : ContainerState.created now id bundle metadata = .ok state) :
    Records metadata id bundle state := by
  obtain ⟨⟨⟩, _, h⟩ := Fallible.bind_eq_ok_iff.mp h
  obtain ⟨secs, _, h⟩ := Fallible.bind_eq_ok_iff.mp h
  obtain rfl := Fallible.pure_eq_ok_iff.mp h
  exact ⟨rfl, rfl, rfl, rfl, rfl, rfl, rfl, rfl, rfl, rfl, rfl, rfl, rfl, rfl, rfl⟩

/-- `start` parses what `create` wrote. -/
theorem optionsFromState_eq (hseccomp : options.seccomp.Resolved)
    (hid : validateId options.id = .ok ()) {policy : EffectivePolicy} {rootfsMode : RootfsMode}
    {state : ContainerState}
    (h : Records (runtimeMetadata m options options.networkMode policy rootfsMode) options.id
      (options.bundle.display m.profiles.lossy) state) :
    optionsFromState state = .ok (restored m options policy) := by
  have hparsed := seccompOptionsFromState_eq hseccomp hid h.id h.seccompMode h.seccompProfile
    h.seccompAction h.seccompOrder h.seccompLog policy
  have hnetwork : parseNetworkMode state.networkMode = .ok options.networkMode := by
    rw [h.networkMode]
    exact parseNetworkMode_asStr _
  have hsecurity : parseSecurityProfile state.securityProfile = .ok policy.securityProfile := by
    rw [h.securityProfile]
    exact parseSecurityProfile_asStr _
  have hlog : parseLogMode state.logMode = .ok policy.logMode := by
    rw [h.logMode]
    exact parseLogMode_asStr _
  have huserns : parseUsernsMode state.usernsMode state.usernsMap = .ok options.usernsMode := by
    rw [h.usernsMode, h.usernsMap]
    exact parseUsernsMode_asStr _
  rw [optionsFromState, if_neg (not_not.mpr h.schemaVersion), hparsed, hnetwork, hsecurity, hlog,
    huserns, h.id, h.bundle, h.tty]
  rfl

/-- The state `create` saves is the one `start` loads. -/
theorem loadCreated_stored {id : String} {state : ContainerState} (hid : validateId id = .ok ())
    (hstatus : state.status = .created) (host : Host) :
    loadCreated id (.stored state) host = .ok state := by
  have hrefresh : refreshLiveness host state = ⟨state, .ok false, []⟩ := by
    rw [refreshLiveness, if_pos (by rw [hstatus]; decide)]
  have hload : (loadCurrentFrom host {} id (.stored state)).result = .ok state := by
    rw [loadCurrentFrom, lockState, hid]
    simp only [Option.elim_none, loadFrom, hid, hrefresh, persistRefresh]
  rw [loadCreated, hload]
  exact if_neg (not_not.mpr hstatus)

/-- **`create` and `start` execute the restored options on the created state.** -/
theorem createThenStart_eq {config : OciConfig} {policy : EffectivePolicy}
    (hseccomp : options.seccomp.Resolved) (hconfig : m.loadConfig options.bundle = .ok config)
    (huser : validateProcessUser options.usernsMode config.process.user = .ok ())
    (hpolicy : effectivePolicy config options = .ok policy) (hid : validateId options.id = .ok ())
    (createdAt : UInt64) (loadHost host : Host) (started : StartedProcess) :
    ∃ created, ContainerState.created (some createdAt) options.id
        (options.bundle.display m.profiles.lossy)
        (runtimeMetadata m options options.networkMode policy
          (resolveRootfs options.bundle config.root.path config.crun).mode) = .ok created ∧
      createThenStart m options (some createdAt) loadHost host started =
        executeContainer m (restored m options policy) (some created) host started := by
  obtain ⟨created, hcreated⟩ : ∃ created, ContainerState.created (some createdAt) options.id
      (options.bundle.display m.profiles.lossy)
      (runtimeMetadata m options options.networkMode policy
        (resolveRootfs options.bundle config.root.path config.crun).mode) = .ok created := by
    rw [ContainerState.created, hid]
    exact ⟨_, rfl⟩
  have hrecords := records_created hcreated
  have hstate : createdState m options .missing (some createdAt) = .ok created := by
    simp only [createdState, ensureContainerAbsent, hid, hconfig, huser, hpolicy, hcreated,
      Except.mapError, Fallible.ok_bind, ne_eq, not_true_eq_false, if_false]
  have hsave : saveTo {} .missing created = (.stored created, .ok ()) := by
    have hvalid : validateId created.id = .ok () := by rw [hrecords.id, hid]
    rw [saveTo, lockState, hvalid]
    simp only [Option.elim_none, writeStateAtomic, hvalid]
  have hcreate : create m options .missing (some createdAt) = .ok (.stored created) := by
    rw [create, hstate, Fallible.ok_bind, hsave]
  refine ⟨created, hcreated, ?_⟩
  rw [createThenStart, hcreate, Fallible.ok_bind, startContainer,
    loadCreated_stored hid hrecords.status, Fallible.ok_bind,
    optionsFromState_eq hseccomp hid hrecords, Fallible.ok_bind]

/-! ## When `create` and `start` are a `run` -/

/-- Everything a state says, except which process it is about and when that was. -/
def withoutProcess (state : ContainerState) : ContainerState :=
  { state with pid := none, processStarttime := none, createdAtUnix := 0, updatedAtUnix := 0 }

/-- What is lost between `create` and `start`, or fails in `start` only, is not there. -/
structure StartsAsRun (m : Machine) (options : RunOptions) (createdAt : Option UInt64)
    (startHost : Host) (pid : Int) : Prop where
  bundle : options.bundle.IsUtf8
  profile : ∀ path, options.seccomp.profilePath = some path → path.IsUtf8
  capture : options.seccomp.mode = .learn →
    options.seccomp.capturePath = some (captureFile options.id)
  network : options.networkMode.toEffective m.isRoot = options.networkMode
  createClock : createdAt.isSome
  startClock : startHost.now.isSome
  identity : ∃ ticks, processStarttime startHost.proc pid = .ok ticks

theorem asStr_injective : Function.Injective NetworkMode.asStr := fun a b h ↦ by
  have hparse := congrArg parseNetworkMode h
  rw [parseNetworkMode_asStr, parseNetworkMode_asStr] at hparse
  exact Except.ok.inj hparse

theorem map_rewritten_eq_iff {path : Option OsPath} :
    path.map (rewritten m) = path ↔ ∀ p, path = some p → p.IsUtf8 := by
  cases path with
  | none => simp
  | some p => simpa [rewritten] using OsPath.ofString_display_iff

/-- The options survive exactly if the paths are text and the capture file is the default one. -/
theorem restored_eq_iff (hseccomp : options.seccomp.Resolved) (policy : EffectivePolicy) :
    restored m options policy =
        { options with securityProfile := policy.securityProfile, logMode := policy.logMode } ↔
      options.bundle.IsUtf8 ∧ (∀ path, options.seccomp.profilePath = some path → path.IsUtf8) ∧
        (options.seccomp.mode = .learn →
          options.seccomp.capturePath = some (captureFile options.id)) := by
  have hcapture : (if options.seccomp.mode = .learn then some (captureFile options.id) else none) =
      options.seccomp.capturePath ↔
      (options.seccomp.mode = .learn →
        options.seccomp.capturePath = some (captureFile options.id)) := by
    by_cases hlearn : options.seccomp.mode = .learn
    · rw [if_pos hlearn]
      exact ⟨fun h _ ↦ h.symm, fun h ↦ (h hlearn).symm⟩
    · have hnone : options.seccomp.capturePath = none := by
        rw [← Option.not_isSome_iff_eq_none, hseccomp.capture]
        exact hlearn
      rw [if_neg hlearn, hnone]
      exact ⟨fun _ h ↦ absurd h hlearn, fun _ ↦ rfl⟩
  have hbundle : rewritten m options.bundle = options.bundle ↔ options.bundle.IsUtf8 :=
    OsPath.ofString_display_iff
  rw [← hcapture, ← map_rewritten_eq_iff (m := m), ← hbundle, restored]
  simp only [RunOptions.mk.injEq, true_and]
  refine and_congr_right fun _ ↦ ?_
  obtain ⟨mode, profile, capture, action, order, log⟩ := options.seccomp
  simp only [SeccompOptions.mk.injEq, true_and, and_true]

/-- The state of a created container, marked running, against the state of a new one. -/
theorem startedState_created_iff {run : ContainerRun} {metadata : RuntimeMetadata}
    {createdAt : Option UInt64} {created state : ContainerState} {host startHost : Host}
    {started : StartedProcess} {pid : Int} {networkMode : String}
    (hcreated : ContainerState.created createdAt run.id run.bundle metadata = .ok created)
    (hmetadata : run.metadata = { metadata with networkMode })
    (hstate : startedState run host none started = .ok state) :
    (∃ state', startedState run startHost (some created) { started with pid } = .ok state' ∧
        withoutProcess state' = withoutProcess state) ↔
      networkMode = metadata.networkMode ∧ startHost.now.isSome ∧
        ∃ ticks, processStarttime startHost.proc pid = .ok ticks := by
  obtain ⟨id, bundle, captureLogs, runMetadata⟩ := run
  obtain rfl : runMetadata = _ := hmetadata
  obtain ⟨⟨⟩, _, hcreated⟩ := Fallible.bind_eq_ok_iff.mp hcreated
  obtain ⟨secs, _, hcreated⟩ := Fallible.bind_eq_ok_iff.mp hcreated
  obtain rfl := Fallible.pure_eq_ok_iff.mp hcreated
  obtain ⟨fresh, hfresh, hstate⟩ := Fallible.bind_eq_ok_iff.mp hstate
  obtain ⟨⟨⟩, _, hfresh⟩ := Fallible.bind_eq_ok_iff.mp hfresh
  obtain ⟨secs', _, hfresh⟩ := Fallible.bind_eq_ok_iff.mp hfresh
  obtain rfl := Fallible.pure_eq_ok_iff.mp hfresh
  obtain rfl := Fallible.pure_eq_ok_iff.mp hstate
  rw [startedState]
  cases hticks : processStarttime startHost.proc pid with
  | error e => simp [ContainerState.markRunning]
  | ok ticks =>
    cases hnow : startHost.now with
    | none => simp [ContainerState.markRunning, unixTimestamp]
    | some now =>
      simp only [ContainerState.markRunning, unixTimestamp, withoutProcess, Except.ok.injEq,
        exists_eq_left', ContainerState.mk.injEq, true_and, and_true, Option.isSome_some,
        ContainerRun.resources, exists_eq']
      exact eq_comm

/-- Without a clock nothing is created. -/
theorem createThenStart_none (loadHost host : Host) (started : StartedProcess)
    (result : Launch × ContainerState) :
    createThenStart m options none loadHost host started ≠ .ok result := by
  intro h
  obtain ⟨file, hfile, _⟩ := Fallible.bind_eq_ok_iff.mp h
  obtain ⟨state, hstate, _⟩ := Fallible.bind_eq_ok_iff.mp hfile
  obtain ⟨_, _, hstate⟩ := Fallible.bind_eq_ok_iff.mp hstate
  obtain ⟨_, _, hstate⟩ := Fallible.bind_eq_ok_iff.mp hstate
  obtain ⟨_, _, hstate⟩ := Fallible.bind_eq_ok_iff.mp hstate
  obtain ⟨_, _, hstate⟩ := Fallible.bind_eq_ok_iff.mp hstate
  obtain ⟨_, _, hclock⟩ := Fallible.bind_eq_ok_iff.mp (Fallible.mapError_eq_ok_iff.mp hstate)
  obtain ⟨_, hsecs, _⟩ := Fallible.bind_eq_ok_iff.mp hclock
  simp [unixTimestamp] at hsecs

/-- On options that survived, `start` prepares what `run` prepared, and only the two states may
differ. -/
theorem executeContainer_restored_iff {config : OciConfig} {policy : EffectivePolicy}
    {captureLogs : Bool} {launch : Launch} {run : ContainerRun} {created : ContainerState}
    {startHost : Host} {started : StartedProcess} {P : ContainerState → Prop}
    (hconfig : m.loadConfig options.bundle = .ok config)
    (hpolicy : effectivePolicy config options = .ok policy)
    (hcapture : captureLogs = (!options.tty && shouldCaptureLogs policy.logMode m.stdinIsTerminal))
    (hprepare : prepareLaunch m options captureLogs = .ok (launch, run))
    (hsame : restored m options policy =
      { options with securityProfile := policy.securityProfile, logMode := policy.logMode }) :
    (∃ state, executeContainer m (restored m options policy) (some created) startHost started =
        .ok (launch, state) ∧ P state) ↔
      ∃ state, startedState run startHost (some created) started = .ok state ∧ P state := by
  rw [hsame, executeContainer_congr hconfig hpolicy]
  refine exists_congr fun state ↦ and_congr_left fun _ ↦ ?_
  rw [executeContainer_eq_ok_iff]
  constructor
  · rintro ⟨config', policy', run', hconfig', hpolicy', hprepare', hstate⟩
    obtain rfl := Except.ok.inj (hconfig.symm.trans hconfig')
    obtain rfl := Except.ok.inj (hpolicy.symm.trans hpolicy')
    rw [← hcapture, hprepare] at hprepare'
    obtain rfl := (Prod.mk.inj (Except.ok.inj hprepare')).2
    exact hstate
  · intro hstate
    exact ⟨config, policy, run, hconfig, hpolicy, hcapture ▸ hprepare, hstate⟩

/-- Options that did not survive are seen in the launch. -/
theorem restored_eq_of_launch {policy : EffectivePolicy} {captureLogs captureLogs' : Bool}
    {launch : Launch} {run run' : ContainerRun}
    (hprepare : prepareLaunch m options captureLogs = .ok (launch, run))
    (hprepare' : prepareLaunch m (restored m options policy) captureLogs' = .ok (launch, run')) :
    restored m options policy =
      { options with securityProfile := policy.securityProfile, logMode := policy.logMode } := by
  obtain ⟨_, _, _, _, _, _, hbundle, hseccomp, _⟩ := prepareLaunch_eq_ok hprepare
  obtain ⟨_, _, _, _, _, _, hbundle', hseccomp', _⟩ := prepareLaunch_eq_ok hprepare'
  have hsameBundle : rewritten m options.bundle = options.bundle := hbundle'.symm.trans hbundle
  have hsameSeccomp : (restored m options policy).seccomp = options.seccomp :=
    hseccomp'.symm.trans hseccomp
  rw [← hsameSeccomp]
  simp only [restored, hsameBundle]

/-- **`create` and then `start` against `run`.**  Where `run` starts a container, `create` and `start`
launch it the same way and save the same state, times and process aside, exactly if the paths among
its options are text, the capture file of learn mode is the default one, the network mode is
effective as it stands, and the clock and the identity of the process can be read. -/
theorem create_start_eq_run_iff {mode : SeccompMode} {profilePath capturePath : Option OsPath}
    {action : SeccompAction} {order : SyscallOrder} {log : Bool}
    (hseccomp : resolveOptions mode profilePath capturePath action order log
      (captureFile options.id) = .ok options.seccomp)
    {host : Host} {started : StartedProcess} {launch : Launch} {state : ContainerState}
    (hrun : runContainer m options .missing host started = .ok (launch, state))
    (createdAt : Option UInt64) (loadHost startHost : Host) (pid : Int) :
    (∃ state', createThenStart m options createdAt loadHost startHost { started with pid } =
        .ok (launch, state') ∧ withoutProcess state' = withoutProcess state) ↔
      StartsAsRun m options createdAt startHost pid := by
  have hresolved : options.seccomp.Resolved := (resolved_of_resolveOptions hseccomp).1
  obtain ⟨⟨⟩, _, hrun⟩ := Fallible.bind_eq_ok_iff.mp hrun
  obtain ⟨config, policy, run, hconfig, hpolicy, hprepare, hstate⟩ :=
    executeContainer_eq_ok_iff.mp hrun
  obtain ⟨config', policy', hconfig', huser, hpolicy', hid, hbundle, hlaunch, hrecord⟩ :=
    prepareLaunch_eq_ok hprepare
  obtain rfl := Except.ok.inj (hconfig.symm.trans hconfig')
  obtain rfl := Except.ok.inj (hpolicy.symm.trans hpolicy')
  cases createdAt with
  | none =>
    constructor
    · rintro ⟨state', h, _⟩
      exact absurd h (createThenStart_none _ _ _ _)
    · intro h
      exact absurd h.createClock (by simp)
  | some createdAt =>
    obtain ⟨created, hcreated, heq⟩ := createThenStart_eq hresolved hconfig huser hpolicy hid
      createdAt loadHost startHost { started with pid }
    have hstates : (∃ state', startedState run startHost (some created) { started with pid } =
        .ok state' ∧ withoutProcess state' = withoutProcess state) ↔
        options.networkMode.toEffective m.isRoot = options.networkMode ∧ startHost.now.isSome ∧
          ∃ ticks, processStarttime startHost.proc pid = .ok ticks := by
      have hmetadata : run.metadata = { runtimeMetadata m options options.networkMode policy
          (resolveRootfs options.bundle config.root.path config.crun).mode with
          networkMode := (options.networkMode.toEffective m.isRoot).asStr } := by
        rw [hrecord]
        rfl
      have hcreated' : ContainerState.created (some createdAt) run.id run.bundle
          (runtimeMetadata m options options.networkMode policy
            (resolveRootfs options.bundle config.root.path config.crun).mode) = .ok created := by
        rw [hrecord]
        exact hcreated
      rw [startedState_created_iff hcreated' hmetadata hstate]
      exact and_congr_left fun _ ↦ asStr_injective.eq_iff
    rw [heq]
    constructor
    · rintro ⟨state', hexec, hsettled⟩
      obtain ⟨_, _, run', _, _, hprepare', _⟩ := executeContainer_eq_ok_iff.mp hexec
      have hsame := restored_eq_of_launch hprepare hprepare'
      obtain ⟨hutf8, hprofile, hcapture⟩ := (restored_eq_iff hresolved policy).mp hsame
      obtain ⟨hnetwork, hclock, hidentity⟩ := hstates.mp
        ((executeContainer_restored_iff hconfig hpolicy rfl hprepare hsame).mp
          ⟨state', hexec, hsettled⟩)
      exact ⟨hutf8, hprofile, hcapture, hnetwork, rfl, hclock, hidentity⟩
    · intro h
      have hsame := (restored_eq_iff (m := m) hresolved policy).mpr ⟨h.bundle, h.profile, h.capture⟩
      exact (executeContainer_restored_iff hconfig hpolicy rfl hprepare hsame).mpr
        (hstates.mpr ⟨h.network, h.startClock, h.identity⟩)

/-! ## A container that is learned -/

/-- Root on a machine where every bundle runs `true` and there are no profiles. -/
def sampleMachine : Machine where
  target := .x86_64
  isRoot := true
  stdinIsTerminal := false
  loadConfig := fun _ ↦ .ok { process := { args := ["/bin/true"] }, root := { path := "rootfs" } }
  profiles := { read := fun _ ↦ .unreadable, lossy := fun _ ↦ "?" }

/-- Learn mode, with the capture in the given file. -/
def sampleOptions (capture : OsPath) : RunOptions where
  id := "demo"
  bundle := .ofString "/bundle"
  networkMode := .none
  securityProfile := .denylist
  logMode := .off
  usernsMode := .host
  tty := false
  seccomp :=
    { mode := .learn, profilePath := none, capturePath := some capture, action := .errno
      order := .byFrequency, log := false }

theorem runContainer_sample (capture : OsPath) :
    ∃ launch state, runContainer sampleMachine (sampleOptions capture) .missing bareHost
        sampleStarted = .ok (launch, state) ∧
      launch.seccomp.capturePath = some capture :=
  ⟨_, _, rfl, rfl⟩

theorem createThenStart_sample (capture : OsPath) :
    ∃ launch state, createThenStart sampleMachine (sampleOptions capture) (some 1000)
        bareHost bareHost sampleStarted = .ok (launch, state) ∧
      launch.seccomp.capturePath = some (captureFile "demo") := by
  have hresolved : (sampleOptions capture).seccomp.Resolved :=
    ⟨by simp [sampleOptions], by simp [sampleOptions]⟩
  obtain ⟨created, _, heq⟩ := createThenStart_eq (m := sampleMachine) hresolved rfl rfl rfl rfl 1000
    bareHost bareHost sampleStarted
  obtain ⟨launch, run, hprepare⟩ : ∃ launch run, prepareLaunch sampleMachine
      (restored sampleMachine (sampleOptions capture) ⟨.none, .denylist, .off, none⟩) false =
        .ok (launch, run) := ⟨_, _, rfl⟩
  obtain ⟨state, hstate⟩ : ∃ state, startedState run bareHost (some created)
      sampleStarted = .ok state := by
    simp only [startedState, sampleStarted, processStarttime_bare, ContainerState.markRunning]
    exact ⟨_, rfl⟩
  obtain ⟨_, _, _, _, _, _, _, hseccomp, _⟩ := prepareLaunch_eq_ok hprepare
  refine ⟨launch, state, heq.trans (executeContainer_eq_ok_iff.mpr
    ⟨_, _, run, rfl, rfl, hprepare, hstate⟩), ?_⟩
  rw [hseccomp]
  rfl

/-- `create --seccomp learn --seccomp-out /tmp/calls.json`: `start` writes the capture elsewhere. -/
theorem learn_capture_is_lost :
    (∃ launch state, runContainer sampleMachine (sampleOptions (.ofString "/tmp/calls.json"))
        .missing bareHost sampleStarted = .ok (launch, state) ∧
      launch.seccomp.capturePath = some (.ofString "/tmp/calls.json")) ∧
    (∃ launch state, createThenStart sampleMachine (sampleOptions (.ofString "/tmp/calls.json"))
        (some 1000) bareHost bareHost sampleStarted = .ok (launch, state) ∧
      launch.seccomp.capturePath = some (captureFile "demo")) ∧
    captureFile "demo" ≠ .ofString "/tmp/calls.json" :=
  ⟨runContainer_sample _, createThenStart_sample _, by decide +kernel⟩

/-- With the default file the two are the same. -/
theorem create_start_eq_run_learn :
    ∃ launch state, runContainer sampleMachine (sampleOptions (captureFile "demo")) .missing
        bareHost sampleStarted = .ok (launch, state) ∧
      ∃ state', createThenStart sampleMachine (sampleOptions (captureFile "demo")) (some 1000)
          bareHost bareHost { sampleStarted with pid := 42 } =
            .ok (launch, state') ∧
        withoutProcess state' = withoutProcess state := by
  obtain ⟨launch, state, hrun, _⟩ := runContainer_sample (captureFile "demo")
  have hresolved : resolveOptions .learn none none .errno .byFrequency false (captureFile "demo") =
      .ok (sampleOptions (captureFile "demo")).seccomp := rfl
  have hiff := @create_start_eq_run_iff sampleMachine (sampleOptions (captureFile "demo"))
    _ _ _ _ _ _ hresolved _ _ _ _ hrun (some 1000) bareHost bareHost 42
  refine ⟨launch, state, hrun, hiff.mpr ?_⟩
  exact {
    bundle := OsPath.isUtf8_ofString _
    profile := fun path h ↦ by simp [sampleOptions] at h
    capture := fun _ ↦ rfl
    network := rfl
    createClock := rfl
    startClock := rfl
    identity := ⟨_, processStarttime_bare⟩ }

end CrunRs.Lifecycle
