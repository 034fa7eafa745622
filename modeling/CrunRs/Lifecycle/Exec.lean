import CrunRs.Lifecycle.Launch
import CrunRs.Security

/-!
# Executing a command in a container

`lifecycle::exec`, with `exec_command` of `container_exec.rs` and `security::apply`.

Seccomp filters are not inherited through `setns`, so `exec` has to install the filter of the
container itself.  The main process got its filter from the options it was started with; `exec` has
only the strings of the state, and code of its own to read them.  `exec_confined_as_main` says that
the two agree: what a saved state records of the options (`Recorded`) is enough to compile the same
program, and a state without a profile is never one of enforce mode.
-/

set_option autoImplicit false

namespace CrunRs.Lifecycle.Exec

open State Seccomp

/-! ## `security::apply` -/

inductive SecurityStep
  | setNoNewPrivs
  | dropCapabilities
  | traceme
  | raiseStop
  | install (program : Program) (flags : UInt64)
  deriving DecidableEq

/-- A call to the outside whose error is passed on. -/
def call {σ : Type} (fails : σ → Option LifecycleError) (step : σ) : Except LifecycleError Unit :=
  match fails step with
  | some e => .error e
  | none => .ok ()

/-- A call to the outside, with the context its error is given. -/
def attempt {σ : Type} (fails : σ → Option LifecycleError) (step : σ) (context : String) :
    Except LifecycleError Unit :=
  (call fails step).mapError fun _ ↦ .context context

/-- The part of `apply` that is about the profile: the filters it installs. -/
def applyProfile (t : Target) (fails : SecurityStep → Option LifecycleError) :
    SecurityProfile → Except LifecycleError (List (Program × UInt64))
  | .unconfined => .ok []
  | .denylist => do
    attempt fails .dropCapabilities "failed to drop capabilities for denylist security profile"
    let program ← (Security.seccompDenylistFilter t).mapError .seccomp
    attempt fails (.install program 0)
      "failed to install seccomp filter for denylist security profile"
    return [(program, 0)]

/-- The part of `apply` that is about the plan. -/
def applyPlan (t : Target) (fails : SecurityStep → Option LifecycleError) :
    SeccompPlan → Except LifecycleError (List (Program × UInt64))
  | .none => .ok []
  | .learn => do
    attempt fails .traceme "failed to enable tracing for seccomp learn mode"
    attempt fails .raiseStop "failed to stop for the seccomp tracer"
    let program ← (learnFilter t).mapError .seccomp
    attempt fails (.install program 0) "failed to install the seccomp trace filter"
    return [(program, 0)]
  | .enforce program flags => do
    attempt fails (.install program flags) "failed to install the seccomp allowlist"
    return [(program, flags)]

/-- `security::apply`: the filters in force when it returns. -/
def apply (t : Target) (fails : SecurityStep → Option LifecycleError) (profile : SecurityProfile)
    (plan : SeccompPlan) : Except LifecycleError (List (Program × UInt64)) := do
  if profile = .denylist ∨ plan ≠ .none then
    attempt fails .setNoNewPrivs "failed to enable no_new_privs"
  let ofProfile ← applyProfile t fails profile
  let ofPlan ← applyPlan t fails plan
  return ofProfile ++ ofPlan

/-! ## `exec` -/

/-- `exec_seccomp_program`. -/
def execSeccompProgram (t : Target) (files : ProfileFiles) (state : ContainerState) :
    Except LifecycleError (Option CompiledProfile) :=
  match state.seccompProfile with
  | none => .ok none
  | some path =>
    if state.seccompMode ≠ "enforce" then .ok none
    else do
      let action ← recordedAction state
      let profile ← SeccompProfile.load files (.ofString path)
      let order ← (parseOrder state.seccompOrder).mapError .seccomp
      let compiled ← (compile t profile { defaultAction := action, order }).mapError .seccomp
      return some compiled

/-- The flags `exec` installs the program with. -/
def execFlags (state : ContainerState) : UInt64 :=
  if state.seccompLog then seccompFilterFlagLog else 0

/-- `ExecConfig`. -/
structure ExecConfig where
  targetPid : Int
  targetStarttime : Option UInt64
  args : List String
  env : List String
  cwd : Option String
  processUser : Option ProcessUser
  privateUserns : Bool
  securityProfile : SecurityProfile
  cgroupPath : Option String
  tty : Bool
  seccompProgram : Option Program
  seccompFlags : UInt64

/-- The pid of a state, or the error `exec` ends with. -/
def pidOf (id : String) (state : ContainerState) : Except LifecycleError Int :=
  match state.pid with
  | some pid => .ok pid
  | none => .error (.containerHasNoPid id)

/-- The first half of `exec`. -/
def execConfig (m : Machine) (host : Host) (id : String) (file : StateFile) (args : List String)
    (tty : Bool) : Except LifecycleError ExecConfig := do
  let state ← (loadCurrentFrom host {} id file).result.mapError .state
  Fallible.ensure (state.status = .running) (.containerNotRunning id)
  let pid ← pidOf id state
  let config ← m.loadConfig (.ofString state.bundle)
  let compiled ← execSeccompProgram m.target m.profiles state
  let securityProfile ← (parseSecurityProfile state.securityProfile).mapError .mode
  return {
    targetPid := pid
    targetStarttime := state.processStarttime
    args
    env := config.process.env
    cwd := config.process.cwd
    processUser := config.process.user
    privateUserns := state.usernsMode = "private"
    securityProfile
    cgroupPath := state.cgroupPath
    tty
    seccompProgram := compiled.map CompiledProfile.program
    seccompFlags := execFlags state }

/-- What the executed process asks of the outside before its `execvp`. -/
inductive ExecStep
  | forkHelper
  | openIdentity (pid : Int) (starttime : Option UInt64)
  | joinNamespaces (pid : Int)
  | forkProcess
  | controllingTerminal
  | chdir (cwd : String)
  | replaceEnvironment (env : List String)
  | applyProcessUser (user : Option ProcessUser) (privateUserns : Bool)
  | security (step : SecurityStep)
  deriving DecidableEq

/-- `exec_command`: the filters in force at its `execvp`. -/
def execCommand (t : Target) (fails : ExecStep → Option LifecycleError) (config : ExecConfig) :
    Except LifecycleError (List (Program × UInt64)) := do
  let cwd := config.cwd.getD "/"
  attempt fails (.chdir cwd) ("failed to chdir to container cwd: " ++ cwd)
  call fails (.replaceEnvironment config.env)
  call fails (.applyProcessUser config.processUser config.privateUserns)
  Fallible.ensure (¬ config.args.head?.any (·.contains '\x00')) (.context "invalid exec command")
  Fallible.ensure (¬ config.args.any (·.contains '\x00')) (.context "invalid exec argument")
  apply t (fun step ↦ fails (.security step)) config.securityProfile
    (execPlan config.seccompProgram config.seccompFlags)

/-- `exec_in_container` and `run_namespace_helper`, as far as the executed process comes.  What the
parent does meanwhile, such as moving it to the cgroup, changes nothing about its filters. -/
def execInContainer (t : Target) (fails : ExecStep → Option LifecycleError) (config : ExecConfig) :
    Except LifecycleError (List (Program × UInt64)) := do
  Fallible.ensure (config.args ≠ []) (.container .emptyExecArgs)
  attempt fails .forkHelper "failed to fork exec namespace helper"
  call fails (.openIdentity config.targetPid config.targetStarttime)
  call fails (.joinNamespaces config.targetPid)
  attempt fails .forkProcess "failed to fork exec process"
  (if config.tty then call fails .controllingTerminal else .ok ())
  execCommand t fails config

/-- `exec`: the filters the command is executed with, or the error that keeps it from being
executed. -/
def exec (m : Machine) (fails : ExecStep → Option LifecycleError) (host : Host) (id : String)
    (file : StateFile) (args : List String) (tty : Bool) :
    Except LifecycleError (List (Program × UInt64)) := do
  let config ← execConfig m host id file args tty
  execInContainer m.target fails config

/-! ## What a state records of the options -/

/-- The seccomp strings of a state read back as these options. -/
structure Recorded (state : ContainerState) (options : SeccompOptions) : Prop where
  mode : parseMode state.seccompMode = .ok options.mode
  profile : state.seccompProfile.map OsPath.ofString = options.profilePath
  action : recordedAction state = .ok options.action
  order : parseOrder state.seccompOrder = .ok options.order
  log : state.seccompLog = options.log

variable {m : Machine} {options : RunOptions}

theorem recorded_of_seccompOptionsFromState {state : ContainerState} {seccomp : SeccompOptions}
    (h : seccompOptionsFromState state = .ok seccomp) : Recorded state seccomp := by
  obtain ⟨mode, hmode, h⟩ := Fallible.bind_eq_ok_iff.mp h
  obtain ⟨action, haction, h⟩ := Fallible.bind_eq_ok_iff.mp h
  obtain ⟨⟨⟩, _, h⟩ := Fallible.bind_eq_ok_iff.mp h
  obtain ⟨order, horder, h⟩ := Fallible.bind_eq_ok_iff.mp h
  obtain ⟨_, rfl, hprofile, rfl, rfl, hlog⟩ :=
    resolved_of_resolveOptions (Fallible.mapError_eq_ok_iff.mp h)
  exact ⟨Fallible.mapError_eq_ok_iff.mp hmode, hprofile.symm, haction,
    Fallible.mapError_eq_ok_iff.mp horder, hlog.symm⟩

theorem seccompOptionsFromState_of_optionsFromState {state : ContainerState}
    (h : optionsFromState state = .ok options) :
    seccompOptionsFromState state = .ok options.seccomp := by
  unfold optionsFromState at h
  split at h
  · obtain ⟨_, herror, _⟩ := Fallible.bind_eq_ok_iff.mp h
    simp at herror
  · obtain ⟨seccomp, hseccomp, h⟩ := Fallible.bind_eq_ok_iff.mp h
    obtain ⟨_, _, h⟩ := Fallible.bind_eq_ok_iff.mp h
    obtain ⟨_, _, h⟩ := Fallible.bind_eq_ok_iff.mp h
    obtain ⟨_, _, h⟩ := Fallible.bind_eq_ok_iff.mp h
    obtain ⟨_, _, h⟩ := Fallible.bind_eq_ok_iff.mp h
    rw [hseccomp, ← Fallible.pure_eq_ok_iff.mp h]

/-- Marking a state running keeps what it records. -/
theorem Recorded.markRunning {state new : ContainerState} {seccomp : SeccompOptions}
    (h : Recorded state seccomp) {now : Option UInt64} {starttime : Except StateError UInt64}
    {pid : Int} {resources : StartedResources} {logMode : String}
    (hmark : state.markRunning now starttime pid resources logMode = (new, .ok ())) :
    Recorded new seccomp := by
  unfold ContainerState.markRunning at hmark
  cases starttime with
  | error e => simp at hmark
  | ok ticks =>
    cases now with
    | none => simp [unixTimestamp] at hmark
    | some secs =>
      obtain rfl := (Prod.mk.inj hmark).1
      exact ⟨h.mode, h.profile, h.action, h.order, h.log⟩

/-- **What `run_container_process` saves records its options**: a new state because it is made of
them, and a created one because they were read from it. -/
theorem recorded_executeContainer
    (hutf8 : ∀ path, options.seccomp.profilePath = some path → path.IsUtf8)
    {existing : Option ContainerState}
    (hexisting : ∀ created, existing = some created → optionsFromState created = .ok options)
    {host : Host} {started : StartedProcess} {launch : Launch} {state : ContainerState}
    (h : executeContainer m options existing host started = .ok (launch, state)) :
    Recorded state options.seccomp := by
  obtain ⟨config, policy, run, _, _, hprepare, hstate⟩ := executeContainer_eq_ok_iff.mp h
  obtain ⟨_, _, _, _, _, _, _, _, hrun⟩ := prepareLaunch_eq_ok hprepare
  cases existing with
  | some created =>
    have hrecorded := recorded_of_seccompOptionsFromState
      (seccompOptionsFromState_of_optionsFromState (hexisting created rfl))
    rw [startedState] at hstate
    split at hstate
    · simp at hstate
    · rename_i hmark
      obtain rfl := Except.ok.inj hstate
      exact hrecorded.markRunning hmark
  | none =>
    obtain ⟨created, hcreated, hstate⟩ := Fallible.bind_eq_ok_iff.mp hstate
    have hrecords := records_created hcreated
    obtain rfl := Fallible.pure_eq_ok_iff.mp hstate
    have hprofile : (options.seccomp.profilePath.map (OsPath.display m.profiles.lossy)).map
        OsPath.ofString = options.seccomp.profilePath := by
      rw [Option.map_map]
      exact (map_rewritten_eq_iff (m := m)).mpr hutf8
    constructor
    · show parseMode created.seccompMode = _
      rw [hrecords.seccompMode, hrun]
      exact parseMode_asStr _
    · show created.seccompProfile.map _ = _
      rw [hrecords.seccompProfile, hrun]
      exact hprofile
    · show recordedAction created = _
      rw [recordedAction, hrecords.seccompAction, hrun]
      exact congrArg (Except.mapError LifecycleError.seccomp) (parseAction_asStr _)
    · show parseOrder created.seccompOrder = _
      rw [hrecords.seccompOrder, hrun]
      exact parseOrder_asStr _
    · show created.seccompLog = _
      rw [hrecords.seccompLog, hrun]
      rfl

/-! ## The main process and `exec` -/

/-- **`exec` compiles what the main process got.** -/
theorem execSeccompProgram_eq_prepare {t : Target} {files files' : ProfileFiles}
    {state : ContainerState} {options : SeccompOptions} (hresolved : options.Resolved)
    (h : Recorded state options)
    (hfiles : ∀ path, options.profilePath = some path → files'.read path = files.read path) :
    execSeccompProgram t files' state = prepare t files options := by
  have henforce := parseMode_eq_enforce h.mode
  have hprofile := h.profile
  cases htext : state.seccompProfile with
  | none =>
    rw [htext, Option.map_none] at hprofile
    have hmode : options.mode ≠ .enforce := by
      rw [ne_eq, ← hresolved.profile, ← hprofile]
      simp
    rw [execSeccompProgram, htext, prepare, if_pos hmode]
  | some text =>
    rw [htext, Option.map_some] at hprofile
    have hmode : options.mode = .enforce := by
      rw [← hresolved.profile, ← hprofile]
      rfl
    have hload : SeccompProfile.load files' (.ofString text) =
        SeccompProfile.load files (.ofString text) := by
      rw [SeccompProfile.load, SeccompProfile.load, hfiles _ hprofile.symm,
        OsPath.display_ofString, OsPath.display_ofString]
    simp only [execSeccompProgram, htext, prepare, henforce.mpr hmode, hmode, ← hprofile, ne_eq,
      not_true_eq_false, if_false, h.action, h.order, hload, loadAndCompile, Fallible.ok_bind,
      Except.mapError]

theorem execFlags_eq_filterFlags {state : ContainerState} {options : SeccompOptions}
    (h : Recorded state options) : execFlags state = options.filterFlags := by
  rw [execFlags, h.log, SeccompOptions.filterFlags]

/-- A plan to enforce a program is carried out, or an error ends the process. -/
theorem mem_apply {t : Target} {fails : SecurityStep → Option LifecycleError}
    {profile : SecurityProfile} {program : Program} {flags : UInt64}
    {installed : List (Program × UInt64)}
    (h : apply t fails profile (.enforce program flags) = .ok installed) :
    (program, flags) ∈ installed := by
  rw [apply, if_pos (Or.inr (by simp))] at h
  obtain ⟨_, _, h⟩ := Fallible.bind_eq_ok_iff.mp h
  obtain ⟨ofProfile, _, h⟩ := Fallible.bind_eq_ok_iff.mp h
  obtain ⟨ofPlan, hplan, h⟩ := Fallible.bind_eq_ok_iff.mp h
  obtain ⟨_, _, hplan⟩ := Fallible.bind_eq_ok_iff.mp hplan
  rw [← Fallible.pure_eq_ok_iff.mp h, ← Fallible.pure_eq_ok_iff.mp hplan]
  exact List.mem_append_right _ List.mem_cons_self

/-- The executed process gets as far as its `execvp` only through `apply`. -/
theorem execCommand_eq_ok {t : Target} {fails : ExecStep → Option LifecycleError}
    {config : ExecConfig} {installed : List (Program × UInt64)}
    (h : execCommand t fails config = .ok installed) :
    apply t (fun step ↦ fails (.security step)) config.securityProfile
      (execPlan config.seccompProgram config.seccompFlags) = .ok installed := by
  obtain ⟨_, _, h⟩ := Fallible.bind_eq_ok_iff.mp h
  obtain ⟨_, _, h⟩ := Fallible.bind_eq_ok_iff.mp h
  obtain ⟨_, _, h⟩ := Fallible.bind_eq_ok_iff.mp h
  obtain ⟨_, _, h⟩ := Fallible.bind_eq_ok_iff.mp h
  obtain ⟨_, _, h⟩ := Fallible.bind_eq_ok_iff.mp h
  exact h

theorem execInContainer_eq_ok {t : Target} {fails : ExecStep → Option LifecycleError}
    {config : ExecConfig} {installed : List (Program × UInt64)}
    (h : execInContainer t fails config = .ok installed) :
    execCommand t fails config = .ok installed := by
  obtain ⟨_, _, h⟩ := Fallible.bind_eq_ok_iff.mp h
  obtain ⟨_, _, h⟩ := Fallible.bind_eq_ok_iff.mp h
  obtain ⟨_, _, h⟩ := Fallible.bind_eq_ok_iff.mp h
  obtain ⟨_, _, h⟩ := Fallible.bind_eq_ok_iff.mp h
  obtain ⟨_, _, h⟩ := Fallible.bind_eq_ok_iff.mp h
  obtain ⟨_, _, h⟩ := Fallible.bind_eq_ok_iff.mp h
  exact h

/-- `exec` is configured from the state in the file: a refresh that changes it stops it. -/
theorem execConfig_eq_ok {host : Host} {id : String} {state : ContainerState} {args : List String}
    {tty : Bool} {config : ExecConfig}
    (h : execConfig m host id (.stored state) args tty = .ok config) :
    ∃ compiled, execSeccompProgram m.target m.profiles state = .ok compiled ∧
      config.seccompProgram = compiled.map CompiledProfile.program ∧
      config.seccompFlags = execFlags state := by
  obtain ⟨loaded, hload, h⟩ := Fallible.bind_eq_ok_iff.mp h
  have hload := Fallible.mapError_eq_ok_iff.mp hload
  obtain ⟨_, hrunning, h⟩ := Fallible.bind_eq_ok_iff.mp h
  have hrunning := Fallible.ensure_eq_ok_iff.mp hrunning
  have hloaded : loaded = state := by
    rcases loadCurrentFrom_cases host {} id (.stored state) with ⟨_, hsame⟩ |
      ⟨_, new, _, _, hstopped, _, hnew⟩
    · exact (StateFile.stored.inj (hsame loaded hload)).symm
    · obtain rfl := Except.ok.inj (hload.symm.trans hnew)
      rw [hstopped] at hrunning
      simp at hrunning
  rw [hloaded] at h
  obtain ⟨_, _, h⟩ := Fallible.bind_eq_ok_iff.mp h
  obtain ⟨_, _, h⟩ := Fallible.bind_eq_ok_iff.mp h
  obtain ⟨compiled, hcompiled, h⟩ := Fallible.bind_eq_ok_iff.mp h
  obtain ⟨_, _, h⟩ := Fallible.bind_eq_ok_iff.mp h
  obtain rfl := Fallible.pure_eq_ok_iff.mp h
  exact ⟨compiled, hcompiled, rfl, rfl⟩

/-- **`exec` is confined like the main process.**  For the state that was saved for some options, by
`run` or by `start`, `exec` gets the program and the flags the main process got; and in enforce mode
whatever it executes has that program installed. -/
theorem exec_confined_as_main {mode : SeccompMode} {profilePath capturePath : Option OsPath}
    {action : SeccompAction} {order : SyscallOrder} {log : Bool}
    (hseccomp : resolveOptions mode profilePath capturePath action order log
      (captureFile options.id) = .ok options.seccomp)
    (hutf8 : ∀ path, options.seccomp.profilePath = some path → path.IsUtf8)
    {existing : Option ContainerState}
    (hexisting : ∀ created, existing = some created → optionsFromState created = .ok options)
    {host : Host} {started : StartedProcess} {launch : Launch} {state : ContainerState}
    (hsaved : executeContainer m options existing host started = .ok (launch, state))
    {later : Machine} (htarget : later.target = m.target)
    (hfiles : ∀ path, options.seccomp.profilePath = some path →
      later.profiles.read path = m.profiles.read path) :
    execSeccompProgram later.target later.profiles state =
        prepare m.target m.profiles options.seccomp ∧
      execFlags state = options.seccomp.filterFlags ∧
      (options.seccomp.mode = .enforce →
        ∀ fails execHost id args tty installed,
          exec later fails execHost id (.stored state) args tty = .ok installed →
          ∃ compiled, prepare m.target m.profiles options.seccomp = .ok (some compiled) ∧
            (compiled.program, options.seccomp.filterFlags) ∈ installed) := by
  have hresolved : options.seccomp.Resolved := (resolved_of_resolveOptions hseccomp).1
  have hrecorded := recorded_executeContainer hutf8 hexisting hsaved
  have hprogram : execSeccompProgram later.target later.profiles state =
      prepare m.target m.profiles options.seccomp := by
    rw [htarget]
    exact execSeccompProgram_eq_prepare hresolved hrecorded hfiles
  have hflags := execFlags_eq_filterFlags hrecorded
  refine ⟨hprogram, hflags, fun hmode fails execHost id args tty installed h ↦ ?_⟩
  obtain ⟨config, hconfig, h⟩ := Fallible.bind_eq_ok_iff.mp h
  obtain ⟨prepared, hprepared, hconfigured, hwith⟩ := execConfig_eq_ok hconfig
  rw [hprogram] at hprepared
  obtain ⟨compiled, rfl⟩ := prepare_enforce hmode hprepared
  have happly := execCommand_eq_ok (execInContainer_eq_ok h)
  rw [hconfigured, hwith, hflags] at happly
  exact ⟨compiled, hprepared, mem_apply happly⟩

/-! ## A container that is confined -/

/-- A profile that allows nothing. -/
def denyingProfile : SeccompProfile where
  seccomp :=
    { defaultAction := .errno, defaultErrnoRet := none, architectures := none
      syscalls := some [] }
  crunMetadata := none

/-- A machine with that profile everywhere. -/
def denyingMachine : Machine :=
  { sampleMachine with
    profiles := { read := fun _ ↦ .profile denyingProfile, lossy := fun _ ↦ "?" } }

/-- Enforce mode. -/
def enforceOptions : RunOptions :=
  { sampleOptions (captureFile "demo") with
    seccomp :=
      { mode := .enforce, profilePath := some (.ofString "/profile.json"), capturePath := none
        action := .kill, order := .byNumber, log := true } }

theorem prepare_enforceOptions :
    ∃ compiled, prepare .x86_64 denyingMachine.profiles enforceOptions.seccomp =
      .ok (some compiled) := by
  obtain ⟨compiled, hcompile, _⟩ :=
    @compile_spec .x86_64 denyingProfile { defaultAction := .kill, order := .byNumber } rfl
  refine ⟨compiled, ?_⟩
  show ((compile .x86_64 denyingProfile { defaultAction := .kill, order := .byNumber }).mapError
    LifecycleError.seccomp >>= _) = _
  rw [hcompile]
  rfl

theorem executeContainer_enforce :
    ∃ launch state, executeContainer denyingMachine enforceOptions none bareHost
      sampleStarted = .ok (launch, state) := by
  obtain ⟨compiled, hcompiled⟩ := prepare_enforceOptions
  have hprepare : prepare denyingMachine.target denyingMachine.profiles enforceOptions.seccomp =
      .ok (some compiled) := hcompiled
  obtain ⟨launch, run, hlaunch⟩ : ∃ launch run, prepareLaunch denyingMachine enforceOptions false =
      .ok (launch, run) := by
    simp only [prepareLaunch, hprepare]
    exact ⟨_, _, rfl⟩
  obtain ⟨_, _, _, _, _, _, _, _, hrun⟩ := prepareLaunch_eq_ok hlaunch
  obtain ⟨state, hstate⟩ : ∃ state, startedState run bareHost none sampleStarted =
      .ok state := by
    rw [hrun]
    exact ⟨_, rfl⟩
  exact ⟨launch, state, executeContainer_eq_ok_iff.mpr ⟨_, _, run, rfl, rfl, hlaunch, hstate⟩⟩

/-- `run --seccomp enforce`, and then `exec`. -/
theorem exec_confined_enforce :
    ∃ launch state, executeContainer denyingMachine enforceOptions none bareHost
        sampleStarted = .ok (launch, state) ∧
      execSeccompProgram denyingMachine.target denyingMachine.profiles state =
        prepare denyingMachine.target denyingMachine.profiles enforceOptions.seccomp ∧
      execFlags state = seccompFilterFlagLog := by
  obtain ⟨launch, state, hsaved⟩ := executeContainer_enforce
  have hresolved : resolveOptions .enforce (some (.ofString "/profile.json")) none .kill .byNumber
      true (captureFile enforceOptions.id) = .ok enforceOptions.seccomp := rfl
  have hutf8 : ∀ path, enforceOptions.seccomp.profilePath = some path → path.IsUtf8 := by
    intro path hpath
    rw [← Option.some.inj hpath]
    exact OsPath.isUtf8_ofString _
  obtain ⟨hprogram, hflags, _⟩ := exec_confined_as_main hresolved hutf8
    (fun _ h ↦ by simp at h) hsaved rfl (fun _ _ ↦ rfl)
  exact ⟨launch, state, hsaved, hprogram, hflags⟩

end CrunRs.Lifecycle.Exec
