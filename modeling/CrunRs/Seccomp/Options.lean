import CrunRs.Lib.Fallible
import CrunRs.Lib.OsPath
import CrunRs.Seccomp.Profile

/-!
# Seccomp options

`seccomp/mod.rs`: the flags of `--seccomp`, the checks on their combination, and what is prepared
from them before a container is forked.

The options of a container are typed when it is started and strings when they come back from its
state.  Every mode, action and order is read back from its own name (`parseMode_asStr` and its
siblings), and `resolve_options` accepts what it returned once before (`resolveOptions_idem`).
-/

set_option autoImplicit false

namespace CrunRs.Seccomp

/-! ## Modes and their names -/

inductive SeccompMode
  /-- No extra filter beyond whatever `--security` installs. -/
  | off
  /-- Trace every syscall and record what the workload uses. -/
  | learn
  /-- Install an allowlist compiled from a profile. -/
  | enforce
  deriving DecidableEq, Repr

/-- `SeccompMode::as_str`. -/
def SeccompMode.asStr : SeccompMode → String
  | .off => "off"
  | .learn => "learn"
  | .enforce => "enforce"

/-- `SeccompAction::as_str`. -/
def SeccompAction.asStr : SeccompAction → String
  | .errno => "errno"
  | .enosys => "enosys"
  | .kill => "kill"
  | .log => "log"

/-- `SyscallOrder::as_str`. -/
def SyscallOrder.asStr : SyscallOrder → String
  | .asListed => "as-listed"
  | .byNumber => "by-number"
  | .byFrequency => "by-frequency"

/-- `parse_mode`. -/
def parseMode (value : String) : Except SeccompError SeccompMode :=
  if value = "off" then .ok .off
  else if value = "learn" then .ok .learn
  else if value = "enforce" then .ok .enforce
  else .error (.invalidMode value)

/-- `parse_action`. -/
def parseAction (value : String) : Except SeccompError SeccompAction :=
  if value = "errno" then .ok .errno
  else if value = "enosys" then .ok .enosys
  else if value = "kill" then .ok .kill
  else if value = "log" then .ok .log
  else .error (.invalidAction value)

/-- `parse_order`. -/
def parseOrder (value : String) : Except SeccompError SyscallOrder :=
  if value = "as-listed" then .ok .asListed
  else if value = "by-number" then .ok .byNumber
  else if value = "by-frequency" then .ok .byFrequency
  else .error (.invalidOrder value)

@[simp] theorem parseMode_asStr (mode : SeccompMode) : parseMode mode.asStr = .ok mode := by
  cases mode <;> rfl

@[simp] theorem parseAction_asStr (action : SeccompAction) :
    parseAction action.asStr = .ok action := by
  cases action <;> rfl

@[simp] theorem parseOrder_asStr (order : SyscallOrder) : parseOrder order.asStr = .ok order := by
  cases order <;> rfl

/-- Only enforce mode is called `enforce`. -/
theorem parseMode_eq_enforce {value : String} {mode : SeccompMode} (h : parseMode value = .ok mode) :
    value = "enforce" ↔ mode = .enforce := by
  unfold parseMode at h
  split at h
  · rename_i hvalue
    obtain rfl := Except.ok.inj h
    simp [hvalue]
  · split at h
    · rename_i hvalue
      obtain rfl := Except.ok.inj h
      simp [hvalue]
    · split at h
      · rename_i hvalue
        obtain rfl := Except.ok.inj h
        simp [hvalue]
      · simp at h

/-! ## Options -/

structure SeccompOptions where
  mode : SeccompMode
  profilePath : Option OsPath
  capturePath : Option OsPath
  action : SeccompAction
  order : SyscallOrder
  log : Bool
  deriving DecidableEq, Repr

/-- `libc::SECCOMP_FILTER_FLAG_LOG`. -/
def seccompFilterFlagLog : UInt64 := 2

/-- `SeccompOptions::filter_flags`. -/
def SeccompOptions.filterFlags (options : SeccompOptions) : UInt64 :=
  if options.log then seccompFilterFlagLog else 0

/-- `resolve_options`. -/
def resolveOptions (mode : SeccompMode) (profilePath capturePath : Option OsPath)
    (action : SeccompAction) (order : SyscallOrder) (log : Bool) (defaultCapturePath : OsPath) :
    Except SeccompError SeccompOptions :=
  if mode = .enforce ∧ profilePath.isNone then .error .missingProfilePath
  else if mode ≠ .enforce ∧ profilePath.isSome then .error .profileWithoutEnforce
  else if mode ≠ .learn ∧ capturePath.isSome then .error .captureWithoutLearn
  else .ok {
    mode, profilePath, action, order, log
    capturePath := if mode = .learn then some (capturePath.getD defaultCapturePath) else none }

/-- What is checked of options that were resolved: a profile exactly in enforce mode, and a capture
file exactly in learn mode. -/
structure SeccompOptions.Resolved (options : SeccompOptions) : Prop where
  profile : options.profilePath.isSome ↔ options.mode = .enforce
  capture : options.capturePath.isSome ↔ options.mode = .learn

theorem resolved_of_resolveOptions {mode : SeccompMode} {profilePath capturePath : Option OsPath}
    {action : SeccompAction} {order : SyscallOrder} {log : Bool} {defaultCapturePath : OsPath}
    {options : SeccompOptions}
    (h : resolveOptions mode profilePath capturePath action order log defaultCapturePath =
      .ok options) :
    options.Resolved ∧ options.mode = mode ∧ options.profilePath = profilePath ∧
      options.action = action ∧ options.order = order ∧ options.log = log := by
  unfold resolveOptions at h
  split at h
  · simp at h
  · rename_i hmissing
    split at h
    · simp at h
    · rename_i hunused
      split at h
      · simp at h
      · obtain rfl := Except.ok.inj h
        refine ⟨⟨⟨fun hsome ↦ ?_, fun hmode ↦ ?_⟩, ?_⟩, rfl, rfl, rfl, rfl, rfl⟩
        · by_contra hmode
          exact hunused ⟨hmode, hsome⟩
        · rw [Option.isSome_iff_ne_none]
          exact fun hnone ↦ hmissing ⟨hmode, Option.isNone_iff_eq_none.mpr hnone⟩
        · by_cases hlearn : mode = .learn <;> simp [hlearn]

/-- **Resolving again what was resolved** changes at most the capture file, which is lost if it is
not passed on. -/
theorem resolveOptions_idem {options : SeccompOptions} (h : options.Resolved)
    (defaultCapturePath : OsPath) :
    resolveOptions options.mode options.profilePath none options.action options.order options.log
        defaultCapturePath =
      .ok { options with
        capturePath := if options.mode = .learn then some defaultCapturePath else none } := by
  have hmissing : ¬ (options.mode = .enforce ∧ options.profilePath.isNone) := by
    rintro ⟨hmode, hnone⟩
    have hsome := h.profile.mpr hmode
    simp [Option.isNone_iff_eq_none.mp hnone] at hsome
  have hunused : ¬ (options.mode ≠ .enforce ∧ options.profilePath.isSome) := fun hcond ↦
    hcond.1 (h.profile.mp hcond.2)
  rw [resolveOptions, if_neg hmissing, if_neg hunused, if_neg (by simp), Option.getD_none]

/-! ## Profiles on disk -/

/-- The file at a path, by what the JSON library makes of it. -/
inductive ProfileFile
  | unreadable
  | malformed
  | profile (profile : SeccompProfile)

/-- What `SeccompProfile::load` depends on: the files, and how a path that is not text is shown. -/
structure ProfileFiles where
  read : OsPath → ProfileFile
  lossy : ByteArray → String

/-- `SeccompProfile::load`. -/
def SeccompProfile.load (files : ProfileFiles) (path : OsPath) :
    Except LifecycleError SeccompProfile :=
  match files.read path with
  | .unreadable =>
    .error (.context ("failed to read seccomp profile: " ++ path.display files.lossy))
  | .malformed =>
    .error (.context ("failed to parse seccomp profile: " ++ path.display files.lossy))
  | .profile profile => .ok profile

/-- Load a profile and compile it, as `prepare` and `exec_seccomp_program` do. -/
def loadAndCompile (t : Target) (files : ProfileFiles) (path : OsPath) (options : CompileOptions) :
    Except LifecycleError (Option CompiledProfile) := do
  let profile ← SeccompProfile.load files path
  let compiled ← (compile t profile options).mapError .seccomp
  return some compiled

/-- `prepare`. -/
def prepare (t : Target) (files : ProfileFiles) (options : SeccompOptions) :
    Except LifecycleError (Option CompiledProfile) :=
  if options.mode ≠ .enforce then .ok none
  else match options.profilePath with
    | none => .error (.seccomp .missingProfilePath)
    | some path =>
      loadAndCompile t files path { defaultAction := options.action, order := options.order }

/-! ## What the child installs -/

/-- `libc::SECCOMP_RET_TRACE`. -/
def seccompRetTrace : UInt32 := 0x7ff00000

/-- `learn_filter`. -/
def learnFilter (t : Target) : Except SeccompError Program := do
  ensureSupported t
  (FilterBuilder.new.loadArch.ret seccompRetTrace).build

inductive SeccompPlan
  | none
  | learn
  | enforce (program : Program) (flags : UInt64)
  deriving DecidableEq, Repr

/-- `ChildConfig::seccomp_plan`. -/
def seccompPlan (mode : SeccompMode) (program : Option Program) (flags : UInt64) : SeccompPlan :=
  match mode with
  | .off => .none
  | .learn => .learn
  | .enforce => match program with
    | some program => .enforce program flags
    | .none => .none

/-- The plan of `exec_command`. -/
def execPlan (program : Option Program) (flags : UInt64) : SeccompPlan :=
  match program with
  | some program => .enforce program flags
  | .none => .none

/-- What is prepared for enforce mode is a program. -/
theorem prepare_enforce {t : Target} {files : ProfileFiles} {options : SeccompOptions}
    {prepared : Option CompiledProfile} (hmode : options.mode = .enforce)
    (h : prepare t files options = .ok prepared) : ∃ compiled, prepared = some compiled := by
  rw [prepare, if_neg (not_not.mpr hmode)] at h
  split at h
  · simp at h
  · obtain ⟨profile, _, hrest⟩ := Fallible.bind_eq_ok_iff.mp h
    obtain ⟨compiled, _, hsome⟩ := Fallible.bind_eq_ok_iff.mp hrest
    exact ⟨compiled, (Fallible.pure_eq_ok_iff.mp hsome).symm⟩

end CrunRs.Seccomp
