import CrunRs.Spec

/-!
# Modes and policy

`modes.rs` and `policy.rs`.  The modes of a container are persisted as strings and parsed again; the
policy profile of its bundle overrides some of them.

The overrides are applied when a container is created and once more when it is started, so that they
had better be idempotent: `resolveEffectivePolicy_idem`.
-/

set_option autoImplicit false

namespace CrunRs

open Network

/-! ## Modes -/

/-- `NetworkMode::as_str`. -/
def Network.NetworkMode.asStr : NetworkMode → String
  | .host => "host"
  | .none => "none"
  | .bridge => "bridge"

inductive SecurityProfile
  | denylist
  | unconfined
  deriving DecidableEq, Repr

/-- `SecurityProfile::as_str`. -/
def SecurityProfile.asStr : SecurityProfile → String
  | .denylist => "denylist"
  | .unconfined => "unconfined"

inductive LogMode
  | auto
  | on
  | off
  deriving DecidableEq, Repr

/-- `LogMode::as_str`. -/
def LogMode.asStr : LogMode → String
  | .auto => "auto"
  | .on => "on"
  | .off => "off"

/-- `parse_network_mode`. -/
def parseNetworkMode (value : String) : Except ModeError NetworkMode :=
  if value = "host" then .ok .host
  else if value = "none" then .ok .none
  else if value = "bridge" then .ok .bridge
  else .error (.invalidNetworkMode value)

/-- `parse_security_profile`; `default` is the name an older state has for the denylist. -/
def parseSecurityProfile (value : String) : Except ModeError SecurityProfile :=
  if value = "denylist" ∨ value = "default" then .ok .denylist
  else if value = "unconfined" then .ok .unconfined
  else .error (.invalidSecurityProfile value)

/-- `parse_log_mode`. -/
def parseLogMode (value : String) : Except ModeError LogMode :=
  if value = "auto" then .ok .auto
  else if value = "on" then .ok .on
  else if value = "off" then .ok .off
  else .error (.invalidLogMode value)

@[simp] theorem parseNetworkMode_asStr (mode : NetworkMode) :
    parseNetworkMode mode.asStr = .ok mode := by
  cases mode <;> rfl

@[simp] theorem parseSecurityProfile_asStr (profile : SecurityProfile) :
    parseSecurityProfile profile.asStr = .ok profile := by
  cases profile <;> rfl

@[simp] theorem parseLogMode_asStr (mode : LogMode) : parseLogMode mode.asStr = .ok mode := by
  cases mode <;> rfl

/-- `should_capture_logs`. -/
def shouldCaptureLogs (logMode : LogMode) (stdinIsTerminal : Bool) : Bool :=
  match logMode with
  | .auto => !stdinIsTerminal
  | .on => true
  | .off => false

/-! ## Policy -/

inductive PolicyProfile
  | none
  | restricted
  | debug
  deriving DecidableEq, Repr

/-- `PolicyProfile::from_config`. -/
def PolicyProfile.fromConfig : Option String → Except PolicyError PolicyProfile
  | .none => .ok .none
  | some value =>
    if value = "restricted" then .ok .restricted
    else if value = "debug" then .ok .debug
    else .error (.unsupportedProfile value)

theorem exists_fromConfig_iff {profile : Option String} :
    (∃ policy, PolicyProfile.fromConfig profile = .ok policy) ↔
      ∀ value ∈ profile, value = "restricted" ∨ value = "debug" := by
  cases profile with
  | none => simp [PolicyProfile.fromConfig]
  | some value =>
    simp only [PolicyProfile.fromConfig, Option.mem_some_iff, forall_eq']
    split_ifs <;> simp [*]

/-- `PolicyProfile::as_str`. -/
def PolicyProfile.asStr : PolicyProfile → String
  | .none => "none"
  | .restricted => "restricted"
  | .debug => "debug"

structure CgroupConfig where
  memoryLimit : Option Int := none
  cpuQuota : Option Int := none
  cpuPeriod : Option UInt64 := none
  pidsLimit : Option Int := none
  deriving DecidableEq, Repr

structure EffectivePolicy where
  profile : PolicyProfile
  securityProfile : SecurityProfile
  logMode : LogMode
  cgroupConfig : Option CgroupConfig
  deriving DecidableEq, Repr

/-- `apply_security`. -/
def applySecurity (securityProfile : SecurityProfile) : PolicyProfile → SecurityProfile
  | .restricted => .denylist
  | .debug => if securityProfile = .denylist then .unconfined else securityProfile
  | .none => securityProfile

/-- `apply_log_mode`. -/
def applyLogMode (logMode : LogMode) : PolicyProfile → LogMode
  | .debug => if logMode = .auto then .on else logMode
  | _ => logMode

/-- `apply_cgroup`. -/
def applyCgroup (explicit : Option CgroupConfig) (policyProfile : PolicyProfile) :
    Option CgroupConfig :=
  let defaults : CgroupConfig := match policyProfile with
    | .restricted => { memoryLimit := some 268435456, pidsLimit := some 64 }
    | _ => {}
  let merged : CgroupConfig := match explicit with
    | some explicit =>
      { memoryLimit := explicit.memoryLimit.or defaults.memoryLimit
        cpuQuota := explicit.cpuQuota.or defaults.cpuQuota
        cpuPeriod := explicit.cpuPeriod.or defaults.cpuPeriod
        pidsLimit := explicit.pidsLimit.or defaults.pidsLimit }
    | .none => defaults
  if merged = {} then .none else some merged

/-- `cgroup_config_from_resources`. -/
def cgroupConfigFromResources (resources : LinuxResources) : CgroupConfig where
  memoryLimit := resources.memoryLimit
  cpuQuota := resources.cpuQuota
  cpuPeriod := resources.cpuPeriod
  pidsLimit := resources.pidsLimit

/-- `resolve_effective_policy`. -/
def resolveEffectivePolicy (crun : Option CrunConfig) (resources : Option LinuxResources)
    (securityProfile : SecurityProfile) (logMode : LogMode) : Except PolicyError EffectivePolicy := do
  let profile ← PolicyProfile.fromConfig (crun.bind CrunConfig.profile)
  return {
    profile
    securityProfile := applySecurity securityProfile profile
    logMode := applyLogMode logMode profile
    cgroupConfig := applyCgroup (resources.map cgroupConfigFromResources) profile }

theorem applySecurity_idem (securityProfile : SecurityProfile) (profile : PolicyProfile) :
    applySecurity (applySecurity securityProfile profile) profile =
      applySecurity securityProfile profile := by
  cases profile <;> cases securityProfile <;> rfl

theorem applyLogMode_idem (logMode : LogMode) (profile : PolicyProfile) :
    applyLogMode (applyLogMode logMode profile) profile = applyLogMode logMode profile := by
  cases profile <;> cases logMode <;> rfl

/-- **Applying the policy to its own result changes nothing.** -/
theorem resolveEffectivePolicy_idem {crun : Option CrunConfig} {resources : Option LinuxResources}
    {securityProfile : SecurityProfile} {logMode : LogMode} {policy : EffectivePolicy}
    (h : resolveEffectivePolicy crun resources securityProfile logMode = .ok policy) :
    resolveEffectivePolicy crun resources policy.securityProfile policy.logMode = .ok policy := by
  unfold resolveEffectivePolicy at h ⊢
  cases hprofile : PolicyProfile.fromConfig (crun.bind CrunConfig.profile) with
  | error e =>
    rw [hprofile] at h
    simp [bind, Except.bind] at h
  | ok profile =>
    rw [hprofile] at h
    obtain rfl := Except.ok.inj h
    show Except.ok _ = _
    rw [applySecurity_idem, applyLogMode_idem]

end CrunRs
