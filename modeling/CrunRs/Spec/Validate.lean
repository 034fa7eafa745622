import CrunRs.Lib.Fallible
import CrunRs.Lib.OsPath
import CrunRs.Spec

/-!
# Validating a configuration

`OciConfig::validate` of `spec/config.rs`.  `load_config` runs it on every configuration it reads, and
`minicrun validate` reports a bundle as valid if it succeeds.

It is a sequence of checks that ends at the first one that fails.  `OciConfig.Valid` is what they
establish together (`OciConfig.validate_eq_ok_iff`), so that nobody has to go through the sequence
again.
-/

set_option autoImplicit false

namespace CrunRs

open Fallible Health Text

/-! ## What the checks ask -/

/-- `LinuxCapabilities::is_empty`. -/
def LinuxCapabilities.isEmpty (capabilities : LinuxCapabilities) : Bool :=
  capabilities.bounding.isEmpty && capabilities.effective.isEmpty &&
    capabilities.inheritable.isEmpty && capabilities.permitted.isEmpty &&
    capabilities.ambient.isEmpty

/-- `Mount::is_bind`: by the type or by an option. -/
def Mount.isBind (mount : Mount) : Bool :=
  mount.mountType ∈ ["bind", "rbind", "none"] ||
    mount.options.any fun option ↦ option = "bind" ∨ option = "rbind"

/-- `is_supported_mount_type`. -/
def isSupportedMountType (mountType : String) : Bool :=
  mountType ∈ ["bind", "rbind", "none", "proc", "sysfs", "tmpfs", "devpts", "mqueue", "cgroup",
    "cgroup2", "ramfs"]

/-- `rlimit_resource`. -/
def rlimitResource (name : String) : Option UInt32 :=
  if name = "RLIMIT_AS" then some 9
  else if name = "RLIMIT_CORE" then some 4
  else if name = "RLIMIT_CPU" then some 0
  else if name = "RLIMIT_FSIZE" then some 1
  else if name = "RLIMIT_NOFILE" then some 7
  else if name = "RLIMIT_NPROC" then some 6
  else if name = "RLIMIT_STACK" then some 3
  else none

/-- One round of the loop of `validate_environment`, from the keys seen before to those seen after. -/
def validateEntry (keys : List String) (index : Nat) (item : String) :
    Except OciConfigError (List String) := do
  ensure ('\x00' ∉ item.toList) (.environmentContainsNul index)
  match splitOnce ['='] item.toList with
  | none => .error (.invalidEnvironmentEntry index)
  | some (key, _value) =>
    ensure (key ≠ []) (.emptyEnvironmentKey index)
    ensure ('=' ∉ key ∧ '\x00' ∉ key) (.invalidEnvironmentEntry index)
    ensure (String.ofList key ∉ keys) (.duplicateEnvironmentKey (String.ofList key))
    return String.ofList key :: keys

/-- `validate_environment`, from the entry at `index` on. -/
def validateEnvironmentFrom (keys : List String) (index : Nat) :
    List String → Except OciConfigError Unit
  | [] => .ok ()
  | item :: env => do
    let keys ← validateEntry keys index item
    validateEnvironmentFrom keys (index + 1) env

/-- `validate_environment`. -/
def validateEnvironment (env : List String) : Except OciConfigError Unit :=
  validateEnvironmentFrom [] 0 env

/-- The component `..` of a path. -/
def parentDir : List UInt8 := [46, 46]

/-- `validate_container_path`. -/
def validateContainerPath (path : String) : Except OciConfigError Unit := do
  ensure (OsPath.ofString path).isAbsolute (.linuxPathNotAbsolute path)
  ensure (parentDir ∉ (OsPath.ofString path).components) (.linuxPathEscapesRoot path)

/-! ## The sequence of checks -/

/-- The checks of one mount. -/
def Mount.validate (mount : Mount) : Except OciConfigError Unit := do
  ensure (trim mount.destination.toList ≠ []) .emptyMountDestination
  ensure (isSupportedMountType mount.mountType) (.unsupportedMountType mount.mountType)
  -- only a bind names a path of the host
  ensure (mount.isBind → trim (mount.source.getD "").toList ≠ []) .emptyBindMountSource

/-- The checks of one limit. -/
def LinuxRlimit.validate (rlimit : LinuxRlimit) : Except OciConfigError Unit := do
  ensure (¬ rlimit.soft > rlimit.hard) (.rlimitSoftExceedsHard rlimit.rlimitType)
  ensure (rlimitResource rlimit.rlimitType).isSome (.unsupportedRlimit rlimit.rlimitType)

/-- The checks of an overlay. -/
def CrunOverlay.validate (overlay : CrunOverlay) : Except OciConfigError Unit :=
  if overlay.enabled then do
    ensure (trim overlay.upperdir.toList ≠ []) (.emptyOverlayPath "upperdir")
    ensure (trim overlay.workdir.toList ≠ []) (.emptyOverlayPath "workdir")
    ensure (trim overlay.mergeddir.toList ≠ []) (.emptyOverlayPath "mergeddir")
  else .ok ()

/-- The check of a profile. -/
def validateProfile (profile : String) : Except OciConfigError Unit :=
  ensure (profile = "restricted" ∨ profile = "debug") (.unsupportedCrunProfile profile)

/-- The check of a namespace. -/
def validateNamespace (namespaceType : String) : Except OciConfigError Unit :=
  ensure (namespaceType ∈ ["pid", "mount", "uts", "ipc", "network", "user"])
    (.unsupportedNamespace namespaceType)

/-- The checks of the Linux section. -/
def Linux.validate (linux : Linux) : Except OciConfigError Unit := do
  linux.namespaces.forM validateNamespace
  (linux.maskedPaths ++ linux.readonlyPaths).forM validateContainerPath

/-- `OciConfig::validate`. -/
def OciConfig.validate (config : OciConfig) : Except OciConfigError Unit := do
  ensure (config.process.args ≠ []) .emptyProcessArgs
  ensure (config.process.capabilities.all LinuxCapabilities.isEmpty) .unsupportedCapabilities
  validateEnvironment config.process.env
  ensure (trim config.root.path.toList ≠ []) .emptyRootPath
  config.mounts.forM Mount.validate
  ensure (config.healthcheck.all fun healthcheck ↦ healthcheck.test ≠ []) .emptyHealthcheckTest
  config.process.rlimits.forM LinuxRlimit.validate
  (config.crun.bind CrunConfig.overlay).toList.forM CrunOverlay.validate
  (config.crun.bind CrunConfig.profile).toList.forM validateProfile
  config.linux.toList.forM Linux.validate

/-! ## What is accepted -/

/-- A mount that passes the checks. -/
structure Mount.Valid (mount : Mount) : Prop where
  destination : trim mount.destination.toList ≠ []
  mountType : isSupportedMountType mount.mountType
  source : mount.isBind → trim (mount.source.getD "").toList ≠ []

theorem Mount.validate_eq_ok_iff {mount : Mount} : mount.validate = .ok () ↔ mount.Valid := by
  simp only [Mount.validate, seq_eq_ok_iff, ensure_eq_ok_iff]
  exact ⟨fun ⟨h₁, h₂, h₃⟩ ↦ ⟨h₁, h₂, h₃⟩, fun h ↦ ⟨h.destination, h.mountType, h.source⟩⟩

theorem LinuxRlimit.validate_eq_ok_iff {rlimit : LinuxRlimit} :
    rlimit.validate = .ok () ↔
      rlimit.soft ≤ rlimit.hard ∧ (rlimitResource rlimit.rlimitType).isSome := by
  simp only [LinuxRlimit.validate, seq_eq_ok_iff, ensure_eq_ok_iff, UInt64.not_lt, gt_iff_lt]

theorem CrunOverlay.validate_eq_ok_iff {overlay : CrunOverlay} :
    overlay.validate = .ok () ↔
      (overlay.enabled → trim overlay.upperdir.toList ≠ [] ∧ trim overlay.workdir.toList ≠ [] ∧
        trim overlay.mergeddir.toList ≠ []) := by
  rw [CrunOverlay.validate]
  split
  · rename_i henabled
    simp only [seq_eq_ok_iff, ensure_eq_ok_iff, henabled, true_imp_iff]
  · rename_i henabled
    simp [henabled]

theorem validateContainerPath_eq_ok_iff {path : String} :
    validateContainerPath path = .ok () ↔
      (OsPath.ofString path).isAbsolute ∧ parentDir ∉ (OsPath.ofString path).components := by
  simp only [validateContainerPath, seq_eq_ok_iff, ensure_eq_ok_iff]

/-- A configuration that passes the checks. -/
structure OciConfig.Valid (config : OciConfig) : Prop where
  args : config.process.args ≠ []
  capabilities : config.process.capabilities.all LinuxCapabilities.isEmpty
  environment : validateEnvironment config.process.env = .ok ()
  root : trim config.root.path.toList ≠ []
  mounts : ∀ mount ∈ config.mounts, mount.Valid
  healthcheck : config.healthcheck.all fun healthcheck ↦ healthcheck.test ≠ []
  rlimits : ∀ rlimit ∈ config.process.rlimits,
    rlimit.soft ≤ rlimit.hard ∧ (rlimitResource rlimit.rlimitType).isSome
  overlay : ∀ overlay ∈ config.crun.bind CrunConfig.overlay, overlay.enabled →
    trim overlay.upperdir.toList ≠ [] ∧ trim overlay.workdir.toList ≠ [] ∧
      trim overlay.mergeddir.toList ≠ []
  profile : ∀ profile ∈ config.crun.bind CrunConfig.profile,
    profile = "restricted" ∨ profile = "debug"
  namespaces : ∀ linux ∈ config.linux, ∀ namespaceType ∈ linux.namespaces,
    namespaceType ∈ ["pid", "mount", "uts", "ipc", "network", "user"]
  paths : ∀ linux ∈ config.linux, ∀ path ∈ linux.maskedPaths ++ linux.readonlyPaths,
    (OsPath.ofString path).isAbsolute ∧ parentDir ∉ (OsPath.ofString path).components

/-- **What `validate` accepts.** -/
theorem OciConfig.validate_eq_ok_iff {config : OciConfig} :
    config.validate = .ok () ↔ config.Valid := by
  simp only [OciConfig.validate, seq_eq_ok_iff, ensure_eq_ok_iff, forM_eq_ok_iff, Option.mem_toList,
    Mount.validate_eq_ok_iff, LinuxRlimit.validate_eq_ok_iff, CrunOverlay.validate_eq_ok_iff,
    validateProfile, Linux.validate, validateNamespace, validateContainerPath_eq_ok_iff]
  constructor
  · rintro ⟨h₁, h₂, h₃, h₄, h₅, h₆, h₇, h₈, h₉, hlinux⟩
    exact ⟨h₁, h₂, h₃, h₄, h₅, h₆, h₇, h₈, h₉, fun linux h ↦ (hlinux linux h).1,
      fun linux h ↦ (hlinux linux h).2⟩
  · intro h
    exact ⟨h.args, h.capabilities, h.environment, h.root, h.mounts, h.healthcheck, h.rlimits,
      h.overlay, h.profile, fun linux hlinux ↦ ⟨h.namespaces linux hlinux, h.paths linux hlinux⟩⟩

end CrunRs
