import CrunRs.Cgroup
import CrunRs.Filesystem.Mounts

/-!
# What a validated bundle may still run into

`minicrun validate` says that a bundle is valid when `OciConfig::validate` accepts its configuration.
The functions that set a container up do not rely on it: each checks what it is given once more, some
of them after the fork.  `SetsUp` says that none of these checks fails.

Most of them ask no more than `validate` does.  There are two exceptions.  Of the destination of a
mount `validate` asks only that it is not blank, although it does ask of a masked or a read-only path
that it is absolute and never goes up; and it does not look at the resources.  So there are
configurations that are valid and cannot be set up (`validated_not_setsUp`).  A validated
configuration sets up exactly if it is in order in these two respects (`validated_setsUp_iff`).
-/

set_option autoImplicit false

namespace CrunRs

open Filesystem

/-! ## The later checks -/

/-- None of the checks that come after `validate` fails because of the configuration. -/
structure OciConfig.SetsUp (lossy : ByteArray → String) (config : OciConfig) : Prop where
  /-- `container_mount_destination`. -/
  destination : ∀ rootfs, ∀ mount ∈ config.mounts,
    ∃ path, containerMountDestination rootfs mount.destination = .ok path
  /-- The dispatch of `setup_mount`. -/
  dispatch : ∀ answers rootfs, ∀ mount ∈ config.mounts, ∀ e,
    (setupMount lossy answers rootfs mount).2 = .error e →
      (∀ mountType, e ≠ .ociConfig (.unsupportedMountType mountType)) ∧ e ≠ .missingBindMountSource
  /-- `namespace_flags`. -/
  namespaces : ∃ flags, namespaceFlags ((config.linux.map Linux.namespaces).getD []) = .ok flags
  /-- `PolicyProfile::from_config`. -/
  profile : ∃ profile, PolicyProfile.fromConfig (config.crun.bind CrunConfig.profile) = .ok profile
  /-- `rlimit_resource`. -/
  rlimits : ∀ rlimit ∈ config.process.rlimits, (rlimitResource rlimit.rlimitType).isSome
  /-- `validate_environment`. -/
  environment : validateEnvironment config.process.env = .ok ()
  /-- `CgroupConfig::validate`, whatever the options the policy is applied to. -/
  cgroup : ∀ securityProfile logMode policy,
    resolveEffectivePolicy config.crun (config.linux.bind Linux.resources) securityProfile logMode =
      .ok policy → ∀ cgroup ∈ policy.cgroupConfig, cgroup.validate = .ok ()

/-- Every limit that is given is positive. -/
structure LinuxResources.Positive (resources : LinuxResources) : Prop where
  memoryLimit : ∀ value ∈ resources.memoryLimit, 0 < value
  cpuQuota : ∀ value ∈ resources.cpuQuota, 0 < value
  cpuPeriod : ∀ value ∈ resources.cpuPeriod, value ≠ 0
  pidsLimit : ∀ value ∈ resources.pidsLimit, 0 < value

/-- What `validate` does not look at is in order. -/
structure OciConfig.InOrder (config : OciConfig) : Prop where
  destinations : ∀ mount ∈ config.mounts, UsableDestination mount.destination
  resources : ∀ resources ∈ config.linux.bind Linux.resources, resources.Positive

/-! ## Check by check -/

theorem cgroupConfigFromResources_positive_iff {resources : LinuxResources} :
    (cgroupConfigFromResources resources).Positive ↔ resources.Positive :=
  ⟨fun h ↦ ⟨h.memoryLimit, h.cpuQuota, h.cpuPeriod, h.pidsLimit⟩,
    fun h ↦ ⟨h.memoryLimit, h.cpuQuota, h.cpuPeriod, h.pidsLimit⟩⟩

/-- The policy of a bundle with a known profile limits what the resources limit, and that passes
exactly if the resources are in order. -/
theorem resolveEffectivePolicy_validate_iff {crun : Option CrunConfig}
    {resources : Option LinuxResources} {securityProfile : SecurityProfile} {logMode : LogMode}
    {policy : EffectivePolicy}
    (h : resolveEffectivePolicy crun resources securityProfile logMode = .ok policy) :
    (∀ cgroup ∈ policy.cgroupConfig, cgroup.validate = .ok ()) ↔
      ∀ r ∈ resources, r.Positive := by
  rw [resolveEffectivePolicy, Fallible.bind_eq_ok_iff] at h
  obtain ⟨profile, -, hpolicy⟩ := h
  obtain rfl := Fallible.pure_eq_ok_iff.mp hpolicy
  rw [applyCgroup_validate_iff]
  simp only [Option.mem_map, forall_exists_index, and_imp, forall_apply_eq_imp_iff₂,
    cgroupConfigFromResources_positive_iff]

/-- With a known profile there is a policy. -/
theorem exists_resolveEffectivePolicy {crun : Option CrunConfig} {profile : PolicyProfile}
    (h : PolicyProfile.fromConfig (crun.bind CrunConfig.profile) = .ok profile)
    (resources : Option LinuxResources) (securityProfile : SecurityProfile) (logMode : LogMode) :
    ∃ policy, resolveEffectivePolicy crun resources securityProfile logMode = .ok policy := by
  rw [resolveEffectivePolicy, h, Fallible.ok_bind]
  exact ⟨_, rfl⟩

/-- A validated mount reaches neither error of the dispatch. -/
theorem dispatch_of_valid {lossy : ByteArray → String} {answers : MountAnswers} {rootfs : OsPath}
    {mount : Mount} {e : FilesystemError} (hvalid : mount.Valid)
    (h : (setupMount lossy answers rootfs mount).2 = .error e) :
    (∀ mountType, e ≠ .ociConfig (.unsupportedMountType mountType)) ∧
      e ≠ .missingBindMountSource := by
  rcases setupMount_error lossy hvalid h with ⟨message, rfl⟩ | hdestination
  · simp
  · rcases containerMountDestination_error hdestination with rfl | rfl | rfl <;> simp

theorem OciConfig.Valid.exists_namespaceFlags {config : OciConfig} (h : config.Valid) :
    ∃ flags, namespaceFlags ((config.linux.map Linux.namespaces).getD []) = .ok flags := by
  rw [exists_namespaceFlags_iff]
  cases hlinux : config.linux with
  | none => simp
  | some linux => exact h.namespaces linux hlinux

/-! ## Together -/

/-- **A validated configuration sets up** exactly if its destinations can be mounted on and its
limits are positive. -/
theorem validated_setsUp_iff (lossy : ByteArray → String) (config : OciConfig)
    (h : config.validate = .ok ()) : config.SetsUp lossy ↔ config.InOrder := by
  have hvalid : config.Valid := OciConfig.validate_eq_ok_iff.mp h
  obtain ⟨profile, hprofile⟩ := exists_fromConfig_iff.mpr hvalid.profile
  constructor
  · intro hsets
    refine ⟨fun mount hmount ↦ ?_, ?_⟩
    · exact exists_containerMountDestination_iff.mp (hsets.destination ⟨[]⟩ mount hmount)
    · -- the options do not matter for the limits, so any will do
      obtain ⟨policy, hpolicy⟩ := exists_resolveEffectivePolicy hprofile
        (config.linux.bind Linux.resources) .denylist .auto
      exact (resolveEffectivePolicy_validate_iff hpolicy).mp
        (hsets.cgroup .denylist .auto policy hpolicy)
  · intro horder
    exact {
      destination := fun rootfs mount hmount ↦
        exists_containerMountDestination_iff.mpr (horder.destinations mount hmount)
      dispatch := fun answers rootfs mount hmount e he ↦ dispatch_of_valid (hvalid.mounts mount hmount) he
      namespaces := hvalid.exists_namespaceFlags
      profile := ⟨profile, hprofile⟩
      rlimits := fun rlimit hrlimit ↦ (hvalid.rlimits rlimit hrlimit).2
      environment := hvalid.environment
      cgroup := fun securityProfile logMode policy hpolicy ↦
        (resolveEffectivePolicy_validate_iff hpolicy).mpr horder.resources }

/-- A bundle with a bind and a file system, and with limits. -/
def demoBundle : OciConfig where
  process := { args := ["/bin/sh"], env := ["PATH=/bin", "EMPTY="]
               rlimits := [{ rlimitType := "RLIMIT_NOFILE", hard := 128, soft := 64 }] }
  root := { path := "rootfs", readonly := true }
  mounts := [
    { destination := "/data", source := some "/tmp/data", mountType := "none"
      options := ["rbind", "ro"] },
    { destination := "/dev/pts", mountType := "devpts", options := ["nosuid", "ptmxmode=0666"] }]
  linux := some
    { namespaces := ["pid", "mount"], maskedPaths := ["/proc/kcore"]
      resources := some { memoryLimit := some 67108864, cpuPeriod := some 100000 } }
  crun := some { profile := some "restricted" }

theorem demoBundle_inOrder : demoBundle.InOrder where
  destinations := by decide +kernel
  resources := by
    rintro resources ⟨⟩
    exact ⟨by simp, by simp, by simp, by simp⟩

theorem validated_setsUp_demo :
    demoBundle.validate = .ok () ∧ demoBundle.SetsUp fun _ ↦ "" :=
  ⟨by decide +kernel,
    (validated_setsUp_iff (fun _ ↦ "") demoBundle (by decide +kernel)).mpr demoBundle_inOrder⟩

/-- The bundle with one mount, at a destination that is not absolute. -/
def relativeBundle : OciConfig :=
  { demoBundle with mounts := [{ destination := "dev/pts", mountType := "devpts" }] }

/-- The bundle with a memory limit of minus one. -/
def unlimitedBundle : OciConfig :=
  { demoBundle with linux := some { resources := some { memoryLimit := some (-1) } } }

theorem relativeBundle_not_setsUp (lossy : ByteArray → String) : ¬ relativeBundle.SetsUp lossy := by
  intro h
  obtain ⟨path, hpath⟩ := h.destination ⟨[]⟩ _ (List.mem_singleton_self _)
  have herror : containerMountDestination ⟨[]⟩ "dev/pts" =
      .error (.mountDestinationNotAbsolute "dev/pts") := by decide +kernel
  rw [herror] at hpath
  cases hpath

theorem unlimitedBundle_not_setsUp (lossy : ByteArray → String) : ¬ unlimitedBundle.SetsUp lossy := by
  intro h
  have hvalidate := h.cgroup .denylist .auto _ rfl _ rfl
  cases hvalidate

/-- **Valid, and not to be set up**: a destination that is not absolute, and a negative limit. -/
theorem validated_not_setsUp :
    (relativeBundle.validate = .ok () ∧ ¬ relativeBundle.SetsUp fun _ ↦ "") ∧
      unlimitedBundle.validate = .ok () ∧ ¬ unlimitedBundle.SetsUp fun _ ↦ "" :=
  ⟨⟨by decide +kernel, relativeBundle_not_setsUp _⟩, by decide +kernel, unlimitedBundle_not_setsUp _⟩

end CrunRs
