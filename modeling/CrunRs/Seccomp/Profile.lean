import CrunRs.Seccomp.Allowlist
import CrunRs.Seccomp.Syscalls

/-!
# Profiles and their compilation

`seccomp/profile.rs` and the rest of `seccomp/compile.rs`: the OCI profile with the provenance this
runtime records, the checks on it, and `compile`, which resolves its allowed names to numbers,
orders them and builds the allowlist.

Neither the order nor the counts decide what is allowed: `mem_comparedNumbers` says that the
comparisons are against the numbers of the allowed names, in whatever order, and `compile_spec` that
a profile without argument rules compiles — the table is too small for the program to be too long —
into a program that allows exactly those.
-/

set_option autoImplicit false

namespace CrunRs.Seccomp

open Ordered

/-! ## The OCI schema -/

/-- `LinuxSeccompAction` of the OCI runtime specification. -/
inductive LinuxSeccompAction
  | kill | killProcess | killThread | trap | errno | notify | trace | log | allow
  deriving DecidableEq, Repr

/-- A condition on a syscall argument.  The runtime supports none, so only its presence counts. -/
structure LinuxSeccompArg where
  index : Nat
  value : UInt64
  valueTwo : Option UInt64
  deriving DecidableEq, Repr

structure LinuxSyscall where
  names : List String
  action : LinuxSeccompAction
  errnoRet : Option UInt32 := none
  args : Option (List LinuxSeccompArg) := none
  deriving DecidableEq, Repr

/-- `linux.seccomp`; architectures are given by their audit values. -/
structure LinuxSeccomp where
  defaultAction : LinuxSeccompAction
  defaultErrnoRet : Option UInt32
  architectures : Option (List UInt32)
  syscalls : Option (List LinuxSyscall)
  deriving DecidableEq, Repr

/-- `SeccompAction::to_oci`. -/
def SeccompAction.toOci : SeccompAction → LinuxSeccompAction
  | .errno | .enosys => .errno
  | .kill => .killProcess
  | .log => .log

/-- `SeccompAction::errno`. -/
def SeccompAction.errnoValue : SeccompAction → Option UInt32
  | .errno => some eperm
  | .enosys => some Seccomp.enosys
  | .kill | .log => none

/-! ## Provenance -/

/-- `METADATA_SCHEMA_VERSION`. -/
def metadataSchemaVersion : UInt32 := 1

structure SourceRun where
  containerId : String
  command : List String
  startedAtUnix : UInt64
  durationMs : UInt64
  events : UInt64
  uniqueSyscalls : Nat
  deriving DecidableEq

structure CrunMetadata where
  schemaVersion : UInt32
  generator : String
  runtimeVersion : String
  workload : Option String
  arch : String
  auditArch : UInt32
  generatedAtUnix : UInt64
  observedSyscallCount : Nat
  baselineSyscallCount : Nat
  totalSyscallCount : Nat
  captureDurationMs : UInt64
  totalEvents : UInt64
  sourceRuns : List SourceRun
  /-- Names the capture reported that this architecture does not define. -/
  unresolved : List String
  /-- Non-native architectures seen during capture, by audit arch value. -/
  foreignArch : Std.ExtTreeMap String UInt64
  /-- Observed call counts.  Drives frequency ordered filter compilation. -/
  syscallCounts : Std.ExtTreeMap String UInt64

/-- An OCI seccomp profile plus the provenance this runtime records. -/
structure SeccompProfile where
  seccomp : LinuxSeccomp
  crunMetadata : Option CrunMetadata

/-- `mandatory_baseline`: syscalls every generated profile allows, observed or not. -/
def mandatoryBaseline : List String :=
  ["clock_getres", "clock_gettime", "exit", "exit_group", "getcpu", "gettimeofday",
    "restart_syscall", "rt_sigreturn", "time"]

/-- `glibc_compat_set`: syscalls newer libc builds reach for. -/
def glibcCompatSet : List String :=
  ["clone3", "faccessat2", "getrandom", "newfstatat", "rseq", "statx"]

/-! ## Reading a profile -/

namespace SeccompProfile

/-- `validate_supported`: the first rule with argument conditions is refused. -/
def validateSupported (profile : SeccompProfile) : Except SeccompError Unit :=
  match profile.seccomp.syscalls with
  | none => .ok ()
  | some rules => match rules.find? fun rule ↦ rule.args.any fun args ↦ !args.isEmpty with
    | some rule => .error (.unsupportedConditionalRule (",".intercalate rule.names))
    | none => .ok ()

/-- `allowed_names`: every name of an unconditional allow rule. -/
def allowedNames (profile : SeccompProfile) : Std.ExtTreeSet String :=
  match profile.seccomp.syscalls with
  | none => ∅
  | some rules =>
    .ofList ((rules.filter fun rule ↦ rule.action = .allow).flatMap LinuxSyscall.names)

theorem mem_allowedNames {profile : SeccompProfile} {s : String} :
    s ∈ profile.allowedNames ↔
      ∃ rule ∈ profile.seccomp.syscalls.getD [], rule.action = .allow ∧ s ∈ rule.names := by
  rw [allowedNames]
  cases profile.seccomp.syscalls with
  | none => simp
  | some rules =>
    rw [Std.ExtTreeSet.mem_ofList, List.contains_iff_mem, List.mem_flatMap]
    simp [and_assoc]

/-- `build_profile`: an allowlist profile from a set of syscall names. -/
def build (t : Target) (names : Std.ExtTreeSet String) (defaultAction : LinuxSeccompAction)
    (defaultErrno : Option UInt32) (metadata : Option CrunMetadata) : SeccompProfile where
  seccomp :=
    { defaultAction := defaultAction
      defaultErrnoRet := defaultErrno
      architectures := some [auditArchNative t]
      syscalls := some [{ names := names.toList, action := .allow }] }
  crunMetadata := metadata

theorem mem_allowedNames_build {t : Target} {names : Std.ExtTreeSet String}
    {defaultAction : LinuxSeccompAction} {defaultErrno : Option UInt32}
    {metadata : Option CrunMetadata} {s : String} :
    s ∈ (build t names defaultAction defaultErrno metadata).allowedNames ↔ s ∈ names := by
  rw [mem_allowedNames]
  simp [build]

theorem validateSupported_build (t : Target) (names : Std.ExtTreeSet String)
    (defaultAction : LinuxSeccompAction) (defaultErrno : Option UInt32)
    (metadata : Option CrunMetadata) :
    (build t names defaultAction defaultErrno metadata).validateSupported = .ok () := rfl

end SeccompProfile

/-! ## Compiling -/

/-- Order of the comparison chain. -/
inductive SyscallOrder
  | asListed
  | byNumber
  | byFrequency
  deriving DecidableEq, Repr

structure CompileOptions where
  defaultAction : SeccompAction := .errno
  order : SyscallOrder := .byFrequency

structure CompiledProfile where
  program : Program
  /-- Allowed syscall numbers in the order they are compared. -/
  allowed : List Int
  /-- Profile names this architecture does not define. -/
  unresolved : List String
  defaultAction : SeccompAction

/-- The observed count of a syscall number. -/
def countOf (t : Target) (counts : Std.ExtTreeMap String UInt64) (n : Int) : UInt64 :=
  ((name t n).bind fun s ↦ counts[s]?).getD 0

/-- `order_syscalls`: descending by observed count, then by number. -/
def orderSyscalls (t : Target) (allowed : List Int) (profile : SeccompProfile) :
    SyscallOrder → List Int
  | .asListed | .byNumber => allowed
  | .byFrequency => match profile.crunMetadata with
    | none => allowed
    | some metadata =>
      if metadata.syscallCounts.isEmpty then allowed
      else allowed.mergeSort fun left right ↦
        ((compare (countOf t metadata.syscallCounts right)
          (countOf t metadata.syscallCounts left)).then (compare left right)).isLE

/-- `compile`. -/
def compile (t : Target) (profile : SeccompProfile) (options : CompileOptions) :
    Except SeccompError CompiledProfile := do
  ensureSupported t
  profile.validateSupported
  let (resolved, unresolved) := resolveAll t profile.allowedNames.toList
  let allowed := orderSyscalls t resolved profile options.order
  let program ← buildAllowlist t allowed options.defaultAction
  return { program, allowed, unresolved, defaultAction := options.defaultAction }

theorem orderSyscalls_perm (t : Target) (allowed : List Int) (profile : SeccompProfile)
    (order : SyscallOrder) : (orderSyscalls t allowed profile order).Perm allowed := by
  cases order with
  | asListed | byNumber => rfl
  | byFrequency =>
    rw [orderSyscalls]
    split
    · rfl
    · split
      · rfl
      · exact List.mergeSort_perm _ _

/-- The numbers a profile allows on an architecture. -/
def AllowsNumber (t : Target) (profile : SeccompProfile) (n : Int) : Prop :=
  ∃ s ∈ profile.allowedNames, number t s = some n

theorem allowsNumber_range {t : Target} {profile : SeccompProfile} {n : Int}
    (h : AllowsNumber t profile n) : 0 ≤ n ∧ n < 512 := by
  obtain ⟨s, _, hs⟩ := h
  exact number_range hs

/-- The resolved numbers are distinct rows of the table, so there are at most as many. -/
theorem length_resolveAll_le (t : Target) (names : List String) :
    (resolveAll t names).1.length ≤ 512 := by
  have hnodup : (resolveAll t names).1.Nodup := sortDedup_nodup _
  have hsub : (resolveAll t names).1 ⊆ (table t).map SyscallEntry.number := by
    intro n hn
    obtain ⟨s, _, hs⟩ := mem_resolveAll_fst.mp hn
    exact List.mem_map.mpr ⟨_, number_eq_some_iff.mp hs, rfl⟩
  calc (resolveAll t names).1.length ≤ ((table t).map SyscallEntry.number).length :=
        (hnodup.subperm hsub).length_le
    _ = (table t).length := List.length_map _
    _ ≤ 512 := length_table_le t

/-- The numbers a compiled profile compares against, in the order of the comparisons. -/
def comparedNumbers (t : Target) (profile : SeccompProfile) (order : SyscallOrder) : List Int :=
  orderSyscalls t (resolveAll t profile.allowedNames.toList).1 profile order

theorem mem_comparedNumbers {t : Target} {profile : SeccompProfile} {order : SyscallOrder}
    {n : Int} : n ∈ comparedNumbers t profile order ↔ AllowsNumber t profile n := by
  rw [comparedNumbers, (orderSyscalls_perm ..).mem_iff, mem_resolveAll_fst, AllowsNumber]
  simp only [Std.ExtTreeSet.mem_toList]

theorem comparedNumbers_fits {t : Target} {profile : SeccompProfile} {order : SyscallOrder} :
    ∀ n ∈ comparedNumbers t profile order, FitsU32 n := by
  intro n hn
  have := allowsNumber_range (mem_comparedNumbers.mp hn)
  exact ⟨this.1, by omega⟩

theorem allowlistLen_comparedNumbers_le (t : Target) (profile : SeccompProfile)
    (order : SyscallOrder) : allowlistLen t (comparedNumbers t profile order) ≤ maxBpfInsns := by
  have h1 := length_resolveAll_le t profile.allowedNames.toList
  have h2 : prologueLen t ≤ 6 := by cases t <;> decide
  rw [allowlistLen, comparedNumbers, (orderSyscalls_perm ..).length_eq, maxBpfInsns]
  omega

/-- Every number of the table is far below the x32 range, so that guard never bites. -/
theorem allowed_comparedNumbers {t : Target} {profile : SeccompProfile} {order : SyscallOrder}
    {d : SeccompData} : Allowed t (comparedNumbers t profile order) d ↔
      d.arch = auditArchNative t ∧ AllowsNumber t profile d.nr.toNat := by
  rw [Allowed, mem_comparedNumbers]
  refine and_congr_right fun _ ↦ ⟨And.right, fun hn ↦ ⟨fun _ ↦ ?_, hn⟩⟩
  have := (allowsNumber_range hn).2
  rw [UInt32.lt_iff_toNat_lt]
  show d.nr.toNat < 1073741824
  omega

/-- Past the checks of `compile` there is only the allowlist builder. -/
theorem compile_eq (t : Target) {profile : SeccompProfile} (options : CompileOptions)
    (h : profile.validateSupported = .ok ()) :
    compile t profile options =
      (buildAllowlist t (comparedNumbers t profile options.order) options.defaultAction).map
        fun program ↦
          { program
            allowed := comparedNumbers t profile options.order
            unresolved := (resolveAll t profile.allowedNames.toList).2
            defaultAction := options.defaultAction } := by
  rw [compile, ensureSupported_eq, h]
  rfl

/-- **What a compiled profile enforces.**  A profile without argument rules compiles, and its
program allows exactly the native numbers of its allowed names; every other call gets the default
action. -/
theorem compile_spec (t : Target) {profile : SeccompProfile} (options : CompileOptions)
    (h : profile.validateSupported = .ok ()) :
    ∃ compiled, compile t profile options = .ok compiled ∧
      ∀ d : SeccompData,
        (d.arch = auditArchNative t ∧ AllowsNumber t profile d.nr.toNat →
          compiled.program.run d = .ret seccompRetAllow) ∧
        (¬ (d.arch = auditArchNative t ∧ AllowsNumber t profile d.nr.toNat) →
          compiled.program.run d = .ret options.defaultAction.toBpfRet) := by
  have hfits : ∀ n ∈ comparedNumbers t profile options.order, FitsU32 n := comparedNumbers_fits
  have hbuild := buildAllowlist_of_fits t options.defaultAction hfits
  rw [if_pos (allowlistLen_comparedNumbers_le t profile options.order)] at hbuild
  have hcompile := compile_eq t options h
  rw [hbuild] at hcompile
  refine ⟨_, hcompile, fun d ↦ ?_⟩
  rw [run_buildAllowlist hfits hbuild]
  exact ⟨fun hd ↦ by rw [if_pos (allowed_comparedNumbers.mpr hd)],
    fun hd ↦ by rw [if_neg (mt allowed_comparedNumbers.mp hd)]⟩

end CrunRs.Seccomp
