import CrunRs.Seccomp.Order
import Mathlib.Data.Set.Card
import Mathlib.Data.UInt

/-!
# Reports on profiles

`seccomp/report.rs`: `inspect` and `compare`, which say how large the surface of a profile is, and
which known vulnerabilities it cuts off.

What a profile allows is counted in three ways: by its names that have a number on the architecture,
by the comparisons of the compiled program, and by what that program lets through.  The syscall
tables are injective both ways, so they agree (`ncard_allowed`, `length_compared`), and a profile
without argument rules always compiles: `surface_agrees` puts this together.

The two ratios of `compare` are `f64`s, and left out.
-/

set_option autoImplicit false

namespace CrunRs.Seccomp

open Ordered

/-! ## Sets of names -/

/-- The elements of a `BTreeSet`, in the order of the bytes. -/
def inOrder (names : Std.ExtTreeSet String) : List String := sortDedup strCmp names.toList

/-- `BTreeSet::difference`. -/
def difference (a b : Std.ExtTreeSet String) : Std.ExtTreeSet String :=
  .ofList (a.toList.filter (· ∉ b))

@[simp] theorem mem_inOrder {names : Std.ExtTreeSet String} {s : String} :
    s ∈ inOrder names ↔ s ∈ names := by
  rw [inOrder, mem_sortDedup, Std.ExtTreeSet.mem_toList]

@[simp] theorem mem_difference {a b : Std.ExtTreeSet String} {s : String} :
    s ∈ difference a b ↔ s ∈ a ∧ s ∉ b := by
  rw [difference, Std.ExtTreeSet.mem_ofList, List.contains_iff_mem, List.mem_filter]
  simp

/-- `allowed_names_for_arch`: allowed names that exist on the running architecture. -/
def SeccompProfile.allowedNamesForArch (t : Target) (profile : SeccompProfile) :
    Std.ExtTreeSet String :=
  .ofList (profile.allowedNames.toList.filter fun s ↦ (number t s).isSome)

theorem SeccompProfile.mem_allowedNamesForArch {t : Target} {profile : SeccompProfile}
    {s : String} :
    s ∈ profile.allowedNamesForArch t ↔ s ∈ profile.allowedNames ∧ (number t s).isSome := by
  rw [allowedNamesForArch, Std.ExtTreeSet.mem_ofList, List.contains_iff_mem, List.mem_filter]
  simp

/-! ## Inspecting -/

/-- `{:?}` of an action. -/
def LinuxSeccompAction.debug : LinuxSeccompAction → String
  | .kill => "ScmpActKill"
  | .killProcess => "ScmpActKillProcess"
  | .killThread => "ScmpActKillThread"
  | .trap => "ScmpActTrap"
  | .errno => "ScmpActErrno"
  | .notify => "ScmpActNotify"
  | .trace => "ScmpActTrace"
  | .log => "ScmpActLog"
  | .allow => "ScmpActAllow"

structure ProfileInspection where
  path : String
  arch : String
  defaultAction : String
  allowedCount : ℕ
  allowedCountForArch : ℕ
  allowed : List String
  /-- Names the profile lists that this architecture does not define. -/
  unknownForArch : List String
  instructionCount : ℕ
  workload : Option String
  generatedAtUnix : Option UInt64
  observedSyscallCount : Option ℕ
  baselineSyscallCount : Option ℕ
  totalEvents : Option UInt64
  sourceRuns : ℕ

/-- `inspect`. -/
def inspect (t : Target) (path : String) (profile : SeccompProfile) :
    Except SeccompError ProfileInspection := do
  let allowed := profile.allowedNames
  let allowedForArch := profile.allowedNamesForArch t
  let unknown := inOrder (difference allowed allowedForArch)
  let compiled ← compile t profile { defaultAction := .errno, order := .byNumber }
  let metadata := profile.crunMetadata
  return {
    path
    arch := nativeArchName t
    defaultAction := profile.seccomp.defaultAction.debug
    allowedCount := allowed.size
    allowedCountForArch := allowedForArch.size
    allowed := inOrder allowed
    unknownForArch := unknown
    instructionCount := compiled.program.len
    workload := metadata.bind CrunMetadata.workload
    generatedAtUnix := metadata.map CrunMetadata.generatedAtUnix
    observedSyscallCount := metadata.map CrunMetadata.observedSyscallCount
    baselineSyscallCount := metadata.map CrunMetadata.baselineSyscallCount
    totalEvents := metadata.map CrunMetadata.totalEvents
    sourceRuns := (metadata.map fun value ↦ value.sourceRuns.length).getD 0 }

/-! ## Vulnerabilities -/

/-- A route to a bug: the syscalls it needs, all of them. -/
structure AttackPath where
  syscalls : List String
  deriving DecidableEq, Repr

/-- One CVE and the syscalls that reach it. -/
structure CveEntry where
  id : String
  /-- Alternative routes to the same bug. -/
  attackPaths : List AttackPath
  containerRelevant : Bool := true
  deriving DecidableEq, Repr

structure CveMap where
  entries : List CveEntry
  deriving DecidableEq, Repr

structure CveCoverage where
  total : ℕ
  containerRelevant : ℕ
  mitigatedByProfile : ℕ := 0
  mitigatedByBaseline : ℕ := 0
  newlyMitigated : List String := []
  stillReachable : List String := []
  deriving DecidableEq, Repr

/-- `is_mitigated`: every one of the attack paths has a syscall the profile does not allow. -/
def isMitigated (entry : CveEntry) (allowed : Std.ExtTreeSet String) : Bool :=
  if entry.attackPaths.isEmpty then false
  else entry.attackPaths.all fun path ↦ path.syscalls.any fun syscall ↦ syscall ∉ allowed

/-- What one entry adds to the coverage. -/
def CveCoverage.add (profileAllowed baselineAllowed : Std.ExtTreeSet String)
    (coverage : CveCoverage) (entry : CveEntry) : CveCoverage :=
  let byProfile := isMitigated entry profileAllowed
  let byBaseline := !baselineAllowed.isEmpty && isMitigated entry baselineAllowed
  { coverage with
    mitigatedByProfile := coverage.mitigatedByProfile + byProfile.toNat
    stillReachable := if byProfile then coverage.stillReachable
      else coverage.stillReachable ++ [entry.id]
    mitigatedByBaseline := coverage.mitigatedByBaseline + byBaseline.toNat
    newlyMitigated := if byProfile && !byBaseline then coverage.newlyMitigated ++ [entry.id]
      else coverage.newlyMitigated }

/-- The entries that matter to a container. -/
def CveMap.relevant (map : CveMap) : List CveEntry := map.entries.filter CveEntry.containerRelevant

/-- `cve_coverage`. -/
def cveCoverage (map : CveMap) (profileAllowed baselineAllowed : Std.ExtTreeSet String) :
    CveCoverage :=
  map.relevant.foldl (CveCoverage.add profileAllowed baselineAllowed)
    { total := map.entries.length, containerRelevant := map.relevant.length }

/-! ## Comparing -/

/-- The baseline to measure against: where it came from, and what it allows. -/
structure Baseline where
  path : String
  allowed : Std.ExtTreeSet String

structure ComparisonReport where
  profile : String
  baseline : Option String
  arch : String
  universeCount : ℕ
  profileAllowed : ℕ
  baselineAllowed : Option ℕ
  /-- Allowed by the baseline but not by the profile: surface removed. -/
  newlyBlocked : List String
  /-- Allowed by the profile but not by the baseline. -/
  overAllowed : List String
  cve : Option CveCoverage

/-- `compare`. -/
def compareProfile (t : Target) (profilePath : String) (profile : SeccompProfile)
    (baseline : Option Baseline) (cveMap : Option CveMap) : ComparisonReport :=
  let universeCount := (table t).length
  let profileAllowed := profile.allowedNamesForArch t
  let baselineAllowed := baseline.map Baseline.allowed
  { profile := profilePath
    baseline := baseline.map Baseline.path
    arch := nativeArchName t
    universeCount
    profileAllowed := profileAllowed.size
    baselineAllowed := baselineAllowed.map Std.ExtTreeSet.size
    newlyBlocked := (baselineAllowed.map fun allowed ↦
      inOrder (difference allowed profileAllowed)).getD []
    overAllowed := (baselineAllowed.map fun allowed ↦
      inOrder (difference profileAllowed allowed)).getD []
    cve := cveMap.map fun map ↦ cveCoverage map profileAllowed (baselineAllowed.getD ∅) }

/-! ## The surface of a profile -/

variable {t : Target} {profile : SeccompProfile} {options : CompileOptions}
  {compiled : CompiledProfile}

/-- The compiler lists the names the report calls unknown. -/
theorem unresolved_eq_unknown (t : Target) (profile : SeccompProfile) :
    (resolveAll t profile.allowedNames.toList).2 =
      inOrder (difference profile.allowedNames (profile.allowedNamesForArch t)) := by
  rw [resolveAll, inOrder]
  refine sortDedup_congr fun s ↦ ?_
  rw [mem_resolveEach_snd, Std.ExtTreeSet.mem_toList, Std.ExtTreeSet.mem_toList, mem_difference,
    SeccompProfile.mem_allowedNamesForArch, not_and, Bool.not_eq_true, Option.isSome_eq_false_iff,
    Option.isNone_iff_eq_none]
  exact and_congr_right fun hs ↦ ⟨fun hnone _ ↦ hnone, fun hnone ↦ hnone hs⟩

/-- **Every name is one number.** -/
theorem length_comparedNumbers (t : Target) (profile : SeccompProfile) (order : SyscallOrder) :
    (comparedNumbers t profile order).length = (profile.allowedNamesForArch t).size := by
  have hnumber : ∀ s ∈ (profile.allowedNamesForArch t).toList,
      number t s = some ((number t s).getD 0) := by
    intro s hs
    rw [Std.ExtTreeSet.mem_toList, SeccompProfile.mem_allowedNamesForArch] at hs
    obtain ⟨n, hn⟩ := Option.isSome_iff_exists.mp hs.2
    rw [hn, Option.getD_some]
  have hnames : (profile.allowedNamesForArch t).toList.Nodup :=
    Std.ExtTreeSet.distinct_toList.imp fun hne heq ↦
      hne (Std.LawfulEqCmp.compare_eq_iff_eq.mpr heq)
  -- no two names have the same number
  have hnumbers : ((profile.allowedNamesForArch t).toList.map fun s ↦
      (number t s).getD 0).Nodup := by
    refine List.Nodup.map_on (fun s hs s' hs' heq ↦ ?_) hnames
    have hname := name_eq_some_iff_number.mpr (hnumber s hs)
    have hname' := name_eq_some_iff_number.mpr (hnumber s' hs')
    rw [heq, hname'] at hname
    exact (Option.some.inj hname).symm
  have hnodup : (comparedNumbers t profile order).Nodup :=
    comparedNumbers_nodup t profile order
  have hperm : (comparedNumbers t profile order).Perm
      ((profile.allowedNamesForArch t).toList.map fun s ↦ (number t s).getD 0) := by
    refine (List.perm_ext_iff_of_nodup hnodup hnumbers).mpr fun n ↦ ?_
    rw [mem_comparedNumbers, AllowsNumber, List.mem_map]
    constructor
    · rintro ⟨s, hs, hn⟩
      refine ⟨s, ?_, by rw [hn, Option.getD_some]⟩
      rw [Std.ExtTreeSet.mem_toList, SeccompProfile.mem_allowedNamesForArch, hn]
      exact ⟨hs, rfl⟩
    · rintro ⟨s, hs, rfl⟩
      have hallowed := hs
      rw [Std.ExtTreeSet.mem_toList, SeccompProfile.mem_allowedNamesForArch] at hallowed
      exact ⟨s, hallowed.1, hnumber s hs⟩
  rw [hperm.length_eq, List.length_map, Std.ExtTreeSet.length_toList]

/-- The native syscall numbers a program allows, from some place and with some arguments. -/
def nativeAllowed (t : Target) (p : Program) (pointer : UInt64) (args : Fin 6 → UInt64) :
    Set UInt32 :=
  {nr | p.run { nr, arch := auditArchNative t, instructionPointer := pointer, args } =
    .ret seccompRetAllow}

/-- **The program allows as many native numbers as it compares with.** -/
theorem ncard_nativeAllowed (h : compile t profile options = .ok compiled) (pointer : UInt64)
    (args : Fin 6 → UInt64) :
    (nativeAllowed t compiled.program pointer args).ncard =
      (comparedNumbers t profile options.order).length := by
  have hrange : ∀ n ∈ comparedNumbers t profile options.order, 0 ≤ n ∧ n < 512 :=
    fun n hn ↦ allowsNumber_range (mem_comparedNumbers.mp hn)
  have hnr : ∀ n ∈ comparedNumbers t profile options.order,
      ((UInt32.ofNat n.toNat).toNat : Int) = n := by
    intro n hn
    obtain ⟨hlo, hhi⟩ := hrange n hn
    rw [UInt32.toNat_ofNat_of_lt' (by rw [UInt32.size]; omega)]
    omega
  have hset : nativeAllowed t compiled.program pointer args =
      ((comparedNumbers t profile options.order).map fun n ↦ UInt32.ofNat n.toNat).toFinset := by
    ext nr
    rw [nativeAllowed, Set.mem_ofPred_eq, run_eq_allow_iff h, Finset.mem_coe, List.mem_toFinset,
      List.mem_map]
    constructor
    · rintro ⟨-, hallowed⟩
      exact ⟨nr.toNat, mem_comparedNumbers.mpr hallowed, by simp⟩
    · rintro ⟨n, hn, rfl⟩
      exact ⟨rfl, by rw [hnr n hn]; exact mem_comparedNumbers.mp hn⟩
  have hnodup : ((comparedNumbers t profile options.order).map fun n ↦
      UInt32.ofNat n.toNat).Nodup := by
    refine List.Nodup.map_on (fun n hn m hm heq ↦ ?_) (comparedNumbers_nodup ..)
    rw [← hnr n hn, ← hnr m hm, heq]
  rw [hset, Set.ncard_coe_finset, List.toFinset_card_of_nodup hnodup, List.length_map]

theorem len_compiled (h : compile t profile options = .ok compiled) :
    compiled.program.len = allowlistLen t (comparedNumbers t profile options.order) := by
  obtain ⟨hallowed, -, hbuild⟩ := compile_inv h
  rw [hallowed] at hbuild
  exact len_buildAllowlist comparedNumbers_fits hbuild

/-- What is not compiled has been refused for a conditional rule. -/
theorem compile_error {e : SeccompError} (h : compile t profile options = .error e) :
    ∃ syscalls, e = .unsupportedConditionalRule syscalls := by
  cases hvalid : profile.validateSupported with
  | ok =>
    obtain ⟨compiled, hcompile, -⟩ := compile_spec t options hvalid
    rw [hcompile] at h
    cases h
  | error e' =>
    have hcompile : compile t profile options = .error e' := by
      rw [compile, ensureSupported_eq, hvalid]
      rfl
    obtain rfl : e = e' := Except.error.inj (h.symm.trans hcompile)
    rw [SeccompProfile.validateSupported] at hvalid
    split at hvalid
    · cases hvalid
    · split at hvalid
      · exact ⟨_, (Except.error.inj hvalid).symm⟩
      · cases hvalid

/-- **The surface that is reported is the one that is enforced.**  On x86_64 a profile compiles
exactly if no rule has conditions on arguments, and then all counts of what it allows agree. -/
theorem surface_agrees (profile : SeccompProfile) (options : CompileOptions) :
    ((∃ compiled, compile .x86_64 profile options = .ok compiled) ↔
      ∀ rule ∈ profile.seccomp.syscalls.getD [], ¬ rule.args.any fun args ↦ !args.isEmpty) ∧
    (∀ e, compile .x86_64 profile options = .error e →
      ∃ syscalls, e = .unsupportedConditionalRule syscalls) ∧
    ∀ compiled, compile .x86_64 profile options = .ok compiled →
      ∀ (pointer : UInt64) (args : Fin 6 → UInt64) (n : ℕ),
        (nativeAllowed .x86_64 compiled.program pointer args).ncard = n →
        (profile.allowedNamesForArch .x86_64).size = n ∧
        (∀ path, ∃ inspection, inspect .x86_64 path profile = .ok inspection ∧
          inspection.allowedCountForArch = n ∧ inspection.instructionCount = 2 * n + 7 ∧
          inspection.unknownForArch = compiled.unresolved) ∧
        ∀ path baseline cveMap,
          (compareProfile .x86_64 path profile baseline cveMap).profileAllowed = n := by
  refine ⟨?_, fun e ↦ compile_error, ?_⟩
  · have hconditional : profile.validateSupported = .ok () ↔
        ∀ rule ∈ profile.seccomp.syscalls.getD [], ¬ rule.args.any fun args ↦ !args.isEmpty := by
      rw [SeccompProfile.validateSupported_iff, SeccompProfile.HasConditionalRule,
        SeccompProfile.rules]
      push Not
      rfl
    rw [← hconditional]
    constructor
    · rintro ⟨compiled, hcompile⟩
      exact validateSupported_of_compile hcompile
    · intro hvalid
      obtain ⟨compiled, hcompile, -⟩ := compile_spec .x86_64 options hvalid
      exact ⟨compiled, hcompile⟩
  · rintro compiled hcompile pointer args n rfl
    have hsize := length_comparedNumbers .x86_64 profile options.order
    have hsize' := length_comparedNumbers .x86_64 profile .byNumber
    rw [ncard_nativeAllowed hcompile, hsize]
    refine ⟨rfl, fun path ↦ ?_, fun path baseline cveMap ↦ rfl⟩
    obtain ⟨inspected, hinspected, -⟩ := compile_spec .x86_64
      { defaultAction := .errno, order := .byNumber } (validateSupported_of_compile hcompile)
    have hunresolved := (compile_inv hcompile).2.1
    have hlen : inspected.program.len = 2 * (profile.allowedNamesForArch .x86_64).size + 7 := by
      rw [len_compiled hinspected, allowlistLen, hsize', prologueLen]
      omega
    refine ⟨_, by rw [inspect, hinspected]; rfl, rfl, hlen, ?_⟩
    rw [hunresolved, unresolved_eq_unknown]

/-- `read`, `write` and a name no architecture has. -/
theorem readWrite_surface : ∃ compiled,
    compile .x86_64 (listing ["write", "no_such_call", "read"]) {} = .ok compiled ∧
      (nativeAllowed .x86_64 compiled.program 0 0).ncard = 2 ∧
      ∃ inspection, inspect .x86_64 "p.json" (listing ["write", "no_such_call", "read"]) =
        .ok inspection ∧ inspection.instructionCount = 11 := by
  obtain ⟨compiled, hcompile⟩ := listing_compiles ["write", "no_such_call", "read"] {}
  obtain ⟨hsize, hinspect, -⟩ := (surface_agrees (listing ["write", "no_such_call", "read"])
    {}).2.2 compiled hcompile 0 0 _ rfl
  have htwo : ((listing ["write", "no_such_call", "read"]).allowedNamesForArch .x86_64).size = 2 := by
    decide +kernel
  obtain ⟨inspection, hok, -, hlength, -⟩ := hinspect "p.json"
  rw [htwo] at hsize
  exact ⟨compiled, hcompile, hsize.symm, inspection, hok, by rw [hlength, ← hsize]⟩

end CrunRs.Seccomp
