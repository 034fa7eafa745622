import CrunRs.Seccomp.Report

/-!
# The baseline

`seccomp/baseline.rs`: the names that a Docker container may call, read out of a Docker-format
profile.  Its rules carry filters on the architecture and on the capabilities of the container.

The daemon skips a rule when *any* capability of `excludes` is held; the code skips it when they
*all* are.  A rule of whose excluded capabilities some are held and others are not applies here and
not there (`ruleApplies_iff`), so that the names of such rules are what the code has too many:
`allowed_eq_union`.
-/

set_option autoImplicit false

namespace CrunRs.Seccomp

/-! ## The profile -/

/-- `docker_default_capabilities`: what a Docker container is granted unless changed. -/
def dockerDefaultCapabilities : List String :=
  ["CAP_AUDIT_WRITE", "CAP_CHOWN", "CAP_DAC_OVERRIDE", "CAP_FOWNER", "CAP_FSETID", "CAP_KILL",
    "CAP_MKNOD", "CAP_NET_BIND_SERVICE", "CAP_NET_RAW", "CAP_SETFCAP", "CAP_SETGID", "CAP_SETPCAP",
    "CAP_SETUID", "CAP_SYS_CHROOT"]

/-- `docker_arch_name`: what Docker profiles call the running target. -/
def dockerArchName : Target → String
  | .x86_64 => "amd64"
  | .aarch64 => "arm64"

structure BaselineOptions where
  arch : String
  capabilities : Std.ExtTreeSet String

/-- `BaselineOptions::default`. -/
def BaselineOptions.default (t : Target) : BaselineOptions :=
  ⟨dockerArchName t, .ofList dockerDefaultCapabilities⟩

structure RuleFilter where
  caps : List String := []
  arches : List String := []
  deriving DecidableEq, Repr

structure SyscallRule where
  names : List String := []
  name : Option String := none
  action : String
  includes : Option RuleFilter := none
  excludes : Option RuleFilter := none
  deriving DecidableEq, Repr

structure DockerProfile where
  syscalls : List SyscallRule := []
  deriving DecidableEq, Repr

/-! ## Reading it -/

/-- The first half of `rule_applies`: the architecture is listed, if any is, and every listed
capability is held. -/
def RuleFilter.includesHold (includes : RuleFilter) (options : BaselineOptions) : Bool :=
  if !includes.arches.isEmpty && options.arch ∉ includes.arches then false
  else if includes.caps.any (· ∉ options.capabilities) then false
  else true

/-- The second half: the architecture is listed, or capabilities are and every one is held. -/
def RuleFilter.excludesHold (excludes : RuleFilter) (options : BaselineOptions) : Bool :=
  if !excludes.arches.isEmpty && options.arch ∈ excludes.arches then true
  else if !excludes.caps.isEmpty && excludes.caps.all (· ∈ options.capabilities) then true
  else false

/-- `rule_applies`. -/
def ruleApplies (rule : SyscallRule) (options : BaselineOptions) : Bool :=
  rule.includes.all (RuleFilter.includesHold · options) &&
    !rule.excludes.any (RuleFilter.excludesHold · options)

/-- The names a rule is about: those of `names`, and the one of `name`. -/
def SyscallRule.listed (rule : SyscallRule) : List String := rule.names ++ rule.name.toList

/-- A turn of the loop of `allowed_names`. -/
def extendWith (options : BaselineOptions) (allowed : Std.ExtTreeSet String) (rule : SyscallRule) :
    Std.ExtTreeSet String :=
  if rule.action ≠ "SCMP_ACT_ALLOW" || !ruleApplies rule options then allowed
  else allowed.insertMany rule.listed

/-- The loop of `allowed_names`. -/
def DockerProfile.allowed (profile : DockerProfile) (options : BaselineOptions) :
    Std.ExtTreeSet String :=
  profile.syscalls.foldl (extendWith options) ∅

/-- What is outside of the runtime: the files, and the JSON parser. -/
structure ProfileReader where
  readToString : String → Except String String
  fromStr : String → Except String DockerProfile

/-- The profile at a path; an error is shown by its context. -/
def ProfileReader.load (reader : ProfileReader) (path : String) : Except String DockerProfile := do
  let content ← (reader.readToString path).mapError fun _ ↦
    "failed to read baseline profile: " ++ path
  (reader.fromStr content).mapError fun _ ↦ "failed to parse baseline profile: " ++ path

/-- `allowed_names`. -/
def allowedNames (reader : ProfileReader) (path : String) (options : BaselineOptions) :
    Except String (Std.ExtTreeSet String) :=
  (reader.load path).map fun profile ↦ profile.allowed options

/-- `allowed_names_for_arch`. -/
def allowedNamesForArch (t : Target) (reader : ProfileReader) (path : String)
    (options : BaselineOptions) : Except String (Std.ExtTreeSet String) :=
  (allowedNames reader path options).map fun allowed ↦
    .ofList (allowed.toList.filter fun name ↦ (number t name).isSome)

/-! ## What the daemon keeps -/

/-- The filters on which the daemon and the code agree. -/
structure PassesOthers (rule : SyscallRule) (options : BaselineOptions) : Prop where
  includesArch : ∀ includes ∈ rule.includes, includes.arches ≠ [] → options.arch ∈ includes.arches
  includesCaps : ∀ includes ∈ rule.includes, ∀ cap ∈ includes.caps, cap ∈ options.capabilities
  excludesArch : ∀ excludes ∈ rule.excludes, options.arch ∉ excludes.arches

/-- The daemon keeps a rule that passes these, none of whose excluded capabilities is held. -/
structure DaemonKeeps (rule : SyscallRule) (options : BaselineOptions) : Prop
    extends PassesOthers rule options where
  excludesCaps : ∀ excludes ∈ rule.excludes, ∀ cap ∈ excludes.caps, cap ∉ options.capabilities

/-- Of the excluded capabilities some are held and others are not. -/
def PartlyExcluded (rule : SyscallRule) (options : BaselineOptions) : Prop :=
  ∃ excludes ∈ rule.excludes, (∃ cap ∈ excludes.caps, cap ∈ options.capabilities) ∧
    ∃ cap ∈ excludes.caps, cap ∉ options.capabilities

/-- The names of the allow rules that satisfy a predicate. -/
def DockerProfile.namesOf (profile : DockerProfile) (P : SyscallRule → Prop) : Set String :=
  {s | ∃ rule ∈ profile.syscalls, rule.action = "SCMP_ACT_ALLOW" ∧ P rule ∧ s ∈ rule.listed}

/-- The names of the allow rules that the daemon keeps. -/
def DockerProfile.kept (profile : DockerProfile) (options : BaselineOptions) : Set String :=
  profile.namesOf fun rule ↦ DaemonKeeps rule options

/-- The names of the allow rules that only the daemon skips. -/
def DockerProfile.partlyExcluded (profile : DockerProfile) (options : BaselineOptions) :
    Set String :=
  profile.namesOf fun rule ↦ PassesOthers rule options ∧ PartlyExcluded rule options

/-- The list is held as a whole, or not at all, or in part. -/
theorem not_all_held_iff {caps : List String} {held : Std.ExtTreeSet String} :
    ¬ (caps ≠ [] ∧ ∀ cap ∈ caps, cap ∈ held) ↔
      (∀ cap ∈ caps, cap ∉ held) ∨ ((∃ cap ∈ caps, cap ∈ held) ∧ ∃ cap ∈ caps, cap ∉ held) := by
  constructor
  · intro h
    by_cases hnone : ∀ cap ∈ caps, cap ∉ held
    · exact Or.inl hnone
    · push Not at hnone
      obtain ⟨cap, hcap, hheld⟩ := hnone
      refine Or.inr ⟨⟨cap, hcap, hheld⟩, ?_⟩
      by_contra hall
      push Not at hall
      exact h ⟨List.ne_nil_of_mem hcap, hall⟩
  · rintro (hnone | ⟨-, cap, hcap, hheld⟩) ⟨hne, hall⟩
    · obtain ⟨cap, hcap⟩ := List.exists_mem_of_ne_nil _ hne
      exact hnone cap hcap (hall cap hcap)
    · exact hheld (hall cap hcap)

theorem RuleFilter.includesHold_iff {includes : RuleFilter} {options : BaselineOptions} :
    includes.includesHold options = true ↔
      (includes.arches ≠ [] → options.arch ∈ includes.arches) ∧
        ∀ cap ∈ includes.caps, cap ∈ options.capabilities := by
  rw [includesHold]
  split_ifs with harch hcap <;> simp_all

theorem RuleFilter.excludesHold_eq_false_iff {excludes : RuleFilter} {options : BaselineOptions} :
    excludes.excludesHold options = false ↔ options.arch ∉ excludes.arches ∧
      ¬ (excludes.caps ≠ [] ∧ ∀ cap ∈ excludes.caps, cap ∈ options.capabilities) := by
  -- A list that contains the architecture is not empty: the first half of the test is idle.
  have harches : (!excludes.arches.isEmpty && decide (options.arch ∈ excludes.arches)) = true ↔
      options.arch ∈ excludes.arches := by
    simpa using List.ne_nil_of_mem
  have hcaps : (!excludes.caps.isEmpty && excludes.caps.all (· ∈ options.capabilities)) = true ↔
      excludes.caps ≠ [] ∧ ∀ cap ∈ excludes.caps, cap ∈ options.capabilities := by
    simp
  rw [excludesHold, if_congr harches rfl rfl, if_congr hcaps rfl rfl]
  split_ifs <;> simp_all

/-- **A rule applies** where the daemon keeps it, and where it is excluded in part. -/
theorem ruleApplies_iff {rule : SyscallRule} {options : BaselineOptions} :
    ruleApplies rule options = true ↔ DaemonKeeps rule options ∨
      PassesOthers rule options ∧ PartlyExcluded rule options := by
  rw [ruleApplies, Bool.and_eq_true, Option.all_eq_true, Bool.not_eq_true', Option.any_eq_false]
  simp only [RuleFilter.includesHold_iff, RuleFilter.excludesHold_eq_false_iff, not_all_held_iff]
  constructor
  · rintro ⟨hincludes, hexcludes⟩
    have hothers : PassesOthers rule options :=
      ⟨fun f hf ↦ (hincludes f hf).1, fun f hf ↦ (hincludes f hf).2, fun f hf ↦ (hexcludes f hf).1⟩
    by_cases hpart : PartlyExcluded rule options
    · exact Or.inr ⟨hothers, hpart⟩
    · refine Or.inl ⟨hothers, fun f hf ↦ ?_⟩
      exact (hexcludes f hf).2.resolve_right fun h ↦ hpart ⟨f, hf, h⟩
  · rintro (h | ⟨h, f, hf, hpart⟩)
    · exact ⟨fun f hf ↦ ⟨h.includesArch f hf, h.includesCaps f hf⟩,
        fun f hf ↦ ⟨h.excludesArch f hf, Or.inl (h.excludesCaps f hf)⟩⟩
    · refine ⟨fun f hf ↦ ⟨h.includesArch f hf, h.includesCaps f hf⟩, fun g hg ↦ ?_⟩
      obtain rfl : f = g := Option.mem_unique hf hg
      exact ⟨h.excludesArch f hg, Or.inr hpart⟩

theorem mem_extendWith {options : BaselineOptions} {allowed : Std.ExtTreeSet String}
    {rule : SyscallRule} {s : String} :
    s ∈ extendWith options allowed rule ↔ s ∈ allowed ∨
      rule.action = "SCMP_ACT_ALLOW" ∧ ruleApplies rule options = true ∧ s ∈ rule.listed := by
  rw [extendWith]
  split_ifs with hskip
  · simp only [Bool.or_eq_true, decide_eq_true_eq, Bool.not_eq_true'] at hskip
    simp only [iff_self_or, and_imp]
    rintro haction happlies -
    rcases hskip with hskip | hskip
    · exact absurd haction hskip
    · exact absurd happlies (by simp [hskip])
  · simp_all

theorem mem_foldl_extendWith {options : BaselineOptions} {s : String} (rules : List SyscallRule) :
    ∀ allowed : Std.ExtTreeSet String, s ∈ rules.foldl (extendWith options) allowed ↔
      s ∈ allowed ∨ ∃ rule ∈ rules, rule.action = "SCMP_ACT_ALLOW" ∧
        ruleApplies rule options = true ∧ s ∈ rule.listed := by
  induction rules with
  | nil => simp
  | cons rule rules ih =>
    intro allowed
    rw [List.foldl_cons, ih, mem_extendWith]
    simp [or_assoc]

/-- **The names allowed** are those of the rules that apply. -/
theorem DockerProfile.mem_allowed {profile : DockerProfile} {options : BaselineOptions}
    {s : String} :
    s ∈ profile.allowed options ↔
      s ∈ profile.namesOf fun rule ↦ ruleApplies rule options = true := by
  rw [allowed, mem_foldl_extendWith, namesOf, Set.mem_ofPred_eq]
  simp

theorem DockerProfile.namesOf_or (profile : DockerProfile) (P Q : SyscallRule → Prop) :
    (profile.namesOf fun rule ↦ P rule ∨ Q rule) = profile.namesOf P ∪ profile.namesOf Q := by
  ext s
  simp only [namesOf, Set.mem_union, Set.mem_ofPred_eq, or_and_right, and_or_left, exists_or]

/-- What the code allows is what the daemon does, and the names of the rules excluded in part. -/
theorem DockerProfile.allowed_eq_union (profile : DockerProfile) (options : BaselineOptions) :
    {s | s ∈ profile.allowed options} = profile.kept options ∪ profile.partlyExcluded options := by
  rw [kept, partlyExcluded, ← namesOf_or]
  ext s
  rw [Set.mem_ofPred_eq, mem_allowed]
  simp only [ruleApplies_iff]

/-- With at most one capability in each filter, "any" and "all" are the same. -/
theorem DockerProfile.partlyExcluded_eq_empty {profile : DockerProfile} {options : BaselineOptions}
    (h : ∀ rule ∈ profile.syscalls, ∀ excludes ∈ rule.excludes, excludes.caps.length ≤ 1) :
    profile.partlyExcluded options = ∅ := by
  refine Set.eq_empty_of_forall_notMem ?_
  rintro s ⟨rule, hrule, -, ⟨-, excludes, hexcludes, ⟨cap, hcap, hheld⟩, other, hother, hnot⟩, -⟩
  rcases Nat.le_one_iff_eq_zero_or_eq_one.mp (h rule hrule excludes hexcludes) with hlen | hlen
  · rw [List.length_eq_zero_iff.mp hlen] at hcap
    exact absurd hcap List.not_mem_nil
  · obtain ⟨only, honly⟩ := List.length_eq_one_iff.mp hlen
    rw [honly, List.mem_singleton] at hcap hother
    exact hnot (hother.trans hcap.symm ▸ hheld)

/-- The same for an architecture: of either kind, the names that it defines. -/
theorem mem_allowedNamesForArch {t : Target} {reader : ProfileReader} {path : String}
    {profile : DockerProfile} {options : BaselineOptions} (h : reader.load path = .ok profile) :
    ∃ allowed, allowedNamesForArch t reader path options = .ok allowed ∧
      ∀ s, s ∈ allowed ↔
        s ∈ profile.kept options ∪ profile.partlyExcluded options ∧ (number t s).isSome := by
  rw [allowedNamesForArch, allowedNames, h]
  refine ⟨_, rfl, fun s ↦ ?_⟩
  rw [Std.ExtTreeSet.mem_ofList, List.contains_iff_mem, List.mem_filter,
    Std.ExtTreeSet.mem_toList, ← profile.allowed_eq_union, Set.mem_ofPred_eq]

/-- **The baseline is the daemon's** just where every name of a rule that is excluded in part is
also a name of a rule that is not excluded. -/
theorem allowedNames_exact_iff {reader : ProfileReader} {path : String} {profile : DockerProfile}
    (options : BaselineOptions) (h : reader.load path = .ok profile) :
    (∃ allowed, allowedNames reader path options = .ok allowed ∧
        {s | s ∈ allowed} = profile.kept options) ↔
      profile.partlyExcluded options ⊆ profile.kept options := by
  rw [allowedNames, h, ← Set.union_eq_left, ← profile.allowed_eq_union]
  constructor
  · rintro ⟨allowed, hok, heq⟩
    obtain rfl : profile.allowed options = allowed := Except.ok.inj hok
    exact heq
  · exact fun heq ↦ ⟨_, rfl, heq⟩

/-- A reader of one file, whose content is the given profile. -/
def ProfileReader.ofFile (path content : String) (profile : DockerProfile) : ProfileReader where
  readToString p := if p = path then .ok content else .error "No such file or directory"
  fromStr s := if s = content then .ok profile else .error "expected value"

theorem ProfileReader.load_ofFile (path content : String) (profile : DockerProfile) :
    (ofFile path content profile).load path = .ok profile := by
  simp [load, ofFile, Except.mapError, bind, Except.bind]

/-- `clone` is allowed unless the container is an administrator. -/
def cloneProfile : DockerProfile :=
  ⟨[{ names := ["clone"], action := "SCMP_ACT_ALLOW", excludes := some ⟨["CAP_SYS_ADMIN"], []⟩ }]⟩

/-- What `cloneProfile` is written as. -/
def cloneJson : String :=
  r#"{"syscalls":[{"names":["clone"],"action":"SCMP_ACT_ALLOW","# ++
    r#""excludes":{"caps":["CAP_SYS_ADMIN"]}}]}"#

theorem cloneProfile_exact : ∃ allowed,
    allowedNames (.ofFile "docker.json" cloneJson cloneProfile) "docker.json" (.default .x86_64) =
        .ok allowed ∧
      {s | s ∈ allowed} = cloneProfile.kept (.default .x86_64) := by
  refine (allowedNames_exact_iff _ (ProfileReader.load_ofFile ..)).mpr ?_
  rw [DockerProfile.partlyExcluded_eq_empty (by simp [cloneProfile])]
  exact Set.empty_subset _

/-- `setns` is allowed unless the container changes users or is an administrator. -/
def setnsProfile : DockerProfile :=
  ⟨[{ names := ["setns"], action := "SCMP_ACT_ALLOW",
      excludes := some ⟨["CAP_SETUID", "CAP_SYS_ADMIN"], []⟩ }]⟩

/-- What `setnsProfile` is written as. -/
def setnsJson : String :=
  r#"{"syscalls":[{"names":["setns"],"action":"SCMP_ACT_ALLOW","# ++
    r#""excludes":{"caps":["CAP_SETUID","CAP_SYS_ADMIN"]}}]}"#

/-- A default container holds `CAP_SETUID`, for which the daemon skips the rule, and not
`CAP_SYS_ADMIN`, for which the code applies it. -/
theorem setnsProfile_not_exact : ¬ ∃ allowed,
    allowedNames (.ofFile "docker.json" setnsJson setnsProfile) "docker.json" (.default .x86_64) =
        .ok allowed ∧
      {s | s ∈ allowed} = setnsProfile.kept (.default .x86_64) := by
  rw [allowedNames, ProfileReader.load_ofFile]
  rintro ⟨allowed, hok, heq⟩
  obtain rfl : setnsProfile.allowed (.default .x86_64) = allowed := Except.ok.inj hok
  have hallowed : "setns" ∈ setnsProfile.kept (.default .x86_64) := by
    rw [← heq, Set.mem_ofPred_eq, DockerProfile.mem_allowed]
    refine ⟨_, List.mem_singleton_self _, rfl, ?_, by decide⟩
    decide +kernel
  obtain ⟨rule, hrule, -, hkeeps, -⟩ := hallowed
  obtain rfl := List.mem_singleton.mp hrule
  refine hkeeps.excludesCaps _ rfl "CAP_SETUID" (by decide) ?_
  simp [BaselineOptions.default, dockerDefaultCapabilities]

end CrunRs.Seccomp
