import CrunRs.Seccomp.Profile

/-!
# What a profile means

An OCI profile gives a syscall the action of the rule that names it, and the default action if none
does (`SeccompProfile.meaning`).  This is the meaning the runtime's own profiles have, and the one a
profile written by somebody else has.

`compile` reads the names of the allow rules and takes the default from its options, so of the
profile's own default nothing is left.  `validate_supported`, which is there to refuse what an
allowlist cannot express, looks at argument conditions only.  A profile whose default is to allow is
therefore compiled into a program that denies every syscall no rule names: the meaning is preserved
exactly if there is no such syscall, or the default is not to allow (`compile_preserves_iff`).
-/

set_option autoImplicit false

namespace CrunRs.Seccomp

namespace SeccompProfile

variable (profile : SeccompProfile)

/-- The rules, in order. -/
def rules : List LinuxSyscall := profile.seccomp.syscalls.getD []

/-- The action a profile gives a syscall. -/
def meaning (s : String) : LinuxSeccompAction :=
  match profile.rules.find? fun rule ↦ s ∈ rule.names with
  | some rule => rule.action
  | none => profile.seccomp.defaultAction

/-- No syscall is named by two rules. -/
def RulesDisjoint : Prop := profile.rules.Pairwise fun r r' ↦ r.names.Disjoint r'.names

/-- A rule with conditions on arguments, which is what `validate_supported` refuses. -/
def HasConditionalRule : Prop := ∃ rule ∈ profile.rules, rule.args.any fun args ↦ !args.isEmpty

/-- Some rule names the syscall. -/
def Names (s : String) : Prop := ∃ rule ∈ profile.rules, s ∈ rule.names

variable {profile} {s : String}

/-- Under disjoint rules, whichever rule names a syscall decides about it. -/
theorem meaning_of_mem (h : profile.RulesDisjoint) {rule : LinuxSyscall}
    (hrule : rule ∈ profile.rules) (hs : s ∈ rule.names) : profile.meaning s = rule.action := by
  have hfind : profile.rules.find? (fun rule ↦ s ∈ rule.names) = some rule := by
    obtain ⟨before, after, hsplit⟩ := List.append_of_mem hrule
    rw [List.find?_eq_some_iff_append]
    refine ⟨decide_eq_true hs, before, after, hsplit, fun r hr ↦ ?_⟩
    have hpair := h
    rw [RulesDisjoint, hsplit, List.pairwise_append] at hpair
    have hdisjoint := hpair.2.2 r hr rule List.mem_cons_self
    simpa using fun hsr ↦ hdisjoint hsr hs
  rw [meaning, hfind]

theorem meaning_of_not_names (h : ¬ profile.Names s) :
    profile.meaning s = profile.seccomp.defaultAction := by
  have hfind : profile.rules.find? (fun rule ↦ s ∈ rule.names) = none := by
    rw [List.find?_eq_none]
    exact fun rule hrule hs ↦ h ⟨rule, hrule, of_decide_eq_true hs⟩
  rw [meaning, hfind]

/-- The names the compiler lets through are those of the allow rules. -/
theorem mem_allowedNames_iff (h : profile.RulesDisjoint) :
    s ∈ profile.allowedNames ↔ profile.Names s ∧ profile.meaning s = .allow := by
  rw [mem_allowedNames]
  constructor
  · rintro ⟨rule, hrule, haction, hs⟩
    exact ⟨⟨rule, hrule, hs⟩, (meaning_of_mem h hrule hs).trans haction⟩
  · rintro ⟨⟨rule, hrule, hs⟩, hmeaning⟩
    exact ⟨rule, hrule, (meaning_of_mem h hrule hs).symm.trans hmeaning, hs⟩

/-- `validate_supported` refuses exactly the profiles with a conditional rule. -/
theorem validateSupported_iff : profile.validateSupported = .ok () ↔ ¬ profile.HasConditionalRule := by
  rw [validateSupported, HasConditionalRule, rules]
  cases profile.seccomp.syscalls with
  | none => simp
  | some rules =>
    dsimp only [Option.getD_some]
    split
    · rename_i rule hfind
      have hrule : ∃ rule ∈ rules, rule.args.any fun args ↦ !args.isEmpty :=
        ⟨rule, List.mem_of_find?_eq_some hfind, by simpa using List.find?_some hfind⟩
      simpa using hrule
    · rename_i hfind
      simpa using List.find?_eq_none.mp hfind

end SeccompProfile

/-! ## Preservation -/

/-- What is compiled has passed the check. -/
theorem validateSupported_of_compile {t : Target} {profile : SeccompProfile}
    {options : CompileOptions} {compiled : CompiledProfile}
    (h : compile t profile options = .ok compiled) : profile.validateSupported = .ok () := by
  cases hvalid : profile.validateSupported with
  | ok => rfl
  | error e =>
    rw [compile, ensureSupported_eq, hvalid] at h
    exact absurd h (by simp [bind, Except.bind])

/-- **What a compiled profile is made of.** -/
theorem compile_inv {t : Target} {profile : SeccompProfile} {options : CompileOptions}
    {compiled : CompiledProfile} (h : compile t profile options = .ok compiled) :
    compiled.allowed = comparedNumbers t profile options.order ∧
      compiled.unresolved = (resolveAll t profile.allowedNames.toList).2 ∧
      buildAllowlist t compiled.allowed options.defaultAction = .ok compiled.program := by
  rw [compile_eq t options (validateSupported_of_compile h)] at h
  cases hbuild : buildAllowlist t (comparedNumbers t profile options.order)
      options.defaultAction with
  | error e =>
    rw [hbuild] at h
    cases h
  | ok program =>
    rw [hbuild] at h
    obtain rfl := Except.ok.inj h
    exact ⟨rfl, rfl, hbuild⟩

/-- What a compiled program allows: the native calls of the allowed numbers. -/
theorem run_eq_allow_iff {t : Target} {profile : SeccompProfile} {options : CompileOptions}
    {compiled : CompiledProfile} (h : compile t profile options = .ok compiled) (d : SeccompData) :
    compiled.program.run d = .ret seccompRetAllow ↔
      d.arch = auditArchNative t ∧ AllowsNumber t profile d.nr.toNat := by
  obtain ⟨compiled', hcompile, hrun⟩ := compile_spec t options (validateSupported_of_compile h)
  obtain rfl : compiled' = compiled := Except.ok.inj (hcompile.symm.trans h)
  obtain ⟨hyes, hno⟩ := hrun d
  refine ⟨fun hret ↦ ?_, hyes⟩
  by_contra hnot
  have hdeny := hno hnot
  rw [hret] at hdeny
  exact options.defaultAction.toBpfRet_ne_allow (ClassicBpf.Outcome.ret.inj hdeny).symm

/-- On the native number of every syscall of the architecture, the program allows exactly what the
profile allows. -/
def PreservesMeaning (t : Target) (profile : SeccompProfile) (program : Program) : Prop :=
  ∀ s n, number t s = some n → ∀ d : SeccompData, d.arch = auditArchNative t →
    (d.nr.toNat : Int) = n →
      (program.run d = .ret seccompRetAllow ↔ profile.meaning s = .allow)

/-- The number of a syscall is allowed exactly if its name is: no two syscalls share a number. -/
theorem allowsNumber_iff {t : Target} {profile : SeccompProfile} {s : String} {n : Int}
    (hs : number t s = some n) : AllowsNumber t profile n ↔ s ∈ profile.allowedNames := by
  constructor
  · rintro ⟨s', hs', hn⟩
    have hname : some s' = some s :=
      (name_eq_some_iff_number.mpr hn).symm.trans (name_eq_some_iff_number.mpr hs)
    rwa [← Option.some.inj hname]
  · exact fun hmem ↦ ⟨s, hmem, hs⟩

/-- A native call of a syscall, as the filter sees it. -/
def nativeCall (t : Target) (n : Int) : SeccompData where
  nr := UInt32.ofNat n.toNat
  arch := auditArchNative t

theorem nativeCall_nr {t : Target} {s : String} {n : Int} (hs : number t s = some n) :
    ((nativeCall t n).nr.toNat : Int) = n := by
  obtain ⟨hlo, hhi⟩ := number_range hs
  have hsmall : n.toNat < UInt32.size := by
    rw [UInt32.size]
    omega
  rw [nativeCall, UInt32.toNat_ofNat_of_lt' hsmall]
  omega

/-- A compiled program allows a syscall exactly if an allow rule names it. -/
theorem run_compiled_iff {t : Target} {profile : SeccompProfile} {options : CompileOptions}
    {compiled : CompiledProfile} (h : compile t profile options = .ok compiled)
    (hdisjoint : profile.RulesDisjoint) {s : String} {n : Int} (hs : number t s = some n)
    {d : SeccompData} (harch : d.arch = auditArchNative t) (hnr : (d.nr.toNat : Int) = n) :
    compiled.program.run d = .ret seccompRetAllow ↔ profile.Names s ∧ profile.meaning s = .allow := by
  rw [run_eq_allow_iff h, and_iff_right harch, hnr, allowsNumber_iff hs,
    SeccompProfile.mem_allowedNames_iff hdisjoint]

/-- A compiled program has the profile's meaning exactly if the default is not to allow, or decides
about nothing. -/
theorem preservesMeaning_iff {t : Target} {profile : SeccompProfile} {options : CompileOptions}
    {compiled : CompiledProfile} (h : compile t profile options = .ok compiled)
    (hdisjoint : profile.RulesDisjoint) :
    PreservesMeaning t profile compiled.program ↔
      profile.seccomp.defaultAction ≠ .allow ∨ ∀ s n, number t s = some n → profile.Names s := by
  constructor
  · intro hpreserves
    by_cases hdefault : profile.seccomp.defaultAction = .allow
    · refine Or.inr fun s n hs ↦ ?_
      by_contra hnames
      have hmeaning : profile.meaning s = .allow :=
        (SeccompProfile.meaning_of_not_names hnames).trans hdefault
      have hret := (hpreserves s n hs (nativeCall t n) rfl (nativeCall_nr hs)).mpr hmeaning
      exact hnames ((run_compiled_iff h hdisjoint hs rfl (nativeCall_nr hs)).mp hret).1
    · exact Or.inl hdefault
  · intro hcond s n hs d harch hnr
    rw [run_compiled_iff h hdisjoint hs harch hnr]
    refine ⟨And.right, fun hmeaning ↦ ⟨?_, hmeaning⟩⟩
    rcases hcond with hdefault | hall
    · by_contra hnames
      rw [SeccompProfile.meaning_of_not_names hnames] at hmeaning
      exact hdefault hmeaning
    · exact hall s n hs

/-- The compiler does right by a profile: it refuses it, or its program has the profile's
meaning. -/
def CompilesFaithfully (t : Target) (profile : SeccompProfile) (options : CompileOptions) : Prop :=
  ∀ compiled, compile t profile options = .ok compiled →
    PreservesMeaning t profile compiled.program

/-- **Compilation preserves the meaning of a profile**, or refuses it, exactly if the profile has a
conditional rule, its default is not to allow, or its rules name every syscall of the
architecture. -/
theorem compile_preserves_iff (t : Target) (profile : SeccompProfile) (options : CompileOptions)
    (hdisjoint : profile.RulesDisjoint) :
    CompilesFaithfully t profile options ↔
      profile.HasConditionalRule ∨ profile.seccomp.defaultAction ≠ .allow ∨
        ∀ s n, number t s = some n → profile.Names s := by
  by_cases hconditional : profile.HasConditionalRule
  · refine ⟨fun _ ↦ Or.inl hconditional, fun _ compiled hcompile ↦ ?_⟩
    have hsupported := validateSupported_of_compile hcompile
    exact absurd hconditional (SeccompProfile.validateSupported_iff.mp hsupported)
  · have hsupported := SeccompProfile.validateSupported_iff.mpr hconditional
    obtain ⟨compiled, hcompile, _⟩ := compile_spec t options hsupported
    rw [CompilesFaithfully, or_iff_right hconditional]
    constructor
    · exact fun hall ↦ (preservesMeaning_iff hcompile hdisjoint).mp (hall compiled hcompile)
    · intro hcond compiled' hcompile'
      exact (preservesMeaning_iff hcompile' hdisjoint).mpr hcond

/-- A profile with one rule. -/
def oneRule (defaultAction ruleAction : LinuxSeccompAction) (s : String) : SeccompProfile where
  seccomp :=
    { defaultAction := defaultAction, defaultErrnoRet := none, architectures := none
      syscalls := some [{ names := [s], action := ruleAction }] }
  crunMetadata := none

theorem oneRule_disjoint (defaultAction ruleAction : LinuxSeccompAction) (s : String) :
    (oneRule defaultAction ruleAction s).RulesDisjoint := List.pairwise_singleton _ _

/-- Deny everything but `read`. -/
theorem compile_preserves_allow_read :
    CompilesFaithfully .x86_64 (oneRule .errno .allow "read") {} :=
  (compile_preserves_iff .x86_64 (oneRule .errno .allow "read") {} (oneRule_disjoint ..)).mpr
    (Or.inr (Or.inl (by decide)))

/-- Allow everything but `reboot`: the compiled program denies `read`, which the profile allows. -/
theorem denylist_profile_denies_read :
    (oneRule .allow .errno "reboot").RulesDisjoint ∧
      (oneRule .allow .errno "reboot").meaning "read" = .allow ∧
      ∃ compiled, compile .x86_64 (oneRule .allow .errno "reboot") {} = .ok compiled ∧
        compiled.program.run (nativeCall .x86_64 0) ≠ .ret seccompRetAllow ∧
        ¬ CompilesFaithfully .x86_64 (oneRule .allow .errno "reboot") {} := by
  have hread : number .x86_64 "read" = some 0 := by decide +kernel
  have hnames : ¬ (oneRule .allow .errno "reboot").Names "read" := by
    rintro ⟨rule, hrule, hs⟩
    rw [List.mem_singleton.mp hrule, List.mem_singleton] at hs
    exact absurd hs (by decide)
  have hmeaning : (oneRule .allow .errno "reboot").meaning "read" = .allow :=
    SeccompProfile.meaning_of_not_names hnames
  obtain ⟨compiled, hcompile, _⟩ := @compile_spec .x86_64 (oneRule .allow .errno "reboot") {} rfl
  have hdenied : compiled.program.run (nativeCall .x86_64 0) ≠ .ret seccompRetAllow := fun hret ↦
    hnames ((run_compiled_iff hcompile (oneRule_disjoint ..) hread rfl (nativeCall_nr hread)).mp
      hret).1
  refine ⟨oneRule_disjoint .., hmeaning, compiled, hcompile, hdenied, fun hfaithful ↦ hdenied ?_⟩
  exact (hfaithful compiled hcompile "read" 0 hread _ rfl (nativeCall_nr hread)).mpr hmeaning

end CrunRs.Seccomp
