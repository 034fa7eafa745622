import CrunRs.Lib.Fallible
import CrunRs.Seccomp.Generate
import Mathlib.Algebra.GroupWithZero.Nat

/-!
# Captures in any order, and profiles that grow

Two ways of making one profile from many captures.  They can be merged at once, and then their order
does not matter: sums and minima are the same, names are united, and the comparison chain is sorted
by count and then by number, so that not even the program depends on it (`captures_commute`).

Or a profile can be grown, by folding it into the generation from the next captures.  What it allows
is then what generating from all captures at once allows (`growth_eq_batch`).  What it *records* is
not.  The names it allows come back as if they had been observed, so the names of the baseline are
counted twice over — as observed from the second round on, and never again as baseline — and the
calls of foreign architectures are those of the last round only.  `provenance_kept_iff` says when
this does not show.
-/

set_option autoImplicit false

namespace CrunRs.Seccomp

open Ordered

/-! ## The order of the captures -/

theorem generateCounts_congr {merged merged' : MergedCapture}
    (h : merged.syscalls = merged'.syscalls) (mergeInto : Option SeccompProfile) :
    generateCounts merged mergeInto = generateCounts merged' mergeInto := by
  cases mergeInto with
  | none => exact h
  | some existing =>
    rw [generateCounts, generateCounts, h]

/-- Of a profile, the order of the comparisons sees the rules and the counts. -/
theorem comparedNumbers_congr (t : Target) {profile profile' : SeccompProfile}
    (h : profile.seccomp = profile'.seccomp)
    (hcounts : profile.crunMetadata.map CrunMetadata.syscallCounts =
      profile'.crunMetadata.map CrunMetadata.syscallCounts) (order : SyscallOrder) :
    comparedNumbers t profile order = comparedNumbers t profile' order := by
  have hnames : profile.allowedNames = profile'.allowedNames := by
    rw [SeccompProfile.allowedNames, SeccompProfile.allowedNames, h]
  rw [comparedNumbers, comparedNumbers, hnames]
  cases order with
  | asListed | byNumber => rfl
  | byFrequency =>
    rw [orderSyscalls, orderSyscalls]
    cases hmeta : profile.crunMetadata with
    | none =>
      rw [hmeta] at hcounts
      rw [Option.map_eq_none_iff.mp hcounts.symm]
    | some metadata =>
      rw [hmeta] at hcounts
      obtain ⟨metadata', hmeta', hsame⟩ := Option.map_eq_some_iff.mp hcounts.symm
      rw [hmeta']
      simp only [hsame]

/-- `generate`, then `compile`: the instructions. -/
def generateProgram (t : Target) (now : UInt64) (captures : List CaptureFile)
    (options : GenerateOptions) (compileOptions : CompileOptions) : Except SeccompError Program := do
  let profile ← generate t now captures options
  let compiled ← compile t profile compileOptions
  return compiled.program

theorem generate_of_merge {t : Target} (now : UInt64) {captures : List CaptureFile}
    {merged : MergedCapture} (hmerge : merge captures = .ok merged)
    (harch : merged.auditArch = auditArchNative t) (options : GenerateOptions) :
    generate t now captures options = .ok (SeccompProfile.build t
      (generateAllowed t (generateCounts merged options.mergeInto) options.includeCompat).1
      options.action.toOci options.action.errnoValue
      (some (generateMetadata t now merged options))) := by
  rw [generate, hmerge]
  exact if_neg (not_not.mpr harch)

theorem generateProgram_eq {t : Target} (now : UInt64) {captures : List CaptureFile}
    {merged : MergedCapture} (hmerge : merge captures = .ok merged)
    (harch : merged.auditArch = auditArchNative t) (options : GenerateOptions)
    (compileOptions : CompileOptions) :
    generateProgram t now captures options compileOptions =
      buildAllowlist t (comparedNumbers t (SeccompProfile.build t
        (generateAllowed t (generateCounts merged options.mergeInto) options.includeCompat).1
        options.action.toOci options.action.errnoValue
        (some (generateMetadata t now merged options))) compileOptions.order)
        compileOptions.defaultAction := by
  rw [generateProgram, generate_of_merge now hmerge harch, Fallible.ok_bind,
    compile_eq t compileOptions (SeccompProfile.validateSupported_build ..)]
  cases buildAllowlist t _ compileOptions.defaultAction <;> rfl

/-- **The order of captures is irrelevant.**  Permuted captures merge exactly if they did before,
and then the merged captures agree in everything but the list of their sources.  The program
generated and compiled from them is the same, whatever the options and the times of the two
generations. -/
theorem captures_commute (t : Target) (captures captures' : List CaptureFile)
    (hperm : captures.Perm captures') :
    ((∃ merged, merge captures = .ok merged) ↔ ∃ merged', merge captures' = .ok merged') ∧
    ∀ merged merged', merge captures = .ok merged → merge captures' = .ok merged' →
      merged.SameContent merged' ∧
      ∀ now now' options compileOptions,
        generateProgram t now captures options compileOptions =
          generateProgram t now' captures' options compileOptions ∧
        (merged.auditArch = auditArchNative t →
          ∃ program, generateProgram t now captures options compileOptions = .ok program) := by
  refine ⟨⟨?_, ?_⟩, ?_⟩
  · rintro ⟨merged, hmerge⟩
    obtain ⟨merged', hmerge', _⟩ := merge_perm hperm hmerge
    exact ⟨merged', hmerge'⟩
  · rintro ⟨merged', hmerge'⟩
    obtain ⟨merged, hmerge, _⟩ := merge_perm hperm.symm hmerge'
    exact ⟨merged, hmerge⟩
  · intro merged merged' hmerge hmerge'
    have hsame : merged.SameContent merged' := by
      obtain ⟨found, hfound, hsame⟩ := merge_perm hperm hmerge
      rwa [Except.ok.inj (hfound.symm.trans hmerge')] at hsame
    refine ⟨hsame, fun now now' options compileOptions ↦ ?_⟩
    by_cases harch : merged.auditArch = auditArchNative t
    · have hcounts := generateCounts_congr hsame.syscalls options.mergeInto
      constructor
      · rw [generateProgram_eq now hmerge harch,
          generateProgram_eq now' hmerge' (hsame.auditArch ▸ harch), hcounts]
        congr 1
        apply comparedNumbers_congr
        · rfl
        · exact congrArg some hcounts
      · intro _
        rw [generateProgram_eq now hmerge harch]
        have hfits : ∀ profile, ∀ n ∈ comparedNumbers t profile compileOptions.order, FitsU32 n :=
          fun _ ↦ comparedNumbers_fits
        rw [buildAllowlist_of_fits t compileOptions.defaultAction (hfits _),
          if_pos (allowlistLen_comparedNumbers_le ..)]
        exact ⟨_, rfl⟩
    · -- a foreign architecture is refused, with the same error
      refine ⟨?_, fun h ↦ absurd h harch⟩
      rw [generateProgram, generateProgram, generate, generate, hmerge, hmerge']
      simp only [ne_eq, harch, not_false_eq_true, if_true, ← hsame.auditArch]

/-- A native capture of the given calls. -/
def sampleCapture (t : Target) (id : String) (syscalls foreignArch : Std.ExtTreeMap String UInt64) :
    CaptureFile where
  schemaVersion := captureSchemaVersion
  id := id
  command := ["/bin/sh"]
  arch := nativeArchName t
  auditArch := auditArchNative t
  runtimeVersion := cargoPkgVersion
  startedAtUnix := 1700000000
  durationMs := 250
  totalEvents := 3
  processesSeen := 1
  truncated := false
  syscalls := syscalls
  firstSeenMs := ∅
  foreignArch := foreignArch

/-- Two captures, in either order. -/
theorem captures_commute_swap :
    let a := sampleCapture .x86_64 "a" {("read", 3)} ∅
    let b := sampleCapture .x86_64 "b" {("openat", 1)} ∅
    ∃ merged, merge [b, a] = .ok merged ∧ merged.auditArch = auditArchNative .x86_64 ∧
      generateProgram .x86_64 0 [b, a] {} {} = generateProgram .x86_64 5 [a, b] {} {} := by
  intro a b
  obtain ⟨hok, hsame⟩ := captures_commute .x86_64 [b, a] [a, b] (.swap a b [])
  obtain ⟨merged, hmerge, harch, _⟩ := @merge_spec [b, a] (auditArchNative .x86_64) (by simp) (by
    intro capture hcapture
    rcases List.mem_pair.mp hcapture with rfl | rfl
    · rfl
    · rfl)
  obtain ⟨merged', hmerge'⟩ := hok.mp ⟨merged, hmerge⟩
  exact ⟨merged, hmerge, harch, ((hsame merged merged' hmerge hmerge').2 0 5 {} {}).1⟩

/-! ## Growing a profile -/

/-- One call of `generate` while a profile is grown. -/
structure GrowthRound where
  now : UInt64
  workload : Option String
  captures : List CaptureFile

/-- Every round folds the profile of the one before into its own.  All the profiles are returned, the
last one being the result. -/
def grow (t : Target) (action : SeccompAction) (includeCompat : Bool) :
    Option SeccompProfile → List GrowthRound → Except SeccompError (List SeccompProfile)
  | _, [] => .ok []
  | existing, round :: rounds => do
    let profile ← generate t round.now round.captures
      { workload := round.workload, action, includeCompat, mergeInto := existing }
    let profiles ← grow t action includeCompat (some profile) rounds
    return profile :: profiles

/-- Names that are allowed whether they were observed or not. -/
def Assumed (includeCompat : Bool) (s : String) : Prop :=
  s ∈ mandatoryBaseline ∨ includeCompat = true ∧ s ∈ glibcCompatSet

/-- Names that some capture observed. -/
def Observed (captures : List CaptureFile) (s : String) : Prop :=
  ∃ capture ∈ captures, s ∈ capture.syscalls

theorem observed_append {captures captures' : List CaptureFile} {s : String} :
    Observed (captures ++ captures') s ↔ Observed captures s ∨ Observed captures' s := by
  simp only [Observed, List.mem_append, or_and_right, exists_or]

/-- A profile that allows every name it counted and that has a number. -/
def SeccompProfile.Settled (t : Target) (profile : SeccompProfile) : Prop :=
  ∀ s, profile.Contributes s → (number t s).isSome → s ∈ profile.allowedNames

/-- **What is generated from native captures**: a profile that allows the observed names, the
assumed ones and those of the profile folded in, as far as they have a number. -/
theorem generate_native {t : Target} (now : UInt64) {captures : List CaptureFile}
    (options : GenerateOptions) (hne : captures ≠ [])
    (hnative : ∀ capture ∈ captures, capture.auditArch = auditArchNative t) :
    ∃ profile, generate t now captures options = .ok profile ∧ profile.Settled t ∧
      ∀ s, s ∈ profile.allowedNames ↔
        (Observed captures s ∨ Assumed options.includeCompat s ∨
          ∃ existing, options.mergeInto = some existing ∧ existing.Contributes s) ∧
        (number t s).isSome := by
  obtain ⟨merged, hmerge, harch, hsyscalls⟩ := merge_spec hne hnative
  refine ⟨_, generate_of_merge now hmerge harch options, ?_, fun s ↦ ?_⟩
  · intro s hs hnumber
    rw [SeccompProfile.mem_allowedNames_build, mem_generateAllowed]
    rcases hs with hs | ⟨metadata, hmetadata, hs⟩
    · rw [SeccompProfile.mem_allowedNames_build, mem_generateAllowed] at hs
      exact hs
    · obtain rfl := Option.some.inj hmetadata
      exact ⟨Or.inl hs, hnumber⟩
  · rw [SeccompProfile.mem_allowedNames_build, mem_generateAllowed, mem_generateCounts, hsyscalls,
      or_assoc]
    exact and_congr_left fun _ ↦ or_congr_right or_comm

/-- The profiles of a growth, given what the first round starts from. -/
theorem grow_spec {t : Target} (action : SeccompAction) (includeCompat : Bool)
    {existing : Option SeccompProfile} {rounds : List GrowthRound}
    (hsettled : ∀ profile ∈ existing, profile.Settled t)
    (hne : ∀ round ∈ rounds, round.captures ≠ [])
    (hnative : ∀ round ∈ rounds, ∀ capture ∈ round.captures,
      capture.auditArch = auditArchNative t) :
    ∃ profiles, grow t action includeCompat existing rounds = .ok profiles ∧
      profiles.length = rounds.length ∧
      (∀ old ∈ existing, ∀ profile ∈ profiles, ∀ s ∈ old.allowedNames, (number t s).isSome →
        s ∈ profile.allowedNames) ∧
      (profiles.Pairwise fun old new ↦ ∀ s ∈ old.allowedNames, s ∈ new.allowedNames) ∧
      ∀ final ∈ profiles.getLast?, ∀ s, s ∈ final.allowedNames ↔
        (Observed (rounds.flatMap GrowthRound.captures) s ∨ Assumed includeCompat s ∨
          ∃ old ∈ existing, old.Contributes s) ∧ (number t s).isSome := by
  induction rounds generalizing existing with
  | nil => exact ⟨[], rfl, rfl, by simp, .nil, by simp⟩
  | cons round rounds ih =>
    obtain ⟨profile, hgen, hprofile, hallowed⟩ := generate_native round.now
      { workload := round.workload, action, includeCompat, mergeInto := existing }
      (hne round List.mem_cons_self) (hnative round List.mem_cons_self)
    obtain ⟨profiles, hgrow, hlength, hkeep, hpairwise, hlast⟩ := @ih (some profile)
      (fun p hp ↦ Option.some.inj hp ▸ hprofile)
      (fun r hr ↦ hne r (List.mem_cons_of_mem _ hr))
      (fun r hr ↦ hnative r (List.mem_cons_of_mem _ hr))
    -- what is allowed after the first round stays allowed
    have hnext : ∀ new ∈ profiles, ∀ s ∈ profile.allowedNames, s ∈ new.allowedNames :=
      fun new hnew s hs ↦ hkeep profile rfl new hnew s hs ((hallowed s).mp hs).2
    refine ⟨profile :: profiles, ?_, congrArg (· + 1) hlength, ?_, ?_, ?_⟩
    · rw [grow, hgen]
      simp only [Fallible.ok_bind, hgrow]
      rfl
    · intro old hold new hnew s hs hnumber
      have hfirst : s ∈ profile.allowedNames :=
        (hallowed s).mpr ⟨Or.inr (Or.inr ⟨old, hold, Or.inl hs⟩), hnumber⟩
      rcases List.mem_cons.mp hnew with rfl | hnew
      · exact hfirst
      · exact hnext new hnew s hfirst
    · exact List.pairwise_cons.mpr ⟨hnext, hpairwise⟩
    · intro final hfinal s
      rw [List.flatMap_cons, observed_append]
      cases profiles with
      | nil =>
        obtain rfl : rounds = [] := List.eq_nil_of_length_eq_zero hlength.symm
        obtain rfl : profile = final := by simpa using hfinal
        rw [hallowed s]
        simp [Observed]
      | cons second rest =>
        rw [List.getLast?_cons_cons] at hfinal
        rw [hlast final hfinal s]
        have hcontributes : ∀ hnumber : (number t s).isSome,
            (∃ old ∈ some profile, old.Contributes s) ↔ s ∈ profile.allowedNames := by
          intro hnumber
          simp only [Option.mem_some_iff, exists_eq_left']
          exact ⟨fun h ↦ hprofile s h hnumber, Or.inl⟩
        refine and_congr_left fun hnumber ↦ ?_
        rw [hcontributes hnumber, hallowed s, and_iff_left hnumber]
        constructor
        · rintro (hlater | hassumed | hfirst | hassumed | hold)
          · exact .inl (.inr hlater)
          · exact .inr (.inl hassumed)
          · exact .inl (.inl hfirst)
          · exact .inr (.inl hassumed)
          · exact .inr (.inr hold)
        · rintro ((hfirst | hlater) | hassumed | hold)
          · exact .inr (.inr (.inl hfirst))
          · exact .inl hlater
          · exact .inr (.inl hassumed)
          · exact .inr (.inr (.inr (.inr hold)))

/-- **Growing a profile allows what generating at once allows.**  Cut any native captures into
consecutive groups, none of them empty.  Generating from the first group and folding the profile into
the generation from each next one ends with a profile that allows exactly the names that the
profile generated from all captures allows, and no profile on the way allows a name that a later one
does not. -/
theorem growth_eq_batch (t : Target) (action : SeccompAction) (includeCompat : Bool) (now : UInt64)
    (workload : Option String) (captures : List CaptureFile) (rounds : List GrowthRound)
    (hcaptures : captures ≠ []) (hrounds : rounds.flatMap GrowthRound.captures = captures)
    (hne : ∀ round ∈ rounds, round.captures ≠ [])
    (hnative : ∀ capture ∈ captures, capture.auditArch = auditArchNative t) :
    ∃ profiles final batch, grow t action includeCompat none rounds = .ok profiles ∧
      profiles.getLast? = some final ∧
      generate t now captures { workload, action, includeCompat } = .ok batch ∧
      final.allowedNames = batch.allowedNames ∧
      profiles.Pairwise fun old new ↦ ∀ s ∈ old.allowedNames, s ∈ new.allowedNames := by
  obtain ⟨profiles, hgrow, hlength, _, hpairwise, hlast⟩ := @grow_spec t action includeCompat none
    rounds (by simp) hne fun round hround capture hcapture ↦
      hnative capture (hrounds ▸ List.mem_flatMap.mpr ⟨round, hround, hcapture⟩)
  obtain ⟨batch, hbatch, _, hallowed⟩ := generate_native now
    { workload, action, includeCompat } hcaptures hnative
  cases hfinal : profiles.getLast? with
  | none =>
    rw [List.getLast?_eq_none_iff] at hfinal
    obtain rfl : rounds = [] := List.eq_nil_of_length_eq_zero (by rw [← hlength, hfinal]; rfl)
    exact absurd hrounds.symm hcaptures
  | some final =>
    refine ⟨profiles, final, batch, hgrow, hfinal, hbatch, ?_, hpairwise⟩
    refine Std.ExtTreeSet.ext_mem fun s ↦ ?_
    rw [hlast final hfinal s, hallowed s, hrounds]
    simp

/-- Two groups. -/
theorem growth_eq_batch_pair :
    let a := sampleCapture .x86_64 "a" {("read", 3)} ∅
    let b := sampleCapture .x86_64 "b" {("openat", 1), ("unknown_9999", 1)} ∅
    ∃ profiles final batch, grow .x86_64 .errno false none [⟨1, none, [a]⟩, ⟨2, none, [b]⟩] =
        .ok profiles ∧ profiles.getLast? = some final ∧
      generate .x86_64 3 [a, b] {} = .ok batch ∧ final.allowedNames = batch.allowedNames := by
  intro a b
  obtain ⟨profiles, final, batch, hgrow, hfinal, hbatch, hnames, _⟩ :=
    growth_eq_batch .x86_64 .errno false 3 none [a, b] [⟨1, none, [a]⟩, ⟨2, none, [b]⟩] (by simp) rfl
      (by simp) (by simp [a, b, sampleCapture])
  exact ⟨profiles, final, batch, hgrow, hfinal, hbatch, hnames⟩

/-! ## What a grown profile records -/

/-- The part of the metadata that says what the captures were like. -/
structure CrunMetadata.SameProvenance (m m' : CrunMetadata) : Prop where
  observedSyscallCount : m.observedSyscallCount = m'.observedSyscallCount
  baselineSyscallCount : m.baselineSyscallCount = m'.baselineSyscallCount
  unresolved : m.unresolved = m'.unresolved
  foreignArch : m.foreignArch = m'.foreignArch
  totalEvents : m.totalEvents = m'.totalEvents
  captureDurationMs : m.captureDurationMs = m'.captureDurationMs

theorem sameProvenance_generateMetadata_iff {t : Target} {now now' : UInt64}
    {merged merged' : MergedCapture} {options options' : GenerateOptions} :
    (generateMetadata t now merged options).SameProvenance
        (generateMetadata t now' merged' options') ↔
      (generateObserved t (generateCounts merged options.mergeInto)).size =
        (generateObserved t (generateCounts merged' options'.mergeInto)).size ∧
      (generateAllowed t (generateCounts merged options.mergeInto) options.includeCompat).2 =
        (generateAllowed t (generateCounts merged' options'.mergeInto) options'.includeCompat).2 ∧
      (resolveAll t (generateCounts merged options.mergeInto).keys).2 =
        (resolveAll t (generateCounts merged' options'.mergeInto).keys).2 ∧
      merged.foreignArch = merged'.foreignArch ∧
      (generateMetadata t now merged options).totalEvents =
        (generateMetadata t now' merged' options').totalEvents ∧
      (generateMetadata t now merged options).captureDurationMs =
        (generateMetadata t now' merged' options').captureDurationMs :=
  ⟨fun h ↦ ⟨h.observedSyscallCount, h.baselineSyscallCount, h.unresolved, h.foreignArch,
      h.totalEvents, h.captureDurationMs⟩,
    fun ⟨hobserved, hbaseline, hunresolved, hforeign, hevents, hduration⟩ ↦
      ⟨hobserved, hbaseline, hunresolved, hforeign, hevents, hduration⟩⟩

/-- Names are added as far as they are missing, and only these are counted. -/
theorem addNames_snd_eq_iff {t : Target} {names : List String} {allowed : Std.ExtTreeSet String}
    {n : Nat} : n ≤ (addNames t names (allowed, n)).2 ∧ ((addNames t names (allowed, n)).2 = n ↔
      ∀ s ∈ names, (number t s).isSome → s ∈ allowed) := by
  induction names generalizing allowed n with
  | nil => simp [addNames]
  | cons name rest ih =>
    rw [addNames, List.foldl_cons, ← addNames]
    split
    · rename_i hname
      obtain ⟨hle, _⟩ := @ih (allowed.insert name) (n + 1)
      have hgrown : n < (addNames t rest (allowed.insert name, n + 1)).2 := hle
      refine ⟨hgrown.le, fun heq ↦ absurd heq hgrown.ne', fun hall ↦ ?_⟩
      exact absurd (hall name List.mem_cons_self hname.1) hname.2
    · rename_i hname
      obtain ⟨hle, hiff⟩ := @ih allowed n
      refine ⟨hle, hiff.trans ⟨fun hall s hs hnumber ↦ ?_, fun hall s hs ↦ ?_⟩⟩
      · rcases List.mem_cons.mp hs with rfl | hs
        · exact by_contra fun hnot ↦ hname ⟨hnumber, hnot⟩
        · exact hall s hs hnumber
      · exact hall s (List.mem_cons_of_mem _ hs)

/-- Nothing is added exactly if all that would be added was counted. -/
theorem generateAllowed_snd_eq_zero_iff {t : Target} {counts : Std.ExtTreeMap String UInt64}
    {includeCompat : Bool} : (generateAllowed t counts includeCompat).2 = 0 ↔
      ∀ s, Assumed includeCompat s → (number t s).isSome → s ∈ counts := by
  have hbase := @addNames_snd_eq_iff t mandatoryBaseline (generateObserved t counts) 0
  cases includeCompat with
  | false =>
    rw [generateAllowed, if_neg Bool.false_ne_true, hbase.2]
    simp only [mem_generateObserved, Assumed, Bool.false_eq_true, false_and, or_false]
    exact ⟨fun h s hs hnumber ↦ (h s hs hnumber).1, fun h s hs hnumber ↦ ⟨h s hs hnumber, hnumber⟩⟩
  | true =>
    rw [generateAllowed, if_pos rfl]
    have hcompat := @addNames_snd_eq_iff t glibcCompatSet
      (addNames t mandatoryBaseline (generateObserved t counts, 0)).1
      (addNames t mandatoryBaseline (generateObserved t counts, 0)).2
    constructor
    · intro hzero s hs hnumber
      have hfirst : (addNames t mandatoryBaseline (generateObserved t counts, 0)).2 = 0 :=
        Nat.le_zero.mp (hcompat.1.trans hzero.le)
      have hbaseline := hbase.2.mp hfirst
      rcases hs with hs | ⟨_, hs⟩
      · exact (mem_generateObserved.mp (hbaseline s hs hnumber)).1
      · rcases mem_addNames.mp (hcompat.2.mp (hzero.trans hfirst.symm) s hs hnumber) with h | ⟨h, _⟩
        · exact (mem_generateObserved.mp h).1
        · exact (mem_generateObserved.mp (hbaseline s h hnumber)).1
    · intro hall
      have hfirst : (addNames t mandatoryBaseline (generateObserved t counts, 0)).2 = 0 :=
        hbase.2.mpr fun s hs hnumber ↦
          mem_generateObserved.mpr ⟨hall s (Or.inl hs) hnumber, hnumber⟩
      refine (hcompat.2.mpr fun s hs hnumber ↦ mem_addNames.mpr (Or.inl ?_)).trans hfirst
      exact mem_generateObserved.mpr ⟨hall s (Or.inr ⟨rfl, hs⟩) hnumber, hnumber⟩

/-! ## Calls of foreign architectures -/

/-- The merged count of a foreign architecture. -/
def foreignCount (captures : List CaptureFile) (arch : String) : Option UInt64 :=
  captures.foldr (fun capture o ↦ Option.merge (· + ·) capture.foreignArch[arch]? o) none

/-- The same count as a number without bounds. -/
def foreignTotal (captures : List CaptureFile) (arch : String) : Nat :=
  captures.foldr (fun capture n ↦ (capture.foreignArch[arch]?.getD 0).toNat + n) 0

theorem foreignCount_cons (capture : CaptureFile) (rest : List CaptureFile) (arch : String) :
    foreignCount (capture :: rest) arch =
      Option.merge (· + ·) capture.foreignArch[arch]? (foreignCount rest arch) := rfl

theorem foreignTotal_cons (capture : CaptureFile) (rest : List CaptureFile) (arch : String) :
    foreignTotal (capture :: rest) arch =
      (capture.foreignArch[arch]?.getD 0).toNat + foreignTotal rest arch := rfl

theorem getElem?_foldl_add_foreignArch (merged : MergedCapture) (captures : List CaptureFile)
    (arch : String) : (captures.foldl MergedCapture.add merged).foreignArch[arch]? =
      Option.merge (· + ·) merged.foreignArch[arch]? (foreignCount captures arch) := by
  induction captures generalizing merged with
  | nil => exact Option.merge_none_right.symm
  | cons capture rest ih =>
    rw [List.foldl_cons, ih, MergedCapture.add, getElem?_addCounts]
    exact Std.Associative.assoc ..

theorem foreignCount_append (captures captures' : List CaptureFile) (arch : String) :
    foreignCount (captures ++ captures') arch =
      Option.merge (· + ·) (foreignCount captures arch) (foreignCount captures' arch) := by
  induction captures with
  | nil => exact Option.merge_none_left.symm
  | cons capture rest ih =>
    rw [List.cons_append, foreignCount_cons, ih]
    exact (Std.Associative.assoc ..).symm

theorem foreignCount_eq_none_iff {captures : List CaptureFile} {arch : String} :
    foreignCount captures arch = none ↔
      ∀ capture ∈ captures, capture.foreignArch[arch]? = none := by
  induction captures with
  | nil => simp [foreignCount]
  | cons capture rest ih =>
    rw [foreignCount_cons, Option.merge_eq_none_iff, ih]
    simp

/-- As long as no sum overflows, the merged count is the sum of the counts. -/
theorem toNat_foreignCount {captures : List CaptureFile} {arch : String}
    (h : foreignTotal captures arch < 2 ^ 64) :
    ((foreignCount captures arch).getD 0).toNat = foreignTotal captures arch := by
  induction captures with
  | nil => rfl
  | cons capture rest ih =>
    rw [foreignTotal_cons] at h
    have hsum : (foreignCount (capture :: rest) arch).getD 0 =
        capture.foreignArch[arch]?.getD 0 + (foreignCount rest arch).getD 0 := by
      rw [foreignCount_cons]
      cases capture.foreignArch[arch]? <;> cases foreignCount rest arch <;> simp
    rw [hsum, UInt64.toNat_add, ih (by omega), Nat.mod_eq_of_lt h, foreignTotal_cons]

theorem foreignTotal_eq_zero_iff {captures : List CaptureFile} {arch : String} :
    foreignTotal captures arch = 0 ↔
      ∀ capture ∈ captures, ∀ n, capture.foreignArch[arch]? = some n → n = 0 := by
  induction captures with
  | nil => simp [foreignTotal]
  | cons capture rest ih =>
    rw [foreignTotal_cons, Nat.add_eq_zero_iff, ih]
    have hhead : (capture.foreignArch[arch]?.getD 0).toNat = 0 ↔
        ∀ n, capture.foreignArch[arch]? = some n → n = 0 := by
      cases capture.foreignArch[arch]? with
      | none => simp
      | some n =>
        simp only [Option.getD_some, Option.some.injEq, forall_eq']
        exact UInt64.toNat_inj (b := 0)
    rw [hhead]
    simp

theorem foreignTotal_append (captures captures' : List CaptureFile) (arch : String) :
    foreignTotal (captures ++ captures') arch =
      foreignTotal captures arch + foreignTotal captures' arch := by
  induction captures with
  | nil => exact (Nat.zero_add _).symm
  | cons capture rest ih =>
    rw [List.cons_append, foreignTotal_cons, ih, foreignTotal_cons, Nat.add_assoc]

/-- Nothing of the first captures shows in the foreign counts of the second ones: every count is
zero, and of an architecture that these have as well. -/
def ForeignHidden (captures captures' : List CaptureFile) : Prop :=
  ∀ capture ∈ captures, ∀ arch n, capture.foreignArch[arch]? = some n →
    n = 0 ∧ ∃ capture' ∈ captures', arch ∈ capture'.foreignArch

/-- Adding the counts of the first captures changes nothing exactly if they are hidden. -/
theorem foreignCount_append_eq_iff {captures captures' : List CaptureFile}
    (hsum : ∀ arch, foreignTotal (captures ++ captures') arch < 2 ^ 64) :
    (∀ arch, foreignCount captures' arch = foreignCount (captures ++ captures') arch) ↔
      ForeignHidden captures captures' := by
  have hzero : ∀ arch, (foreignCount captures arch).getD 0 = 0 ↔
      ∀ capture ∈ captures, ∀ n, capture.foreignArch[arch]? = some n → n = 0 := by
    intro arch
    have hlt : foreignTotal captures arch < 2 ^ 64 := by
      have := hsum arch
      rw [foreignTotal_append] at this
      omega
    rw [← foreignTotal_eq_zero_iff, ← toNat_foreignCount hlt, ← UInt64.toNat_inj]
    rfl
  have hthere : ∀ arch, foreignCount captures' arch ≠ none ↔
      ∃ capture' ∈ captures', arch ∈ capture'.foreignArch := by
    intro arch
    rw [Ne, foreignCount_eq_none_iff]
    push Not
    simp only [Std.ExtTreeMap.mem_iff_isSome_getElem?, Option.isSome_iff_ne_none]
  have hkey : ∀ arch, foreignCount captures' arch = foreignCount (captures ++ captures') arch ↔
      (foreignCount captures arch ≠ none →
        (foreignCount captures arch).getD 0 = 0 ∧ foreignCount captures' arch ≠ none) := by
    intro arch
    rw [foreignCount_append]
    cases foreignCount captures arch with
    | none => simp
    | some v =>
      cases foreignCount captures' arch with
      | none => simp
      | some w => simp
  simp only [hkey, hzero, hthere]
  constructor
  · intro h capture hcapture arch n hn
    have hne : foreignCount captures arch ≠ none := fun hnone ↦ by
      rw [foreignCount_eq_none_iff.mp hnone capture hcapture] at hn
      simp at hn
    obtain ⟨hzeros, hother⟩ := h arch hne
    exact ⟨hzeros capture hcapture n hn, hother⟩
  · intro h arch hne
    refine ⟨fun capture hcapture n hn ↦ (h capture hcapture arch n hn).1, ?_⟩
    rw [Ne, foreignCount_eq_none_iff] at hne
    push Not at hne
    obtain ⟨capture, hcapture, hsome⟩ := hne
    obtain ⟨n, hn⟩ := Option.ne_none_iff_exists'.mp hsome
    exact (h capture hcapture arch n hn).2

/-! ## When nothing is lost -/

section Provenance

/-- The captures of an architecture, merged. -/
def mergedOf (arch : UInt32) (captures : List CaptureFile) : MergedCapture :=
  captures.foldl MergedCapture.add { auditArch := arch }

theorem merge_eq_mergedOf {captures : List CaptureFile} {arch : UInt32} (hne : captures ≠ [])
    (harch : ∀ capture ∈ captures, capture.auditArch = arch) :
    merge captures = .ok (mergedOf arch captures) ∧ (mergedOf arch captures).auditArch = arch := by
  have hauditArch : (mergedOf arch captures).auditArch = arch := foldl_add_auditArch ..
  refine ⟨merge_eq_ok_iff.mpr ⟨hne, ?_, ?_⟩, hauditArch⟩
  · rw [hauditArch]
    exact harch
  · rw [hauditArch, mergedOf]

theorem mem_mergedOf_syscalls {arch : UInt32} {captures : List CaptureFile} {s : String} :
    s ∈ (mergedOf arch captures).syscalls ↔ Observed captures s := by
  rw [mergedOf, mem_foldl_add_syscalls, Observed]
  simp

theorem getElem?_mergedOf_foreignArch (arch : UInt32) (captures : List CaptureFile)
    (name : String) : (mergedOf arch captures).foreignArch[name]? = foreignCount captures name := by
  rw [mergedOf, getElem?_foldl_add_foreignArch]
  simp

theorem foldl_add_totals (merged : MergedCapture) (arch : UInt32) (captures : List CaptureFile) :
    (captures.foldl MergedCapture.add merged).totalEvents =
        merged.totalEvents + (mergedOf arch captures).totalEvents ∧
      (captures.foldl MergedCapture.add merged).totalDurationMs =
        merged.totalDurationMs + (mergedOf arch captures).totalDurationMs := by
  induction captures generalizing merged with
  | nil => exact ⟨(UInt64.add_zero _).symm, (UInt64.add_zero _).symm⟩
  | cons capture rest ih =>
    obtain ⟨hevents, hduration⟩ := ih (merged.add capture)
    obtain ⟨hevents', hduration'⟩ := ih (MergedCapture.add { auditArch := arch } capture)
    rw [mergedOf, List.foldl_cons, List.foldl_cons, hevents, hduration, hevents', hduration']
    simp only [MergedCapture.add, UInt64.zero_add, UInt64.add_assoc, and_self]

/-- Totals add up. -/
theorem mergedOf_append (arch : UInt32) (captures captures' : List CaptureFile) :
    (mergedOf arch (captures ++ captures')).totalEvents =
        (mergedOf arch captures).totalEvents + (mergedOf arch captures').totalEvents ∧
      (mergedOf arch (captures ++ captures')).totalDurationMs =
        (mergedOf arch captures).totalDurationMs + (mergedOf arch captures').totalDurationMs := by
  rw [mergedOf, List.foldl_append]
  exact foldl_add_totals (mergedOf arch captures) arch captures'

variable {t : Target} {options : GenerateOptions} {first second : List CaptureFile}

/-- The profile of the first captures. -/
def firstProfile (t : Target) (now : UInt64) (first : List CaptureFile)
    (options : GenerateOptions) : SeccompProfile :=
  let merged := mergedOf (auditArchNative t) first
  let options := { options with mergeInto := none }
  SeccompProfile.build t (generateAllowed t merged.syscalls options.includeCompat).1
    options.action.toOci options.action.errnoValue (some (generateMetadata t now merged options))

/-- The counts of a grown profile are those of all captures, and of what was assumed. -/
theorem mem_grownCounts {now : UInt64} {s : String} :
    s ∈ generateCounts (mergedOf (auditArchNative t) second)
        (some (firstProfile t now first options)) ↔
      Observed (first ++ second) s ∨ Assumed options.includeCompat s ∧ (number t s).isSome := by
  have hcontributes : (firstProfile t now first options).Contributes s ↔
      Observed first s ∨ Assumed options.includeCompat s ∧ (number t s).isSome := by
    rw [SeccompProfile.Contributes, firstProfile, SeccompProfile.mem_allowedNames_build,
      mem_generateAllowed, mem_mergedOf_syscalls]
    have hcounted : (∃ metadata, (SeccompProfile.build t
        (generateAllowed t (mergedOf (auditArchNative t) first).syscalls options.includeCompat).1
        options.action.toOci options.action.errnoValue (some (generateMetadata t now
          (mergedOf (auditArchNative t) first) { options with mergeInto := none }))).crunMetadata =
        some metadata ∧ s ∈ metadata.syscallCounts) ↔ Observed first s := by
      rw [← mem_mergedOf_syscalls]
      constructor
      · rintro ⟨metadata, hmetadata, hs⟩
        obtain rfl := Option.some.inj hmetadata
        exact hs
      · exact fun hs ↦ ⟨_, rfl, hs⟩
    rw [hcounted, ← Assumed]
    tauto
  rw [mem_generateCounts, mem_mergedOf_syscalls, observed_append]
  simp only [Option.some.injEq, exists_eq_left', hcontributes]
  tauto

/-- **What the grown profile records.**  Unresolved names, events and durations are carried over.
Observed and baseline names are told apart exactly if everything assumed was observed, and foreign
calls are kept exactly if the first captures have none that show. -/
theorem sameProvenance_iff (now₁ now₂ now : UInt64)
    (hsum : ∀ arch, foreignTotal (first ++ second) arch < 2 ^ 64) :
    (generateMetadata t now₂ (mergedOf (auditArchNative t) second)
        { options with mergeInto := some (firstProfile t now₁ first options) }).SameProvenance
      (generateMetadata t now (mergedOf (auditArchNative t) (first ++ second))
        { options with mergeInto := none }) ↔
    (∀ s, Assumed options.includeCompat s → (number t s).isSome → Observed (first ++ second) s) ∧
      ForeignHidden first second := by
  set arch := auditArchNative t
  set grown := generateCounts (mergedOf arch second) (some (firstProfile t now₁ first options))
  have hbatch : ∀ s, s ∈ (mergedOf arch (first ++ second)).syscalls ↔ Observed (first ++ second) s :=
    fun s ↦ mem_mergedOf_syscalls
  have hmem : ∀ s, s ∈ grown ↔ Observed (first ++ second) s ∨
      Assumed options.includeCompat s ∧ (number t s).isSome := fun s ↦ mem_grownCounts
  have hobserved : (generateObserved t grown).size =
        (generateObserved t (mergedOf arch (first ++ second)).syscalls).size ↔
      ∀ s, Assumed options.includeCompat s → (number t s).isSome →
        Observed (first ++ second) s := by
    rw [size_eq_iff_of_subset]
    · simp only [mem_generateObserved, hmem, hbatch]
      constructor
      · intro h s hs hnumber
        exact (h s ⟨Or.inr ⟨hs, hnumber⟩, hnumber⟩).1
      · rintro h s ⟨hs | ⟨hs, _⟩, hnumber⟩
        · exact ⟨hs, hnumber⟩
        · exact ⟨h s hs hnumber, hnumber⟩
    · intro s hs
      rw [mem_generateObserved, hbatch] at hs
      exact mem_generateObserved.mpr ⟨(hmem s).mpr (Or.inl hs.1), hs.2⟩
  have hbaseline : (generateAllowed t grown options.includeCompat).2 =
        (generateAllowed t (mergedOf arch (first ++ second)).syscalls options.includeCompat).2 ↔
      ∀ s, Assumed options.includeCompat s → (number t s).isSome →
        Observed (first ++ second) s := by
    -- the assumed names are all counted by now
    have hzero : (generateAllowed t grown options.includeCompat).2 = 0 :=
      generateAllowed_snd_eq_zero_iff.mpr fun s hs hnumber ↦ (hmem s).mpr (Or.inr ⟨hs, hnumber⟩)
    rw [hzero, eq_comm, generateAllowed_snd_eq_zero_iff]
    simp only [hbatch]
  have hforeign : (mergedOf arch second).foreignArch =
      (mergedOf arch (first ++ second)).foreignArch ↔ ForeignHidden first second := by
    rw [← foreignCount_append_eq_iff hsum]
    simp only [← getElem?_mergedOf_foreignArch arch]
    exact ⟨fun h name ↦ by rw [h], fun h ↦ Std.ExtTreeMap.ext_getElem? h⟩
  have hunresolved : (resolveAll t grown.keys).2 =
      (resolveAll t (mergedOf arch (first ++ second)).syscalls.keys).2 := by
    refine sortDedup_congr fun s ↦ ?_
    rw [mem_resolveEach_snd, mem_resolveEach_snd, Std.ExtTreeMap.mem_keys, Std.ExtTreeMap.mem_keys,
      hmem, hbatch]
    refine and_congr_left fun hnone ↦ ⟨fun h ↦ h.resolve_right fun hassumed ↦ ?_, Or.inl⟩
    rw [hnone] at hassumed
    simp at hassumed
  obtain ⟨hevents, hduration⟩ := mergedOf_append arch first second
  have htotals : (mergedOf arch second).totalEvents + ((mergedOf arch first).totalEvents + 0) =
        (mergedOf arch (first ++ second)).totalEvents + 0 ∧
      (mergedOf arch second).totalDurationMs + ((mergedOf arch first).totalDurationMs + 0) =
        (mergedOf arch (first ++ second)).totalDurationMs + 0 := by
    rw [hevents, hduration, UInt64.add_comm, UInt64.add_comm (mergedOf arch second).totalDurationMs]
    simp only [UInt64.add_zero, and_self]
  rw [sameProvenance_generateMetadata_iff]
  constructor
  · rintro ⟨hsize, _, _, harch, _⟩
    exact ⟨hobserved.mp hsize, hforeign.mp harch⟩
  · rintro ⟨hassumed, hhidden⟩
    exact ⟨hobserved.mpr hassumed, hbaseline.mpr hassumed, hunresolved, hforeign.mpr hhidden,
      htotals.1, htotals.2⟩

/-- **When growing a profile keeps its provenance.**  The profile generated from the second captures
with the profile of the first ones folded in records the same observed and baseline counts,
unresolved names, foreign calls, events and duration as the profile generated from all captures —
exactly if every name that is assumed and has a number was observed, and no foreign call of the
first captures shows. -/
theorem provenance_kept_iff (t : Target) (now₁ now₂ now : UInt64) (options : GenerateOptions)
    (first second : List CaptureFile) (hfirst : first ≠ []) (hsecond : second ≠ [])
    (hnative : ∀ capture ∈ first ++ second, capture.auditArch = auditArchNative t)
    (hsum : ∀ arch, foreignTotal (first ++ second) arch < 2 ^ 64) :
    ∃ profile₁ profile₂ profile grown batch,
      generate t now₁ first { options with mergeInto := none } = .ok profile₁ ∧
      generate t now₂ second { options with mergeInto := some profile₁ } = .ok profile₂ ∧
      generate t now (first ++ second) { options with mergeInto := none } = .ok profile ∧
      profile₂.crunMetadata = some grown ∧ profile.crunMetadata = some batch ∧
      (grown.SameProvenance batch ↔
        (∀ s, Assumed options.includeCompat s → (number t s).isSome →
          Observed (first ++ second) s) ∧ ForeignHidden first second) := by
  obtain ⟨hmerge₁, harch₁⟩ := merge_eq_mergedOf hfirst fun c hc ↦
    hnative c (List.mem_append_left _ hc)
  obtain ⟨hmerge₂, harch₂⟩ := merge_eq_mergedOf hsecond fun c hc ↦
    hnative c (List.mem_append_right _ hc)
  obtain ⟨hmerge, harch⟩ := merge_eq_mergedOf (List.append_ne_nil_of_left_ne_nil hfirst _) hnative
  exact ⟨firstProfile t now₁ first options, _, _, _, _, generate_of_merge now₁ hmerge₁ harch₁ _,
    generate_of_merge now₂ hmerge₂ harch₂ _, generate_of_merge now hmerge harch _, rfl, rfl,
    sameProvenance_iff now₁ now₂ now hsum⟩

/-- A workload that itself makes every call of the baseline. -/
theorem provenance_kept_iff_baseline :
    let a := sampleCapture .x86_64 "a" (.ofList (mandatoryBaseline.map fun s ↦ (s, (1 : UInt64)))) ∅
    let b := sampleCapture .x86_64 "b" {("openat", 1), ("unknown_9999", 1)} ∅
    ∃ profile₁ profile₂ profile grown batch,
      generate .x86_64 1 [a] {} = .ok profile₁ ∧
      generate .x86_64 2 [b] { mergeInto := some profile₁ } = .ok profile₂ ∧
      generate .x86_64 3 [a, b] {} = .ok profile ∧
      profile₂.crunMetadata = some grown ∧ profile.crunMetadata = some batch ∧
      grown.SameProvenance batch := by
  intro a b
  obtain ⟨profile₁, profile₂, profile, grown, batch, h₁, h₂, h, hgrown, hbatch, hiff⟩ :=
    provenance_kept_iff .x86_64 1 2 3 {} [a] [b] (by simp) (by simp)
      (by simp [a, b, sampleCapture]) (by simp [a, b, sampleCapture, foreignTotal])
  refine ⟨profile₁, profile₂, profile, grown, batch, h₁, h₂, h, hgrown, hbatch,
    hiff.mpr ⟨fun s hs _ ↦ ⟨a, by simp, ?_⟩, ?_⟩⟩
  · have hmem : s ∈ mandatoryBaseline := by simpa [Assumed] using hs
    simpa [a, sampleCapture, Std.ExtTreeMap.mem_ofList] using hmem
  · simp [ForeignHidden, a, sampleCapture]

/-- A workload that was seen to call `read`, and then `openat`: the calls of the baseline are recorded
as observed, although nobody observed them. -/
theorem growth_counts_baseline_as_observed :
    let a := sampleCapture .x86_64 "a" {("read", 3)} ∅
    let b := sampleCapture .x86_64 "b" {("openat", 1)} ∅
    ∃ profile₁ profile₂ profile grown batch,
      generate .x86_64 1 [a] {} = .ok profile₁ ∧
      generate .x86_64 2 [b] { mergeInto := some profile₁ } = .ok profile₂ ∧
      generate .x86_64 3 [a, b] {} = .ok profile ∧
      profile₂.crunMetadata = some grown ∧ profile.crunMetadata = some batch ∧
      ¬ grown.SameProvenance batch := by
  intro a b
  have hnative : ∀ capture ∈ [a] ++ [b], capture.auditArch = auditArchNative .x86_64 := by
    simp [a, b, sampleCapture]
  obtain ⟨hmerge₁, harch₁⟩ := @merge_eq_mergedOf [a] _ (by simp) fun c hc ↦
    hnative c (List.mem_append_left _ hc)
  obtain ⟨hmerge₂, harch₂⟩ := @merge_eq_mergedOf [b] _ (by simp) fun c hc ↦
    hnative c (List.mem_append_right _ hc)
  obtain ⟨hmerge, harch⟩ := merge_eq_mergedOf (by simp) hnative
  refine ⟨firstProfile .x86_64 1 [a] {}, _, _, _, _, generate_of_merge 1 hmerge₁ harch₁ _,
    generate_of_merge 2 hmerge₂ harch₂ _, generate_of_merge 3 hmerge harch _, rfl, rfl, fun h ↦ ?_⟩
  have hsum : ∀ arch, foreignTotal ([a] ++ [b]) arch < 2 ^ 64 := by
    simp [a, b, sampleCapture, foreignTotal]
  have hassumed := ((@sameProvenance_iff .x86_64 {} [a] [b] 1 2 3 hsum).mp h).1 "exit_group"
    (Or.inl (by decide)) (by decide +kernel)
  simp [Observed, a, b, sampleCapture] at hassumed

end Provenance

end CrunRs.Seccomp
