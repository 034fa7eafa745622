import CrunRs.Seccomp.Capture
import CrunRs.Seccomp.Profile

/-!
# From captures to a profile, and back to a filter

`seccomp/generate.rs`, and the statement that the learning loop closes: a workload that is replayed
under the filter compiled from the profile generated from its own captures makes no call that is
denied, and the filter allows nothing whose origin cannot be named.

The chain is number → name → file → merge → counted names → profile → name → number → comparison.
Every stage has its own membership lemma (`mem_recordAll_counts`, `mem_fromCapture_syscalls`,
`merge_spec`, `mem_generateCounts`, `mem_addNames`, `mem_allowedNames_build`, `compile_spec`), and
the two table lookups being inverse to each other (`name_eq_some_iff_number`) is what makes the
ends meet.
-/

set_option autoImplicit false

namespace CrunRs.Seccomp

open Ordered

/-! ## Generating -/

structure GenerateOptions where
  workload : Option String := none
  action : SeccompAction := .errno
  /-- Adds the syscalls a newer libc reaches for. -/
  includeCompat : Bool := false
  /-- An existing profile to fold in. -/
  mergeInto : Option SeccompProfile := none

/-- The counts a profile starts from: those of the captures, and of the profile folded in.  A name
that profile allows is kept even if it was never counted. -/
def generateCounts (merged : MergedCapture) (mergeInto : Option SeccompProfile) :
    Std.ExtTreeMap String UInt64 :=
  match mergeInto with
  | none => merged.syscalls
  | some existing =>
    let counts := match existing.crunMetadata with
      | none => merged.syscalls
      | some metadata => addCounts merged.syscalls metadata.syscallCounts
    existing.allowedNames.toList.foldl (fun m name ↦ m.alter name fun o ↦ some (o.getD 0)) counts

/-- `if number(name).is_some() && allowed.insert(name) { added += 1 }` for every name. -/
def addNames (t : Target) (names : List String) (allowed : Std.ExtTreeSet String × Nat) :
    Std.ExtTreeSet String × Nat :=
  names.foldl (fun acc name ↦
    if (number t name).isSome ∧ name ∉ acc.1 then (acc.1.insert name, acc.2 + 1) else acc) allowed

/-- The provenance entry of one capture. -/
def SourceRun.ofCapture (capture : CaptureFile) : SourceRun where
  containerId := capture.id
  command := capture.command
  startedAtUnix := capture.startedAtUnix
  durationMs := capture.durationMs
  events := capture.totalEvents
  uniqueSyscalls := capture.syscalls.size

/-- The counted names that have a number here. -/
def generateObserved (t : Target) (counts : Std.ExtTreeMap String UInt64) :
    Std.ExtTreeSet String :=
  .ofList (counts.keys.filter fun s ↦ (number t s).isSome)

/-- The names a profile allows, with how many of them were not observed. -/
def generateAllowed (t : Target) (counts : Std.ExtTreeMap String UInt64) (includeCompat : Bool) :
    Std.ExtTreeSet String × Nat :=
  let withBaseline := addNames t mandatoryBaseline (generateObserved t counts, 0)
  if includeCompat then addNames t glibcCompatSet withBaseline else withBaseline

/-- The metadata of a profile generated at the time `now`. -/
def generateMetadata (t : Target) (now : UInt64) (merged : MergedCapture)
    (options : GenerateOptions) : CrunMetadata :=
  let counts := generateCounts merged options.mergeInto
  let existing := options.mergeInto.bind SeccompProfile.crunMetadata
  let (allowed, baselineAdded) := generateAllowed t counts options.includeCompat
  { schemaVersion := metadataSchemaVersion
    generator := "crun-rs"
    runtimeVersion := cargoPkgVersion
    workload := options.workload
    arch := nativeArchName t
    auditArch := merged.auditArch
    generatedAtUnix := now
    observedSyscallCount := (generateObserved t counts).size
    baselineSyscallCount := baselineAdded
    totalSyscallCount := allowed.size
    captureDurationMs :=
      merged.totalDurationMs + (existing.map CrunMetadata.captureDurationMs).getD 0
    totalEvents := merged.totalEvents + (existing.map CrunMetadata.totalEvents).getD 0
    sourceRuns := merged.sources.map SourceRun.ofCapture ++
      (existing.map CrunMetadata.sourceRuns).getD []
    unresolved := (resolveAll t counts.keys).2
    foreignArch := merged.foreignArch
    syscallCounts := counts }

/-- `generate`, at the time `now`. -/
def generate (t : Target) (now : UInt64) (captures : List CaptureFile) (options : GenerateOptions) :
    Except SeccompError SeccompProfile :=
  match merge captures with
  | .error e => .error e
  | .ok merged =>
    if merged.auditArch ≠ auditArchNative t then
      .error (.archMismatch (auditArchNative t) merged.auditArch)
    else .ok (SeccompProfile.build t
      (generateAllowed t (generateCounts merged options.mergeInto) options.includeCompat).1
      options.action.toOci options.action.errnoValue (some (generateMetadata t now merged options)))

/-! ## What is in a generated profile -/

/-- Names a profile folded into another contributes: those it allows and those it counted. -/
def SeccompProfile.Contributes (profile : SeccompProfile) (s : String) : Prop :=
  s ∈ profile.allowedNames ∨ ∃ metadata, profile.crunMetadata = some metadata ∧
    s ∈ metadata.syscallCounts

theorem mem_generateCounts {merged : MergedCapture} {mergeInto : Option SeccompProfile}
    {s : String} : s ∈ generateCounts merged mergeInto ↔
      s ∈ merged.syscalls ∨ ∃ existing, mergeInto = some existing ∧ existing.Contributes s := by
  cases mergeInto with
  | none => simp [generateCounts]
  | some existing =>
    rw [generateCounts, mem_foldl_alter]
    simp only [Std.ExtTreeSet.mem_toList, exists_eq_right, Option.some.injEq, exists_eq_left',
      SeccompProfile.Contributes]
    cases existing.crunMetadata with
    | none => simp
    | some metadata =>
      rw [mem_addCounts]
      simp only [Option.some.injEq, exists_eq_left']
      tauto

theorem mem_addNames {t : Target} {names : List String} {allowed : Std.ExtTreeSet String × Nat}
    {s : String} : s ∈ (addNames t names allowed).1 ↔
      s ∈ allowed.1 ∨ s ∈ names ∧ (number t s).isSome := by
  induction names generalizing allowed with
  | nil => simp [addNames]
  | cons name rest ih =>
    rw [addNames, List.foldl_cons, ← addNames, ih]
    split
    · rename_i h
      rw [Std.ExtTreeSet.mem_insert, Std.LawfulEqCmp.compare_eq_iff_eq, List.mem_cons]
      constructor
      · rintro ((rfl | hs) | hs)
        · exact Or.inr ⟨Or.inl rfl, h.1⟩
        · exact Or.inl hs
        · exact Or.inr ⟨Or.inr hs.1, hs.2⟩
      · rintro (hs | ⟨rfl | hs, hn⟩)
        · exact Or.inl (Or.inr hs)
        · exact Or.inl (Or.inl rfl)
        · exact Or.inr ⟨hs, hn⟩
    · rename_i h
      rw [List.mem_cons]
      refine ⟨fun hs ↦ hs.imp_right fun hr ↦ ⟨Or.inr hr.1, hr.2⟩, ?_⟩
      rintro (hs | ⟨rfl | hs, hn⟩)
      · exact Or.inl hs
      -- a defined name is skipped only because it is already there
      · exact Or.inl (by_contra fun hnot ↦ h ⟨hn, hnot⟩)
      · exact Or.inr ⟨hs, hn⟩

theorem mem_generateObserved {t : Target} {counts : Std.ExtTreeMap String UInt64} {s : String} :
    s ∈ generateObserved t counts ↔ s ∈ counts ∧ (number t s).isSome := by
  rw [generateObserved, Std.ExtTreeSet.mem_ofList, List.contains_iff_mem, List.mem_filter,
    Std.ExtTreeMap.mem_keys]

theorem mem_generateAllowed {t : Target} {counts : Std.ExtTreeMap String UInt64}
    {includeCompat : Bool} {s : String} : s ∈ (generateAllowed t counts includeCompat).1 ↔
      (s ∈ counts ∨ s ∈ mandatoryBaseline ∨ includeCompat = true ∧ s ∈ glibcCompatSet) ∧
        (number t s).isSome := by
  rw [generateAllowed]
  cases includeCompat with
  | false =>
    rw [if_neg Bool.false_ne_true, mem_addNames, mem_generateObserved]
    simp only [Bool.false_eq_true, false_and, or_false]
    tauto
  | true =>
    rw [if_pos rfl, mem_addNames, mem_addNames, mem_generateObserved]
    simp only [true_and]
    tauto

/-- The names a generated profile may allow, by where they come from. -/
def Origin (merged : MergedCapture) (options : GenerateOptions) (s : String) : Prop :=
  s ∈ generateCounts merged options.mergeInto ∨ s ∈ mandatoryBaseline ∨
    options.includeCompat = true ∧ s ∈ glibcCompatSet

/-- **What `generate` writes.**  From captures that merge to the native architecture it makes a
profile without argument rules that allows exactly the names with an origin and a number, and lists
the counted names without a number as unresolved. -/
theorem generate_spec (t : Target) (now : UInt64) {captures : List CaptureFile}
    (options : GenerateOptions) {merged : MergedCapture} (hmerge : merge captures = .ok merged)
    (harch : merged.auditArch = auditArchNative t) :
    ∃ profile metadata, generate t now captures options = .ok profile ∧
      profile.crunMetadata = some metadata ∧ profile.validateSupported = .ok () ∧
      (∀ s, s ∈ profile.allowedNames ↔ Origin merged options s ∧ (number t s).isSome) ∧
      (∀ s, s ∈ metadata.unresolved ↔
        s ∈ generateCounts merged options.mergeInto ∧ number t s = none) := by
  rw [generate, hmerge]
  refine ⟨_, _, if_neg (not_not.mpr harch), rfl, SeccompProfile.validateSupported_build .., ?_, ?_⟩
  · intro s
    rw [SeccompProfile.mem_allowedNames_build, mem_generateAllowed, Origin]
  · intro s
    rw [generateMetadata, mem_resolveAll_snd, Std.ExtTreeMap.mem_keys]

/-! ## Replaying what was recorded -/

/-- A captured run: the tracer starts from nothing on the native architecture, records the calls of
a container and writes the file. -/
structure Session (t : Target) where
  id : String
  command : List String
  /-- The capture before the first call. -/
  start : Capture
  fresh : start.counts = ∅
  native : start.auditArch = 0 ∨ start.auditArch = auditArchNative t
  /-- The recorded numbers, each with the milliseconds since the start. -/
  calls : List (Int × UInt64)

namespace Session

/-- The file written at the end of the run. -/
def file {t : Target} (session : Session t) : CaptureFile :=
  .fromCapture t session.id session.command (session.start.recordAll session.calls)

def Records {t : Target} (session : Session t) (n : Int) : Prop :=
  ∃ call ∈ session.calls, call.1 = n

theorem file_auditArch {t : Target} (session : Session t) :
    session.file.auditArch = auditArchNative t := by
  rw [file, CaptureFile.fromCapture, Capture.recordAll_auditArch]
  split
  · rfl
  · rename_i h
    exact session.native.resolve_left h

theorem mem_file_syscalls {t : Target} {session : Session t} {s : String} :
    s ∈ session.file.syscalls ↔ ∃ n, session.Records n ∧ captureName t n = s := by
  rw [file, mem_fromCapture_syscalls]
  simp only [Capture.mem_recordAll_counts, session.fresh, Std.ExtTreeMap.not_mem_empty, false_or,
    Records]

end Session

/-- A call recorded in one of the sessions. -/
def Recorded {t : Target} (sessions : List (Session t)) (n : Int) : Prop :=
  ∃ session ∈ sessions, session.Records n

theorem captureName_of_number {t : Target} {s : String} {n : Int} (h : number t s = some n) :
    captureName t n = s := by
  rw [captureName, name_eq_some_iff_number.mpr h, Option.getD_some]

theorem captureName_of_not_defines {t : Target} {n : Int} (h : ¬ Defines t n) :
    captureName t n = "unknown_" ++ toString n := by
  rw [captureName, not_defines_iff.mp h, Option.getD_none]

/-- A name that has a number and stands for a recorded call has that call's number. -/
theorem number_captureName {t : Target} {n m : Int} (h : number t (captureName t n) = some m) :
    m = n := by
  rw [captureName] at h
  cases hname : name t n with
  | none => rw [hname, Option.getD_none, number_unknown] at h; exact absurd h (by simp)
  | some s =>
    rw [hname, Option.getD_some, name_eq_some_iff_number.mp hname] at h
    exact (Option.some.inj h).symm

/-- The numbers the profile generated from some sessions may let through. -/
def Accounted {t : Target} (sessions : List (Session t)) (options : GenerateOptions) (n : Int) :
    Prop :=
  Recorded sessions n ∨
  (∃ s ∈ mandatoryBaseline, number t s = some n) ∨
  (options.includeCompat = true ∧ ∃ s ∈ glibcCompatSet, number t s = some n) ∨
  ∃ existing, options.mergeInto = some existing ∧
    ∃ s, existing.Contributes s ∧ number t s = some n

/-- A name with an origin has an accounted number, and only these have one. -/
theorem accounted_of_origin {t : Target} {sessions : List (Session t)} {options : GenerateOptions}
    {merged : MergedCapture}
    (hmerged : ∀ s, s ∈ merged.syscalls ↔ ∃ n, Recorded sessions n ∧ captureName t n = s)
    {s : String} {n : Int} (horigin : Origin merged options s) (hs : number t s = some n) :
    Accounted sessions options n := by
  rcases horigin with hcounted | hbase | ⟨hcompat, hglibc⟩
  · rcases mem_generateCounts.mp hcounted with hmem | ⟨existing, hinto, hcontrib⟩
    · obtain ⟨m, hm, rfl⟩ := (hmerged s).mp hmem
      exact Or.inl (number_captureName hs ▸ hm)
    · exact Or.inr (Or.inr (Or.inr ⟨existing, hinto, s, hcontrib, hs⟩))
  · exact Or.inr (Or.inl ⟨s, hbase, hs⟩)
  · exact Or.inr (Or.inr (Or.inl ⟨hcompat, s, hglibc, hs⟩))

/-- The names of the merged captures are the names of the recorded calls. -/
theorem merge_sessions {t : Target} {sessions : List (Session t)} (hne : sessions ≠ []) :
    ∃ merged, merge (sessions.map Session.file) = .ok merged ∧
      merged.auditArch = auditArchNative t ∧
      ∀ s, s ∈ merged.syscalls ↔ ∃ n, Recorded sessions n ∧ captureName t n = s := by
  have hnative : ∀ capture ∈ sessions.map Session.file, capture.auditArch = auditArchNative t := by
    intro capture hcapture
    obtain ⟨session, _, rfl⟩ := List.mem_map.mp hcapture
    exact session.file_auditArch
  obtain ⟨merged, hmerge, harch, hmem⟩ := merge_spec (by simpa using hne) hnative
  refine ⟨merged, hmerge, harch, fun s ↦ ?_⟩
  rw [hmem]
  constructor
  · rintro ⟨capture, hcapture, hs⟩
    obtain ⟨session, hsession, rfl⟩ := List.mem_map.mp hcapture
    obtain ⟨n, hn, hname⟩ := Session.mem_file_syscalls.mp hs
    exact ⟨n, ⟨session, hsession, hn⟩, hname⟩
  · rintro ⟨n, ⟨session, hsession, hn⟩, hname⟩
    exact ⟨session.file, List.mem_map_of_mem hsession,
      Session.mem_file_syscalls.mpr ⟨n, hn, hname⟩⟩

/-- **The learning loop closes.**  The files of any sessions generate a profile and the profile
compiles, whatever the options of either step.  The program allows every recorded call that the
architecture defines; what it allows is native and accounted for; and a recorded number that the
architecture does not define is listed as unresolved and gets the default action. -/
theorem replay_generated_profile (t : Target) (now : UInt64) (sessions : List (Session t))
    (hne : sessions ≠ []) (options : GenerateOptions) (compileOptions : CompileOptions) :
    ∃ profile metadata compiled,
      generate t now (sessions.map Session.file) options = .ok profile ∧
      profile.crunMetadata = some metadata ∧
      compile t profile compileOptions = .ok compiled ∧
      (∀ n, Recorded sessions n → Defines t n → ∀ d : SeccompData, d.arch = auditArchNative t →
        (d.nr.toNat : Int) = n → compiled.program.run d = .ret seccompRetAllow) ∧
      (∀ d : SeccompData, compiled.program.run d = .ret seccompRetAllow →
        d.arch = auditArchNative t ∧ Accounted sessions options d.nr.toNat) ∧
      (∀ n, Recorded sessions n → ¬ Defines t n →
        "unknown_" ++ toString n ∈ metadata.unresolved ∧
        ∀ d : SeccompData, (d.nr.toNat : Int) = n →
          compiled.program.run d = .ret compileOptions.defaultAction.toBpfRet ∧
          compiled.program.run d ≠ .ret seccompRetAllow) := by
  obtain ⟨merged, hmerge, harch, hmerged⟩ := merge_sessions hne
  obtain ⟨profile, metadata, hgen, hmeta, hvalid, hnames, hunresolved⟩ :=
    generate_spec t now options hmerge harch
  obtain ⟨compiled, hcompile, hrun⟩ := compile_spec t compileOptions hvalid
  have hdeny : ∀ d, ¬ (d.arch = auditArchNative t ∧ AllowsNumber t profile d.nr.toNat) →
      compiled.program.run d = .ret compileOptions.defaultAction.toBpfRet ∧
        compiled.program.run d ≠ .ret seccompRetAllow := by
    intro d hd
    rw [(hrun d).2 hd]
    exact ⟨rfl, fun heq ↦ compileOptions.defaultAction.toBpfRet_ne_allow
      (ClassicBpf.Outcome.ret.inj heq)⟩
  refine ⟨profile, metadata, compiled, hgen, hmeta, hcompile, ?_, ?_, ?_⟩
  · rintro n hn hdef d hd rfl
    obtain ⟨s, hs⟩ := defines_iff.mp hdef
    refine (hrun d).1 ⟨hd, s, (hnames s).mpr ⟨Or.inl ?_, by rw [hs]; rfl⟩, hs⟩
    exact mem_generateCounts.mpr (Or.inl ((hmerged s).mpr ⟨_, hn, captureName_of_number hs⟩))
  · intro d hallow
    by_cases hd : d.arch = auditArchNative t ∧ AllowsNumber t profile d.nr.toNat
    · obtain ⟨hd, s, hs, hnum⟩ := hd
      exact ⟨hd, accounted_of_origin hmerged ((hnames s).mp hs).1 hnum⟩
    · exact absurd hallow (hdeny d hd).2
  · intro n hn hdef
    constructor
    · refine (hunresolved _).mpr ⟨mem_generateCounts.mpr (Or.inl ?_), number_unknown t _⟩
      exact (hmerged _).mpr ⟨n, hn, captureName_of_not_defines hdef⟩
    · rintro d rfl
      refine hdeny d fun hd ↦ hdef ?_
      obtain ⟨_, s, _, hs⟩ := hd
      exact defines_iff.mpr ⟨s, hs⟩

/-- The loop for a workload that called `read` (0 on x86_64) and a number no table has. -/
theorem replay_generated_profile_read :
    let session : Session .x86_64 :=
      ⟨"demo", ["/bin/sh"], {}, rfl, Or.inl rfl, [(0, 1), (9999, 2)]⟩
    ∃ profile metadata compiled,
      generate .x86_64 0 [session.file] {} = .ok profile ∧
      profile.crunMetadata = some metadata ∧ compile .x86_64 profile {} = .ok compiled ∧
      compiled.program.run { nr := 0, arch := auditArchNative .x86_64 } =
        .ret seccompRetAllow ∧
      "unknown_9999" ∈ metadata.unresolved := by
  intro session
  obtain ⟨profile, metadata, compiled, hgen, hmeta, hcompile, hallow, _, hunknown⟩ :=
    replay_generated_profile .x86_64 0 [session] (by simp) {} {}
  refine ⟨profile, metadata, compiled, hgen, hmeta, hcompile, ?_, ?_⟩
  · refine hallow 0 ⟨session, by simp, (0, 1), by simp [session], rfl⟩ ?_ _ rfl rfl
    exact defines_iff.mpr ⟨"read", by decide +kernel⟩
  · refine (hunknown 9999 ⟨session, by simp, (9999, 2), by simp [session], rfl⟩ ?_).1
    exact not_defines_iff.mpr (by decide +kernel)

end CrunRs.Seccomp
