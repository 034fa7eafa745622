import CrunRs.Seccomp.Generate
import CrunRs.Seccomp.Report

/-!
# Coverage of vulnerabilities

`seccomp/report.rs`: `is_mitigated` and `cve_coverage`.  A vulnerability is cut off if every route to
it is, and a route is if one of its syscalls is not allowed; one without routes never is.  So a
profile that allows less cuts off more (`isMitigated_antitone`), and as a generated profile allows no
less for more captures, or with a profile folded in, its coverage never grows by them
(`coverage_antitone`).
-/

set_option autoImplicit false

namespace CrunRs.Seccomp

/-! ## One vulnerability -/

theorem isMitigated_iff {entry : CveEntry} {allowed : Std.ExtTreeSet String} :
    isMitigated entry allowed = true ↔
      entry.attackPaths ≠ [] ∧ ∀ path ∈ entry.attackPaths, ∃ syscall ∈ path.syscalls,
        syscall ∉ allowed := by
  rw [isMitigated]
  cases hpaths : entry.attackPaths with
  | nil => simp
  | cons path rest => simp

theorem isMitigated_antitone {entry : CveEntry} {p q : Std.ExtTreeSet String}
    (h : ∀ s ∈ p, s ∈ q) (hq : isMitigated entry q = true) : isMitigated entry p = true := by
  rw [isMitigated_iff] at hq ⊢
  refine ⟨hq.1, fun path hpath ↦ ?_⟩
  obtain ⟨syscall, hmem, hdenied⟩ := hq.2 path hpath
  exact ⟨syscall, hmem, mt (h syscall) hdenied⟩

/-! ## All of them -/

/-- What the loop of `cve_coverage` has counted and listed after some entries. -/
theorem foldl_add (profileAllowed baselineAllowed : Std.ExtTreeSet String)
    (entries : List CveEntry) (coverage : CveCoverage) :
    let result := entries.foldl (CveCoverage.add profileAllowed baselineAllowed) coverage
    result.mitigatedByProfile =
        coverage.mitigatedByProfile + entries.countP (isMitigated · profileAllowed) ∧
      result.stillReachable = coverage.stillReachable ++
        (entries.filter fun entry ↦ !isMitigated entry profileAllowed).map CveEntry.id ∧
      result.containerRelevant = coverage.containerRelevant := by
  induction entries generalizing coverage with
  | nil => simp
  | cons entry rest ih =>
    obtain ⟨hmitigated, hreachable, hrelevant⟩ :=
      ih (coverage.add profileAllowed baselineAllowed entry)
    rw [List.foldl_cons]
    refine ⟨?_, ?_, hrelevant⟩
    · rw [hmitigated, CveCoverage.add, List.countP_cons]
      cases isMitigated entry profileAllowed with
      | true =>
        simp only [Bool.toNat_true, if_true]
        omega
      | false => simp
    · rw [hreachable, CveCoverage.add, List.filter_cons]
      cases isMitigated entry profileAllowed with
      | true => simp
      | false => simp

variable {map : CveMap} {p q baseline : Std.ExtTreeSet String}

theorem mitigatedByProfile_eq : (cveCoverage map p baseline).mitigatedByProfile =
    map.relevant.countP (isMitigated · p) := by
  rw [cveCoverage, (foldl_add p baseline map.relevant _).1, Nat.zero_add]

theorem stillReachable_eq : (cveCoverage map p baseline).stillReachable =
    (map.relevant.filter fun entry ↦ !isMitigated entry p).map CveEntry.id := by
  rw [cveCoverage, (foldl_add p baseline map.relevant _).2.1, List.nil_append]

/-- **Every relevant vulnerability is cut off or listed.** -/
theorem coverage_partition (map : CveMap) (p baseline : Std.ExtTreeSet String) :
    (cveCoverage map p baseline).mitigatedByProfile +
        (cveCoverage map p baseline).stillReachable.length =
      (cveCoverage map p baseline).containerRelevant := by
  have hrelevant : (cveCoverage map p baseline).containerRelevant = map.relevant.length := by
    rw [cveCoverage, (foldl_add p baseline map.relevant _).2.2]
  rw [mitigatedByProfile_eq, stillReachable_eq, hrelevant, List.length_map,
    ← List.countP_eq_length_filter, List.length_eq_countP_add_countP (isMitigated · p)]
  simp only [Bool.not_eq_true, Bool.decide_eq_false]

theorem mitigatedByProfile_antitone (h : ∀ s ∈ p, s ∈ q) :
    (cveCoverage map q baseline).mitigatedByProfile ≤
      (cveCoverage map p baseline).mitigatedByProfile := by
  rw [mitigatedByProfile_eq, mitigatedByProfile_eq]
  exact List.countP_mono_left fun entry _ ↦ isMitigated_antitone h

/-! ## Generated profiles -/

/-- Captures and options from which no less is allowed: the captures are among the others, and what
the options add is added too. -/
structure Widens (captures captures' : List CaptureFile) (options options' : GenerateOptions) :
    Prop where
  captures : ∀ capture ∈ captures, capture ∈ captures'
  includeCompat : options.includeCompat = true → options'.includeCompat = true
  mergeInto : ∀ existing, options.mergeInto = some existing → options'.mergeInto = some existing

variable {t : Target} {now now' : UInt64} {captures captures' : List CaptureFile}
  {options options' : GenerateOptions} {profile profile' existing : SeccompProfile}

/-- The names a generated profile allows, from the captures it is made of. -/
theorem mem_allowedNames_of_generate (h : generate t now captures options = .ok profile)
    {s : String} : s ∈ profile.allowedNames ↔
      ((∃ capture ∈ captures, s ∈ capture.syscalls) ∨
        (∃ existing, options.mergeInto = some existing ∧ existing.Contributes s) ∨
        s ∈ mandatoryBaseline ∨ options.includeCompat = true ∧ s ∈ glibcCompatSet) ∧
      (number t s).isSome := by
  cases hmerge : merge captures with
  | error e =>
    rw [generate, hmerge] at h
    cases h
  | ok merged =>
    have harch : merged.auditArch = auditArchNative t := by
      rw [generate, hmerge] at h
      by_contra hne
      dsimp only at h
      rw [if_pos hne] at h
      cases h
    obtain ⟨hne, hcaptures, -⟩ := merge_eq_ok_iff.mp hmerge
    obtain ⟨merged', hmerge', -, hsyscalls⟩ := merge_spec hne hcaptures
    obtain rfl : merged' = merged := Except.ok.inj (hmerge'.symm.trans hmerge)
    obtain ⟨profile', -, hgenerate, -, -, hallowed, -⟩ := generate_spec t now options hmerge harch
    obtain rfl : profile' = profile := Except.ok.inj (hgenerate.symm.trans h)
    rw [hallowed, Origin, mem_generateCounts, hsyscalls, or_assoc]

/-- **More captures allow no less.** -/
theorem allowedNamesForArch_mono (hwidens : Widens captures captures' options options')
    (h : generate t now captures options = .ok profile)
    (h' : generate t now' captures' options' = .ok profile') :
    ∀ s ∈ profile.allowedNamesForArch t, s ∈ profile'.allowedNamesForArch t := by
  intro s hs
  rw [SeccompProfile.mem_allowedNamesForArch, mem_allowedNames_of_generate h] at hs
  rw [SeccompProfile.mem_allowedNamesForArch, mem_allowedNames_of_generate h']
  refine ⟨⟨?_, hs.2⟩, hs.2⟩
  rcases hs.1.1 with ⟨capture, hmem, hsyscall⟩ | ⟨existing, hinto, hcontributes⟩ | hbase |
    ⟨hcompat, hglibc⟩
  · exact Or.inl ⟨capture, hwidens.captures capture hmem, hsyscall⟩
  · exact Or.inr (Or.inl ⟨existing, hwidens.mergeInto existing hinto, hcontributes⟩)
  · exact Or.inr (Or.inr (Or.inl hbase))
  · exact Or.inr (Or.inr (Or.inr ⟨hwidens.includeCompat hcompat, hglibc⟩))

/-- A profile that is folded in stays allowed. -/
theorem allowedNamesForArch_of_mergeInto (hinto : options.mergeInto = some existing)
    (h : generate t now captures options = .ok profile) :
    ∀ s ∈ existing.allowedNamesForArch t, s ∈ profile.allowedNamesForArch t := by
  intro s hs
  rw [SeccompProfile.mem_allowedNamesForArch] at hs
  rw [SeccompProfile.mem_allowedNamesForArch, mem_allowedNames_of_generate h]
  exact ⟨⟨Or.inr (Or.inl ⟨existing, hinto, Or.inl hs.1⟩), hs.2⟩, hs.2⟩

/-- **Allowing less cuts off more**: coverage is antitone in the allowed names, it splits the
relevant vulnerabilities, and neither more captures nor a profile that is folded in can add to it. -/
theorem coverage_antitone (t : Target) (map : CveMap) (baseline : Std.ExtTreeSet String) :
    (∀ P Q : SeccompProfile,
      (∀ s ∈ P.allowedNamesForArch t, s ∈ Q.allowedNamesForArch t) →
      ∀ entry ∈ map.entries, entry.containerRelevant = true →
        isMitigated entry (Q.allowedNamesForArch t) = true →
        isMitigated entry (P.allowedNamesForArch t) = true) ∧
    (∀ P : SeccompProfile,
      (cveCoverage map (P.allowedNamesForArch t) baseline).mitigatedByProfile +
          (cveCoverage map (P.allowedNamesForArch t) baseline).stillReachable.length =
        (cveCoverage map (P.allowedNamesForArch t) baseline).containerRelevant) ∧
    (∀ (now now' : UInt64) (captures captures' : List CaptureFile)
      (options options' : GenerateOptions) (P Q : SeccompProfile),
      Widens captures captures' options options' →
      generate t now captures options = .ok P → generate t now' captures' options' = .ok Q →
      (cveCoverage map (Q.allowedNamesForArch t) baseline).mitigatedByProfile ≤
        (cveCoverage map (P.allowedNamesForArch t) baseline).mitigatedByProfile) ∧
    ∀ (now : UInt64) (captures : List CaptureFile) (options : GenerateOptions)
      (existing P : SeccompProfile), options.mergeInto = some existing →
      generate t now captures options = .ok P →
      (cveCoverage map (P.allowedNamesForArch t) baseline).mitigatedByProfile ≤
        (cveCoverage map (existing.allowedNamesForArch t) baseline).mitigatedByProfile := by
  refine ⟨fun P Q h entry _ _ ↦ isMitigated_antitone h, fun P ↦ coverage_partition .., ?_, ?_⟩
  · intro now now' captures captures' options options' P Q hwidens hP hQ
    exact mitigatedByProfile_antitone (allowedNamesForArch_mono hwidens hP hQ)
  · intro now captures options existing P hinto hP
    exact mitigatedByProfile_antitone (allowedNamesForArch_of_mergeInto hinto hP)

/-- A profile is generated from the captures of any sessions. -/
theorem exists_generate {t : Target} (now : UInt64) {sessions : List (Session t)}
    (hne : sessions ≠ []) (options : GenerateOptions) :
    ∃ profile, generate t now (sessions.map Session.file) options = .ok profile := by
  obtain ⟨merged, hmerge, harch, -⟩ := merge_sessions hne
  obtain ⟨profile, -, h, -⟩ := generate_spec t now options hmerge harch
  exact ⟨profile, h⟩

/-- A session that makes some calls. -/
def sessionOf (calls : List (Int × UInt64)) : Session .x86_64 :=
  ⟨"demo", ["/bin/sh"], {}, rfl, Or.inl rfl, calls⟩

/-- A bug that is reached by `splice`. -/
def spliceMap : CveMap := ⟨[{ id := "CVE-2022-0847", attackPaths := [⟨["splice"]⟩] }]⟩

/-- Once a session has called `splice` (275), and with a profile folded in that allows it, the bug
can only be reached more. -/
theorem spliceMap_coverage : ∃ P Q,
    generate .x86_64 0 [(sessionOf [(0, 1)]).file] {} = .ok P ∧
      generate .x86_64 1 [(sessionOf [(0, 1)]).file, (sessionOf [(275, 1)]).file]
        { mergeInto := some (listing ["splice"]) } = .ok Q ∧
      (cveCoverage spliceMap (Q.allowedNamesForArch .x86_64) ∅).mitigatedByProfile ≤
        (cveCoverage spliceMap (P.allowedNamesForArch .x86_64) ∅).mitigatedByProfile ∧
      (cveCoverage spliceMap (Q.allowedNamesForArch .x86_64) ∅).mitigatedByProfile ≤
        (cveCoverage spliceMap
          ((listing ["splice"]).allowedNamesForArch .x86_64) ∅).mitigatedByProfile := by
  obtain ⟨P, hP⟩ := exists_generate 0 (List.cons_ne_nil (sessionOf [(0, 1)]) []) {}
  obtain ⟨Q, hQ⟩ := exists_generate 1
    (List.cons_ne_nil (sessionOf [(0, 1)]) [sessionOf [(275, 1)]])
    { mergeInto := some (listing ["splice"]) }
  simp only [List.map_cons, List.map_nil] at hP hQ
  obtain ⟨-, -, hmore, hinto⟩ := coverage_antitone .x86_64 spliceMap ∅
  have hwidens : Widens [(sessionOf [(0, 1)]).file]
      [(sessionOf [(0, 1)]).file, (sessionOf [(275, 1)]).file] {}
      { mergeInto := some (listing ["splice"]) } :=
    ⟨fun capture h ↦ List.mem_cons.mpr (Or.inl (List.mem_singleton.mp h)), nofun,
      fun existing h ↦ absurd h (by simp)⟩
  exact ⟨P, Q, hP, hQ, hmore _ _ _ _ _ _ P Q hwidens hP hQ, hinto _ _ _ _ Q rfl hQ⟩

end CrunRs.Seccomp
