import CrunRs.Seccomp.Generate
import CrunRs.Seccomp.Order

/-!
# Sums of counts

`merge` and `generate` add up the counts, events and durations of capture files and of the profile they
are folded into.  The files can hold any number that fits, and nothing looks at the sums.

What is added to what is the same four sums every time (`Tally`), so the additions of a whole run are
those of a list of tallies (`generateAdditions_eq`).  None of them overflows exactly if every sum over
the list is below 2^64, and then the profile records the sums (`generate_exact_iff`).
-/

set_option autoImplicit false

namespace CrunRs.Seccomp

open Ordered

/-! ## The additions that are carried out -/

/-- The operands of the additions of `addCounts`. -/
def countAdditions (m : Std.ExtTreeMap String UInt64) :
    List (String × UInt64) → List (UInt64 × UInt64)
  | [] => []
  | entry :: rest =>
    (m[entry.1]?.getD 0, entry.2) ::
      countAdditions (m.alter entry.1 fun o ↦ some (o.getD 0 + entry.2)) rest

/-- Those of one round of the merge loop. -/
def MergedCapture.additions (merged : MergedCapture) (capture : CaptureFile) :
    List (UInt64 × UInt64) :=
  countAdditions merged.syscalls capture.syscalls.toList ++
    countAdditions merged.foreignArch capture.foreignArch.toList ++
    [(merged.totalEvents, capture.totalEvents), (merged.totalDurationMs, capture.durationMs)]

/-- Those of the loop, which stops at the first capture of another architecture. -/
def mergeFromAdditions : MergedCapture → List CaptureFile → List (UInt64 × UInt64)
  | _, [] => []
  | merged, capture :: rest =>
    if capture.auditArch ≠ merged.auditArch then []
    else merged.additions capture ++ mergeFromAdditions (merged.add capture) rest

def mergeAdditions (captures : List CaptureFile) : List (UInt64 × UInt64) :=
  match captures with
  | [] => []
  | first :: _ => mergeFromAdditions { auditArch := first.auditArch } captures

/-- Those of folding a profile in. -/
def metadataAdditions (merged : MergedCapture) (metadata : CrunMetadata) : List (UInt64 × UInt64) :=
  countAdditions merged.syscalls metadata.syscallCounts.toList ++
    [(merged.totalEvents, metadata.totalEvents),
      (merged.totalDurationMs, metadata.captureDurationMs)]

/-- Those of `generate`. -/
def generateAdditions (t : Target) (captures : List CaptureFile) (options : GenerateOptions) :
    List (UInt64 × UInt64) :=
  mergeAdditions captures ++ match merge captures with
    | .error _ => []
    | .ok merged =>
      if merged.auditArch ≠ auditArchNative t then []
      else (options.mergeInto.bind SeccompProfile.crunMetadata).elim [] (metadataAdditions merged)

/-- The sum is one of 64 bits. -/
def Fits (operands : UInt64 × UInt64) : Prop :=
  operands.1.toNat + operands.2.toNat < UInt64.size

/-! ## Tallies -/

/-- What is added up. -/
structure Tally where
  counts : Std.ExtTreeMap String UInt64 := ∅
  foreignArch : Std.ExtTreeMap String UInt64 := ∅
  events : UInt64 := 0
  durationMs : UInt64 := 0

namespace Tally

inductive Key
  | count (name : String)
  | foreignArch (arch : String)
  | events
  | durationMs

/-- One of the sums.  A name that is absent counts as zero. -/
def value (tally : Tally) : Key → UInt64
  | .count name => tally.counts[name]?.getD 0
  | .foreignArch arch => tally.foreignArch[arch]?.getD 0
  | .events => tally.events
  | .durationMs => tally.durationMs

def add (a b : Tally) : Tally where
  counts := addCounts a.counts b.counts
  foreignArch := addCounts a.foreignArch b.foreignArch
  events := a.events + b.events
  durationMs := a.durationMs + b.durationMs

def additions (a b : Tally) : List (UInt64 × UInt64) :=
  countAdditions a.counts b.counts.toList ++ countAdditions a.foreignArch b.foreignArch.toList ++
    [(a.events, b.events), (a.durationMs, b.durationMs)]

/-- The additions of adding one tally after the other. -/
def runAdditions : Tally → List Tally → List (UInt64 × UInt64)
  | _, [] => []
  | a, b :: rest => a.additions b ++ runAdditions (a.add b) rest

/-- What one of the sums should be. -/
def total (key : Key) : List Tally → Nat
  | [] => 0
  | tally :: rest => (tally.value key).toNat + total key rest

theorem getD_addCounts (m counts : Std.ExtTreeMap String UInt64) (s : String) :
    (addCounts m counts)[s]?.getD 0 = m[s]?.getD 0 + counts[s]?.getD 0 := by
  rw [getElem?_addCounts]
  cases m[s]? with
  | none => cases counts[s]? <;> simp
  | some a => cases counts[s]? <;> simp

/-- Every sum is added up on its own. -/
theorem value_add (a b : Tally) (key : Key) : (a.add b).value key = a.value key + b.value key := by
  cases key with
  | count | foreignArch => exact getD_addCounts _ _ _
  | events | durationMs => rfl

/-- No name is added to twice. -/
theorem mem_countAdditions {m : Std.ExtTreeMap String UInt64} {entries : List (String × UInt64)}
    (h : entries.Pairwise fun x y ↦ x.1 ≠ y.1) {operands : UInt64 × UInt64} :
    operands ∈ countAdditions m entries ↔
      ∃ entry ∈ entries, operands = (m[entry.1]?.getD 0, entry.2) := by
  induction entries generalizing m with
  | nil => simp [countAdditions]
  | cons entry entries ih =>
    obtain ⟨hfirst, hrest⟩ := List.pairwise_cons.mp h
    rw [countAdditions, List.mem_cons, ih hrest, List.exists_mem_cons_iff]
    refine or_congr_right (exists_congr fun other ↦ and_congr_right fun hother ↦ ?_)
    rw [Std.ExtTreeMap.getElem?_alter,
      if_neg (mt Std.LawfulEqCmp.compare_eq_iff_eq.mp (hfirst other hother))]

theorem forall_countAdditions_iff {m counts : Std.ExtTreeMap String UInt64} :
    (∀ operands ∈ countAdditions m counts.toList, Fits operands) ↔
      ∀ s : String, Fits (m[s]?.getD 0, counts[s]?.getD 0) := by
  have hdistinct : counts.toList.Pairwise fun x y ↦ x.1 ≠ y.1 :=
    Std.ExtTreeMap.distinct_keys_toList.imp fun h heq ↦
      h (Std.LawfulEqCmp.compare_eq_iff_eq.mpr heq)
  constructor
  · intro h s
    cases hs : counts[s]? with
    | none =>
      rw [Fits, Option.getD_none]
      exact UInt64.toNat_lt_size _
    | some n =>
      exact h _ ((mem_countAdditions hdistinct).mpr
        ⟨(s, n), Std.ExtTreeMap.mem_toList_iff_getElem?_eq_some.mpr hs, rfl⟩)
  · intro h operands hmem
    obtain ⟨entry, hentry, rfl⟩ := (mem_countAdditions hdistinct).mp hmem
    have hvalue := h entry.1
    rwa [Std.ExtTreeMap.mem_toList_iff_getElem?_eq_some.mp hentry] at hvalue

/-- **The additions of two tallies** are one for every key. -/
theorem forall_additions_iff {a b : Tally} :
    (∀ operands ∈ a.additions b, Fits operands) ↔ ∀ key, Fits (a.value key, b.value key) := by
  simp only [additions, List.forall_mem_append, List.forall_mem_cons, List.not_mem_nil,
    forall_countAdditions_iff]
  constructor
  · rintro ⟨⟨hcounts, hforeign⟩, hevents, hduration, -⟩ key
    cases key with
    | count name => exact hcounts name
    | foreignArch arch => exact hforeign arch
    | events => exact hevents
    | durationMs => exact hduration
  · intro h
    exact ⟨⟨fun s ↦ h (.count s), fun s ↦ h (.foreignArch s)⟩, h .events, h .durationMs,
      fun _ hmem ↦ hmem.elim⟩

/-- A sum fits if it does without the rest, and with the rest of what it is modulo 2^64. -/
theorem fits_iff (a b : UInt64) (n : Nat) :
    a.toNat + (b.toNat + n) < UInt64.size ↔ Fits (a, b) ∧ (a + b).toNat + n < UInt64.size := by
  rw [UInt64.toNat_add]
  constructor
  · intro h
    have hfits : a.toNat + b.toNat < UInt64.size := by omega
    rw [Nat.mod_eq_of_lt hfits]
    exact ⟨hfits, by omega⟩
  · rintro ⟨hfits, h⟩
    rw [Nat.mod_eq_of_lt hfits] at h
    rwa [← Nat.add_assoc]

/-- **No addition overflows if and only if every sum fits.** -/
theorem forall_runAdditions_iff {a : Tally} {l : List Tally} :
    (∀ operands ∈ runAdditions a l, Fits operands) ↔
      ∀ key, (a.value key).toNat + total key l < UInt64.size := by
  induction l generalizing a with
  | nil =>
    simp only [runAdditions, total, List.not_mem_nil, false_implies, implies_true, true_iff]
    exact fun key ↦ UInt64.toNat_lt_size _
  | cons b l ih =>
    simp only [runAdditions, total, List.forall_mem_append, forall_additions_iff, ih, value_add,
      fits_iff, forall_and]

/-- Where every sum fits, adding up gives the sums. -/
theorem toNat_value_foldl {a : Tally} {l : List Tally} {key : Key}
    (h : (a.value key).toNat + total key l < UInt64.size) :
    ((l.foldl add a).value key).toNat = (a.value key).toNat + total key l := by
  induction l generalizing a with
  | nil => rfl
  | cons b l ih =>
    rw [total] at h ⊢
    obtain ⟨hfits, hrest⟩ := (fits_iff _ _ _).mp h
    rw [← value_add] at hrest
    rw [List.foldl_cons, ih hrest, value_add, UInt64.toNat_add, Nat.mod_eq_of_lt hfits, Nat.add_assoc]

theorem runAdditions_append (a : Tally) (l l' : List Tally) :
    runAdditions a (l ++ l') = runAdditions a l ++ runAdditions (l.foldl add a) l' := by
  induction l generalizing a with
  | nil => rfl
  | cons b l ih => rw [List.cons_append, runAdditions, ih, runAdditions, List.append_assoc,
      List.foldl_cons]

end Tally

/-! ## What a generation adds up -/

def CaptureFile.tally (capture : CaptureFile) : Tally where
  counts := capture.syscalls
  foreignArch := capture.foreignArch
  events := capture.totalEvents
  durationMs := capture.durationMs

def MergedCapture.tally (merged : MergedCapture) : Tally where
  counts := merged.syscalls
  foreignArch := merged.foreignArch
  events := merged.totalEvents
  durationMs := merged.totalDurationMs

/-- What a profile records. -/
def CrunMetadata.tally (metadata : CrunMetadata) : Tally where
  counts := metadata.syscallCounts
  foreignArch := metadata.foreignArch
  events := metadata.totalEvents
  durationMs := metadata.captureDurationMs

/-- What is added of it when it is folded in. -/
def CrunMetadata.folded (metadata : CrunMetadata) : Tally :=
  { metadata.tally with foreignArch := ∅ }

/-- The captures that are merged: those in front of the first one of another architecture. -/
def addedCaptures (captures : List CaptureFile) : List CaptureFile :=
  captures.takeWhile fun capture ↦ some capture.auditArch = captures.head?.map CaptureFile.auditArch

/-- The metadata that is folded in, behind captures that are all of the architecture here. -/
def foldedMetadata (t : Target) (captures : List CaptureFile) (options : GenerateOptions) :
    Option CrunMetadata :=
  if captures ≠ [] ∧ ∀ capture ∈ captures, capture.auditArch = auditArchNative t then
    options.mergeInto.bind SeccompProfile.crunMetadata
  else none

/-- Everything that is added up. -/
def tallies (t : Target) (captures : List CaptureFile) (options : GenerateOptions) : List Tally :=
  (addedCaptures captures).map CaptureFile.tally ++
    (foldedMetadata t captures options).toList.map CrunMetadata.folded

theorem mergeFromAdditions_eq (merged : MergedCapture) (captures : List CaptureFile) :
    mergeFromAdditions merged captures = merged.tally.runAdditions
      ((captures.takeWhile fun capture ↦ capture.auditArch = merged.auditArch).map
        CaptureFile.tally) := by
  induction captures generalizing merged with
  | nil => rfl
  | cons capture captures ih =>
    rw [mergeFromAdditions]
    by_cases harch : capture.auditArch = merged.auditArch
    · rw [if_neg (not_not.mpr harch), List.takeWhile_cons_of_pos (by simpa using harch), ih]
      rfl
    · rw [if_pos harch, List.takeWhile_cons_of_neg (by simpa using harch)]
      rfl

theorem mergeAdditions_eq (captures : List CaptureFile) :
    mergeAdditions captures = Tally.runAdditions {} ((addedCaptures captures).map CaptureFile.tally) := by
  cases captures with
  | nil => rfl
  | cons first rest =>
    rw [mergeAdditions, mergeFromAdditions_eq, addedCaptures]
    simp only [List.head?_cons, Option.map_some, Option.some.injEq]
    rfl

theorem metadataAdditions_eq (merged : MergedCapture) (metadata : CrunMetadata) :
    metadataAdditions merged metadata = merged.tally.additions metadata.folded := by
  have hempty : (∅ : Std.ExtTreeMap String UInt64).toList = [] := rfl
  simp [metadataAdditions, Tally.additions, CrunMetadata.folded, CrunMetadata.tally,
    MergedCapture.tally, hempty, countAdditions]

theorem tally_foldl_add (merged : MergedCapture) (captures : List CaptureFile) :
    (captures.foldl MergedCapture.add merged).tally =
      (captures.map CaptureFile.tally).foldl Tally.add merged.tally := by
  induction captures generalizing merged with
  | nil => rfl
  | cons capture captures ih => exact ih (merged.add capture)

/-- Captures that merge are all merged, and into their sums. -/
theorem tally_of_merge {captures : List CaptureFile} {merged : MergedCapture}
    (h : merge captures = .ok merged) : addedCaptures captures = captures ∧
      merged.tally = (captures.map CaptureFile.tally).foldl Tally.add {} := by
  obtain ⟨hne, harch, hmerged⟩ := merge_eq_ok_iff.mp h
  obtain ⟨first, rest, rfl⟩ := List.exists_cons_of_ne_nil hne
  refine ⟨?_, by rw [hmerged, tally_foldl_add]; rfl⟩
  refine List.takeWhile_eq_self_iff.mpr fun capture hcapture ↦ ?_
  simp [harch capture hcapture, harch first List.mem_cons_self]

theorem foldedMetadata_of_merge {t : Target} {captures : List CaptureFile}
    {options : GenerateOptions} {merged : MergedCapture} (h : merge captures = .ok merged) :
    foldedMetadata t captures options = if merged.auditArch = auditArchNative t then
      options.mergeInto.bind SeccompProfile.crunMetadata else none := by
  obtain ⟨hne, harch, -⟩ := merge_eq_ok_iff.mp h
  refine if_congr ⟨fun h ↦ ?_, fun h ↦ ⟨hne, fun capture hcapture ↦ ?_⟩⟩ rfl rfl
  · obtain ⟨first, rest, rfl⟩ := List.exists_cons_of_ne_nil hne
    rw [← harch first List.mem_cons_self, h.2 first List.mem_cons_self]
  · rw [harch capture hcapture, h]

/-- **The additions of a generation are those of its tallies.** -/
theorem generateAdditions_eq (t : Target) (captures : List CaptureFile) (options : GenerateOptions) :
    generateAdditions t captures options = Tally.runAdditions {} (tallies t captures options) := by
  rw [generateAdditions, mergeAdditions_eq, tallies, Tally.runAdditions_append]
  congr 1
  cases hmerge : merge captures with
  | error e =>
    have hnone : foldedMetadata t captures options = none := by
      refine if_neg ?_
      rintro ⟨hne, harch⟩
      obtain ⟨merged, hmerged, -⟩ := merge_spec hne harch
      rw [hmerge] at hmerged
      cases hmerged
    rw [hnone]
    rfl
  | ok merged =>
    obtain ⟨hadded, htally⟩ := tally_of_merge hmerge
    rw [foldedMetadata_of_merge hmerge, hadded, ← htally]
    simp only [ne_eq, ite_not]
    split_ifs
    · cases options.mergeInto.bind SeccompProfile.crunMetadata with
      | none => rfl
      | some metadata => simp [metadataAdditions_eq, Tally.runAdditions]
    · rfl

/-! ## What is recorded -/

/-- The names a profile allows are added with a count of zero. -/
theorem getD_foldl_zero (names : List String) (m : Std.ExtTreeMap String UInt64) (s : String) :
    (names.foldl (fun m name ↦ m.alter name fun o ↦ some (o.getD 0)) m)[s]?.getD (0 : UInt64) =
      m[s]?.getD 0 := by
  induction names generalizing m with
  | nil => rfl
  | cons name names ih =>
    rw [List.foldl_cons, ih, Std.ExtTreeMap.getElem?_alter]
    split_ifs with heq
    · rw [Std.LawfulEqCmp.compare_eq_iff_eq.mp heq]
      rfl
    · rfl

theorem getD_generateCounts (merged : MergedCapture) (mergeInto : Option SeccompProfile)
    (s : String) : (generateCounts merged mergeInto)[s]?.getD (0 : UInt64) =
      ((mergeInto.bind SeccompProfile.crunMetadata).elim merged.syscalls fun metadata ↦
        addCounts merged.syscalls metadata.syscallCounts)[s]?.getD 0 := by
  cases mergeInto with
  | none => rfl
  | some existing =>
    rw [generateCounts]
    refine (getD_foldl_zero _ _ _).trans ?_
    rw [Option.bind_some]
    cases existing.crunMetadata <;> rfl

/-- A generated profile records what was added up. -/
theorem value_generateMetadata {t : Target} {now : UInt64} {captures : List CaptureFile}
    {options : GenerateOptions} {merged : MergedCapture} (hmerge : merge captures = .ok merged)
    (harch : merged.auditArch = auditArchNative t) (key : Tally.Key) :
    (generateMetadata t now merged options).tally.value key =
      ((tallies t captures options).foldl Tally.add {}).value key := by
  obtain ⟨hadded, htally⟩ := tally_of_merge hmerge
  have hcounts := getD_generateCounts merged options.mergeInto
  rw [tallies, hadded, foldedMetadata_of_merge hmerge, if_pos harch, List.foldl_append, ← htally]
  cases hexisting : options.mergeInto.bind SeccompProfile.crunMetadata with
  | none =>
    rw [hexisting] at hcounts
    cases key with
    | count s => exact hcounts s
    | foreignArch => rfl
    | events | durationMs =>
      simp [generateMetadata, hexisting, CrunMetadata.tally, Tally.value, MergedCapture.tally]
  | some metadata =>
    rw [hexisting] at hcounts
    rw [Option.toList_some, List.map_singleton, List.foldl_cons, List.foldl_nil, Tally.value_add]
    cases key with
    | count s => exact (hcounts s).trans (Tally.getD_addCounts _ _ _)
    | foreignArch arch =>
      -- the metadata has calls of other architectures, and they are not folded in
      simp [generateMetadata, CrunMetadata.tally, CrunMetadata.folded, Tally.value,
        MergedCapture.tally]
    | events | durationMs =>
      simp [generateMetadata, hexisting, CrunMetadata.tally, CrunMetadata.folded, Tally.value,
        MergedCapture.tally]

/-- A failure for another reason than the captures there are. -/
def ReportsOverflow (result : Except SeccompError SeccompProfile) : Prop :=
  ∃ e, result = .error e ∧ e ≠ .noCaptures ∧ ∀ expected found, e ≠ .archMismatch expected found

/-- How often a call was counted in all. -/
def trueCount (t : Target) (l : List Tally) (n : Int) : Nat :=
  (name t n).elim 0 fun s ↦ Tally.total (.count s) l

/-- A profile that records the sums.  The order of the compiled chain is then that of the counts. -/
structure RecordsSums (t : Target) (l : List Tally) (profile : SeccompProfile) : Prop where
  recorded : ∀ metadata ∈ profile.crunMetadata, ∀ key,
    (metadata.tally.value key).toNat = Tally.total key l
  order : ∀ a b, FrequentFirst t profile a b ↔ trueCount t l b < trueCount t l a ∨
    trueCount t l a = trueCount t l b ∧ a < b

theorem generate_eq_ok {t : Target} {now : UInt64} {captures : List CaptureFile}
    {options : GenerateOptions} {profile : SeccompProfile}
    (h : generate t now captures options = .ok profile) : ∃ merged, merge captures = .ok merged ∧
      merged.auditArch = auditArchNative t ∧
      profile.crunMetadata = some (generateMetadata t now merged options) := by
  rw [generate] at h
  cases hmerge : merge captures with
  | error e => rw [hmerge] at h; cases h
  | ok merged =>
    rw [hmerge] at h
    simp only at h
    split_ifs at h with harch
    obtain rfl := Except.ok.inj h
    exact ⟨merged, rfl, not_not.mp harch, rfl⟩

/-- No sum is looked at, so none is reported. -/
theorem not_reportsOverflow (t : Target) (now : UInt64) (captures : List CaptureFile)
    (options : GenerateOptions) : ¬ ReportsOverflow (generate t now captures options) := by
  rintro ⟨e, herror, hcaptures, harch⟩
  have hmerge : ∀ merged captures, mergeFrom merged captures ≠ .error e := by
    intro merged captures
    induction captures generalizing merged with
    | nil => simp [mergeFrom]
    | cons capture rest ih =>
      rw [mergeFrom]
      split_ifs
      · exact fun h ↦ harch _ _ (Except.error.inj h).symm
      · exact ih _
  rw [generate] at herror
  split at herror
  · rename_i e' he
    obtain rfl := Except.error.inj herror
    cases captures with
    | nil => exact hcaptures (Except.error.inj he).symm
    | cons first rest => exact hmerge _ _ he
  · split_ifs at herror
    exact harch _ _ (Except.error.inj herror).symm

/-- **No addition overflows, and the profile records the sums, if and only if each of them is one of
64 bits.** -/
theorem generate_exact_iff (t : Target) (now : UInt64) (captures : List CaptureFile)
    (options : GenerateOptions) :
    (((∀ operands ∈ generateAdditions t captures options, Fits operands) ∨
        ReportsOverflow (generate t now captures options)) ∧
      ∀ profile, generate t now captures options = .ok profile →
        RecordsSums t (tallies t captures options) profile) ↔
    ∀ key, Tally.total key (tallies t captures options) < UInt64.size := by
  have hzero : ∀ key, (Tally.value {} key).toNat = 0 := by
    intro key
    cases key <;> simp [Tally.value]
  have hfits : (∀ operands ∈ generateAdditions t captures options, Fits operands) ↔
      ∀ key, Tally.total key (tallies t captures options) < UInt64.size := by
    simp only [generateAdditions_eq, Tally.forall_runAdditions_iff, hzero, Nat.zero_add]
  rw [or_iff_left (not_reportsOverflow t now captures options), hfits, and_iff_left_iff_imp]
  intro hsums profile hgenerate
  obtain ⟨merged, hmerge, harch, hmetadata⟩ := generate_eq_ok hgenerate
  have hrecorded : ∀ key, ((generateMetadata t now merged options).tally.value key).toNat =
      Tally.total key (tallies t captures options) := by
    intro key
    rw [value_generateMetadata hmerge harch, Tally.toNat_value_foldl (by
      rw [hzero, Nat.zero_add]; exact hsums key), hzero, Nat.zero_add]
  have hcount : ∀ n, (countOf t profile.counts n).toNat =
      trueCount t (tallies t captures options) n := by
    intro n
    rw [countOf, trueCount, SeccompProfile.counts, hmetadata]
    cases name t n with
    | none => rfl
    | some s => exact hrecorded (.count s)
  refine ⟨fun metadata hmem key ↦ ?_, fun a b ↦ ?_⟩
  · rw [hmetadata] at hmem
    obtain rfl := Option.some.inj hmem
    exact hrecorded key
  · rw [FrequentFirst, UInt64.lt_iff_toNat_lt, ← UInt64.toNat_inj, hcount, hcount]

/-- A capture on x86_64 with the counts of two calls. -/
def twoCalls (read write : UInt64) : CaptureFile where
  schemaVersion := captureSchemaVersion
  id := "web"
  command := []
  arch := nativeArchName .x86_64
  auditArch := auditArchNative .x86_64
  runtimeVersion := cargoPkgVersion
  startedAtUnix := 0
  durationMs := 0
  totalEvents := 0
  processesSeen := 1
  truncated := false
  syscalls := ((∅ : Std.ExtTreeMap String UInt64).insert "read" read).insert "write" write
  firstSeenMs := ∅
  foreignArch := ∅

theorem value_twoCalls (read write : UInt64) :
    (twoCalls read write).tally.value (.count "read") = read ∧
      (twoCalls read write).tally.value (.count "write") = write := by
  constructor
  · simp [CaptureFile.tally, Tally.value, twoCalls, Std.ExtTreeMap.getElem_insert]
  · simp [CaptureFile.tally, Tally.value, twoCalls]

/-- A call that is counted once more than there is room for comes out with a count of zero, behind
one that was counted once. -/
theorem count_wraps_to_zero :
    (∃ profile metadata, generate .x86_64 0 [twoCalls 18446744073709551615 1, twoCalls 1 0] {} =
        .ok profile ∧ profile.crunMetadata = some metadata ∧
        metadata.tally.value (.count "read") = 0 ∧ metadata.tally.value (.count "write") = 1) ∧
    ¬ ∀ t now captures options,
      (∀ operands ∈ generateAdditions t captures options, Fits operands) ∨
        ReportsOverflow (generate t now captures options) := by
  have htallies : tallies .x86_64 [twoCalls 18446744073709551615 1, twoCalls 1 0] {} =
      [(twoCalls 18446744073709551615 1).tally, (twoCalls 1 0).tally] := rfl
  have hmerge : merge [twoCalls 18446744073709551615 1, twoCalls 1 0] = .ok
      (([twoCalls 18446744073709551615 1, twoCalls 1 0] : List CaptureFile).foldl MergedCapture.add
        { auditArch := auditArchNative .x86_64 }) := rfl
  refine ⟨⟨_, _, rfl, rfl, ?_, ?_⟩, fun h ↦ ?_⟩
  · refine (value_generateMetadata hmerge rfl _).trans ?_
    rw [htallies]
    simp only [List.foldl_cons, List.foldl_nil, Tally.value_add, value_twoCalls]
    rfl
  · refine (value_generateMetadata hmerge rfl _).trans ?_
    rw [htallies]
    simp only [List.foldl_cons, List.foldl_nil, Tally.value_add, value_twoCalls]
    rfl
  · have hfits := (h .x86_64 0 [twoCalls 18446744073709551615 1, twoCalls 1 0] {}).resolve_right
      (not_reportsOverflow _ _ _ _)
    rw [generateAdditions_eq, Tally.forall_runAdditions_iff] at hfits
    have hread := hfits (.count "read")
    rw [htallies] at hread
    simp only [Tally.total, value_twoCalls] at hread
    revert hread
    decide

end CrunRs.Seccomp
