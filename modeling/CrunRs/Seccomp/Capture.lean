import CrunRs.Lib.Text
import CrunRs.Seccomp.Syscalls

/-!
# Captures

`seccomp/capture.rs`: what the tracer accumulates (`Capture`), how it is written down
(`CaptureFile`), and how several files are merged.

Counts and durations are `u64`s and are added modulo 2^64, as a release build does.  Nothing here
depends on their values: what a profile allows is decided by the *keys* of the maps, so the lemmas
are about keys.  A recorded number becomes the key `captureName` — its table name, or `unknown_<nr>`
— and merging takes the union of the keys.
-/

set_option autoImplicit false

namespace CrunRs.Seccomp

open Ordered

/-! ## Recording -/

structure SyscallObservation where
  count : UInt64 := 0
  firstSeenMs : UInt64 := 0
  deriving DecidableEq

/-- What the tracer accumulates while a container runs. -/
structure Capture where
  auditArch : UInt32 := 0
  /-- Syscall number to how often it was seen and when it first appeared. -/
  counts : Std.ExtTreeMap Int SyscallObservation := ∅
  /-- Calls trapped from a non-native architecture, by audit arch value. -/
  foreignArchCounts : Std.ExtTreeMap UInt32 UInt64 := ∅
  processesSeen : UInt64 := 0
  startedAtUnix : UInt64 := 0
  durationMs : UInt64 := 0
  events : UInt64 := 0
  truncated : Bool := false

namespace Capture

/-- `Capture::record`. -/
def record (c : Capture) (number : Int) (elapsedMs : UInt64) : Capture :=
  { c with
    counts := c.counts.alter number fun o ↦
      let entry := o.getD { count := 0, firstSeenMs := elapsedMs }
      some { entry with count := entry.count + 1 }
    events := c.events + 1 }

/-- The capture after a sequence of recorded calls, each with the time it was seen at. -/
def recordAll (c : Capture) (calls : List (Int × UInt64)) : Capture :=
  calls.foldl (fun c call ↦ c.record call.1 call.2) c

@[simp] theorem recordAll_auditArch (c : Capture) (calls : List (Int × UInt64)) :
    (c.recordAll calls).auditArch = c.auditArch := by
  induction calls generalizing c with
  | nil => rfl
  | cons call calls ih => exact ih (c.record call.1 call.2)

theorem recordAll_counts (c : Capture) (calls : List (Int × UInt64)) :
    (c.recordAll calls).counts = calls.foldl (fun m call ↦ m.alter call.1 fun o ↦
      some { o.getD { count := 0, firstSeenMs := call.2 } with
        count := (o.getD { count := 0, firstSeenMs := call.2 }).count + 1 }) c.counts := by
  induction calls generalizing c with
  | nil => rfl
  | cons call calls ih => exact ih (c.record call.1 call.2)

/-- The numbers in a capture are the recorded ones. -/
theorem mem_recordAll_counts {c : Capture} {calls : List (Int × UInt64)} {n : Int} :
    n ∈ (c.recordAll calls).counts ↔ n ∈ c.counts ∨ ∃ call ∈ calls, call.1 = n := by
  rw [recordAll_counts]
  exact mem_foldl_alter

end Capture

/-! ## Writing a capture down -/

/-- `CAPTURE_SCHEMA_VERSION`. -/
def captureSchemaVersion : UInt32 := 1

/-- `CARGO_PKG_VERSION`. -/
def cargoPkgVersion : String := "0.1.0"

/-- The capture as written to `/run/crun-rs/<id>/syscalls.json`. -/
structure CaptureFile where
  schemaVersion : UInt32
  id : String
  command : List String
  arch : String
  auditArch : UInt32
  runtimeVersion : String
  startedAtUnix : UInt64
  durationMs : UInt64
  totalEvents : UInt64
  processesSeen : UInt64
  truncated : Bool
  /-- Syscall name (or `unknown_<nr>`) to call count. -/
  syscalls : Std.ExtTreeMap String UInt64
  /-- Milliseconds after capture start when each syscall was first seen. -/
  firstSeenMs : Std.ExtTreeMap String UInt64
  foreignArch : Std.ExtTreeMap String UInt64

/-- The key a number is written under: its name, or `unknown_<nr>`. -/
def captureName (t : Target) (number : Int) : String :=
  (name t number).getD ("unknown_" ++ toString number)

/-- `CaptureFile::from_capture`. -/
def CaptureFile.fromCapture (t : Target) (id : String) (command : List String) (capture : Capture) :
    CaptureFile where
  schemaVersion := captureSchemaVersion
  id := id
  command := command
  arch := nativeArchName t
  auditArch := if capture.auditArch = 0 then auditArchNative t else capture.auditArch
  runtimeVersion := cargoPkgVersion
  startedAtUnix := capture.startedAtUnix
  durationMs := capture.durationMs
  totalEvents := capture.events
  processesSeen := capture.processesSeen
  truncated := capture.truncated
  syscalls := capture.counts.toList.foldl
    (fun m entry ↦ m.insert (captureName t entry.1) entry.2.count) ∅
  firstSeenMs := capture.counts.toList.foldl
    (fun m entry ↦ m.insert (captureName t entry.1) entry.2.firstSeenMs) ∅
  foreignArch := capture.foreignArchCounts.toList.foldl
    (fun m entry ↦ m.insert ("0x" ++ Text.hex8 entry.1) entry.2) ∅

theorem mem_fromCapture_syscalls {t : Target} {id : String} {command : List String}
    {capture : Capture} {s : String} :
    s ∈ (CaptureFile.fromCapture t id command capture).syscalls ↔
      ∃ n ∈ capture.counts, captureName t n = s := by
  rw [CaptureFile.fromCapture, mem_foldl_insert]
  simp only [Std.ExtTreeMap.not_mem_empty, false_or]
  constructor
  · rintro ⟨entry, he, rfl⟩
    exact ⟨entry.1, exists_mem_toList_iff.mp ⟨entry, he, rfl⟩, rfl⟩
  · rintro ⟨n, hn, rfl⟩
    obtain ⟨entry, he, rfl⟩ := exists_mem_toList_iff.mpr hn
    exact ⟨entry, he, rfl⟩

/-! ## Merging -/

/-- Union of several captures of the same architecture. -/
structure MergedCapture where
  auditArch : UInt32 := 0
  syscalls : Std.ExtTreeMap String UInt64 := ∅
  firstSeenMs : Std.ExtTreeMap String UInt64 := ∅
  foreignArch : Std.ExtTreeMap String UInt64 := ∅
  totalEvents : UInt64 := 0
  totalDurationMs : UInt64 := 0
  sources : List CaptureFile := []

/-- `*map.entry(key).or_insert(0) += count` for every entry of `counts`. -/
def addCounts (m counts : Std.ExtTreeMap String UInt64) : Std.ExtTreeMap String UInt64 :=
  counts.toList.foldl (fun m entry ↦ m.alter entry.1 fun o ↦ some (o.getD 0 + entry.2)) m

theorem mem_addCounts {m counts : Std.ExtTreeMap String UInt64} {s : String} :
    s ∈ addCounts m counts ↔ s ∈ m ∨ s ∈ counts := by
  rw [addCounts, mem_foldl_alter, exists_mem_toList_iff]

/-- Counts are added key by key. -/
theorem getElem?_addCounts (m counts : Std.ExtTreeMap String UInt64) (s : String) :
    (addCounts m counts)[s]? = Option.merge (· + ·) m[s]? counts[s]? :=
  getElem?_foldl_alter_toList (g := fun v o ↦ o.getD 0 + v) (fun _ ↦ UInt64.zero_add _)
    (fun _ _ ↦ rfl) m counts s

/-- One round of the merge loop. -/
def MergedCapture.add (merged : MergedCapture) (capture : CaptureFile) : MergedCapture where
  auditArch := merged.auditArch
  syscalls := addCounts merged.syscalls capture.syscalls
  firstSeenMs := capture.firstSeenMs.toList.foldl
    (fun m entry ↦ m.alter entry.1 fun o ↦ some (match o with
      | some value => min value entry.2
      | none => entry.2)) merged.firstSeenMs
  foreignArch := addCounts merged.foreignArch capture.foreignArch
  totalEvents := merged.totalEvents + capture.totalEvents
  totalDurationMs := merged.totalDurationMs + capture.durationMs
  sources := merged.sources ++ [capture]

/-- The merge loop: it stops at the first capture of another architecture. -/
def mergeFrom : MergedCapture → List CaptureFile → Except SeccompError MergedCapture
  | merged, [] => .ok merged
  | merged, capture :: rest =>
    if capture.auditArch ≠ merged.auditArch then
      .error (.archMismatch merged.auditArch capture.auditArch)
    else mergeFrom (merged.add capture) rest

/-- `merge`. -/
def merge (captures : List CaptureFile) : Except SeccompError MergedCapture :=
  match captures with
  | [] => .error .noCaptures
  | first :: _ => mergeFrom { auditArch := first.auditArch } captures

theorem getElem?_add_firstSeenMs (merged : MergedCapture) (capture : CaptureFile) (s : String) :
    (merged.add capture).firstSeenMs[s]? =
      Option.merge min merged.firstSeenMs[s]? capture.firstSeenMs[s]? := by
  let g : UInt64 → Option UInt64 → UInt64 := fun v o ↦ match o with
    | some value => min value v
    | none => v
  exact getElem?_foldl_alter_toList (g := g) (fun _ ↦ rfl) (fun _ _ ↦ rfl) merged.firstSeenMs
    capture.firstSeenMs s

theorem mergeFrom_of_auditArch {merged : MergedCapture} {captures : List CaptureFile}
    (h : ∀ capture ∈ captures, capture.auditArch = merged.auditArch) :
    mergeFrom merged captures = .ok (captures.foldl MergedCapture.add merged) := by
  induction captures generalizing merged with
  | nil => rfl
  | cons capture rest ih =>
    rw [mergeFrom, if_neg (not_not.mpr (h capture (by simp))), List.foldl_cons]
    exact ih fun c hc ↦ h c (List.mem_cons_of_mem _ hc)

/-- Captures merge exactly if they are of one architecture, which is then that of the result. -/
theorem mergeFrom_eq_ok {merged result : MergedCapture} {captures : List CaptureFile}
    (h : mergeFrom merged captures = .ok result) :
    ∀ capture ∈ captures, capture.auditArch = merged.auditArch := by
  induction captures generalizing merged with
  | nil => simp
  | cons capture rest ih =>
    rw [mergeFrom] at h
    split at h
    · simp at h
    · rename_i harch
      intro c hc
      rcases List.mem_cons.mp hc with rfl | hc
      · exact not_not.mp harch
      · exact ih h c hc

theorem foldl_add_auditArch (merged : MergedCapture) (captures : List CaptureFile) :
    (captures.foldl MergedCapture.add merged).auditArch = merged.auditArch := by
  induction captures generalizing merged with
  | nil => rfl
  | cons capture rest ih => exact ih (merged.add capture)

theorem mem_foldl_add_syscalls {merged : MergedCapture} {captures : List CaptureFile}
    {s : String} : s ∈ (captures.foldl MergedCapture.add merged).syscalls ↔
      s ∈ merged.syscalls ∨ ∃ capture ∈ captures, s ∈ capture.syscalls := by
  induction captures generalizing merged with
  | nil => simp
  | cons capture rest ih =>
    rw [List.foldl_cons, ih, MergedCapture.add, mem_addCounts]
    simp only [List.mem_cons, exists_eq_or_imp, or_assoc]

/-- **Captures of one architecture merge, and their names are united.** -/
theorem merge_spec {captures : List CaptureFile} {arch : UInt32} (hne : captures ≠ [])
    (harch : ∀ capture ∈ captures, capture.auditArch = arch) :
    ∃ merged, merge captures = .ok merged ∧ merged.auditArch = arch ∧
      ∀ s, s ∈ merged.syscalls ↔ ∃ capture ∈ captures, s ∈ capture.syscalls := by
  cases captures with
  | nil => exact absurd rfl hne
  | cons first rest =>
    have hfirst : first.auditArch = arch := harch first (by simp)
    refine ⟨_, mergeFrom_of_auditArch fun c hc ↦ (harch c hc).trans hfirst.symm, ?_, fun s ↦ ?_⟩
    · rw [foldl_add_auditArch]
      exact hfirst
    · rw [mem_foldl_add_syscalls]
      simp

/-- **When captures merge**, and into what. -/
theorem merge_eq_ok_iff {captures : List CaptureFile} {merged : MergedCapture} :
    merge captures = .ok merged ↔
      captures ≠ [] ∧ (∀ capture ∈ captures, capture.auditArch = merged.auditArch) ∧
        merged = captures.foldl MergedCapture.add { auditArch := merged.auditArch } := by
  cases captures with
  | nil => simp [merge]
  | cons first rest =>
    rw [merge]
    constructor
    · intro h
      have harch := mergeFrom_eq_ok h
      rw [mergeFrom_of_auditArch harch] at h
      obtain rfl := Except.ok.inj h
      rw [foldl_add_auditArch]
      exact ⟨List.cons_ne_nil _ _, harch, rfl⟩
    · rintro ⟨_, harch, hmerged⟩
      have hfirst := harch first List.mem_cons_self
      rw [mergeFrom_of_auditArch fun c hc ↦ (harch c hc).trans hfirst.symm, hfirst, ← hmerged]

/-! ## The order of the captures -/

/-- Everything about merged captures except where they come from. -/
structure MergedCapture.SameContent (a b : MergedCapture) : Prop where
  auditArch : a.auditArch = b.auditArch
  syscalls : a.syscalls = b.syscalls
  firstSeenMs : a.firstSeenMs = b.firstSeenMs
  foreignArch : a.foreignArch = b.foreignArch
  totalEvents : a.totalEvents = b.totalEvents
  totalDurationMs : a.totalDurationMs = b.totalDurationMs

namespace MergedCapture

theorem SameContent.refl (a : MergedCapture) : a.SameContent a := ⟨rfl, rfl, rfl, rfl, rfl, rfl⟩

theorem SameContent.trans {a b c : MergedCapture} (hab : a.SameContent b) (hbc : b.SameContent c) :
    a.SameContent c where
  auditArch := hab.auditArch.trans hbc.auditArch
  syscalls := hab.syscalls.trans hbc.syscalls
  firstSeenMs := hab.firstSeenMs.trans hbc.firstSeenMs
  foreignArch := hab.foreignArch.trans hbc.foreignArch
  totalEvents := hab.totalEvents.trans hbc.totalEvents
  totalDurationMs := hab.totalDurationMs.trans hbc.totalDurationMs

theorem SameContent.add {a b : MergedCapture} (h : a.SameContent b) (capture : CaptureFile) :
    (a.add capture).SameContent (b.add capture) where
  auditArch := h.auditArch
  syscalls := congrArg (addCounts · _) h.syscalls
  firstSeenMs := Std.ExtTreeMap.ext_getElem? fun s ↦ by
    rw [getElem?_add_firstSeenMs, getElem?_add_firstSeenMs, h.firstSeenMs]
  foreignArch := congrArg (addCounts · _) h.foreignArch
  totalEvents := congrArg (· + _) h.totalEvents
  totalDurationMs := congrArg (· + _) h.totalDurationMs

theorem addCounts_right_comm (m a b : Std.ExtTreeMap String UInt64) :
    addCounts (addCounts m a) b = addCounts (addCounts m b) a := by
  refine Std.ExtTreeMap.ext_getElem? fun s ↦ ?_
  rw [getElem?_addCounts, getElem?_addCounts, getElem?_addCounts, getElem?_addCounts]
  exact RightCommutative.right_comm ..

/-- Sums and minima do not depend on the order. -/
theorem sameContent_swap (a : MergedCapture) (x y : CaptureFile) :
    ((a.add x).add y).SameContent ((a.add y).add x) where
  auditArch := rfl
  syscalls := addCounts_right_comm ..
  firstSeenMs := Std.ExtTreeMap.ext_getElem? fun s ↦ by
    rw [getElem?_add_firstSeenMs, getElem?_add_firstSeenMs, getElem?_add_firstSeenMs,
      getElem?_add_firstSeenMs]
    exact RightCommutative.right_comm ..
  foreignArch := addCounts_right_comm ..
  totalEvents := by
    show a.totalEvents + x.totalEvents + y.totalEvents = a.totalEvents + y.totalEvents + x.totalEvents
    rw [UInt64.add_assoc, UInt64.add_comm x.totalEvents, ← UInt64.add_assoc]
  totalDurationMs := by
    show a.totalDurationMs + x.durationMs + y.durationMs =
      a.totalDurationMs + y.durationMs + x.durationMs
    rw [UInt64.add_assoc, UInt64.add_comm x.durationMs, ← UInt64.add_assoc]

theorem SameContent.foldl_add {a b : MergedCapture} (h : a.SameContent b)
    (captures : List CaptureFile) :
    (captures.foldl MergedCapture.add a).SameContent (captures.foldl MergedCapture.add b) := by
  induction captures generalizing a b with
  | nil => exact h
  | cons capture rest ih => exact ih (h.add capture)

theorem sameContent_of_perm {captures captures' : List CaptureFile} (h : captures.Perm captures')
    (a : MergedCapture) :
    (captures.foldl MergedCapture.add a).SameContent (captures'.foldl MergedCapture.add a) := by
  induction h generalizing a with
  | nil => exact .refl a
  | cons capture _ ih => exact ih (a.add capture)
  | swap x y rest => exact (sameContent_swap a y x).foldl_add rest
  | trans _ _ ih ih' => exact (ih a).trans (ih' a)

end MergedCapture

/-- **Permuted captures merge as well, and to the same content.** -/
theorem merge_perm {captures captures' : List CaptureFile} (h : captures.Perm captures')
    {merged : MergedCapture} (hmerge : merge captures = .ok merged) :
    ∃ merged', merge captures' = .ok merged' ∧ merged.SameContent merged' := by
  obtain ⟨hne, harch, hmerged⟩ := merge_eq_ok_iff.mp hmerge
  have hsame := MergedCapture.sameContent_of_perm h { auditArch := merged.auditArch }
  rw [← hmerged] at hsame
  refine ⟨_, merge_eq_ok_iff.mpr ⟨fun hnil ↦ hne (h.trans (.of_eq hnil)).eq_nil, ?_, ?_⟩, hsame⟩
  · intro capture hcapture
    rw [← hsame.auditArch]
    exact harch capture (h.mem_iff.mpr hcapture)
  · rw [← hsame.auditArch]

end CrunRs.Seccomp
