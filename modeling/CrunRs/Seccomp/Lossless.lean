import CrunRs.Seccomp.Collector
import CrunRs.Seccomp.Generate
import Mathlib.Algebra.BigOperators.Group.List.Lemmas
import Mathlib.Algebra.GroupWithZero.Nat
import Std.Data.String.ToInt

/-!
# A capture is written down without loss

`seccomp/capture.rs`: `Capture::record` and `Capture::record_foreign` in any order, and the file
`CaptureFile::from_capture` makes of what they leave.

* `Accounts` — what a capture holds after a sequence of calls: for every number how often it was
  recorded and when it was first, for every foreign architecture how often, and the number of calls.
  One more call keeps it (`Accounts.apply`), so every sequence has it (`captureOf_accounts`).
* `captureName_injective` — no two numbers are written under one key.  The names of the table are
  those of different numbers, no name of the table starts with `unknown_`, and the decimal form of a
  number determines it.
* `fromCapture_lossless` — the payoff: the file has an entry for every number and every foreign
  architecture, each with its own count, and the counts add up to the number of calls.

The counters are `u64`s.  That they add up is true modulo 2^64 for every sequence, and of the numbers
themselves for every sequence of fewer than 2^64 calls.
-/

set_option autoImplicit false

namespace CrunRs.Seccomp

open Ordered

/-! ## Sequences of calls -/

/-- `Capture::record_foreign`. -/
def Capture.recordForeign (c : Capture) (auditArch : UInt32) : Capture :=
  { c with
    foreignArchCounts := c.foreignArchCounts.alter auditArch fun o ↦ some (o.getD 0 + 1)
    events := c.events + 1 }

/-- A call of one of the two methods. -/
inductive CaptureCall
  | record (number : Int) (elapsedMs : UInt64)
  | recordForeign (auditArch : UInt32)
  deriving DecidableEq, Repr

def Capture.apply (c : Capture) : CaptureCall → Capture
  | .record number elapsedMs => c.record number elapsedMs
  | .recordForeign auditArch => c.recordForeign auditArch

/-- The capture a sequence of calls leaves of an empty one. -/
def captureOf (calls : List CaptureCall) : Capture := calls.foldl Capture.apply {}

/-- The numbers recorded, each with its time. -/
def recordings (calls : List CaptureCall) : List (Int × UInt64) :=
  calls.filterMap fun
    | .record number elapsedMs => some (number, elapsedMs)
    | .recordForeign _ => none

def recordedNumbers (calls : List CaptureCall) : List Int := (recordings calls).map Prod.fst

/-- The foreign architectures recorded. -/
def foreignArchs (calls : List CaptureCall) : List UInt32 :=
  calls.filterMap fun
    | .record .. => none
    | .recordForeign auditArch => some auditArch

theorem recordings_append (calls later : List CaptureCall) :
    recordings (calls ++ later) = recordings calls ++ recordings later :=
  List.filterMap_append

theorem recordedNumbers_append (calls later : List CaptureCall) :
    recordedNumbers (calls ++ later) = recordedNumbers calls ++ recordedNumbers later := by
  rw [recordedNumbers, recordings_append, List.map_append, ← recordedNumbers, ← recordedNumbers]

theorem foreignArchs_append (calls later : List CaptureCall) :
    foreignArchs (calls ++ later) = foreignArchs calls ++ foreignArchs later :=
  List.filterMap_append

/-- Every call is of one kind or the other. -/
theorem length_recordedNumbers_add (calls : List CaptureCall) :
    (recordedNumbers calls).length + (foreignArchs calls).length = calls.length := by
  induction calls with
  | nil => rfl
  | cons call calls ih =>
    have hrecorded := recordedNumbers_append [call] calls
    have hforeign := foreignArchs_append [call] calls
    rw [List.singleton_append] at hrecorded hforeign
    rw [hrecorded, hforeign, List.length_append, List.length_append, List.length_cons, ← ih]
    cases call with
    | record number elapsedMs =>
      have hone : (recordedNumbers [.record number elapsedMs]).length = 1 := rfl
      have hzero : (foreignArchs [.record number elapsedMs]).length = 0 := rfl
      omega
    | recordForeign auditArch =>
      have hzero : (recordedNumbers [.recordForeign auditArch]).length = 0 := rfl
      have hone : (foreignArchs [.recordForeign auditArch]).length = 1 := rfl
      omega

/-! ## What a capture holds -/

/-- What is known of a number: when it was first recorded, and how often. -/
def observed (recorded : List (Int × UInt64)) (n : Int) : Option SyscallObservation :=
  (recorded.lookup n).map fun elapsedMs ↦
    { count := UInt64.ofNat ((recorded.map Prod.fst).count n), firstSeenMs := elapsedMs }

theorem lookup_eq_none_iff {recorded : List (Int × UInt64)} {n : Int} :
    recorded.lookup n = none ↔ n ∉ recorded.map Prod.fst := by
  rw [List.lookup_eq_none_iff]
  simp only [bne_iff_ne, List.mem_map, not_exists, not_and, ne_comm]

theorem observed_isSome {recorded : List (Int × UInt64)} {n : Int} :
    (observed recorded n).isSome ↔ n ∈ recorded.map Prod.fst := by
  rw [observed, Option.isSome_map, Option.isSome_iff_ne_none, ne_eq, lookup_eq_none_iff, not_not]

/-- One more recording of a number: its first time stays, and its count grows by one. -/
theorem observed_append_self (recorded : List (Int × UInt64)) (n : Int) (elapsedMs : UInt64) :
    observed (recorded ++ [(n, elapsedMs)]) n =
      some { (observed recorded n).getD { count := 0, firstSeenMs := elapsedMs } with
        count := ((observed recorded n).getD { count := 0, firstSeenMs := elapsedMs }).count + 1 } := by
  rw [observed, List.lookup_append, List.map_append, List.count_append, List.map_singleton,
    List.count_singleton_self, UInt64.ofNat_add, observed]
  cases hlookup : recorded.lookup n with
  | none =>
    have hzero : (recorded.map Prod.fst).count n = 0 :=
      List.count_eq_zero.mpr (lookup_eq_none_iff.mp hlookup)
    rw [Option.none_or, List.lookup_cons_self, hzero]
    rfl
  | some first => rfl

theorem observed_append_of_ne (recorded : List (Int × UInt64)) {n m : Int} (h : n ≠ m)
    (elapsedMs : UInt64) : observed (recorded ++ [(n, elapsedMs)]) m = observed recorded m := by
  have hlookup : [(n, elapsedMs)].lookup m = none :=
    lookup_eq_none_iff.mpr (by simpa using h.symm)
  rw [observed, List.lookup_append, hlookup, Option.or_none, List.map_append, List.count_append,
    List.map_singleton, List.count_singleton, if_neg (by simpa using h), Nat.add_zero, ← observed]

/-- **What a capture holds**: every number recorded and every foreign architecture, counted, and the
number of calls. -/
structure Accounts (calls : List CaptureCall) (c : Capture) : Prop where
  counts : ∀ n, c.counts[n]? = observed (recordings calls) n
  foreign : ∀ auditArch,
    c.foreignArchCounts[auditArch]? = tally ((foreignArchs calls).count auditArch)
  events : c.events = UInt64.ofNat calls.length

theorem Accounts.record {calls : List CaptureCall} {c : Capture} (h : Accounts calls c)
    (number : Int) (elapsedMs : UInt64) :
    Accounts (calls ++ [.record number elapsedMs]) (c.record number elapsedMs) := by
  refine ⟨fun n ↦ ?_, fun auditArch ↦ ?_, ?_⟩
  · rw [Capture.record, Std.ExtTreeMap.getElem?_alter, recordings_append]
    by_cases hn : number = n
    · subst hn
      rw [if_pos (Std.LawfulEqCmp.compare_eq_iff_eq.mpr rfl), h.counts]
      exact (observed_append_self _ number elapsedMs).symm
    · rw [if_neg (mt Std.LawfulEqCmp.compare_eq_iff_eq.mp hn), h.counts]
      exact (observed_append_of_ne _ hn elapsedMs).symm
  · rw [foreignArchs_append, List.count_append]
    exact h.foreign auditArch
  · rw [List.length_append, List.length_singleton, UInt64.ofNat_add, ← h.events]
    rfl

theorem Accounts.recordForeign {calls : List CaptureCall} {c : Capture} (h : Accounts calls c)
    (auditArch : UInt32) :
    Accounts (calls ++ [.recordForeign auditArch]) (c.recordForeign auditArch) := by
  have hsingle : foreignArchs [.recordForeign auditArch] = [auditArch] := rfl
  refine ⟨fun n ↦ ?_, fun other ↦ ?_, ?_⟩
  · have hnone : recordings [.recordForeign auditArch] = [] := rfl
    rw [recordings_append, hnone, List.append_nil]
    exact h.counts n
  · rw [Capture.recordForeign, Std.ExtTreeMap.getElem?_alter, foreignArchs_append, hsingle,
      List.count_append]
    by_cases hother : auditArch = other
    · subst hother
      rw [if_pos (Std.LawfulEqCmp.compare_eq_iff_eq.mpr rfl), h.foreign,
        List.count_singleton_self, tally_succ]
    · rw [if_neg (mt Std.LawfulEqCmp.compare_eq_iff_eq.mp hother), h.foreign, List.count_singleton,
        if_neg (by simpa using hother), Nat.add_zero]
  · rw [List.length_append, List.length_singleton, UInt64.ofNat_add, ← h.events]
    rfl

theorem Accounts.apply {calls : List CaptureCall} {c : Capture} (h : Accounts calls c)
    (call : CaptureCall) : Accounts (calls ++ [call]) (c.apply call) := by
  cases call with
  | record number elapsedMs => exact h.record number elapsedMs
  | recordForeign auditArch => exact h.recordForeign auditArch

/-- **Every sequence of calls is accounted for.** -/
theorem captureOf_accounts (calls : List CaptureCall) : Accounts calls (captureOf calls) := by
  induction calls using List.reverseRecOn with
  | nil =>
    refine ⟨fun n ↦ ?_, fun auditArch ↦ ?_, rfl⟩
    · exact Std.ExtTreeMap.getElem?_empty
    · exact Std.ExtTreeMap.getElem?_empty
  | append_singleton calls call ih =>
    rw [captureOf, List.foldl_append, List.foldl_cons, List.foldl_nil, ← captureOf]
    exact ih.apply call

/-! ## The keys of the file -/

/-- **No two numbers are written under one key.** -/
theorem captureName_injective (t : Target) : Function.Injective (captureName t) := by
  intro n m h
  cases hn : number t (captureName t n) with
  | some k =>
    have hm : number t (captureName t m) = some k := by rw [← h, hn]
    exact (number_captureName hn).symm.trans (number_captureName hm)
  | none =>
    have hunknown : ∀ {i : Int}, number t (captureName t i) = none →
        captureName t i = "unknown_" ++ toString i := by
      intro i hi
      refine captureName_of_not_defines fun hdef ↦ ?_
      obtain ⟨s, hs⟩ := defines_iff.mp hdef
      rw [captureName_of_number hs, hs] at hi
      cases hi
    have hm : number t (captureName t m) = none := by rw [← h, hn]
    rw [hunknown hn, hunknown hm] at h
    exact Int.repr_injective ((String.append_right_inj _).mp h)

theorem foreignKey_injective :
    Function.Injective fun auditArch : UInt32 ↦ "0x" ++ Text.hex8 auditArch :=
  fun _ _ h ↦ Text.hex8_injective ((String.append_right_inj _).mp h)

/-! ## The file -/

namespace Accounts

variable {calls : List CaptureCall} {c : Capture}

theorem mem_counts (h : Accounts calls c) (n : Int) :
    n ∈ c.counts ↔ n ∈ (recordedNumbers calls).dedup := by
  rw [Std.ExtTreeMap.mem_iff_isSome_getElem?, h.counts, observed_isSome, List.mem_dedup,
    recordedNumbers]

theorem mem_foreign (h : Accounts calls c) (auditArch : UInt32) :
    auditArch ∈ c.foreignArchCounts ↔ auditArch ∈ (foreignArchs calls).dedup := by
  rw [Std.ExtTreeMap.mem_iff_isSome_getElem?, h.foreign, List.mem_dedup, tally,
    ← List.count_pos_iff]
  split
  · rename_i hzero
    simp [hzero]
  · rename_i hne
    simp [Nat.pos_of_ne_zero hne]

/-- The entry of a number that was recorded. -/
theorem counts_of_mem (h : Accounts calls c) {n : Int} (hn : n ∈ recordedNumbers calls) :
    ∃ elapsedMs, (recordings calls).lookup n = some elapsedMs ∧
      c.counts[n]? = some ⟨UInt64.ofNat ((recordedNumbers calls).count n), elapsedMs⟩ := by
  cases hlookup : (recordings calls).lookup n with
  | none => exact absurd hn (lookup_eq_none_iff.mp hlookup)
  | some elapsedMs =>
    refine ⟨elapsedMs, rfl, ?_⟩
    rw [h.counts, observed, hlookup]
    rfl

theorem foreign_of_mem (h : Accounts calls c) {auditArch : UInt32}
    (harch : auditArch ∈ foreignArchs calls) : c.foreignArchCounts[auditArch]? =
      some (UInt64.ofNat ((foreignArchs calls).count auditArch)) := by
  rw [h.foreign, tally, if_neg (Nat.pos_iff_ne_zero.mp (List.count_pos_iff.mpr harch))]

/-- The entries of a capture, up to their order. -/
theorem counts_perm (h : Accounts calls c) :
    c.counts.toList.Perm ((recordedNumbers calls).dedup.map fun n ↦
      (n, ⟨UInt64.ofNat ((recordedNumbers calls).count n),
        ((recordings calls).lookup n).getD 0⟩)) := by
  refine toList_perm_map (List.nodup_dedup _) h.mem_counts fun n hn ↦ ?_
  obtain ⟨elapsedMs, hlookup, hget⟩ := h.counts_of_mem (List.mem_dedup.mp hn)
  rw [hget, hlookup, Option.getD_some]

theorem foreign_perm (h : Accounts calls c) :
    c.foreignArchCounts.toList.Perm ((foreignArchs calls).dedup.map fun auditArch ↦
      (auditArch, UInt64.ofNat ((foreignArchs calls).count auditArch))) :=
  toList_perm_map (List.nodup_dedup _) h.mem_foreign fun _ harch ↦
    h.foreign_of_mem (List.mem_dedup.mp harch)

end Accounts

variable {t : Target} {id : String} {command : List String} {c : Capture}

/-- The entries of the file's map of calls are those of the capture, renamed. -/
theorem fromCapture_syscalls_perm :
    (CaptureFile.fromCapture t id command c).syscalls.toList.Perm
      (c.counts.toList.map fun entry ↦ (captureName t entry.1, entry.2.count)) :=
  toList_foldl_insert_perm (pairwise_toList_of_injective (captureName_injective t))

theorem fromCapture_foreignArch_perm :
    (CaptureFile.fromCapture t id command c).foreignArch.toList.Perm
      (c.foreignArchCounts.toList.map fun entry ↦ ("0x" ++ Text.hex8 entry.1, entry.2)) :=
  toList_foldl_insert_perm (pairwise_toList_of_injective foreignKey_injective)

theorem fromCapture_syscalls {n : Int} {observation : SyscallObservation}
    (h : c.counts[n]? = some observation) :
    (CaptureFile.fromCapture t id command c).syscalls[captureName t n]? =
        some observation.count ∧
      (CaptureFile.fromCapture t id command c).firstSeenMs[captureName t n]? =
        some observation.firstSeenMs := by
  have hmem : (n, observation) ∈ c.counts.toList :=
    Std.ExtTreeMap.mem_toList_iff_getElem?_eq_some.mpr h
  have hdistinct : c.counts.toList.Pairwise fun x y ↦ captureName t x.1 ≠ captureName t y.1 :=
    pairwise_toList_of_injective (captureName_injective t)
  constructor
  · exact (getElem?_foldl_insert_of_mem hdistinct hmem : (c.counts.toList.foldl
      (fun m entry ↦ m.insert (captureName t entry.1) entry.2.count)
      (∅ : Std.ExtTreeMap String UInt64))[captureName t (n, observation).1]? = _)
  · exact (getElem?_foldl_insert_of_mem hdistinct hmem : (c.counts.toList.foldl
      (fun m entry ↦ m.insert (captureName t entry.1) entry.2.firstSeenMs)
      (∅ : Std.ExtTreeMap String UInt64))[captureName t (n, observation).1]? = _)

theorem fromCapture_foreignArch {auditArch : UInt32} {count : UInt64}
    (h : c.foreignArchCounts[auditArch]? = some count) :
    (CaptureFile.fromCapture t id command c).foreignArch["0x" ++ Text.hex8 auditArch]? =
      some count := by
  have hmem : (auditArch, count) ∈ c.foreignArchCounts.toList :=
    Std.ExtTreeMap.mem_toList_iff_getElem?_eq_some.mpr h
  have hdistinct : c.foreignArchCounts.toList.Pairwise fun x y ↦
      "0x" ++ Text.hex8 x.1 ≠ "0x" ++ Text.hex8 y.1 :=
    pairwise_toList_of_injective foreignKey_injective
  exact (getElem?_foldl_insert_of_mem hdistinct hmem : (c.foreignArchCounts.toList.foldl
    (fun m entry ↦ m.insert ("0x" ++ Text.hex8 entry.1) entry.2)
    (∅ : Std.ExtTreeMap String UInt64))["0x" ++ Text.hex8 (auditArch, count).1]? = _)

/-! ## Nothing is lost -/

/-- A file that says all of what was recorded: a key for every number and every foreign architecture
with its own count, the time of a number's first call, and a total to which the counts add up. -/
structure Lossless (t : Target) (calls : List CaptureCall) (file : CaptureFile) : Prop where
  syscallKeys : file.syscalls.size = (recordedNumbers calls).dedup.length
  syscall : ∀ n ∈ recordedNumbers calls, file.syscalls[captureName t n]? =
    some (UInt64.ofNat ((recordedNumbers calls).count n))
  firstSeen : ∀ n ∈ recordedNumbers calls,
    file.firstSeenMs[captureName t n]? = (recordings calls).lookup n
  foreignKeys : file.foreignArch.size = (foreignArchs calls).dedup.length
  foreign : ∀ auditArch ∈ foreignArchs calls, file.foreignArch["0x" ++ Text.hex8 auditArch]? =
    some (UInt64.ofNat ((foreignArchs calls).count auditArch))
  total : file.totalEvents =
    UInt64.ofNat ((file.syscalls.toList.map fun entry ↦ entry.2.toNat).sum +
      (file.foreignArch.toList.map fun entry ↦ entry.2.toNat).sum)
  /-- The counts add up as numbers, as long as no counter can have wrapped. -/
  exact : calls.length < 2 ^ 64 → file.totalEvents.toNat =
    (file.syscalls.toList.map fun entry ↦ entry.2.toNat).sum +
      (file.foreignArch.toList.map fun entry ↦ entry.2.toNat).sum

/-- How often each element of a list occurs, added up modulo 2^64. -/
theorem sum_count_mod {α : Type} [DecidableEq α] (l : List α) :
    (l.dedup.map fun x ↦ (UInt64.ofNat (l.count x)).toNat).sum % 2 ^ 64 = l.length % 2 ^ 64 := by
  have hcount : (l.dedup.map fun x ↦ l.count x).sum = l.length :=
    List.sum_map_count_dedup_eq_length l
  rw [← hcount]
  generalize l.dedup = distinct
  induction distinct with
  | nil => rfl
  | cons x distinct ih =>
    rw [List.map_cons, List.sum_cons, Nat.add_mod, ih, UInt64.toNat_ofNat', Nat.mod_mod,
      ← Nat.add_mod, List.map_cons, List.sum_cons]

theorem sum_count {α : Type} [DecidableEq α] {l : List α} (h : l.length < 2 ^ 64) :
    (l.dedup.map fun x ↦ (UInt64.ofNat (l.count x)).toNat).sum = l.length := by
  have hexact : ∀ x, (UInt64.ofNat (l.count x)).toNat = l.count x := fun x ↦
    UInt64.toNat_ofNat_of_lt' (lt_of_le_of_lt List.count_le_length h)
  simp only [hexact]
  exact List.sum_map_count_dedup_eq_length l

section

variable {calls : List CaptureCall}

/-- The counts of a capture, added up. -/
theorem Accounts.sum_counts (h : Accounts calls c) :
    (c.counts.toList.map fun entry ↦ entry.2.count.toNat).sum =
      ((recordedNumbers calls).dedup.map fun n ↦
        (UInt64.ofNat ((recordedNumbers calls).count n)).toNat).sum := by
  rw [(h.counts_perm.map _).sum_eq, List.map_map]
  rfl

theorem Accounts.sum_syscalls (h : Accounts calls c) :
    ((CaptureFile.fromCapture t id command c).syscalls.toList.map fun entry ↦ entry.2.toNat).sum =
      ((recordedNumbers calls).dedup.map fun n ↦
        (UInt64.ofNat ((recordedNumbers calls).count n)).toNat).sum := by
  rw [((@fromCapture_syscalls_perm t id command c).map _).sum_eq, List.map_map, ← h.sum_counts]
  rfl

theorem Accounts.sum_foreignArch (h : Accounts calls c) :
    ((CaptureFile.fromCapture t id command c).foreignArch.toList.map fun entry ↦
        entry.2.toNat).sum =
      ((foreignArchs calls).dedup.map fun auditArch ↦
        (UInt64.ofNat ((foreignArchs calls).count auditArch)).toNat).sum := by
  have hperm := (@fromCapture_foreignArch_perm t id command c).trans (h.foreign_perm.map _)
  rw [(hperm.map _).sum_eq, List.map_map, List.map_map]
  rfl

end

/-- **A capture file is lossless**, whatever was recorded and in whatever order. -/
theorem fromCapture_lossless (t : Target) (id : String) (command : List String)
    (calls : List CaptureCall) :
    Lossless t calls (CaptureFile.fromCapture t id command (captureOf calls)) := by
  have haccounts := captureOf_accounts calls
  have hlength := length_recordedNumbers_add calls
  have htotal : (CaptureFile.fromCapture t id command (captureOf calls)).totalEvents =
      UInt64.ofNat calls.length := haccounts.events
  refine ⟨?_, fun n hn ↦ ?_, fun n hn ↦ ?_, ?_, fun auditArch harch ↦ ?_, ?_, fun hfew ↦ ?_⟩
  · rw [← Std.ExtTreeMap.length_toList, fromCapture_syscalls_perm.length_eq, List.length_map,
      haccounts.counts_perm.length_eq, List.length_map]
  · obtain ⟨elapsedMs, _, hget⟩ := haccounts.counts_of_mem hn
    exact (fromCapture_syscalls hget).1
  · obtain ⟨elapsedMs, hlookup, hget⟩ := haccounts.counts_of_mem hn
    rw [(fromCapture_syscalls hget).2, hlookup]
  · rw [← Std.ExtTreeMap.length_toList, fromCapture_foreignArch_perm.length_eq, List.length_map,
      haccounts.foreign_perm.length_eq, List.length_map]
  · exact fromCapture_foreignArch (haccounts.foreign_of_mem harch)
  · rw [htotal, haccounts.sum_syscalls, haccounts.sum_foreignArch, ← UInt64.toNat_inj,
      UInt64.toNat_ofNat', UInt64.toNat_ofNat', Nat.add_mod, sum_count_mod, sum_count_mod,
      ← Nat.add_mod, hlength]
  · rw [htotal, haccounts.sum_syscalls, haccounts.sum_foreignArch, sum_count (by omega),
      sum_count (by omega), hlength, UInt64.toNat_ofNat_of_lt' hfew]

end CrunRs.Seccomp
