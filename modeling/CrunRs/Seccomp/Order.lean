import CrunRs.Seccomp.Meaning

/-!
# The order of the comparisons

`seccomp/compile.rs`: `SyscallOrder`.  The names of a profile go through a set and come out of
`resolve_all` as ascending numbers, so `order_syscalls` has nothing left to do for `ByNumber`, and
sorts by the observed counts for `ByFrequency`.  It leaves the numbers as they are for `AsListed` too,
and the order of the profile is gone by then: `compile_meansOrder_iff` says when that makes no
difference.
-/

set_option autoImplicit false

namespace CrunRs.Seccomp

open Ordered

/-! ## What the orders say -/

/-- The observed counts of a profile. -/
def SeccompProfile.counts (profile : SeccompProfile) : Std.ExtTreeMap String UInt64 :=
  (profile.crunMetadata.map CrunMetadata.syscallCounts).getD ∅

/-- The names of the allow rules, as the profile lists them. -/
def SeccompProfile.listedNames (profile : SeccompProfile) : List String :=
  ((profile.seccomp.syscalls.getD []).filter fun rule ↦ rule.action = .allow).flatMap
    LinuxSyscall.names

/-- Their numbers, each where its name is listed first. -/
def listedNumbers (t : Target) (profile : SeccompProfile) : List Int :=
  (profile.listedNames.filterMap (number t)).eraseDups

/-- More frequent calls come first, and of equally frequent ones the lower number. -/
def FrequentFirst (t : Target) (profile : SeccompProfile) (a b : Int) : Prop :=
  countOf t profile.counts b < countOf t profile.counts a ∨
    countOf t profile.counts a = countOf t profile.counts b ∧ a < b

/-- What the order of a compiled profile means: the numbers of the allowed names, each once, in the
order that was asked for, of which the decisions do not depend. -/
structure MeansOrder (t : Target) (profile : SeccompProfile) (options : CompileOptions)
    (compiled : CompiledProfile) : Prop where
  nodup : compiled.allowed.Nodup
  mem : ∀ n, n ∈ compiled.allowed ↔ ∃ s ∈ profile.allowedNames, number t s = some n
  asListed : options.order = .asListed → compiled.allowed = listedNumbers t profile
  byNumber : options.order = .byNumber → compiled.allowed.Pairwise (· < ·)
  byFrequency : options.order = .byFrequency → compiled.allowed.Pairwise (FrequentFirst t profile)
  decision : ∀ order, ∃ other, compile t profile { options with order } = .ok other ∧
    ∀ d : SeccompData, other.program.run d = .ret seccompRetAllow ↔
      compiled.program.run d = .ret seccompRetAllow

/-! ## The numbers that are ordered -/

variable {t : Target} {profile : SeccompProfile} {options : CompileOptions}
  {compiled : CompiledProfile}

theorem resolveAll_fst_pairwise (t : Target) (names : List String) :
    (resolveAll t names).1.Pairwise (· < ·) :=
  (sortDedup_pairwise _).imp fun hlt ↦ Std.compare_eq_lt.mp hlt

theorem mem_listedNames {s : String} : s ∈ profile.listedNames ↔ s ∈ profile.allowedNames := by
  rw [SeccompProfile.mem_allowedNames, SeccompProfile.listedNames]
  simp [and_assoc]

theorem mem_listedNumbers {n : Int} :
    n ∈ listedNumbers t profile ↔ ∃ s ∈ profile.allowedNames, number t s = some n := by
  rw [listedNumbers, List.mem_eraseDups, List.mem_filterMap]
  simp only [mem_listedNames]

theorem listedNumbers_nodup : (listedNumbers t profile).Nodup := nodup_eraseDups _

/-- Without counts, the lower number comes first. -/
theorem frequentFirst_of_lt (hcounts : profile.counts.isEmpty = true) {a b : Int} (h : a < b) :
    FrequentFirst t profile a b := by
  have hzero : ∀ n, countOf t profile.counts n = 0 := by
    intro n
    rw [countOf, Std.ExtTreeMap.isEmpty_iff.mp hcounts]
    cases name t n <;> simp
  exact Or.inr ⟨by rw [hzero, hzero], h⟩

/-- How `sort_by` is told to compare two numbers. -/
theorem isLE_byCount {counts : Std.ExtTreeMap String UInt64} {a b : Int} :
    ((compare (countOf t counts b) (countOf t counts a)).then (compare a b)).isLE = true ↔
      countOf t counts b < countOf t counts a ∨ countOf t counts a = countOf t counts b ∧ a ≤ b := by
  cases hcmp : compare (countOf t counts b) (countOf t counts a) with
  | lt =>
    rw [Std.compare_eq_lt] at hcmp
    simp [Ordering.then, hcmp]
  | eq =>
    rw [Std.LawfulEqCmp.compare_eq_iff_eq] at hcmp
    simp [Ordering.then, hcmp, Std.isLE_compare]
  | gt =>
    rw [Std.compare_eq_gt] at hcmp
    have hne : countOf t counts a ≠ countOf t counts b := fun heq ↦ by simp [heq] at hcmp
    simp [Ordering.then, UInt64.lt_asymm hcmp, hne]

/-- **By frequency**: ascending numbers come out with the more frequent calls first. -/
theorem orderSyscalls_frequentFirst {allowed : List Int} (h : allowed.Pairwise (· < ·)) :
    (orderSyscalls t allowed profile .byFrequency).Pairwise (FrequentFirst t profile) := by
  have hnumeric : profile.counts.isEmpty = true → allowed.Pairwise (FrequentFirst t profile) :=
    fun hcounts ↦ h.imp fun hlt ↦ frequentFirst_of_lt hcounts hlt
  rw [orderSyscalls]
  split
  · rename_i hnone
    exact hnumeric (by simp [SeccompProfile.counts, hnone])
  · rename_i metadata hsome
    have hcounts : profile.counts = metadata.syscallCounts := by
      simp [SeccompProfile.counts, hsome]
    split
    · rename_i hempty
      exact hnumeric (hcounts ▸ hempty)
    · have hsorted := @List.pairwise_mergeSort Int (fun left right ↦
          ((compare (countOf t metadata.syscallCounts right)
            (countOf t metadata.syscallCounts left)).then (compare left right)).isLE)
        (fun a b c hab hbc ↦ by
          simp only [isLE_byCount, UInt64.lt_iff_toNat_lt, ← UInt64.toNat_inj] at hab hbc ⊢
          omega)
        (fun a b ↦ by
          simp only [Bool.or_eq_true, isLE_byCount, UInt64.lt_iff_toNat_lt, ← UInt64.toNat_inj]
          omega) allowed
      have hnodup : allowed.Nodup := h.imp Int.ne_of_lt
      have hne := (List.mergeSort_perm allowed fun left right ↦
          ((compare (countOf t metadata.syscallCounts right)
            (countOf t metadata.syscallCounts left)).then (compare left right)).isLE).nodup_iff.mpr
          hnodup
      refine (hsorted.and hne).imp fun hab ↦ ?_
      obtain ⟨hle, hdistinct⟩ := hab
      rw [FrequentFirst, hcounts]
      refine (isLE_byCount.mp hle).imp id fun hties ↦ ⟨hties.1, ?_⟩
      exact (Int.lt_or_lt_of_ne hdistinct).resolve_right (Int.not_lt.mpr hties.2)

theorem comparedNumbers_nodup (t : Target) (profile : SeccompProfile) (order : SyscallOrder) :
    (comparedNumbers t profile order).Nodup :=
  (orderSyscalls_perm ..).nodup_iff.mpr ((resolveAll_fst_pairwise t _).imp Int.ne_of_lt)

theorem mem_comparedNumbers_iff {order : SyscallOrder} {n : Int} :
    n ∈ comparedNumbers t profile order ↔ ∃ s ∈ profile.allowedNames, number t s = some n :=
  mem_comparedNumbers

/-! ## What an order means -/

/-- The order of the profile survives exactly if it is numeric. -/
theorem comparedNumbers_asListed_iff :
    comparedNumbers t profile .asListed = listedNumbers t profile ↔
      (listedNumbers t profile).Pairwise (· < ·) := by
  have hsorted : (comparedNumbers t profile .asListed).Pairwise (· < ·) :=
    resolveAll_fst_pairwise t _
  refine ⟨fun heq ↦ heq ▸ hsorted, fun hlisted ↦ ?_⟩
  have hperm : (comparedNumbers t profile .asListed).Perm (listedNumbers t profile) := by
    refine (List.perm_ext_iff_of_nodup (comparedNumbers_nodup ..) listedNumbers_nodup).mpr fun n ↦ ?_
    rw [mem_comparedNumbers_iff, mem_listedNumbers]
  refine hperm.eq_of_pairwise (fun a b _ _ hab hba ↦ ?_) hsorted hlisted
  exact absurd hab (Int.lt_asymm hba)

/-- **A compiled profile compares in the order that was asked for**, except that the order of the
profile has to be numeric to be kept. -/
theorem compile_meansOrder_iff (t : Target) (profile : SeccompProfile) (options : CompileOptions)
    (compiled : CompiledProfile) (h : compile t profile options = .ok compiled) :
    MeansOrder t profile options compiled ↔
      (options.order = .asListed → (listedNumbers t profile).Pairwise (· < ·)) := by
  obtain ⟨hallowed, -, -⟩ := compile_inv h
  constructor
  · intro hmeans horder
    rw [← comparedNumbers_asListed_iff, ← hmeans.asListed horder, hallowed, horder]
  · intro hlisted
    refine ⟨?_, fun n ↦ ?_, fun horder ↦ ?_, fun horder ↦ ?_, fun horder ↦ ?_, fun order ↦ ?_⟩
    · rw [hallowed]
      exact comparedNumbers_nodup ..
    · rw [hallowed]
      exact mem_comparedNumbers_iff
    · rw [hallowed, horder]
      exact comparedNumbers_asListed_iff.mpr (hlisted horder)
    · rw [hallowed, horder]
      exact resolveAll_fst_pairwise t _
    · rw [hallowed, horder]
      exact orderSyscalls_frequentFirst (resolveAll_fst_pairwise t _)
    · obtain ⟨other, hother, -⟩ :=
        compile_spec t { options with order } (validateSupported_of_compile h)
      refine ⟨other, hother, fun d ↦ ?_⟩
      rw [run_eq_allow_iff hother, run_eq_allow_iff h]

/-- A profile with one allow rule. -/
def listing (names : List String) : SeccompProfile where
  seccomp :=
    { defaultAction := .errno, defaultErrnoRet := none, architectures := none
      syscalls := some [{ names, action := .allow }] }
  crunMetadata := none

theorem listing_compiles (names : List String) (options : CompileOptions) :
    ∃ compiled, compile .x86_64 (listing names) options = .ok compiled := by
  obtain ⟨compiled, hcompile, -⟩ := @compile_spec .x86_64 (listing names) options rfl
  exact ⟨compiled, hcompile⟩

/-- Listed in numeric order, `read` and `write` are compared as listed. -/
theorem readWrite_meansOrder : ∃ compiled,
    compile .x86_64 (listing ["read", "write"]) { order := .asListed } = .ok compiled ∧
      MeansOrder .x86_64 (listing ["read", "write"]) { order := .asListed } compiled := by
  obtain ⟨compiled, hcompile⟩ := listing_compiles ["read", "write"] { order := .asListed }
  exact ⟨compiled, hcompile, (compile_meansOrder_iff .x86_64 (listing ["read", "write"])
    { order := .asListed } compiled hcompile).mpr fun _ ↦ by decide +kernel⟩

/-- **Listed the other way round, they are not**: `read` is still compared first. -/
theorem writeRead_not_asListed :
    listedNumbers .x86_64 (listing ["write", "read"]) = [1, 0] ∧
      ∃ compiled, compile .x86_64 (listing ["write", "read"]) { order := .asListed } = .ok compiled ∧
        compiled.allowed.Pairwise (· < ·) ∧
        ¬ MeansOrder .x86_64 (listing ["write", "read"]) { order := .asListed } compiled := by
  have hlisted : listedNumbers .x86_64 (listing ["write", "read"]) = [1, 0] := by decide +kernel
  obtain ⟨compiled, hcompile⟩ := listing_compiles ["write", "read"] { order := .asListed }
  obtain ⟨hallowed, -, -⟩ := compile_inv hcompile
  have hsorted : compiled.allowed.Pairwise (· < ·) := by
    rw [hallowed]
    exact resolveAll_fst_pairwise _ _
  refine ⟨hlisted, compiled, hcompile, hsorted, fun hmeans ↦ ?_⟩
  rw [hmeans.asListed rfl, hlisted] at hsorted
  exact absurd hsorted (by decide)

end CrunRs.Seccomp
