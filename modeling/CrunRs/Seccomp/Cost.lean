import CrunRs.Lib.LinearSearch
import CrunRs.Seccomp.Order

/-!
# What a call costs

`seccomp/compile.rs`: why `ByFrequency` is the default order.  The kernel runs the filter on every
call, and the filter compares with the allowed numbers one after the other, so what it executes for a
call depends on where its number stands (`steps_buildAllowlist`): the guards, one instruction for each
number before it, and two for itself.  A comparison that does not hold jumps over its return.

The guards cost the same in any order, and the rest is a linear search.  So comparing with the most
frequent calls first is best (`byFrequency_optimal`).
-/

set_option autoImplicit false

namespace CrunRs.Seccomp

open ClassicBpf LinearSearch

/-! ## The cost of a chain of calls -/

/-- How many instructions the kernel executes on one system call. -/
def Program.steps (p : Program) (d : SeccompData) : ℕ :=
  ClassicBpf.steps d.load seccompDataLen p.insns {}

/-- How many instructions a chain of calls executes with the value `a` in the accumulator: a
condition that does not hold costs the comparison, and one that does the return as well. -/
def chainSteps (d : SeccompData) : UInt32 → List Call → ℕ
  | _, [] => 0
  | _, .loadArch :: calls => chainSteps d d.arch calls + 1
  | _, .loadSyscallNr :: calls => chainSteps d d.nr calls + 1
  | a, .jeqThenRet k _ :: calls => if a = k then 2 else chainSteps d a calls + 1
  | a, .jneThenRet k _ :: calls => if a ≠ k then 2 else chainSteps d a calls + 1
  | a, .jgeThenRet k _ :: calls => if k ≤ a then 2 else chainSteps d a calls + 1
  | _, .ret _ :: _ => 1

/-- **The emitted words execute as many instructions.**  The induction is that of `resume_emit`. -/
theorem steps_emit (d : SeccompData) (calls : List Call) (r : Regs) :
    ClassicBpf.steps d.load seccompDataLen (calls.flatMap Call.emit) r = chainSteps d r.a calls := by
  induction calls generalizing r with
  | nil => rfl
  | cons c calls ih =>
    rw [List.flatMap_cons]
    cases c with
    | loadArch =>
      rw [Call.emit, List.singleton_append, steps_ldAbs (decode_ldWAbs _) (load_arch d), ih]
      rfl
    | loadSyscallNr =>
      rw [Call.emit, List.singleton_append, steps_ldAbs (decode_ldWAbs _) (load_nr d), ih]
      rfl
    | jeqThenRet k action =>
      rw [Call.emit, List.cons_append, steps_jmp (decode_jeqK _ _ _), chainSteps]
      by_cases h : r.a = k
      · rw [if_pos h, if_pos (by simpa [JmpOp.test] using h)]
        exact congrArg Nat.succ (steps_retK (decode_retK _))
      · rw [if_neg h, if_neg (by simpa [JmpOp.test] using h)]
        exact congrArg Nat.succ (ih r)
    | jneThenRet k action =>
      rw [Call.emit, List.cons_append, steps_jmp (decode_jeqK _ _ _), chainSteps]
      by_cases h : r.a = k
      · rw [if_neg (not_not.mpr h), if_pos (by simpa [JmpOp.test] using h)]
        exact congrArg Nat.succ (ih r)
      · rw [if_pos h, if_neg (by simpa [JmpOp.test] using h)]
        exact congrArg Nat.succ (steps_retK (decode_retK _))
    | jgeThenRet k action =>
      rw [Call.emit, List.cons_append, steps_jmp (decode_jgeK _ _ _), chainSteps]
      by_cases h : k ≤ r.a
      · rw [if_pos h, if_pos (by simpa [JmpOp.test] using h)]
        exact congrArg Nat.succ (steps_retK (decode_retK _))
      · rw [if_neg h, if_neg (by simpa [JmpOp.test] using h)]
        exact congrArg Nat.succ (ih r)
    | ret action => exact steps_retK (decode_retK _)

/-- A listed number costs one instruction for each one before it, and two for itself. -/
theorem chainSteps_allowedCalls (d : SeccompData) {allowed : List Int}
    (h : ∀ n ∈ allowed, FitsU32 n) {a : UInt32} (ha : (a.toNat : Int) ∈ allowed) (deny : UInt32) :
    chainSteps d a (allowedCalls allowed ++ [.ret deny]) = allowed.idxOf (a.toNat : Int) + 2 := by
  induction allowed with
  | nil => exact absurd ha List.not_mem_nil
  | cons n rest ih =>
    have hcmp := eq_ofNat_iff (h n List.mem_cons_self) (a := a)
    rw [allowedCalls, List.map_cons, ← allowedCalls, List.cons_append, chainSteps]
    by_cases hn : (a.toNat : Int) = n
    · rw [if_pos (hcmp.mpr hn), hn, List.idxOf_cons_self]
    · rw [if_neg (mt hcmp.mp hn), List.idxOf_cons_ne rest (Ne.symm hn),
        ih (fun m hm ↦ h m (List.mem_cons_of_mem n hm)) ((List.mem_cons.mp ha).resolve_left hn)]

/-- The instructions a native call executes before the comparisons. -/
def guardSteps : Target → ℕ
  | .x86_64 => 4
  | .aarch64 => 3

theorem chainSteps_allowlistCalls (t : Target) {allowed : List Int} (h : ∀ n ∈ allowed, FitsU32 n)
    {d : SeccompData} (hd : Allowed t allowed d) (deny : UInt32) :
    chainSteps d 0 (allowlistCalls t allowed deny ++ [.ret deny]) =
      guardSteps t + allowed.idxOf (d.nr.toNat : Int) + 2 := by
  obtain ⟨harch, hx32, hnr⟩ := hd
  have hloop := chainSteps_allowedCalls d h hnr deny
  simp only [allowlistCalls, prologueCalls, List.cons_append, List.nil_append, chainSteps]
  rw [if_neg (not_not.mpr harch)]
  cases t with
  | aarch64 =>
    rw [List.nil_append, hloop, guardSteps]
    omega
  | x86_64 =>
    rw [List.singleton_append, List.cons_append, chainSteps,
      if_neg (UInt32.not_le.mpr (hx32 rfl)), hloop, guardSteps]
    omega

/-- **What an allowed call costs.** -/
theorem steps_buildAllowlist {t : Target} {allowed : List Int} {action : SeccompAction}
    {p : Program} (h : ∀ n ∈ allowed, FitsU32 n) (hp : buildAllowlist t allowed action = .ok p)
    {d : SeccompData} (hd : Allowed t allowed d) :
    p.steps d = guardSteps t + allowed.idxOf (d.nr.toNat : Int) + 2 := by
  rw [buildAllowlist_of_fits t action h] at hp
  split at hp
  · obtain rfl := Except.ok.inj hp
    rw [Program.steps, applyCalls_insns]
    exact (steps_emit d _ {}).trans (chainSteps_allowlistCalls t h hd _)
  · cases hp

/-! ## The cost of a profile -/

/-- A native call of a syscall from some place, with some arguments. -/
def callAt (t : Target) (pointer : UInt64) (args : Fin 6 → UInt64) (n : Int) : SeccompData :=
  { nativeCall t n with instructionPointer := pointer, args }

/-- What a program costs a run that makes every allowed call as often as was observed. -/
def profileCost (t : Target) (profile : SeccompProfile) (pointer : Int → UInt64)
    (args : Int → Fin 6 → UInt64) (allowed : List Int) (p : Program) : ℕ :=
  (allowed.map fun n ↦
    (countOf t profile.counts n).toNat * p.steps (callAt t (pointer n) (args n) n)).sum

variable {t : Target} {profile : SeccompProfile}

/-- The numbers of a profile, in any order: each is a native number below the x32 range. -/
theorem allowed_callAt {order : List Int} (hfits : ∀ n ∈ order, 0 ≤ n ∧ n < 512)
    (pointer : UInt64) (args : Fin 6 → UInt64) {n : Int} (hn : n ∈ order) :
    Allowed t order (callAt t pointer args n) ∧ ((callAt t pointer args n).nr.toNat : Int) = n := by
  obtain ⟨hlo, hhi⟩ := hfits n hn
  have hnr : (callAt t pointer args n).nr.toNat = n.toNat :=
    UInt32.toNat_ofNat_of_lt' (by rw [UInt32.size]; omega)
  have hnumber : ((callAt t pointer args n).nr.toNat : Int) = n := by omega
  refine ⟨⟨rfl, fun _ ↦ ?_, by rwa [hnumber]⟩, hnumber⟩
  rw [UInt32.lt_iff_toNat_lt, hnr]
  show n.toNat < 1073741824
  omega

/-- **The cost of an order** is what the guards and the comparisons that hold cost, and as many
comparisons as a linear search passes over. -/
theorem profileCost_eq {order allowed : List Int} {action : SeccompAction} {p : Program}
    (hfits : ∀ n ∈ order, 0 ≤ n ∧ n < 512) (hnodup : order.Nodup) (hperm : order.Perm allowed)
    (hp : buildAllowlist t order action = .ok p) (pointer : Int → UInt64)
    (args : Int → Fin 6 → UInt64) :
    profileCost t profile pointer args allowed p =
      (allowed.map fun n ↦ (countOf t profile.counts n).toNat * (guardSteps t + 2)).sum +
        passes (fun n ↦ (countOf t profile.counts n).toNat) order := by
  have hu32 : ∀ n ∈ order, FitsU32 n := fun n hn ↦
    ⟨(hfits n hn).1, lt_trans (hfits n hn).2 (by decide)⟩
  have heach : order.map (fun n ↦
      (countOf t profile.counts n).toNat * p.steps (callAt t (pointer n) (args n) n)) =
      order.map fun n ↦ (countOf t profile.counts n).toNat * (guardSteps t + 2) +
        (countOf t profile.counts n).toNat * order.idxOf n := by
    refine List.map_congr_left fun n hn ↦ ?_
    obtain ⟨hallowed, hnumber⟩ := allowed_callAt (t := t) hfits (pointer n) (args n) hn
    rw [steps_buildAllowlist hu32 hp hallowed, hnumber, Nat.add_right_comm, Nat.mul_add]
  rw [profileCost, ← (hperm.map _).sum_eq, heach, List.sum_map_add,
    passes_eq_sum_idxOf _ hnodup, (hperm.map _).sum_eq]

/-- **Comparing the most frequent calls first costs the least**: every other order of the allowed
calls builds too, and its program executes at least as many instructions. -/
theorem byFrequency_optimal (t : Target) (profile : SeccompProfile) (action : SeccompAction)
    (compiled : CompiledProfile) (pointer : Int → UInt64) (args : Int → Fin 6 → UInt64)
    (order : List Int)
    (h : compile t profile { defaultAction := action, order := .byFrequency } = .ok compiled)
    (hperm : order.Perm compiled.allowed) :
    buildAllowlist t compiled.allowed action = .ok compiled.program ∧
      ∃ p, buildAllowlist t order action = .ok p ∧
        profileCost t profile pointer args compiled.allowed compiled.program ≤
          profileCost t profile pointer args compiled.allowed p := by
  obtain ⟨hallowed, -, hbuild⟩ := compile_inv h
  have hfits : ∀ n ∈ compiled.allowed, 0 ≤ n ∧ n < 512 := by
    rw [hallowed]
    exact fun n hn ↦ allowsNumber_range (mem_comparedNumbers.mp hn)
  have hnodup : compiled.allowed.Nodup := by
    rw [hallowed]
    exact comparedNumbers_nodup ..
  have hsorted : compiled.allowed.Pairwise (FrequentFirst t profile) := by
    rw [hallowed]
    exact orderSyscalls_frequentFirst (resolveAll_fst_pairwise t _)
  have hfits' : ∀ n ∈ order, 0 ≤ n ∧ n < 512 := fun n hn ↦ hfits n (hperm.mem_iff.mp hn)
  have hlength : allowlistLen t order ≤ maxBpfInsns := by
    have hle := allowlistLen_comparedNumbers_le t profile .byFrequency
    rwa [← hallowed, allowlistLen, ← hperm.length_eq, ← allowlistLen] at hle
  have hu32 : ∀ n ∈ order, FitsU32 n := fun n hn ↦
    ⟨(hfits' n hn).1, lt_trans (hfits' n hn).2 (by decide)⟩
  have hother := buildAllowlist_of_fits t action hu32
  rw [if_pos hlength] at hother
  refine ⟨hbuild, _, hother, ?_⟩
  rw [profileCost_eq hfits hnodup (List.Perm.refl _) hbuild,
    profileCost_eq hfits' (hperm.nodup_iff.mpr hnodup) hperm hother]
  refine Nat.add_le_add_left (passes_le_of_perm _ (hsorted.imp fun hfirst ↦ ?_) hperm) _
  -- the weights descend
  rcases hfirst with hlt | ⟨heq, -⟩
  · exact le_of_lt (UInt64.lt_iff_toNat_lt.mp hlt)
  · rw [heq]

/-- A profile in which `write` was observed more often than `read`. -/
def writesMore : SeccompProfile where
  seccomp := (listing ["read", "write"]).seccomp
  crunMetadata := some
    { schemaVersion := metadataSchemaVersion, generator := "crun-rs", runtimeVersion := ""
      workload := none, arch := "x86_64", auditArch := 0xc000003e, generatedAtUnix := 0
      observedSyscallCount := 2, baselineSyscallCount := 0, totalSyscallCount := 2
      captureDurationMs := 0, totalEvents := 12, sourceRuns := [], unresolved := []
      foreignArch := ∅, syscallCounts := .ofList [("read", (2 : UInt64)), ("write", 10)] }

/-- Comparing with `read` first would cost more. -/
theorem writesMore_optimal : ∃ compiled,
    compile .x86_64 writesMore { order := .byFrequency } = .ok compiled ∧
      buildAllowlist .x86_64 compiled.allowed .errno = .ok compiled.program ∧
      ∃ p, buildAllowlist .x86_64 compiled.allowed.reverse .errno = .ok p ∧
        profileCost .x86_64 writesMore (fun _ ↦ 0) (fun _ _ ↦ 0) compiled.allowed
          compiled.program ≤
        profileCost .x86_64 writesMore (fun _ ↦ 0) (fun _ _ ↦ 0) compiled.allowed p := by
  obtain ⟨compiled, hcompile, -⟩ :=
    @compile_spec .x86_64 writesMore { order := .byFrequency } rfl
  exact ⟨compiled, hcompile, byFrequency_optimal .x86_64 writesMore .errno compiled (fun _ ↦ 0)
    (fun _ _ ↦ 0) compiled.allowed.reverse hcompile (List.reverse_perm _)⟩

end CrunRs.Seccomp
