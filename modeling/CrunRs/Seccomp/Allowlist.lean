import CrunRs.Seccomp.Bpf

/-!
# The allowlist program

The half of `seccomp/compile.rs` that turns a list of allowed syscall numbers into a program:
`SeccompAction` and `build_allowlist`.

```text
load  seccomp_data.arch
jne   native      -> default action     (foreign architectures are denied)
load  seccomp_data.nr
jge   x32 bit     -> default action     (x86_64 only)
jeq   nr          -> allow              (repeated per allowed syscall)
ret   default action
```

`allowlistCalls` is that program as a chain of `Call`s.  `verdict_allowlistCalls` reads the chain,
and `buildAllowlist_of_fits` says which lists of numbers are turned into it: those whose numbers all fit
a comparison and whose chain is within the kernel's limit.
-/

set_option autoImplicit false

namespace CrunRs.Seccomp

/-! ## Actions -/

/-- `libc::SECCOMP_RET_ALLOW`. -/
def seccompRetAllow : UInt32 := 0x7fff0000

/-- `libc::SECCOMP_RET_ERRNO`; the low half carries the errno. -/
def seccompRetErrno : UInt32 := 0x00050000

/-- `libc::SECCOMP_RET_KILL_PROCESS`. -/
def seccompRetKillProcess : UInt32 := 0x80000000

/-- `libc::SECCOMP_RET_LOG`. -/
def seccompRetLog : UInt32 := 0x7ffc0000

/-- `libc::EPERM`. -/
def eperm : UInt32 := 1

/-- `libc::ENOSYS`. -/
def enosys : UInt32 := 38

inductive SeccompAction
  | errno
  | enosys
  | kill
  | log
  deriving DecidableEq, Repr

/-- `SeccompAction::to_bpf_ret`. -/
def SeccompAction.toBpfRet : SeccompAction → UInt32
  | .errno => seccompRetErrno ||| eperm
  | .enosys => seccompRetErrno ||| Seccomp.enosys
  | .kill => seccompRetKillProcess
  | .log => seccompRetLog

/-- No default action is the allow verdict, so an allowed call can be told from any other. -/
theorem SeccompAction.toBpfRet_ne_allow (action : SeccompAction) :
    action.toBpfRet ≠ seccompRetAllow := by
  cases action <;> decide

/-! ## Building -/

/-- A syscall number that fits a `u32` comparison. -/
def FitsU32 (n : Int) : Prop := 0 ≤ n ∧ n < 4294967296

instance (n : Int) : Decidable (FitsU32 n) := inferInstanceAs (Decidable (_ ∧ _))

/-- `u32::try_from` on an `i64`. -/
def u32TryFrom (n : Int) : Option UInt32 :=
  if FitsU32 n then some (UInt32.ofNat n.toNat) else none

/-- The loop of `build_allowlist`: one comparison per allowed syscall. -/
def compareAllowed : FilterBuilder → List Int → Except SeccompError FilterBuilder
  | builder, [] => .ok builder
  | builder, syscall :: rest => match u32TryFrom syscall with
    | none => .error (.invalidSyscallNumber syscall)
    | some number => compareAllowed (builder.jeqThenRet number seccompRetAllow) rest

/-- `build_allowlist`. -/
def buildAllowlist (t : Target) (allowed : List Int) (defaultAction : SeccompAction) :
    Except SeccompError Program := do
  ensureSupported t
  let deny := defaultAction.toBpfRet
  let builder := ((FilterBuilder.new.loadArch).jneThenRet (auditArchNative t) deny).loadSyscallNr
  let builder := match t with
    | .x86_64 => builder.jgeThenRet x32SyscallBit deny
    | .aarch64 => builder
  let builder ← compareAllowed builder allowed
  (builder.ret deny).build

/-! ## The chain it builds -/

/-- Everything before the comparisons. -/
def prologueCalls (t : Target) (deny : UInt32) : List Call :=
  [.loadArch, .jneThenRet (auditArchNative t) deny, .loadSyscallNr] ++
    match t with
    | .x86_64 => [.jgeThenRet x32SyscallBit deny]
    | .aarch64 => []

/-- The comparisons. -/
def allowedCalls (allowed : List Int) : List Call :=
  allowed.map fun n ↦ .jeqThenRet (UInt32.ofNat n.toNat) seccompRetAllow

def allowlistCalls (t : Target) (allowed : List Int) (deny : UInt32) : List Call :=
  prologueCalls t deny ++ allowedCalls allowed

/-- The instructions before the comparisons: two loads, the architecture guard and, on x86_64, the
x32 guard. -/
def prologueLen : Target → Nat
  | .x86_64 => 6
  | .aarch64 => 4

/-- The number of instructions of the emitted program: the prologue, two for each comparison, and
the final return. -/
def allowlistLen (t : Target) (allowed : List Int) : Nat :=
  prologueLen t + 2 * allowed.length + 1

theorem length_allowedCalls (allowed : List Int) :
    ((allowedCalls allowed).flatMap Call.emit).length = 2 * allowed.length := by
  induction allowed with
  | nil => rfl
  | cons n rest ih =>
    rw [allowedCalls, List.map_cons, List.flatMap_cons, ← allowedCalls, List.length_append, ih,
      List.length_cons]
    simp only [Call.emit, List.length_cons, List.length_nil]
    omega

theorem len_applyCalls_allowlistCalls (t : Target) (allowed : List Int) (deny : UInt32) :
    (applyCalls .new (allowlistCalls t allowed deny)).len + 1 = allowlistLen t allowed := by
  rw [applyCalls_len, allowlistCalls, List.flatMap_append, List.length_append,
    length_allowedCalls, allowlistLen]
  cases t <;> rfl

/-- The loop stops at the first number that does not fit, and otherwise appends `allowedCalls`. -/
theorem compareAllowed_of_fits (pre : List Call) {allowed : List Int}
    (h : ∀ n ∈ allowed, FitsU32 n) :
    compareAllowed (applyCalls .new pre) allowed =
      .ok (applyCalls .new (pre ++ allowedCalls allowed)) := by
  induction allowed generalizing pre with
  | nil => simp [compareAllowed, allowedCalls]
  | cons n rest ih =>
    have hn : FitsU32 n := h n (by simp)
    have hstep : (applyCalls .new pre).jeqThenRet (UInt32.ofNat n.toNat) seccompRetAllow =
        applyCalls .new (pre ++ [.jeqThenRet (UInt32.ofNat n.toNat) seccompRetAllow]) := by
      rw [applyCalls, applyCalls, List.foldl_append]
      rfl
    rw [compareAllowed, u32TryFrom, if_pos hn]
    dsimp only
    rw [hstep, ih _ fun m hm ↦ h m (List.mem_cons_of_mem _ hm), allowedCalls, allowedCalls,
      List.map_cons, List.append_assoc, List.singleton_append]

theorem compareAllowed_of_not_fits (builder : FilterBuilder) {allowed : List Int}
    (h : ∃ n ∈ allowed, ¬ FitsU32 n) : ∃ e, compareAllowed builder allowed = .error e := by
  induction allowed generalizing builder with
  | nil => obtain ⟨n, hn, _⟩ := h; exact absurd hn List.not_mem_nil
  | cons n rest ih =>
    rw [compareAllowed, u32TryFrom]
    by_cases hn : FitsU32 n
    · rw [if_pos hn]
      obtain ⟨m, hm, hbad⟩ := h
      rcases List.mem_cons.mp hm with rfl | hm
      · exact absurd hn hbad
      · exact ih _ ⟨m, hm, hbad⟩
    · rw [if_neg hn]
      exact ⟨_, rfl⟩

/-- Past the guards of `build_allowlist` there is the loop and then the length check. -/
theorem buildAllowlist_eq (t : Target) (allowed : List Int) (action : SeccompAction) :
    buildAllowlist t allowed action =
      (compareAllowed (applyCalls .new (prologueCalls t action.toBpfRet)) allowed).bind
        fun builder ↦ (builder.ret action.toBpfRet).build := by
  cases t <;> rfl

theorem buildAllowlist_of_fits (t : Target) {allowed : List Int} (action : SeccompAction)
    (h : ∀ n ∈ allowed, FitsU32 n) :
    buildAllowlist t allowed action =
      if allowlistLen t allowed ≤ maxBpfInsns then
        .ok ⟨(applyCalls .new (allowlistCalls t allowed action.toBpfRet ++
          [.ret action.toBpfRet])).insns⟩
      else .error (.programTooLong (allowlistLen t allowed) maxBpfInsns) := by
  rw [buildAllowlist_eq, compareAllowed_of_fits _ h, ← allowlistCalls, Except.bind,
    build_applyCalls_ret, len_applyCalls_allowlistCalls]

/-! ## What it answers -/

/-- The comparison is on 32-bit values, which is the same as on the numbers if the number fits. -/
theorem eq_ofNat_iff {a : UInt32} {n : Int} (h : FitsU32 n) :
    a = UInt32.ofNat n.toNat ↔ (a.toNat : Int) = n := by
  obtain ⟨h0, h1⟩ := h
  rw [← UInt32.toNat_inj, UInt32.toNat_ofNat_of_lt' (by rw [UInt32.size]; omega)]
  omega

/-- Comparing against every allowed number in turn finds the number exactly when it is there. -/
theorem verdict_allowedCalls (d : SeccompData) {allowed : List Int}
    (h : ∀ n ∈ allowed, FitsU32 n) (a deny : UInt32) :
    verdict d a (allowedCalls allowed ++ [.ret deny]) =
      some (if (a.toNat : Int) ∈ allowed then seccompRetAllow else deny) := by
  induction allowed with
  | nil => simp [allowedCalls, verdict]
  | cons n rest ih =>
    have hcmp : a = UInt32.ofNat n.toNat ↔ (a.toNat : Int) = n := eq_ofNat_iff (h n (by simp))
    rw [allowedCalls, List.map_cons, ← allowedCalls, List.cons_append, verdict]
    by_cases ha : (a.toNat : Int) = n
    · rw [if_pos (hcmp.mpr ha), if_pos (by simp [ha])]
    · rw [if_neg (mt hcmp.mp ha), ih fun m hm ↦ h m (List.mem_cons_of_mem _ hm)]
      simp [ha]

/-- A call an allowlist lets through: native, below the x32 range on x86_64, and listed. -/
def Allowed (t : Target) (allowed : List Int) (d : SeccompData) : Prop :=
  d.arch = auditArchNative t ∧ (t = .x86_64 → d.nr < x32SyscallBit) ∧ (d.nr.toNat : Int) ∈ allowed

instance (t : Target) (allowed : List Int) (d : SeccompData) : Decidable (Allowed t allowed d) :=
  inferInstanceAs (Decidable (_ ∧ _ ∧ _))

theorem verdict_allowlistCalls (t : Target) {allowed : List Int} (h : ∀ n ∈ allowed, FitsU32 n)
    (d : SeccompData) (a deny : UInt32) :
    verdict d a (allowlistCalls t allowed deny ++ [.ret deny]) =
      some (if Allowed t allowed d then seccompRetAllow else deny) := by
  have hloop := verdict_allowedCalls d h d.nr deny
  simp only [allowlistCalls, prologueCalls, List.cons_append, List.nil_append, verdict]
  by_cases harch : d.arch = auditArchNative t
  · rw [if_neg (not_not.mpr harch)]
    cases t with
    | aarch64 =>
      rw [List.nil_append, hloop]
      simp [Allowed, harch]
    | x86_64 =>
      rw [List.singleton_append, List.cons_append, verdict]
      by_cases hx : x32SyscallBit ≤ d.nr
      · rw [if_pos hx, if_neg (fun hall ↦ absurd (hall.2.1 rfl) (UInt32.not_lt.mpr hx))]
      · rw [if_neg hx, hloop]
        simp [Allowed, harch, UInt32.not_le.mp hx]
  · rw [if_pos harch, if_neg fun hall ↦ harch hall.1]

/-- Running a program that `build_allowlist` returned. -/
theorem run_buildAllowlist {t : Target} {allowed : List Int} {action : SeccompAction}
    {p : Program} (h : ∀ n ∈ allowed, FitsU32 n) (hp : buildAllowlist t allowed action = .ok p)
    (d : SeccompData) :
    p.run d = .ret (if Allowed t allowed d then seccompRetAllow else action.toBpfRet) := by
  rw [buildAllowlist_of_fits t action h] at hp
  split at hp
  · obtain rfl := Except.ok.inj hp
    rw [run_applyCalls, verdict_allowlistCalls t h]
    rfl
  · exact absurd hp (by simp)

/-- And its length. -/
theorem len_buildAllowlist {t : Target} {allowed : List Int} {action : SeccompAction} {p : Program}
    (h : ∀ n ∈ allowed, FitsU32 n) (hp : buildAllowlist t allowed action = .ok p) :
    p.len = allowlistLen t allowed := by
  rw [buildAllowlist_of_fits t action h] at hp
  split at hp
  · obtain rfl := Except.ok.inj hp
    rw [← len_applyCalls_allowlistCalls t allowed action.toBpfRet, applyCalls_len,
      Program.len, applyCalls_insns, List.flatMap_append]
    simp [FilterBuilder.new, Call.emit]
  · exact absurd hp (by simp)

/-- **The allowlist program is exact.**  A list of numbers that fit a comparison and whose program
is within the kernel's limit builds, and the program allows exactly the native calls of the listed
numbers — below the x32 range on x86_64 — and answers every other call with the default action.  In
any other case the builder returns an error. -/
theorem buildAllowlist_exact (t : Target) (allowed : List Int) (action : SeccompAction) :
    ((∀ n ∈ allowed, FitsU32 n) ∧ allowlistLen t allowed ≤ maxBpfInsns →
      ∃ p, buildAllowlist t allowed action = .ok p ∧ p.len = allowlistLen t allowed ∧
        ∀ d : SeccompData,
          (p.run d = .ret seccompRetAllow ↔
            d.arch = auditArchNative t ∧ (t = .x86_64 → d.nr < 0x40000000) ∧
              (d.nr.toNat : Int) ∈ allowed) ∧
          (p.run d ≠ .ret seccompRetAllow → p.run d = .ret action.toBpfRet)) ∧
    ((∃ n ∈ allowed, ¬ FitsU32 n) ∨ maxBpfInsns < allowlistLen t allowed →
      ∃ e, buildAllowlist t allowed action = .error e) := by
  constructor
  · rintro ⟨hfits, hlen⟩
    have hbuild := buildAllowlist_of_fits t action hfits
    rw [if_pos hlen] at hbuild
    refine ⟨_, hbuild, len_buildAllowlist hfits hbuild, fun d ↦ ?_⟩
    rw [run_buildAllowlist hfits hbuild]
    by_cases hall : Allowed t allowed d
    · rw [if_pos hall]
      exact ⟨⟨fun _ ↦ hall, fun _ ↦ rfl⟩, fun hne ↦ absurd rfl hne⟩
    · rw [if_neg hall]
      refine ⟨⟨fun heq ↦ ?_, fun hd ↦ absurd hd hall⟩, fun _ ↦ rfl⟩
      exact absurd (ClassicBpf.Outcome.ret.inj heq) action.toBpfRet_ne_allow
  · intro hbad
    by_cases hfits : ∀ n ∈ allowed, FitsU32 n
    · rcases hbad with ⟨n, hn, hnot⟩ | hlen
      · exact absurd (hfits n hn) hnot
      · rw [buildAllowlist_of_fits t action hfits, if_neg (Nat.not_le.mpr hlen)]
        exact ⟨_, rfl⟩
    · push Not at hfits
      obtain ⟨e, he⟩ := compareAllowed_of_not_fits
        (applyCalls .new (prologueCalls t action.toBpfRet)) hfits
      rw [buildAllowlist_eq, he]
      exact ⟨e, rfl⟩

end CrunRs.Seccomp
