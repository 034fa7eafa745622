import CrunRs.Seccomp.Allowlist
import CrunRs.Seccomp.Syscalls

/-!
# The denylist of the default security profile

`security/mod.rs` installs a second kind of filter, built with the same `FilterBuilder` as the
allowlists: a fixed set of host-impacting syscalls is refused and everything else goes through.

Its prologue is not the allowlist's.  An allowlist stops at the x32 bit before it compares numbers;
the denylist goes straight to the comparisons, and those are against plain numbers.  On an allowlist
a forgotten ABI would be denied.  Here it is let through: `run_seccompDenylistFilter` says what the
program answers, and `denies_variants_iff` which calls that leaves open.
-/

set_option autoImplicit false

namespace CrunRs.Security

open Seccomp

/-! ## The filter -/

/-- The syscalls `denied_syscalls` lists, by the names of their `libc::SYS_*` constants. -/
def deniedNames : List String :=
  ["mount", "umount2", "pivot_root", "swapon", "swapoff", "reboot", "init_module", "finit_module",
    "delete_module", "kexec_load", "ptrace", "bpf", "keyctl", "open_by_handle_at", "unshare",
    "setns"]

/-- `denied_syscalls`. -/
def deniedSyscalls : Target → List Int
  | .x86_64 => [165, 166, 155, 167, 168, 169, 175, 313, 176, 246, 101, 321, 250, 304, 272, 308]
  | .aarch64 => [40, 39, 41, 224, 225, 142, 105, 273, 106, 104, 117, 280, 219, 265, 97, 268]

/-- The numbers are those of the runtime's own syscall tables. -/
theorem deniedSyscalls_eq (t : Target) :
    (deniedSyscalls t).map some = deniedNames.map (number t) := by
  cases t <;> decide +kernel

/-- `n as u32`. -/
def asU32 (n : Int) : UInt32 := UInt32.ofNat (n % 4294967296).toNat

/-- What a refused call gets: `SECCOMP_RET_ERRNO | EPERM`. -/
def denyRet : UInt32 := seccompRetErrno ||| eperm

/-- `seccomp_denylist_filter`. -/
def seccompDenylistFilter (t : Target) : Except SeccompError Program := do
  ensureSupported t
  let builder := ((FilterBuilder.new.loadArch).jneThenRet (auditArchNative t) denyRet).loadSyscallNr
  let builder := (deniedSyscalls t).foldl
    (fun builder syscall ↦ builder.jeqThenRet (asU32 syscall) denyRet) builder
  (builder.ret seccompRetAllow).build

/-! ## What it answers -/

/-- The filter as a chain of calls. -/
def denylistCalls (t : Target) (denied : List Int) : List Call :=
  [.loadArch, .jneThenRet (auditArchNative t) denyRet, .loadSyscallNr] ++
    denied.map fun n ↦ .jeqThenRet (asU32 n) denyRet

theorem seccompDenylistFilter_eq (t : Target) :
    seccompDenylistFilter t =
      .ok ⟨(applyCalls .new
        (denylistCalls t (deniedSyscalls t) ++ [.ret seccompRetAllow])).insns⟩ := by
  have hchain : (deniedSyscalls t).foldl
      (fun builder syscall ↦ builder.jeqThenRet (asU32 syscall) denyRet)
      ((FilterBuilder.new.loadArch).jneThenRet (auditArchNative t) denyRet).loadSyscallNr =
        applyCalls .new (denylistCalls t (deniedSyscalls t)) := by
    rw [denylistCalls, applyCalls, List.foldl_append, List.foldl_map]
    rfl
  rw [seccompDenylistFilter, ensureSupported_eq]
  show (FilterBuilder.ret ((deniedSyscalls t).foldl _ _) seccompRetAllow).build = _
  rw [hchain, build_applyCalls_ret, if_pos]
  cases t <;> decide

/-- Every denied number fits the comparison, so comparing words is comparing numbers. -/
theorem eq_asU32_iff {t : Target} {n : Int} (hn : n ∈ deniedSyscalls t) (a : UInt32) :
    a = asU32 n ↔ (a.toNat : Int) = n := by
  have hrange : ∀ t, ∀ n ∈ deniedSyscalls t, 0 ≤ n ∧ n < 512 := by
    intro t
    cases t <;> decide
  obtain ⟨h0, h1⟩ := hrange t n hn
  have hmod : n % 4294967296 = n := Int.emod_eq_of_lt h0 (by omega)
  rw [asU32, hmod, ← UInt32.toNat_inj, UInt32.toNat_ofNat_of_lt' (by rw [UInt32.size]; omega)]
  omega

theorem verdict_denied (t : Target) (d : SeccompData) (a : UInt32) {denied : List Int}
    (h : denied ⊆ deniedSyscalls t) :
    verdict d a (denied.map (fun n ↦ .jeqThenRet (asU32 n) denyRet) ++ [.ret seccompRetAllow]) =
      some (if (a.toNat : Int) ∈ denied then denyRet else seccompRetAllow) := by
  induction denied with
  | nil => simp [verdict]
  | cons n rest ih =>
    obtain ⟨hn, hrest⟩ := List.cons_subset.mp h
    have hcmp := eq_asU32_iff hn a
    rw [List.map_cons, List.cons_append, verdict, ih hrest]
    by_cases ha : (a.toNat : Int) = n
    · rw [if_pos (hcmp.mpr ha), if_pos (by simp [ha])]
    · rw [if_neg (mt hcmp.mp ha)]
      simp [ha]

/-- **The denylist filter builds, and lets through exactly the native calls of the numbers that are
not listed.** -/
theorem run_seccompDenylistFilter (t : Target) :
    ∃ p, seccompDenylistFilter t = .ok p ∧ ∀ d : SeccompData,
      p.run d = .ret (if d.arch = auditArchNative t ∧ (d.nr.toNat : Int) ∉ deniedSyscalls t
        then seccompRetAllow else denyRet) := by
  refine ⟨_, seccompDenylistFilter_eq t, fun d ↦ ?_⟩
  rw [run_applyCalls, denylistCalls]
  simp only [List.cons_append, List.nil_append, verdict]
  by_cases harch : d.arch = auditArchNative t
  · rw [if_neg (not_not.mpr harch), verdict_denied t d d.nr (List.Subset.refl _)]
    by_cases hnr : (d.nr.toNat : Int) ∈ deniedSyscalls t
    · rw [if_pos hnr, if_neg fun h ↦ h.2 hnr]
      rfl
    · rw [if_neg hnr, if_pos ⟨harch, hnr⟩]
      rfl
  · rw [if_pos harch, if_neg fun h ↦ harch h.1]
    rfl

/-! ## ABI variants of a denied call -/

/-- The x86_64 number an x32 number stands for: itself with the x32 bit cleared. -/
def clearX32 (nr : UInt32) : UInt32 := nr &&& ~~~x32SyscallBit

/-- A number with the x32 bit set is not denied, whatever it stands for: the denied ones are
small. -/
theorem not_mem_deniedSyscalls_of_x32 {nr : UInt32} (h : nr &&& x32SyscallBit ≠ 0) :
    (nr.toNat : Int) ∉ deniedSyscalls .x86_64 := by
  intro hmem
  have hsmall : ∀ n ∈ deniedSyscalls .x86_64, asU32 n &&& x32SyscallBit = 0 := by decide
  have heq : nr = asU32 (nr.toNat : Int) := (eq_asU32_iff hmem nr).mpr rfl
  exact h (heq ▸ hsmall _ hmem)

theorem clearX32_eq_self {nr : UInt32} (h : nr &&& x32SyscallBit = 0) : clearX32 nr = nr := by
  calc clearX32 nr = (nr &&& x32SyscallBit) ||| (nr &&& ~~~x32SyscallBit) := by
        rw [h, UInt32.zero_or, clearX32]
    _ = nr &&& (x32SyscallBit ||| ~~~x32SyscallBit) :=
        UInt32.toBitVec_inj.mp BitVec.and_or_distrib_left.symm
    _ = nr := by rw [UInt32.or_not_self, UInt32.and_neg_one]

/-- **When every ABI variant of a denied call is denied.**  The filter builds, and refuses a native
call whenever the number it stands for is denied, exactly if the call is not made through the x32
ABI or stands for a number that is not denied. -/
theorem denies_variants_iff (d : SeccompData) :
    (∃ p, seccompDenylistFilter .x86_64 = .ok p ∧
      (((clearX32 d.nr).toNat : Int) ∈ deniedSyscalls .x86_64 →
        p.run { d with arch := auditArchNative .x86_64 } = .ret denyRet)) ↔
      d.nr &&& x32SyscallBit = 0 ∨ ((clearX32 d.nr).toNat : Int) ∉ deniedSyscalls .x86_64 := by
  obtain ⟨p, hp, hrun⟩ := run_seccompDenylistFilter .x86_64
  constructor
  · rintro ⟨p', hp', hdeny⟩
    obtain rfl : p = p' := Except.ok.inj (hp.symm.trans hp')
    refine or_iff_not_imp_right.mpr fun hmem ↦ by_contra fun hx32 ↦ ?_
    have hret := hdeny (not_not.mp hmem)
    rw [hrun, if_pos ⟨rfl, not_mem_deniedSyscalls_of_x32 hx32⟩] at hret
    exact absurd (ClassicBpf.Outcome.ret.inj hret) (by decide)
  · rintro (hplain | hnot)
    · refine ⟨p, hp, fun hmem ↦ ?_⟩
      rw [clearX32_eq_self hplain] at hmem
      rw [hrun, if_neg fun h ↦ h.2 hmem]
    · exact ⟨p, hp, fun hmem ↦ absurd hmem hnot⟩

/-- The x32 `mount` stands for the denied `mount` and is let through. -/
theorem denylist_allows_x32_mount :
    ∃ p, seccompDenylistFilter .x86_64 = .ok p ∧
      ((clearX32 0x400000a5).toNat : Int) ∈ deniedSyscalls .x86_64 ∧
      p.run { nr := 0x400000a5, arch := auditArchNative .x86_64 } = .ret seccompRetAllow ∧
      p.run { nr := 0x400000a5, arch := auditArchNative .x86_64 } ≠ .ret denyRet := by
  obtain ⟨p, hp, hrun⟩ := run_seccompDenylistFilter .x86_64
  have hallow : p.run { nr := 0x400000a5, arch := auditArchNative .x86_64 } =
      .ret seccompRetAllow := by
    rw [hrun, if_pos (by decide)]
  refine ⟨p, hp, by decide, hallow, ?_⟩
  rw [hallow]
  decide

end CrunRs.Security
