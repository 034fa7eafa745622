import CrunRs.Error

/-!
# Architectures

`seccomp/arch.rs` picks its constants by `cfg(target_arch)`.  Only two builds exist — on any other
target there is no syscall table to link against — so the choice is a `Target`, and everything
that depends on it takes one as an argument.  `ensure_supported` compares `AUDIT_ARCH_NATIVE` with
the value of an unsupported build, which neither of the two has (`ensureSupported_eq`).
-/

set_option autoImplicit false

namespace CrunRs.Seccomp

/-- The `target_arch` the runtime is compiled for. -/
inductive Target
  | x86_64
  | aarch64
  deriving DecidableEq, Repr

/-- `AUDIT_ARCH_NATIVE`: what the kernel reports in `seccomp_data.arch` for a native call. -/
def auditArchNative : Target → UInt32
  | .x86_64 => 0xc000003e
  | .aarch64 => 0xc00000b7

/-- `X32_SYSCALL_BIT`: the x32 ABI reuses x86_64 syscall numbers with this bit set. -/
def x32SyscallBit : UInt32 := 0x40000000

/-- `NATIVE_ARCH_NAME`. -/
def nativeArchName : Target → String
  | .x86_64 => "x86_64"
  | .aarch64 => "aarch64"

/-- `ensure_supported`. -/
def ensureSupported (t : Target) : Except SeccompError Unit :=
  if auditArchNative t = 0 then .error .unsupportedArchitecture else .ok ()

theorem auditArchNative_ne_zero (t : Target) : auditArchNative t ≠ 0 := by
  cases t <;> decide

@[simp] theorem ensureSupported_eq (t : Target) : ensureSupported t = .ok () :=
  if_neg (auditArchNative_ne_zero t)

/-- One row of an architecture's syscall table. -/
structure SyscallEntry where
  name : String
  number : Int
  deriving DecidableEq, Repr

end CrunRs.Seccomp
