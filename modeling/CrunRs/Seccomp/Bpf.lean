import CrunRs.Lib.ClassicBpf
import CrunRs.Seccomp.Arch

/-!
# Building filter programs

`seccomp/bpf.rs`: the raw `sock_filter` words, the `FilterBuilder` that appends them, and
`Program::validate`, which refuses what the kernel would refuse.

A builder is only ever used as a chain of calls, and each call appends one or two words whose jump
offsets are 0 and 1.  `Call` names the six calls and `verdict` says what a chain of them means: go
through the calls in order, loading as they say, and answer with the action of the first one whose
condition holds.  `resume_emit` is the bridge — running the words a chain emits gives its verdict —
so a filter is reasoned about as a list of `Call`s and its jump offsets are never looked at again.
-/

set_option autoImplicit false

namespace CrunRs.Seccomp

open ClassicBpf

/-! ## Raw words -/

/-- `MAX_BPF_INSNS`, the kernel's `BPF_MAXINSNS`. -/
def maxBpfInsns : Nat := 4096

/-- `SECCOMP_DATA_NR_OFFSET`. -/
def seccompDataNrOffset : UInt32 := 0

/-- `SECCOMP_DATA_ARCH_OFFSET`. -/
def seccompDataArchOffset : UInt32 := 4

/-- `BPF_LD | BPF_W | BPF_ABS`. -/
def bpfLdWAbs : UInt32 := 0x00 ||| 0x00 ||| 0x20

/-- `BPF_RET | BPF_K`. -/
def bpfRetK : UInt32 := 0x06 ||| 0x00

/-- `BPF_JMP | BPF_JEQ | BPF_K`. -/
def bpfJeqK : UInt32 := 0x05 ||| 0x10 ||| 0x00

/-- `BPF_JMP | BPF_JGE | BPF_K`. -/
def bpfJgeK : UInt32 := 0x05 ||| 0x30 ||| 0x00

/-- `BPF_JMP`, the instruction class. -/
def bpfJmp : UInt32 := 0x05

def stmt (code k : UInt32) : SockFilter := ⟨code.toUInt16, 0, 0, k⟩

def jump (code k : UInt32) (jt jf : UInt8) : SockFilter := ⟨code.toUInt16, jt, jf, k⟩

@[simp] theorem decode_ldWAbs (k : UInt32) : (stmt bpfLdWAbs k).decode = some (.ldAbs k) := rfl

@[simp] theorem decode_retK (k : UInt32) : (stmt bpfRetK k).decode = some (.retK k) := rfl

@[simp] theorem decode_jeqK (k : UInt32) (jt jf : UInt8) :
    (jump bpfJeqK k jt jf).decode = some (.jmp .jeq .imm k jt jf) := rfl

@[simp] theorem decode_jgeK (k : UInt32) (jt jf : UInt8) :
    (jump bpfJgeK k jt jf).decode = some (.jmp .jge .imm k jt jf) := rfl

/-! ## What a filter inspects -/

/-- `struct seccomp_data`. -/
structure SeccompData where
  nr : UInt32
  arch : UInt32
  instructionPointer : UInt64 := 0
  args : Fin 6 → UInt64 := fun _ ↦ 0

/-- A word load at a byte offset of `struct seccomp_data`, in the little-endian layout of both
targets.  An unaligned offset, or one past the end, is refused. -/
def SeccompData.load (d : SeccompData) (off : UInt32) : Option UInt32 :=
  match off.toNat with
  | 0 => some d.nr
  | 4 => some d.arch
  | 8 => some d.instructionPointer.toUInt32
  | 12 => some (d.instructionPointer >>> 32).toUInt32
  | n =>
    if h : 16 ≤ n ∧ n < 64 ∧ n % 4 = 0 then
      let arg := d.args ⟨(n - 16) / 8, by omega⟩
      some (if n % 8 = 0 then arg.toUInt32 else (arg >>> 32).toUInt32)
    else none

@[simp] theorem load_nr (d : SeccompData) : d.load seccompDataNrOffset = some d.nr := rfl

@[simp] theorem load_arch (d : SeccompData) : d.load seccompDataArchOffset = some d.arch := rfl

/-- `sizeof(struct seccomp_data)`. -/
def seccompDataLen : UInt32 := 64

/-! ## Programs -/

structure Program where
  insns : List SockFilter
  deriving DecidableEq, Repr

namespace Program

def len (p : Program) : Nat := p.insns.length

/-- The jump check of `validate`, from position `index` on.  Both offsets of every word of the
jump class have to stay inside the program. -/
def checkJumps (length : Nat) : Nat → List SockFilter → Except SeccompError Unit
  | _, [] => .ok ()
  | index, insn :: rest =>
    if insn.code.toUInt32 &&& 0x07 ≠ bpfJmp then checkJumps length (index + 1) rest
    else if length ≤ index + 1 + insn.jt.toNat then
      .error (.jumpOutOfRange index (index + 1 + insn.jt.toNat))
    else if length ≤ index + 1 + insn.jf.toNat then
      .error (.jumpOutOfRange index (index + 1 + insn.jf.toNat))
    else checkJumps length (index + 1) rest

/-- `Program::validate`. -/
def validate (p : Program) : Except SeccompError Unit :=
  match p.insns.getLast? with
  | none => .error .emptyProgram
  | some last =>
    if maxBpfInsns < p.insns.length then .error (.programTooLong p.insns.length maxBpfInsns)
    else if last.code.toUInt32 &&& bpfRetK ≠ bpfRetK then .error .programDoesNotEndInReturn
    else checkJumps p.insns.length 0 p.insns

/-- The kernel runs the program on one system call. -/
def run (p : Program) (d : SeccompData) : Outcome :=
  ClassicBpf.run d.load seccompDataLen p.insns

end Program

/-! ## The builder -/

structure FilterBuilder where
  insns : List SockFilter := []
  deriving DecidableEq, Repr

namespace FilterBuilder

def new : FilterBuilder := {}

def push (b : FilterBuilder) (i : SockFilter) : FilterBuilder := ⟨b.insns ++ [i]⟩

/-- Loads `seccomp_data.arch` into the accumulator. -/
def loadArch (b : FilterBuilder) : FilterBuilder := b.push (stmt bpfLdWAbs seccompDataArchOffset)

/-- Loads `seccomp_data.nr` into the accumulator. -/
def loadSyscallNr (b : FilterBuilder) : FilterBuilder :=
  b.push (stmt bpfLdWAbs seccompDataNrOffset)

def ret (b : FilterBuilder) (action : UInt32) : FilterBuilder := b.push (stmt bpfRetK action)

/-- `accumulator == k` returns `action`, otherwise execution falls through. -/
def jeqThenRet (b : FilterBuilder) (k action : UInt32) : FilterBuilder :=
  (b.push (jump bpfJeqK k 0 1)).ret action

/-- `accumulator != k` returns `action`, otherwise execution falls through. -/
def jneThenRet (b : FilterBuilder) (k action : UInt32) : FilterBuilder :=
  (b.push (jump bpfJeqK k 1 0)).ret action

/-- `accumulator >= k` returns `action`, otherwise execution falls through. -/
def jgeThenRet (b : FilterBuilder) (k action : UInt32) : FilterBuilder :=
  (b.push (jump bpfJgeK k 0 1)).ret action

def len (b : FilterBuilder) : Nat := b.insns.length

def build (b : FilterBuilder) : Except SeccompError Program :=
  let program : Program := ⟨b.insns⟩
  match program.validate with
  | .error e => .error e
  | .ok () => .ok program

end FilterBuilder

/-! ## A chain of calls and its meaning -/

/-- A call on a builder. -/
inductive Call
  | loadArch
  | loadSyscallNr
  | jeqThenRet (k action : UInt32)
  | jneThenRet (k action : UInt32)
  | jgeThenRet (k action : UInt32)
  | ret (action : UInt32)
  deriving DecidableEq, Repr

namespace Call

/-- Make the call. -/
def apply (b : FilterBuilder) : Call → FilterBuilder
  | loadArch => b.loadArch
  | loadSyscallNr => b.loadSyscallNr
  | jeqThenRet k action => b.jeqThenRet k action
  | jneThenRet k action => b.jneThenRet k action
  | jgeThenRet k action => b.jgeThenRet k action
  | ret action => b.ret action

/-- The words the call appends. -/
def emit : Call → List SockFilter
  | loadArch => [stmt bpfLdWAbs seccompDataArchOffset]
  | loadSyscallNr => [stmt bpfLdWAbs seccompDataNrOffset]
  | jeqThenRet k action => [jump bpfJeqK k 0 1, stmt bpfRetK action]
  | jneThenRet k action => [jump bpfJeqK k 1 0, stmt bpfRetK action]
  | jgeThenRet k action => [jump bpfJgeK k 0 1, stmt bpfRetK action]
  | ret action => [stmt bpfRetK action]

theorem apply_insns (b : FilterBuilder) (c : Call) : (c.apply b).insns = b.insns ++ c.emit := by
  cases c <;> simp [apply, emit, FilterBuilder.loadArch, FilterBuilder.loadSyscallNr,
    FilterBuilder.jeqThenRet, FilterBuilder.jneThenRet, FilterBuilder.jgeThenRet,
    FilterBuilder.ret, FilterBuilder.push]

end Call

/-- The builder after a chain of calls. -/
def applyCalls (b : FilterBuilder) (calls : List Call) : FilterBuilder :=
  calls.foldl Call.apply b

theorem applyCalls_insns (b : FilterBuilder) (calls : List Call) :
    (applyCalls b calls).insns = b.insns ++ calls.flatMap Call.emit := by
  induction calls generalizing b with
  | nil => simp [applyCalls]
  | cons c calls ih =>
    rw [applyCalls, List.foldl_cons, ← applyCalls, ih, Call.apply_insns]
    simp

/-- What a chain of calls answers with the value `a` in the accumulator: the action of the first
call whose condition holds, or nothing if the chain runs out. -/
def verdict (d : SeccompData) : UInt32 → List Call → Option UInt32
  | _, [] => none
  | _, .loadArch :: calls => verdict d d.arch calls
  | _, .loadSyscallNr :: calls => verdict d d.nr calls
  | a, .jeqThenRet k action :: calls => if a = k then some action else verdict d a calls
  | a, .jneThenRet k action :: calls => if a ≠ k then some action else verdict d a calls
  | a, .jgeThenRet k action :: calls => if k ≤ a then some action else verdict d a calls
  | _, .ret action :: _ => some action

/-- **Running the emitted words gives the verdict.**  The induction is on the chain of calls; each
call is one or two machine steps, and its jump lands either on the return word it carries or right
behind it, at the words of the next call. -/
theorem resume_emit (d : SeccompData) (calls : List Call) (r : Regs) :
    resume d.load seccompDataLen (calls.flatMap Call.emit) r =
      (verdict d r.a calls).elim .pastEnd .ret := by
  induction calls generalizing r with
  | nil => rfl
  | cons c calls ih =>
    rw [List.flatMap_cons]
    cases c with
    | loadArch =>
      rw [Call.emit, List.singleton_append, resume_ldAbs (decode_ldWAbs _) (load_arch d), ih]
      rfl
    | loadSyscallNr =>
      rw [Call.emit, List.singleton_append, resume_ldAbs (decode_ldWAbs _) (load_nr d), ih]
      rfl
    | jeqThenRet k action =>
      rw [Call.emit, List.cons_append, resume_jmp (decode_jeqK _ _ _), verdict]
      by_cases h : r.a = k
      · rw [if_pos h, if_pos (by simpa [JmpOp.test] using h)]
        exact resume_retK (decode_retK _)
      · rw [if_neg h, if_neg (by simpa [JmpOp.test] using h)]
        exact ih r
    | jneThenRet k action =>
      rw [Call.emit, List.cons_append, resume_jmp (decode_jeqK _ _ _), verdict]
      by_cases h : r.a = k
      · rw [if_neg (not_not.mpr h), if_pos (by simpa [JmpOp.test] using h)]
        exact ih r
      · rw [if_pos h, if_neg (by simpa [JmpOp.test] using h)]
        exact resume_retK (decode_retK _)
    | jgeThenRet k action =>
      rw [Call.emit, List.cons_append, resume_jmp (decode_jgeK _ _ _), verdict]
      by_cases h : k ≤ r.a
      · rw [if_pos h, if_pos (by simpa [JmpOp.test] using h)]
        exact resume_retK (decode_retK _)
      · rw [if_neg h, if_neg (by simpa [JmpOp.test] using h)]
        exact ih r
    | ret action => exact resume_retK (decode_retK _)

theorem run_applyCalls (d : SeccompData) (calls : List Call) :
    Program.run ⟨(applyCalls FilterBuilder.new calls).insns⟩ d =
      (verdict d 0 calls).elim .pastEnd .ret := by
  rw [Program.run, applyCalls_insns]
  exact resume_emit d calls {}

/-! ## Chains that validate -/

/-- The jump check steps over a word that is not of the jump class. -/
theorem checkJumps_stmt {length index : Nat} {code k : UInt32} {rest : List SockFilter}
    (h : code.toUInt16.toUInt32 &&& 0x07 ≠ bpfJmp) :
    Program.checkJumps length index (stmt code k :: rest) =
      Program.checkJumps length (index + 1) rest :=
  if_pos h

/-- The jump check passes a comparison whose offsets are at most 1, two words before the end. -/
theorem checkJumps_jump {length index : Nat} {code k : UInt32} {jt jf : UInt8}
    {rest : List SockFilter} (ht : jt.toNat ≤ 1) (hf : jf.toNat ≤ 1) (h : index + 2 < length) :
    Program.checkJumps length index (jump code k jt jf :: rest) =
      Program.checkJumps length (index + 1) rest := by
  have hjt : ¬ length ≤ index + 1 + (jump code k jt jf).jt.toNat := by simp only [jump]; omega
  have hjf : ¬ length ≤ index + 1 + (jump code k jt jf).jf.toNat := by simp only [jump]; omega
  rw [Program.checkJumps, if_neg hjt, if_neg hjf, ite_self]

/-- The words of one call pass the jump check, as long as at least one more word follows them. -/
theorem checkJumps_emit {length index : Nat} (c : Call) (tail : List SockFilter)
    (h : index + c.emit.length < length) :
    Program.checkJumps length index (c.emit ++ tail) =
      Program.checkJumps length (index + c.emit.length) tail := by
  cases c with
  | loadArch | loadSyscallNr | ret => exact checkJumps_stmt (by decide)
  | jeqThenRet | jneThenRet | jgeThenRet =>
    exact (checkJumps_jump (by decide) (by decide) h).trans (checkJumps_stmt (by decide))

theorem checkJumps_flatMap {length index : Nat} (calls : List Call) (tail : List SockFilter)
    (h : index + (calls.flatMap Call.emit).length < length) :
    Program.checkJumps length index (calls.flatMap Call.emit ++ tail) =
      Program.checkJumps length (index + (calls.flatMap Call.emit).length) tail := by
  induction calls generalizing index with
  | nil => rfl
  | cons c calls ih =>
    rw [List.flatMap_cons, List.length_append] at h
    rw [List.flatMap_cons, List.append_assoc, checkJumps_emit c _ (by omega), ih (by omega),
      List.length_append, Nat.add_assoc]

theorem applyCalls_len (calls : List Call) :
    (applyCalls FilterBuilder.new calls).len = (calls.flatMap Call.emit).length := by
  rw [FilterBuilder.len, applyCalls_insns]
  rfl

/-- **A chain that ends in a plain return builds exactly when it is short enough**, and then into
the words it emitted. -/
theorem build_applyCalls_ret (calls : List Call) (action : UInt32) :
    ((applyCalls FilterBuilder.new calls).ret action).build =
      if (applyCalls FilterBuilder.new calls).len + 1 ≤ maxBpfInsns then
        .ok ⟨(applyCalls FilterBuilder.new (calls ++ [.ret action])).insns⟩
      else .error (.programTooLong ((applyCalls FilterBuilder.new calls).len + 1) maxBpfInsns) := by
  have hwords : ((applyCalls FilterBuilder.new calls).ret action).insns =
      calls.flatMap Call.emit ++ [stmt bpfRetK action] := by
    rw [FilterBuilder.ret, FilterBuilder.push, applyCalls_insns]
    rfl
  have hinsns : (applyCalls FilterBuilder.new (calls ++ [.ret action])).insns =
      calls.flatMap Call.emit ++ [stmt bpfRetK action] := by
    rw [applyCalls_insns, List.flatMap_append]
    rfl
  rw [FilterBuilder.build, hwords, hinsns, applyCalls_len]
  simp only [Program.validate, List.getLast?_append, List.getLast?_singleton, Option.some_or]
  by_cases hlen : (calls.flatMap Call.emit).length + 1 ≤ maxBpfInsns
  · have hlast : ¬ ((stmt bpfRetK action).code.toUInt32 &&& bpfRetK ≠ bpfRetK) :=
      not_not.mpr (show bpfRetK.toUInt16.toUInt32 &&& bpfRetK = bpfRetK by decide)
    rw [if_neg (by simpa using hlen), if_neg hlast, if_pos hlen, List.length_append,
      List.length_singleton, checkJumps_flatMap calls _ (by omega), checkJumps_stmt (by decide)]
    rfl
  · rw [if_pos (by simpa using hlen), if_neg hlen]
    simp

end CrunRs.Seccomp
