import Mathlib.Data.List.Basic

/-!
# Classic BPF

A filter handed to the kernel is a list of `sock_filter` words, and this file says what running
one means.  It knows nothing about who built the filter: the data it inspects is reached through
a parameter `load`, which answers a word load at an offset or refuses it.

The machine has an accumulator, an index register and sixteen scratch words.  Jumps only ever go
forward, by an offset counted from the *next* instruction, so a position in the program can be
kept as the list of instructions still ahead: falling through is dropping nothing, and a jump by
`n` is `List.drop n`.  `exec` recurses on a fuel argument, and since every step consumes at least
one instruction the length of the program is always enough (`exec_eq_of_le`).  Everything after
that is phrased with `resume`, which has no fuel in it.

* `SockFilter.decode` reads an instruction word; a word the machine does not know is a `fault`.
* `Insn.step` is one instruction: it either halts with an `Outcome` or goes on somewhere ahead.
* `resume_cons` unfolds one step, and the `resume_…` lemmas below it are the cases a filter
  builder needs.
* `steps` is how many instructions the same run executes, with the same lemmas.
* `Returns` says that every path comes to a return, whatever the registers hold; it does if control
  only ever comes to instructions (`returns_iff`), and then no run goes past the end.
-/

set_option autoImplicit false

namespace ClassicBpf

/-! ## Instructions -/

/-- One instruction word, `struct sock_filter`. -/
structure SockFilter where
  code : UInt16
  jt : UInt8
  jf : UInt8
  k : UInt32
  deriving DecidableEq, Repr

/-- The right operand of an arithmetic or comparison instruction. -/
inductive Src
  | imm
  | index
  deriving DecidableEq, Repr

inductive AluOp
  | add | sub | mul | div | or | and | lsh | rsh | mod | xor
  deriving DecidableEq, Repr

inductive JmpOp
  | jeq | jgt | jge | jset
  deriving DecidableEq, Repr

/-- A decoded instruction. -/
inductive Insn
  | ldAbs (off : UInt32)
  | ldLen
  | ldxLen
  | ldImm (k : UInt32)
  | ldxImm (k : UInt32)
  | ldMem (k : UInt32)
  | ldxMem (k : UInt32)
  | st (k : UInt32)
  | stx (k : UInt32)
  | alu (op : AluOp) (src : Src) (k : UInt32)
  | neg
  | ja (k : UInt32)
  | jmp (op : JmpOp) (src : Src) (k : UInt32) (jt jf : UInt8)
  | retK (k : UInt32)
  | retA
  | tax
  | txa
  deriving DecidableEq, Repr

/-- The opcodes of the machine.  The low three bits are the class — load, index load, store, index
store, arithmetic, jump, return, transfer — and the rest select the operation inside it. -/
def SockFilter.decode (i : SockFilter) : Option Insn :=
  match i.code.toNat with
  | 0x20 => some (.ldAbs i.k)
  | 0x80 => some .ldLen
  | 0x81 => some .ldxLen
  | 0x00 => some (.ldImm i.k)
  | 0x01 => some (.ldxImm i.k)
  | 0x60 => some (.ldMem i.k)
  | 0x61 => some (.ldxMem i.k)
  | 0x02 => some (.st i.k)
  | 0x03 => some (.stx i.k)
  | 0x04 => some (.alu .add .imm i.k)
  | 0x0c => some (.alu .add .index i.k)
  | 0x14 => some (.alu .sub .imm i.k)
  | 0x1c => some (.alu .sub .index i.k)
  | 0x24 => some (.alu .mul .imm i.k)
  | 0x2c => some (.alu .mul .index i.k)
  | 0x34 => some (.alu .div .imm i.k)
  | 0x3c => some (.alu .div .index i.k)
  | 0x44 => some (.alu .or .imm i.k)
  | 0x4c => some (.alu .or .index i.k)
  | 0x54 => some (.alu .and .imm i.k)
  | 0x5c => some (.alu .and .index i.k)
  | 0x64 => some (.alu .lsh .imm i.k)
  | 0x6c => some (.alu .lsh .index i.k)
  | 0x74 => some (.alu .rsh .imm i.k)
  | 0x7c => some (.alu .rsh .index i.k)
  | 0x84 => some .neg
  | 0x94 => some (.alu .mod .imm i.k)
  | 0x9c => some (.alu .mod .index i.k)
  | 0xa4 => some (.alu .xor .imm i.k)
  | 0xac => some (.alu .xor .index i.k)
  | 0x05 => some (.ja i.k)
  | 0x15 => some (.jmp .jeq .imm i.k i.jt i.jf)
  | 0x1d => some (.jmp .jeq .index i.k i.jt i.jf)
  | 0x25 => some (.jmp .jgt .imm i.k i.jt i.jf)
  | 0x2d => some (.jmp .jgt .index i.k i.jt i.jf)
  | 0x35 => some (.jmp .jge .imm i.k i.jt i.jf)
  | 0x3d => some (.jmp .jge .index i.k i.jt i.jf)
  | 0x45 => some (.jmp .jset .imm i.k i.jt i.jf)
  | 0x4d => some (.jmp .jset .index i.k i.jt i.jf)
  | 0x06 => some (.retK i.k)
  | 0x16 => some .retA
  | 0x07 => some .tax
  | 0x87 => some .txa
  | _ => none

/-! ## The machine -/

/-- Accumulator, index register and scratch memory, all zero at the start. -/
structure Regs where
  a : UInt32 := 0
  x : UInt32 := 0
  mem : Fin 16 → UInt32 := fun _ ↦ 0

/-- How a run ends: with a returned value, by running past the last instruction, or on a word that
is not an instruction or a load that is refused. -/
inductive Outcome
  | ret (value : UInt32)
  | pastEnd
  | fault
  deriving DecidableEq, Repr

/-- What one instruction does. -/
inductive StepResult
  | halt (out : Outcome)
  | goto (off : Nat) (regs : Regs)

def AluOp.eval : AluOp → UInt32 → UInt32 → Option UInt32
  | .add, a, b => some (a + b)
  | .sub, a, b => some (a - b)
  | .mul, a, b => some (a * b)
  -- a division by zero ends the program with verdict 0
  | .div, a, b => if b = 0 then none else some (a / b)
  | .or, a, b => some (a ||| b)
  | .and, a, b => some (a &&& b)
  | .lsh, a, b => some (a <<< b)
  | .rsh, a, b => some (a >>> b)
  | .mod, a, b => if b = 0 then none else some (a % b)
  | .xor, a, b => some (a ^^^ b)

def JmpOp.test : JmpOp → UInt32 → UInt32 → Bool
  | .jeq, a, b => a == b
  | .jgt, a, b => decide (b < a)
  | .jge, a, b => decide (b ≤ a)
  | .jset, a, b => a &&& b != 0

def Src.value : Src → UInt32 → Regs → UInt32
  | .imm, k, _ => k
  | .index, _, r => r.x

/-- The scratch word an instruction names, if there is one. -/
def slot (k : UInt32) : Option (Fin 16) :=
  if h : k.toNat < 16 then some ⟨k.toNat, h⟩ else none

/-- One instruction.  `load` answers an absolute word load and `len` is the length of the data. -/
def Insn.step (load : UInt32 → Option UInt32) (len : UInt32) (r : Regs) : Insn → StepResult
  | .ldAbs off => match load off with
    | some v => .goto 0 { r with a := v }
    | none => .halt .fault
  | .ldLen => .goto 0 { r with a := len }
  | .ldxLen => .goto 0 { r with x := len }
  | .ldImm k => .goto 0 { r with a := k }
  | .ldxImm k => .goto 0 { r with x := k }
  | .ldMem k => match slot k with
    | some i => .goto 0 { r with a := r.mem i }
    | none => .halt .fault
  | .ldxMem k => match slot k with
    | some i => .goto 0 { r with x := r.mem i }
    | none => .halt .fault
  | .st k => match slot k with
    | some i => .goto 0 { r with mem := fun j ↦ if j = i then r.a else r.mem j }
    | none => .halt .fault
  | .stx k => match slot k with
    | some i => .goto 0 { r with mem := fun j ↦ if j = i then r.x else r.mem j }
    | none => .halt .fault
  | .alu op src k => match op.eval r.a (src.value k r) with
    | some v => .goto 0 { r with a := v }
    | none => .halt (.ret 0)
  | .neg => .goto 0 { r with a := 0 - r.a }
  | .ja k => .goto k.toNat r
  | .jmp op src k jt jf => .goto (if op.test r.a (src.value k r) then jt.toNat else jf.toNat) r
  | .retK k => .halt (.ret k)
  | .retA => .halt (.ret r.a)
  | .tax => .goto 0 { r with x := r.a }
  | .txa => .goto 0 { r with a := r.x }

variable (load : UInt32 → Option UInt32) (len : UInt32)

/-- Run the instructions still ahead, with a bound on the number of steps. -/
def exec : Nat → List SockFilter → Regs → Outcome
  | 0, _, _ => .pastEnd
  | _ + 1, [], _ => .pastEnd
  | n + 1, i :: rest, r => match i.decode with
    | none => .fault
    | some insn => match insn.step load len r with
      | .halt out => out
      | .goto off r' => exec n (rest.drop off) r'

/-- Run the instructions still ahead from the registers `r`. -/
def resume (prog : List SockFilter) (r : Regs) : Outcome :=
  exec load len prog.length prog r

/-- Run a whole program. -/
def run (prog : List SockFilter) : Outcome :=
  resume load len prog {}

/-! ## Fuel -/

/-- **The length of the program is enough fuel.**  Any larger bound gives the same answer. -/
theorem exec_eq_of_le {n m : Nat} {prog : List SockFilter} {r : Regs}
    (hn : prog.length ≤ n) (hm : prog.length ≤ m) :
    exec load len n prog r = exec load len m prog r := by
  induction n generalizing m prog r with
  | zero =>
    obtain rfl : prog = [] := List.length_eq_zero_iff.mp (Nat.le_zero.mp hn)
    cases m <;> rfl
  | succ n ih =>
    cases prog with
    | nil => cases m <;> rfl
    | cons i rest =>
      cases m with
      | zero => exact absurd hm (by simp)
      | succ m =>
        rw [exec, exec]
        cases i.decode with
        | none => rfl
        | some insn =>
          dsimp only
          cases insn.step load len r with
          | halt out => rfl
          | goto off r' =>
            -- a jump leaves at most `rest`, which both bounds still cover
            have hd : (rest.drop off).length ≤ rest.length := by
              rw [List.length_drop]; exact Nat.sub_le _ _
            simp only [List.length_cons] at hn hm
            exact ih (by omega) (by omega)

/-- One step of `resume`. -/
theorem resume_cons (i : SockFilter) (rest : List SockFilter) (r : Regs) :
    resume load len (i :: rest) r = match i.decode with
      | none => .fault
      | some insn => match insn.step load len r with
        | .halt out => out
        | .goto off r' => resume load len (rest.drop off) r' := by
  rw [resume, List.length_cons, exec]
  cases i.decode with
  | none => rfl
  | some insn =>
    dsimp only
    cases insn.step load len r with
    | halt out => rfl
    | goto off r' =>
      exact exec_eq_of_le load len (by rw [List.length_drop]; exact Nat.sub_le _ _) (Nat.le_refl _)

/-! ## The instructions a filter builder emits -/

variable {load len}

theorem resume_ldAbs {i : SockFilter} {rest : List SockFilter} {r : Regs} {off v : UInt32}
    (hi : i.decode = some (.ldAbs off)) (hv : load off = some v) :
    resume load len (i :: rest) r = resume load len rest { r with a := v } := by
  rw [resume_cons, hi]
  simp only [Insn.step, hv, List.drop_zero]

theorem resume_retK {i : SockFilter} {rest : List SockFilter} {r : Regs} {k : UInt32}
    (hi : i.decode = some (.retK k)) : resume load len (i :: rest) r = .ret k := by
  rw [resume_cons, hi]
  rfl

theorem resume_jmp {i : SockFilter} {rest : List SockFilter} {r : Regs} {op : JmpOp} {k : UInt32}
    {jt jf : UInt8} (hi : i.decode = some (.jmp op .imm k jt jf)) :
    resume load len (i :: rest) r =
      resume load len (rest.drop (if op.test r.a k then jt.toNat else jf.toNat)) r := by
  rw [resume_cons, hi]
  rfl

/-! ## How long a run is -/

variable (load len)

/-- The instructions that are executed, the one that ends the run included, with a bound on their
number. -/
def execSteps : Nat → List SockFilter → Regs → Nat
  | 0, _, _ => 0
  | _ + 1, [], _ => 0
  | n + 1, i :: rest, r => match i.decode with
    | none => 1
    | some insn => match insn.step load len r with
      | .halt _ => 1
      | .goto off r' => execSteps n (rest.drop off) r' + 1

/-- The instructions that are executed from the registers `r` on. -/
def steps (prog : List SockFilter) (r : Regs) : Nat :=
  execSteps load len prog.length prog r

theorem execSteps_eq_of_le {n m : Nat} {prog : List SockFilter} {r : Regs}
    (hn : prog.length ≤ n) (hm : prog.length ≤ m) :
    execSteps load len n prog r = execSteps load len m prog r := by
  induction n generalizing m prog r with
  | zero =>
    obtain rfl : prog = [] := List.length_eq_zero_iff.mp (Nat.le_zero.mp hn)
    cases m <;> rfl
  | succ n ih =>
    cases prog with
    | nil => cases m <;> rfl
    | cons i rest =>
      cases m with
      | zero => exact absurd hm (by simp)
      | succ m =>
        rw [execSteps, execSteps]
        cases i.decode with
        | none => rfl
        | some insn =>
          dsimp only
          cases insn.step load len r with
          | halt out => rfl
          | goto off r' =>
            have hd : (rest.drop off).length ≤ rest.length := by
              rw [List.length_drop]; exact Nat.sub_le _ _
            simp only [List.length_cons] at hn hm
            exact congrArg Nat.succ (ih (by omega) (by omega))

theorem steps_cons (i : SockFilter) (rest : List SockFilter) (r : Regs) :
    steps load len (i :: rest) r = match i.decode with
      | none => 1
      | some insn => match insn.step load len r with
        | .halt _ => 1
        | .goto off r' => steps load len (rest.drop off) r' + 1 := by
  rw [steps, List.length_cons, execSteps]
  cases i.decode with
  | none => rfl
  | some insn =>
    dsimp only
    cases insn.step load len r with
    | halt out => rfl
    | goto off r' =>
      refine congrArg Nat.succ (execSteps_eq_of_le load len ?_ (Nat.le_refl _))
      rw [List.length_drop]
      exact Nat.sub_le _ _

variable {load len}

theorem steps_ldAbs {i : SockFilter} {rest : List SockFilter} {r : Regs} {off v : UInt32}
    (hi : i.decode = some (.ldAbs off)) (hv : load off = some v) :
    steps load len (i :: rest) r = steps load len rest { r with a := v } + 1 := by
  rw [steps_cons, hi]
  simp only [Insn.step, hv, List.drop_zero]

theorem steps_retK {i : SockFilter} {rest : List SockFilter} {r : Regs} {k : UInt32}
    (hi : i.decode = some (.retK k)) : steps load len (i :: rest) r = 1 := by
  rw [steps_cons, hi]
  rfl

theorem steps_jmp {i : SockFilter} {rest : List SockFilter} {r : Regs} {op : JmpOp} {k : UInt32}
    {jt jf : UInt8} (hi : i.decode = some (.jmp op .imm k jt jf)) :
    steps load len (i :: rest) r =
      steps load len (rest.drop (if op.test r.a k then jt.toNat else jf.toNat)) r + 1 := by
  rw [steps_cons, hi]
  rfl

/-! ## Control flow -/

def Insn.isReturn : Insn → Bool
  | .retK _ | .retA => true
  | _ => false

/-- The offsets at which a run can go on, whatever the registers hold. -/
def Insn.successors : Insn → List Nat
  | .ja k => [k.toNat]
  | .jmp _ _ _ jt jf => [jt.toNat, jf.toNat]
  | .retK _ | .retA => []
  | _ => [0]

/-- The instructions that are ahead when control comes to some point of a program. -/
inductive Reached (prog : List SockFilter) : List SockFilter → Prop
  | start : Reached prog prog
  | step {i : SockFilter} {rest : List SockFilter} {insn : Insn} {off : Nat} :
      Reached prog (i :: rest) → i.decode = some insn → off ∈ insn.successors →
        Reached prog (rest.drop off)

/-- Every path from here comes to a return. -/
inductive Returns : List SockFilter → Prop
  | ret {i : SockFilter} {rest : List SockFilter} {insn : Insn} :
      i.decode = some insn → insn.isReturn → Returns (i :: rest)
  | step {i : SockFilter} {rest : List SockFilter} {insn : Insn} :
      i.decode = some insn → insn.isReturn = false →
        (∀ off ∈ insn.successors, Returns (rest.drop off)) → Returns (i :: rest)

theorem Insn.successors_of_isReturn {insn : Insn} (h : insn.isReturn) : insn.successors = [] := by
  cases insn with
  | retK | retA => rfl
  | _ => cases h

theorem Insn.exists_successor {insn : Insn} (h : insn.isReturn = false) :
    ∃ off, off ∈ insn.successors := by
  cases insn with
  | retK | retA => cases h
  | _ => exact ⟨_, List.mem_cons_self⟩

theorem Insn.mem_successors {load : UInt32 → Option UInt32} {len : UInt32} {r r' : Regs}
    {insn : Insn} {off : Nat} (h : insn.step load len r = .goto off r') : off ∈ insn.successors := by
  cases insn with
  | retK | retA => cases h
  | ja =>
    obtain ⟨rfl, -⟩ := StepResult.goto.inj h
    exact List.mem_singleton_self _
  | jmp op src k jt jf =>
    obtain ⟨hoff, -⟩ := StepResult.goto.inj h
    refine List.mem_pair.mpr ?_
    split at hoff
    · exact Or.inl hoff.symm
    · exact Or.inr hoff.symm
  | ldLen | ldxLen | ldImm | ldxImm | neg | tax | txa =>
    obtain ⟨rfl, -⟩ := StepResult.goto.inj h
    exact List.mem_singleton_self _
  | ldAbs | ldMem | ldxMem | st | stx | alu =>
    rw [step] at h
    split at h
    · obtain ⟨rfl, -⟩ := StepResult.goto.inj h
      exact List.mem_singleton_self _
    · cases h

/-- An instruction does not run past the end by itself. -/
theorem Insn.step_ne_pastEnd {load : UInt32 → Option UInt32} {len : UInt32} {r : Regs}
    {insn : Insn} : insn.step load len r ≠ .halt .pastEnd := by
  intro h
  cases insn with
  | retK | retA | ja | jmp | ldLen | ldxLen | ldImm | ldxImm | neg | tax | txa => cases h
  | ldAbs | ldMem | ldxMem | st | stx | alu =>
    rw [step] at h
    split at h <;> cases h

theorem Reached.trans {prog mid ahead : List SockFilter} (hmid : Reached prog mid)
    (h : Reached mid ahead) : Reached prog ahead := by
  induction h with
  | start => exact hmid
  | step _ hdecode hoff ih => exact ih.step hdecode hoff

theorem Reached.suffix {prog ahead : List SockFilter} (h : Reached prog ahead) : ahead <:+ prog := by
  induction h with
  | start => exact List.suffix_refl _
  | step _ _ _ ih => exact (List.drop_suffix _ _).trans ((List.suffix_cons _ _).trans ih)

theorem Returns.of_reached {prog ahead : List SockFilter} (h : Returns prog)
    (hahead : Reached prog ahead) : Returns ahead := by
  induction hahead with
  | start => exact h
  | step _ hdecode hoff ih =>
    cases ih with
    | ret hdecode' hret =>
      rw [hdecode] at hdecode'
      rw [Option.some.inj hdecode', Insn.successors_of_isReturn hret] at hoff
      cases hoff
    | step hdecode' _ hsucc =>
      rw [hdecode] at hdecode'
      exact hsucc _ (Option.some.inj hdecode' ▸ hoff)

/-- **Every path comes to a return if control only ever comes to instructions.**  Jumps go forward,
so a path cannot go on forever. -/
theorem returns_iff {prog : List SockFilter} :
    Returns prog ↔ ∀ ahead, Reached prog ahead →
      ∃ i rest insn, ahead = i :: rest ∧ i.decode = some insn := by
  constructor
  · intro h ahead hahead
    cases h.of_reached hahead with
    | ret hdecode _ => exact ⟨_, _, _, rfl, hdecode⟩
    | step hdecode _ _ => exact ⟨_, _, _, rfl, hdecode⟩
  · intro h
    induction hn : prog.length using Nat.strongRecOn generalizing prog with
    | ind n ih =>
      obtain ⟨i, rest, insn, rfl, hdecode⟩ := h prog .start
      cases hret : insn.isReturn with
      | true => exact .ret hdecode hret
      | false =>
        refine .step hdecode hret fun off hoff ↦ ih (rest.drop off).length ?_ ?_ rfl
        · rw [← hn, List.length_drop, List.length_cons]
          omega
        · exact fun ahead hahead ↦ h ahead ((Reached.start.step hdecode hoff).trans hahead)

theorem resume_ne_pastEnd_of_successors {load : UInt32 → Option UInt32} {len : UInt32}
    {i : SockFilter} {rest : List SockFilter} {insn : Insn} (hdecode : i.decode = some insn)
    (h : ∀ off ∈ insn.successors, ∀ r, resume load len (rest.drop off) r ≠ .pastEnd) (r : Regs) :
    resume load len (i :: rest) r ≠ .pastEnd := by
  rw [resume_cons, hdecode]
  cases hstep : insn.step load len r with
  | halt out =>
    simp only [hstep]
    rintro rfl
    exact Insn.step_ne_pastEnd hstep
  | goto off r' =>
    simp only [hstep]
    exact h off (Insn.mem_successors hstep) r'

/-- **A run of such a program does not run past its end.** -/
theorem Returns.resume_ne_pastEnd {prog : List SockFilter} (h : Returns prog)
    (load : UInt32 → Option UInt32) (len : UInt32) (r : Regs) :
    resume load len prog r ≠ .pastEnd := by
  induction h generalizing r with
  | ret hdecode hret =>
    refine resume_ne_pastEnd_of_successors hdecode (fun off hoff ↦ ?_) r
    rw [Insn.successors_of_isReturn hret] at hoff
    cases hoff
  | step hdecode _ _ ih => exact resume_ne_pastEnd_of_successors hdecode ih r

end ClassicBpf
