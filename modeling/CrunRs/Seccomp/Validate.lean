import CrunRs.Seccomp.Bpf

/-!
# What a validated program promises

`Program::validate` and the builder in front of it.

A chain of calls builds exactly if it ends in a plain return and is short enough, and the program
then answers with the first call whose guard holds (`build_applyCalls_iff`).

For a program that comes from elsewhere `validate` promises less than that no run goes past the end:
its mask takes the words of the class behind that of the returns for returns, and the offset of an
unconditional jump is never looked at.  `returns_iff_of_validate` says what is left to check.
-/

set_option autoImplicit false

namespace CrunRs.Seccomp

open ClassicBpf

/-! ## What is accepted -/

/-- What holds behind every position holds at the first one and behind those of the rest. -/
theorem forall_suffix_cons_iff {insn : SockFilter} {insns : List SockFilter}
    {P : SockFilter → List SockFilter → Prop} :
    (∀ i rest, i :: rest <:+ insn :: insns → P i rest) ↔
      P insn insns ∧ ∀ i rest, i :: rest <:+ insns → P i rest := by
  constructor
  · intro h
    exact ⟨h _ _ (List.suffix_refl _),
      fun i rest hsuffix ↦ h i rest (hsuffix.trans (List.suffix_cons _ _))⟩
  · rintro ⟨hhead, htail⟩ i rest hsuffix
    rcases List.suffix_cons_iff.mp hsuffix with heq | hsuffix
    · obtain ⟨rfl, rfl⟩ := List.cons.inj heq
      exact hhead
    · exact htail i rest hsuffix

theorem checkJumps_eq_ok_iff {length index : Nat} {insns : List SockFilter}
    (hlength : index + insns.length = length) :
    Program.checkJumps length index insns = .ok () ↔
      ∀ i rest, i :: rest <:+ insns → i.code.toUInt32 &&& 0x07 = bpfJmp →
        i.jt.toNat < rest.length ∧ i.jf.toNat < rest.length := by
  induction insns generalizing index with
  | nil => simp [Program.checkJumps]
  | cons insn insns ih =>
    rw [List.length_cons] at hlength
    have hrest := ih (show index + 1 + insns.length = length by omega)
    rw [forall_suffix_cons_iff, ← hrest, Program.checkJumps]
    split_ifs with hclass hjt hjf
    · exact ⟨fun h ↦ ⟨fun hjmp ↦ absurd hjmp hclass, h⟩, fun h ↦ h.2⟩
    · refine iff_of_false (by simp) fun h ↦ ?_
      have := (h.1 (not_not.mp hclass)).1
      omega
    · refine iff_of_false (by simp) fun h ↦ ?_
      have := (h.1 (not_not.mp hclass)).2
      omega
    · exact ⟨fun h ↦ ⟨fun _ ↦ ⟨by omega, by omega⟩, h⟩, fun h ↦ h.2⟩

/-- What `validate` looks at. -/
structure Program.Accepted (p : Program) : Prop where
  length : p.insns.length ≤ maxBpfInsns
  last : ∃ last ∈ p.insns.getLast?, last.code.toUInt32 &&& bpfRetK = bpfRetK
  jumps : ∀ i rest, i :: rest <:+ p.insns → i.code.toUInt32 &&& 0x07 = bpfJmp →
    i.jt.toNat < rest.length ∧ i.jf.toNat < rest.length

theorem Program.validate_eq_ok_iff {p : Program} : p.validate = .ok () ↔ p.Accepted := by
  have hjumps := @checkJumps_eq_ok_iff p.insns.length 0 p.insns (Nat.zero_add _)
  rw [validate]
  cases hlast : p.insns.getLast? with
  | none =>
    refine iff_of_false (by simp) fun h ↦ ?_
    obtain ⟨last, hmem, -⟩ := h.last
    rw [hlast] at hmem
    cases hmem
  | some last =>
    simp only
    split_ifs with hlength hret
    · exact iff_of_false (by simp) fun h ↦ absurd h.length (by omega)
    · refine iff_of_false (by simp) fun h ↦ ?_
      obtain ⟨last', hmem, hret'⟩ := h.last
      rw [hlast] at hmem
      obtain rfl := Option.some.inj hmem
      exact hret hret'
    · rw [hjumps]
      exact ⟨fun h ↦ ⟨by omega, ⟨last, hlast, not_not.mp hret⟩, h⟩, fun h ↦ h.jumps⟩

theorem FilterBuilder.build_eq_ok_iff {b : FilterBuilder} {p : Program} :
    b.build = .ok p ↔ p = ⟨b.insns⟩ ∧ p.Accepted := by
  rw [FilterBuilder.build]
  cases hvalid : Program.validate ⟨b.insns⟩ with
  | error e =>
    refine iff_of_false (by simp) ?_
    rintro ⟨rfl, h⟩
    rw [Program.validate_eq_ok_iff.mpr h] at hvalid
    cases hvalid
  | ok =>
    simp only [Except.ok.injEq]
    constructor
    · rintro rfl
      exact ⟨rfl, Program.validate_eq_ok_iff.mp hvalid⟩
    · exact fun h ↦ h.1.symm

/-! ## Chains of calls -/

namespace Call

/-- The accumulator behind a call that did not return. -/
def loads (d : SeccompData) (a : UInt32) : Call → UInt32
  | loadArch => d.arch
  | loadSyscallNr => d.nr
  | _ => a

/-- The action of a call whose guard holds for the value in the accumulator. -/
def answer (a : UInt32) : Call → Option UInt32
  | loadArch | loadSyscallNr => none
  | jeqThenRet k action => if a = k then some action else none
  | jneThenRet k action => if a ≠ k then some action else none
  | jgeThenRet k action => if k ≤ a then some action else none
  | ret action => some action

end Call

theorem verdict_cons (d : SeccompData) (a : UInt32) (call : Call) (calls : List Call) :
    verdict d a (call :: calls) = (call.answer a).or (verdict d (call.loads d a) calls) := by
  cases call with
  | loadArch | loadSyscallNr | ret => rfl
  | jeqThenRet | jneThenRet | jgeThenRet =>
    simp only [verdict, Call.answer]
    split_ifs <;> rfl

/-- The call at some position answers, with what was loaded on the way from `a`, and none in front of
it does. -/
def FirstAnswerFrom (d : SeccompData) (a : UInt32) (calls : List Call) (action : UInt32) : Prop :=
  ∃ n, ∃ call : Call, calls[n]? = some call ∧
    call.answer ((calls.take n).foldl (Call.loads d) a) = some action ∧
    ∀ m < n, ∀ skipped : Call, calls[m]? = some skipped →
      skipped.answer ((calls.take m).foldl (Call.loads d) a) = none

theorem firstAnswerFrom_cons_of_some {d : SeccompData} {a found action : UInt32} {call : Call}
    {calls : List Call} (hanswer : call.answer a = some found) :
    FirstAnswerFrom d a (call :: calls) action ↔ found = action := by
  constructor
  · rintro ⟨n, call', hcall, haction, hskipped⟩
    cases n with
    | zero =>
      obtain rfl := Option.some.inj hcall
      exact Option.some.inj (hanswer.symm.trans haction)
    | succ n =>
      have hnone := hskipped 0 (Nat.succ_pos n) call rfl
      rw [List.take_zero, List.foldl_nil, hanswer] at hnone
      cases hnone
  · rintro rfl
    exact ⟨0, call, rfl, hanswer, fun m hm ↦ absurd hm (Nat.not_lt_zero m)⟩

theorem firstAnswerFrom_cons_of_none {d : SeccompData} {a action : UInt32} {call : Call}
    {calls : List Call} (hanswer : call.answer a = none) :
    FirstAnswerFrom d a (call :: calls) action ↔ FirstAnswerFrom d (call.loads d a) calls action := by
  constructor
  · rintro ⟨n, call', hcall, haction, hskipped⟩
    cases n with
    | zero =>
      obtain rfl := Option.some.inj hcall
      rw [List.take_zero, List.foldl_nil, hanswer] at haction
      cases haction
    | succ n =>
      exact ⟨n, call', hcall, haction, fun m hm skipped hm' ↦
        hskipped (m + 1) (by omega) skipped hm'⟩
  · rintro ⟨n, call', hcall, haction, hskipped⟩
    refine ⟨n + 1, call', hcall, haction, fun m hm skipped hm' ↦ ?_⟩
    cases m with
    | zero =>
      obtain rfl := Option.some.inj hm'
      exact hanswer
    | succ m => exact hskipped m (by omega) skipped hm'

/-- The verdict is that of the first call whose guard holds. -/
theorem verdict_eq_some_iff {d : SeccompData} {a action : UInt32} {calls : List Call} :
    verdict d a calls = some action ↔ FirstAnswerFrom d a calls action := by
  induction calls generalizing a with
  | nil => simp [verdict, FirstAnswerFrom]
  | cons call calls ih =>
    rw [verdict_cons]
    cases hanswer : call.answer a with
    | some found =>
      rw [Option.some_or, Option.some.injEq, firstAnswerFrom_cons_of_some hanswer]
    | none => rw [Option.none_or, ih, firstAnswerFrom_cons_of_none hanswer]

/-- A chain that ends in a plain return always answers. -/
theorem exists_verdict (d : SeccompData) (a : UInt32) (calls : List Call) (action : UInt32) :
    ∃ found, verdict d a (calls ++ [.ret action]) = some found := by
  induction calls generalizing a with
  | nil => exact ⟨action, rfl⟩
  | cons call calls ih =>
    rw [List.cons_append, verdict_cons]
    cases call.answer a with
    | some found => exact ⟨found, rfl⟩
    | none => exact ih _

/-- The action of the first call, in order, whose guard holds for the value most recently loaded, or
zero before any load. -/
def FirstAnswer (d : SeccompData) (calls : List Call) (action : UInt32) : Prop :=
  FirstAnswerFrom d 0 calls action

/-- A chain that ends in anything but a plain return is refused: behind a load there is no return,
and a comparison would jump behind the return it carries. -/
theorem ret_of_accepted {calls : List Call} {call : Call}
    (h : Program.Accepted ⟨(applyCalls .new (calls ++ [call])).insns⟩) :
    ∃ action, call = .ret action := by
  have hinsns : (applyCalls .new (calls ++ [call])).insns = calls.flatMap Call.emit ++ call.emit := by
    rw [applyCalls_insns, List.flatMap_append, List.flatMap_singleton]
    rfl
  have hsuffix : call.emit <:+ (applyCalls .new (calls ++ [call])).insns :=
    hinsns ▸ List.suffix_append _ _
  have hjeq : bpfJeqK.toUInt16.toUInt32 &&& 0x07 = bpfJmp := by decide
  have hjge : bpfJgeK.toUInt16.toUInt32 &&& 0x07 = bpfJmp := by decide
  cases call with
  | ret action => exact ⟨action, rfl⟩
  | loadArch | loadSyscallNr =>
    obtain ⟨last, hlast, hret⟩ := h.last
    simp only [hinsns, Call.emit, List.getLast?_append, List.getLast?_singleton, Option.some_or]
      at hlast
    obtain rfl := Option.some.inj hlast
    exact absurd hret (by decide)
  | jeqThenRet k action => exact absurd (h.jumps _ _ hsuffix hjeq).2 (Nat.lt_irrefl 1)
  | jneThenRet k action => exact absurd (h.jumps _ _ hsuffix hjeq).1 (Nat.lt_irrefl 1)
  | jgeThenRet k action => exact absurd (h.jumps _ _ hsuffix hjge).2 (Nat.lt_irrefl 1)

/-- **A chain builds exactly if it ends in a plain return and is short enough, and then it answers
with the first call whose guard holds.** -/
theorem build_applyCalls_iff (calls : List Call) :
    ((∃ program, (applyCalls .new calls).build = .ok program) ↔
      calls ≠ [] ∧ (∃ action, calls.getLast? = some (.ret action)) ∧
        (applyCalls .new calls).len ≤ maxBpfInsns) ∧
    ∀ program, (applyCalls .new calls).build = .ok program →
      ∀ d, ∃ action, program.run d = .ret action ∧ FirstAnswer d calls action := by
  rcases List.eq_nil_or_concat calls with rfl | ⟨calls, call, rfl⟩
  · have hempty : (applyCalls .new []).build = .error .emptyProgram := rfl
    simp [hempty]
  rw [List.concat_eq_append]
  have hret : ∀ program, (applyCalls .new (calls ++ [call])).build = .ok program →
      program = ⟨(applyCalls .new (calls ++ [call])).insns⟩ ∧ ∃ action, call = .ret action := by
    intro program hbuild
    obtain ⟨rfl, haccepted⟩ := FilterBuilder.build_eq_ok_iff.mp hbuild
    exact ⟨rfl, ret_of_accepted haccepted⟩
  refine ⟨⟨?_, ?_⟩, ?_⟩
  · rintro ⟨program, hbuild⟩
    obtain ⟨-, action, rfl⟩ := hret program hbuild
    obtain ⟨rfl, haccepted⟩ := FilterBuilder.build_eq_ok_iff.mp hbuild
    exact ⟨by simp, ⟨action, List.getLast?_concat⟩, haccepted.length⟩
  · rintro ⟨-, ⟨action, hlast⟩, hlength⟩
    rw [List.getLast?_concat] at hlast
    obtain rfl := Option.some.inj hlast
    have happly : applyCalls .new (calls ++ [.ret action]) = (applyCalls .new calls).ret action :=
      List.foldl_append
    have hlen : (applyCalls .new (calls ++ [.ret action])).len = (applyCalls .new calls).len + 1 := by
      rw [happly]
      exact List.length_append
    exact ⟨_, by rw [happly, build_applyCalls_ret, if_pos (hlen ▸ hlength)]⟩
  · intro program hbuild d
    obtain ⟨rfl, action, rfl⟩ := hret program hbuild
    obtain ⟨found, hfound⟩ := exists_verdict d 0 calls action
    exact ⟨found, by rw [run_applyCalls, hfound]; rfl, verdict_eq_some_iff.mp hfound⟩

/-- A chain of three calls. -/
theorem build_three_calls :
    ∃ program, (applyCalls .new [.loadSyscallNr, .jeqThenRet 1 0, .ret 5]).build = .ok program ∧
      ∀ d, ∃ action, program.run d = .ret action ∧
        FirstAnswer d [.loadSyscallNr, .jeqThenRet 1 0, .ret 5] action := by
  have h := build_applyCalls_iff [.loadSyscallNr, .jeqThenRet 1 0, .ret 5]
  obtain ⟨program, hbuild⟩ := h.1.mpr ⟨by simp, ⟨5, rfl⟩, by decide⟩
  exact ⟨program, hbuild, h.2 program hbuild⟩

/-! ## Arbitrary programs -/

/-- What `validate` does not look at: control only comes to instructions, an unconditional jump it
comes to stays inside, and so does what it comes to at the end. -/
structure Program.Closed (p : Program) : Prop where
  decodes : ∀ i rest, Reached p.insns (i :: rest) → ∃ insn, i.decode = some insn
  ja : ∀ i rest k, Reached p.insns (i :: rest) → i.decode = some (.ja k) → k.toNat < rest.length
  last : ∀ i insn, Reached p.insns [i] → i.decode = some insn → insn.isReturn

/-- A conditional jump is one for the jump check. -/
theorem class_of_decode_jmp {i : SockFilter} {op : JmpOp} {src : Src} {k : UInt32} {jt jf : UInt8}
    (h : i.decode = some (.jmp op src k jt jf)) :
    i.code.toUInt32 &&& 0x07 = bpfJmp ∧ i.jt = jt ∧ i.jf = jf := by
  have hclass : ∀ n, i.code.toNat = n → n &&& 0x07 = 0x05 → i.code.toUInt32 &&& 0x07 = bpfJmp := by
    intro n hcode hn
    rw [← UInt32.toNat_inj, UInt32.toNat_and, UInt16.toNat_toUInt32, hcode]
    exact hn
  rw [SockFilter.decode] at h
  split at h <;> cases h <;> exact ⟨hclass _ ‹_› rfl, rfl, rfl⟩

/-- In an accepted program that is closed control does not come to the end. -/
theorem Program.Closed.ne_nil_of_reached {p : Program} (hclosed : p.Closed)
    (h : p.validate = .ok ()) {ahead : List SockFilter} (hahead : Reached p.insns ahead) :
    ahead ≠ [] := by
  have haccepted := Program.validate_eq_ok_iff.mp h
  cases hahead with
  | start =>
    obtain ⟨last, hlast, -⟩ := haccepted.last
    intro hnil
    rw [hnil] at hlast
    cases hlast
  | @step i rest insn off hreached hdecode hoff =>
    rw [Ne, List.drop_eq_nil_iff, Nat.not_le]
    cases insn with
    | retK | retA => cases hoff
    | ja k =>
      rw [List.mem_singleton.mp hoff]
      exact hclosed.ja i rest k hreached hdecode
    | jmp op src k jt jf =>
      obtain ⟨hclass, rfl, rfl⟩ := class_of_decode_jmp hdecode
      obtain ⟨hjt, hjf⟩ := haccepted.jumps i rest hreached.suffix hclass
      rcases List.mem_pair.mp hoff with rfl | rfl
      · exact hjt
      · exact hjf
    | _ =>
      rw [List.mem_singleton.mp hoff, List.length_pos_iff]
      rintro rfl
      cases hclosed.last i _ hreached hdecode

/-- **A program that `validate` accepts returns on every path if and only if it is closed.** -/
theorem returns_iff_of_validate {p : Program} (h : p.validate = .ok ()) :
    (Returns p.insns ∧ ∀ d, p.run d ≠ .pastEnd) ↔ p.Closed := by
  constructor
  · rintro ⟨hreturns, -⟩
    have hinsn := returns_iff.mp hreturns
    refine ⟨fun i rest hreached ↦ ?_, fun i rest k hreached hdecode ↦ ?_,
      fun i insn hreached hdecode ↦ ?_⟩
    · obtain ⟨_, _, insn, heq, hdecode⟩ := hinsn _ hreached
      obtain ⟨rfl, rfl⟩ := List.cons.inj heq
      exact ⟨insn, hdecode⟩
    · obtain ⟨_, _, _, heq, -⟩ := hinsn _ (hreached.step hdecode (List.mem_singleton_self _))
      by_contra hk
      rw [List.drop_eq_nil_of_le (Nat.le_of_not_lt hk)] at heq
      cases heq
    · by_contra hret
      obtain ⟨off, hoff⟩ := Insn.exists_successor (by simpa using hret)
      obtain ⟨_, _, _, heq, -⟩ := hinsn _ (hreached.step hdecode hoff)
      rw [List.drop_nil] at heq
      cases heq
  · intro hclosed
    have hreturns : Returns p.insns := returns_iff.mpr fun ahead hahead ↦ by
      obtain ⟨i, rest, rfl⟩ := List.exists_cons_of_ne_nil (hclosed.ne_nil_of_reached h hahead)
      obtain ⟨insn, hdecode⟩ := hclosed.decodes i rest hahead
      exact ⟨i, rest, insn, rfl, hdecode⟩
    exact ⟨hreturns, fun d ↦ hreturns.resume_ne_pastEnd _ _ _⟩

/-- A jump over a return to the next one. -/
theorem returns_iff_of_validate_jump :
    (Returns [⟨0x05, 0, 0, 1⟩, ⟨0x06, 0, 0, 0⟩, ⟨0x06, 0, 0, 5⟩] ∧
        ∀ d, Program.run ⟨[⟨0x05, 0, 0, 1⟩, ⟨0x06, 0, 0, 0⟩, ⟨0x06, 0, 0, 5⟩]⟩ d ≠ .pastEnd) ↔
      Program.Closed ⟨[⟨0x05, 0, 0, 1⟩, ⟨0x06, 0, 0, 0⟩, ⟨0x06, 0, 0, 5⟩]⟩ :=
  returns_iff_of_validate (by decide)

/-- A jump over the end is accepted, and so is a transfer to the index register as the last word. -/
theorem validate_accepts_programs_without_return :
    (Program.validate ⟨[⟨0x05, 0, 0, 5⟩, ⟨0x06, 0, 0, 0⟩]⟩ = .ok () ∧
      ∀ d, Program.run ⟨[⟨0x05, 0, 0, 5⟩, ⟨0x06, 0, 0, 0⟩]⟩ d = .pastEnd) ∧
    Program.validate ⟨[⟨0x07, 0, 0, 0⟩]⟩ = .ok () ∧
    (∀ d, Program.run ⟨[⟨0x07, 0, 0, 0⟩]⟩ d = .pastEnd) ∧
    ¬ ∀ p : Program, p.validate = .ok () → ∀ d, p.run d ≠ .pastEnd := by
  have hjump : Program.validate ⟨[⟨0x05, 0, 0, 5⟩, ⟨0x06, 0, 0, 0⟩]⟩ = .ok () := by decide
  exact ⟨⟨hjump, fun _ ↦ rfl⟩, by decide, fun _ ↦ rfl, fun h ↦ h _ hjump ⟨0, 0, 0, fun _ ↦ 0⟩ rfl⟩

end CrunRs.Seccomp
