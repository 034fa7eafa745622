import CrunRs.Lib.Credentials
import CrunRs.Lib.FilterStack
import CrunRs.Lifecycle.Exec

/-!
# Applying a security profile

`security::apply` as the kernel sees it: what its calls make of the task that makes them.

Each call goes through the filters that are already there, the task's own included.  That decides
about learn mode.  The denylist refuses `ptrace`, and `apply` installs it before it asks to be
traced, so that with the denylist, which is the default, learn mode always ends in an error
(`apply_spec`); every other combination works, and the theorem says what becomes of the task.

`exec_apply_of_apply` is the connection with the account of `apply` that knows nothing of the task:
whatever happens here, happens there for some outcome of the calls.
-/

set_option autoImplicit false

namespace CrunRs.Security

open Credentials (Cap Caps)
open Seccomp
open Lifecycle.Exec (SecurityStep)

/-- A task whose filters are programs. -/
abbrev Task := Credentials.Task Program

/-! ## Filters -/

/-- What a program answers; one that does not return kills the thread. -/
def answer (d : SeccompData) (p : Program) : UInt32 :=
  match p.run d with
  | .ret value => value
  | _ => 0

/-- `ACTION_ONLY`: the upper half of an answer, as a signed number. -/
def strictness (ret : UInt32) : Int := (ret &&& 0xffff0000).toInt32.toInt

/-- What the filters of a task answer to a call. -/
def verdict (filters : List Program) (d : SeccompData) : UInt32 :=
  FilterStack.verdict strictness seccompRetAllow (filters.map (answer d))

/-- The call is made: it is allowed, or logged and allowed. -/
def permits (filters : List Program) (d : SeccompData) : Bool :=
  strictness seccompRetLog ≤ strictness (verdict filters d)

/-- **A call is made exactly if every filter permits it.** -/
theorem permits_iff {filters : List Program} {d : SeccompData} :
    permits filters d ↔ ∀ p ∈ filters, strictness seccompRetLog ≤ strictness (answer d p) := by
  rw [permits, decide_eq_true_eq, verdict, FilterStack.le_rank_verdict_iff, List.forall_mem_map]
  exact and_iff_right (by decide)

theorem permits_nil (d : SeccompData) : permits [] d := permits_iff.mpr (by simp)

theorem permits_of_suffix {filters older : List Program} (h : older <:+ filters) {d : SeccompData}
    (hp : permits filters d) : permits older d :=
  permits_iff.mpr fun p hmem ↦ permits_iff.mp hp p (h.subset hmem)

theorem permits_append {newer older : List Program} {d : SeccompData} :
    permits (newer ++ older) d ↔ permits newer d ∧ permits older d := by
  simp only [permits_iff, List.mem_append, or_imp, forall_and]

/-! ## The calls -/

/-- The system calls of `apply`, and the one that follows it. -/
inductive OwnCall
  | prctl
  | capset
  | seccomp
  | ptrace
  | tgkill
  | execve
  deriving DecidableEq

def OwnCall.name : OwnCall → String
  | .prctl => "prctl"
  | .capset => "capset"
  | .seccomp => "seccomp"
  | .ptrace => "ptrace"
  | .tgkill => "tgkill"
  | .execve => "execve"

def OwnCall.number : Target → OwnCall → Int
  | .x86_64, .prctl => 157
  | .x86_64, .capset => 126
  | .x86_64, .seccomp => 317
  | .x86_64, .ptrace => 101
  | .x86_64, .tgkill => 234
  | .x86_64, .execve => 59
  | .aarch64, .prctl => 167
  | .aarch64, .capset => 91
  | .aarch64, .seccomp => 277
  | .aarch64, .ptrace => 117
  | .aarch64, .tgkill => 131
  | .aarch64, .execve => 221

/-- The numbers are those of the runtime's own syscall tables. -/
theorem OwnCall.number_eq (t : Target) (c : OwnCall) :
    some (c.number t) = Seccomp.number t c.name := by
  cases t <;> cases c <;> decide +kernel

/-- A native call.  No filter of the runtime looks at the arguments. -/
def OwnCall.data (t : Target) (c : OwnCall) : SeccompData where
  nr := asU32 (c.number t)
  arch := auditArchNative t

/-- What a kernel is like: whether it has `seccomp(2)`, and which calls it refuses for reasons of its
own. -/
structure Kernel where
  seccompCall : Bool
  fault : SecurityStep → Bool

/-- A call of the task, if its filters permit it and the kernel does not refuse it. -/
def Kernel.call (k : Kernel) (t : Target) (c : OwnCall) (step : SecurityStep) (task : Task)
    (op : Task → Option Task) : Option Task :=
  if permits task.filters (c.data t) ∧ ¬ k.fault step then op task else none

/-- `CapUserData`. -/
structure CapUserData where
  effective : UInt32
  permitted : UInt32
  inheritable : UInt32
  deriving DecidableEq

/-- `empty_capability_data`. -/
def emptyCapabilityData : List CapUserData := List.replicate 2 ⟨0, 0, 0⟩

/-- The set that the words of a `capset` stand for. -/
def capSet (words : List UInt32) : Finset Cap :=
  Finset.univ.filter fun cap ↦ (words.getD (cap.val / 32) 0).toNat.testBit (cap.val % 32)

/-- `drop_capabilities`. -/
def dropCapabilities (k : Kernel) (t : Target) (task : Task) : Option Task :=
  k.call t .capset .dropCapabilities task fun task ↦
    (task.caps.capset (capSet (emptyCapabilityData.map CapUserData.permitted))
      (capSet (emptyCapabilityData.map CapUserData.effective))
      (capSet (emptyCapabilityData.map CapUserData.inheritable))).map fun caps ↦ { task with caps }

/-- `Program::install`: `seccomp(2)`, or `prctl` without flags where there is no such call. -/
def install (k : Kernel) (t : Target) (program : Program) (flags : UInt64) (task : Task) :
    Option Task :=
  if 65535 < program.len then none
  else if k.seccompCall then
    k.call t .seccomp (.install program flags) task fun task ↦ task.seccomp program
  else if flags = 0 then
    k.call t .prctl (.install program flags) task fun task ↦ task.seccomp program
  else none

/-- The error of a call that was refused. -/
def orContext (task : Option Task) (context : String) : Except LifecycleError Task :=
  match task with
  | some task => .ok task
  | none => .error (.context context)

/-- The part of `apply` that is about the profile. -/
def applyProfile (k : Kernel) (t : Target) (task : Task) :
    SecurityProfile → Except LifecycleError Task
  | .unconfined => .ok task
  | .denylist => do
    let task ← orContext (dropCapabilities k t task)
      "failed to drop capabilities for denylist security profile"
    let program ← (seccompDenylistFilter t).mapError .seccomp
    orContext (install k t program 0 task)
      "failed to install seccomp filter for denylist security profile"

/-- The part of `apply` that is about the plan. -/
def applyPlan (k : Kernel) (t : Target) (task : Task) :
    SeccompPlan → Except LifecycleError Task
  | .none => .ok task
  | .learn => do
    let task ← orContext (k.call t .ptrace .traceme task some)
      "failed to enable tracing for seccomp learn mode"
    let task ← orContext (k.call t .tgkill .raiseStop task some)
      "failed to stop for the seccomp tracer"
    let program ← (learnFilter t).mapError .seccomp
    orContext (install k t program 0 task) "failed to install the seccomp trace filter"
  | .enforce program flags =>
    orContext (install k t program flags task) "failed to install the seccomp allowlist"

/-- `security::apply`. -/
def apply (k : Kernel) (t : Target) (profile : SecurityProfile) (plan : SeccompPlan) (task : Task) :
    Except LifecycleError Task := do
  let task ← (if profile = .denylist ∨ plan ≠ .none then
      orContext (k.call t .prctl .setNoNewPrivs task fun task ↦
        some { task with noNewPrivs := true }) "failed to enable no_new_privs"
    else .ok task)
  let task ← applyProfile k t task profile
  applyPlan k t task plan

/-! ## What the filters of the runtime permit -/

/-- The denylist program. -/
def denylistProgram (t : Target) : Program :=
  ⟨(applyCalls .new (denylistCalls t (deniedSyscalls t) ++ [.ret seccompRetAllow])).insns⟩

theorem answer_denylistProgram (t : Target) (d : SeccompData) :
    answer d (denylistProgram t) =
      if d.arch = auditArchNative t ∧ (d.nr.toNat : Int) ∉ deniedSyscalls t then seccompRetAllow
      else denyRet := by
  obtain ⟨p, hp, hrun⟩ := run_seccompDenylistFilter t
  obtain rfl : denylistProgram t = p := Except.ok.inj ((seccompDenylistFilter_eq t).symm.trans hp)
  rw [answer, hrun]

theorem len_denylistProgram (t : Target) : (denylistProgram t).len ≤ 65535 := by
  cases t <;> decide +kernel

/-- The denylist permits the native calls that are not denied. -/
theorem permits_denylistProgram {t : Target} {d : SeccompData} :
    permits [denylistProgram t] d ↔
      d.arch = auditArchNative t ∧ (d.nr.toNat : Int) ∉ deniedSyscalls t := by
  rw [permits_iff, List.forall_mem_singleton, answer_denylistProgram]
  split
  · rename_i h
    exact iff_of_true (by decide) h
  · rename_i h
    exact iff_of_false (by decide) h

/-- Of the calls of `apply`, the denylist refuses `ptrace` only. -/
theorem permits_denylistProgram_data {t : Target} {c : OwnCall} :
    permits [denylistProgram t] (c.data t) ↔ c ≠ .ptrace := by
  rw [permits_denylistProgram]
  cases t <;> cases c <;> decide

/-- The trace program. -/
def learnProgram : Program := ⟨((FilterBuilder.new.loadArch).ret seccompRetTrace).insns⟩

theorem learnFilter_eq (t : Target) : learnFilter t = .ok learnProgram := by
  rw [learnFilter, ensureSupported_eq]
  rfl

/-! ## What `apply` makes of a task -/

variable {k : Kernel} {t : Target} {profile : SecurityProfile} {plan : SeccompPlan}
  {task task' : Task}

theorem orContext_eq_ok_iff {o : Option Task} {context : String} :
    orContext o context = .ok task' ↔ o = some task' := by
  cases o <;> simp [orContext]

theorem call_eq_some_iff {c : OwnCall} {step : SecurityStep} {op : Task → Option Task} :
    k.call t c step task op = some task' ↔
      permits task.filters (c.data t) ∧ k.fault step = false ∧ op task = some task' := by
  rw [Kernel.call]
  split <;> simp_all

/-- The filters a profile installs, and those a plan does, the newest first. -/
def profileFilters (t : Target) : SecurityProfile → List Program
  | .unconfined => []
  | .denylist => [denylistProgram t]

def planFilters : SeccompPlan → List Program
  | .none => []
  | .learn => [learnProgram]
  | .enforce program _ => [program]

theorem install_eq_some {program : Program} {flags : UInt64}
    (h : install k t program flags task = some task') :
    task' = { task with filters := program :: task.filters } := by
  unfold install at h
  split at h
  · simp at h
  · split at h
    · exact Credentials.Task.seccomp_eq_some (call_eq_some_iff.mp h).2.2
    · split at h
      · exact Credentials.Task.seccomp_eq_some (call_eq_some_iff.mp h).2.2
      · simp at h

theorem capSet_zero : capSet [0, 0] = ∅ := by
  rw [capSet, Finset.filter_eq_empty_iff]
  decide

theorem dropCapabilities_eq_some (h : dropCapabilities k t task = some task') :
    task' = { task with caps := task.caps.dropped } := by
  obtain ⟨_, _, h⟩ := call_eq_some_iff.mp h
  obtain ⟨caps, hcaps, rfl⟩ := Option.map_eq_some_iff.mp h
  change task.caps.capset (capSet [0, 0]) (capSet [0, 0]) (capSet [0, 0]) = some caps at hcaps
  rw [capSet_zero, Caps.capset_empty] at hcaps
  rw [Option.some.inj hcaps]

/-- The task after `apply`. -/
def applied (t : Target) (profile : SecurityProfile) (plan : SeccompPlan) (task : Task) : Task :=
  { task with
    noNewPrivs := task.noNewPrivs || (profile = .denylist ∨ plan ≠ .none)
    caps := if profile = .denylist then task.caps.dropped else task.caps
    filters := planFilters plan ++ profileFilters t profile ++ task.filters }

theorem applyProfile_eq_ok (h : applyProfile k t task profile = .ok task') :
    task' = { task with
      caps := if profile = .denylist then task.caps.dropped else task.caps
      filters := profileFilters t profile ++ task.filters } := by
  cases profile with
  | unconfined =>
    obtain rfl := Except.ok.inj h
    rfl
  | denylist =>
    obtain ⟨task₁, hdrop, h⟩ := Fallible.bind_eq_ok_iff.mp h
    obtain ⟨program, hprogram, h⟩ := Fallible.bind_eq_ok_iff.mp h
    obtain rfl := dropCapabilities_eq_some (orContext_eq_ok_iff.mp hdrop)
    obtain rfl : denylistProgram t = program := Except.ok.inj
      ((seccompDenylistFilter_eq t).symm.trans (Fallible.mapError_eq_ok_iff.mp hprogram))
    obtain rfl := install_eq_some (orContext_eq_ok_iff.mp h)
    rfl

theorem applyPlan_eq_ok (h : applyPlan k t task plan = .ok task') :
    task' = { task with filters := planFilters plan ++ task.filters } := by
  cases plan with
  | none =>
    obtain rfl := Except.ok.inj h
    rfl
  | learn =>
    obtain ⟨task₁, htrace, h⟩ := Fallible.bind_eq_ok_iff.mp h
    obtain ⟨task₂, hstop, h⟩ := Fallible.bind_eq_ok_iff.mp h
    obtain ⟨program, hprogram, h⟩ := Fallible.bind_eq_ok_iff.mp h
    obtain rfl := Option.some.inj (call_eq_some_iff.mp (orContext_eq_ok_iff.mp htrace)).2.2
    obtain rfl := Option.some.inj (call_eq_some_iff.mp (orContext_eq_ok_iff.mp hstop)).2.2
    obtain rfl : learnProgram = program := Except.ok.inj
      ((learnFilter_eq t).symm.trans (Fallible.mapError_eq_ok_iff.mp hprogram))
    obtain rfl := install_eq_some (orContext_eq_ok_iff.mp h)
    rfl
  | enforce program flags =>
    obtain rfl := install_eq_some (orContext_eq_ok_iff.mp h)
    rfl

/-- **Whatever the kernel is like, `apply` makes one thing of a task, or ends in an error.** -/
theorem apply_eq_ok (h : apply k t profile plan task = .ok task') :
    task' = applied t profile plan task := by
  obtain ⟨task₁, hnnp, h⟩ := Fallible.bind_eq_ok_iff.mp h
  obtain ⟨task₂, hprofile, h⟩ := Fallible.bind_eq_ok_iff.mp h
  obtain rfl : task₁ = { task with
      noNewPrivs := task.noNewPrivs || (profile = .denylist ∨ plan ≠ .none) } := by
    split at hnnp
    · rename_i hcond
      obtain rfl := Option.some.inj (call_eq_some_iff.mp (orContext_eq_ok_iff.mp hnnp)).2.2
      simp [hcond]
    · rename_i hcond
      obtain rfl := Except.ok.inj hnnp
      simp [hcond]
  obtain rfl := applyProfile_eq_ok hprofile
  rw [applyPlan_eq_ok h, applied, List.append_assoc]

/-- What is installed here is what is installed in the account that leaves the task out. -/
theorem exec_apply_of_apply (h : apply k t profile plan task = .ok task') :
    ∃ installed, Lifecycle.Exec.apply t (fun _ ↦ none) profile plan = .ok installed ∧
      task'.filters = (installed.map Prod.fst).reverse ++ task.filters := by
  obtain rfl := apply_eq_ok h
  have hdenylist := seccompDenylistFilter_eq t
  have hlearn := learnFilter_eq t
  cases profile <;> cases plan <;>
    simp only [Lifecycle.Exec.apply, Lifecycle.Exec.applyProfile, Lifecycle.Exec.applyPlan,
      Lifecycle.Exec.attempt, Lifecycle.Exec.call, hdenylist, hlearn] <;>
    exact ⟨_, rfl, rfl⟩

/-! ## Which combinations work -/

/-- A kernel that refuses nothing of its own accord, and has `seccomp(2)`. -/
structure Kernel.Willing (k : Kernel) : Prop where
  seccompCall : k.seccompCall = true
  fault : ∀ step, k.fault step = false

theorem Kernel.Willing.call (hk : k.Willing) {c : OwnCall} (hopen : permits task.filters (c.data t))
    (step : SecurityStep) (op : Task → Option Task) : k.call t c step task op = op task :=
  if_pos ⟨hopen, by simp [hk.fault]⟩

theorem Kernel.Willing.install (hk : k.Willing) (task : Task)
    (hopen : permits task.filters (OwnCall.seccomp.data t))
    (hnnp : task.noNewPrivs = true) {program : Program} (hlen : program.len ≤ 65535)
    (flags : UInt64) :
    Security.install k t program flags task =
      some { task with filters := program :: task.filters } := by
  rw [Security.install, if_neg (Nat.not_lt.mpr hlen), if_pos hk.seccompCall, hk.call hopen,
    Credentials.Task.seccomp, if_pos (Or.inl hnnp)]

theorem Kernel.Willing.dropCapabilities (hk : k.Willing)
    (hopen : permits task.filters (OwnCall.capset.data t)) :
    Security.dropCapabilities k t task = some { task with caps := task.caps.dropped } := by
  rw [Security.dropCapabilities, hk.call hopen]
  change (task.caps.capset (capSet [0, 0]) (capSet [0, 0]) (capSet [0, 0])).map _ = _
  rw [capSet_zero, Caps.capset_empty]
  rfl

/-- The denylist on top leaves `apply` its calls, except for `ptrace`. -/
theorem permits_denylist_cons {filters : List Program} {c : OwnCall}
    (hopen : permits filters (c.data t)) :
    permits (denylistProgram t :: filters) (c.data t) ↔ c ≠ .ptrace := by
  rw [← List.singleton_append, permits_append, permits_denylistProgram_data]
  exact and_iff_left hopen

theorem Kernel.Willing.applyProfile (hk : k.Willing) (task : Task)
    (hopen : ∀ c : OwnCall, permits task.filters (c.data t))
    (hnnp : profile = .denylist → task.noNewPrivs = true) :
    Security.applyProfile k t task profile = .ok { task with
      caps := if profile = .denylist then task.caps.dropped else task.caps
      filters := profileFilters t profile ++ task.filters } := by
  cases profile with
  | unconfined => rfl
  | denylist =>
    have hinstall : Security.install k t (denylistProgram t) 0
        { task with caps := task.caps.dropped } = some { task with
          caps := task.caps.dropped
          filters := denylistProgram t :: task.filters } :=
      hk.install { task with caps := task.caps.dropped } (hopen .seccomp) (hnnp rfl)
        (len_denylistProgram t) 0
    simp only [Security.applyProfile, hk.dropCapabilities (hopen .capset), orContext,
      Fallible.ok_bind, seccompDenylistFilter_eq, Except.mapError]
    change orContext (Security.install k t (denylistProgram t) 0 _) _ = _
    rw [hinstall]
    rfl

theorem Kernel.Willing.applyPlan (hk : k.Willing) (task : Task)
    (hopen : ∀ c : OwnCall, c ≠ .ptrace → permits task.filters (c.data t))
    (hnnp : plan ≠ .none → task.noNewPrivs = true)
    (hlen : ∀ program flags, plan = .enforce program flags → program.len ≤ 65535) :
    Security.applyPlan k t task plan =
      if plan = .learn ∧ ¬ permits task.filters (OwnCall.ptrace.data t) then
        .error (.context "failed to enable tracing for seccomp learn mode")
      else .ok { task with filters := planFilters plan ++ task.filters } := by
  cases plan with
  | none => rfl
  | learn =>
    by_cases htrace : permits task.filters (OwnCall.ptrace.data t)
    · have hlen : learnProgram.len ≤ 65535 := by decide
      have hinstall := hk.install task (hopen .seccomp (by decide)) (hnnp (by decide)) hlen 0
      rw [if_neg (by simp [htrace])]
      simp only [Security.applyPlan, hk.call htrace, hk.call (hopen .tgkill (by decide)), orContext,
        Fallible.ok_bind, learnFilter_eq, Except.mapError, hinstall]
      rfl
    · rw [if_pos ⟨rfl, htrace⟩, Security.applyPlan, Kernel.call, if_neg (by simp [htrace])]
      rfl
  | enforce program flags =>
    rw [if_neg (by simp), Security.applyPlan, hk.install task (hopen .seccomp (by decide))
      (hnnp (by simp)) (hlen program flags rfl)]
    rfl

/-- The denylist together with learn mode works on no kernel and for no task. -/
theorem not_learn_of_apply_denylist (h : apply k t .denylist plan task = .ok task') :
    plan ≠ .learn := by
  rintro rfl
  obtain ⟨_, _, h⟩ := Fallible.bind_eq_ok_iff.mp h
  obtain ⟨task₂, hprofile, h⟩ := Fallible.bind_eq_ok_iff.mp h
  obtain ⟨_, htrace, _⟩ := Fallible.bind_eq_ok_iff.mp h
  obtain rfl := applyProfile_eq_ok hprofile
  have hopen := (call_eq_some_iff.mp (orContext_eq_ok_iff.mp htrace)).1
  have hdenylist : permits [denylistProgram t] (OwnCall.ptrace.data t) :=
    (permits_append.mp hopen).1
  exact permits_denylistProgram_data.mp hdenylist rfl

theorem apply_of_willing (hk : k.Willing) (hopen : ∀ c : OwnCall, permits task.filters (c.data t))
    (hlen : ∀ program flags, plan = .enforce program flags → program.len ≤ 65535) :
    apply k t profile plan task =
      if profile = .denylist ∧ plan = .learn then
        .error (.context "failed to enable tracing for seccomp learn mode")
      else .ok (applied t profile plan task) := by
  obtain ⟨marked, hmarked⟩ : ∃ marked : Task, marked = { task with
      noNewPrivs := task.noNewPrivs || (profile = .denylist ∨ plan ≠ .none) } := ⟨_, rfl⟩
  have hfirst : (if profile = .denylist ∨ plan ≠ .none then
        orContext (k.call t .prctl .setNoNewPrivs task fun task ↦
          some { task with noNewPrivs := true }) "failed to enable no_new_privs"
      else .ok task) = .ok marked := by
    by_cases hcond : profile = .denylist ∨ plan ≠ .none
    · rw [if_pos hcond, hk.call (hopen .prctl), hmarked]
      simp [hcond, orContext]
    · rw [if_neg hcond, hmarked]
      simp [hcond]
  have hfilters : marked.filters = task.filters := by rw [hmarked]
  rw [apply, hfirst, Fallible.ok_bind, hk.applyProfile marked (hfilters ▸ hopen)
    (by simp_all), Fallible.ok_bind, hk.applyPlan _ ?_ (by simp_all) hlen]
  · have hiff : (plan = .learn ∧
        ¬ permits (profileFilters t profile ++ task.filters) (OwnCall.ptrace.data t)) ↔
          profile = .denylist ∧ plan = .learn := by
      cases profile with
      | unconfined => simp [profileFilters, hopen .ptrace]
      | denylist =>
        have hno : ¬ permits (denylistProgram t :: task.filters) (OwnCall.ptrace.data t) :=
          fun h ↦ (permits_denylist_cons (hopen .ptrace)).mp h rfl
        simp [profileFilters, hno]
    simp only [hfilters, hiff, applied, List.append_assoc]
    rw [hmarked]
  · intro c hc
    cases profile with
    | unconfined => exact hfilters ▸ hopen c
    | denylist => exact (permits_denylist_cons (hfilters ▸ hopen c)).mpr hc

/-- **Which combinations of a profile and a plan work.**  The denylist together with learn mode works
on no kernel and for no task.  For a task that is free to make the calls, on a kernel that does not
refuse them, every other combination works, and that one fails when tracing is asked for. -/
theorem apply_spec (t : Target) (profile : SecurityProfile) (plan : SeccompPlan) :
    (∀ k task task', apply k t profile plan task = .ok task' →
      ¬ (profile = .denylist ∧ plan = .learn) ∧ task' = applied t profile plan task) ∧
    ∀ (k : Kernel) (task : Task), k.Willing → (∀ c : OwnCall, permits task.filters (c.data t)) →
      (∀ program flags, plan = .enforce program flags → program.len ≤ 65535) →
      apply k t profile plan task =
        if profile = .denylist ∧ plan = .learn then
          .error (.context "failed to enable tracing for seccomp learn mode")
        else .ok (applied t profile plan task) := by
  refine ⟨fun k task task' h ↦ ⟨?_, apply_eq_ok h⟩, fun k task hk hopen hlen ↦
    apply_of_willing hk hopen hlen⟩
  rintro ⟨rfl, hlearn⟩
  exact not_learn_of_apply_denylist h hlearn

/-- Root in the initial user namespace, with nothing installed. -/
def rootTask : Task where
  userNs := .init
  uids := ⟨0, 0, 0⟩
  gids := ⟨0, 0, 0⟩
  groups := []
  caps := .full
  noNewPrivs := false
  filters := []

def willingKernel : Kernel where
  seccompCall := true
  fault := fun _ ↦ false

theorem willing_willingKernel : willingKernel.Willing := ⟨rfl, fun _ ↦ rfl⟩

/-- `--seccomp learn` and nothing else on the command line. -/
theorem apply_spec_learn :
    willingKernel.Willing ∧ apply willingKernel .x86_64 .denylist .learn rootTask =
      .error (.context "failed to enable tracing for seccomp learn mode") :=
  ⟨willing_willingKernel, (apply_spec .x86_64 .denylist .learn).2 willingKernel rootTask
    willing_willingKernel (fun _ ↦ permits_nil _) (by simp)⟩

end CrunRs.Security
