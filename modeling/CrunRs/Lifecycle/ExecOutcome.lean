import CrunRs.AuditLog
import CrunRs.Health
import CrunRs.Lifecycle.Exec

/-!
# How an executed command ended

What `lifecycle::exec` reports of the process it executed.  The process is a child of a helper in the
namespaces of the container (`run_namespace_helper` of `container_exec.rs`), and the helper a child of
the runtime.  Each waits for its child with `wait_for_exec_child`.

The helper has an exit code of its own to pass on what it has seen.  A code it passes on as it is.  A
signal it passes on as 128, and a signal that the library has no name for is an error, so it ends with
1.  The runtime sees codes only (`execOutcome_eq`), and what it reports is the truth, and of no other
process, exactly for a command that exits with a code other than these two (`execOutcome_iff`).
-/

set_option autoImplicit false

namespace CrunRs.Lifecycle.Exec

open AuditLog
open Health (ExecExit)

/-! ## Waiting -/

/-- How a process ends. -/
inductive Ending
  | exited (code : UInt8)
  | killed (signal : Signo)
  deriving DecidableEq

/-- `waitpid` on a process that has ended. -/
def waitpid (pid : Int) (coreDumped : Bool) : Ending → Except LifecycleError WaitStatus
  | .exited code => .ok (.exited pid code.toNat)
  | .killed signo => match signalOf signo with
    | some signal => .ok (.signaled pid signal coreDumped)
    | none => .error (.context "failed to poll exec process")

def ExecExit.ofStatus : WaitStatus → ExecExit
  | .exited _ code => ⟨some code, none⟩
  | .signaled _ signal _ => ⟨none, some signal.debug⟩
  | other => ⟨none, some other.debug⟩

/-- `wait_for_exec_child`, with the time at each poll that found the child alive, and what the poll
after them found. -/
def waitForExecChild (timeout : Option Nat) (status : Except LifecycleError WaitStatus) :
    List Nat → Except LifecycleError ExecExit
  | [] => status.map ExecExit.ofStatus
  | elapsed :: polls =>
    if timeout.any (· ≤ elapsed) then .ok ⟨none, some "SIGKILL (timeout)"⟩
    else waitForExecChild timeout status polls

/-! ## Two processes -/

/-- The exit code of the helper: the end of `run_namespace_helper`, or of `exec_in_container` in the
helper if it fails. -/
def helperExit : Except LifecycleError ExecExit → UInt8
  | .error _ => 1
  | .ok exit => match exit.code, exit.signal with
    | some code, _ => UInt8.ofNat (code % 256).toNat
    | none, some _ => 128
    | none, none => 1

/-- What the two processes come across besides the ending: their pids and polls, and the core flag. -/
structure ExecTiming where
  pid : Int
  coreDumped : Bool
  helperPolls : List Nat
  helperPid : Int
  polls : List Nat

/-- The exit that `exec_in_container` returns, in the runtime. -/
def execInContainerExit (timing : ExecTiming) (timeout : Option Nat) (ending : Ending) :
    Except LifecycleError ExecExit :=
  let seen := waitForExecChild timeout (waitpid timing.pid timing.coreDumped ending)
    timing.helperPolls
  waitForExecChild none (waitpid timing.helperPid false (.exited (helperExit seen))) timing.polls

/-- The event of `audit_exec`. -/
def auditExec (now : UInt64) (id : String) (report : ExecExit) : AuditEvent where
  timestampUnix := now
  id := id
  source := "exec"
  name := "exec"
  value := report.code.bind fun code ↦ if 0 ≤ code then some (UInt64.ofNat code.toNat) else none
  delta := none
  fields := none
  status := some (if report.signal.isSome then "signaled" else "exited")

/-- The end of `exec`: the report, and the event that is appended before it is returned. -/
def execOutcome (now : UInt64) (id : String) (timing : ExecTiming) (ending : Ending) :
    Except LifecycleError (ExecExit × AuditEvent) :=
  (execInContainerExit timing none ending).map fun report ↦ (report, auditExec now id report)

/-! ## What is reported -/

/-- The code the helper passes an ending on as. -/
def Ending.passedOn : Ending → UInt8
  | .exited code => code
  | .killed signo => if (signalOf signo).isSome then 128 else 1

theorem waitForExecChild_none (status : Except LifecycleError WaitStatus) (polls : List Nat) :
    waitForExecChild none status polls = status.map ExecExit.ofStatus := by
  induction polls with
  | nil => rfl
  | cons elapsed polls ih => rw [waitForExecChild, if_neg (by simp), ih]

theorem helperExit_waitpid (pid : Int) (coreDumped : Bool) (ending : Ending) :
    helperExit ((waitpid pid coreDumped ending).map ExecExit.ofStatus) = ending.passedOn := by
  cases ending with
  | exited code =>
    have hcode : ((code.toNat : Int) % 256).toNat = code.toNat := by
      have hlt := code.toNat_lt
      omega
    simp [waitpid, Except.map, ExecExit.ofStatus, helperExit, hcode, Ending.passedOn]
  | killed signo =>
    cases hsignal : signalOf signo with
    | none => simp [waitpid, hsignal, Except.map, helperExit, Ending.passedOn]
    | some signal =>
      simp [waitpid, hsignal, Except.map, ExecExit.ofStatus, helperExit, Ending.passedOn]

/-- **A code is reported, whatever the ending.** -/
theorem execOutcome_eq (now : UInt64) (id : String) (timing : ExecTiming) (ending : Ending) :
    execOutcome now id timing ending =
      .ok (⟨some ending.passedOn.toNat, none⟩,
        auditExec now id ⟨some ending.passedOn.toNat, none⟩) := by
  simp only [execOutcome, execInContainerExit, waitForExecChild_none, helperExit_waitpid]
  rfl

/-- The report that is true of an ending. -/
def Ending.report : Ending → ExecExit
  | .exited code => ⟨some code.toNat, none⟩
  | .killed signo => ⟨none, some signo.name⟩

/-- The value and the status of the event that are true of an ending. -/
def Ending.audited : Ending → Option UInt64 × Option String
  | .exited code => (some (UInt64.ofNat code.toNat), some "exited")
  | .killed _ => (none, some "signaled")

theorem passedOn_killed (signo : Signo) :
    (Ending.killed signo).passedOn = 128 ∨ (Ending.killed signo).passedOn = 1 := by
  rw [Ending.passedOn]
  split
  · exact .inl rfl
  · exact .inr rfl

/-- A command that is killed, and one that exits with the code the helper passes that on as. -/
theorem exists_killed_passedOn {code : UInt8} (h : code = 1 ∨ code = 128) :
    ∃ signo, (Ending.killed signo).passedOn = code := by
  rcases h with rfl | rfl
  · exact ⟨⟨34, by decide, by decide⟩, rfl⟩
  · exact ⟨⟨9, by decide, by decide⟩, rfl⟩

/-- **Which endings are told apart.**  The report and the event are true of how the command ended, and
no other ending is reported alike, exactly if it exited with a code that is neither 1 nor 128. -/
theorem execOutcome_iff {now : UInt64} {id : String} {ending : Ending} :
    ((∀ timing, ∃ event, execOutcome now id timing ending = .ok (ending.report, event) ∧
          (event.value, event.status) = ending.audited) ∧
        ∀ other, other ≠ ending → ∀ timing timing' report report' event event',
          execOutcome now id timing ending = .ok (report, event) →
            execOutcome now id timing' other = .ok (report', event') → report ≠ report') ↔
      ∃ code, ending = .exited code ∧ code ≠ 1 ∧ code ≠ 128 := by
  simp only [execOutcome_eq]
  constructor
  · rintro ⟨htrue, hapart⟩
    cases ending with
    | killed signo =>
      -- the report has a code, and a true one would have none
      obtain ⟨event, hevent, -⟩ := htrue ⟨0, false, [], 0, []⟩
      have hcode := congrArg Health.ExecExit.code (Prod.mk.inj (Except.ok.inj hevent)).1
      exact absurd hcode (Option.some_ne_none _)
    | exited code =>
      refine ⟨code, rfl, not_or.mp fun hcode ↦ ?_⟩
      obtain ⟨signo, hsigno⟩ := exists_killed_passedOn hcode
      refine hapart (.killed signo) (by simp) ⟨0, false, [], 0, []⟩ ⟨0, false, [], 0, []⟩ _ _ _ _ rfl
        rfl ?_
      rw [hsigno, Ending.passedOn]
  · rintro ⟨code, rfl, hone, hkilled⟩
    refine ⟨fun timing ↦ ⟨_, rfl, rfl⟩, ?_⟩
    rintro other hother timing timing' report report' event event' hreport hreport' heq
    obtain ⟨rfl, -⟩ := Prod.mk.inj (Except.ok.inj hreport)
    obtain ⟨rfl, -⟩ := Prod.mk.inj (Except.ok.inj hreport')
    have hpassed : code = other.passedOn := by
      have hcode := congrArg Health.ExecExit.code heq
      exact UInt8.toNat_inj.mp (Int.ofNat_inj.mp (Option.some.inj hcode))
    cases other with
    | exited code' => exact hother (congrArg Ending.exited hpassed.symm)
    | killed signo =>
      rcases passedOn_killed signo with h | h
      · exact hkilled (hpassed.trans h)
      · exact hone (hpassed.trans h)

/-- A command that was killed is reported as one that exited with 128. -/
theorem killed_is_reported_as_code :
    ∃ event,
      execOutcome 2000 "web" ⟨42, false, [10, 20], 41, [15]⟩ (.killed ⟨9, by decide, by decide⟩) =
        .ok (⟨some 128, none⟩, event) ∧
      event.value = some 128 ∧ event.status = some "exited" ∧
      (Ending.killed ⟨9, by decide, by decide⟩).report = ⟨none, some "SIGKILL"⟩ :=
  ⟨_, rfl, rfl, rfl, rfl⟩

end CrunRs.Lifecycle.Exec
