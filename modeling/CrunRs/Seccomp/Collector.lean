import CrunRs.Lifecycle.Run
import CrunRs.Seccomp.Capture

/-!
# The collector

`seccomp/collector.rs`: the tracer of a learn run.  It waits for whatever happens to the container's
processes, records the number of every trapped syscall, and resumes.

A run is determined by what `waitpid` returns each time, together with what the tracer reads of the
tracee then (`Observation`).  `collectStep` is one round of the loop and `collect` the loop; what it
has not looked at when it ends is returned with the outcome.

The filter traps the calls of every architecture, and `PTRACE_GETREGS` is asked for the number only.
So every trapped call is recorded as a native one, and `record_foreign` is never called
(`collectorRun_counts`): the capture attributes the calls as it should exactly if all of them were native
(`attribution_exact`).
-/

set_option autoImplicit false

namespace CrunRs.Seccomp

open Lifecycle

/-! ## What the tracer sees -/

/-- `Errno`, as far as the collector tells them apart. -/
inductive Errno
  | esrch
  | other (name : String)
  deriving DecidableEq, Repr

/-- What `waitpid(-1, __WALL)` returns. -/
inductive Wait
  | status (status : WaitStatus)
  | echild
  | eintr
  | error (name : String)
  deriving DecidableEq, Repr

/-- A tracee stopped at a syscall: the architecture of the call, and the register that holds its
number (`orig_rax`, or `x8`). -/
structure Registers where
  auditArch : UInt32
  syscall : UInt64
  deriving DecidableEq, Repr

/-- One round: what is waited for, and what the tracer reads of that process if it asks. -/
structure Observation where
  wait : Wait
  /-- `PTRACE_GETREGS`. -/
  registers : Except Errno Registers := .error .esrch
  /-- `PTRACE_GETEVENTMSG`. -/
  eventMessage : Except Errno Int := .error .esrch
  /-- `PTRACE_SETOPTIONS`. -/
  setOptions : Except Errno Unit := .ok ()
  /-- `PTRACE_GETSIGINFO` fails with `ESRCH`. -/
  isGroupStop : Bool := false
  elapsedMs : UInt64 := 0

/-- `syscall_number`: the architecture is not looked at. -/
def syscallNumber (registers : Registers) : Int := registers.syscall.toInt64.toInt

/-- `PTRACE_EVENT_SECCOMP`. -/
def ptraceEventSeccomp : Int := 7

/-- `PTRACE_EVENT_FORK`, `PTRACE_EVENT_VFORK` and `PTRACE_EVENT_CLONE`. -/
def newChildEvents : List Int := [1, 2, 3]

/-- `status_pid`. -/
def statusPid : WaitStatus → Option Int
  | .exited pid _ | .signaled pid _ _ | .stopped pid _ | .ptraceEvent pid _ _ | .ptraceSyscall pid
  | .continued pid => some pid
  | .stillAlive => none

/-- `is_terminal`. -/
def isTerminal : WaitStatus → Bool
  | .exited .. | .signaled .. => true
  | _ => false

/-- `process_creation_syscall`. -/
def processCreationSyscall (t : Target) (number : Int) : Bool :=
  match name t number with
  | some s => s ∈ ["fork", "vfork", "clone", "clone3"]
  | none => false

/-! ## The loop -/

structure CollectorOptions where
  rootPid : Int
  excludePids : List Int := []
  maxEvents : Option UInt64 := none

/-- The variables of the loop, and the processes it has resumed, each with the signal it was given. -/
structure Collector where
  capture : Capture
  rootStatus : WaitStatus := .stillAlive
  reapedOthers : List (Int × WaitStatus) := []
  tracees : Std.ExtTreeSet Int := ∅
  rootExited : Bool := false
  optionsSet : Bool := false
  resumed : List (Int × Option Signal) := []

/-- How a round ends. -/
inductive Round
  | next (c : Collector)
  | done (c : Collector)
  | failed (context : String)

/-- The collector after a round that does not fail. -/
def Round.collector : Round → Option Collector
  | .next c | .done c => some c
  | .failed _ => none

namespace Collector

def resume (c : Collector) (pid : Int) (signal : Option Signal) : Collector :=
  { c with resumed := c.resumed ++ [(pid, signal)] }

/-- A process the tracer learns of, counted unless it was known. -/
def addTracee (c : Collector) (pid : Int) : Collector :=
  if pid ∈ c.tracees then c
  else { c with
    tracees := c.tracees.insert pid
    capture := { c.capture with processesSeen := c.capture.processesSeen + 1 } }

/-- `handle_event`. -/
def handleEvent (t : Target) (c : Collector) (event : Int) (o : Observation) :
    Except String Collector :=
  if event = ptraceEventSeccomp then
    match o.registers with
    | .ok registers =>
      let number := syscallNumber registers
      let capture := c.capture.record number o.elapsedMs
      let capture := if processCreationSyscall t number then
        { capture with processesSeen := capture.processesSeen + 1 } else capture
      .ok { c with capture }
    -- the tracee can die between the stop and the register read
    | .error .esrch => .ok c
    | .error (.other _) => .error "failed to read the trapped syscall number"
  else if event ∈ newChildEvents then
    match o.eventMessage with
    | .ok child => .ok (c.addTracee child)
    | .error .esrch => .ok c
    | .error (.other _) => .error "failed to read the new child pid"
  else .ok c

/-- The event limit: reaching it only marks the capture. -/
def checkLimit (options : CollectorOptions) (c : Collector) : Collector :=
  if options.maxEvents.any fun limit ↦ limit ≤ c.capture.events then
    { c with capture := { c.capture with truncated := true } }
  else c

/-- A round for a process of the container. -/
def dispatch (t : Target) (options : CollectorOptions) (c : Collector) (o : Observation)
    (pid : Int) (status : WaitStatus) : Round :=
  match status with
  | .exited .. | .signaled .. =>
    let c := { c with tracees := c.tracees.erase pid }
    let c := if pid = options.rootPid then { c with rootStatus := status, rootExited := true } else c
    if c.rootExited && c.tracees.isEmpty then .done c else .next c
  | .ptraceEvent _ _ event => match c.handleEvent t event o with
    | .ok c => .next ((c.checkLimit options).resume pid none)
    | .error context => .failed context
  | .stopped _ signal =>
    if pid = options.rootPid ∧ !c.optionsSet then
      match o.setOptions with
      | .ok () => .next ({ c with
          optionsSet := true
          tracees := c.tracees.insert pid }.resume pid none)
      | .error _ => .failed "failed to set ptrace options"
    else if signal = .stop ∧ pid ∉ c.tracees then .next ((c.addTracee pid).resume pid none)
    else if o.isGroupStop then .next (c.resume pid none)
    else .next (c.resume pid (some signal))
  | .stillAlive | .continued _ | .ptraceSyscall _ => .next c

/-- One round of the loop of `run`. -/
def round (t : Target) (options : CollectorOptions) (c : Collector) (o : Observation) : Round :=
  match o.wait with
  | .echild => .done c
  | .eintr => .next c
  | .error _ => .failed "failed to wait for traced process"
  | .status status => match statusPid status with
    | none => .next c
    | some pid =>
      if pid ∈ options.excludePids then
        if isTerminal status then .next { c with reapedOthers := c.reapedOthers ++ [(pid, status)] }
        else .next c
      else c.dispatch t options o pid status

end Collector

/-- The loop of `run`: where it ends and what it has not looked at.  If the observations do not end
it, it is still waiting. -/
def collect (t : Target) (options : CollectorOptions) :
    Collector → List Observation → Except String (Collector × List Observation)
  | c, [] => .ok (c, [])
  | c, o :: rest => match c.round t options o with
    | .next c => collect t options c rest
    | .done c => .ok (c, rest)
    | .failed context => .error context

/-- The capture `run` starts from. -/
def newCapture (t : Target) (startedAtUnix : UInt64) : Capture :=
  { auditArch := auditArchNative t, startedAtUnix }

/-- What `run` does to the capture at its end. -/
def finishCapture (capture : Capture) (durationMs : UInt64) : Capture :=
  { capture with
    processesSeen := if capture.processesSeen ≤ 1 then 1 else capture.processesSeen
    durationMs }

/-- The capture of a run of the collector that looks at all of the observations. -/
def collectorRun (t : Target) (options : CollectorOptions) (startedAtUnix durationMs : UInt64)
    (observations : List Observation) : Except String (Collector × List Observation) :=
  (collect t options { capture := newCapture t startedAtUnix } observations).map fun (c, rest) ↦
    ({ c with capture := finishCapture c.capture durationMs }, rest)

/-! ## The calls it was shown -/

/-- The call of a seccomp stop of the container, if that is what is observed and its registers can
be read. -/
def trappedCall (options : CollectorOptions) (o : Observation) : Option Registers :=
  match o.wait, o.registers with
  | .status (.ptraceEvent pid _ event), .ok registers =>
    if event = ptraceEventSeccomp ∧ pid ∉ options.excludePids then some registers else none
  | _, _ => none

def trappedCalls (options : CollectorOptions) (observations : List Observation) : List Registers :=
  observations.filterMap (trappedCall options)

/-- The capture with the call of one observation in it, if there is one. -/
def recorded (options : CollectorOptions) (capture : Capture) (o : Observation) : Capture :=
  match trappedCall options o with
  | some registers => capture.record (syscallNumber registers) o.elapsedMs
  | none => capture

/-- Two captures that say the same about the calls. -/
def SameCounts (c c' : Capture) : Prop :=
  c'.counts = c.counts ∧ c'.foreignArchCounts = c.foreignArchCounts

/-- Two captures with the same calls in them. -/
def SameCalls (c c' : Capture) : Prop :=
  ∃ processesSeen truncated, c' = { c with processesSeen, truncated }

theorem SameCalls.trans {c c' c'' : Capture} (h : SameCalls c c') (h' : SameCalls c' c'') :
    SameCalls c c'' := by
  obtain ⟨_, _, rfl⟩ := h
  obtain ⟨_, _, rfl⟩ := h'
  exact ⟨_, _, rfl⟩

theorem SameCalls.sameCounts {c c' : Capture} (h : SameCalls c c') : SameCounts c c' := by
  obtain ⟨_, _, rfl⟩ := h
  exact ⟨rfl, rfl⟩

namespace Collector

variable {t : Target} {options : CollectorOptions} {c c' : Collector} {o : Observation}

/-- **What a round can do**: end or go on without having been shown a process, look at one that is
none of the container's, or deal with one that is. -/
theorem round_cases (h : (c.round t options o).collector = some c') :
    (o.wait = .echild ∧ c.round t options o = .done c' ∧ c' = c) ∨
    ((o.wait = .eintr ∨ ∃ status, o.wait = .status status ∧ statusPid status = none) ∧
      c.round t options o = .next c' ∧ c' = c) ∨
    (∃ status pid others, o.wait = .status status ∧ statusPid status = some pid ∧
      pid ∈ options.excludePids ∧ c.round t options o = .next c' ∧
        c' = { c with reapedOthers := others }) ∨
    ∃ status pid, o.wait = .status status ∧ statusPid status = some pid ∧
      pid ∉ options.excludePids ∧
        c.round t options o = c.dispatch t options o pid status := by
  cases hwait : o.wait with
  | echild =>
    have hround : c.round t options o = .done c := by rw [round, hwait]
    rw [hround] at h ⊢
    obtain rfl := Option.some.inj h
    exact Or.inl ⟨rfl, rfl, rfl⟩
  | eintr =>
    have hround : c.round t options o = .next c := by rw [round, hwait]
    rw [hround] at h ⊢
    obtain rfl := Option.some.inj h
    exact Or.inr (Or.inl ⟨Or.inl rfl, rfl, rfl⟩)
  | error name =>
    rw [round, hwait] at h
    cases h
  | status status =>
    cases hpid : statusPid status with
    | none =>
      have hround : c.round t options o = .next c := by simp only [round, hwait, hpid]
      rw [hround] at h ⊢
      obtain rfl := Option.some.inj h
      exact Or.inr (Or.inl ⟨Or.inr ⟨status, rfl, hpid⟩, rfl, rfl⟩)
    | some pid =>
      by_cases hexcluded : pid ∈ options.excludePids
      · have hround : ∃ others, c.round t options o = .next { c with reapedOthers := others } := by
          simp only [round, hwait, hpid, if_pos hexcluded]
          split
          · exact ⟨_, rfl⟩
          · exact ⟨c.reapedOthers, rfl⟩
        obtain ⟨others, hround⟩ := hround
        rw [hround] at h ⊢
        obtain rfl := Option.some.inj h
        exact Or.inr (Or.inr (Or.inl ⟨status, pid, others, rfl, hpid, hexcluded, rfl, rfl⟩))
      · refine Or.inr (Or.inr (Or.inr ⟨status, pid, rfl, hpid, hexcluded, ?_⟩))
        simp only [round, hwait, hpid, if_neg hexcluded]

theorem mem_insert_tracees {tracees : Std.ExtTreeSet Int} {pid k : Int} :
    k ∈ tracees.insert pid ↔ k = pid ∨ k ∈ tracees := by
  rw [Std.ExtTreeSet.mem_insert, Std.LawfulEqCmp.compare_eq_iff_eq, eq_comm]

/-- A process that is added changes the tracees, and how many processes were seen. -/
theorem addTracee_eq (c : Collector) (pid : Int) :
    ∃ tracees capture, c.addTracee pid = { c with tracees, capture } ∧
      SameCalls c.capture capture ∧ ∀ k, k ∈ tracees ↔ k = pid ∨ k ∈ c.tracees := by
  rw [addTracee]
  split
  · rename_i hmem
    refine ⟨c.tracees, c.capture, rfl, ⟨_, _, rfl⟩, fun k ↦ (or_iff_right_of_imp ?_).symm⟩
    rintro rfl
    exact hmem
  · exact ⟨_, _, rfl, ⟨_, _, rfl⟩, fun k ↦ mem_insert_tracees⟩

theorem checkLimit_eq (options : CollectorOptions) (c : Collector) :
    ∃ capture, c.checkLimit options = { c with capture } ∧ SameCalls c.capture capture := by
  rw [checkLimit]
  split
  · exact ⟨_, rfl, _, _, rfl⟩
  · exact ⟨c.capture, rfl, _, _, rfl⟩

theorem ne_seccomp_of_newChild {event : Int} (h : event ∈ newChildEvents) :
    event ≠ ptraceEventSeccomp := by
  rintro rfl
  exact absurd h (by decide)

/-- **What an event can do**: its call is recorded, or its child is added, or nothing is changed. -/
theorem handleEvent_cases {event : Int} (h : c.handleEvent t event o = .ok c') :
    (∃ registers capture, event = ptraceEventSeccomp ∧ o.registers = .ok registers ∧
        SameCalls (c.capture.record (syscallNumber registers) o.elapsedMs) capture ∧
        c' = { c with capture }) ∨
      (∃ child, event ∈ newChildEvents ∧ o.eventMessage = .ok child ∧ c' = c.addTracee child) ∨
      ((event ≠ ptraceEventSeccomp ∨ ∀ registers, o.registers ≠ .ok registers) ∧
        (event ∉ newChildEvents ∨ ∀ child, o.eventMessage ≠ .ok child) ∧ c' = c) := by
  unfold handleEvent at h
  split at h
  · rename_i hevent
    split at h
    · rename_i registers hregisters
      obtain rfl := Except.ok.inj h
      refine .inl ⟨registers, _, hevent, hregisters, ?_, rfl⟩
      split <;> exact ⟨_, _, rfl⟩
    · rename_i hregisters
      obtain rfl := Except.ok.inj h
      refine .inr (.inr ⟨.inr fun registers heq ↦ by simp [hregisters] at heq, .inl ?_, rfl⟩)
      exact fun hchild ↦ ne_seccomp_of_newChild hchild hevent
    · simp at h
  · rename_i hevent
    split at h
    · rename_i hchild
      split at h
      · rename_i child hmessage
        obtain rfl := Except.ok.inj h
        exact .inr (.inl ⟨child, hchild, hmessage, rfl⟩)
      · rename_i hmessage
        obtain rfl := Except.ok.inj h
        exact .inr (.inr ⟨.inl hevent, .inr fun child heq ↦ by simp [hmessage] at heq, rfl⟩)
      · simp at h
    · rename_i hchild
      obtain rfl := Except.ok.inj h
      exact .inr (.inr ⟨.inl hevent, .inl hchild, rfl⟩)

/-- An event changes no more than the capture and the tracees. -/
theorem handleEvent_eq {event : Int} (h : c.handleEvent t event o = .ok c') :
    ∃ tracees capture, c' = { c with tracees, capture } := by
  rcases handleEvent_cases h with ⟨_, capture, -, -, -, rfl⟩ | ⟨child, -, -, rfl⟩ | ⟨-, -, rfl⟩
  · exact ⟨c.tracees, capture, rfl⟩
  · obtain ⟨tracees, capture, heq, -, -⟩ := addTracee_eq c child
    exact ⟨tracees, capture, heq⟩
  · exact ⟨_, _, rfl⟩

/-- An event adds the child it is about. -/
theorem handleEvent_tracees {event : Int} (h : c.handleEvent t event o = .ok c') (k : Int) :
    k ∈ c'.tracees ↔ event ∈ newChildEvents ∧ o.eventMessage = .ok k ∨ k ∈ c.tracees := by
  rcases handleEvent_cases h with ⟨_, capture, hevent, -, -, rfl⟩ | ⟨child, hevent, hmessage, rfl⟩ |
    ⟨-, hnone, rfl⟩
  · exact (or_iff_right fun hchild ↦ ne_seccomp_of_newChild hchild.1 hevent).symm
  · obtain ⟨tracees, capture, heq, -, hmem⟩ := addTracee_eq c child
    rw [heq, hmessage, Except.ok.injEq, and_iff_right hevent, eq_comm]
    exact hmem k
  · refine (or_iff_right ?_).symm
    exact fun hchild ↦ hnone.elim (fun hnot ↦ hnot hchild.1) fun hnot ↦ hnot k hchild.2

/-- **What a process of the container that has not ended leads to**: an event is handled; a stop is
that of the root before it is traced, or that of a new tracee, or the signal is passed on; and
anything else is passed over. -/
theorem dispatch_cases {pid : Int} {status : WaitStatus} (hpid : statusPid status = some pid)
    (hterminal : isTerminal status = false)
    (h : (c.dispatch t options o pid status).collector = some c') :
    c.dispatch t options o pid status = .next c' ∧
      ((∃ signal event c₁, status = .ptraceEvent pid signal event ∧
          c.handleEvent t event o = .ok c₁ ∧ c' = (c₁.checkLimit options).resume pid none) ∨
        (∃ signal, status = .stopped pid signal ∧
          ((pid = options.rootPid ∧ c.optionsSet = false) ∧ o.setOptions = .ok () ∧
              c' = { c with
                optionsSet := true
                tracees := c.tracees.insert pid }.resume pid none ∨
            ¬ (pid = options.rootPid ∧ c.optionsSet = false) ∧
              (signal = .stop ∧ pid ∉ c.tracees) ∧ c' = (c.addTracee pid).resume pid none ∨
            ¬ (pid = options.rootPid ∧ c.optionsSet = false) ∧
              ¬ (signal = .stop ∧ pid ∉ c.tracees) ∧
              c' = c.resume pid (if o.isGroupStop then none else some signal))) ∨
        (∀ signal event, status ≠ .ptraceEvent pid signal event) ∧
          (∀ signal, status ≠ .stopped pid signal) ∧ c' = c) := by
  cases status with
  | exited | signaled => cases hterminal
  | ptraceEvent pid' signal event =>
    obtain rfl : pid' = pid := Option.some.inj hpid
    simp only [dispatch] at h ⊢
    split at h
    · rename_i c₁ hevent
      obtain rfl := Option.some.inj h
      exact ⟨rfl, .inl ⟨signal, event, c₁, rfl, hevent, rfl⟩⟩
    · cases h
  | stopped pid' signal =>
    obtain rfl : pid' = pid := Option.some.inj hpid
    simp only [dispatch, Bool.not_eq_true'] at h ⊢
    by_cases hfirst : pid' = options.rootPid ∧ c.optionsSet = false
    · rw [if_pos hfirst] at h ⊢
      cases hset : o.setOptions with
      | error e =>
        rw [hset] at h
        cases h
      | ok _ =>
        rw [hset] at h
        obtain rfl := Option.some.inj h
        exact ⟨rfl, .inr (.inl ⟨signal, rfl, .inl ⟨hfirst, rfl, rfl⟩⟩)⟩
    · rw [if_neg hfirst] at h ⊢
      by_cases hnew : signal = .stop ∧ pid' ∉ c.tracees
      · rw [if_pos hnew] at h ⊢
        obtain rfl := Option.some.inj h
        exact ⟨rfl, .inr (.inl ⟨signal, rfl, .inr (.inl ⟨hfirst, hnew, rfl⟩)⟩)⟩
      · rw [if_neg hnew] at h ⊢
        have hresume : (if o.isGroupStop = true then Round.next (c.resume pid' none)
            else Round.next (c.resume pid' (some signal))) =
            Round.next (c.resume pid' (if o.isGroupStop then none else some signal)) := by
          split <;> rfl
        rw [hresume] at h ⊢
        obtain rfl := Option.some.inj h
        exact ⟨rfl, .inr (.inl ⟨signal, rfl, .inr (.inr ⟨hfirst, hnew, rfl⟩)⟩)⟩
  | ptraceSyscall | continued | stillAlive =>
    obtain rfl := Option.some.inj h
    exact ⟨rfl, .inr (.inr ⟨by simp, by simp, rfl⟩)⟩

/-- **What the end of a process of the container leads to**: it is taken out of the tracees, the
root's is kept, and the loop is left if nothing is. -/
theorem dispatch_end {pid : Int} {status : WaitStatus} (hterminal : isTerminal status = true)
    (h : (c.dispatch t options o pid status).collector = some c') :
    (∃ rootStatus rootExited, c' =
        { c with tracees := c.tracees.erase pid, rootStatus, rootExited }) ∧
      (c'.rootStatus, c'.rootExited) =
        (if pid = options.rootPid then (status, true) else (c.rootStatus, c.rootExited)) ∧
      c.dispatch t options o pid status =
        if c'.rootExited && c'.tracees.isEmpty then .done c' else .next c' := by
  have hround : ∀ {c₁ : Collector}, (if c₁.rootExited && c₁.tracees.isEmpty then Round.done c₁
      else Round.next c₁).collector = some c' → c' = c₁ := by
    intro c₁ hcollector
    split at hcollector <;> exact (Option.some.inj hcollector).symm
  cases status with
  | exited | signaled =>
    simp only [dispatch] at h ⊢
    obtain rfl := hround h
    refine ⟨?_, ?_, rfl⟩
    · split <;> exact ⟨_, _, rfl⟩
    · split <;> rfl
  | stopped | ptraceEvent | ptraceSyscall | continued | stillAlive => cases hterminal

/-- An event that is handled is recorded if it is a seccomp stop, and otherwise changes no count. -/
theorem handleEvent_sameCalls {event : Int} (h : c.handleEvent t event o = .ok c') :
    (event = ptraceEventSeccomp ∧ ∃ registers, o.registers = .ok registers ∧
      SameCalls (c.capture.record (syscallNumber registers) o.elapsedMs) c'.capture) ∨
    ((event ≠ ptraceEventSeccomp ∨ ∀ registers, o.registers ≠ .ok registers) ∧
      SameCalls c.capture c'.capture) := by
  rcases handleEvent_cases h with ⟨registers, capture, hevent, hregisters, hsame, rfl⟩ |
    ⟨child, hchild, -, rfl⟩ | ⟨hnot, -, rfl⟩
  · exact .inl ⟨hevent, registers, hregisters, hsame⟩
  · obtain ⟨tracees, capture, heq, hsame, -⟩ := addTracee_eq c child
    exact .inr ⟨.inl (ne_seccomp_of_newChild hchild), heq ▸ hsame⟩
  · exact .inr ⟨hnot, _, _, rfl⟩

/-- Only a seccomp stop traps a call. -/
theorem recorded_of_not_event {capture : Capture} {status : WaitStatus}
    (hwait : o.wait = .status status) (h : ∀ pid signal event, status ≠ .ptraceEvent pid signal event) :
    recorded options capture o = capture := by
  have hnone : trappedCall options o = none := by
    rw [trappedCall, hwait]
    split
    · rename_i heq _
      exact absurd (Wait.status.inj heq) (h _ _ _)
    · rfl
  rw [recorded, hnone]

theorem recorded_of_event {capture : Capture} {pid event : Int} {signal : Signal}
    (hwait : o.wait = .status (.ptraceEvent pid signal event)) (hpid : pid ∉ options.excludePids)
    (h : c.handleEvent t event o = .ok c') (hcapture : c.capture = capture) :
    SameCalls (recorded options capture o) c'.capture := by
  subst hcapture
  rcases handleEvent_sameCalls h with ⟨hevent, registers, hregisters, hsame⟩ | ⟨hnot, hsame⟩
  · have hcall : trappedCall options o = some registers := by
      rw [trappedCall, hwait, hregisters]
      exact if_pos ⟨hevent, hpid⟩
    rw [recorded, hcall]
    exact hsame
  · have hcall : trappedCall options o = none := by
      rw [trappedCall, hwait]
      split
      · rename_i registers heq hregisters
        obtain ⟨_, _, rfl⟩ := WaitStatus.ptraceEvent.inj (Wait.status.inj heq)
        rcases hnot with hevent | hnone
        · exact if_neg fun hcond ↦ hevent hcond.1
        · exact absurd hregisters (hnone registers)
      · rfl
    rw [recorded, hcall]
    exact hsame

/-- A call is trapped only in a process of the container. -/
theorem recorded_of_excluded {capture : Capture} {pid : Int} {status : WaitStatus}
    (hwait : o.wait = .status status) (hpid : statusPid status = some pid)
    (hexcluded : pid ∈ options.excludePids) : recorded options capture o = capture := by
  have hnone : trappedCall options o = none := by
    rw [trappedCall, hwait]
    split
    · rename_i heq _
      rw [Wait.status.inj heq, statusPid, Option.some.injEq] at hpid
      exact if_neg fun hcond ↦ hcond.2 (hpid ▸ hexcluded)
    · rfl
  rw [recorded, hnone]

theorem dispatch_sameCalls {pid : Int} {status : WaitStatus} (hwait : o.wait = .status status)
    (hpid : statusPid status = some pid) (hincluded : pid ∉ options.excludePids)
    (h : (c.dispatch t options o pid status).collector = some c') :
    SameCalls (recorded options c.capture o) c'.capture := by
  cases hterminal : isTerminal status with
  | true =>
    obtain ⟨⟨rootStatus, rootExited, rfl⟩, -, -⟩ := dispatch_end hterminal h
    rw [recorded_of_not_event hwait fun _ _ _ heq ↦ by simp [heq, isTerminal] at hterminal]
    exact ⟨_, _, rfl⟩
  | false =>
    obtain ⟨-, ⟨signal, event, c₁, rfl, hevent, rfl⟩ | ⟨signal, rfl, hstop⟩ | ⟨hnot, -, rfl⟩⟩ :=
      dispatch_cases hpid hterminal h
    · obtain ⟨capture, hlimit, hsame⟩ := checkLimit_eq options c₁
      rw [resume, hlimit]
      exact (recorded_of_event hwait hincluded hevent rfl).trans hsame
    · rw [recorded_of_not_event hwait fun _ _ _ heq ↦ by cases heq]
      rcases hstop with ⟨-, -, rfl⟩ | ⟨-, -, rfl⟩ | ⟨-, -, rfl⟩
      · exact ⟨_, _, rfl⟩
      · obtain ⟨tracees, capture, heq, hsame, -⟩ := addTracee_eq c pid
        rw [resume, heq]
        exact hsame
      · exact ⟨_, _, rfl⟩
    · rw [recorded_of_not_event hwait fun pid' signal event heq ↦ ?_]
      · exact ⟨_, _, rfl⟩
      · obtain rfl : pid' = pid := by simpa [heq, statusPid] using hpid
        exact hnot signal event heq

/-- **A round records the call it was shown, as a native one.** -/
theorem round_sameCalls (h : (c.round t options o).collector = some c') :
    SameCalls (recorded options c.capture o) c'.capture := by
  rcases round_cases h with ⟨hwait, -, rfl⟩ | ⟨hwait | ⟨status, hwait, hpid⟩, -, rfl⟩ |
    ⟨status, pid, others, hwait, hpid, hexcluded, -, rfl⟩ |
    ⟨status, pid, hwait, hpid, hincluded, hround⟩
  · rw [recorded, trappedCall, hwait]
    exact ⟨_, _, rfl⟩
  · rw [recorded, trappedCall, hwait]
    exact ⟨_, _, rfl⟩
  · rw [recorded_of_not_event hwait fun pid signal event heq ↦ by simp [heq, statusPid] at hpid]
    exact ⟨_, _, rfl⟩
  · rw [recorded_of_excluded hwait hpid hexcluded]
    exact ⟨_, _, rfl⟩
  · rw [hround] at h
    exact dispatch_sameCalls hwait hpid hincluded h

theorem round_sameCounts (h : (c.round t options o).collector = some c') :
    SameCounts (recorded options c.capture o) c'.capture :=
  (round_sameCalls h).sameCounts

end Collector

/-! ## The end of the container's process -/

/-- The observation is the end of a process. -/
def EndOf (pid : Int) (status : WaitStatus) (o : Observation) : Prop :=
  o.wait = .status status ∧ statusPid status = some pid ∧ isTerminal status

namespace Collector

variable {t : Target} {options : CollectorOptions} {c c' : Collector} {o : Observation}

/-- A process of the container that does not end leaves what is known of the root, and ends no
loop. -/
theorem dispatch_root {pid : Int} {status : WaitStatus} (hpid : statusPid status = some pid)
    (hterminal : isTerminal status = false)
    (h : (c.dispatch t options o pid status).collector = some c') :
    c'.rootStatus = c.rootStatus ∧ c'.rootExited = c.rootExited ∧
      c.dispatch t options o pid status = .next c' := by
  obtain ⟨hnext, ⟨signal, event, c₁, -, hevent, rfl⟩ | ⟨signal, -, hstop⟩ | ⟨-, -, rfl⟩⟩ :=
    dispatch_cases hpid hterminal h
  · obtain ⟨tracees, capture, rfl⟩ := handleEvent_eq hevent
    obtain ⟨capture', hlimit, -⟩ := checkLimit_eq options { c with tracees, capture }
    exact ⟨by rw [resume, hlimit], by rw [resume, hlimit], hnext⟩
  · rcases hstop with ⟨-, -, rfl⟩ | ⟨-, -, rfl⟩ | ⟨-, -, rfl⟩
    · exact ⟨rfl, rfl, hnext⟩
    · obtain ⟨tracees, capture, heq, -, -⟩ := addTracee_eq c pid
      exact ⟨by rw [resume, heq], by rw [resume, heq], hnext⟩
    · exact ⟨rfl, rfl, hnext⟩
  · exact ⟨rfl, rfl, hnext⟩

/-- The end of a process of the container: the root's is kept. -/
theorem dispatch_terminal {pid : Int} {status : WaitStatus} (hterminal : isTerminal status = true)
    (h : (c.dispatch t options o pid status).collector = some c') :
    (c'.rootStatus, c'.rootExited) =
        (if pid = options.rootPid then (status, true) else (c.rootStatus, c.rootExited)) ∧
      (c.dispatch t options o pid status = .next c' ∨ c'.rootExited = true) := by
  obtain ⟨-, hroot, hround⟩ := dispatch_end hterminal h
  refine ⟨hroot, ?_⟩
  rw [hround]
  split
  · rename_i hdone
    exact .inr (Bool.and_eq_true_iff.mp hdone).1
  · exact .inl rfl

/-- **A round keeps the end of the root if it is shown it**, and otherwise what is known of it; and
it ends the loop only when nothing is left to wait for, or the root has ended. -/
theorem round_root (hroot : options.rootPid ∉ options.excludePids)
    (h : (c.round t options o).collector = some c') :
    ((∃ status, EndOf options.rootPid status o ∧ c'.rootStatus = status ∧ c'.rootExited = true) ∨
      ((∀ status, ¬ EndOf options.rootPid status o) ∧ c'.rootStatus = c.rootStatus ∧
        c'.rootExited = c.rootExited)) ∧
    (c.round t options o = .next c' ∨ o.wait = .echild ∨ c'.rootExited = true) := by
  -- the end of the root is shown by a status of the root
  have hend : ∀ {status status' : WaitStatus}, o.wait = .status status →
      EndOf options.rootPid status' o →
        statusPid status = some options.rootPid ∧ isTerminal status = true := by
    rintro status status' hwait ⟨hwait', hpid, hterminal⟩
    obtain rfl := Wait.status.inj (hwait.symm.trans hwait')
    exact ⟨hpid, hterminal⟩
  rcases round_cases h with ⟨hwait, -, rfl⟩ | ⟨hwait | ⟨status, hwait, hpid⟩, hround, rfl⟩ |
    ⟨status, pid, others, hwait, hpid, hexcluded, hround, rfl⟩ |
    ⟨status, pid, hwait, hpid, hincluded, hround⟩
  · exact ⟨Or.inr ⟨fun status hshown ↦ by simp [EndOf, hwait] at hshown, rfl, rfl⟩,
      Or.inr (Or.inl hwait)⟩
  · exact ⟨Or.inr ⟨fun status hshown ↦ by simp [EndOf, hwait] at hshown, rfl, rfl⟩, Or.inl hround⟩
  · exact ⟨Or.inr ⟨fun status' hshown ↦ by simp [(hend hwait hshown).1] at hpid, rfl, rfl⟩,
      Or.inl hround⟩
  · refine ⟨Or.inr ⟨fun status' hshown ↦ hroot ?_, rfl, rfl⟩, Or.inl hround⟩
    rwa [← Option.some.inj (hpid.symm.trans (hend hwait hshown).1)]
  · rw [hround] at h ⊢
    cases hterminal : isTerminal status with
    | false =>
      obtain ⟨hstatus, hexited, hnext⟩ := dispatch_root hpid hterminal h
      exact ⟨Or.inr ⟨fun status' hshown ↦ by simp [(hend hwait hshown).2] at hterminal,
        hstatus, hexited⟩, Or.inl hnext⟩
    | true =>
      obtain ⟨hkept, hnext⟩ := dispatch_terminal hterminal h
      refine ⟨?_, hnext.imp id Or.inr⟩
      by_cases hpid' : pid = options.rootPid
      · rw [if_pos hpid'] at hkept
        obtain ⟨hstatus, hexited⟩ := Prod.mk.inj hkept
        exact Or.inl ⟨status, ⟨hwait, hpid' ▸ hpid, hterminal⟩, hstatus, hexited⟩
      · rw [if_neg hpid'] at hkept
        obtain ⟨hstatus, hexited⟩ := Prod.mk.inj hkept
        refine Or.inr ⟨fun status' hshown ↦ ?_, hstatus, hexited⟩
        exact hpid' (Option.some.inj (hpid.symm.trans (hend hwait hshown).1))

end Collector

/-- What the kernel promises of the end of a process: it is reported, always as what it was, and as
long as it is not there is something to wait for. -/
structure Reports (pid : Int) (status : WaitStatus) (observations : List Observation) : Prop where
  reported : ∃ o ∈ observations, EndOf pid status o
  faithful : ∀ o ∈ observations, ∀ status', EndOf pid status' o → status' = status
  waits : ∀ before after o, observations = before ++ o :: after → o.wait = .echild →
    ∃ o' ∈ before, EndOf pid status o'

theorem Reports.tail {pid : Int} {status : WaitStatus} {o : Observation}
    {observations : List Observation} (h : Reports pid status (o :: observations))
    (hnot : ¬ EndOf pid status o) : Reports pid status observations where
  reported := by
    obtain ⟨o', hmem, hend⟩ := h.reported
    rcases List.mem_cons.mp hmem with rfl | hrest
    · exact absurd hend hnot
    · exact ⟨o', hrest, hend⟩
  faithful := fun o' hmem ↦ h.faithful o' (List.mem_cons_of_mem o hmem)
  waits := fun before after o' heq hwait ↦ by
    obtain ⟨o₁, hmem, hend⟩ := h.waits (o :: before) after o' (by rw [heq]; rfl) hwait
    rcases List.mem_cons.mp hmem with rfl | hrest
    · exact absurd hend hnot
    · exact ⟨o₁, hrest, hend⟩

/-- Once the root has ended, its status is not changed any more. -/
theorem collect_ended {t : Target} {options : CollectorOptions} {c c' : Collector}
    {status : WaitStatus} {observations rest : List Observation}
    (hroot : options.rootPid ∉ options.excludePids)
    (hfaithful : ∀ o ∈ observations, ∀ status', EndOf options.rootPid status' o → status' = status)
    (hstatus : c.rootStatus = status)
    (h : collect t options c observations = .ok (c', rest)) : c'.rootStatus = status := by
  induction observations generalizing c with
  | nil =>
    obtain ⟨rfl, _⟩ := Prod.mk.inj (Except.ok.inj h)
    exact hstatus
  | cons o after ih =>
    have hround : ∀ c₁, (c.round t options o).collector = some c₁ → c₁.rootStatus = status := by
      intro c₁ hc₁
      rcases (Collector.round_root hroot hc₁).1 with ⟨status', hend, hkept, _⟩ | ⟨_, hkept, _⟩
      · rw [hkept, hfaithful o (by simp) status' hend]
      · rw [hkept, hstatus]
    rw [collect] at h
    split at h
    · rename_i c₁ hnext
      exact ih (fun o' hmem ↦ hfaithful o' (List.mem_cons_of_mem o hmem))
        (hround c₁ (by rw [hnext]; rfl)) h
    · rename_i c₁ hdone
      obtain ⟨rfl, _⟩ := Prod.mk.inj (Except.ok.inj h)
      exact hround c₁ (by rw [hdone]; rfl)
    · simp at h

/-- **The collector returns the status the root ended with.** -/
theorem collect_rootStatus {t : Target} {options : CollectorOptions} {c c' : Collector}
    {status : WaitStatus} {observations rest : List Observation}
    (hroot : options.rootPid ∉ options.excludePids)
    (hreports : Reports options.rootPid status observations) (hrunning : c.rootExited = false)
    (h : collect t options c observations = .ok (c', rest)) : c'.rootStatus = status := by
  induction observations generalizing c with
  | nil =>
    obtain ⟨o, hmem, _⟩ := hreports.reported
    simp at hmem
  | cons o after ih =>
    have hafter : ∀ o' ∈ after, ∀ status', EndOf options.rootPid status' o' → status' = status :=
      fun o' hmem ↦ hreports.faithful o' (List.mem_cons_of_mem o hmem)
    rw [collect] at h
    split at h
    · rename_i c₁ hnext
      have hround : (c.round t options o).collector = some c₁ := by rw [hnext]; rfl
      rcases (Collector.round_root hroot hround).1 with
        ⟨status', hend, hkept, _⟩ | ⟨hnot, _, hexited⟩
      · rw [hreports.faithful o (by simp) status' hend] at hkept
        exact collect_ended hroot hafter hkept h
      · exact ih (hreports.tail (hnot status)) (hexited.trans hrunning) h
    · rename_i c₁ hdone
      obtain ⟨rfl, _⟩ := Prod.mk.inj (Except.ok.inj h)
      have hround : (c.round t options o).collector = some c₁ := by rw [hdone]; rfl
      obtain ⟨hshown, hended⟩ := Collector.round_root hroot hround
      rcases hshown with ⟨status', hend, hkept, _⟩ | ⟨_, _, hexited⟩
      · rw [hkept, hreports.faithful o (by simp) status' hend]
      · -- the loop has ended without the root: there was nothing to wait for, but there was
        rcases hended with hnext | hechild | hexited'
        · simp [hdone] at hnext
        · obtain ⟨o', hmem, _⟩ := hreports.waits [] after o rfl hechild
          simp at hmem
        · simp [hexited, hrunning] at hexited'
    · simp at h

/-! ## What the capture says -/

/-- A number of calls as a map holds it: no entry without a call, and a `u64` otherwise. -/
def tally (calls : Nat) : Option UInt64 := if calls = 0 then none else some (UInt64.ofNat calls)

theorem tally_succ (calls : Nat) : tally (calls + 1) = some ((tally calls).getD 0 + 1) := by
  rw [tally, if_neg (Nat.succ_ne_zero calls), tally]
  split
  · rename_i hzero
    rw [hzero]
    rfl
  · rw [Option.getD_some, UInt64.ofNat_add]
    rfl

/-- How often a number was recorded. -/
def Capture.count (capture : Capture) (n : Int) : Option UInt64 :=
  capture.counts[n]?.map SyscallObservation.count

theorem Capture.count_record (capture : Capture) (number : Int) (ms : UInt64) (n : Int) :
    (capture.record number ms).count n =
      if number = n then some ((capture.count n).getD 0 + 1) else capture.count n := by
  rw [count, record, Std.ExtTreeMap.getElem?_alter]
  by_cases hn : number = n
  · subst hn
    rw [if_pos (Std.LawfulEqCmp.compare_eq_iff_eq.mpr rfl), if_pos rfl, count]
    cases capture.counts[number]? <;> rfl
  · rw [if_neg (mt Std.LawfulEqCmp.compare_eq_iff_eq.mp hn), if_neg hn, count]

/-- Every call is counted under its number, and none as foreign. -/
structure CountsAll (calls : List Registers) (capture : Capture) : Prop where
  count : ∀ n, capture.count n = tally (calls.countP fun call ↦ syscallNumber call = n)
  foreign : capture.foreignArchCounts = ∅

theorem CountsAll.record {calls : List Registers} {capture : Capture}
    (h : CountsAll calls capture) (call : Registers) (ms : UInt64) :
    CountsAll (calls ++ [call]) (capture.record (syscallNumber call) ms) := by
  refine ⟨fun n ↦ ?_, h.foreign⟩
  rw [Capture.count_record, h.count, List.countP_append, List.countP_singleton]
  by_cases hn : syscallNumber call = n
  · rw [if_pos hn, if_pos (decide_eq_true hn), tally_succ]
  · rw [if_neg hn, if_neg (by simpa using hn), Nat.add_zero]

theorem CountsAll.of_sameCounts {calls : List Registers} {c c' : Capture} (h : CountsAll calls c)
    (hsame : SameCounts c c') : CountsAll calls c' :=
  ⟨fun n ↦ by rw [Capture.count, hsame.1, ← Capture.count, h.count], hsame.2.trans h.foreign⟩

theorem CountsAll.recorded {calls : List Registers} {capture : Capture}
    (h : CountsAll calls capture) (options : CollectorOptions) (o : Observation) :
    CountsAll (calls ++ (trappedCall options o).toList) (recorded options capture o) := by
  rw [Seccomp.recorded]
  split
  · rename_i call hcall
    rw [hcall]
    exact h.record call o.elapsedMs
  · rename_i hcall
    rw [hcall, Option.toList_none, List.append_nil]
    exact h

/-- **The induction over a run**: what every round preserves holds of what was consumed. -/
theorem collect_invariant {t : Target} {options : CollectorOptions} {c c' : Collector}
    {P : List Observation → Collector → Prop}
    (hround : ∀ before c o c', P before c → (c.round t options o).collector = some c' →
      P (before ++ [o]) c') {before observations rest : List Observation} (hc : P before c)
    (h : collect t options c observations = .ok (c', rest)) :
    ∃ consumed, observations = consumed ++ rest ∧ P (before ++ consumed) c' := by
  induction observations generalizing c before with
  | nil =>
    obtain ⟨rfl, rfl⟩ := Prod.mk.inj (Except.ok.inj h)
    exact ⟨[], rfl, by rwa [List.append_nil]⟩
  | cons o later ih =>
    rw [collect] at h
    split at h
    · rename_i c₁ hnext
      obtain ⟨consumed, rfl, hP⟩ := ih (hround before c o c₁ hc (by rw [hnext]; rfl)) h
      exact ⟨o :: consumed, rfl, by rwa [List.append_cons]⟩
    · rename_i c₁ hdone
      obtain ⟨rfl, rfl⟩ := Prod.mk.inj (Except.ok.inj h)
      exact ⟨[o], rfl, hround before c o c₁ hc (by rw [hdone]; rfl)⟩
    · cases h

/-- A run is the loop and the end of the capture. -/
theorem collect_of_collectorRun {t : Target} {options : CollectorOptions}
    {startedAtUnix durationMs : UInt64} {observations rest : List Observation} {c : Collector}
    (h : collectorRun t options startedAtUnix durationMs observations = .ok (c, rest)) :
    ∃ c', collect t options { capture := newCapture t startedAtUnix } observations =
        .ok (c', rest) ∧
      c = { c' with capture := finishCapture c'.capture durationMs } := by
  rw [collectorRun] at h
  cases hcollect : collect t options { capture := newCapture t startedAtUnix } observations with
  | error e =>
    rw [hcollect] at h
    cases h
  | ok ended =>
    rw [hcollect] at h
    obtain ⟨hc, rfl⟩ := Prod.mk.inj (Except.ok.inj h)
    exact ⟨ended.1, rfl, hc.symm⟩

/-- What every round preserves, at the end of a run. -/
theorem collectorRun_invariant {t : Target} {options : CollectorOptions}
    {startedAtUnix durationMs : UInt64} {observations rest : List Observation} {c : Collector}
    {P : List Observation → Collector → Prop}
    (hround : ∀ before c o c', P before c → (c.round t options o).collector = some c' →
      P (before ++ [o]) c') (hstart : P [] { capture := newCapture t startedAtUnix })
    (h : collectorRun t options startedAtUnix durationMs observations = .ok (c, rest)) :
    ∃ consumed c', observations = consumed ++ rest ∧ P consumed c' ∧
      c = { c' with capture := finishCapture c'.capture durationMs } := by
  obtain ⟨c', hcollect, hc⟩ := collect_of_collectorRun h
  obtain ⟨consumed, hconsumed, hP⟩ := collect_invariant hround hstart hcollect
  exact ⟨consumed, c', hconsumed, hP, hc⟩

theorem trappedCalls_concat (options : CollectorOptions) (observations : List Observation)
    (o : Observation) : trappedCalls options (observations ++ [o]) =
      trappedCalls options observations ++ (trappedCall options o).toList := by
  rw [trappedCalls, List.filterMap_append, ← trappedCalls]
  cases h : trappedCall options o <;> simp [h]

theorem newCapture_countsAll (t : Target) (startedAtUnix : UInt64) :
    CountsAll [] (newCapture t startedAtUnix) :=
  ⟨fun n ↦ by simp [Capture.count, newCapture, tally], rfl⟩

/-- **The collector counts every trapped call as a native one.** -/
theorem collectorRun_counts {t : Target} {options : CollectorOptions}
    {startedAtUnix durationMs : UInt64} {observations : List Observation} {c : Collector}
    (h : collectorRun t options startedAtUnix durationMs observations = .ok (c, [])) :
    CountsAll (trappedCalls options observations) c.capture := by
  obtain ⟨consumed, c', rfl, hcounts, rfl⟩ := collectorRun_invariant
    (P := fun consumed c ↦ CountsAll (trappedCalls options consumed) c.capture)
    (fun before c o c' hcounts hround ↦ by
      rw [trappedCalls_concat]
      exact (hcounts.recorded options o).of_sameCounts (Collector.round_sameCounts hround))
    (newCapture_countsAll t startedAtUnix) h
  rw [List.append_nil]
  exact hcounts.of_sameCounts ⟨rfl, rfl⟩

/-- A capture that attributes every call to its architecture: native calls are counted by number,
foreign ones by architecture, and only native calls are among the numbers. -/
structure Attributes (t : Target) (calls : List Registers) (capture : Capture) : Prop where
  native : ∀ n, capture.count n = tally (calls.countP fun call ↦
    call.auditArch = auditArchNative t ∧ syscallNumber call = n)
  foreign : ∀ arch, arch ≠ auditArchNative t →
    capture.foreignArchCounts[arch]? = tally (calls.countP fun call ↦ call.auditArch = arch)
  numbers : ∀ n ∈ capture.counts, ∃ call ∈ calls,
    call.auditArch = auditArchNative t ∧ syscallNumber call = n

/-- With nothing but native calls, counting all of them is right. -/
theorem CountsAll.attributes {t : Target} {calls : List Registers} {capture : Capture}
    (h : CountsAll calls capture) (hnative : ∀ call ∈ calls, call.auditArch = auditArchNative t) :
    Attributes t calls capture := by
  have hcount : ∀ n, capture.count n = tally (calls.countP fun call ↦
      call.auditArch = auditArchNative t ∧ syscallNumber call = n) := by
    intro n
    rw [h.count]
    refine congrArg tally (List.countP_congr fun call hcall ↦ ?_)
    simp [hnative call hcall]
  refine ⟨hcount, fun arch harch ↦ ?_, fun n hn ↦ ?_⟩
  · have hzero : calls.countP (fun call ↦ call.auditArch = arch) = 0 := by
      rw [List.countP_eq_zero]
      intro call hcall heq
      exact harch ((of_decide_eq_true heq).symm.trans (hnative call hcall))
    rw [h.foreign, hzero, Std.ExtTreeMap.getElem?_empty]
    rfl
  · have hsome : (capture.count n).isSome := by
      rw [Capture.count, Option.isSome_map]
      exact Std.ExtTreeMap.isSome_getElem?_iff_mem.mpr hn
    rw [hcount, tally] at hsome
    split at hsome
    · simp at hsome
    · rename_i hne
      obtain ⟨call, hcall, hcond⟩ := List.countP_pos_iff.mp (Nat.pos_of_ne_zero hne)
      exact ⟨call, hcall, of_decide_eq_true hcond⟩

/-- A foreign call is missing from the foreign counts. -/
theorem CountsAll.not_attributes {t : Target} {calls : List Registers} {capture : Capture}
    (h : CountsAll calls capture) {call : Registers} (hcall : call ∈ calls)
    (hforeign : call.auditArch ≠ auditArchNative t) : ¬ Attributes t calls capture := by
  intro hattr
  have hentry := hattr.foreign call.auditArch hforeign
  have hpos : calls.countP (fun c ↦ c.auditArch = call.auditArch) ≠ 0 := by
    refine Nat.pos_iff_ne_zero.mp (List.countP_pos_iff.mpr ⟨call, hcall, ?_⟩)
    exact decide_eq_true rfl
  rw [h.foreign, Std.ExtTreeMap.getElem?_empty, tally, if_neg hpos] at hentry
  simp at hentry

/-- **Learn mode attributes every trapped call to its architecture** exactly if every trapped call
is native. -/
theorem attribution_exact (t : Target) (options : CollectorOptions)
    (startedAtUnix durationMs : UInt64) (observations : List Observation) (c : Collector)
    (h : collectorRun t options startedAtUnix durationMs observations = .ok (c, [])) :
    Attributes t (trappedCalls options observations) c.capture ↔
      ∀ call ∈ trappedCalls options observations, call.auditArch = auditArchNative t := by
  have hcounts := collectorRun_counts h
  refine ⟨fun hattr call hcall ↦ ?_, hcounts.attributes⟩
  by_contra hforeign
  exact hcounts.not_attributes hcall hforeign hattr

/-- Process 42 stops for its tracer, makes one call, and exits. -/
def oneCall (registers : Registers) : List Observation :=
  [{ wait := .status (.stopped 42 .stop) },
    { wait := .status (.ptraceEvent 42 .trap ptraceEventSeccomp), registers := .ok registers },
    { wait := .status (.exited 42 0) }]

/-- The collector that has seen that. -/
def oneCallEnd (t : Target) (registers : Registers) : Collector :=
  ((collectorRun t { rootPid := 42 } 1000 5 (oneCall registers)).toOption.map Prod.fst).getD
    { capture := {} }

/-- A native `read`. -/
theorem attribution_of_read :
    Attributes .x86_64 [⟨0xc000003e, 0⟩] (oneCallEnd .x86_64 ⟨0xc000003e, 0⟩).capture :=
  (attribution_exact .x86_64 { rootPid := 42 } 1000 5 (oneCall ⟨0xc000003e, 0⟩)
    (oneCallEnd .x86_64 ⟨0xc000003e, 0⟩) rfl).mpr (by decide)

/-- A 32-bit program calls `execve`, number 11 there, and is recorded as having called `munmap`. -/
theorem foreign_execve_is_munmap :
    trappedCalls { rootPid := 42 } (oneCall ⟨0x40000003, 11⟩) = [⟨0x40000003, 11⟩] ∧
      collectorRun .x86_64 { rootPid := 42 } 1000 5 (oneCall ⟨0x40000003, 11⟩) =
        .ok (oneCallEnd .x86_64 ⟨0x40000003, 11⟩, []) ∧
      (oneCallEnd .x86_64 ⟨0x40000003, 11⟩).capture.count 11 = some 1 ∧
      ¬ Attributes .x86_64 [⟨0x40000003, 11⟩] (oneCallEnd .x86_64 ⟨0x40000003, 11⟩).capture := by
  have hrun : collectorRun .x86_64 { rootPid := 42 } 1000 5 (oneCall ⟨0x40000003, 11⟩) =
      .ok (oneCallEnd .x86_64 ⟨0x40000003, 11⟩, []) := rfl
  have hcounts := collectorRun_counts hrun
  refine ⟨rfl, hrun, ?_, hcounts.not_attributes List.mem_cons_self (by decide)⟩
  rw [hcounts.count]
  decide

end CrunRs.Seccomp
