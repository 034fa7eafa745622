import CrunRs.State.Store

/-!
# Running a container

The part of `lifecycle.rs` that a started container's state goes through: `run_container_process`
records the container as running from inside the `on_started` callback of `run_process`, and as
stopped, with the outcome of the child, when `run_process` returns.

Both records are made from what the runtime process has in memory.  The state file is not read
again.
-/

set_option autoImplicit false

namespace CrunRs.Lifecycle

open Network State

/-! ## How a child ends -/

/-- The signals of the platform. -/
inductive Signal
  | hup | int | quit | ill | trap | abrt | bus | fpe | kill | usr1 | segv | usr2 | pipe | alrm | term
  | stkflt | chld | cont | stop | tstp | ttin | ttou | urg | xcpu | xfsz | vtalrm | prof | winch | io
  | pwr | sys
  deriving DecidableEq, Repr

/-- `{:?}` of a signal. -/
def Signal.debug : Signal → String
  | hup => "SIGHUP" | int => "SIGINT" | quit => "SIGQUIT" | ill => "SIGILL" | trap => "SIGTRAP"
  | abrt => "SIGABRT" | bus => "SIGBUS" | fpe => "SIGFPE" | kill => "SIGKILL" | usr1 => "SIGUSR1"
  | segv => "SIGSEGV" | usr2 => "SIGUSR2" | pipe => "SIGPIPE" | alrm => "SIGALRM" | term => "SIGTERM"
  | stkflt => "SIGSTKFLT" | chld => "SIGCHLD" | cont => "SIGCONT" | stop => "SIGSTOP"
  | tstp => "SIGTSTP" | ttin => "SIGTTIN" | ttou => "SIGTTOU" | urg => "SIGURG" | xcpu => "SIGXCPU"
  | xfsz => "SIGXFSZ" | vtalrm => "SIGVTALRM" | prof => "SIGPROF" | winch => "SIGWINCH"
  | io => "SIGIO" | pwr => "SIGPWR" | sys => "SIGSYS"

/-- The number of a signal, the real-time signals included. -/
structure Signo where
  number : Nat
  positive : 1 ≤ number
  le : number ≤ 64
  deriving DecidableEq

/-- The signals that have a name, from number 1 on. -/
def namedSignals : List Signal :=
  [.hup, .int, .quit, .ill, .trap, .abrt, .bus, .fpe, .kill, .usr1, .segv, .usr2, .pipe, .alrm, .term,
    .stkflt, .chld, .cont, .stop, .tstp, .ttin, .ttou, .urg, .xcpu, .xfsz, .vtalrm, .prof, .winch,
    .io, .pwr, .sys]

/-- `Signal::try_from`; the real-time signals have no name. -/
def signalOf (signo : Signo) : Option Signal := namedSignals[signo.number - 1]?

/-- The name of a signal, or its number. -/
def Signo.name (signo : Signo) : String :=
  ((signalOf signo).map Signal.debug).getD (toString signo.number)

theorem mem_namedSignals (signal : Signal) : signal ∈ namedSignals := by
  cases signal <;> decide

theorem nodup_namedSignals : namedSignals.Nodup := by decide

def Signal.signo (signal : Signal) : Signo where
  number := namedSignals.idxOf signal + 1
  positive := Nat.le_add_left 1 _
  le := by
    have hlt : namedSignals.idxOf signal < namedSignals.length :=
      List.idxOf_lt_length_of_mem (mem_namedSignals signal)
    have hlength : namedSignals.length = 31 := rfl
    omega

theorem signalOf_eq_some_iff {signo : Signo} {signal : Signal} :
    signalOf signo = some signal ↔ signo = signal.signo := by
  obtain ⟨number, hpositive, hle⟩ := signo
  rw [signalOf, Signal.signo, Signo.mk.injEq, List.getElem?_eq_some_iff]
  constructor
  · rintro ⟨hlt, rfl⟩
    rw [nodup_namedSignals.idxOf_getElem]
    exact (Nat.sub_add_cancel hpositive).symm
  · rintro rfl
    exact ⟨List.idxOf_lt_length_of_mem (mem_namedSignals signal), List.getElem_idxOf _⟩

theorem Signal.signo_injective : Function.Injective Signal.signo := fun _ _ hsame ↦
  Option.some.inj ((signalOf_eq_some_iff.mpr rfl).symm.trans (signalOf_eq_some_iff.mpr hsame))

theorem signalOf_eq_none_iff {signo : Signo} : signalOf signo = none ↔ 31 < signo.number := by
  have hlength : namedSignals.length = 31 := rfl
  have hpositive := signo.positive
  rw [signalOf, List.getElem?_eq_none_iff]
  omega

/-- What `waitpid` reports. -/
inductive WaitStatus
  | exited (pid : Int) (code : Int)
  | signaled (pid : Int) (signal : Signal) (coreDumped : Bool)
  | stopped (pid : Int) (signal : Signal)
  | ptraceEvent (pid : Int) (signal : Signal) (event : Int)
  | ptraceSyscall (pid : Int)
  | continued (pid : Int)
  | stillAlive
  deriving DecidableEq, Repr

/-- `{:?}` of a value with unnamed fields. -/
def debugTuple (name : String) (fields : List String) : String :=
  name ++ ("(" ++ ", ".intercalate fields ++ ")")

/-- `{:?}` of a status. -/
def WaitStatus.debug : WaitStatus → String
  | exited pid code => debugTuple "Exited" [debugTuple "Pid" [toString pid], toString code]
  | signaled pid signal core =>
    debugTuple "Signaled" [debugTuple "Pid" [toString pid], signal.debug, toString core]
  | stopped pid signal => debugTuple "Stopped" [debugTuple "Pid" [toString pid], signal.debug]
  | ptraceEvent pid signal event =>
    debugTuple "PtraceEvent" [debugTuple "Pid" [toString pid], signal.debug, toString event]
  | ptraceSyscall pid => debugTuple "PtraceSyscall" [debugTuple "Pid" [toString pid]]
  | continued pid => debugTuple "Continued" [debugTuple "Pid" [toString pid]]
  | stillAlive => "StillAlive"

/-- The code and the signal of the `ProcessExit` that `run_process` returns. -/
def processExit : WaitStatus → Option Int × Option String
  | .exited _ code => (some code, none)
  | .signaled _ signal _ => (none, some signal.debug)
  | other => (none, some other.debug)

theorem debugTuple_ne_stale {name : String} (fields : List String)
    (h : name.toList.take 2 ≠ ['S', 'T']) (hlen : 2 ≤ name.toList.length) :
    debugTuple name fields ≠ "STALE" := by
  intro heq
  have htake := congrArg (fun s : String ↦ s.toList.take 2) heq
  rw [debugTuple, String.toList_append, List.take_append_of_le_length hlen] at htake
  exact h htake

theorem Signal.debug_ne_stale (signal : Signal) : signal.debug ≠ "STALE" := by
  cases signal <;> decide

/-- No outcome of a child looks like a recovery. -/
theorem processExit_ne_stale (status : WaitStatus) : (processExit status).2 ≠ some "STALE" := by
  cases status with
  | exited pid code => exact (Option.some_ne_none _).symm
  | signaled pid signal core => exact fun h ↦ signal.debug_ne_stale (Option.some.inj h)
  | stillAlive => decide
  | stopped | ptraceEvent | ptraceSyscall | continued =>
    exact fun h ↦ debugTuple_ne_stale _ (by decide) (by decide) (Option.some.inj h)

/-! ## The two records -/

/-- What `run_process` hands to `on_started`. -/
structure StartedProcess where
  pid : Int
  cgroupPath : Option String
  networkSubnet : Option String
  natLease : Option NatLease
  overlayOwnership : Option OverlayOwnership

/-- The options of `run_container_process` that end up in the state. -/
structure ContainerRun where
  id : String
  bundle : String
  captureLogs : Bool
  metadata : RuntimeMetadata

/-- The resources `save_started_state` records. -/
def ContainerRun.resources (run : ContainerRun) (started : StartedProcess) : StartedResources where
  cgroupPath := started.cgroupPath
  networkSubnet := started.networkSubnet
  natLease := started.natLease
  overlayOwnership := started.overlayOwnership
  logPath := if run.captureLogs then some (logFile run.id) else none

/-- The state `save_started_state` saves: the created one marked running, or a new one. -/
def startedState (run : ContainerRun) (host : Host) (existing : Option ContainerState)
    (started : StartedProcess) : Except StateError ContainerState :=
  match existing with
  | some state =>
    match state.markRunning host.now (processStarttime host.proc started.pid) started.pid
        (run.resources started) run.metadata.logMode with
    | (_, .error e) => .error e
    | (state, .ok ()) => .ok state
  | none =>
    ContainerState.running host.now (processStarttime host.proc started.pid) run.id run.bundle
      started.pid (run.resources started) run.metadata

/-- The state saved when `run_process` has returned. -/
def stoppedState (now : Option UInt64) (state : ContainerState) (status : WaitStatus) :
    Except StateError ContainerState :=
  match state.markStopped now (processExit status).1 (processExit status).2 with
  | (_, .error e) => .error e
  | (state, .ok ()) => .ok state

/-- What is saved is a new record, or the created one marked running. -/
theorem startedState_eq_ok {run : ContainerRun} {host : Host} {existing : Option ContainerState}
    {started : StartedProcess} {new : ContainerState}
    (h : startedState run host existing started = .ok new) :
    (existing = none ∧ ContainerState.running host.now (processStarttime host.proc started.pid)
      run.id run.bundle started.pid (run.resources started) run.metadata = .ok new) ∨
    ∃ state, existing = some state ∧ state.markRunning host.now
      (processStarttime host.proc started.pid) started.pid (run.resources started)
      run.metadata.logMode = (new, .ok ()) := by
  cases existing with
  | none => exact Or.inl ⟨rfl, h⟩
  | some state =>
    rw [startedState] at h
    split at h
    · simp at h
    · rename_i hmark
      cases h
      exact Or.inr ⟨state, rfl, hmark⟩

theorem startedState_status {run : ContainerRun} {host : Host} {existing : Option ContainerState}
    {started : StartedProcess} {new : ContainerState}
    (h : startedState run host existing started = .ok new) : new.status = .running := by
  rcases startedState_eq_ok h with ⟨_, hrunning⟩ | ⟨state, _, hmark⟩
  · exact ContainerState.running_status hrunning
  · exact ContainerState.markRunning_status hmark

/-- A created container is recorded as running if the clock and the identity of its process can be
read. -/
theorem startedState_existing {run : ContainerRun} {host : Host} {state : ContainerState}
    {started : StartedProcess} {secs ticks : UInt64} (hnow : host.now = some secs)
    (hidentity : processStarttime host.proc started.pid = .ok ticks) :
    ∃ new, startedState run host (some state) started = .ok new ∧ new.id = state.id ∧
      new.status = .running := by
  rw [startedState, hnow, hidentity]
  exact ⟨_, rfl, rfl, rfl⟩

theorem stoppedState_eq_ok {now : Option UInt64} {state new : ContainerState} {status : WaitStatus}
    (h : stoppedState now state status = .ok new) :
    state.markStopped now (processExit status).1 (processExit status).2 = (new, .ok ()) := by
  unfold stoppedState at h
  split at h
  · simp at h
  · rename_i hmark
    cases h
    exact hmark

theorem stoppedState_eq {now : Option UInt64} {state new : ContainerState} {status : WaitStatus}
    (h : stoppedState now state status = .ok new) :
    new.status = .stopped ∧ (new.exitCode, new.signal) = processExit status := by
  obtain ⟨hstatus, hcode, hsignal⟩ := ContainerState.markStopped_eq (stoppedState_eq_ok h)
  exact ⟨hstatus, Prod.ext hcode hsignal⟩

/-- With a clock that can be read, a state can be marked stopped, and keeps its id. -/
theorem exists_stoppedState {now : Option UInt64} (state : ContainerState) (status : WaitStatus)
    (hnow : now.isSome) : ∃ new, stoppedState now state status = .ok new ∧ new.id = state.id := by
  obtain ⟨secs, rfl⟩ := Option.isSome_iff_exists.mp hnow
  exact ⟨_, rfl, rfl⟩

/-! ## The runtime process -/

/-- Where the runtime process is. -/
inductive ParentPc
  /-- In `run_process`, with the created state if it was started from one. -/
  | starting (existing : Option ContainerState)
  /-- `on_started` has saved this state. -/
  | started (state : ContainerState)
  /-- The outcome of the child has been saved. -/
  | stopped (status : WaitStatus)
  /-- Ended with an error. -/
  | failed
  deriving DecidableEq

def ParentPc.isStopped : ParentPc → Bool
  | stopped _ => true
  | _ => false

/-- What it does next to the state file.  A save here is one that succeeds; one that fails leaves the
file as it was (`saveTo_cases`), and then the process fails. -/
inductive ParentAct
  | saveStarted (host : Host) (started : StartedProcess)
  | saveStopped (now : Option UInt64) (status : WaitStatus)
  | fail

/-- One step of `run_container_process`, with the state it saves. -/
def stepParent (run : ContainerRun) :
    ParentPc → ParentAct → Option (ParentPc × Option ContainerState)
  | .starting existing, .saveStarted host started =>
    match startedState run host existing started with
    | .ok state => some (.started state, some state)
    | .error _ => none
  | .started state, .saveStopped now status => match stoppedState now state status with
    | .ok state => some (.stopped status, some state)
    | .error _ => none
  | .starting _, .fail | .started _, .fail => some (.failed, none)
  | _, _ => none

theorem stepParent_cases {run : ContainerRun} {pc pc' : ParentPc} {act : ParentAct}
    {saved : Option ContainerState} (h : stepParent run pc act = some (pc', saved)) :
    (∃ host started state, act = .saveStarted host started ∧ pc.isStopped = false ∧
      pc' = .started state ∧ saved = some state ∧ state.status = .running) ∨
    (∃ now status state, act = .saveStopped now status ∧ pc.isStopped = false ∧
      pc' = .stopped status ∧ saved = some state ∧ state.status = .stopped ∧
      (state.exitCode, state.signal) = processExit status) ∨
    (act = .fail ∧ pc.isStopped = false ∧ pc' = .failed ∧ saved = none) := by
  unfold stepParent at h
  split at h
  · split at h
    · rename_i state hstate
      cases h
      exact Or.inl ⟨_, _, state, rfl, rfl, rfl, rfl, startedState_status hstate⟩
    · simp at h
  · split at h
    · rename_i state hstate
      cases h
      exact Or.inr (Or.inl ⟨_, _, state, rfl, rfl, rfl, rfl, stoppedState_eq hstate⟩)
    · simp at h
  · cases h
    exact Or.inr (Or.inr ⟨rfl, rfl, rfl, rfl⟩)
  · cases h
    exact Or.inr (Or.inr ⟨rfl, rfl, rfl, rfl⟩)
  · simp at h

/-- A container without a network. -/
def sampleRun : ContainerRun where
  id := "demo"
  bundle := "/bundle"
  captureLogs := false
  metadata :=
    { networkMode := "none", securityProfile := "denylist", logMode := "off", usernsMode := "host"
      usernsMap := none, rootfsMode := "direct", policyProfile := "none", tty := false
      seccompMode := "off", seccompProfile := none, seccompAction := none
      seccompOrder := "by-frequency", seccompLog := false }

/-- Its process is number 42 of `sampleHost`. -/
def sampleStarted : StartedProcess where
  pid := 42
  cgroupPath := none
  networkSubnet := none
  natLease := none
  overlayOwnership := none

theorem processStarttime_sample : processStarttime (sampleHost [97]).proc 42 = .ok 7 :=
  @StatLine.processStarttime_of_utf8 (sampleLine [97]) _ rfl (by decide +kernel)

/-- The stat line of process 42, up to its start time. -/
def bareLine : StatLine := { sampleLine [97] with rest := [] }

/-- A machine on which every pid shows that line and every cleanup works. -/
def bareHost : Host where
  proc := fun _ ↦ .stat bareLine.render
  now := some 2000
  fails := fun _ ↦ none

theorem processStarttime_bare : processStarttime bareHost.proc 42 = .ok 7 :=
  @StatLine.processStarttime_of_utf8 bareLine _ rfl (by decide +kernel)

end CrunRs.Lifecycle
