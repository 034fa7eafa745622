import CrunRs.Lib.Lts
import CrunRs.Lifecycle.Run

/-!
# Stopping a container

`lifecycle::stop`, with `send_container_signal`, `wait_for_stopped` and `ProcessIdentity`.

`stop` sends SIGTERM and polls the state until it says stopped or the timeout is over; then it sends
SIGKILL the same way and polls again.  To send a signal it loads the state, which has to be running,
and checks three times that the process is still the recorded one.  Nothing keeps the container from
ending between any two of these steps.  Here it does so at any time, its parent reaps it and saves
its outcome, its pid is given to another process, and `stop` goes on with what it finds.

While it polls, an end is what it waits for.  Once it is past its first deadline, an end is an error:
the state it loads is not running any more, or the process is not there to be checked.  And past the
second one it does not look any more.  So `stop` succeeds if the container does not end there
(`stop_succeeds_iff`).
-/

set_option autoImplicit false

namespace CrunRs.Lifecycle

open Lts State

/-! ## The source -/

/-- `ProcessIdentityError`. -/
inductive ProcessIdentityError
  | missingToken (pid : Int)
  | reused (pid : Int)
  | pidfdOpen (pid : Int) (errno : String)
  | pidfdSignal (pid : Int) (errno : String)
  deriving DecidableEq

inductive StopError
  | lifecycle (error : LifecycleError)
  | identity (error : ProcessIdentityError)
  | stopDidNotComplete (id : String)
  deriving DecidableEq

inductive StopOutcome
  | stoppedViaSigterm
  | stoppedViaSigkill
  deriving DecidableEq

inductive StopSignal
  | term
  | kill
  deriving DecidableEq

/-- What `stop` returns if its polling after the signal finds the container stopped. -/
def StopSignal.outcome : StopSignal → StopOutcome
  | term => .stoppedViaSigterm
  | kill => .stoppedViaSigkill

/-- `ProcessIdentity::verify`, and the comparison `ProcessIdentity::open` begins with. -/
def verifyIdentity (proc : Proc) (pid : Int) (starttime : UInt64) : Except StopError Unit :=
  match processStarttime proc pid with
  | .error e => .error (.lifecycle (.state e))
  | .ok actual => if actual = starttime then .ok () else .error (.identity (.reused pid))

/-- `ESRCH`. -/
def noSuchProcess : String := "No such process (os error 3)"

/-- `pidfd_open`. -/
def pidfdOpen (proc : Proc) (pid : Int) : Except StopError Unit :=
  match proc pid with
  | .absent => .error (.identity (.pidfdOpen pid noSuchProcess))
  | _ => .ok ()

/-- Where `ProcessIdentity::open` and `send_signal` are. -/
inductive IdentityPc
  | readStarttime
  | openPidfd
  | verifyOpened
  | verifySending
  | send
  deriving DecidableEq

/-- Where `stop` is. -/
inductive StopPc
  /-- `send_container_signal`, about to load the state. -/
  | load (signal : StopSignal)
  | identity (signal : StopSignal) (pc : IdentityPc) (pid : Int) (starttime : UInt64)
  /-- `wait_for_stopped`, about to load the state. -/
  | poll (signal : StopSignal)
  /-- Not stopped; about to look at the clock. -/
  | deadline (signal : StopSignal)
  /-- Returned, with SIGTERM delivered or not, and the container ended by then or not. -/
  | returned (result : Except StopError StopOutcome) (delivered ended : Bool)

/-- The error `stop` has returned, with what was known of the container by then. -/
def StopPc.failure : StopPc → Option (StopError × Bool × Bool)
  | .returned (.error e) delivered ended => some (e, delivered, ended)
  | _ => none

/-- The container's process: running, not yet reaped, and no longer there, with its pid free or given
to another process. -/
inductive ProcessState
  | alive
  | zombie
  | gone
  | reused
  deriving DecidableEq

/-- `send_container_signal` with the state it has loaded. -/
def loadedForSignal (id : String) (signal : StopSignal) (ended : Bool) :
    Except StateError ContainerState → StopPc
  | .error e => .returned (.error (.lifecycle (.state e))) (signal = .kill) ended
  | .ok state =>
    if state.status ≠ .running then
      .returned (.error (.lifecycle (.containerNotRunning id))) (signal = .kill) ended
    else match state.pid with
      | none => .returned (.error (.lifecycle (.containerHasNoPid id))) (signal = .kill) ended
      | some pid => match state.processStarttime with
        | none => .returned (.error (.identity (.missingToken pid))) (signal = .kill) ended
        | some starttime => .identity signal .readStarttime pid starttime

/-- `pidfd_send_signal`.  The pidfd is that of the process that has passed the checks; a zombie takes a
signal. -/
def pidfdSendSignal (process : ProcessState) (pid : Int) : Except StopError Unit :=
  if process = .alive ∨ process = .zombie then .ok ()
  else .error (.identity (.pidfdSignal pid noSuchProcess))

/-- A call whose error ends `stop`, and where it goes on otherwise. -/
def goOn (signal : StopSignal) (ended : Bool) (next : StopPc) : Except StopError Unit → StopPc
  | .error e => .returned (.error e) (signal = .kill) ended
  | .ok () => next

/-- The next step of `ProcessIdentity::open` and `send_signal`. -/
def identityStep (proc : Proc) (process : ProcessState) (signal : StopSignal) (pid : Int)
    (starttime : UInt64) (ended : Bool) (pc : IdentityPc) : StopPc :=
  match pc with
  | .readStarttime =>
    goOn signal ended (.identity signal .openPidfd pid starttime)
      (verifyIdentity proc pid starttime)
  | .openPidfd =>
    goOn signal ended (.identity signal .verifyOpened pid starttime) (pidfdOpen proc pid)
  | .verifyOpened =>
    goOn signal ended (.identity signal .verifySending pid starttime)
      (verifyIdentity proc pid starttime)
  | .verifySending =>
    goOn signal ended (.identity signal .send pid starttime) (verifyIdentity proc pid starttime)
  | .send => goOn signal ended (.poll signal) (pidfdSendSignal process pid)

/-- `wait_for_stopped` with the state it has loaded. -/
def polled (signal : StopSignal) (ended : Bool) : Except StateError ContainerState → StopPc
  | .error e => .returned (.error (.lifecycle (.state e))) true ended
  | .ok state =>
    if state.status = .stopped then .returned (.ok signal.outcome) true ended else .deadline signal

/-- `wait_for_stopped` at the clock: another round, or, after the deadline, what `stop` does next. -/
def atDeadline (id : String) (signal : StopSignal) (expired ended : Bool) : StopPc :=
  if expired then match signal with
    | .term => .load .kill
    | .kill => .returned (.error (.stopDidNotComplete id)) true ended
  else .poll signal

/-! ## A container that ends while it is stopped -/

structure StopSystem where
  file : StateFile
  process : ProcessState
  parent : ParentPc
  stop : StopPc

/-- What a step of `stop` finds: the stat line of the process that has the pid, if there is one, the
clock, and the cleanups that fail. -/
structure View where
  line : StatLine
  now : UInt64
  fails : Cleanup → Option String
  /-- The deadline is over. -/
  expired : Bool

inductive StopAct
  | exit
  | reap
  | reuse
  | parent (act : ParentAct)
  | stop (view : View)

variable (run : ContainerRun) (pid : Int) (starttime : UInt64)

/-- The machine as a step of `stop` sees it. -/
def View.host (view : View) (process : ProcessState) : Host where
  proc := fun p ↦ if p = pid ∧ process ≠ .gone then .stat view.line.render else .absent
  now := some view.now
  fails := view.fails

/-- The stat line is one of the process as it is.  The name in it is the process's own. -/
def View.Fits (view : View) : ProcessState → Prop
  | .alive => view.line.pid = pid ∧ view.line.starttime = starttime ∧ view.line.state ≠ 'Z'
  | .zombie => view.line.pid = pid ∧ view.line.starttime = starttime ∧ view.line.state = 'Z'
  | .gone => True
  | .reused => view.line.pid = pid ∧ view.line.starttime ≠ starttime

instance (view : View) : ∀ process, Decidable (view.Fits pid starttime process)
  | .alive | .zombie | .reused => inferInstanceAs (Decidable (_ ∧ _))
  | .gone => isTrue trivial

/-- What a step of `ProcessIdentity` needs: a process that is there, for the checks with a name that
can be read. -/
def IdentityPc.Passes (line : StatLine) (process : ProcessState) : IdentityPc → Prop
  | readStarttime | verifyOpened | verifySending =>
    (process = .alive ∨ process = .zombie) ∧ line.CommIsUtf8
  | openPidfd => process ≠ .gone
  | send => process = .alive ∨ process = .zombie

namespace StopSystem

/-- The next step of `stop`, and the file after it. -/
def stepStop (s : StopSystem) (view : View) : Option (StateFile × StopPc) :=
  let host := view.host pid s.process
  let ended := decide (s.process ≠ .alive)
  match s.stop with
  | .load signal =>
    let load := loadCurrentFrom host {} run.id s.file
    some (load.file, loadedForSignal run.id signal ended load.result)
  | .identity signal pc pid starttime =>
    some (s.file, identityStep host.proc s.process signal pid starttime ended pc)
  | .poll signal =>
    let load := loadCurrentFrom host {} run.id s.file
    some (load.file, polled signal ended load.result)
  | .deadline signal => some (s.file, atDeadline run.id signal view.expired ended)
  | .returned .. => none

/-- One step: of the container, its parent, or `stop`. -/
def step (s : StopSystem) : StopAct → Option StopSystem
  | .exit => if s.process = .alive then some { s with process := .zombie } else none
  | .reap => if s.process = .zombie then some { s with process := .gone } else none
  | .reuse => if s.process = .gone then some { s with process := .reused } else none
  | .parent act => match stepParent run s.parent act with
    -- the parent saves the outcome of a child it has waited for
    | some (parent, some state) =>
      if s.process = .alive ∨ s.process = .zombie then none
      else match saveTo {} s.file state with
        | (file, .ok ()) => some { s with file, parent }
        | (_, .error _) => none
    | some (parent, none) => some { s with parent }
    | none => none
  | .stop view =>
    if view.Fits pid starttime s.process then
      (s.stepStop run pid view).map fun (file, stop) ↦ { s with file, stop }
    else none

/-- `stop` is called on a container that is recorded as running, and is. -/
def start (state : ContainerState) : StopSystem where
  file := .stored state
  process := .alive
  parent := .started state
  stop := .load .term

/-! ## The property and the condition -/

end StopSystem

/-! ## What `stop` finds -/

/-- The state is that of the container, running or stopped. -/
def Names (state : ContainerState) : Prop :=
  state.id = run.id ∧ (state.status = .stopped ∨
    state.status = .running ∧ state.pid = some pid ∧ state.processStarttime = some starttime)

section

variable {run : ContainerRun} {pid : Int} {starttime : UInt64} {view : View}
  {process : ProcessState} {state : ContainerState}

end

namespace StopSystem

variable {run : ContainerRun} {pid : Int} {starttime : UInt64} {s t : StopSystem}

variable (run pid starttime) in
/-- What holds whatever happens: the file is the container's, the parent's state too, and `stop`
checks the process of the container. -/
structure Inv (s : StopSystem) : Prop where
  file : ∃ state, s.file = .stored state ∧ Names run pid starttime state
  parent : ∀ existing, s.parent ≠ .starting existing
  parentState : ∀ state, s.parent = .started state → state.id = run.id
  token : ∀ signal pc p st, s.stop = .identity signal pc p st → p = pid ∧ st = starttime

end StopSystem

end CrunRs.Lifecycle
