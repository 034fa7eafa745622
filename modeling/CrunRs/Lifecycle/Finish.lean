import CrunRs.AuditLog
import CrunRs.Lifecycle.Launch
import CrunRs.Lifecycle.Teardown
import CrunRs.Seccomp.Collector

/-!
# The end of a run

What `run_container_process` does from the save of the running state to its return: `run_process`
lets the child go, waits for it, hears what it has to say, waits for the log helper and cleans up;
and then the capture is written and the outcome recorded.

Each of these steps may fail, and each failure is passed on at once.  The state file is not touched
before the very last step, so a failure anywhere before leaves a container that has ended recorded as
running (`helper_failure_hides_exit`).  The outcome is recorded exactly if nothing fails on the way
(`outcome_recorded_iff`).
-/

set_option autoImplicit false

namespace CrunRs.Lifecycle

open AuditLog Fallible Network Seccomp State

/-! ## The container and the system -/

/-- A container whose process has been forked and whose resources are set up; `on_started` is called
next.  Its id has been checked, and the log helper and the proxy of the terminal are other
processes. -/
structure Forked where
  target : Target
  launch : Launch
  run : ContainerRun
  existing : Option ContainerState
  pid : Int
  resources : ParentResources
  logHelper : Option Int
  proxy : Option Int
  valid : validateId run.id = .ok ()
  logHelper_ne : logHelper ≠ some pid
  proxy_ne : proxy ≠ some pid

/-- The system calls of `CaptureFile::save`. -/
inductive CaptureFault
  | createDir
  | write
  deriving DecidableEq, Repr

/-- What the system answers from the save of the running state on.  A write says whether it succeeds,
and a read or a wait that fails has no answer. -/
structure Answers where
  /-- The time of the events in the audit log. -/
  timestamp : UInt64 := 0
  startedAppend : Option AppendFault := none
  signal : Bool := true
  /-- How many bytes the child announces its user namespace with. -/
  usernsReady : Option Nat := some 1
  writeProc : String → String → Bool := fun _ _ ↦ true
  mapped : Bool := true
  /-- `waitpid` of the child. -/
  wait : Option WaitStatus := none
  /-- What the tracer sees, in learn mode. -/
  observations : List Observation := []
  startedAtUnix : UInt64 := 0
  durationMs : UInt64 := 0
  /-- What the child wrote to the error pipe. -/
  childError : Option ByteArray := some ByteArray.empty
  /-- `waitpid` of the log helper. -/
  waitHelper : Option WaitStatus := none
  /-- The error of a cleanup step, if it fails. -/
  fails : Cleanup → Option String := fun _ ↦ none
  capture : Option CaptureFault := none
  capturedAppend : Option AppendFault := none
  now : Option UInt64 := some 0
  save : StoreFaults := {}
  stoppedAppend : Option AppendFault := none

/-! ## `run_process`, from the signal on -/

/-- `wait_for_userns_ready`. -/
def waitForUsernsReady (count : Option Nat) : Except LifecycleError Unit :=
  match count with
  | none => .error (.context "failed to wait for child user namespace")
  | some count => ensure (count ≠ 0) (.container .childExitedBeforeUsernsReady)

/-- `write_uid_gid_maps`. -/
def writeUidGidMaps (writeProc : String → String → Bool) (pid : Int) (map : UserNamespaceMap) :
    Except LifecycleError Unit := do
  let procDir := "/proc/" ++ toString pid
  let write (name content : String) : Except LifecycleError Unit :=
    ensure (writeProc (procDir ++ "/" ++ name) content)
      (.context ("failed to write " ++ procDir ++ "/" ++ name))
  write "setgroups" "deny\n"
  write "uid_map" ("0 " ++ toString map.hostUid ++ " 1\n")
  write "gid_map" ("0 " ++ toString map.hostGid ++ " 1\n")

/-- The child's user namespace is mapped, if it has one of its own. -/
def mapUserns (f : Forked) (answers : Answers) : Except LifecycleError Unit :=
  match f.launch.process.usernsMode with
  | .host => .ok ()
  | .private_ map => do
    waitForUsernsReady answers.usernsReady
    writeUidGidMaps answers.writeProc f.pid map
    ensure answers.mapped (.context "failed to signal child that user namespace is mapped")

/-- The options of the tracer. -/
def Forked.collectorOptions (f : Forked) : CollectorOptions where
  rootPid := f.pid
  excludePids := f.logHelper.toList ++ f.proxy.toList

/-- What waiting for the child gives. -/
structure Awaited where
  status : WaitStatus
  capture : Option Capture
  reapedOthers : List (Int × WaitStatus)

/-- The child is waited for, by the tracer in learn mode. -/
def awaitChild (f : Forked) (answers : Answers) : Except LifecycleError Awaited :=
  if f.launch.process.seccompMode = .learn then
    match collectorRun f.target f.collectorOptions answers.startedAtUnix answers.durationMs
        answers.observations with
    | .ok (c, _) => .ok ⟨c.rootStatus, some c.capture, c.reapedOthers⟩
    | .error _ => .error (.context "failed to collect container syscalls")
  else match answers.wait with
    | some status => .ok ⟨status, none, []⟩
    | none => .error (.context "failed to wait for child process")

/-- `reaped_status`. -/
def Awaited.reapedStatus (awaited : Awaited) (target : Option Int) : Option WaitStatus :=
  target.bind fun pid ↦ (awaited.reapedOthers.find? fun reaped ↦ reaped.1 = pid).map Prod.snd

/-- `read_child_error`. -/
def readChildError (bytes : Option ByteArray) : Except LifecycleError (Option String) :=
  match bytes.bind Text.decode with
  | none => .error (.context "failed to read child error")
  | some message =>
    let message := Text.trim message
    .ok (if message = [] then none else some (String.ofList message))

/-- How the log helper has to have ended. -/
def checkLogHelper : WaitStatus → Except LifecycleError Unit
  | .exited _ code => ensure (code = 0) (.container (.logHelperExited code))
  | .signaled _ signal _ => .error (.container (.logHelperKilled signal.debug))
  | other => .error (.container (.logHelperStatus other.debug))

/-- `wait_for_log_helper_status`. -/
def waitForLogHelperStatus (logHelper : Option Int) (alreadyReaped wait : Option WaitStatus) :
    Except LifecycleError Unit :=
  match logHelper with
  | none => .ok ()
  | some _ => match alreadyReaped.or wait with
    | none => .error (.context "failed to wait for log helper")
    | some status => checkLogHelper status

namespace ParentResources

/-- What `run_process` hands to `on_started`. -/
def started (resources : ParentResources) (pid : Int) : StartedProcess where
  pid := pid
  cgroupPath := resources.cgroup
  networkSubnet := resources.bridgeNetwork.map BridgeNetwork.subnet
  natLease := resources.natLease
  overlayOwnership := resources.overlayOwnership

/-- The error a failed cleanup step ends with. -/
def cleanupError (resources : ParentResources) (step : Cleanup) (error : String) : LifecycleError :=
  match step with
  | .nat _ => .context ("failed to cleanup NAT for " ++
      ((resources.bridgeNetwork.map BridgeNetwork.subnet).getD ""))
  | .bridgeAllocation _ => .context ("failed to release bridge subnet for " ++ resources.containerId)
  | .overlay _ => .context ("failed to cleanup overlay artifacts for " ++ resources.containerId)
  | .veth _ | .cgroup _ => .context error

/-- `ParentResources::cleanup`: every step is tried, and the first error is kept. -/
def cleanup (resources : ParentResources) (fails : Cleanup → Option String) :
    Except LifecycleError Unit :=
  let firstError := resources.cleanups.foldl
    (fun first step ↦ first.or ((fails step).map (resources.cleanupError step))) none
  firstError.elim (.ok ()) .error

end ParentResources

/-- `ProcessExit`. -/
structure ProcessExit where
  pid : Int
  code : Option Int
  signal : Option String
  error : Option String
  capture : Option Capture

/-- `run_process`, from the return of `on_started` on. -/
def runProcess (f : Forked) (answers : Answers) : Except LifecycleError ProcessExit := do
  ensure answers.signal (.context "failed to signal child")
  mapUserns f answers
  let awaited ← awaitChild f answers
  let childError ← readChildError answers.childError
  waitForLogHelperStatus f.logHelper (awaited.reapedStatus f.logHelper) answers.waitHelper
  f.resources.cleanup answers.fails
  return {
    pid := f.pid, code := (processExit awaited.status).1, signal := (processExit awaited.status).2,
    error := childError, capture := awaited.capture }

/-! ## `run_container_process`, from `on_started` on -/

/-- The files it writes: the state, and the audit log. -/
structure RunFiles where
  state : StateFile
  log : AuditLog.Files

namespace RunFiles

/-- `state::save`. -/
def save (faults : StoreFaults) (files : RunFiles) (state : ContainerState) :
    RunFiles × Except LifecycleError Unit :=
  ({ files with state := (saveTo faults files.state state).1 },
    (saveTo faults files.state state).2.mapError .state)

/-- `audit_log::append`. -/
def append (json : EventJson) (fault : Option AppendFault) (files : RunFiles) (event : AuditEvent) :
    RunFiles × Except LifecycleError Unit :=
  match validateId event.id with
  | .error e => (files, .error (.state e))
  | .ok () =>
    let parent := "/run/crun-rs/" ++ event.id
    let appended := appendAtPath json fault (parent ++ "/runtime.log") parent files.log event
    ({ files with log := appended.1 }, appended.2.mapError .auditLog)

end RunFiles

/-- An event of the run. -/
def Forked.event (f : Forked) (answers : Answers) (source name : String) (status : String)
    (value : Option UInt64) : AuditEvent where
  timestampUnix := answers.timestamp
  id := f.run.id
  source := source
  name := name
  value := value
  delta := none
  fields := none
  status := some status

section

variable (json : EventJson)

/-- `save_started_state`: the files, and the state that is kept in memory. -/
def saveStartedState (f : Forked) (host : Host) (faults : StoreFaults) (answers : Answers)
    (files : RunFiles) : RunFiles × Except LifecycleError ContainerState :=
  match startedState f.run host f.existing (f.resources.started f.pid) with
  | .error e => (files, .error (.state e))
  | .ok state => match files.save faults state with
    | (files, .error e) => (files, .error e)
    | (files, .ok ()) =>
      match files.append json answers.startedAppend
          (f.event answers "lifecycle" "started" "running" none) with
      | (files, .error e) => (files, .error e)
      | (files, .ok ()) => (files, .ok state)

/-- `CaptureFile::save`, as far as it goes wrong. -/
def saveCaptureFile (lossy : ByteArray → String) (fault : Option CaptureFault) (path : OsPath) :
    Except LifecycleError Unit :=
  match path.parent with
  | some parent => do
    ensure (¬ (parent.bytes ≠ [] ∧ fault = some .createDir))
      (.context ("failed to create capture directory: " ++ parent.display lossy))
    ensure (fault ≠ some .write)
      (.context ("failed to write syscall capture: " ++ path.display lossy))
  | none => ensure (fault ≠ some .write)
    (.context ("failed to write syscall capture: " ++ path.display lossy))

/-- Where the capture is written. -/
def Forked.capturePath (f : Forked) : OsPath :=
  f.launch.seccomp.capturePath.getD (captureFile f.run.id)

/-- The capture is saved and announced, if there is one. -/
def saveCapture (lossy : ByteArray → String) (f : Forked) (answers : Answers) (files : RunFiles)
    (capture : Option Capture) : RunFiles × Except LifecycleError Unit :=
  match capture with
  | none => (files, .ok ())
  | some capture => match validateId f.run.id with
    | .error e => (files, .error (.state e))
    | .ok () => match saveCaptureFile lossy answers.capture f.capturePath with
      | .error e => (files, .error e)
      | .ok () =>
        let file := CaptureFile.fromCapture f.target f.run.id f.launch.process.args capture
        files.append json answers.capturedAppend
          (f.event answers "seccomp" "captured" "captured" (some file.syscalls.size.toUInt64))

/-- `ContainerRunReport`; there are no warnings. -/
structure ContainerRunReport where
  exitCode : Option Int
  exitSignal : Option String
  childError : Option String
  deriving DecidableEq, Repr

/-- The outcome is recorded, and announced. -/
def recordStopped (f : Forked) (answers : Answers) (files : RunFiles) (state : ContainerState)
    (exit : ProcessExit) : RunFiles × Except LifecycleError ContainerRunReport :=
  match state.markStopped answers.now exit.code exit.signal with
  | (_, .error _) => (files, .error (.context "failed to update stopped state"))
  | (state, .ok ()) => match files.save answers.save state with
    | (files, .error e) => (files, .error e)
    | (files, .ok ()) =>
      let value := exit.code.bind fun code ↦ if 0 ≤ code then some code.toNat.toUInt64 else none
      match files.append json answers.stoppedAppend
          (f.event answers "lifecycle" "stopped" "stopped" value) with
      | (files, .error e) => (files, .error e)
      | (files, .ok ()) => (files, .ok ⟨exit.code, exit.signal, exit.error⟩)

/-- **`run_container_process`, from `on_started` on.** -/
def runContainerProcess (lossy : ByteArray → String) (f : Forked) (host : Host)
    (faults : StoreFaults) (answers : Answers) (files : RunFiles) :
    RunFiles × Except LifecycleError ContainerRunReport :=
  match saveStartedState json f host faults answers files with
  | (files, .error e) => (files, .error e)
  | (files, .ok state) => match runProcess f answers with
    | .error e => (files, .error e)
    | .ok exit => match saveCapture json lossy f answers files exit.capture with
      | (files, .error e) => (files, .error e)
      | (files, .ok ()) => recordStopped json f answers files state exit

end

/-! ## When a step succeeds -/

theorem checkLogHelper_eq_ok_iff {status : WaitStatus} :
    checkLogHelper status = .ok () ↔ ∃ pid, status = .exited pid 0 := by
  cases status with
  | exited pid code =>
    rw [checkLogHelper, ensure_eq_ok_iff]
    simp
  | _ => simp [checkLogHelper]

theorem waitForLogHelperStatus_eq_ok_iff {logHelper : Option Int}
    {alreadyReaped wait : Option WaitStatus} :
    waitForLogHelperStatus logHelper alreadyReaped wait = .ok () ↔
      (logHelper.isSome → ∃ pid, alreadyReaped.or wait = some (.exited pid 0)) := by
  cases logHelper with
  | none => simp [waitForLogHelperStatus]
  | some pid =>
    rw [waitForLogHelperStatus]
    cases alreadyReaped.or wait with
    | none => simp
    | some status => simp [checkLogHelper_eq_ok_iff]

theorem readChildError_ok_iff {bytes : Option ByteArray} :
    (∃ message, readChildError bytes = .ok message) ↔
      ∃ content, bytes = some content ∧ content.IsValidUTF8 := by
  cases bytes with
  | none => simp [readChildError]
  | some content =>
    by_cases hvalid : content.IsValidUTF8
    · simp [readChildError, Text.decode, String.fromUTF8?, hvalid]
    · simp [readChildError, Text.decode_eq_none hvalid, hvalid]

/-- The cleanup succeeds exactly if each of its steps does. -/
theorem ParentResources.cleanup_eq_ok_iff {resources : ParentResources}
    {fails : Cleanup → Option String} :
    resources.cleanup fails = .ok () ↔ ∀ step ∈ resources.cleanups, fails step = none := by
  have hfold : ∀ (steps : List Cleanup) (first : Option LifecycleError),
      steps.foldl (fun first step ↦ first.or ((fails step).map (resources.cleanupError step)))
        first = none ↔ first = none ∧ ∀ step ∈ steps, fails step = none := by
    intro steps
    induction steps with
    | nil => simp
    | cons step steps ih =>
      intro first
      rw [List.foldl_cons, ih, Option.or_eq_none_iff, Option.map_eq_none_iff, List.forall_mem_cons,
        and_assoc]
  have hall := hfold resources.cleanups none
  rw [and_iff_right rfl] at hall
  rw [cleanup, ← hall]
  cases resources.cleanups.foldl
    (fun first step ↦ first.or ((fails step).map (resources.cleanupError step))) none with
  | none => simp
  | some e => simp

/-- The user namespace of the child is announced and mapped, if it has one of its own. -/
def UsernsMapped (f : Forked) (answers : Answers) : Prop :=
  ∀ map, f.launch.process.usernsMode = .private_ map →
    (∃ count, answers.usernsReady = some count ∧ count ≠ 0) ∧
      (answers.writeProc ("/proc/" ++ toString f.pid ++ "/" ++ "setgroups") "deny\n" ∧
        answers.writeProc ("/proc/" ++ toString f.pid ++ "/" ++ "uid_map")
          ("0 " ++ toString map.hostUid ++ " 1\n") ∧
        answers.writeProc ("/proc/" ++ toString f.pid ++ "/" ++ "gid_map")
          ("0 " ++ toString map.hostGid ++ " 1\n")) ∧
      answers.mapped

theorem waitForUsernsReady_eq_ok_iff {count : Option Nat} {u : Unit} :
    waitForUsernsReady count = .ok u ↔ ∃ n, count = some n ∧ n ≠ 0 := by
  cases count with
  | none => simp [waitForUsernsReady]
  | some n =>
    rw [waitForUsernsReady, ensure_eq_ok_iff]
    simp

theorem mapUserns_eq_ok_iff {f : Forked} {answers : Answers} :
    mapUserns f answers = .ok () ↔ UsernsMapped f answers := by
  rw [mapUserns, UsernsMapped]
  cases f.launch.process.usernsMode with
  | host => simp
  | private_ map =>
    simp [bind_eq_ok_iff, waitForUsernsReady_eq_ok_iff, writeUidGidMaps, ensure_eq_ok_iff,
      and_assoc]

/-- The calls of `run_process` succeed, once the child has been waited for. -/
structure ProcessCalls (f : Forked) (answers : Answers) (awaited : Awaited) : Prop where
  signal : answers.signal
  userns : UsernsMapped f answers
  childError : ∃ content, answers.childError = some content ∧ content.IsValidUTF8
  helper : f.logHelper.isSome →
    ∃ pid, (awaited.reapedStatus f.logHelper).or answers.waitHelper = some (.exited pid 0)
  cleanup : ∀ step ∈ f.resources.cleanups, answers.fails step = none

/-- **When `run_process` returns**, and what. -/
theorem runProcess_eq_ok_iff {f : Forked} {answers : Answers} {exit : ProcessExit} :
    runProcess f answers = .ok exit ↔ ∃ awaited, awaitChild f answers = .ok awaited ∧
      ProcessCalls f answers awaited ∧ ∃ error, readChildError answers.childError = .ok error ∧
        exit = {
          pid := f.pid, code := (processExit awaited.status).1,
          signal := (processExit awaited.status).2, error, capture := awaited.capture } := by
  rw [runProcess]
  constructor
  · intro h
    obtain ⟨_, hsignal, h⟩ := bind_eq_ok_iff.mp h
    obtain ⟨_, huserns, h⟩ := bind_eq_ok_iff.mp h
    obtain ⟨awaited, hawaited, h⟩ := bind_eq_ok_iff.mp h
    obtain ⟨error, herror, h⟩ := bind_eq_ok_iff.mp h
    obtain ⟨_, hhelper, h⟩ := bind_eq_ok_iff.mp h
    obtain ⟨_, hcleanup, h⟩ := bind_eq_ok_iff.mp h
    refine ⟨awaited, hawaited, ?_, error, herror, (pure_eq_ok_iff.mp h).symm⟩
    exact {
      signal := ensure_eq_ok_iff.mp hsignal
      userns := mapUserns_eq_ok_iff.mp huserns
      childError := readChildError_ok_iff.mp ⟨error, herror⟩
      helper := waitForLogHelperStatus_eq_ok_iff.mp hhelper
      cleanup := ParentResources.cleanup_eq_ok_iff.mp hcleanup }
  · rintro ⟨awaited, hawaited, hcalls, error, herror, rfl⟩
    refine bind_eq_ok_iff.mpr ⟨(), ensure_eq_ok_iff.mpr hcalls.signal, ?_⟩
    refine bind_eq_ok_iff.mpr ⟨(), mapUserns_eq_ok_iff.mpr hcalls.userns, ?_⟩
    refine bind_eq_ok_iff.mpr ⟨awaited, hawaited, ?_⟩
    refine bind_eq_ok_iff.mpr ⟨error, herror, ?_⟩
    refine bind_eq_ok_iff.mpr ⟨(), waitForLogHelperStatus_eq_ok_iff.mpr hcalls.helper, ?_⟩
    exact bind_eq_ok_iff.mpr ⟨(), ParentResources.cleanup_eq_ok_iff.mpr hcalls.cleanup, rfl⟩

/-! ## The files -/

section

variable {json : EventJson} {lossy : ByteArray → String} {f : Forked} {answers : Answers}
  {files : RunFiles}

/-- The state file is not where events go. -/
@[simp] theorem RunFiles.append_state (fault : Option AppendFault) (event : AuditEvent) :
    (files.append json fault event).1.state = files.state := by
  rw [append]
  split <;> rfl

theorem RunFiles.append_log {fault : Option AppendFault} {event : AuditEvent} (state : StateFile) :
    ({ files with state }.append json fault event).1.log = (files.append json fault event).1.log := by
  rw [append, append]
  split <;> rfl

theorem RunFiles.append_eq_ok_iff {fault : Option AppendFault} {event : AuditEvent}
    (hid : validateId event.id = .ok ()) :
    (files.append json fault event).2 = .ok () ↔ Appends json fault files.log event := by
  rw [append, hid]
  dsimp only
  rw [mapError_eq_ok_iff, appendAtPath_eq_ok_iff]

/-- The capture file can be written. -/
def CaptureWritten (fault : Option CaptureFault) (path : OsPath) : Prop :=
  fault ≠ some .write ∧ (fault = some .createDir → ∀ parent ∈ path.parent, parent.bytes = [])

theorem saveCaptureFile_eq_ok_iff {fault : Option CaptureFault} {path : OsPath} :
    saveCaptureFile lossy fault path = .ok () ↔ CaptureWritten fault path := by
  rw [saveCaptureFile, CaptureWritten]
  cases path.parent with
  | none =>
    rw [ensure_eq_ok_iff]
    simp
  | some parent =>
    simp only [bind_eq_ok_iff, ensure_eq_ok_iff, exists_const]
    cases fault with
    | none => simp
    | some call => cases call <;> simp

/-- The event that announces a capture. -/
def Forked.capturedEvent (f : Forked) (answers : Answers) (capture : Capture) : AuditEvent :=
  f.event answers "seccomp" "captured" "captured"
    (some (CaptureFile.fromCapture f.target f.run.id f.launch.process.args
      capture).syscalls.size.toUInt64)

/-- The capture, if there is one, can be written and announced. -/
def CaptureSaved (json : EventJson) (f : Forked) (answers : Answers) (log : AuditLog.Files)
    (capture : Option Capture) : Prop :=
  ∀ c ∈ capture, CaptureWritten answers.capture f.capturePath ∧
    Appends json answers.capturedAppend log (f.capturedEvent answers c)

theorem saveCapture_eq_ok_iff {capture : Option Capture} :
    (saveCapture json lossy f answers files capture).2 = .ok () ↔
      CaptureSaved json f answers files.log capture := by
  cases capture with
  | none => simp [saveCapture, CaptureSaved]
  | some capture =>
    rw [saveCapture, f.valid, CaptureSaved]
    simp only [Option.mem_def, Option.some.injEq, forall_eq']
    rw [← @saveCaptureFile_eq_ok_iff lossy]
    cases saveCaptureFile lossy answers.capture f.capturePath with
    | error e => simp
    | ok u =>
      rw [and_iff_right rfl]
      exact RunFiles.append_eq_ok_iff f.valid

theorem saveCapture_state (capture : Option Capture) :
    (saveCapture json lossy f answers files capture).1.state = files.state := by
  cases capture with
  | none => rfl
  | some capture =>
    rw [saveCapture, f.valid]
    dsimp only
    split
    · rfl
    · exact RunFiles.append_state _ _

/-! ## The outcome -/

/-- The state file says that the container has ended, and how. -/
def OutcomeRecorded (status : WaitStatus) (file : StateFile) : Prop :=
  ∃ state, file = .stored state ∧ state.status = .stopped ∧
    (state.exitCode, state.signal) = processExit status

theorem not_recorded_of_running {status : WaitStatus} {file : StateFile} {running : ContainerState}
    (hfile : file = .stored running) (hrunning : running.status = .running) :
    ¬ OutcomeRecorded status file := by
  rintro ⟨state, hstate, hstopped, _⟩
  obtain rfl := StateFile.stored.inj (hfile.symm.trans hstate)
  simp [hrunning] at hstopped

/-- The last step records the outcome exactly if the clock can be read and the file be written; that
it is announced does not matter any more. -/
theorem recordStopped_recorded_iff {running : ContainerState} {exit : ProcessExit}
    {status : WaitStatus} (hfile : files.state = .stored running)
    (hrunning : running.status = .running) (hid : validateId running.id = .ok ())
    (hexit : (exit.code, exit.signal) = processExit status) :
    OutcomeRecorded status (recordStopped json f answers files running exit).1.state ↔
      answers.now.isSome ∧ answers.save.lock = none ∧ answers.save.write = none := by
  rw [recordStopped]
  cases hmark : running.markStopped answers.now exit.code exit.signal with
  | mk stopped result =>
    have hclock := @ContainerState.markStopped_eq_ok_iff running answers.now exit.code exit.signal
    have hsame := running.markStopped_id answers.now exit.code exit.signal
    rw [hmark] at hclock hsame
    cases result with
    | error e =>
      rw [← hclock]
      simpa using not_recorded_of_running hfile hrunning
    | ok u =>
      obtain ⟨hstopped, hcode, hsignal⟩ := ContainerState.markStopped_eq hmark
      have hsave := @saveTo_eq_ok_iff answers.save files.state stopped (hsame.symm ▸ hid)
      rw [← hclock, and_iff_right rfl, ← hsave]
      dsimp only
      rw [RunFiles.save]
      rcases saveTo_cases answers.save files.state stopped with hsaved | ⟨e, hsaved⟩
      · rw [hsaved]
        refine iff_of_true ?_ rfl
        refine ⟨stopped, ?_, hstopped, by rw [hcode, hsignal, hexit]⟩
        simp only [Except.mapError]
        split <;> rename_i heq <;>
          exact (congrArg (fun r ↦ r.1.state) heq).symm.trans (RunFiles.append_state _ _)
      · rw [hsaved]
        simpa [Except.mapError] using not_recorded_of_running hfile hrunning

/-- How the child ends, and that whoever waits for it is told so. -/
structure ChildEnds (f : Forked) (status : WaitStatus) (answers : Answers) : Prop where
  pid : statusPid status = some f.pid
  terminal : isTerminal status
  wait : ∀ status' ∈ answers.wait, status' = status
  observed : f.launch.process.seccompMode = .learn → Reports f.pid status answers.observations

/-- The wait for the child gives its status. -/
theorem ChildEnds.awaited {status : WaitStatus} (h : ChildEnds f status answers)
    {awaited : Awaited} (hawaited : awaitChild f answers = .ok awaited) :
    awaited.status = status := by
  unfold awaitChild at hawaited
  split at hawaited
  · rename_i hlearn
    split at hawaited
    · rename_i c rest hrun
      obtain rfl := Except.ok.inj hawaited
      have hroot : f.collectorOptions.rootPid ∉ f.collectorOptions.excludePids := by
        simp [Forked.collectorOptions, f.logHelper_ne, f.proxy_ne]
      rw [collectorRun] at hrun
      cases hcollect : collect f.target f.collectorOptions
          { capture := newCapture f.target answers.startedAtUnix } answers.observations with
      | error e => simp [hcollect, Except.map] at hrun
      | ok ended =>
        rw [hcollect] at hrun
        rw [← (Prod.mk.inj (Except.ok.inj hrun)).1]
        exact collect_rootStatus hroot (h.observed hlearn) rfl hcollect
    · simp at hawaited
  · split at hawaited
    · rename_i status' hwait
      obtain rfl := Except.ok.inj hawaited
      exact h.wait status' hwait
    · simp at hawaited

/-- The event that announces that the container is running. -/
def Forked.startedEvent (f : Forked) (answers : Answers) : AuditEvent :=
  f.event answers "lifecycle" "started" "running" none

/-- The condition: none of the steps fails from the save of the running state to that of the stopped
one. -/
structure Undisturbed (json : EventJson) (f : Forked) (answers : Answers) (files : RunFiles)
    (awaited : Awaited) : Prop where
  started : Appends json answers.startedAppend files.log (f.startedEvent answers)
  process : ProcessCalls f answers awaited
  captured : CaptureSaved json f answers
    (files.append json answers.startedAppend (f.startedEvent answers)).1.log awaited.capture
  clock : answers.now.isSome
  saved : answers.save.lock = none ∧ answers.save.write = none

/-- **The outcome of a started container is recorded exactly if no step on the way to the record
fails**: a child that was recorded as running and has ended is recorded as stopped, with its exit code
or signal, if it could be waited for, and every step from then on and up to the save succeeded. -/
theorem outcome_recorded_iff (json : EventJson) (lossy : ByteArray → String) (f : Forked)
    (host : Host) (faults : StoreFaults) (answers : Answers) (files : RunFiles)
    {running : ContainerState} {status : WaitStatus}
    (hstarted : startedState f.run host f.existing (f.resources.started f.pid) = .ok running)
    (hsaved : (saveTo faults files.state running).2 = .ok ())
    (hend : ChildEnds f status answers) :
    OutcomeRecorded status (runContainerProcess json lossy f host faults answers files).1.state ↔
      ∃ awaited, awaitChild f answers = .ok awaited ∧ Undisturbed json f answers files awaited := by
  have hrunning : running.status = .running := startedState_status hstarted
  have hid : validateId running.id = .ok () := validateId_of_saveTo hsaved
  have hfile : saveTo faults files.state running = (.stored running, .ok ()) := by
    rcases saveTo_cases faults files.state running with h | ⟨e, h⟩
    · exact h
    · simp [h] at hsaved
  -- what `on_started` leaves: the running state, and in memory the same if it was announced
  have happended := @RunFiles.append_eq_ok_iff json { files with state := .stored running }
    answers.startedAppend (f.startedEvent answers) f.valid
  have hstate := @RunFiles.append_state json { files with state := .stored running }
    answers.startedAppend (f.startedEvent answers)
  have hlog := @RunFiles.append_log json files answers.startedAppend (f.startedEvent answers)
    (.stored running)
  rw [runContainerProcess, saveStartedState, hstarted]
  simp only [RunFiles.save, hfile, Except.mapError]
  rw [← Forked.startedEvent]
  cases hresult : RunFiles.append json answers.startedAppend { files with state := .stored running }
      (f.startedEvent answers) with
  | mk files₁ result =>
    rw [hresult] at happended hstate hlog
    cases result with
    | error e =>
      refine iff_of_false (not_recorded_of_running hstate hrunning) ?_
      rintro ⟨awaited, _, hcalm⟩
      have hok := happended.mpr hcalm.started
      simp at hok
    | ok u =>
      have hstartedEvent := happended.mp rfl
      dsimp only
      cases hprocess : runProcess f answers with
      | error e =>
        refine iff_of_false (not_recorded_of_running hstate hrunning) ?_
        rintro ⟨awaited, hawaited, hcalm⟩
        obtain ⟨error, herror⟩ := readChildError_ok_iff.mpr hcalm.process.childError
        have hok := runProcess_eq_ok_iff.mpr ⟨awaited, hawaited, hcalm.process, error, herror, rfl⟩
        simp [hprocess] at hok
      | ok exit =>
        obtain ⟨awaited, hawaited, hcalls, error, _, rfl⟩ := runProcess_eq_ok_iff.mp hprocess
        have hunique : ∀ awaited', awaitChild f answers = .ok awaited' → awaited' = awaited :=
          fun awaited' h ↦ Except.ok.inj (h.symm.trans hawaited)
        have hcapture := @saveCapture_eq_ok_iff json lossy f answers files₁ awaited.capture
        have hkept := @saveCapture_state json lossy f answers files₁ awaited.capture
        rw [hlog] at hcapture
        dsimp only
        cases hcaptured : saveCapture json lossy f answers files₁ awaited.capture with
        | mk files₂ result =>
          rw [hcaptured] at hcapture hkept
          cases result with
          | error e =>
            refine iff_of_false (not_recorded_of_running (hkept.trans hstate) hrunning) ?_
            rintro ⟨awaited', hawaited', hcalm⟩
            have hok := hcapture.mpr (hunique awaited' hawaited' ▸ hcalm.captured)
            simp at hok
          | ok u =>
            have hexit : processExit awaited.status = processExit status :=
              congrArg processExit (hend.awaited hawaited)
            refine (recordStopped_recorded_iff (hkept.trans hstate) hrunning hid hexit).trans ?_
            constructor
            · rintro ⟨hclock, hsave⟩
              exact ⟨awaited, hawaited, hstartedEvent, hcalls, hcapture.mp rfl, hclock, hsave⟩
            · rintro ⟨_, _, hcalm⟩
              exact ⟨hcalm.clock, hcalm.saved⟩

end

/-! ## A log helper that fails -/

/-- A container whose output is logged by process 41. -/
def loggedContainer : Forked where
  target := .x86_64
  launch :=
    { bundle := .ofString "/bundle"
      process :=
        { id := "demo", hostname := none, args := ["/bin/true"], env := [], cwd := none
          rootfs := .ofString "/bundle/rootfs", overlayConfig := none, readonlyRootfs := false
          mounts := [], processUser := none, rlimits := [], maskedPaths := [], readonlyPaths := []
          logPath := some (logFile "demo"), flags := {}, cgroupConfig := none, networkMode := .none
          securityProfile := .denylist, usernsMode := .host, tty := false, seccompMode := .off
          seccompProgram := none, seccompFlags := 0 }
      logMode := .on
      seccomp :=
        { mode := .off, profilePath := none, capturePath := none, action := .errno
          order := .byFrequency, log := false } }
  run := { sampleRun with captureLogs := true, metadata.logMode := "on" }
  existing := none
  pid := 42
  resources :=
    { containerId := "demo", cgroup := none, bridgeNetwork := none, natLease := none
      overlayOwnership := none, releaseBridgeAllocation := false }
  logHelper := some 41
  proxy := none
  valid := rfl
  logHelper_ne := by decide
  proxy_ne := by decide

/-- Its process exits with code 0, and its log helper as given. -/
def helperEnds (status : WaitStatus) : Answers :=
  { wait := some (.exited 42 0), waitHelper := some status }

theorem helperEnds_childEnds (status : WaitStatus) :
    ChildEnds loggedContainer (.exited 42 0) (helperEnds status) where
  pid := rfl
  terminal := rfl
  wait := fun status' h ↦ (Option.some.inj h).symm
  observed := fun h ↦ by simp [loggedContainer] at h

theorem startedState_logged :
    ∃ running, startedState loggedContainer.run bareHost loggedContainer.existing
        (loggedContainer.resources.started loggedContainer.pid) = .ok running ∧
      (saveTo {} .missing running).2 = .ok () := by
  simp only [startedState, loggedContainer, ParentResources.started, processStarttime_bare]
  exact ⟨_, rfl, rfl⟩

/-- The log helper cannot write (`crun-rs run demo | head`, say) and exits with code 1.  The container
has exited with code 0, and stays recorded as running. -/
theorem helper_failure_hides_exit :
    (∃ running, startedState loggedContainer.run bareHost loggedContainer.existing
        (loggedContainer.resources.started loggedContainer.pid) = .ok running ∧
      (saveTo {} .missing running).2 = .ok ()) ∧
    ChildEnds loggedContainer (.exited 42 0) (helperEnds (.exited 41 1)) ∧
    (runContainerProcess createdJson (fun _ ↦ "?") loggedContainer bareHost {}
      (helperEnds (.exited 41 1)) ⟨.missing, {}⟩).2 =
        .error (.container (.logHelperExited 1)) ∧
    ¬ OutcomeRecorded (.exited 42 0) (runContainerProcess createdJson (fun _ ↦ "?") loggedContainer
      bareHost {} (helperEnds (.exited 41 1)) ⟨.missing, {}⟩).1.state := by
  have hrun : (runContainerProcess createdJson (fun _ ↦ "?") loggedContainer bareHost {}
      (helperEnds (.exited 41 1)) ⟨.missing, {}⟩).1.state.status = some .running := by
    decide +kernel
  refine ⟨startedState_logged, helperEnds_childEnds _, by decide +kernel, ?_⟩
  rintro ⟨state, hstate, hstopped, _⟩
  rw [hstate] at hrun
  simp [hstopped] at hrun

/-- With a log helper that does its work the outcome is recorded. -/
theorem outcome_recorded_logged :
    OutcomeRecorded (.exited 42 0) (runContainerProcess createdJson (fun _ ↦ "?") loggedContainer
      bareHost {} (helperEnds (.exited 41 0)) ⟨.missing, {}⟩).1.state := by
  obtain ⟨running, hstarted, hsaved⟩ := startedState_logged
  refine (outcome_recorded_iff createdJson (fun _ ↦ "?") loggedContainer bareHost {}
    (helperEnds (.exited 41 0)) ⟨.missing, {}⟩ hstarted hsaved (helperEnds_childEnds _)).mpr ?_
  refine ⟨⟨.exited 42 0, none, []⟩, rfl, ?_⟩
  exact {
    started := ⟨by decide +kernel, fun call h ↦ by simp [helperEnds] at h⟩
    process :=
      { signal := rfl
        userns := fun map h ↦ by simp [loggedContainer] at h
        childError := ⟨_, rfl, "".isValidUTF8⟩
        helper := fun _ ↦ ⟨41, rfl⟩
        cleanup := fun step _ ↦ rfl }
    captured := fun c h ↦ by simp at h
    clock := rfl
    saved := ⟨rfl, rfl⟩ }

end CrunRs.Lifecycle
