import CrunRs.Error
import CrunRs.Network.Veth

/-!
# The persisted container state

`state/mod.rs`: the record that is written to `/run/crun-rs/<id>/state.json` and the transitions it
goes through.

A transition changes the record in place and may fail on the way — reading the clock, or the start
time of a process — so it returns the record as it is left in either case.  `markStopped` reads the
clock after it has set the status and before it has cleared the resources, which is visible when the
clock fails (`markStopped_status`).
-/

set_option autoImplicit false

namespace CrunRs.State

open Network

/-! ## The record -/

inductive ContainerStatus
  | created
  | running
  | stopped
  deriving DecidableEq, Repr

structure UserNamespaceMap where
  hostUid : UInt32
  hostGid : UInt32
  deriving DecidableEq, Repr

/-- Which overlay directories a run set up, and whether the merged one was its own. -/
structure OverlayOwnership where
  upperdir : String
  workdir : String
  mergeddir : String
  mergedCreated : Bool := false
  deriving DecidableEq, Repr

structure HealthState where
  status : String
  exitCode : Option Int
  signal : Option String
  command : List String
  checkedAtUnix : UInt64
  deriving DecidableEq, Repr

/-- `STATE_SCHEMA_VERSION`. -/
def stateSchemaVersion : UInt32 := 4

structure ContainerState where
  schemaVersion : UInt32
  id : String
  pid : Option Int
  /-- `/proc/<pid>/stat` starttime ticks, paired with pid to prevent PID reuse. -/
  processStarttime : Option UInt64
  status : ContainerStatus
  bundle : String
  cgroupPath : Option String
  networkMode : String
  networkSubnet : Option String
  natLease : Option NatLease
  overlayOwnership : Option OverlayOwnership
  logPath : Option String
  logMode : String
  securityProfile : String
  usernsMode : String
  usernsMap : Option UserNamespaceMap
  rootfsMode : String
  policyProfile : String
  seccompMode : String
  seccompProfile : Option String
  seccompAction : Option String
  seccompOrder : String
  seccompLog : Bool
  tty : Bool
  health : Option HealthState
  createdAtUnix : UInt64
  updatedAtUnix : UInt64
  exitCode : Option Int
  signal : Option String
  deriving DecidableEq, Repr

/-- What `run_process` reports about a started container. -/
structure StartedResources where
  cgroupPath : Option String
  networkSubnet : Option String
  natLease : Option NatLease
  overlayOwnership : Option OverlayOwnership
  logPath : Option String

structure RuntimeMetadata where
  networkMode : String
  securityProfile : String
  logMode : String
  usernsMode : String
  usernsMap : Option UserNamespaceMap
  rootfsMode : String
  policyProfile : String
  tty : Bool
  seccompMode : String
  seccompProfile : Option String
  seccompAction : Option String
  seccompOrder : String
  seccompLog : Bool

/-! ## Transitions -/

/-- `validate_id`. -/
def validateId (id : String) : Except StateError Unit :=
  if id.isEmpty then .error .emptyContainerId
  else if id = "." ∨ id = ".." ∨
      !id.toByteArray.data.toList.all fun byte ↦
        (48 ≤ byte && byte ≤ 57) || (65 ≤ byte && byte ≤ 90) || (97 ≤ byte && byte ≤ 122) ||
          byte == 45 || byte == 95 || byte == 46
    then .error .invalidContainerId
  else .ok ()

/-- `unix_timestamp`: `none` is a clock before the epoch. -/
def unixTimestamp (now : Option UInt64) : Except StateError UInt64 :=
  match now with
  | some secs => .ok secs
  | none => .error (.context "system clock is before UNIX_EPOCH")

/-- `log_file`, as text. -/
def logFile (id : String) : String := "/run/crun-rs/" ++ id ++ "/container.log"

namespace ContainerState

/-- `ContainerState::created`. -/
def created (now : Option UInt64) (id bundle : String) (metadata : RuntimeMetadata) :
    Except StateError ContainerState := do
  validateId id
  let now ← unixTimestamp now
  return {
    schemaVersion := stateSchemaVersion
    id := id
    pid := none
    processStarttime := none
    status := .created
    bundle := bundle
    cgroupPath := none
    networkMode := metadata.networkMode
    networkSubnet := none
    natLease := none
    overlayOwnership := none
    logPath := some (logFile id)
    logMode := metadata.logMode
    securityProfile := metadata.securityProfile
    usernsMode := metadata.usernsMode
    usernsMap := metadata.usernsMap
    rootfsMode := metadata.rootfsMode
    policyProfile := metadata.policyProfile
    seccompMode := metadata.seccompMode
    seccompProfile := metadata.seccompProfile
    seccompAction := metadata.seccompAction
    seccompOrder := metadata.seccompOrder
    seccompLog := metadata.seccompLog
    tty := metadata.tty
    health := none
    createdAtUnix := now
    updatedAtUnix := now
    exitCode := none
    signal := none }

/-- `ContainerState::running`, given what `process_starttime` returns for the pid. -/
def running (now : Option UInt64) (starttime : Except StateError UInt64) (id bundle : String)
    (pid : Int) (resources : StartedResources) (metadata : RuntimeMetadata) :
    Except StateError ContainerState := do
  let state ← created now id bundle metadata
  return { state with
    pid := some pid
    processStarttime := starttime.toOption
    status := .running
    cgroupPath := resources.cgroupPath
    networkSubnet := resources.networkSubnet
    natLease := resources.natLease
    overlayOwnership := resources.overlayOwnership
    logPath := resources.logPath }

/-- `ContainerState::mark_running`, given what `process_starttime` returns for the pid. -/
def markRunning (state : ContainerState) (now : Option UInt64) (starttime : Except StateError UInt64)
    (pid : Int) (resources : StartedResources) (logMode : String) :
    ContainerState × Except StateError Unit :=
  let state := { state with pid := some pid }
  match starttime with
  | .error e => (state, .error e)
  | .ok ticks =>
    let state := { state with
      processStarttime := some ticks
      status := .running
      cgroupPath := resources.cgroupPath
      networkSubnet := resources.networkSubnet
      natLease := resources.natLease
      overlayOwnership := resources.overlayOwnership
      logPath := resources.logPath
      logMode := logMode }
    match unixTimestamp now with
    | .error e => (state, .error e)
    | .ok secs => ({ state with updatedAtUnix := secs, exitCode := none, signal := none }, .ok ())

/-- `ContainerState::mark_health`. -/
def markHealth (state : ContainerState) (now : Option UInt64) (health : HealthState) :
    ContainerState × Except StateError Unit :=
  let state := { state with health := some health }
  match unixTimestamp now with
  | .error e => (state, .error e)
  | .ok secs => ({ state with updatedAtUnix := secs }, .ok ())

/-- `ContainerState::mark_stopped`. -/
def markStopped (state : ContainerState) (now : Option UInt64) (exitCode : Option Int)
    (signal : Option String) : ContainerState × Except StateError Unit :=
  let state := { state with pid := none, processStarttime := none, status := .stopped }
  match unixTimestamp now with
  | .error e => (state, .error e)
  | .ok secs =>
    ({ state with
      updatedAtUnix := secs
      cgroupPath := none
      networkSubnet := none
      natLease := none
      overlayOwnership := none
      exitCode := exitCode
      signal := signal }, .ok ())

section

variable {now : Option UInt64} {starttime : Except StateError UInt64} {id bundle : String} {pid : Int}
  {resources : StartedResources} {metadata : RuntimeMetadata} {new : ContainerState}

/-- A record is made for a valid id, and if the clock can be read. -/
theorem created_eq_ok (h : created now id bundle metadata = .ok new) :
    validateId id = .ok () ∧ ∃ secs, now = some secs := by
  unfold created at h
  cases hid : validateId id with
  | error e => simp [hid, bind, Except.bind] at h
  | ok u =>
    cases now with
    | none => simp [hid, unixTimestamp, bind, Except.bind] at h
    | some secs => exact ⟨rfl, secs, rfl⟩

/-- A running record is a created one with the process and its resources. -/
theorem running_eq_ok (h : running now starttime id bundle pid resources metadata = .ok new) :
    ∃ state, created now id bundle metadata = .ok state ∧ new = { state with
      pid := some pid
      processStarttime := starttime.toOption
      status := .running
      cgroupPath := resources.cgroupPath
      networkSubnet := resources.networkSubnet
      natLease := resources.natLease
      overlayOwnership := resources.overlayOwnership
      logPath := resources.logPath } := by
  unfold running at h
  cases hcreated : created now id bundle metadata with
  | error e =>
    rw [hcreated] at h
    simp at h
  | ok state =>
    rw [hcreated] at h
    exact ⟨state, rfl, (Except.ok.inj h).symm⟩

/-- A new record has the id it was made for, which is a valid one. -/
theorem running_id (h : running now starttime id bundle pid resources metadata = .ok new) :
    new.id = id ∧ validateId id = .ok () := by
  obtain ⟨state, hcreated, rfl⟩ := running_eq_ok h
  obtain ⟨hid, secs, rfl⟩ := created_eq_ok hcreated
  rw [created, hid] at hcreated
  cases hcreated
  exact ⟨rfl, hid⟩

theorem running_status (h : running now starttime id bundle pid resources metadata = .ok new) :
    new.status = .running := by
  obtain ⟨state, _, rfl⟩ := running_eq_ok h
  rfl

end

theorem markRunning_status {state new : ContainerState} {now : Option UInt64}
    {starttime : Except StateError UInt64} {pid : Int} {resources : StartedResources}
    {logMode : String} (h : state.markRunning now starttime pid resources logMode = (new, .ok ())) :
    new.status = .running := by
  unfold markRunning at h
  cases starttime with
  | error e => cases h
  | ok ticks =>
    cases now <;> cases h
    rfl

theorem markHealth_eq {state new : ContainerState} {now : Option UInt64} {health : HealthState}
    (h : state.markHealth now health = (new, .ok ())) :
    new.status = state.status ∧ new.exitCode = state.exitCode ∧ new.signal = state.signal := by
  unfold markHealth at h
  cases now <;> cases h
  exact ⟨rfl, rfl, rfl⟩

/-- A state that was marked stopped without an error has the outcome it was given. -/
theorem markStopped_eq {state new : ContainerState} {now : Option UInt64} {exitCode : Option Int}
    {signal : Option String} (h : state.markStopped now exitCode signal = (new, .ok ())) :
    new.status = .stopped ∧ new.exitCode = exitCode ∧ new.signal = signal := by
  unfold markStopped at h
  cases now <;> cases h
  exact ⟨rfl, rfl, rfl⟩

/-- A record is marked exactly if the clock can be read. -/
theorem markStopped_eq_ok_iff {state : ContainerState} {now : Option UInt64}
    {exitCode : Option Int} {signal : Option String} :
    (state.markStopped now exitCode signal).2 = .ok () ↔ now.isSome := by
  cases now <;> simp [markStopped, unixTimestamp]

theorem markStopped_id (state : ContainerState) (now : Option UInt64) (exitCode : Option Int)
    (signal : Option String) : (state.markStopped now exitCode signal).1.id = state.id := by
  cases now <;> rfl

/-- Whatever the clock says, the record is left stopped and without a pid. -/
theorem markStopped_status (state : ContainerState) (now : Option UInt64) (exitCode : Option Int)
    (signal : Option String) :
    (state.markStopped now exitCode signal).1.status = .stopped ∧
      (state.markStopped now exitCode signal).1.pid = none := by
  cases now <;> exact ⟨rfl, rfl⟩

end ContainerState

/-- A state as `run` saves it for a container without a network. -/
def sampleState (id : String) (pid : Int) (starttime : UInt64) : ContainerState where
  schemaVersion := stateSchemaVersion
  id := id
  pid := some pid
  processStarttime := some starttime
  status := .running
  bundle := "/bundle"
  cgroupPath := none
  networkMode := "none"
  networkSubnet := none
  natLease := none
  overlayOwnership := none
  logPath := some (logFile id)
  logMode := "auto"
  securityProfile := "denylist"
  usernsMode := "host"
  usernsMap := none
  rootfsMode := "direct"
  policyProfile := "none"
  seccompMode := "off"
  seccompProfile := none
  seccompAction := none
  seccompOrder := "by-frequency"
  seccompLog := false
  tty := false
  health := none
  createdAtUnix := 1000
  updatedAtUnix := 1000
  exitCode := none
  signal := none

end CrunRs.State
