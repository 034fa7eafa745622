import CrunRs.Doctor
import CrunRs.Health
import CrunRs.Lib.Lts
import CrunRs.Lifecycle.Run

/-!
# Where a record comes from

A record is made by `ContainerState::created` or `ContainerState::running`, and from then on it is
changed by `mark_running`, `mark_health`, `mark_stopped` and the recovery of `refresh_liveness` —
each time by some command that loaded it, or still has it in memory, and saves it again.

A `Lineage` is such a history, with the log path that was set last.  Every transition keeps the
fields of a record in step with its status (`WellFormed`) and leaves its identity alone, so that both
hold along a lineage.  A transition that fails half way leaves a record that is not well formed; none
of the commands saves it.  Hence what is saved, in any run of any number of commands, is well formed
and is what it was made as (`saved_records`).
-/

set_option autoImplicit false

namespace CrunRs.Lifecycle

open Lts State

universe u

/-! ## Well-formed records -/

/-- The fields of a record agree with its status. -/
structure WellFormed (state : ContainerState) : Prop where
  pid : state.pid.isSome ↔ state.status = .running
  resources : state.status ≠ .running → state.processStarttime = none ∧ state.cgroupPath = none ∧
    state.networkSubnet = none ∧ state.natLease = none ∧ state.overlayOwnership = none
  outcome : state.status = .running → state.exitCode = none ∧ state.signal = none

/-- What a record says about its container from the beginning to the end. -/
structure Identity where
  id : String
  bundle : String
  createdAtUnix : UInt64
  seccompMode : String
  seccompProfile : Option String
  seccompAction : Option String
  seccompOrder : String
  seccompLog : Bool
  usernsMode : String
  usernsMap : Option UserNamespaceMap
  rootfsMode : String
  policyProfile : String
  securityProfile : String
  deriving DecidableEq

def identity (state : ContainerState) : Identity where
  id := state.id
  bundle := state.bundle
  createdAtUnix := state.createdAtUnix
  seccompMode := state.seccompMode
  seccompProfile := state.seccompProfile
  seccompAction := state.seccompAction
  seccompOrder := state.seccompOrder
  seccompLog := state.seccompLog
  usernsMode := state.usernsMode
  usernsMap := state.usernsMap
  rootfsMode := state.rootfsMode
  policyProfile := state.policyProfile
  securityProfile := state.securityProfile

section

variable {now : Option UInt64} {starttime : Except StateError UInt64} {id bundle logMode : String}
  {pid : Int} {resources : StartedResources} {metadata : RuntimeMetadata} {health : HealthState}
  {exitCode : Option Int} {signal : Option String} {state new : ContainerState}

theorem created_wellFormed (h : ContainerState.created now id bundle metadata = .ok new) :
    WellFormed new := by
  obtain ⟨hid, secs, rfl⟩ := ContainerState.created_eq_ok h
  rw [ContainerState.created, hid] at h
  cases h
  exact ⟨by simp, fun _ ↦ ⟨rfl, rfl, rfl, rfl, rfl⟩, fun _ ↦ ⟨rfl, rfl⟩⟩

theorem running_wellFormed
    (h : ContainerState.running now starttime id bundle pid resources metadata = .ok new) :
    WellFormed new := by
  obtain ⟨created, hcreated, rfl⟩ := ContainerState.running_eq_ok h
  obtain ⟨hid, secs, rfl⟩ := ContainerState.created_eq_ok hcreated
  rw [ContainerState.created, hid] at hcreated
  cases hcreated
  exact ⟨by simp, fun hne ↦ absurd rfl hne, fun _ ↦ ⟨rfl, rfl⟩⟩

/-- Whatever the record was before: everything that goes with the status is set. -/
theorem markRunning_keeps
    (h : state.markRunning now starttime pid resources logMode = (new, .ok ())) :
    WellFormed new ∧ identity new = identity state ∧ new.logPath = resources.logPath := by
  unfold ContainerState.markRunning at h
  cases starttime with
  | error e => cases h
  | ok ticks =>
    cases now <;> cases h
    exact ⟨⟨by simp, fun hne ↦ absurd rfl hne, fun _ ↦ ⟨rfl, rfl⟩⟩, rfl, rfl⟩

theorem markHealth_keeps (h : state.markHealth now health = (new, .ok ())) (hwf : WellFormed state) :
    WellFormed new ∧ identity new = identity state ∧ new.logPath = state.logPath := by
  unfold ContainerState.markHealth at h
  cases now <;> cases h
  exact ⟨⟨hwf.pid, hwf.resources, hwf.outcome⟩, rfl, rfl⟩

theorem markStopped_keeps (h : state.markStopped now exitCode signal = (new, .ok ())) :
    WellFormed new ∧ identity new = identity state ∧ new.logPath = state.logPath := by
  unfold ContainerState.markStopped at h
  cases now <;> cases h
  refine ⟨⟨by simp, fun _ ↦ ⟨rfl, rfl, rfl, rfl, rfl⟩, fun hrunning ↦ ?_⟩, rfl, rfl⟩
  have hne : ContainerStatus.stopped ≠ .running := by decide
  exact absurd hrunning hne

theorem refreshLiveness_keeps {host : Host} {changed : Bool}
    (h : (refreshLiveness host state).result = .ok changed) (hwf : WellFormed state) :
    WellFormed (refreshLiveness host state).state ∧
      identity (refreshLiveness host state).state = identity state ∧
      (refreshLiveness host state).state.logPath = state.logPath := by
  rcases refreshLiveness_cases host state with hkeep | ⟨_, owned, base, hrecover⟩
  · rw [hkeep]
    exact ⟨hwf, rfl, rfl⟩
  · rw [hrecover] at h ⊢
    obtain ⟨_, signal, hmark⟩ := recoverStale_eq_ok h
    exact markStopped_keeps hmark

end

/-! ## Histories -/

/-- How a record came to be what it is: made as `origin`, and changed by transitions that ended
without an error.  The log path is the one that was set last, by the constructor or by
`mark_running`. -/
inductive Lineage (origin : ContainerState) : Option String → ContainerState → Prop
  | created {now : Option UInt64} {id bundle : String} {metadata : RuntimeMetadata}
      (h : ContainerState.created now id bundle metadata = .ok origin) :
      Lineage origin origin.logPath origin
  | running {now : Option UInt64} {starttime : Except StateError UInt64} {id bundle : String}
      {pid : Int} {resources : StartedResources} {metadata : RuntimeMetadata}
      (h : ContainerState.running now starttime id bundle pid resources metadata = .ok origin) :
      Lineage origin origin.logPath origin
  | markRunning {log : Option String} {state new : ContainerState} {now : Option UInt64}
      {starttime : Except StateError UInt64} {pid : Int} {resources : StartedResources}
      {logMode : String} (before : Lineage origin log state)
      (h : state.markRunning now starttime pid resources logMode = (new, .ok ())) :
      Lineage origin resources.logPath new
  | markHealth {log : Option String} {state new : ContainerState} {now : Option UInt64}
      {health : HealthState} (before : Lineage origin log state)
      (h : state.markHealth now health = (new, .ok ())) : Lineage origin log new
  | markStopped {log : Option String} {state new : ContainerState} {now : Option UInt64}
      {exitCode : Option Int} {signal : Option String} (before : Lineage origin log state)
      (h : state.markStopped now exitCode signal = (new, .ok ())) : Lineage origin log new
  | refreshLiveness {log : Option String} {state : ContainerState} {host : Host} {changed : Bool}
      (before : Lineage origin log state)
      (h : (refreshLiveness host state).result = .ok changed) :
      Lineage origin log (refreshLiveness host state).state

/-- **Along a history** the record stays well formed, what it was made as, and with the log path that
was set last. -/
theorem Lineage.keeps {origin state : ContainerState} {log : Option String}
    (h : Lineage origin log state) :
    WellFormed state ∧ identity state = identity origin ∧ state.logPath = log := by
  induction h with
  | created h => exact ⟨created_wellFormed h, rfl, rfl⟩
  | running h => exact ⟨running_wellFormed h, rfl, rfl⟩
  | markRunning before h ih =>
    obtain ⟨hwf, hidentity, hlog⟩ := markRunning_keeps h
    exact ⟨hwf, hidentity.trans ih.2.1, hlog⟩
  | markHealth before h ih =>
    obtain ⟨hwf, hidentity, hlog⟩ := markHealth_keeps h ih.1
    exact ⟨hwf, hidentity.trans ih.2.1, hlog.trans ih.2.2⟩
  | markStopped before h ih =>
    obtain ⟨hwf, hidentity, hlog⟩ := markStopped_keeps h
    exact ⟨hwf, hidentity.trans ih.2.1, hlog.trans ih.2.2⟩
  | refreshLiveness before h ih =>
    obtain ⟨hwf, hidentity, hlog⟩ := refreshLiveness_keeps h ih.1
    exact ⟨hwf, hidentity.trans ih.2.1, hlog.trans ih.2.2⟩

/-! ## The commands -/

/-- Where a command is, with the record it has in memory. -/
inductive WriterPc
  | idle
  /-- `run_container_process`. -/
  | running (run : ContainerRun) (pc : ParentPc)
  /-- `health::run_once`, between the load and the save. -/
  | checking (state : ContainerState)
  /-- `doctor::run`, between the listing and the save. -/
  | fixing (state : ContainerState)

/-- The record a command may still save. -/
def WriterPc.held : WriterPc → Option ContainerState
  | running _ (.starting existing) => existing
  | running _ (.started state) | checking state | fixing state => some state
  | _ => none

/-- The state files of all ids, and the commands.  The records that were made so far are there for
the proof only. -/
structure RecordSystem (κ : Type u) where
  file : String → StateFile
  command : κ → WriterPc
  made : List ContainerState

/-- What happens next.  A save is one that succeeds; a command whose save fails gives up, with the
file as it was (`saveTo_cases`). -/
inductive RecordAct (κ : Type u)
  | create (now : Option UInt64) (id bundle : String) (metadata : RuntimeMetadata)
  /-- `run`. -/
  | beginRun (k : κ) (run : ContainerRun)
  /-- `start`: `load_created`, up to `run_process`. -/
  | beginStart (k : κ) (run : ContainerRun) (host : Host) (faults : StoreFaults)
  | parent (k : κ) (act : ParentAct)
  | healthLoad (k : κ) (id : String) (host : Host) (faults : StoreFaults)
  | healthSave (k : κ) (p : Health.Probe)
  | doctorList (k : κ) (id : String)
  | doctorSave (k : κ) (host : Doctor.DoctorHost) (protectedVeths : List String)
  | giveUp (k : κ)
  /-- Any other command that loads a state. -/
  | loadCurrent (id : String) (host : Host) (faults : StoreFaults)
  /-- The removal of a state directory gets to the state file. -/
  | remove (id : String)

namespace RecordSystem

variable {κ : Type u}

def setFile (s : RecordSystem κ) (id : String) (file : StateFile) : RecordSystem κ :=
  { s with file := Function.update s.file id file }

theorem setFile_file (s : RecordSystem κ) (id : String) (file : StateFile) :
    (s.setFile id file).file = Function.update s.file id file := rfl

/-- A record is made. -/
def make (s : RecordSystem κ) (state : ContainerState) : RecordSystem κ :=
  { s with made := s.made ++ [state] }

/-- The system after a save that succeeds. -/
def save (s : RecordSystem κ) (state : ContainerState) : Option (RecordSystem κ) :=
  match saveTo {} (s.file state.id) state with
  | (file, .ok ()) => some (s.setFile state.id file)
  | (_, .error _) => none

/-- The system after a load. -/
def load (s : RecordSystem κ) (id : String) (host : Host) (faults : StoreFaults) : RecordSystem κ :=
  s.setFile id (loadCurrentFrom host faults id (s.file id)).file

/-- No container, and no command. -/
def init : RecordSystem κ where
  file := fun _ ↦ .missing
  command := fun _ ↦ .idle
  made := []

/-! ## Records with a history -/

/-- The record has a history that begins with one of these. -/
def Kept (made : List ContainerState) (state : ContainerState) : Prop :=
  ∃ origin ∈ made, ∃ log, Lineage origin log state

theorem Kept.append {made : List ContainerState} {state : ContainerState} (h : Kept made state)
    (new : ContainerState) : Kept (made ++ [new]) state := by
  obtain ⟨origin, hmem, log, hlineage⟩ := h
  exact ⟨origin, List.mem_append_left _ hmem, log, hlineage⟩

/-- Every record there is, in a file or in memory, has a history. -/
structure Sound (s : RecordSystem κ) : Prop where
  stored : ∀ id state, s.file id = .stored state → Kept s.made state
  held : ∀ k state, (s.command k).held = some state → Kept s.made state

variable {s t : RecordSystem κ}

theorem Sound.make (h : Sound s) (state : ContainerState) : Sound (s.make state) :=
  ⟨fun id old hold ↦ (h.stored id old hold).append state,
    fun k old hold ↦ (h.held k old hold).append state⟩

theorem Sound.setFile (h : Sound s) (id : String) {file : StateFile}
    (hfile : ∀ state, file = .stored state → Kept s.made state) : Sound (s.setFile id file) := by
  refine ⟨fun i state hstored ↦ ?_, h.held⟩
  by_cases hi : i = id
  · rw [hi, setFile_file, Function.update_self] at hstored
    exact hfile state hstored
  · rw [setFile_file, Function.update_of_ne hi] at hstored
    exact h.stored i state hstored

theorem Sound.save (h : Sound s) {state : ContainerState} (hkept : Kept s.made state)
    (hsave : s.save state = some t) : Sound t := by
  unfold RecordSystem.save at hsave
  rcases saveTo_cases {} (s.file state.id) state with hok | ⟨e, herror⟩
  · simp only [hok] at hsave
    cases hsave
    refine h.setFile state.id fun stored hstored ↦ ?_
    rwa [← StateFile.stored.inj hstored]
  · simp [herror] at hsave

/-- A refresh is part of the history of the record. -/
theorem Sound.load (h : Sound s) (id : String) (host : Host) (faults : StoreFaults) :
    Sound (s.load id host faults) ∧
      ∀ state, (loadCurrentFrom host faults id (s.file id)).result = .ok state →
        Kept s.made state := by
  have hfile : ∀ state, (loadCurrentFrom host faults id (s.file id)).file = .stored state →
      Kept s.made state := by
    intro state hstored
    rcases loadCurrentFrom_stored hstored with hsame | ⟨old, hold, htrue, rfl⟩
    · exact h.stored id state hsame
    · obtain ⟨origin, hmem, log, hlineage⟩ := h.stored id old hold
      exact ⟨origin, hmem, log, hlineage.refreshLiveness htrue⟩
  exact ⟨h.setFile id hfile, fun state hresult ↦ hfile state (loadCurrentFrom_eq_ok hresult)⟩

/-- A record that is made begins a history. -/
theorem kept_made {made : List ContainerState} {state : ContainerState} {log : Option String}
    (h : Lineage state log state) : Kept (made ++ [state]) state :=
  ⟨state, List.mem_append_right _ (List.mem_singleton_self state), log, h⟩

/-! ## One step -/

variable [DecidableEq κ]

def setCommand (s : RecordSystem κ) (k : κ) (pc : WriterPc) : RecordSystem κ :=
  { s with command := Function.update s.command k pc }

theorem setCommand_command (s : RecordSystem κ) (k : κ) (pc : WriterPc) :
    (s.setCommand k pc).command = Function.update s.command k pc := rfl

/-- One step of one of the commands. -/
def step (s : RecordSystem κ) : RecordAct κ → Option (RecordSystem κ)
  | .create now id bundle metadata => match ContainerState.created now id bundle metadata with
    | .ok state => (s.make state).save state
    | .error _ => none
  | .beginRun k run => match s.command k with
    | .idle => some (s.setCommand k (.running run (.starting none)))
    | _ => none
  | .beginStart k run host faults => match s.command k with
    | .idle => match (loadCurrentFrom host faults run.id (s.file run.id)).result with
      | .ok state =>
        if state.status = .created then
          some ((s.load run.id host faults).setCommand k (.running run (.starting (some state))))
        else some (s.load run.id host faults)
      | .error _ => some (s.load run.id host faults)
    | _ => none
  | .parent k act => match s.command k with
    | .running run pc => match stepParent run pc act with
      | some (pc', some state) =>
        -- a `run` makes its record when the process is started
        let s := if pc = .starting none then s.make state else s
        (s.setCommand k (.running run pc')).save state
      | some (pc', none) => some (s.setCommand k (.running run pc'))
      | none => none
    | _ => none
  | .healthLoad k id host faults => match s.command k with
    | .idle => match (loadCurrentFrom host faults id (s.file id)).result with
      | .ok state => match Health.target id state with
        | .ok _ => some ((s.load id host faults).setCommand k (.checking state))
        | .error _ => some (s.load id host faults)
      | .error _ => some (s.load id host faults)
    | _ => none
  | .healthSave k p => match s.command k with
    | .checking state => match Health.record p state with
      | .ok (state, _) => (s.setCommand k .idle).save state
      | .error _ => none
    | _ => none
  | .doctorList k id => match s.command k with
    | .idle => match loadFrom id (s.file id) with
      | .ok state => some (s.setCommand k (.fixing state))
      | .error _ => none
    | _ => none
  | .doctorSave k host protectedVeths => match s.command k with
    | .fixing state =>
      if state.status = .running ∧ Doctor.isStaleProcess host state ∧
          Doctor.recoverState host protectedVeths state = none then
        (s.setCommand k .idle).save (state.markStopped host.now none (some "STALE")).1
      else none
    | _ => none
  | .giveUp k => some (s.setCommand k .idle)
  | .loadCurrent id host faults => some (s.load id host faults)
  | .remove id => some (s.setFile id .missing)

theorem Sound.setCommand (h : Sound s) (k : κ) {pc : WriterPc}
    (hpc : ∀ state, pc.held = some state → Kept s.made state) : Sound (s.setCommand k pc) := by
  refine ⟨h.stored, fun j state hheld ↦ ?_⟩
  by_cases hj : j = k
  · rw [hj, setCommand_command, Function.update_self] at hheld
    exact hpc state hheld
  · rw [setCommand_command, Function.update_of_ne hj] at hheld
    exact h.held j state hheld

/-- A command that comes to hold a record holds one that is kept. -/
theorem Sound.hold (h : Sound s) (k : κ) {pc : WriterPc} {state : ContainerState}
    (hpc : pc.held = some state) (hkept : Kept s.made state) : Sound (s.setCommand k pc) := by
  refine h.setCommand k fun old hheld ↦ ?_
  obtain rfl := Option.some.inj (hpc.symm.trans hheld)
  exact hkept

/-- A command that holds no record is no concern. -/
theorem Sound.release (h : Sound s) (k : κ) {pc : WriterPc} (hpc : pc.held = none) :
    Sound (s.setCommand k pc) := by
  refine h.setCommand k fun state hheld ↦ ?_
  rw [hpc] at hheld
  exact absurd hheld (Option.some_ne_none state).symm

/-- What a step of the runtime process saves: a new record, if it began without one, or its own
record after one more transition. -/
theorem stepParent_lineage {run : ContainerRun} {pc pc' : ParentPc} {act : ParentAct}
    {state : ContainerState} (h : stepParent run pc act = some (pc', some state)) :
    (pc = .starting none ∧ Lineage state state.logPath state) ∨
    ∃ old, (WriterPc.running run pc).held = some old ∧ pc ≠ .starting none ∧
      ∀ origin log, Lineage origin log old → ∃ log', Lineage origin log' state := by
  unfold stepParent at h
  split at h
  · split at h
    · rename_i new hnew
      cases h
      rcases startedState_eq_ok hnew with ⟨rfl, hrunning⟩ | ⟨old, rfl, hmark⟩
      · exact Or.inl ⟨rfl, .running hrunning⟩
      · exact Or.inr ⟨old, rfl, by simp, fun origin log hold ↦ ⟨_, hold.markRunning hmark⟩⟩
    · simp at h
  · split at h
    · rename_i old _ _ _ new hnew
      cases h
      exact Or.inr ⟨old, rfl, by simp, fun origin log hold ↦
        ⟨_, hold.markStopped (stoppedState_eq_ok hnew)⟩⟩
    · simp at h
  · simp at h
  · simp at h
  · simp at h

/-- What the runtime process has in memory after a step is what it saved. -/
theorem stepParent_held {run : ContainerRun} {pc pc' : ParentPc} {act : ParentAct}
    {saved : Option ContainerState} (h : stepParent run pc act = some (pc', saved))
    {state : ContainerState} (hheld : (WriterPc.running run pc').held = some state) :
    saved = some state := by
  rcases stepParent_cases h with ⟨_, _, new, _, _, rfl, rfl, _⟩ | ⟨_, _, _, _, _, rfl, _⟩ |
    ⟨_, _, rfl, _⟩
  · exact hheld
  · exact absurd hheld (Option.some_ne_none state).symm
  · exact absurd hheld (Option.some_ne_none state).symm

/-- One step of the runtime process. -/
theorem Sound.parent (h : Sound s) {k : κ} {act : ParentAct}
    (hstep : step s (.parent k act) = some t) : Sound t := by
  simp only [step] at hstep
  split at hstep
  · rename_i run pc hcommand
    split at hstep
    · rename_i pc' state hparent
      have hheld : ∀ made, Kept made state →
          ∀ old, (WriterPc.running run pc').held = some old → Kept made old := by
        intro made hkept old hold
        rwa [← Option.some.inj (stepParent_held hparent hold)]
      rcases stepParent_lineage hparent with ⟨hnew, hlineage⟩ | ⟨old, hold, hne, hnext⟩
      · rw [if_pos hnew] at hstep
        have hkept : Kept (s.make state).made state := kept_made hlineage
        exact ((h.make state).setCommand k (hheld _ hkept)).save hkept hstep
      · rw [if_neg hne] at hstep
        have hkept : Kept s.made state := by
          obtain ⟨origin, hmem, log, hlineage⟩ := h.held k old (hcommand ▸ hold)
          exact ⟨origin, hmem, hnext origin log hlineage⟩
        exact (h.setCommand k (hheld _ hkept)).save hkept hstep
    · rename_i pc' hparent
      cases hstep
      refine h.setCommand k fun state hheld ↦ ?_
      exact absurd (stepParent_held hparent hheld) (Option.some_ne_none state).symm
    · simp at hstep
  · simp at hstep

/-- **One step**: whatever is saved, or loaded and kept in memory, has a history. -/
theorem Sound.step {a : RecordAct κ} (h : Sound s) (hstep : step s a = some t) : Sound t := by
  cases a with
  | create now id bundle metadata =>
    simp only [RecordSystem.step] at hstep
    split at hstep
    · rename_i state hcreated
      exact (h.make state).save (kept_made (.created hcreated)) hstep
    · simp at hstep
  | beginRun k run =>
    simp only [RecordSystem.step] at hstep
    split at hstep
    · cases hstep
      exact h.release k rfl
    · simp at hstep
  | beginStart k run host faults =>
    obtain ⟨hload, hresult⟩ := h.load run.id host faults
    simp only [RecordSystem.step] at hstep
    split at hstep
    · split at hstep
      · rename_i state hstate
        split at hstep
        · cases hstep
          exact hload.hold k rfl (hresult state hstate)
        · cases hstep
          exact hload
      · cases hstep
        exact hload
    · simp at hstep
  | parent k act => exact h.parent hstep
  | healthLoad k id host faults =>
    obtain ⟨hload, hresult⟩ := h.load id host faults
    simp only [RecordSystem.step] at hstep
    split at hstep
    · split at hstep
      · rename_i state hstate
        split at hstep
        · cases hstep
          exact hload.hold k rfl (hresult state hstate)
        · cases hstep
          exact hload
      · cases hstep
        exact hload
    · simp at hstep
  | healthSave k p =>
    simp only [RecordSystem.step] at hstep
    split at hstep
    · rename_i state hcommand
      split at hstep
      · rename_i new outcome hrecord
        obtain ⟨health, hmark⟩ := Health.record_eq_ok hrecord
        obtain ⟨origin, hmem, log, hlineage⟩ := h.held k state (by rw [hcommand]; rfl)
        exact (h.release k rfl).save ⟨origin, hmem, log, hlineage.markHealth hmark⟩ hstep
      · simp at hstep
    · simp at hstep
  | doctorList k id =>
    simp only [RecordSystem.step] at hstep
    split at hstep
    · split at hstep
      · rename_i state hstate
        cases hstep
        exact h.hold k rfl (h.stored id state (loadFrom_eq_ok hstate))
      · simp at hstep
    · simp at hstep
  | doctorSave k host protectedVeths =>
    simp only [RecordSystem.step] at hstep
    split at hstep
    · rename_i state hcommand
      split at hstep
      · rename_i hfix
        have hmark := Doctor.recoverState_markStopped hfix.2.2
        obtain ⟨origin, hmem, log, hlineage⟩ := h.held k state (by rw [hcommand]; rfl)
        refine (h.release k rfl).save ⟨origin, hmem, log, ?_⟩ hstep
        exact hlineage.markStopped (Prod.ext rfl hmark)
      · simp at hstep
    · simp at hstep
  | giveUp k =>
    cases hstep
    exact h.release k rfl
  | loadCurrent id host faults =>
    cases hstep
    exact (h.load id host faults).1
  | remove id =>
    cases hstep
    exact h.setFile id fun state hstored ↦ by simp at hstored

/-- **Every record that is saved**, in whatever order any number of commands run, is well formed, and
has the identity of a record that was made and the log path that was set last. -/
theorem saved_records {s : RecordSystem κ} (h : Reachable step init s) {id : String}
    {state : ContainerState} (hfile : s.file id = .stored state) :
    WellFormed state ∧ ∃ origin ∈ s.made, ∃ log, Lineage origin log state ∧
      identity state = identity origin ∧ state.logPath = log := by
  have hinit : Sound (init : RecordSystem κ) :=
    ⟨fun id state hstored ↦ by simp [init] at hstored,
      fun k state hheld ↦ absurd hheld (Option.some_ne_none state).symm⟩
  have hsound : Sound s := invariant (fun _ _ _ hs ha ↦ hs.step ha) hinit h
  obtain ⟨origin, hmem, log, hlineage⟩ := hsound.stored id state hfile
  obtain ⟨hwf, hidentity, hlog⟩ := hlineage.keeps
  exact ⟨hwf, origin, hmem, log, hlineage, hidentity, hlog⟩

/-- A container is run, and exits with 3. -/
def exitedSchedule : List (RecordAct Unit) :=
  [.beginRun () sampleRun, .parent () (.saveStarted (sampleHost [97]) sampleStarted),
    .parent () (.saveStopped (some 3000) (.exited 42 3))]

theorem saved_records_exited :
    ∃ (s : RecordSystem Unit) (state : ContainerState), Reachable step init s ∧
      s.file "demo" = .stored state ∧ state.exitCode = some 3 ∧ WellFormed state ∧
      ∃ origin ∈ s.made, identity state = identity origin := by
  have hend : (exec step init exitedSchedule).map (fun t ↦ t.file "demo") =
      some (.stored { sampleState "demo" 42 7 with
        pid := none, processStarttime := none, status := .stopped, logPath := none, logMode := "off"
        createdAtUnix := 2000, updatedAtUnix := 3000, exitCode := some 3 }) := by
    decide +kernel
  obtain ⟨s, hexec, hfile⟩ := Option.map_eq_some_iff.mp hend
  obtain ⟨hwf, origin, hmem, _, _, hidentity, _⟩ := saved_records ⟨_, hexec⟩ hfile
  exact ⟨s, _, ⟨_, hexec⟩, hfile, rfl, hwf, origin, hmem, hidentity⟩

end RecordSystem

end CrunRs.Lifecycle
