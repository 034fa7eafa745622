import CrunRs.Lib.Lts
import CrunRs.Lifecycle.Run

/-!
# Deleting a container while it is started

`delete_from` loads the state, refuses if it is running, releases the container's network
allocation, and removes the state directory.  The load is locked.  The lock is gone when it returns,
so the check is about a state of the file that may be history by the time of the release and of the
removal.

Here one process deletes a container and another one starts it from its created state.  If the start
is recorded while the delete is past its check, the delete releases the network of a running
container and removes its record (`delete_removes_running`).  A start that is recorded at any other
time is safe: then the delete either sees it and refuses, or is done (`delete_safe`).
-/

set_option autoImplicit false

namespace CrunRs.Lifecycle

open Lts State

/-! ## `delete_from` -/

/-- `delete_from`, if nothing else touches the container meanwhile: the file it leaves and its
result. -/
def deleteFrom (host : Host) (faults : StoreFaults) (removeFails : Option StateError) (id : String)
    (file : StateFile) : StateFile × Except StateError Unit :=
  let load := loadCurrentFrom host faults id file
  match load.result with
  | .error e => (load.file, .error e)
  | .ok state =>
    if state.status = .running then (load.file, .error (.containerIsRunning id))
    else match releaseStateNetworkAllocation host state with
      | some _ =>
        (load.file, .error (.context "failed to release network allocation before deleting state"))
      | none => match removeFails with
        | some e => (load.file, .error e)
        | none => (.missing, .ok ())

/-- Where a delete is. -/
inductive DeletePc
  | idle
  /-- Loaded this state, which is not running. -/
  | checked (state : ContainerState)
  /-- Has released the network, if there was one; about to remove. -/
  | released
  deriving DecidableEq

/-- Between the check and the removal. -/
def DeletePc.pastCheck : DeletePc → Bool
  | idle => false
  | checked _ | released => true

/-! ## A delete and a start -/

structure DeleteSystem where
  file : StateFile
  parent : ParentPc
  delete : DeletePc

inductive DeleteAct
  | parent (act : ParentAct)
  | load (host : Host) (faults : StoreFaults)
  | release (host : Host)
  /-- `remove_dir_all` gets to the state file.  What it does after that is not about the state: if
  the file is back when it comes to the directory, the directory is not empty and stays. -/
  | remove
  /-- `remove_dir_all` fails before it gets there. -/
  | giveUp

variable (run : ContainerRun)

namespace DeleteSystem

/-- One step of one of the two. -/
def step (s : DeleteSystem) : DeleteAct → Option DeleteSystem
  | .parent act => match stepParent run s.parent act with
    | some (parent, some state) => match saveTo {} s.file state with
      | (file, .ok ()) => some { s with file, parent }
      | (_, .error _) => none
    | some (parent, none) => some { s with parent }
    | none => none
  | .load host faults => match s.delete with
    | .idle =>
      let load := loadCurrentFrom host faults run.id s.file
      match load.result with
      | .error _ => some { s with file := load.file }
      | .ok state =>
        if state.status = .running then some { s with file := load.file }
        else some { s with file := load.file, delete := .checked state }
    | _ => none
  | .release host => match s.delete with
    | .checked state => match releaseStateNetworkAllocation host state with
      | some _ => some { s with delete := .idle }
      | none => some { s with delete := .released }
    | _ => none
  | .remove => match s.delete with
    | .released => some { s with file := .missing, delete := .idle }
    | _ => none
  | .giveUp => match s.delete with
    | .released => some { s with delete := .idle }
    | _ => none

/-- A delete that is left alone is `delete_from`. -/
theorem exec_delete {s : DeleteSystem} {host : Host} {faults : StoreFaults} {file : StateFile}
    (hidle : s.delete = .idle) (h : deleteFrom host faults none run.id s.file = (file, .ok ())) :
    exec (step run) s [.load host faults, .release host, .remove] = some { s with file } := by
  unfold deleteFrom at h
  simp only at h
  split at h
  · simp at h
  · rename_i state hload
    split at h
    · simp at h
    · rename_i hstatus
      split at h
      · simp at h
      · rename_i hrelease
        cases h
        simp only [exec, step, hidle, hload, if_neg hstatus, hrelease, Option.bind_some]

/-- Does the step release the network of the container or remove its state?  A load that finds a
running container without its process releases the network as well, but it records in the same step
that the container has stopped, and is not counted. -/
def takesDown (s : DeleteSystem) : DeleteAct → Bool
  | .release _ => match s.delete with
    | .checked state => state.networkMode = "bridge"
    | _ => false
  | .remove => s.delete = .released
  | _ => false

/-- A step that does so does not do it to a running container. -/
def SparesRunning (s : DeleteSystem) (a : DeleteAct) : Prop :=
  s.takesDown a → s.file.status ≠ some .running

/-- The condition: a start is not recorded while a delete is between its check and its removal. -/
def StartsOutside (s : DeleteSystem) : DeleteAct → Prop
  | .parent (.saveStarted _ _) => s.delete.pastCheck = false
  | _ => True

instance decidableStartsOutside (s : DeleteSystem) : ∀ a, Decidable (s.StartsOutside a)
  | .parent (.saveStarted _ _) => inferInstanceAs (Decidable (s.delete.pastCheck = false))
  | .parent (.saveStopped _ _) | .parent .fail | .load .. | .release _ | .remove | .giveUp =>
    isTrue trivial

/-! ## What one step can do -/

/-- The runtime process records a start or an outcome, or fails. -/
theorem step_parent {s t : DeleteSystem} {act : ParentAct} (h : s.step run (.parent act) = some t) :
    t.delete = s.delete ∧
      ((∃ host started state, act = .saveStarted host started ∧ t.file = .stored state ∧
          state.status = .running) ∨
        (∃ now status state, act = .saveStopped now status ∧ t.file = .stored state ∧
          state.status = .stopped) ∨
        (act = .fail ∧ t.file = s.file)) := by
  simp only [step] at h
  split at h
  · rename_i parent state hparent
    rcases saveTo_cases {} s.file state with hsave | ⟨e, hsave⟩
    · rw [hsave] at h
      cases h
      refine ⟨rfl, ?_⟩
      rcases stepParent_cases hparent with ⟨host, started, _, hact, _, _, hsaved, hrunning⟩ |
        ⟨now, status, _, hact, _, _, hsaved, hstopped, _⟩ | ⟨_, _, _, hsaved⟩
      · cases hsaved
        exact Or.inl ⟨host, started, state, hact, rfl, hrunning⟩
      · cases hsaved
        exact Or.inr (Or.inl ⟨now, status, state, hact, rfl, hstopped⟩)
      · simp at hsaved
    · rw [hsave] at h
      simp at h
  · rename_i parent hparent
    cases h
    rcases stepParent_cases hparent with ⟨_, _, _, _, _, _, hsaved, _⟩ |
      ⟨_, _, _, _, _, _, hsaved, _⟩ | ⟨hact, _⟩
    · simp at hsaved
    · simp at hsaved
    · exact ⟨rfl, Or.inr (Or.inr ⟨hact, rfl⟩)⟩
  · simp at h

/-- A delete that has got past its check has seen, in the same step, a file that does not say
running. -/
theorem step_load {s t : DeleteSystem} {host : Host} {faults : StoreFaults}
    (h : s.step run (.load host faults) = some t) :
    t.delete = .idle ∨ t.file.status ≠ some .running := by
  simp only [step] at h
  split at h
  · rename_i hidle
    split at h
    · cases h
      exact Or.inl hidle
    · rename_i state hload
      split at h
      · cases h
        exact Or.inl hidle
      · rename_i hstatus
        cases h
        refine Or.inr ?_
        show (loadCurrentFrom host faults run.id s.file).file.status ≠ some .running
        rw [loadCurrentFrom_eq_ok hload, StateFile.status_stored]
        exact fun heq ↦ hstatus (Option.some.inj heq)
  · simp at h

/-! ## The invariant -/

/-- While a delete is past its check, the file does not say running. -/
def Guarded (s : DeleteSystem) : Prop := s.delete.pastCheck → s.file.status ≠ some .running

theorem pastCheck_of_takesDown {s : DeleteSystem} {a : DeleteAct} (h : s.takesDown a) :
    s.delete.pastCheck := by
  cases a with
  | release host =>
    cases hdelete : s.delete with
    | idle =>
      rw [takesDown, hdelete] at h
      simp at h
    | checked | released => rfl
  | remove =>
    have hreleased : s.delete = .released := of_decide_eq_true h
    rw [hreleased]
    rfl
  | parent | load | giveUp => cases h

theorem Guarded.step {s t : DeleteSystem} {a : DeleteAct} (h : s.Guarded)
    (hcond : s.StartsOutside a) (hstep : s.step run a = some t) : t.Guarded := by
  cases a with
  | parent act =>
    obtain ⟨hdelete, hfile⟩ := step_parent run hstep
    intro hpast
    rw [hdelete] at hpast
    rcases hfile with ⟨_, _, _, rfl, _⟩ | ⟨_, _, state, _, hstored, hstopped⟩ | ⟨_, hsame⟩
    · -- the start is recorded: the condition says that nobody is past the check
      have hnot : s.delete.pastCheck = false := hcond
      rw [hnot] at hpast
      simp at hpast
    · rw [hstored, StateFile.status_stored, hstopped]
      decide
    · rw [hsame]
      exact h hpast
  | load host faults =>
    intro hpast
    rcases step_load run hstep with hidle | hfile
    · rw [hidle] at hpast
      cases hpast
    · exact hfile
  | release host =>
    simp only [DeleteSystem.step] at hstep
    split at hstep
    · rename_i state hchecked
      have hfile : s.file.status ≠ some .running := h (by rw [hchecked]; rfl)
      split at hstep
      · cases hstep
        exact fun _ ↦ hfile
      · cases hstep
        exact fun _ ↦ hfile
    · simp at hstep
  | remove =>
    simp only [DeleteSystem.step] at hstep
    split at hstep
    · cases hstep
      exact fun hpast ↦ absurd hpast Bool.false_ne_true
    · simp at hstep
  | giveUp =>
    simp only [DeleteSystem.step] at hstep
    split at hstep
    · cases hstep
      exact fun hpast ↦ absurd hpast Bool.false_ne_true
    · simp at hstep

/-- A delete that a start overtakes has nothing left to stop it. -/
theorem removes_of_overtaken {s t : DeleteSystem} {host : Host} {started : StartedProcess}
    (hpast : s.delete.pastCheck)
    (hstep : s.step run (.parent (.saveStarted host started)) = some t) :
    ∃ as, (exec (DeleteSystem.step run) t as).isSome ∧
      ¬ Along (DeleteSystem.step run) SparesRunning t as := by
  obtain ⟨hdelete, hfile⟩ := step_parent run hstep
  have hrunning : t.file.status = some .running := by
    rcases hfile with ⟨_, _, state, _, hstored, hstate⟩ | ⟨_, _, _, hact, _⟩ | ⟨hact, _⟩
    · rw [hstored, StateFile.status_stored, hstate]
    · simp at hact
    · simp at hact
  cases hpc : s.delete with
  | idle =>
    rw [hpc] at hpast
    cases hpast
  | checked state =>
    let calm : Host := { host with fails := fun _ ↦ none }
    have hrelease : releaseStateNetworkAllocation calm state = none := by
      rw [releaseStateNetworkAllocation]
      split <;> rfl
    have hnext : t.step run (.release calm) = some { t with delete := .released } := by
      simp only [step, hdelete, hpc, hrelease]
    refine ⟨[.release calm, .remove], ?_, fun h ↦ ?_⟩
    · rw [exec, hnext]
      rfl
    · exact (h.2 _ hnext).1 rfl hrunning
  | released =>
    have hreleased : t.delete = .released := hdelete.trans hpc
    refine ⟨[.remove], ?_, fun h ↦ h.1 (decide_eq_true hreleased) hrunning⟩
    simp only [exec, step, hreleased, Option.bind_some, Option.isSome_some]

end DeleteSystem

/-! ## Runs -/

/-- A container that has been created, and the process that starts it. -/
structure CreatedStart where
  run : ContainerRun
  state : ContainerState
  created : state.status = .created
  sameId : state.id = run.id

def CreatedStart.system (start : CreatedStart) : DeleteSystem where
  file := .stored start.state
  parent := .starting (some start.state)
  delete := .idle

open DeleteSystem

/-- **A delete spares a running container, unless the start overtakes it.**  In every run in which
the start is not recorded between the check of a delete and its removal, no delete releases the
network or removes the state of a container at a moment when its persisted status is running. -/
theorem delete_safe (start : CreatedStart) (as : List DeleteAct)
    (hcond : Along (DeleteSystem.step start.run) StartsOutside start.system as) :
    Along (DeleteSystem.step start.run) SparesRunning start.system as := by
  have hstart : start.system.Guarded := fun hpast ↦ absurd hpast Bool.false_ne_true
  refine Along.of_invariant (fun s a s' h hc hstep ↦ Guarded.step start.run h hc hstep) ?_ hstart
    hcond
  intro s a hguarded htakes
  exact hguarded (pastCheck_of_takesDown htakes)

/-- A created container with a bridge network. -/
def sampleCreated : CreatedStart where
  run := { sampleRun with metadata := { sampleRun.metadata with networkMode := "bridge" } }
  state := { sampleState "demo" 42 7 with
    pid := none, processStarttime := none, status := .created, networkMode := "bridge" }
  created := rfl
  sameId := rfl

/-- The delete comes between the load of the created state and the record of the start. -/
theorem delete_safe_before :
    Along (DeleteSystem.step sampleCreated.run) SparesRunning sampleCreated.system
      [.load (sampleHost [97]) {}, .release (sampleHost [97]), .remove,
        .parent (.saveStarted (sampleHost [97]) sampleStarted), .load (sampleHost [97]) {}] := by
  refine delete_safe sampleCreated _ ⟨trivial, fun _ _ ↦ ⟨trivial, fun s _ ↦ ⟨trivial, fun t ht ↦
    ⟨?_, fun _ _ ↦ ⟨trivial, fun _ _ ↦ trivial⟩⟩⟩⟩⟩
  -- the removal has ended the delete
  simp only [DeleteSystem.step] at ht
  split at ht
  · obtain rfl := Option.some.inj ht
    rfl
  · simp at ht

/-- The start is recorded after the check.  The delete goes on, and releases the network of a
running container and removes its record. -/
theorem delete_removes_running :
    ∃ s t, exec (DeleteSystem.step sampleCreated.run) sampleCreated.system
        [.load (sampleHost [97]) {}, .parent (.saveStarted (sampleHost [97]) sampleStarted)] = some s ∧
      s.file.status = some .running ∧ s.takesDown (.release (sampleHost [97])) ∧
      s.step sampleCreated.run (.release (sampleHost [97])) = some t ∧
      t.file.status = some .running ∧ t.takesDown .remove ∧
      t.step sampleCreated.run .remove = some { t with file := .missing, delete := .idle } := by
  obtain ⟨state, hstate, hid, hstatus⟩ := @startedState_existing sampleCreated.run (sampleHost [97])
    sampleCreated.state sampleStarted 2000 7 rfl processStarttime_sample
  have hsave : saveTo {} (.stored sampleCreated.state) state = (.stored state, .ok ()) := by
    rcases saveTo_cases {} (.stored sampleCreated.state) state with h | ⟨e, h⟩
    · exact h
    · have hok := (@saveTo_eq_ok_iff {} (.stored sampleCreated.state) state
        (by rw [hid]; rfl)).mpr ⟨rfl, rfl⟩
      simp [h] at hok
  have hload : sampleCreated.system.step sampleCreated.run (.load (sampleHost [97]) {}) =
      some { sampleCreated.system with delete := .checked sampleCreated.state } := rfl
  have hexec : exec (DeleteSystem.step sampleCreated.run) sampleCreated.system
      [.load (sampleHost [97]) {}, .parent (.saveStarted (sampleHost [97]) sampleStarted)] =
      some ⟨.stored state, .started state, .checked sampleCreated.state⟩ := by
    rw [exec, hload, Option.bind_some, exec, DeleteSystem.step]
    simp only [CreatedStart.system, stepParent, hstate, hsave, Option.bind_some, exec]
  have hrunning : (StateFile.stored state).status = some .running := by
    rw [StateFile.status_stored, hstatus]
  exact ⟨_, _, hexec, hrunning, rfl, rfl, hrunning, rfl, rfl⟩

end CrunRs.Lifecycle
