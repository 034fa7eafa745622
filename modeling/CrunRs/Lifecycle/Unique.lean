import CrunRs.Lib.Lts
import CrunRs.Lifecycle.Launch
import Mathlib.Data.Fintype.Basic

/-!
# One process for one id

`run` and `create` begin by looking whether there is a state, and `start` by loading one that says
created.  What follows takes its time: a bundle is read, a profile compiled, a process forked and its
network set up, and only then is the state saved that would tell another command to keep out.
Nothing is held in between.  The lock of the state is taken for the load and for the save, each on
its own, and the look at `run` and `create` does not take it at all.

So any number of commands get past their checks before the first of them saves
(`two_runs_start_two_processes`).  If each of them is alone from its check to its save, there is at
most one state and one process (`unique_of_alone`).  A command that fails after the fork leaves a
process and no trace of it, and counts as not having saved.
-/

set_option autoImplicit false

namespace CrunRs.Lifecycle

open Fallible Lts State

universe u

/-! ## The commands -/

/-- The part of `execute_container` before the fork. -/
def launchContainer (m : Machine) (options : RunOptions) :
    Except LifecycleError (Launch × ContainerRun) := do
  let config ← m.loadConfig options.bundle
  let policy ← effectivePolicy config options
  prepareLaunch m options (!options.tty && shouldCaptureLogs policy.logMode m.stdinIsTerminal)

/-- Where a command on the id is. -/
inductive StartPc
  | idle
  /-- `create`, between the check and the save. -/
  | creating (options : RunOptions)
  /-- `run`, or `start` with the state it loaded, between the check and the fork. -/
  | launching (options : RunOptions) (existing : Option ContainerState)
  /-- Between the fork and the save of the running state. -/
  | forked (run : ContainerRun) (existing : Option ContainerState)
  /-- Failed between the two. -/
  | orphaned (existing : Option ContainerState)
  | running (state : ContainerState)
  | ended

namespace StartPc

/-- Past its check, and without a state saved; not if it failed before it had a process. -/
def pending : StartPc → Bool
  | creating _ | launching .. | forked .. | orphaned _ => true
  | _ => false

/-- It has a process, and has not saved its state. -/
def hasForked : StartPc → Bool
  | forked .. | orphaned _ => true
  | _ => false

end StartPc

/-- The state file of the id, the commands, and who has done what the id is for once. -/
structure StartSystem (κ : Type u) where
  file : StateFile
  command : κ → StartPc
  /-- The `run`s and `create`s that passed the check and saved a state. -/
  saved : List κ
  /-- The commands that started a process. -/
  processes : List κ

/-- What happens next.  A save is one that succeeds, and a command that fails says so. -/
inductive StartAct (κ : Type u)
  | runCheck (k : κ) (options : RunOptions)
  | createCheck (k : κ) (options : RunOptions)
  | startLoad (k : κ) (host : Host)
  | saveCreated (k : κ) (now : Option UInt64)
  | fork (k : κ)
  | saveStarted (k : κ) (host : Host) (started : StartedProcess)
  | saveStopped (k : κ) (now : Option UInt64) (status : WaitStatus)
  | fail (k : κ)
  /-- Some other command loads the state. -/
  | loadCurrent (host : Host) (faults : StoreFaults)

namespace StartSystem

variable {κ : Type u}

section

variable [DecidableEq κ]

def setCommand (s : StartSystem κ) (k : κ) (pc : StartPc) : StartSystem κ :=
  { s with command := Function.update s.command k pc }

/-- The file after a save that succeeds. -/
def save (s : StartSystem κ) (state : ContainerState) : Option (StartSystem κ) :=
  match saveTo {} s.file state with
  | (file, .ok ()) => some { s with file }
  | (_, .error _) => none

/-- `ensure_container_absent`, and where the command is after it. -/
def check (s : StartSystem κ) (id : String) (k : κ) (options : RunOptions) (pc : StartPc) :
    Option (StartSystem κ) :=
  match s.command k with
  | .idle =>
    if options.id ≠ id then none
    else match ensureContainerAbsent id s.file with
      | .ok () => some (s.setCommand k pc)
      | .error _ => some (s.setCommand k .ended)
  | _ => none

/-- One step of one of the commands. -/
def step (m : Machine) (id : String) (s : StartSystem κ) : StartAct κ → Option (StartSystem κ)
  | .runCheck k options => s.check id k options (.launching options none)
  | .createCheck k options => s.check id k options (.creating options)
  | .startLoad k host => match s.command k with
    | .idle =>
      let t := { s with file := (loadCurrentFrom host {} id s.file).file }
      match loadCreated id s.file host with
      | .error _ => some (t.setCommand k .ended)
      | .ok state => match optionsFromState state with
        | .error _ => some (t.setCommand k .ended)
        | .ok options => some (t.setCommand k (.launching options (some state)))
    | _ => none
  | .saveCreated k now => match s.command k with
    -- the check has found the file missing
    | .creating options => match createdState m options .missing now with
      | .ok state => { s.setCommand k .ended with saved := s.saved ++ [k] }.save state
      | .error _ => none
    | _ => none
  | .fork k => match s.command k with
    | .launching options existing => match launchContainer m options with
      | .ok (_, run) =>
        some { s.setCommand k (.forked run existing) with processes := s.processes ++ [k] }
      | .error _ => none
    | _ => none
  | .saveStarted k host started => match s.command k with
    | .forked run existing => match startedState run host existing started with
      | .ok state =>
        let saved := if existing.isNone then s.saved ++ [k] else s.saved
        { s.setCommand k (.running state) with saved }.save state
      | .error _ => none
    | _ => none
  | .saveStopped k now status => match s.command k with
    | .running state => match stoppedState now state status with
      | .ok state => (s.setCommand k .ended).save state
      | .error _ => none
    | _ => none
  | .fail k => match s.command k with
    | .forked _ existing => some (s.setCommand k (.orphaned existing))
    | .orphaned _ => none
    | _ => some (s.setCommand k .ended)
  | .loadCurrent host faults =>
    some { s with file := (loadCurrentFrom host faults id s.file).file }

/-- A `run` that is left alone is `runContainer`. -/
theorem exec_run {m : Machine} {s : StartSystem κ} {k : κ} {options : RunOptions} {host : Host}
    {started : StartedProcess} {launch : Launch} {state : ContainerState}
    (hidle : s.command k = .idle)
    (h : runContainer m options s.file host started = .ok (launch, state)) :
    ∃ t, exec (step m options.id) s
        [.runCheck k options, .fork k, .saveStarted k host started] = some t ∧
      t.file = .stored state ∧ t.saved = s.saved ++ [k] ∧ t.processes = s.processes ++ [k] := by
  obtain ⟨_, habsent, h⟩ := bind_eq_ok_iff.mp h
  obtain ⟨config, policy, run, hconfig, hpolicy, hprepare, hstate⟩ :=
    executeContainer_eq_ok_iff.mp h
  have hlaunch : launchContainer m options = .ok (launch, run) := by
    simp only [launchContainer, hconfig, hpolicy, ok_bind, hprepare]
  have hid : validateId state.id = .ok () := by
    obtain ⟨heq, hvalid⟩ := ContainerState.running_id hstate
    rw [heq, hvalid]
  have hsave : ∀ s : StartSystem κ, s.save state = some { s with file := .stored state } := by
    intro s
    have hok := (@saveTo_eq_ok_iff {} s.file state hid).mpr ⟨rfl, rfl⟩
    rcases saveTo_cases {} s.file state with hsaved | ⟨e, hsaved⟩
    · rw [save, hsaved]
    · simp [hsaved] at hok
  refine ⟨⟨.stored state, Function.update s.command k (.running state), s.saved ++ [k],
    s.processes ++ [k]⟩, ?_, rfl, rfl, rfl⟩
  simp [exec, step, check, hidle, habsent, setCommand, hlaunch, hstate, hsave]

end

/-- Nobody has begun. -/
def start (file : StateFile) : StartSystem κ where
  file := file
  command := fun _ ↦ .idle
  saved := []
  processes := []

/-! ## The property and the condition -/

/-- **One state and one process.** -/
def Unique (s : StartSystem κ) : Prop := s.saved.length ≤ 1 ∧ s.processes.length ≤ 1

/-- Nobody else is between its check and its save. -/
def OthersDone (s : StartSystem κ) (k : κ) : Prop := ∀ j, j ≠ k → (s.command j).pending = false

/-- The condition: a command that passes its check is alone. -/
def Alone (s : StartSystem κ) : StartAct κ → Prop
  | .runCheck k _ | .createCheck k _ => s.file = .missing → s.OthersDone k
  | .startLoad k _ => s.file.status = some .created → s.OthersDone k
  | _ => True

instance [Fintype κ] [DecidableEq κ] (s : StartSystem κ) (k : κ) : Decidable (s.OthersDone k) :=
  inferInstanceAs (Decidable (∀ _, _ → _))

instance decidableAlone [Fintype κ] [DecidableEq κ] (s : StartSystem κ) : ∀ a, Decidable (s.Alone a)
  | .runCheck .. | .createCheck .. | .startLoad .. => inferInstanceAs (Decidable (_ → _))
  | .saveCreated .. | .fork _ | .saveStarted .. | .saveStopped .. | .fail _ | .loadCurrent .. =>
    isTrue trivial

/-! ## The invariant -/

/-- The container has been started, and may have ended. -/
def Started (file : StateFile) : Prop := ∃ state, file = .stored state ∧ state.status ≠ .created

/-- What a command relies on: the file is as its check found it, or, once it has saved, of a started
container. -/
def Claims (file : StateFile) : StartPc → Prop
  | .idle | .ended => True
  | .creating _ => file = .missing
  | .launching _ existing | .forked _ existing | .orphaned existing =>
    if existing.isNone then file = .missing else file.status = some .created
  | .running _ => Started file

structure Inv (s : StartSystem κ) : Prop where
  alone : ∀ i j, (s.command i).pending → (s.command j).pending → i = j
  claims : ∀ k, Claims s.file (s.command k)
  saved : s.saved.length ≤ 1
  unsaved : s.file = .missing → s.saved = []
  processes : s.processes.length ≤ 1
  traced : s.processes ≠ [] → Started s.file ∨ ∃ k, (s.command k).hasForked

theorem Inv.start (file : StateFile) : Inv (StartSystem.start file : StartSystem κ) where
  alone := fun i j h ↦ by simp [StartSystem.start, StartPc.pending] at h
  claims := fun k ↦ trivial
  saved := Nat.zero_le 1
  unsaved := fun _ ↦ rfl
  processes := Nat.zero_le 1
  traced := fun h ↦ absurd rfl h

theorem not_started_of_pending {file : StateFile} {pc : StartPc} (hpending : pc.pending)
    (hclaims : Claims file pc) : ¬ Started file := by
  rintro ⟨state, hfile, hstatus⟩
  have hexisting : ∀ existing : Option ContainerState,
      (if existing.isNone then file = .missing else file.status = some .created) → False := by
    intro existing hclaim
    split at hclaim
    · simp [hfile] at hclaim
    · rw [hfile, StateFile.status_stored, Option.some.injEq] at hclaim
      exact hstatus hclaim
  cases pc with
  | creating options => simp [hfile, Claims] at hclaims
  | launching options existing => exact hexisting existing hclaims
  | forked run existing => exact hexisting existing hclaims
  | orphaned existing => exact hexisting existing hclaims
  | idle | running | ended => simp [StartPc.pending] at hpending

section

variable {s t : StartSystem κ}

/-- While a command is between its check and its save, the others are idle or have ended. -/
theorem Inv.settled (h : Inv s) {k : κ} (hk : (s.command k).pending) {j : κ} (hne : j ≠ k) :
    s.command j = .idle ∨ s.command j = .ended := by
  have hnot : ¬ (s.command j).pending := fun hj ↦ hne (h.alone j k hj hk)
  have hclaims := h.claims j
  cases hj : s.command j with
  | idle => exact Or.inl rfl
  | ended => exact Or.inr rfl
  | running state =>
    rw [hj] at hclaims
    exact absurd hclaims (not_started_of_pending hk (h.claims k))
  | creating | launching | forked | orphaned => simp [hj, StartPc.pending] at hnot

/-- And if it has no process, there is none. -/
theorem Inv.no_processes (h : Inv s) {k : κ} (hk : (s.command k).pending)
    (hforked : (s.command k).hasForked = false) : s.processes = [] := by
  by_contra hne
  rcases h.traced hne with hstarted | ⟨j, hj⟩
  · exact not_started_of_pending hk (h.claims k) hstarted
  · have hpending : (s.command j).pending := by
      cases hpc : s.command j <;> simp_all [StartPc.pending, StartPc.hasForked]
    rw [h.alone j k hpending hk, hforked] at hj
    simp at hj

/-- A load changes the file only if the container has been started, and then it has been so
after it. -/
theorem Inv.recover (h : Inv s) (host : Host) (faults : StoreFaults) (id : String) :
    Inv { s with file := (loadCurrentFrom host faults id s.file).file } := by
  rcases loadCurrentFrom_cases host faults id s.file with ⟨hsame, _⟩ |
    ⟨old, new, hold, hrunning, hstopped, hnew, _⟩
  · rw [hsame]
    exact h
  · have hstarted : Started s.file := ⟨old, hold, by simp [hrunning]⟩
    have hstarted' : Started (.stored new) := ⟨new, rfl, by simp [hstopped]⟩
    rw [hnew]
    exact {
      alone := h.alone
      claims := fun k ↦ by
        have hclaims := h.claims k
        cases hpc : s.command k with
        | idle | ended => trivial
        | running state => exact hstarted'
        | creating | launching | forked | orphaned =>
          exact absurd hstarted (not_started_of_pending (by simp [hpc, StartPc.pending]) hclaims)
      saved := h.saved
      unsaved := fun hmissing ↦ by simp at hmissing
      processes := h.processes
      traced := fun _ ↦ Or.inl hstarted' }

theorem save_eq_some {state : ContainerState} (h : s.save state = some t) :
    t = { s with file := .stored state } := by
  unfold save at h
  rcases saveTo_cases {} s.file state with hsaved | ⟨e, hsaved⟩
  · rw [hsaved] at h
    exact (Option.some.inj h).symm
  · simp [hsaved] at h

variable [DecidableEq κ]

/-- A command moves on and leaves the file: it goes on with what it had claimed, or claims what
nobody else does. -/
theorem Inv.setCommand (h : Inv s) {k : κ} {pc : StartPc} (hclaims : Claims s.file pc)
    (hpending : pc.pending → (s.command k).pending ∨ s.OthersDone k)
    (hforked : (s.command k).hasForked → pc.hasForked) : Inv (s.setCommand k pc) where
  alone := by
    have hother : ∀ j, j ≠ k → (s.command j).pending → ¬ pc.pending := by
      intro j hne hj hpc
      rcases hpending hpc with hk | hdone
      · exact hne (h.alone j k hj hk)
      · simp [hdone j hne] at hj
    intro i j hi hj
    simp only [StartSystem.setCommand, Function.update_apply] at hi hj
    split at hi <;> split at hj
    · rename_i hik hjk
      rw [hik, hjk]
    · rename_i hjk
      exact absurd hi (hother j hjk hj)
    · rename_i hik hjk
      exact absurd hj (hother i hik hi)
    · exact h.alone i j hi hj
  claims := fun j ↦ by
    simp only [StartSystem.setCommand, Function.update_apply]
    split
    · exact hclaims
    · exact h.claims j
  saved := h.saved
  unsaved := h.unsaved
  processes := h.processes
  traced := fun hne ↦ by
    rcases h.traced hne with hstarted | ⟨j, hj⟩
    · exact Or.inl hstarted
    · refine Or.inr ⟨j, ?_⟩
      simp only [StartSystem.setCommand, Function.update_apply]
      split
      · rename_i hjk
        exact hforked (hjk ▸ hj)
      · exact hj

theorem Inv.end (h : Inv s) {k : κ} (hforked : (s.command k).hasForked = false) :
    Inv (s.setCommand k .ended) :=
  h.setCommand trivial (fun hp ↦ by simp [StartPc.pending] at hp) (fun hf ↦ by simp [hforked] at hf)

/-- A command that saves a state others rely on is the only one that did. -/
theorem Inv.save_claimed (h : Inv s) {k : κ} (hk : (s.command k).pending) {pc : StartPc}
    {state : ContainerState} {saved : List κ} (hpc : pc.pending = false)
    (hclaims : Claims (.stored state) pc) (hsaved : saved.length ≤ 1)
    (htraced : s.processes ≠ [] → state.status ≠ .created) :
    Inv { s.setCommand k pc with file := .stored state, saved } where
  alone := by
    intro i j hi hj
    have hnone : ∀ l, (Function.update s.command k pc l).pending = false := by
      intro l
      rw [Function.update_apply]
      split
      · exact hpc
      · rename_i hne
        rcases h.settled hk hne with hl | hl <;> rw [hl] <;> rfl
    simp only [StartSystem.setCommand, hnone] at hi
    simp at hi
  claims := fun j ↦ by
    simp only [StartSystem.setCommand, Function.update_apply]
    split
    · exact hclaims
    · rename_i hne
      rcases h.settled hk hne with hj | hj <;> rw [hj] <;> trivial
  saved := hsaved
  unsaved := fun hmissing ↦ by simp at hmissing
  processes := h.processes
  traced := fun hne ↦ Or.inl ⟨state, rfl, htraced hne⟩

/-- The record of the outcome of a process. -/
theorem Inv.save_stopped (h : Inv s) {k : κ} {running state : ContainerState}
    (hk : s.command k = .running running) (hstopped : state.status = .stopped) :
    Inv { s.setCommand k .ended with file := .stored state } := by
  have hstarted : Started s.file := by
    have hclaims := h.claims k
    rwa [hk] at hclaims
  have hstarted' : Started (.stored state) := ⟨state, rfl, by simp [hstopped]⟩
  have hended := h.end (k := k) (by rw [hk]; rfl)
  exact {
    alone := hended.alone
    claims := fun j ↦ by
      have hclaims := hended.claims j
      cases hpc : (s.setCommand k .ended).command j with
      | idle | ended => trivial
      | running state => exact hstarted'
      | creating | launching | forked | orphaned =>
        exact absurd hstarted (not_started_of_pending (by simp [hpc, StartPc.pending]) hclaims)
    saved := h.saved
    unsaved := fun hmissing ↦ by simp at hmissing
    processes := h.processes
    traced := fun _ ↦ Or.inl hstarted' }

/-- A fork: the command goes on with what it had claimed, and its process is the first. -/
theorem Inv.fork (h : Inv s) {k : κ} {options : RunOptions} {existing : Option ContainerState}
    (hk : s.command k = .launching options existing) (run : ContainerRun) :
    Inv { s.setCommand k (.forked run existing) with processes := s.processes ++ [k] } := by
  have hnone : s.processes = [] := h.no_processes (k := k) (by rw [hk]; rfl) (by rw [hk]; rfl)
  have hclaims := h.claims k
  rw [hk] at hclaims
  have hset : Inv (s.setCommand k (.forked run existing)) :=
    h.setCommand hclaims (fun _ ↦ Or.inl (by rw [hk]; rfl)) (fun _ ↦ rfl)
  exact {
    alone := hset.alone
    claims := hset.claims
    saved := h.saved
    unsaved := h.unsaved
    processes := by simp [hnone]
    traced := fun _ ↦ Or.inr ⟨k, by simp [StartSystem.setCommand, StartPc.hasForked]⟩ }

/-- A check that passes has found no state. -/
theorem Inv.check (h : Inv s) {id : String} {k : κ} {options : RunOptions} {pc : StartPc}
    (hcond : s.file = .missing → s.OthersDone k) (hclaims : Claims .missing pc)
    (hstep : s.check id k options pc = some t) : Inv t := by
  unfold StartSystem.check at hstep
  split at hstep
  · rename_i hidle
    split at hstep
    · simp at hstep
    · split at hstep
      · rename_i habsent
        obtain rfl := Option.some.inj hstep
        have hmissing : s.file = .missing := by
          obtain ⟨_, _, hcheck⟩ := bind_eq_ok_iff.mp habsent
          by_contra hne
          simp [hne] at hcheck
        refine h.setCommand (hmissing ▸ hclaims) (fun _ ↦ Or.inr (hcond hmissing)) fun hforked ↦ ?_
        simp [hidle, StartPc.hasForked] at hforked
      · obtain rfl := Option.some.inj hstep
        exact h.end (by rw [hidle]; rfl)
  · simp at hstep

/-- A load that finds a created state has found it in the file, and left it there. -/
theorem loadCreated_eq_ok {id : String} {host : Host} {file : StateFile} {state : ContainerState}
    (h : loadCreated id file host = .ok state) :
    file.status = some .created ∧ (loadCurrentFrom host {} id file).file = file := by
  obtain ⟨loaded, hloaded, hcheck⟩ := bind_eq_ok_iff.mp h
  rw [mapError_eq_ok_iff] at hloaded
  have hcreated : loaded.status = .created := by
    by_contra hne
    simp [hne] at hcheck
  rcases loadCurrentFrom_cases host {} id file with ⟨hsame, hfile⟩ |
    ⟨old, new, _, _, hstopped, _, hresult⟩
  · rw [hfile loaded hloaded, StateFile.status_stored, hcreated, ← hfile loaded hloaded]
    exact ⟨rfl, hsame⟩
  · obtain rfl := Except.ok.inj (hresult.symm.trans hloaded)
    simp [hstopped] at hcreated

theorem Inv.startLoad {m : Machine} {id : String} {k : κ} {host : Host} (h : Inv s)
    (hcond : s.Alone (.startLoad k host)) (hstep : s.step m id (.startLoad k host) = some t) :
    Inv t := by
  simp only [StartSystem.step] at hstep
  have hrecovered := h.recover host {} id
  split at hstep
  · rename_i hidle
    have hended : Inv ({ s with file := (loadCurrentFrom host {} id s.file).file }.setCommand k
        .ended) := hrecovered.end (by rw [hidle]; rfl)
    split at hstep
    · obtain rfl := Option.some.inj hstep
      exact hended
    · rename_i state hload
      split at hstep
      · obtain rfl := Option.some.inj hstep
        exact hended
      · obtain rfl := Option.some.inj hstep
        obtain ⟨hcreated, hsame⟩ := loadCreated_eq_ok hload
        rw [hsame]
        refine h.setCommand hcreated (fun _ ↦ Or.inr (hcond hcreated)) fun hforked ↦ ?_
        simp [hidle, StartPc.hasForked] at hforked
  · simp at hstep

theorem Inv.saveCreated {m : Machine} {id : String} {k : κ} {now : Option UInt64} (h : Inv s)
    (hstep : s.step m id (.saveCreated k now) = some t) : Inv t := by
  simp only [StartSystem.step] at hstep
  split at hstep
  · rename_i options hk
    split at hstep
    · rename_i state hstate
      obtain rfl := save_eq_some hstep
      have hpending : (s.command k).pending := by rw [hk]; rfl
      have hclaims := h.claims k
      rw [hk] at hclaims
      refine h.save_claimed hpending rfl trivial ?_ fun hne ↦ ?_
      · simp [h.unsaved hclaims]
      · exact absurd (h.no_processes hpending (by rw [hk]; rfl)) hne
    · simp at hstep
  · simp at hstep

theorem Inv.saveStarted {m : Machine} {id : String} {k : κ} {host : Host} {started : StartedProcess}
    (h : Inv s) (hstep : s.step m id (.saveStarted k host started) = some t) : Inv t := by
  simp only [StartSystem.step] at hstep
  split at hstep
  · rename_i run existing hk
    split at hstep
    · rename_i state hstate
      obtain rfl := save_eq_some hstep
      have hrunning := startedState_status hstate
      have hnot : state.status ≠ .created := by simp [hrunning]
      have hclaims := h.claims k
      rw [hk] at hclaims
      refine h.save_claimed (by rw [hk]; rfl) rfl ⟨state, rfl, hnot⟩ ?_ fun _ ↦ hnot
      split
      · rename_i hnone
        simp only [Claims, if_pos hnone] at hclaims
        simp [h.unsaved hclaims]
      · exact h.saved
    · simp at hstep
  · simp at hstep

/-- A command that fails is over, unless it has forked: then its process goes on. -/
theorem Inv.fail {m : Machine} {id : String} {k : κ} (h : Inv s)
    (hstep : s.step m id (.fail k) = some t) : Inv t := by
  simp only [StartSystem.step] at hstep
  split at hstep
  · rename_i run existing hk
    obtain rfl := Option.some.inj hstep
    have hclaims := h.claims k
    rw [hk] at hclaims
    exact h.setCommand hclaims (fun _ ↦ Or.inl (by rw [hk]; rfl)) fun _ ↦ rfl
  · simp at hstep
  · rename_i hforked horphaned
    obtain rfl := Option.some.inj hstep
    refine h.end ?_
    cases hk : s.command k with
    | forked run existing => exact absurd hk (hforked run existing)
    | orphaned existing => exact absurd hk (horphaned existing)
    | idle | creating | launching | running | ended => rfl

/-- **A step keeps the invariant if a command that passes its check is alone.** -/
theorem Inv.step {m : Machine} {id : String} (h : Inv s) {a : StartAct κ} (hcond : s.Alone a)
    (hstep : s.step m id a = some t) : Inv t := by
  cases a with
  | runCheck k options =>
    have hclaims : Claims .missing (.launching options none) := rfl
    exact h.check hcond hclaims hstep
  | createCheck k options =>
    have hclaims : Claims .missing (.creating options) := rfl
    exact h.check hcond hclaims hstep
  | startLoad k host => exact h.startLoad hcond hstep
  | saveCreated k now => exact h.saveCreated hstep
  | fork k =>
    simp only [StartSystem.step] at hstep
    split at hstep
    · rename_i options existing hk
      split at hstep
      · rename_i run _
        obtain rfl := Option.some.inj hstep
        exact h.fork hk run
      · simp at hstep
    · simp at hstep
  | saveStarted k host started => exact h.saveStarted hstep
  | saveStopped k now status =>
    simp only [StartSystem.step] at hstep
    split at hstep
    · rename_i state hk
      split at hstep
      · rename_i state' hstate
        obtain rfl := save_eq_some hstep
        exact h.save_stopped hk (stoppedState_eq hstate).1
      · simp at hstep
    · simp at hstep
  | fail k => exact h.fail hstep
  | loadCurrent host faults =>
    obtain rfl := Option.some.inj hstep
    exact h.recover host faults id

end

/-- **At most one state and one process, if nobody overtakes.**  In every run of any number of `run`,
`create` and `start` commands on one id in which a command that passes its check is the only one
between its check and its save, at most one of them saves a state of its own and at most one process
is started. -/
theorem unique_of_alone [DecidableEq κ] (m : Machine) (id : String) (file : StateFile)
    {as : List (StartAct κ)} {t : StartSystem κ}
    (halong : Along (step m id) Alone (start file) as)
    (hexec : exec (step m id) (start file) as = some t) : t.Unique := by
  have hinv : Inv t := invariant_along (fun s a s' hs hc hstep ↦ hs.step hc hstep)
    (Inv.start file) halong hexec
  exact ⟨hinv.saved, hinv.processes⟩

/-! ## Two commands -/

/-- `create`, and then `start` twice. -/
def createStartStart : List (StartAct (Fin 3)) :=
  [.createCheck 0 (sampleOptions (captureFile "demo")), .saveCreated 0 (some 1000),
    .startLoad 1 bareHost, .fork 1, .saveStarted 1 bareHost sampleStarted,
    .startLoad 2 bareHost]

/-- One after the other, `create` saves the state and the first `start` has the process. -/
theorem unique_of_alone_start :
    ∃ t, exec (step sampleMachine "demo") (start .missing) createStartStart = some t ∧
      t.saved = [0] ∧ t.processes = [1] ∧ t.Unique := by
  have hrun : (exec (step sampleMachine "demo") (start .missing) createStartStart).map
      (fun s ↦ (s.saved, s.processes)) = some ([0], [1]) := by
    decide +kernel
  obtain ⟨t, ht, hresult⟩ := Option.map_eq_some_iff.mp hrun
  obtain ⟨hsaved, hprocesses⟩ := Prod.mk.inj hresult
  exact ⟨t, ht, hsaved, hprocesses,
    unique_of_alone sampleMachine "demo" .missing (by decide +kernel) ht⟩

/-- Two `run`s that look before either of them saves. -/
def twoRuns : List (StartAct Bool) :=
  [.runCheck false (sampleOptions (captureFile "demo")),
    .runCheck true (sampleOptions (captureFile "demo")), .fork false, .fork true,
    .saveStarted false bareHost sampleStarted,
    .saveStarted true bareHost sampleStarted]

/-- Two `start`s that load before either of them saves. -/
def twoStarts : List (StartAct (Fin 3)) :=
  [.createCheck 0 (sampleOptions (captureFile "demo")), .saveCreated 0 (some 1000),
    .startLoad 1 bareHost, .startLoad 2 bareHost, .fork 1, .fork 2]

/-- **Two processes under one id**: both `run`s save their state over the other's, and both `start`s
start the created container. -/
theorem two_runs_start_two_processes :
    (∃ t, exec (step sampleMachine "demo") (start .missing) twoRuns = some t ∧
      t.saved = [false, true] ∧ t.processes = [false, true] ∧ ¬ t.Unique) ∧
    ∃ t, exec (step sampleMachine "demo") (start .missing) twoStarts = some t ∧
      t.saved = [0] ∧ t.processes = [1, 2] ∧ ¬ t.Unique := by
  have hruns : (exec (step sampleMachine "demo") (start .missing) twoRuns).map
      (fun s ↦ (s.saved, s.processes)) = some ([false, true], [false, true]) := by
    decide +kernel
  have hstarts : (exec (step sampleMachine "demo") (start .missing) twoStarts).map
      (fun s ↦ (s.saved, s.processes)) = some ([0], [1, 2]) := by
    decide +kernel
  obtain ⟨t, ht, hresult⟩ := Option.map_eq_some_iff.mp hruns
  obtain ⟨hsaved, hprocesses⟩ := Prod.mk.inj hresult
  obtain ⟨t', ht', hresult'⟩ := Option.map_eq_some_iff.mp hstarts
  obtain ⟨hsaved', hprocesses'⟩ := Prod.mk.inj hresult'
  refine ⟨⟨t, ht, hsaved, hprocesses, fun h ↦ ?_⟩, t', ht', hsaved', hprocesses', fun h ↦ ?_⟩
  · simp [Unique, hprocesses] at h
  · simp [Unique, hprocesses'] at h

end StartSystem

end CrunRs.Lifecycle
