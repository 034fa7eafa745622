import CrunRs.Doctor
import CrunRs.Health
import CrunRs.Lib.Lts
import CrunRs.Lifecycle.Run

/-!
# The recorded outcome of a container

One container, and the commands that write its state file while it runs: the runtime process that
started it, any number of health checks and `doctor --fix` runs, and everything that merely loads the
state.  Each load and each save is one step, since it is locked or replaces the file by a rename.

A health check saves what it loaded before its first attempt, and `doctor` what it listed before its
recovery.  If the runtime process saves the outcome of the child in between, the health check sets
the state back to running, and `doctor` replaces the outcome by its own (`health_reverts_stopped`).

That is the only way.  The outcome, once recorded, stays recorded through a whole run exactly if in
that run nobody saves, after the outcome was saved, a record that was loaded before
(`outcome_kept_iff`).  Loading is never at fault: recovery happens under the lock, and only to a
running state.
-/

set_option autoImplicit false

namespace CrunRs.Lifecycle

open Lts State

universe u

/-! ## The parties -/

/-- Where another command is.  Next to the record it holds stands whether that was loaded before the
outcome of the child was saved; only the proof looks at it. -/
inductive CommandPc
  | idle
  /-- `health::run_once`, between the load and the save. -/
  | checking (state : ContainerState) (early : Bool)
  /-- `doctor::run`, between the listing and the save. -/
  | fixing (state : ContainerState) (early : Bool)

def CommandPc.early : CommandPc → Bool
  | idle => false
  | checking _ early | fixing _ early => early

structure OutcomeSystem (κ : Type u) where
  file : StateFile
  parent : ParentPc
  command : κ → CommandPc

/-- What happens next.  Here, too, a save is one that succeeds, and a command whose save fails gives
up. -/
inductive OutcomeAct (κ : Type u)
  | parent (act : ParentAct)
  | healthLoad (k : κ) (host : Host) (faults : StoreFaults)
  | healthSave (k : κ) (p : Health.Probe)
  | doctorList (k : κ)
  | doctorSave (k : κ) (host : Doctor.DoctorHost) (protectedVeths : List String)
  | giveUp (k : κ)
  | loadCurrent (host : Host) (faults : StoreFaults)

variable {κ : Type u} [DecidableEq κ] (run : ContainerRun)

namespace OutcomeSystem

def setCommand (s : OutcomeSystem κ) (k : κ) (pc : CommandPc) : OutcomeSystem κ :=
  { s with command := Function.update s.command k pc }

/-- The file after a save that succeeds. -/
def save (s : OutcomeSystem κ) (state : ContainerState) : Option (OutcomeSystem κ) :=
  match saveTo {} s.file state with
  | (file, .ok ()) => some { s with file }
  | (_, .error _) => none

/-- One step of one of them. -/
def step (s : OutcomeSystem κ) : OutcomeAct κ → Option (OutcomeSystem κ)
  | .parent act => match stepParent run s.parent act with
    | some (parent, some state) => { s with parent }.save state
    | some (parent, none) => some { s with parent }
    | none => none
  | .healthLoad k host faults => match s.command k with
    | .idle =>
      let load := loadCurrentFrom host faults run.id s.file
      let s := { s with file := load.file }
      match load.result with
      | .error _ => some s
      | .ok state => match Health.target run.id state with
        | .error _ => some s
        | .ok _ => some (s.setCommand k (.checking state (!s.parent.isStopped)))
    | _ => none
  | .healthSave k p => match s.command k with
    | .checking state _ => match Health.record p state with
      | .ok (state, _) => (s.setCommand k .idle).save state
      | .error _ => none
    | _ => none
  | .doctorList k => match s.command k with
    | .idle => match loadFrom run.id s.file with
      | .error _ => some s
      | .ok state => some (s.setCommand k (.fixing state (!s.parent.isStopped)))
    | _ => none
  | .doctorSave k host protectedVeths => match s.command k with
    | .fixing state _ =>
      if state.status = .running ∧ Doctor.isStaleProcess host state ∧
          Doctor.recoverState host protectedVeths state = none then
        (s.setCommand k .idle).save (state.markStopped host.now none (some "STALE")).1
      else none
    | _ => none
  | .giveUp k => some (s.setCommand k .idle)
  | .loadCurrent host faults =>
    some { s with file := (loadCurrentFrom host faults run.id s.file).file }

/-- A health check that is left alone is `run_once`. -/
theorem exec_health {s : OutcomeSystem κ} {k : κ} {host : Host} {p : Health.Probe}
    {file : StateFile} {outcome : Nat × HealthState} (hidle : s.command k = .idle)
    (h : Health.runOnce host {} run.id p s.file = (file, .ok outcome)) :
    exec (step run) s [.healthLoad k host {}, .healthSave k p] = some { s with file } := by
  unfold Health.runOnce at h
  dsimp only at h
  split at h
  · simp at h
  · rename_i state hload
    split at h
    · simp at h
    · rename_i pid htarget
      split at h
      · simp at h
      · rename_i new _ hrecord
        have hcommand : Function.update (Function.update s.command k
            (.checking state (!s.parent.isStopped))) k .idle = s.command := by
          rw [Function.update_idem, ← hidle, Function.update_eq_self]
        rcases saveTo_cases {} (loadCurrentFrom host {} run.id s.file).file new with
          hsave | ⟨e, hsave⟩
        · rw [hsave] at h
          obtain ⟨rfl, _⟩ := Prod.mk.inj h
          simp only [exec, step, hidle, hload, htarget, setCommand, Function.update_self, hrecord,
            save, hsave, hcommand, Option.bind_some]
        · rw [hsave] at h
          simp at h

/-- The outcome of the child is what the file says, once it has been saved. -/
def Recorded (s : OutcomeSystem κ) : Prop :=
  ∀ status, s.parent = .stopped status →
    ∃ state, s.file = .stored state ∧ state.status = .stopped ∧
      (state.exitCode, state.signal) = processExit status

/-- The condition: a record that was loaded before the outcome was saved is not saved after it. -/
def SavesNoStale (s : OutcomeSystem κ) : OutcomeAct κ → Prop
  | .healthSave k _ | .doctorSave k _ _ => ¬ (s.parent.isStopped ∧ (s.command k).early)
  | _ => True

instance decidableSavesNoStale (s : OutcomeSystem κ) : ∀ a, Decidable (s.SavesNoStale a)
  | .healthSave k _ | .doctorSave k _ _ =>
    inferInstanceAs (Decidable (¬ (s.parent.isStopped ∧ (s.command k).early)))
  | .parent _ | .healthLoad .. | .doctorList _ | .giveUp _ | .loadCurrent .. => isTrue trivial

/-! ## What one step can do -/

omit [DecidableEq κ] in
theorem save_eq_some {s t : OutcomeSystem κ} {state : ContainerState} (h : s.save state = some t) :
    t = { s with file := .stored state } := by
  unfold save at h
  rcases saveTo_cases {} s.file state with hsave | ⟨e, hsave⟩
  · rw [hsave] at h
    exact (Option.some.inj h).symm
  · rw [hsave] at h
    simp at h

/-- A command that holds nothing, or what the file says now. -/
def Fresh (s : OutcomeSystem κ) : CommandPc → Prop
  | .idle => True
  | .checking state early =>
    s.file = .stored state ∧ state.status = .running ∧ early = !s.parent.isStopped
  | .fixing state early => s.file = .stored state ∧ early = !s.parent.isStopped

/-- A file that stays, or has a running state in it replaced by a stopped one. -/
def Recovers (file file' : StateFile) : Prop :=
  file' = file ∨ ∃ old new, file = .stored old ∧ old.status = .running ∧ file' = .stored new ∧
    new.status = .stopped

/-- The three kinds of steps. -/
inductive Moves (s : OutcomeSystem κ) (a : OutcomeAct κ) (t : OutcomeSystem κ) : Prop
  /-- The runtime process moves, which it does as long as it has not saved the outcome. -/
  | parent (hcond : s.SavesNoStale a) (hstopped : s.parent.isStopped = false)
      (hrecorded : t.Recorded) (hcommand : t.command = s.command)
  /-- A state is loaded, or a command gives up. -/
  | load (hcond : s.SavesNoStale a) (hparent : t.parent = s.parent) (hfile : Recovers s.file t.file)
      (hcommand : ∀ k, t.command k = s.command k ∨ t.Fresh (t.command k))
  /-- A command saves. -/
  | save (k : κ) (old new : ContainerState) (early : Bool)
      (hcond : s.SavesNoStale a ↔ ¬ (s.parent.isStopped ∧ early))
      (hparent : t.parent = s.parent) (hfile : t.file = .stored new)
      (hcommand : t.command = Function.update s.command k .idle)
      (hold : s.command k = .checking old early ∧ new.status = old.status ∨
        s.command k = .fixing old early ∧ old.status = .running ∧ new.signal = some "STALE")

/-- What the two load steps do, apart from the command. -/
theorem recovers_loadCurrentFrom (host : Host) (faults : StoreFaults) (id : String)
    (file : StateFile) : Recovers file (loadCurrentFrom host faults id file).file := by
  rcases loadCurrentFrom_cases host faults id file with ⟨hfile, _⟩ |
    ⟨old, new, hold, hrunning, hstopped, hnew, _⟩
  · exact Or.inl hfile
  · exact Or.inr ⟨old, new, hold, hrunning, hnew, hstopped⟩

/-- Updating one command leaves the others. -/
theorem setCommand_fresh {s : OutcomeSystem κ} {k : κ} {pc : CommandPc}
    (h : s.Fresh pc) (j : κ) :
    (s.setCommand k pc).command j = s.command j ∨
      (s.setCommand k pc).Fresh ((s.setCommand k pc).command j) := by
  by_cases hj : j = k
  · subst hj
    refine Or.inr ?_
    show (s.setCommand j pc).Fresh (Function.update s.command j pc j)
    rw [Function.update_self]
    cases pc <;> exact h
  · exact Or.inl (Function.update_of_ne hj _ _)

theorem moves_of_step_parent {s t : OutcomeSystem κ} {act : ParentAct}
    (h : s.step run (.parent act) = some t) : s.Moves (.parent act) t := by
  simp only [step] at h
  split at h
  · rename_i parent state hparent
    obtain rfl := save_eq_some h
    rcases stepParent_cases hparent with ⟨_, _, _, _, hs, rfl, _⟩ |
      ⟨_, status, _, _, hs, rfl, hsaved, hstopped, hexit⟩ | ⟨_, _, _, hsaved⟩
    · exact .parent trivial hs (fun status hst ↦ by cases hst) rfl
    · cases hsaved
      refine .parent trivial hs (fun status' hst ↦ ?_) rfl
      cases hst
      exact ⟨state, rfl, hstopped, hexit⟩
    · simp at hsaved
  · rename_i parent hparent
    cases h
    rcases stepParent_cases hparent with ⟨_, _, _, _, _, _, hsaved, _⟩ |
      ⟨_, _, _, _, _, _, hsaved, _⟩ | ⟨_, hs, rfl, _⟩
    · simp at hsaved
    · simp at hsaved
    · exact .parent trivial hs (fun status hst ↦ by cases hst) rfl
  · simp at h

theorem moves_of_step {s t : OutcomeSystem κ} {a : OutcomeAct κ} (h : s.step run a = some t) :
    s.Moves a t := by
  cases a with
  | parent act => exact moves_of_step_parent run h
  | healthLoad k host faults =>
    simp only [step] at h
    have hfile := recovers_loadCurrentFrom host faults run.id s.file
    split at h
    · split at h
      · cases h
        exact .load trivial rfl hfile fun j ↦ Or.inl rfl
      · rename_i state hload
        split at h
        · cases h
          exact .load trivial rfl hfile fun j ↦ Or.inl rfl
        · rename_i pid htarget
          cases h
          exact .load trivial rfl hfile
            (setCommand_fresh ⟨loadCurrentFrom_eq_ok hload, (Health.target_eq_ok htarget).1, rfl⟩)
    · simp at h
  | healthSave k p =>
    simp only [step] at h
    split at h
    · rename_i old early hcommand
      split at h
      · rename_i new outcome hrecord
        obtain rfl := save_eq_some h
        refine .save k old new early ?_ rfl rfl rfl (Or.inl ⟨hcommand, Health.record_status hrecord⟩)
        rw [SavesNoStale, hcommand, CommandPc.early]
      · simp at h
    · simp at h
  | doctorList k =>
    simp only [step] at h
    split at h
    · split at h
      · cases h
        exact .load trivial rfl (Or.inl rfl) fun j ↦ Or.inl rfl
      · rename_i state hload
        cases h
        exact .load trivial rfl (Or.inl rfl) (setCommand_fresh ⟨loadFrom_eq_ok hload, rfl⟩)
    · simp at h
  | doctorSave k host protectedVeths =>
    simp only [step] at h
    split at h
    · rename_i old early hcommand
      split at h
      · rename_i hstale
        obtain rfl := save_eq_some h
        refine .save k old _ early ?_ rfl rfl rfl (Or.inr ⟨hcommand, hstale.1, ?_⟩)
        · rw [SavesNoStale, hcommand, CommandPc.early]
        · exact Doctor.recoverState_signal hstale.2.2
      · simp at h
    · simp at h
  | giveUp k =>
    cases h
    exact .load trivial rfl (Or.inl rfl) (setCommand_fresh trivial)
  | loadCurrent host faults =>
    cases h
    exact .load trivial rfl (recovers_loadCurrentFrom host faults run.id s.file) fun j ↦ Or.inl rfl

/-! ## The invariant -/

/-- A record that can still be saved was loaded before the outcome was. -/
def HeldEarly : CommandPc → Prop
  | .idle => True
  | .checking state early => state.status = .running ∧ early = true
  | .fixing state early => state.status = .running → early = true

omit [DecidableEq κ] in
/-- Once the outcome is recorded there is no running state to recover. -/
theorem Recorded.of_recovers {s t : OutcomeSystem κ} (h : s.Recorded) (hparent : t.parent = s.parent)
    (hfile : Recovers s.file t.file) : t.Recorded := by
  intro status hstatus
  obtain ⟨state, hstored, hstopped, hexit⟩ := h status (hparent ▸ hstatus)
  rcases hfile with hsame | ⟨old, new, hold, hrunning, _, _⟩
  · exact ⟨state, hsame.trans hstored, hstopped, hexit⟩
  · have hstate : old = state := StateFile.stored.inj (hold.symm.trans hstored)
    rw [hstate, hstopped] at hrunning
    simp at hrunning

omit [DecidableEq κ] in
theorem Recorded.not_isStopped {s : OutcomeSystem κ} (h : s.Recorded) {state : ContainerState}
    (hfile : s.file = .stored state) (hrunning : state.status = .running) :
    s.parent.isStopped = false := by
  cases hparent : s.parent with
  | stopped status =>
    obtain ⟨stored, hstored, hstopped, _⟩ := h status hparent
    have hstate : state = stored := StateFile.stored.inj (hfile.symm.trans hstored)
    rw [hstate, hstopped] at hrunning
    simp at hrunning
  | starting | started | failed => rfl

omit [DecidableEq κ] in
/-- What is loaded while the outcome is recorded is not running, so nobody saves it. -/
theorem Recorded.heldEarly {s : OutcomeSystem κ} (h : s.Recorded) {pc : CommandPc}
    (hfresh : s.Fresh pc) : HeldEarly pc := by
  cases pc with
  | idle => trivial
  | checking state early =>
    obtain ⟨hfile, hrunning, hearly⟩ := hfresh
    refine ⟨hrunning, ?_⟩
    rw [hearly, h.not_isStopped hfile hrunning]
    rfl
  | fixing state early =>
    obtain ⟨hfile, hearly⟩ := hfresh
    intro hrunning
    rw [hearly, h.not_isStopped hfile hrunning]
    rfl

theorem heldEarly_step {s t : OutcomeSystem κ} {a : OutcomeAct κ}
    (h : ∀ k, HeldEarly (s.command k)) (hrec : s.Recorded) (hstep : s.step run a = some t) (k : κ) :
    HeldEarly (t.command k) := by
  cases moves_of_step run hstep with
  | parent _ _ _ hcommand =>
    rw [hcommand]
    exact h k
  | load _ hparent hfile hcommand =>
    rcases hcommand k with hsame | hfresh
    · rw [hsame]
      exact h k
    · exact (hrec.of_recovers hparent hfile).heldEarly hfresh
  | save j _ _ _ _ _ _ hcommand _ =>
    rw [hcommand, Function.update_apply]
    split
    · trivial
    · exact h k

/-- A step keeps the outcome recorded exactly if it does not save a record from before. -/
theorem recorded_step_iff {s t : OutcomeSystem κ} {a : OutcomeAct κ}
    (h : ∀ k, HeldEarly (s.command k)) (hrec : s.Recorded) (hstep : s.step run a = some t) :
    t.Recorded ↔ s.SavesNoStale a := by
  cases moves_of_step run hstep with
  | parent hcond _ hrecorded _ => exact iff_of_true hrecorded hcond
  | load hcond hparent hfile _ => exact iff_of_true (hrec.of_recovers hparent hfile) hcond
  | save k old new early hcond hparent hfile hcommand hold =>
    have hearly : early = true := by
      have hheld := h k
      rcases hold with ⟨hk, _⟩ | ⟨hk, hrunning, _⟩
      · rw [hk] at hheld
        exact hheld.2
      · rw [hk] at hheld
        exact hheld hrunning
    have hlost : ∀ status, t.parent = .stopped status → ¬ t.Recorded := by
      intro status hstatus htrec
      obtain ⟨state, hstored, hstopped, hexit⟩ := htrec status hstatus
      have hstate : new = state := StateFile.stored.inj (hfile.symm.trans hstored)
      subst hstate
      rcases hold with ⟨hk, hsame⟩ | ⟨hk, _, hsignal⟩
      · -- a health check only ever holds a running state
        have hheld := h k
        rw [hk] at hheld
        rw [hsame, hheld.1] at hstopped
        simp at hstopped
      · exact processExit_ne_stale status (hexit ▸ hsignal)
    rw [hcond, hearly]
    constructor
    · rintro htrec ⟨hs, _⟩
      cases hp : s.parent with
      | stopped status => exact hlost status (hparent.trans hp) htrec
      | starting | started | failed =>
        rw [hp] at hs
        cases hs
    · intro hs status hstatus
      refine absurd ⟨?_, rfl⟩ hs
      rw [← hparent, hstatus]
      rfl

/-! ## Runs -/

/-- The runtime process has been started, and nothing else. -/
def start (file : StateFile) (existing : Option ContainerState) : OutcomeSystem κ where
  file := file
  parent := .starting existing
  command := fun _ ↦ .idle

end OutcomeSystem

open OutcomeSystem

/-- **When the outcome of a container stays recorded.**  Take any run of the runtime process, of
health checks, `doctor --fix` runs and loads of the state, in any order.  From the moment the outcome
of the child is saved, the file says stopped with that outcome in every state the run passes through
— exactly if nobody saves, after that moment, a record that was loaded before it. -/
theorem outcome_kept_iff (file : StateFile) (existing : Option ContainerState)
    (as : List (OutcomeAct κ)) (t : OutcomeSystem κ)
    (hrun : exec (OutcomeSystem.step run) (start file existing) as = some t) :
    Throughout (OutcomeSystem.step run) Recorded (start file existing) as ↔
      Along (OutcomeSystem.step run) SavesNoStale (start file existing) as := by
  have hstart : (start file existing : OutcomeSystem κ).Recorded := by
    intro status hstatus
    cases hstatus
  exact throughout_iff_along
    (fun s a s' hs hrec hstep ↦ heldEarly_step run hs hrec hstep)
    (fun s a s' hs hrec hstep ↦ recorded_step_iff run hs hrec hstep)
    (fun _ ↦ trivial) hstart hrun

/-- A health check whose command succeeds. -/
def sampleProbe : Health.Probe where
  healthcheck := .ok (some { test := ["CMD", "/bin/true"] })
  exec := fun _ ↦ .ok ⟨some 0, none⟩
  checkedAtUnix := 2500
  now := some 2500

/-- The check is over before the container exits. -/
def checkedSchedule : List (OutcomeAct Unit) :=
  [.parent (.saveStarted (sampleHost [97]) sampleStarted), .healthLoad () (sampleHost [97]) {},
    .healthSave () sampleProbe, .parent (.saveStopped (some 3000) (.exited 42 3)),
    .loadCurrent (sampleHost [97]) {}]

/-- A run that meets the condition. -/
theorem outcome_kept_iff_checked :
    Throughout (OutcomeSystem.step sampleRun) Recorded (start .missing none) checkedSchedule :=
  (outcome_kept_iff sampleRun .missing none checkedSchedule
    ((exec (OutcomeSystem.step sampleRun) (start .missing none) checkedSchedule).get
      (by decide +kernel)) (Option.some_get _).symm).mpr (by decide +kernel)

/-- The container exits during the check. -/
def overtakenSchedule : List (OutcomeAct Unit) :=
  [.parent (.saveStarted (sampleHost [97]) sampleStarted), .healthLoad () (sampleHost [97]) {},
    .parent (.saveStopped (some 3000) (.exited 42 3)), .healthSave () sampleProbe]

/-- The health check saves the record it loaded while the container ran: the container is running
again, and its exit code 3 is gone. -/
theorem health_reverts_stopped :
    ∃ t state, exec (OutcomeSystem.step sampleRun) (start .missing none) overtakenSchedule = some t ∧
      t.parent = .stopped (.exited 42 3) ∧ t.file = .stored state ∧ state.status = .running ∧
      state.exitCode = none := by
  have hend : (exec (OutcomeSystem.step sampleRun) (start .missing none) overtakenSchedule).map
      (fun t ↦ (t.parent, t.file)) = some (.stopped (.exited 42 3),
        .stored { sampleState "demo" 42 7 with
          logPath := none, logMode := "off", createdAtUnix := 2000, updatedAtUnix := 2500
          health := some ⟨"healthy", some 0, none, ["/bin/true"], 2500⟩ }) := by
    decide +kernel
  obtain ⟨t, hexec, hpair⟩ := Option.map_eq_some_iff.mp hend
  obtain ⟨hparent, hfile⟩ := Prod.mk.inj hpair
  exact ⟨t, _, hexec, hparent, hfile, rfl, rfl⟩

end CrunRs.Lifecycle
