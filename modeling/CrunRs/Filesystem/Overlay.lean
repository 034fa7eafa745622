import CrunRs.Lib.Lts
import CrunRs.State.Basic
import Mathlib.Data.Fintype.Basic

/-!
# Who owns the merged directory of an overlay

Before it forks, `run_process` notes whether the merged directory is there: if it is not, then the
child will make it, and it is removed when the container ends (`OverlayOwnership::from_config`).  The
child looks again.  If the directory is there by then it gives up; if not, it makes it, and if the
mount fails it removes it (`setup_overlay_rootfs`).

Nothing is held between the two looks, so two runs with the same merged directory may both find it
missing.  Only one of them makes it, and when the other one has given up its cleanup removes a
directory that is in use (`loser_removes_merged`).  Likewise if it looks while a run that failed is
not yet cleaned up.  If every first look is taken when no other child is at its setup and no other
run is going to remove what it did not make, nobody removes the directory of another run
(`merged_removed_by_maker`).
-/

set_option autoImplicit false

namespace CrunRs.Filesystem

open Lts State

universe u

/-! ## One run -/

/-- The paths of an `OverlayConfig`, as they are displayed. -/
structure OverlayPaths where
  lowerdir : String
  upperdir : String
  workdir : String
  mergeddir : String

/-- Which of the directories exist. -/
structure OverlayDirs where
  lower : Bool
  upper : Bool
  work : Bool
  merged : Bool
  deriving DecidableEq, Repr

/-- Which of the calls of the setup fail. -/
structure OverlayFaults where
  createUpper : Bool := false
  createWork : Bool := false
  createMerged : Bool := false
  mount : Bool := false

/-- `OverlayOwnership::from_config`. -/
def fromConfig (paths : OverlayPaths) (dirs : OverlayDirs) : OverlayOwnership where
  upperdir := paths.upperdir
  workdir := paths.workdir
  mergeddir := paths.mergeddir
  mergedCreated := !dirs.merged

/-- `OverlayOwnership::cleanup`; a directory that is not there is as good as removed. -/
def cleanup (ownership : OverlayOwnership) (removeFails : Bool) (dirs : OverlayDirs) :
    OverlayDirs × Except FilesystemError Unit :=
  if ownership.mergedCreated ∧ dirs.merged then
    if removeFails then
      (dirs, .error (.context ("failed to remove overlay merged directory: " ++ ownership.mergeddir)))
    else ({ dirs with merged := false }, .ok ())
  else (dirs, .ok ())

/-- The closure `cleanup_created` of `setup_overlay_rootfs`. -/
def cleanupCreated (before dirs : OverlayDirs) : OverlayDirs where
  lower := dirs.lower
  upper := dirs.upper && before.upper
  work := dirs.work && before.work
  merged := dirs.merged && before.merged

/-- `setup_overlay_rootfs`, if nobody else touches the directories. -/
def setupOverlayRootfs (paths : OverlayPaths) (faults : OverlayFaults) (before : OverlayDirs) :
    OverlayDirs × Except FilesystemError String :=
  if !before.lower then (before, .error (.overlayLowerdirDoesNotExist paths.lowerdir))
  else if before.merged then (before, .error (.overlayMergeddirAlreadyExists paths.mergeddir))
  else if faults.createUpper then
    (cleanupCreated before before,
      .error (.context ("failed to create overlay upperdir: " ++ paths.upperdir)))
  else
    let dirs := { before with upper := true }
    if faults.createWork then
      (cleanupCreated before dirs,
        .error (.context ("failed to create overlay workdir: " ++ paths.workdir)))
    else
      let dirs := { dirs with work := true }
      if faults.createMerged then
        (cleanupCreated before dirs,
          .error (.context ("failed to create overlay mergeddir: " ++ paths.mergeddir)))
      else
        let dirs := { dirs with merged := true }
        if faults.mount then
          (cleanupCreated before dirs,
            .error (.context ("failed to mount overlay rootfs at " ++ paths.mergeddir)))
        else (dirs, .ok paths.mergeddir)

/-- A setup that fails leaves the directories as they were. -/
theorem setupOverlayRootfs_error {paths : OverlayPaths} {faults : OverlayFaults}
    {before after : OverlayDirs} {e : FilesystemError}
    (h : setupOverlayRootfs paths faults before = (after, .error e)) : after = before := by
  unfold setupOverlayRootfs at h
  split at h
  · exact (Prod.mk.inj h).1.symm
  · split at h
    · exact (Prod.mk.inj h).1.symm
    · rename_i hlower hmerged
      have hmerged : before.merged = false := Bool.eq_false_iff.mpr hmerged
      have hcleaned : ∀ dirs : OverlayDirs, dirs.lower = before.lower →
          (before.upper = true → dirs.upper = true) → (before.work = true → dirs.work = true) →
          cleanupCreated before dirs = before := by
        intro dirs hlower hupper hwork
        rcases before with ⟨lower, upper, work, merged⟩
        simp only [cleanupCreated, OverlayDirs.mk.injEq]
        simp only at hlower hupper hwork hmerged
        refine ⟨hlower, ?_, ?_, ?_⟩
        · cases upper <;> simp_all
        · cases work <;> simp_all
        · simp [hmerged]
      split at h
      · rw [← (Prod.mk.inj h).1]
        exact hcleaned before rfl id id
      · dsimp only at h
        split at h
        · rw [← (Prod.mk.inj h).1]
          exact hcleaned _ rfl (fun _ ↦ rfl) id
        · split at h
          · rw [← (Prod.mk.inj h).1]
            exact hcleaned _ rfl (fun _ ↦ rfl) fun _ ↦ rfl
          · split at h
            · rw [← (Prod.mk.inj h).1]
              exact hcleaned _ rfl (fun _ ↦ rfl) fun _ ↦ rfl
            · simp at h

/-- Some call of the setup fails. -/
def OverlayFaults.any (faults : OverlayFaults) : Bool :=
  faults.createUpper || faults.createWork || faults.createMerged || faults.mount

/-- The merged directory after the setup: it was there, or it was made. -/
theorem setupOverlayRootfs_merged (paths : OverlayPaths) (faults : OverlayFaults)
    (before : OverlayDirs) :
    (setupOverlayRootfs paths faults before).1.merged =
      (before.merged || before.lower && !faults.any) := by
  rcases faults with ⟨createUpper, createWork, createMerged, mount⟩
  rcases before with ⟨lower, upper, work, merged⟩
  simp only [setupOverlayRootfs, OverlayFaults.any, cleanupCreated]
  cases lower <;> cases merged <;> cases createUpper <;> cases createWork <;>
    cases createMerged <;> cases mount <;> simp

theorem cleanup_merged (ownership : OverlayOwnership) (removeFails : Bool) (dirs : OverlayDirs) :
    (cleanup ownership removeFails dirs).1.merged =
      (dirs.merged && !(ownership.mergedCreated && !removeFails)) := by
  rw [cleanup]
  cases hmerged : dirs.merged <;> cases ownership.mergedCreated <;> cases removeFails <;>
    simp [hmerged]

/-! ## Several runs, one merged directory -/

/-- The merged directory; if it is there, whose child made it. -/
inductive Merged (κ : Type u)
  | absent
  /-- It was there before anybody looked. -/
  | found
  | made (k : κ)
  deriving DecidableEq

def Merged.present {κ : Type u} : Merged κ → Bool
  | absent => false
  | found | made _ => true

@[simp] theorem Merged.present_absent {κ : Type u} : (absent : Merged κ).present = false := rfl

@[simp] theorem Merged.present_made {κ : Type u} (k : κ) : (made k).present = true := rfl

/-- Where the child of a run is. -/
inductive SetupPc
  | idle
  /-- The parent has looked, and is about to fork. -/
  | looked
  | forked
  /-- In `setup_overlay_rootfs`, and the directory was not there. -/
  | passed
  /-- The directories are made, and the overlay is about to be mounted. -/
  | made
  /-- About to `cleanup_created`. -/
  | failing
  /-- The setup has succeeded or failed, or the child is gone. -/
  | over
  deriving DecidableEq, Repr

structure OverlayRun where
  setup : SetupPc := .idle
  /-- What `from_config` said. -/
  mergedCreated : Bool := false
  /-- The parent has cleaned up, or has nothing to clean up. -/
  cleaned : Bool := false
  deriving DecidableEq, Repr

namespace OverlayRun

/-- Between the first look and the end of the setup. -/
def pending (run : OverlayRun) : Bool := run.setup ≠ .idle && run.setup ≠ .over

/-- The child is past its own look. -/
def pastLook (run : OverlayRun) : Bool :=
  run.setup = .passed || run.setup = .made || run.setup = .failing

/-- The parent will remove the directory. -/
def owns (run : OverlayRun) : Bool := run.mergedCreated && !run.cleaned

theorem pending_of_pastLook {run : OverlayRun} (h : run.pastLook) : run.pending := by
  unfold pastLook at h
  unfold pending
  cases hsetup : run.setup <;> simp_all

end OverlayRun

/-- What the parent or the child of a run does next.  A removal may fail. -/
inductive OverlayAct
  | look
  | fork
  | forkFails
  | lowerMissing
  | check
  | createDirs
  | createFails
  | mount
  | mountFails
  | cleanupCreated (fails : Bool)
  /-- The child is killed. -/
  | die
  | cleanup (fails : Bool)
  deriving DecidableEq, Repr

variable {κ : Type u}

/-- One step of the run `k`. -/
def stepRun (k : κ) (merged : Merged κ) (run : OverlayRun) :
    OverlayAct → Option (OverlayRun × Merged κ)
  | .look => match run.setup with
    | .idle => some ({ run with setup := .looked, mergedCreated := !merged.present }, merged)
    | _ => none
  | .fork => match run.setup with
    | .looked => some ({ run with setup := .forked }, merged)
    | _ => none
  | .forkFails => match run.setup with
    -- there are no `ParentResources` yet
    | .looked => some ({ run with setup := .over, cleaned := true }, merged)
    | _ => none
  | .lowerMissing => match run.setup with
    | .forked => some ({ run with setup := .over }, merged)
    | _ => none
  | .check => match run.setup with
    | .forked => some ({ run with setup := if merged.present then .over else .passed }, merged)
    | _ => none
  | .createDirs => match run.setup with
    -- `create_dir_all` is content with a directory that is there
    | .passed => some ({ run with setup := .made }, if merged.present then merged else .made k)
    | _ => none
  | .createFails => match run.setup with
    | .passed => some ({ run with setup := .failing }, merged)
    | _ => none
  | .mount => match run.setup with
    | .made => some ({ run with setup := .over }, merged)
    | _ => none
  | .mountFails => match run.setup with
    | .made => some ({ run with setup := .failing }, merged)
    | _ => none
  | .cleanupCreated fails => match run.setup with
    | .failing => some ({ run with setup := .over }, if fails then merged else .absent)
    | _ => none
  | .die => match run.setup with
    | .forked | .passed | .made | .failing => some ({ run with setup := .over }, merged)
    | _ => none
  | .cleanup fails =>
    if run.setup = .idle ∨ run.setup = .looked ∨ run.cleaned then none
    else some ({ run with cleaned := true },
      if run.mergedCreated && !fails then .absent else merged)

/-- **What one step can do**: look; leave the directory alone; make it, past the second look; or
remove it, past the second look or as its owner. -/
theorem stepRun_cases {k : κ} {merged merged' : Merged κ} {run run' : OverlayRun} {act : OverlayAct}
    (h : stepRun k merged run act = some (run', merged')) :
    (act = .look ∧ merged' = merged ∧ run'.pastLook = false ∧ (run'.owns → merged = .absent)) ∨
    (merged' = merged ∧ (run'.owns → run.owns) ∧ (run'.pending → run.pending) ∧
      (run'.pastLook → run.pastLook ∨ merged = .absent)) ∨
    (run.pastLook ∧ merged' = .made k ∧ (run'.owns → run.owns)) ∨
    (merged' = .absent ∧ (run'.owns → run.owns) ∧ (run'.pending → run.pending) ∧
      (run'.pastLook → run.pastLook) ∧ (run.pastLook ∨ run.owns ∧ run'.owns = false)) := by
  revert h
  fun_cases stepRun k merged run act
  all_goals intro h
  all_goals cases h
  -- the first look, the second one, and making the directory
  case case1 hsetup =>
    refine Or.inl ⟨rfl, rfl, rfl, fun howns ↦ ?_⟩
    cases merged with
    | absent => rfl
    | found | made => simp [OverlayRun.owns, Merged.present] at howns
  case case9 hsetup =>
    refine Or.inr (Or.inl ⟨rfl, id, fun _ ↦ by simp [OverlayRun.pending, hsetup], fun hpast ↦ ?_⟩)
    cases merged with
    | absent => exact Or.inr rfl
    | found | made => simp [OverlayRun.pastLook, Merged.present] at hpast
  case case11 hsetup =>
    have hpast : run.pastLook := by simp [OverlayRun.pastLook, hsetup]
    split
    · exact Or.inr (Or.inl ⟨rfl, id, fun _ ↦ OverlayRun.pending_of_pastLook hpast,
        fun _ ↦ Or.inl hpast⟩)
    · exact Or.inr (Or.inr (Or.inl ⟨hpast, rfl, id⟩))
  -- the two removals
  case case19 fails hsetup =>
    have hpast : run.pastLook := by simp [OverlayRun.pastLook, hsetup]
    cases fails with
    | true => exact Or.inr (Or.inl ⟨rfl, id, fun _ ↦ OverlayRun.pending_of_pastLook hpast,
        fun _ ↦ Or.inl hpast⟩)
    | false => exact Or.inr (Or.inr (Or.inr ⟨rfl, id, fun _ ↦ OverlayRun.pending_of_pastLook hpast,
        fun _ ↦ hpast, Or.inl hpast⟩))
  case case27 fails hready =>
    have hnot : ({ run with cleaned := true } : OverlayRun).owns = false := by
      simp [OverlayRun.owns]
    have howns : ({ run with cleaned := true } : OverlayRun).owns → run.owns := fun h ↦
      absurd (hnot.symm.trans h) Bool.false_ne_true
    split
    · rename_i hremove
      have hcreated : run.mergedCreated = true := (Bool.and_eq_true_iff.mp hremove).1
      have hdirty : run.cleaned = false := Bool.eq_false_iff.mpr fun hc ↦
        hready (Or.inr (Or.inr hc))
      refine Or.inr (Or.inr (Or.inr ⟨rfl, howns, id, id, Or.inr ⟨?_, hnot⟩⟩))
      simp [OverlayRun.owns, hcreated, hdirty]
    · exact Or.inr (Or.inl ⟨rfl, howns, id, Or.inl⟩)
  case case5 hsetup =>
    exact Or.inr (Or.inl ⟨rfl, by simp [OverlayRun.owns], by simp [OverlayRun.pending],
      by simp [OverlayRun.pastLook]⟩)
  all_goals rename_i hsetup
  all_goals
    exact Or.inr (Or.inl ⟨rfl, id, by simp [OverlayRun.pending, hsetup],
      by simp [OverlayRun.pastLook, hsetup]⟩)

/-! ## All of them -/

structure OverlaySystem (κ : Type u) where
  merged : Merged κ
  run : κ → OverlayRun

namespace OverlaySystem

/-- Nobody has looked yet; the directory may be there. -/
def init (present : Bool) : OverlaySystem κ where
  merged := if present then .found else .absent
  run := fun _ ↦ {}

/-- The run `j` has nothing to do with the directory any more, but to remove it if it is the one its
own child made. -/
def Settled (merged : Merged κ) (j : κ) (run : OverlayRun) : Prop :=
  run.pending = false ∧ (run.owns → merged = .made j)

/-- The condition: at the first look of a run all others are settled. -/
def LooksAlone (s : OverlaySystem κ) (a : κ × OverlayAct) : Prop :=
  a.2 = .look → ∀ j, j ≠ a.1 → Settled s.merged j (s.run j)

instance [DecidableEq κ] [Fintype κ] (s : OverlaySystem κ) (a : κ × OverlayAct) :
    Decidable (s.LooksAlone a) :=
  inferInstanceAs (Decidable (_ → ∀ _, _ → _ ∧ (_ → _)))

/-- Who may come to remove the directory finds it missing or its own, and whoever is at its setup is
the only one who is not settled. -/
structure Orderly (s : OverlaySystem κ) : Prop where
  own : ∀ k, (s.run k).owns ∨ (s.run k).pastLook → s.merged = .absent ∨ s.merged = .made k
  alone : ∀ k, (s.run k).pending → ∀ j, j ≠ k → Settled s.merged j (s.run j)

theorem Orderly.init (present : Bool) : (init present : OverlaySystem κ).Orderly := by
  refine ⟨fun k h ↦ ?_, fun _ h ↦ absurd h Bool.false_ne_true⟩
  exact h.elim (absurd · Bool.false_ne_true) (absurd · Bool.false_ne_true)

theorem eq_of_made {merged : Merged κ} {j k : κ} (h : merged = .absent ∨ merged = .made k)
    (hj : merged = .made j) : j = k := by
  rcases h with habsent | hmade
  · exact absurd (hj.symm.trans habsent) (by simp)
  · exact Merged.made.inj (hj.symm.trans hmade)

variable [DecidableEq κ]

def step (s : OverlaySystem κ) (a : κ × OverlayAct) : Option (OverlaySystem κ) :=
  match stepRun a.1 s.merged (s.run a.1) a.2 with
  | some (run', merged) => some ⟨merged, Function.update s.run a.1 run'⟩
  | none => none

theorem step_eq_some {s t : OverlaySystem κ} {a : κ × OverlayAct} (h : s.step a = some t) :
    ∃ run' merged, stepRun a.1 s.merged (s.run a.1) a.2 = some (run', merged) ∧
      t = ⟨merged, Function.update s.run a.1 run'⟩ := by
  unfold step at h
  split at h
  · rename_i run' merged hstep
    exact ⟨run', merged, hstep, (Option.some.inj h).symm⟩
  · simp at h

/-- What the child does if it is left alone. -/
def setupActs (faults : OverlayFaults) (dirs : OverlayDirs) : List OverlayAct :=
  if !dirs.lower then [.lowerMissing]
  else if dirs.merged then [.check]
  else if faults.createUpper || faults.createWork || faults.createMerged then
    [.check, .createFails, .cleanupCreated false]
  else if faults.mount then [.check, .createDirs, .mountFails, .cleanupCreated false]
  else [.check, .createDirs, .mount]

/-- **A run that is left alone** does to the merged directory what `from_config`,
`setup_overlay_rootfs` and `cleanup` do. -/
theorem exec_alone {s : OverlaySystem κ} {k : κ} (hidle : s.run k = {}) (paths : OverlayPaths)
    (faults : OverlayFaults) (dirs : OverlayDirs) (hdirs : dirs.merged = s.merged.present)
    (removeFails : Bool) :
    ∃ t, exec step s ((.look :: .fork :: (setupActs faults dirs ++ [.cleanup removeFails])).map
        fun act ↦ (k, act)) = some t ∧
      t.merged.present = (cleanup (fromConfig paths dirs) removeFails
        (setupOverlayRootfs paths faults dirs).1).1.merged := by
  rw [cleanup_merged, setupOverlayRootfs_merged, fromConfig, OverlayFaults.any, setupActs, hdirs]
  cases hmerged : s.merged.present with
  | true =>
    cases dirs.lower <;> simp [exec, step, stepRun, hidle, hmerged]
  | false =>
    cases dirs.lower with
    | false => cases removeFails <;> simp [exec, step, stepRun, hidle, hmerged]
    | true =>
      cases faults.createUpper || faults.createWork || faults.createMerged with
      | true => cases removeFails <;> simp [exec, step, stepRun, hidle, hmerged]
      | false => cases faults.mount <;> cases removeFails <;>
          simp [exec, step, stepRun, hidle, hmerged]

/-- The property: who removes the directory has made it. -/
def RemovesOwn (s : OverlaySystem κ) (a : κ × OverlayAct) : Prop :=
  ∀ t, s.step a = some t → s.merged ≠ .absent → t.merged = .absent → s.merged = .made a.1

theorem Orderly.removesOwn {s : OverlaySystem κ} (h : s.Orderly) (a : κ × OverlayAct) :
    s.RemovesOwn a := by
  intro t hstep hbefore hafter
  obtain ⟨run', merged, hrun, rfl⟩ := step_eq_some hstep
  rcases stepRun_cases hrun with ⟨_, hkeep, _⟩ | ⟨hkeep, _⟩ | ⟨_, hmade, _⟩ |
    ⟨_, _, _, _, hpast | ⟨howns, _⟩⟩
  · exact absurd (hkeep.symm.trans hafter) hbefore
  · exact absurd (hkeep.symm.trans hafter) hbefore
  · exact absurd (hmade.symm.trans hafter) (by simp)
  · exact (h.own a.1 (Or.inr hpast)).resolve_left hbefore
  · exact (h.own a.1 (Or.inl howns)).resolve_left hbefore

/-- The run that takes a step, and the others. -/
theorem Orderly.update {s : OverlaySystem κ} {p : κ} {run' : OverlayRun} {merged : Merged κ}
    (hown : run'.owns ∨ run'.pastLook → merged = .absent ∨ merged = .made p)
    (howns : ∀ k, k ≠ p → (s.run k).owns ∨ (s.run k).pastLook →
      merged = .absent ∨ merged = .made k)
    (halone : run'.pending → ∀ j, j ≠ p → Settled merged j (s.run j))
    (hothers : ∀ k, k ≠ p → (s.run k).pending →
      Settled merged p run' ∧ ∀ j, j ≠ k → j ≠ p → Settled merged j (s.run j)) :
    Orderly ⟨merged, Function.update s.run p run'⟩ := by
  constructor
  · intro k hk
    by_cases hp : k = p
    · subst hp
      simp only [Function.update_self] at hk
      exact hown hk
    · simp only [Function.update_of_ne hp] at hk
      exact howns k hp hk
  · intro k hk j hj
    by_cases hp : k = p
    · subst hp
      simp only [Function.update_self, Function.update_of_ne hj] at hk ⊢
      exact halone hk j hj
    · simp only [Function.update_of_ne hp] at hk
      obtain ⟨hactor, hrest⟩ := hothers k hp hk
      by_cases hjp : j = p
      · subst hjp
        simp only [Function.update_self]
        exact hactor
      · simp only [Function.update_of_ne hjp]
        exact hrest j hj hjp

/-- **One step.** -/
theorem Orderly.step {s t : OverlaySystem κ} {a : κ × OverlayAct} (h : s.Orderly)
    (hcond : s.LooksAlone a) (hstep : s.step a = some t) : t.Orderly := by
  obtain ⟨run', merged, hrun, rfl⟩ := step_eq_some hstep
  rcases stepRun_cases hrun with ⟨hlook, rfl, hpast, howns⟩ | ⟨rfl, howns, hpending, hpast⟩ |
    ⟨hpast, rfl, howns⟩ | ⟨rfl, howns, hpending, hpast, hremover⟩
  · -- the first look: the others are settled
    have hcond := hcond hlook
    refine Orderly.update (fun h' ↦ Or.inl (h'.elim howns ?_)) (fun k _ ↦ h.own k) (fun _ ↦ hcond)
      fun k hk hk' ↦ ?_
    · exact fun h' ↦ absurd (hpast.symm.trans h') Bool.false_ne_true
    · exact absurd ((hcond k hk).1.symm.trans hk') Bool.false_ne_true
  · -- the directory stays
    refine Orderly.update ?_ (fun k _ ↦ h.own k) (fun h' ↦ h.alone a.1 (hpending h'))
      fun k hk hk' ↦ ⟨?_, fun j hj _ ↦ h.alone k hk' j hj⟩
    · rintro (h' | h')
      · exact h.own a.1 (Or.inl (howns h'))
      · exact (hpast h').elim (fun h' ↦ h.own a.1 (Or.inr h')) Or.inl
    · obtain ⟨hover, hmade⟩ := h.alone k hk' a.1 hk.symm
      refine ⟨Bool.eq_false_iff.mpr fun h' ↦ ?_, fun h' ↦ hmade (howns h')⟩
      exact absurd (hover.symm.trans (hpending h')) Bool.false_ne_true
  · -- making it: no other child is at its setup, and no other run is going to remove it
    have halone := h.alone a.1 (OverlayRun.pending_of_pastLook hpast)
    have hnone : ∀ k, k ≠ a.1 → ¬ (s.run k).owns := fun k hk hk' ↦
      hk (eq_of_made (h.own a.1 (Or.inr hpast)) ((halone k hk).2 hk'))
    have hidle : ∀ k, k ≠ a.1 → ¬ (s.run k).pending := fun k hk hk' ↦
      absurd ((halone k hk).1.symm.trans hk') Bool.false_ne_true
    refine Orderly.update (fun _ ↦ Or.inr rfl) (fun k hk hk' ↦ ?_)
      (fun _ j hj ↦ ⟨(halone j hj).1, fun h' ↦ absurd h' (hnone j hj)⟩)
      fun k hk hk' ↦ absurd hk' (hidle k hk)
    exact hk'.elim (absurd · (hnone k hk))
      fun h' ↦ absurd (OverlayRun.pending_of_pastLook h') (hidle k hk)
  · -- removing it: it was the remover's own
    have hown : s.merged = .absent ∨ s.merged = .made a.1 :=
      h.own a.1 (hremover.elim Or.inr fun h' ↦ Or.inl h'.1)
    have hothers : ∀ k, (s.run k).pending → ∀ j, j ≠ k → j ≠ a.1 →
        Settled .absent j (s.run j) := by
      intro k hk j hj hne
      obtain ⟨hover, hmade⟩ := h.alone k hk j hj
      exact ⟨hover, fun h' ↦ absurd (eq_of_made hown (hmade h')) hne⟩
    refine Orderly.update (fun _ ↦ Or.inl rfl) (fun _ _ _ ↦ Or.inl rfl)
      (fun h' j hj ↦ hothers a.1 (hpending h') j hj hj) fun k hk hk' ↦ ⟨?_, hothers k hk'⟩
    have hover := (h.alone k hk' a.1 hk.symm).1
    refine ⟨Bool.eq_false_iff.mpr fun h' ↦ ?_, fun h' ↦ ?_⟩
    · exact absurd (hover.symm.trans (hpending h')) Bool.false_ne_true
    · rcases hremover with hpast' | ⟨_, hnot⟩
      · exact absurd (hover.symm.trans (OverlayRun.pending_of_pastLook hpast')) Bool.false_ne_true
      · exact absurd (hnot.symm.trans h') Bool.false_ne_true

/-- **Nobody removes the directory of another run, unless a look is taken too early.**  In every run
in which all others are settled whenever somebody takes the first look, whoever removes the directory
has made it. -/
theorem merged_removed_by_maker (present : Bool) (as : List (κ × OverlayAct))
    (hcond : Along step LooksAlone (init present) as) : Along step RemovesOwn (init present) as :=
  Along.of_invariant (fun _ _ _ hs hc ha ↦ hs.step hc ha) (fun _ a hs ↦ hs.removesOwn a)
    (Orderly.init present) hcond

/-- The second run looks when the first one has its overlay, and gives up. -/
def politeSchedule : List (Bool × OverlayAct) :=
  [(true, .look), (true, .fork), (true, .check), (true, .createDirs), (true, .mount),
    (false, .look), (false, .fork), (false, .check), (false, .cleanup false), (true, .cleanup false)]

theorem merged_removed_by_maker_polite :
    Along step RemovesOwn (init false : OverlaySystem Bool) politeSchedule :=
  merged_removed_by_maker false politeSchedule (by decide +kernel)

/-- Both look before either of them makes the directory. -/
def racingSchedule : List (Bool × OverlayAct) :=
  [(true, .look), (false, .look), (true, .fork), (false, .fork), (true, .check), (true, .createDirs),
    (true, .mount), (false, .check)]

/-- The second run, whose child has given up, removes the directory the first one has its overlay
on. -/
theorem loser_removes_merged :
    ∃ s t : OverlaySystem Bool, exec step (init false) racingSchedule = some s ∧
      s.merged = .made true ∧ (s.run false).setup = .over ∧
      s.step (false, .cleanup false) = some t ∧ t.merged = .absent ∧
      ¬ s.RemovesOwn (false, .cleanup false) := by
  refine ⟨_, _, rfl, rfl, rfl, rfl, rfl, fun h ↦ ?_⟩
  exact absurd (h _ rfl (by decide) rfl) (by decide)

end OverlaySystem

end CrunRs.Filesystem
