import CrunRs.Lib.Lts
import Mathlib.Data.Fintype.Basic

/-!
# The lock of a container

`lock_state` makes the directory of the container, opens `state.lock` in it, creating it if it is not
there, and takes an exclusive `flock` on what it opened.  A `flock` belongs to the file and not to
its name: two processes exclude each other if they opened the same file.  `delete_from` takes the
lock to load the state, and gives it back; then it removes the directory, and the name of the lock
with it.

So a process that has opened the lock file before it is removed, and one that comes after it, have
two different files, and both get their lock (`deleted_lock_two_holders`).  As long as nobody has the
lock file open when its name is removed, every process that has it open has the one the name leads
to, and at most one of them holds it (`guard_exclusive`).

There is one container here, and any number of processes.  Each call to the file system is a step.
-/

set_option autoImplicit false

namespace CrunRs.State

open Lts

universe u

/-! ## One process -/

/-- Where a process is; `deleting` says that it takes the lock on behalf of `delete_from`. -/
inductive GuardPc
  | idle
  /-- In `lock_state`, about to `create_dir_all`. -/
  | makingDir (deleting : Bool)
  /-- About to open the lock file. -/
  | opening (deleting : Bool)
  /-- Has opened this file, and waits for its lock. -/
  | opened (deleting : Bool) (file : Nat)
  /-- `lock_state` has returned the guard. -/
  | holding (deleting : Bool) (file : Nat)
  /-- In `delete_from`, after the load. -/
  | loaded
  /-- In the `remove_dir_all` of `delete_from`. -/
  | removing
  deriving DecidableEq, Repr

namespace GuardPc

/-- The lock file it has open. -/
def file : GuardPc → Option Nat
  | opened _ file | holding _ file => some file
  | _ => none

/-- The lock file it holds the lock of. -/
def holds : GuardPc → Option Nat
  | holding _ file => some file
  | _ => none

theorem file_of_holds {pc : GuardPc} {file : Nat} (h : pc.holds = some file) :
    pc.file = some file := by
  cases pc with
  | holding deleting file' => exact h
  | idle | makingDir | opening | opened | loaded | removing =>
    exact absurd h (Option.some_ne_none file).symm

end GuardPc

/-- What a process does next. -/
inductive GuardAct
  | begin (deleting : Bool)
  | createDirAll
  | openLock
  /-- The lock is granted; the call blocks as long as somebody else has it. -/
  | flock
  /-- `write_state_atomic`, with the guard. -/
  | write
  /-- The guard is dropped. -/
  | release
  /-- `delete_from` ends without removing anything: the load failed, or the container is running, or
  its network could not be released. -/
  | refuse
  | beginRemove
  | unlinkLock
  | unlinkOther
  /-- The last call of `remove_dir_all`, which fails if the directory is not empty. -/
  | rmdir
  /-- A call fails, and the process returns with an error; or it is killed. -/
  | fail
  deriving DecidableEq, Repr

/-- The directory of the container.  The files that ever were a lock file have numbers. -/
structure LockDir (κ : Type u) where
  present : Bool := false
  /-- What the name of the lock file leads to. -/
  lock : Option Nat := none
  /-- Whether there is anything else in the directory. -/
  others : Bool := false
  next : Nat := 0
  /-- Who has the `flock` of a file. -/
  locked : Nat → Option κ := fun _ ↦ none

variable {κ : Type u}

/-- One step of the process `k`. -/
def stepGuard (k : κ) (d : LockDir κ) : GuardPc → GuardAct → Option (GuardPc × LockDir κ)
  | .idle, .begin deleting => some (.makingDir deleting, d)
  | .makingDir deleting, .createDirAll => some (.opening deleting, { d with present := true })
  | .opening deleting, .openLock =>
    -- the directory may have been removed again
    if !d.present then some (.idle, d)
    else match d.lock with
      | some file => some (.opened deleting file, d)
      | none => some (.opened deleting d.next, { d with lock := some d.next, next := d.next + 1 })
  | .opened deleting file, .flock => match d.locked file with
    | none => some (.holding deleting file,
        { d with locked := Function.update d.locked file (some k) })
    | some _ => none
  | .holding deleting file, .write =>
    some (.holding deleting file, { d with present := true, others := true })
  | .holding deleting file, .release =>
    some (if deleting then .loaded else .idle,
      { d with locked := Function.update d.locked file none })
  | .loaded, .refuse => some (.idle, d)
  | .loaded, .beginRemove => some (.removing, d)
  | .removing, .unlinkLock => match d.lock with
    | some _ => some (.removing, { d with lock := none })
    | none => none
  | .removing, .unlinkOther => some (.removing, { d with others := false })
  | .removing, .rmdir =>
    if d.lock = none ∧ !d.others then some (.idle, { d with present := false }) else some (.idle, d)
  | .holding _ file, .fail => some (.idle, { d with locked := Function.update d.locked file none })
  | .makingDir _, .fail | .opening _, .fail | .opened _ _, .fail | .loaded, .fail
  | .removing, .fail => some (.idle, d)
  | _, _ => none

/-! ## What one step can do -/

/-- To the name of the lock file and to what is open: the name stays, and nothing new is open; or the
process opens what the name leads to, which it may have created; or it takes the name away. -/
theorem stepGuard_lock {k : κ} {d d' : LockDir κ} {pc pc' : GuardPc} {act : GuardAct}
    (h : stepGuard k d pc act = some (pc', d')) :
    (d'.lock = d.lock ∧ ∀ file, pc'.file = some file → pc.file = some file) ∨
    (∃ file, pc'.file = some file ∧ d'.lock = some file ∧ (d.lock = none ∨ d.lock = some file)) ∨
    (act = .unlinkLock ∧ pc'.file = none) := by
  have hnone : ∀ {pc : GuardPc} (file : Nat), (none : Option Nat) = some file →
      pc.file = some file := fun file hfile ↦ absurd hfile (Option.some_ne_none file).symm
  revert h
  fun_cases stepGuard k d pc act
  all_goals intro h
  all_goals cases h
  -- opening the file that is there, and a new one
  case case4 file hlock => exact Or.inr (Or.inl ⟨file, rfl, hlock, Or.inr hlock⟩)
  case case5 hlock => exact Or.inr (Or.inl ⟨d.next, rfl, rfl, Or.inl hlock⟩)
  -- the file stays open
  case case6 | case8 => exact Or.inl ⟨rfl, fun _ ↦ id⟩
  -- the guard is dropped
  case case9 deleting file => exact Or.inl ⟨rfl, by cases deleting <;> exact hnone⟩
  case case12 => exact Or.inr (Or.inr ⟨rfl, rfl⟩)
  all_goals exact Or.inl ⟨rfl, hnone⟩

/-- To the locks: nothing, and no new guard; or the process gets one that nobody had; or it drops its
own. -/
theorem stepGuard_locked {k : κ} {d d' : LockDir κ} {pc pc' : GuardPc} {act : GuardAct}
    (h : stepGuard k d pc act = some (pc', d')) :
    (d'.locked = d.locked ∧ ∀ file, pc'.holds = some file → pc.holds = some file) ∨
    (∃ file, pc'.holds = some file ∧ d.locked file = none ∧
      d'.locked = Function.update d.locked file (some k)) ∨
    (∃ file, pc.holds = some file ∧ pc'.holds = none ∧
      d'.locked = Function.update d.locked file none) := by
  have hnone : ∀ {pc : GuardPc} (file : Nat), (none : Option Nat) = some file →
      pc.holds = some file := fun file hfile ↦ absurd hfile (Option.some_ne_none file).symm
  revert h
  fun_cases stepGuard k d pc act
  all_goals intro h
  all_goals cases h
  case case6 file hfree => exact Or.inr (Or.inl ⟨_, rfl, hfree, rfl⟩)
  case case8 => exact Or.inl ⟨rfl, fun _ ↦ id⟩
  -- dropping the guard, and being killed with it
  case case9 deleting file => exact Or.inr (Or.inr ⟨file, rfl, by cases deleting <;> rfl, rfl⟩)
  case case17 file => exact Or.inr (Or.inr ⟨file, rfl, rfl, rfl⟩)
  all_goals exact Or.inl ⟨rfl, hnone⟩

/-! ## All processes -/

structure GuardSystem (κ : Type u) where
  dir : LockDir κ
  pc : κ → GuardPc

namespace GuardSystem

/-- No container, and nobody working on it. -/
def init : GuardSystem κ where
  dir := {}
  pc := fun _ ↦ .idle

/-- The condition: the name of the lock file is taken away only if nobody has the file open. -/
def UnlinksClosed (s : GuardSystem κ) (a : κ × GuardAct) : Prop :=
  a.2 = .unlinkLock → ∀ k, (s.pc k).file = none

instance [Fintype κ] (s : GuardSystem κ) (a : κ × GuardAct) : Decidable (s.UnlinksClosed a) :=
  inferInstanceAs (Decidable (_ → _))

/-- Whoever has a lock file open has the one the name leads to, and whoever has a guard has its
lock. -/
structure Linked (s : GuardSystem κ) : Prop where
  file : ∀ k file, (s.pc k).file = some file → s.dir.lock = some file
  holds : ∀ k file, (s.pc k).holds = some file → s.dir.locked file = some k

theorem Linked.init : (init : GuardSystem κ).Linked :=
  ⟨fun _ file h ↦ absurd h (Option.some_ne_none file).symm,
    fun _ file h ↦ absurd h (Option.some_ne_none file).symm⟩

/-- There is one file, and it has one lock. -/
theorem Linked.eq {s : GuardSystem κ} (h : s.Linked) {j k : κ} {file file' : Nat}
    (hj : (s.pc j).holds = some file) (hk : (s.pc k).holds = some file') : j = k := by
  have hfile : s.dir.lock = some file := h.file j file (GuardPc.file_of_holds hj)
  have hfile' : s.dir.lock = some file' := h.file k file' (GuardPc.file_of_holds hk)
  obtain rfl : file = file' := Option.some.inj (hfile.symm.trans hfile')
  exact Option.some.inj ((h.holds j file hj).symm.trans (h.holds k file hk))

variable [DecidableEq κ]

def step (s : GuardSystem κ) (a : κ × GuardAct) : Option (GuardSystem κ) :=
  match stepGuard a.1 s.dir (s.pc a.1) a.2 with
  | some (pc', dir) => some ⟨dir, Function.update s.pc a.1 pc'⟩
  | none => none

theorem step_eq_some {s t : GuardSystem κ} {a : κ × GuardAct} (h : s.step a = some t) :
    ∃ pc' dir, stepGuard a.1 s.dir (s.pc a.1) a.2 = some (pc', dir) ∧
      t = ⟨dir, Function.update s.pc a.1 pc'⟩ := by
  unfold step at h
  split at h
  · rename_i pc' dir hstep
    exact ⟨pc', dir, hstep, (Option.some.inj h).symm⟩
  · simp at h

/-- A process that is left alone gets the guard. -/
theorem exec_lockState {s : GuardSystem κ} {k : κ} {deleting : Bool} (hidle : s.pc k = .idle)
    (hfree : ∀ file, s.dir.locked file = none) :
    ∃ t file, exec step s [(k, .begin deleting), (k, .createDirAll), (k, .openLock), (k, .flock)] =
      some t ∧ t.pc k = .holding deleting file ∧ t.dir.lock = some file ∧
      t.dir.locked file = some k := by
  cases hlock : s.dir.lock with
  | some file =>
    refine ⟨⟨{ s.dir with present := true, locked := Function.update s.dir.locked file (some k) },
      Function.update s.pc k (.holding deleting file)⟩, file, ?_, ?_, ?_, ?_⟩
    · simp [exec, step, stepGuard, hidle, hlock, hfree]
    · exact Function.update_self ..
    · exact hlock
    · exact Function.update_self ..
  | none =>
    refine ⟨⟨⟨true, some s.dir.next, s.dir.others, s.dir.next + 1,
      Function.update s.dir.locked s.dir.next (some k)⟩,
      Function.update s.pc k (.holding deleting s.dir.next)⟩, s.dir.next, ?_, ?_, rfl, ?_⟩
    · simp [exec, step, stepGuard, hidle, hlock, hfree]
    · exact Function.update_self ..
    · exact Function.update_self ..

/-- **One step.** -/
theorem Linked.step {s t : GuardSystem κ} {a : κ × GuardAct} (h : s.Linked)
    (hcond : s.UnlinksClosed a) (hstep : s.step a = some t) : t.Linked := by
  obtain ⟨pc', dir, hpc, rfl⟩ := step_eq_some hstep
  constructor
  · intro k file hfile
    dsimp only at hfile ⊢
    rw [Function.update_apply] at hfile
    rcases stepGuard_lock hpc with ⟨hlock, hold⟩ | ⟨file', hnew, hlock, hbefore⟩ | ⟨hact, hclosed⟩
    · rw [hlock]
      split at hfile
      · exact h.file a.1 file (hold file hfile)
      · exact h.file k file hfile
    · -- the file that was opened is the one the others have open
      rw [hlock]
      split at hfile
      · rw [← hnew, hfile]
      · have hothers := h.file k file hfile
        rcases hbefore with hnone | hsame
        · exact absurd (hnone.symm.trans hothers) (Option.some_ne_none file).symm
        · rw [← hsame, hothers]
    · split at hfile
      · exact absurd (hclosed.symm.trans hfile) (Option.some_ne_none file).symm
      · exact absurd ((hcond hact k).symm.trans hfile) (Option.some_ne_none file).symm
  · intro k file hholds
    dsimp only at hholds ⊢
    rw [Function.update_apply] at hholds
    rcases stepGuard_locked hpc with ⟨hlocked, hold⟩ | ⟨file', hnew, hfree, hlocked⟩ |
      ⟨file', hown, hnone, hlocked⟩
    · rw [hlocked]
      split at hholds
      · rename_i heq
        exact heq ▸ h.holds a.1 file (hold file hholds)
      · exact h.holds k file hholds
    · rw [hlocked, Function.update_apply]
      split at hholds
      · rename_i heq
        obtain rfl : file' = file := Option.some.inj (hnew.symm.trans hholds)
        rw [if_pos rfl, heq]
      · have hother := h.holds k file hholds
        rw [if_neg, hother]
        rintro rfl
        exact absurd (hfree.symm.trans hother) (Option.some_ne_none k).symm
    · -- the guard that is dropped is not the one of another process
      split at hholds
      · exact absurd (hnone.symm.trans hholds) (Option.some_ne_none file).symm
      · rename_i hne
        exact absurd (h.eq hholds hown) hne

/-- **The guard excludes, unless the lock file is removed while somebody has it open.**  In every run
in which every removal of its name finds it closed, in every state reached at most one process has a
guard. -/
theorem guard_exclusive (as : List (κ × GuardAct)) (t : GuardSystem κ)
    (hcond : Along step UnlinksClosed init as) (hrun : exec step init as = some t) :
    ∀ j k, (t.pc j).holds.isSome → (t.pc k).holds.isSome → j = k := by
  have hlinked : t.Linked :=
    invariant_along (fun _ _ _ hs hc ha ↦ hs.step hc ha) Linked.init hcond hrun
  intro j k hj hk
  obtain ⟨file, hfile⟩ := Option.isSome_iff_exists.mp hj
  obtain ⟨file', hfile'⟩ := Option.isSome_iff_exists.mp hk
  exact hlinked.eq hfile hfile'

/-- A container is deleted, and then another process takes the lock of the same id. -/
def closedSchedule : List (Bool × GuardAct) :=
  [(true, .begin true), (true, .createDirAll), (true, .openLock), (true, .flock), (true, .release),
    (true, .beginRemove), (true, .unlinkLock), (true, .rmdir),
    (false, .begin false), (false, .createDirAll), (false, .openLock), (false, .flock)]

theorem guard_exclusive_closed :
    ∃ t : GuardSystem Bool, exec step init closedSchedule = some t ∧ (t.pc false).holds = some 1 ∧
      ∀ j k, (t.pc j).holds.isSome → (t.pc k).holds.isSome → j = k :=
  ⟨_, rfl, rfl, guard_exclusive closedSchedule _ (by decide +kernel) rfl⟩

/-- The container is deleted while a second process has the lock, and a third one takes it. -/
def openSchedule : List (ℕ × GuardAct) :=
  [(0, .begin true), (0, .createDirAll), (0, .openLock), (0, .flock), (0, .release),
    (0, .beginRemove), (1, .begin false), (1, .createDirAll), (1, .openLock), (1, .flock),
    (0, .unlinkLock), (0, .rmdir),
    (2, .begin false), (2, .createDirAll), (2, .openLock), (2, .flock)]

/-- Both have a guard, on two files. -/
theorem deleted_lock_two_holders :
    ∃ t : GuardSystem ℕ, exec step init openSchedule = some t ∧
      (t.pc 1).holds = some 0 ∧ (t.pc 2).holds = some 1 :=
  ⟨_, rfl, rfl, rfl⟩

end GuardSystem

end CrunRs.State
