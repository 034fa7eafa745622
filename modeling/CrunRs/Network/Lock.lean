import CrunRs.Network.Allocations

/-!
# The allocation lock among several processes

`acquire_allocation_lock` makes a directory and then writes `owner.json` into it; whoever finds the
directory there reads the owner, decides whether it is stale, and if so removes the directory and
tries again.  Here any number of processes do this at once, one file-system step at a time.

Two of those steps do not fit together.  Between `create_dir` and the write of the owner the
directory has no owner file, which a waiter reads as an owner with pid 0 and calls stale; and the
removal comes after the decision, when the directory it was about may have been replaced.  Either
way a waiter removes a lock that is held, and two processes get past `acquire_allocation_lock`
(`two_holders`).

What holds is that this is the only way.  As long as no removal of a stale lock hits the directory
of a process that is still on its way from `create_dir` to its drop, at most one process holds the
lock, the file is read and written by one process at a time, and outstanding allocations are
disjoint (`lock_exclusive`).
-/

set_option autoImplicit false

namespace CrunRs.Network

open Lts

universe u

/-! ## One process -/

/-- What a process wants the lock for. -/
inductive LockOp
  | allocate (id : String)
  | release (id : String)
  deriving DecidableEq, Repr

/-- Where a process is. -/
inductive LockPc
  | idle
  /-- About to `create_dir`. -/
  | trying (op : LockOp)
  /-- Made the directory, about to write the owner. -/
  | created (op : LockOp)
  /-- The directory was there already, about to read its owner. -/
  | blocked (op : LockOp)
  /-- About to decide whether the owner it read is stale. -/
  | judging (op : LockOp) (owner : AllocationLockOwner)
  /-- Decided that it is, about to `remove_dir_all`. -/
  | removing (op : LockOp)
  /-- At the end of a round of the loop. -/
  | waiting (op : LockOp)
  /-- `acquire_allocation_lock` returned the guard. -/
  | holding (op : LockOp)
  /-- Has read the allocations. -/
  | editing (op : LockOp) (allocations : BridgeAllocations)
  /-- Done, about to drop the guard. -/
  | finished

namespace LockPc

/-- Between `Ok` from `acquire_allocation_lock` and the drop. -/
def holds : LockPc → Bool
  | holding _ | editing _ _ | finished => true
  | _ => false

/-- Between a successful `create_dir` and the drop. -/
def owns : LockPc → Bool
  | created _ | holding _ | editing _ _ | finished => true
  | _ => false

theorem owns_of_holds {pc : LockPc} (h : pc.holds) : pc.owns := by
  cases pc <;> trivial

end LockPc

/-- What a process does next, with how its surroundings answer. -/
inductive LockAct
  | begin (op : LockOp)
  | createDir
  | writeOwner (caller : Caller)
  /-- The owner file could not be written, and this is what is left of it. -/
  | writeOwnerFails (left : OwnerFile)
  | readOwner
  | judge (caller : Caller)
  | removeStale
  | retry
  | timeout
  | readAllocations
  | save
  | drop
  /-- The process dies; one that holds the lock does not. -/
  | die

/-- The files, and two things that only the proof looks at. -/
structure LockShared (κ : Type u) where
  root : Root
  /-- Whose `create_dir` made the directory that is there. -/
  creator : Option κ := none
  /-- The networks handed out and not released since. -/
  granted : List (String × BridgeNetwork) := []

variable {κ : Type u}

namespace LockShared

def setLock (s : LockShared κ) (lock : Option OwnerFile) (creator : Option κ) : LockShared κ :=
  { s with root := { s.root with lock }, creator }

/-- What the critical section writes: `allocateRead` or `releaseRead` of what it read before. -/
def edit (s : LockShared κ) (allocations : BridgeAllocations) : LockOp → LockShared κ
  | .allocate id =>
    { s with
      root := { s.root with
        allocations := (allocateRead allocations id).1.elim s.root.allocations saveAllocations }
      granted := match (allocateRead allocations id).2 with
        | .ok network => (id, network) :: s.granted
        | .error _ => s.granted }
  | .release id =>
    { s with
      root := { s.root with allocations := saveAllocations (releaseRead allocations id) }
      granted := s.granted.filter fun entry ↦ entry.1 ≠ id }

theorem edit_lock (s : LockShared κ) (allocations : BridgeAllocations) (op : LockOp) :
    (s.edit allocations op).root.lock = s.root.lock := by
  cases op <;> rfl

theorem edit_creator (s : LockShared κ) (allocations : BridgeAllocations) (op : LockOp) :
    (s.edit allocations op).creator = s.creator := by
  cases op <;> rfl

end LockShared

/-- One step of the process `p`: the loop of `acquire_allocation_lock`, the body of the operation,
and the drop.  An operation that fails is back at `idle`. -/
def stepPc (p : κ) (s : LockShared κ) : LockPc → LockAct → Option (LockPc × LockShared κ)
  | .idle, .begin op => some (.trying op, s)
  | .trying op, .createDir => match s.root.lock with
    | none => some (.created op, s.setLock (some .missing) (some p))
    | some _ => some (.blocked op, s)
  | .created op, .writeOwner caller => match s.root.lock with
    | some _ => some (.holding op, s.setLock (some (.owner caller.lockOwner)) s.creator)
    -- somebody removed the directory
    | none => some (.idle, s)
  | .created _, .writeOwnerFails left => match s.root.lock with
    | some _ => some (.idle, s.setLock (some left) s.creator)
    | none => some (.idle, s)
  | .blocked op, .readOwner => match readLockOwner (s.root.lock.getD .missing) with
    | .ok owner => some (.judging op owner, s)
    | .error _ => some (.idle, s)
  | .judging op owner, .judge caller =>
    some (if ownerIsStale caller owner then .removing op else .waiting op, s)
  | .removing op, .removeStale => match s.root.lock with
    | some _ => some (.waiting op, s.setLock none none)
    -- nothing there to remove, which is an error
    | none => some (.idle, s)
  | .waiting op, .retry => some (.trying op, s)
  | .waiting _, .timeout => some (.idle, s)
  | .holding op, .readAllocations => match readAllocations s.root.allocations with
    | .ok allocations => some (.editing op allocations, s)
    | .error _ => some (.finished, s)
  | .editing op allocations, .save => some (.finished, s.edit allocations op)
  | .finished, .drop => some (.idle, s.setLock none none)
  | pc, .die => if pc.holds then none else some (.idle, s)
  | _, _ => none

/-! ## What one step can do -/

/-- To the directory: nothing, or create it where there was none, or remove it as stale, or drop
it.  Only creating makes a process an owner. -/
theorem stepPc_lock {p : κ} {s s' : LockShared κ} {pc pc' : LockPc} {act : LockAct}
    (h : stepPc p s pc act = some (pc', s')) :
    (s'.root.lock.isSome = s.root.lock.isSome ∧ s'.creator = s.creator ∧ (pc'.owns → pc.owns)) ∨
    (s.root.lock = none ∧ s'.root.lock.isSome ∧ s'.creator = some p) ∨
    (act = .removeStale ∧ ¬ pc'.owns) ∨
    (pc.owns ∧ ¬ pc'.owns) := by
  revert h
  fun_cases stepPc p s pc act
  all_goals intro h
  all_goals cases h
  -- `create_dir`
  case case2 hlock => exact Or.inr (Or.inl ⟨hlock, rfl, rfl⟩)
  -- the two ends of writing the owner
  case case4 hlock => exact Or.inl ⟨by rw [hlock]; rfl, rfl, fun _ ↦ rfl⟩
  case case6 hlock => exact Or.inl ⟨by rw [hlock]; rfl, rfl, fun _ ↦ rfl⟩
  -- the decision
  case case10 => exact Or.inl ⟨rfl, rfl, by split <;> exact id⟩
  -- removing a stale lock
  case case11 => exact Or.inr (Or.inr (Or.inl ⟨rfl, Bool.false_ne_true⟩))
  -- the critical section
  case case17 => exact Or.inl ⟨by rw [LockShared.edit_lock], LockShared.edit_creator .., fun _ ↦ rfl⟩
  -- the drop
  case case18 => exact Or.inr (Or.inr (Or.inr ⟨rfl, Bool.false_ne_true⟩))
  case case15 | case16 => exact Or.inl ⟨rfl, rfl, fun _ ↦ rfl⟩
  all_goals exact Or.inl ⟨rfl, rfl, fun hown ↦ absurd hown Bool.false_ne_true⟩

/-- To the allocations: nothing, and who has just read them has read what they are; or write the
edit of what was read. -/
theorem stepPc_store {p : κ} {s s' : LockShared κ} {pc pc' : LockPc} {act : LockAct}
    (h : stepPc p s pc act = some (pc', s')) :
    (s'.root.allocations = s.root.allocations ∧ s'.granted = s.granted ∧
      ∀ op allocations, pc' = .editing op allocations →
        readAllocations s.root.allocations = .ok allocations) ∨
    ∃ op allocations, pc = .editing op allocations ∧ pc' = .finished ∧
      s' = s.edit allocations op := by
  revert h
  fun_cases stepPc p s pc act
  all_goals intro h
  all_goals cases h
  case case10 => exact Or.inl ⟨rfl, rfl, fun op a heq ↦ by split at heq <;> cases heq⟩
  -- reading them
  case case15 hread => exact Or.inl ⟨rfl, rfl, fun op a heq ↦ by cases heq; exact hread⟩
  -- writing them
  case case17 => exact Or.inr ⟨_, _, rfl, rfl, rfl⟩
  all_goals exact Or.inl ⟨rfl, rfl, fun op a heq ↦ by cases heq⟩

/-! ## All of them -/

structure LockSystem (κ : Type u) where
  shared : LockShared κ
  pc : κ → LockPc

variable [DecidableEq κ]

/-- One step of one process. -/
def LockSystem.step (s : LockSystem κ) (a : κ × LockAct) : Option (LockSystem κ) :=
  (stepPc a.1 s.shared (s.pc a.1) a.2).map fun next ↦
    { shared := next.2, pc := Function.update s.pc a.1 next.1 }

theorem LockSystem.step_eq_some {s t : LockSystem κ} {p : κ} {act : LockAct}
    (h : s.step (p, act) = some t) :
    ∃ pc shared, stepPc p s.shared (s.pc p) act = some (pc, shared) ∧
      t = ⟨shared, Function.update s.pc p pc⟩ := by
  obtain ⟨next, hnext, rfl⟩ := Option.map_eq_some_iff.mp h
  exact ⟨next.1, next.2, hnext, rfl⟩

/-- Nobody has started.  A directory may be left from a process that died, and the file holds
allocations that some pool describes. -/
structure LockStart where
  root : Root
  allocations : BridgeAllocations
  pool : SubnetPool
  reads : readAllocations root.allocations = .ok allocations
  represents : Represents allocations pool

def LockStart.system (start : LockStart) : LockSystem κ where
  shared := { root := start.root }
  pc := fun _ ↦ .idle

/-- The condition: a stale lock that is removed is not the directory of a process that is still
between its `create_dir` and its drop. -/
def RemovesNoLiveLock (s : LockSystem κ) (a : κ × LockAct) : Prop :=
  a.2 = .removeStale → ∀ p, s.shared.creator = some p → ¬ (s.pc p).owns

/-! ## The invariant -/

/-- A process that owns the directory made it, and it is there.  There is one directory, so there is
one such process. -/
def LockSystem.Exclusive (s : LockSystem κ) : Prop :=
  ∀ p, (s.pc p).owns → s.shared.root.lock.isSome ∧ s.shared.creator = some p

/-- The files represent a pool, and the outstanding grants are what the map says. -/
def LockShared.Stores (s : LockShared κ) (allocations : BridgeAllocations) : Prop :=
  readAllocations s.root.allocations = .ok allocations ∧
  (∃ pool, Represents allocations pool) ∧
  ∀ entry ∈ s.granted,
    allocations.containers[entry.1]?.map (BridgeNetwork.forContainerId entry.1) = some entry.2

/-- Whoever is editing is editing what the files say. -/
def LockSystem.Consistent (s : LockSystem κ) : Prop :=
  ∃ allocations, s.shared.Stores allocations ∧ ∀ p op a, s.pc p = .editing op a → a = allocations

omit [DecidableEq κ] in
theorem LockSystem.Exclusive.eq {s : LockSystem κ} (h : s.Exclusive) {p q : κ}
    (hp : (s.pc p).owns) (hq : (s.pc q).owns) : p = q :=
  Option.some.inj ((h p hp).2.symm.trans (h q hq).2)

theorem LockSystem.Exclusive.step {s t : LockSystem κ} {a : κ × LockAct} (h : s.Exclusive)
    (hcond : RemovesNoLiveLock s a) (hstep : s.step a = some t) : t.Exclusive := by
  obtain ⟨pc', shared', hpc, rfl⟩ := LockSystem.step_eq_some hstep
  intro q hq
  dsimp only at hq ⊢
  rw [Function.update_apply] at hq
  rcases stepPc_lock hpc with ⟨hlock, hcreator, howns⟩ | ⟨hnone, hsome, hcreator⟩ |
    ⟨hact, hnot⟩ | ⟨hown, hnot⟩
  · -- the directory stays as it is
    rw [hlock, hcreator]
    split at hq
    · rename_i heq
      exact heq ▸ h a.1 (howns hq)
    · exact h q hq
  · -- it was created: before that nobody owned it
    split at hq
    · rename_i heq
      exact ⟨hsome, heq ▸ hcreator⟩
    · have := (h q hq).1
      rw [hnone] at this
      exact absurd this (by decide)
  · -- it was removed as stale: the condition says that nobody owned it
    split at hq
    · exact absurd hq hnot
    · exact absurd hq (hcond hact q (h q hq).2)
  · -- it was dropped by its only owner
    split at hq
    · exact absurd hq hnot
    · rename_i hne
      exact absurd (h.eq hq hown) hne

omit [DecidableEq κ] in
/-- The critical section keeps the files in order, as long as it edits what they say. -/
theorem LockShared.Stores.edit {s : LockShared κ} {allocations : BridgeAllocations}
    (h : s.Stores allocations) (op : LockOp) : ∃ a, (s.edit allocations op).Stores a := by
  obtain ⟨hread, ⟨pool, hrep⟩, hgranted⟩ := h
  cases op with
  | allocate id =>
    rw [LockShared.edit]
    cases hid : allocations.containers[id]? with
    | some octet =>
      rw [allocateRead_held hid]
      refine ⟨allocations, hread, ⟨pool, hrep⟩, fun entry hentry ↦ ?_⟩
      rcases List.mem_cons.mp hentry with rfl | hentry
      · rw [hid, Option.map_some]
      · exact hgranted entry hentry
    | none =>
      rcases allocateRead_new hrep hid with ⟨octet, hleast, heq⟩ | ⟨_, heq⟩
      · rw [heq]
        refine ⟨_, readAllocations_save _, ⟨_, hrep.insert hleast.1⟩, fun entry hentry ↦ ?_⟩
        rcases List.mem_cons.mp hentry with rfl | hold
        · rw [Std.ExtTreeMap.getElem?_insert_self, Option.map_some]
        · -- an id with an outstanding grant is in the map, so it is not the new one
          have hne : id ≠ entry.1 := by
            rintro rfl
            have hmap := hgranted entry hold
            rw [hid] at hmap
            exact absurd hmap (by simp)
          rw [Std.ExtTreeMap.getElem?_insert,
            if_neg (mt Std.LawfulEqCmp.compare_eq_iff_eq.mp hne)]
          exact hgranted entry hold
      · rw [heq]
        exact ⟨allocations, hread, ⟨pool, hrep⟩, hgranted⟩
  | release id =>
    refine ⟨_, readAllocations_save _, ⟨_, hrep.erase id⟩, fun entry hentry ↦ ?_⟩
    obtain ⟨hmem, hne⟩ := List.mem_filter.mp hentry
    rw [releaseRead, Std.ExtTreeMap.getElem?_erase, if_neg]
    · exact hgranted entry hmem
    · intro heq
      exact of_decide_eq_true hne (Std.LawfulEqCmp.compare_eq_iff_eq.mp heq).symm

theorem LockSystem.Consistent.step {s t : LockSystem κ} {a : κ × LockAct} (hex : s.Exclusive)
    (h : s.Consistent) (hstep : s.step a = some t) : t.Consistent := by
  obtain ⟨pc', shared', hpc, rfl⟩ := LockSystem.step_eq_some hstep
  obtain ⟨allocations, hstores, hediting⟩ := h
  rcases stepPc_store hpc with ⟨hfile, hgranted, hread⟩ | ⟨op, a', hp, rfl, rfl⟩
  · refine ⟨allocations, ?_, fun q op' b hq ↦ ?_⟩
    · rw [LockShared.Stores, hfile, hgranted]
      exact hstores
    · dsimp only at hq
      rw [Function.update_apply] at hq
      split at hq
      · exact Except.ok.inj ((hread op' b hq).symm.trans hstores.1)
      · exact hediting q op' b hq
  · -- the writer is the only owner, so nobody else is editing
    obtain rfl := hediting a.1 op a' hp
    obtain ⟨allocations', hstores'⟩ := hstores.edit op
    refine ⟨allocations', hstores', fun q op' b hq ↦ ?_⟩
    dsimp only at hq
    rw [Function.update_apply] at hq
    split at hq
    · exact absurd hq (by simp)
    · rename_i hne
      exact absurd (hex.eq (by rw [hq]; rfl) (by rw [hp]; rfl)) hne

/-! ## Runs -/

omit [DecidableEq κ] in
theorem LockStart.exclusive (start : LockStart) : (start.system (κ := κ)).Exclusive := by
  intro p hp
  exact absurd hp Bool.false_ne_true

omit [DecidableEq κ] in
theorem LockStart.consistent (start : LockStart) : (start.system (κ := κ)).Consistent := by
  refine ⟨start.allocations, ?_, fun p op a hp ↦ ?_⟩
  · exact ⟨start.reads, ⟨start.pool, start.represents⟩, fun entry hentry ↦ by cases hentry⟩
  · cases hp

/-- **The lock excludes, unless a live lock is removed.**  In every run in which no removal of a
stale lock hits the directory of a process between its `create_dir` and its drop, in every state
reached at most one process is between `Ok` from `acquire_allocation_lock` and its drop, and
networks granted to different ids and not released since have different subnets. -/
theorem lock_exclusive (start : LockStart) (as : List (κ × LockAct)) (t : LockSystem κ)
    (hcond : Along LockSystem.step RemovesNoLiveLock (start.system (κ := κ)) as)
    (hrun : exec LockSystem.step start.system as = some t) :
    (∀ p q, (t.pc p).holds → (t.pc q).holds → p = q) ∧
    ∀ id id' network network', (id, network) ∈ t.shared.granted →
      (id', network') ∈ t.shared.granted → id ≠ id' → network.subnet ≠ network'.subnet := by
  obtain ⟨hex, allocations, ⟨_, ⟨pool, hrep⟩, hgranted⟩, _⟩ :=
    invariant_along (P := fun s : LockSystem κ ↦ s.Exclusive ∧ s.Consistent)
      (fun s a s' h hc hs ↦ ⟨h.1.step hc hs, h.2.step h.1 hs⟩)
      ⟨start.exclusive, start.consistent⟩ hcond hrun
  refine ⟨fun p q hp hq ↦ hex.eq (LockPc.owns_of_holds hp) (LockPc.owns_of_holds hq), ?_⟩
  intro id id' network network' hid hid' hne
  have hmap : allocations.containers[id]?.map (.forContainerId id) = some network :=
    hgranted (id, network) hid
  have hmap' : allocations.containers[id']?.map (.forContainerId id') = some network' :=
    hgranted (id', network') hid'
  obtain ⟨octet, hoctet, rfl⟩ := Option.map_eq_some_iff.mp hmap
  obtain ⟨octet', hoctet', rfl⟩ := Option.map_eq_some_iff.mp hmap'
  exact subnet_ne_of_pool ⟨pool, hrep⟩ hne hoctet rfl hoctet' rfl

/-- No files yet. -/
def LockStart.empty : LockStart where
  root := {}
  allocations := {}
  pool := Pool.empty
  reads := readAllocations_missing
  represents := represents_empty

/-- A process whose `/proc` shows a start time for every pid. -/
def sampleCaller (pid : UInt32) : Caller where
  pid := pid
  now := 1000
  starttime := fun _ ↦ some 7

/-- The second process finds the lock with an owner that is alive, and waits for the drop. -/
def waitingSchedule : List (Bool × LockAct) :=
  [(true, .begin (.allocate "a")), (true, .createDir), (true, .writeOwner (sampleCaller 1)),
    (false, .begin (.allocate "b")), (false, .createDir), (true, .readAllocations),
    (false, .readOwner), (false, .judge (sampleCaller 2)), (true, .save), (true, .drop),
    (false, .retry), (false, .createDir), (false, .writeOwner (sampleCaller 2)),
    (false, .readAllocations), (false, .save)]

/-- A run that meets the condition: no lock is removed as stale. -/
theorem lock_exclusive_waiting :
    ∃ t : LockSystem Bool,
      exec LockSystem.step LockStart.empty.system waitingSchedule = some t ∧
      (∀ p q, (t.pc p).holds → (t.pc q).holds → p = q) ∧
      ∀ id id' network network', (id, network) ∈ t.shared.granted →
        (id', network') ∈ t.shared.granted → id ≠ id' → network.subnet ≠ network'.subnet := by
  refine ⟨_, rfl, lock_exclusive .empty waitingSchedule _ (along_of_forall_mem ?_ _) rfl⟩
  intro a ha s hact
  simp only [waitingSchedule, List.mem_cons, List.not_mem_nil, or_false] at ha
  rcases ha with rfl | rfl | rfl | rfl | rfl | rfl | rfl | rfl | rfl | rfl | rfl | rfl | rfl | rfl |
    rfl <;> cases hact

/-- The first process has made the directory and not yet written its owner when the second looks:
no owner file reads as stale.  The second removes the directory and makes its own; the first writes
its owner into that one. -/
def stealingSchedule : List (Bool × LockAct) :=
  [(true, .begin (.allocate "a")), (true, .createDir),
    (false, .begin (.allocate "b")), (false, .createDir), (false, .readOwner),
    (false, .judge (sampleCaller 2)), (false, .removeStale), (false, .retry), (false, .createDir),
    (true, .writeOwner (sampleCaller 1)), (false, .writeOwner (sampleCaller 2)),
    (true, .readAllocations), (false, .readAllocations), (true, .save), (false, .save)]

/-- Two processes hold the lock at once, and both are granted the octet 20. -/
theorem two_holders :
    ∃ t : LockSystem Bool,
      exec LockSystem.step LockStart.empty.system stealingSchedule = some t ∧
      (t.pc true).holds ∧ (t.pc false).holds ∧
      t.shared.granted.map (fun entry ↦ (entry.1, entry.2.subnet)) =
        [("b", "10.88.20.0/24"), ("a", "10.88.20.0/24")] := by
  refine ⟨_, rfl, rfl, rfl, ?_⟩
  decide +kernel

end CrunRs.Network
