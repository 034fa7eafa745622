import CrunRs.Lib.Lts
import CrunRs.Lifecycle.Run
import CrunRs.Network.Allocations
import CrunRs.Network.Nat

/-!
# Taking a container down

When the process of a bridge container has ended, its runtime process takes down what it set up
(`ParentResources::cleanup`) and records the outcome.  Until it has, the state file says that the
container is running.  Whoever loads the file meanwhile (`stop` does so ten times a second) finds
that the process is gone, and takes the container down as well: that is the recovery of a container
whose runtime process died, and nothing tells it that this one did not.

The recovery holds the lock of the state, the runtime process only takes it for its save.  So the
commands of the two mix in any order, and with those of other containers, which may be given the
subnet as soon as one of the two has released it.  `recovery_meets_teardown` is what comes of it.

Every command may fail as well, and then the cleanup fails, and the outcome is not recorded either.  As
long as no load finds something to recover and no command of the runtime process fails, all is well
(`teardown_once`).
-/

set_option autoImplicit false

namespace CrunRs.Lifecycle

open Lts Network State

/-! ## Scripts -/

/-- One command of a cleanup. -/
inductive TeardownCommand
  /-- `iptables -D`, with the prefix of the message if it fails. -/
  | deleteRule (rule : Rule) (label : String)
  | restoreForward (lease : NatLease)
  | cleanupVeth (hostName : String)
  | releaseAllocation (id : String)
  | cleanupOverlay (ownership : OverlayOwnership)
  | deleteCgroup (path : String)
  deriving DecidableEq

/-- The commands of a cleanup step, in order. -/
def commandsOf : Cleanup → List TeardownCommand
  | .nat lease =>
    (lease.ownedRules.map fun owned ↦ .deleteRule owned.1 owned.2) ++ [.restoreForward lease]
  | .veth hostName => [.cleanupVeth hostName]
  | .bridgeAllocation id => [.releaseAllocation id]
  | .overlay ownership => [.cleanupOverlay ownership]
  | .cgroup path => [.deleteCgroup path]

/-- `ParentResources`. -/
structure ParentResources where
  containerId : String
  cgroup : Option String
  bridgeNetwork : Option BridgeNetwork
  natLease : Option NatLease
  overlayOwnership : Option OverlayOwnership
  releaseBridgeAllocation : Bool

namespace TeardownCommand

/-- The context of an error in `ParentResources::cleanup`; `text` is what it shows without one. -/
def cleanupError (id subnet text : String) : TeardownCommand → String
  | .deleteRule .. | .restoreForward _ => "failed to cleanup NAT for " ++ subnet
  | .cleanupVeth _ | .deleteCgroup _ => text
  | .releaseAllocation _ => "failed to release bridge subnet for " ++ id
  | .cleanupOverlay _ => "failed to cleanup overlay artifacts for " ++ id

/-- The error of a command, as `stale_recovery_signal` shows it. -/
def recoveryError (text : String) : TeardownCommand → String
  | .deleteRule .. | .restoreForward _ => text
  | .cleanupVeth hostName => "veth " ++ hostName ++ " cleanup failed: " ++ text
  | .releaseAllocation id => "bridge allocation cleanup failed: " ++
      "failed to release bridge subnet for stale container " ++ id
  | .cleanupOverlay _ => "overlay cleanup failed: " ++ text
  | .deleteCgroup _ => "cgroup cleanup failed: " ++ text

def isNat : TeardownCommand → Bool
  | .deleteRule .. | .restoreForward _ => true
  | _ => false

end TeardownCommand

/-- The steps of `ParentResources::cleanup`. -/
def ParentResources.cleanups (resources : ParentResources) : List Cleanup :=
  (match resources.bridgeNetwork with
  | some network => resources.natLease.toList.map .nat ++ [.veth network.veth.hostName]
  | none => []) ++
  (if resources.releaseBridgeAllocation then [.bridgeAllocation resources.containerId] else []) ++
  resources.overlayOwnership.toList.map .overlay ++ resources.cgroup.toList.map .cgroup

/-- What `refresh_liveness` finds: nothing to recover, or whether the pid is still the container's
own and how the signal begins. -/
def staleBranch (proc : Proc) (state : ContainerState) : Option (Bool × String) :=
  if state.status ≠ .running then none
  else match state.pid with
    | none => none
    | some pid =>
      if pidIsAlive proc pid then
        match state.processStarttime with
        | some expected =>
          if (processStarttime proc pid).toOption = some expected then none
          else some (false, "STALE_PID_REUSED")
        | none => some (false, "STALE_IDENTITY_MISSING")
      else some (true, "STALE")

theorem refreshLiveness_eq (host : Host) (state : ContainerState) :
    refreshLiveness host state = match staleBranch host.proc state with
      | none => ⟨state, .ok false, []⟩
      | some (owned, base) => recoverStale host state owned base := by
  rw [refreshLiveness, staleBranch]
  by_cases hrunning : state.status ≠ .running
  · rw [if_pos hrunning, if_pos hrunning]
  · rw [if_neg hrunning, if_neg hrunning]
    cases hpid : state.pid with
    | none => rfl
    | some pid =>
      by_cases halive : pidIsAlive host.proc pid
      · cases hstart : state.processStarttime with
        | none => simp [halive]
        | some expected =>
          by_cases hsame : (processStarttime host.proc pid).toOption = some expected
          · simp [halive, hsame]
          · simp [halive, hsame]
      · simp [halive]

/-! ## The container -/

/-- A bridge container whose process has ended. -/
structure EndedContainer where
  id : String
  octet : UInt8
  lease : NatLease
  /-- The state its runtime process saved when it was started. -/
  running : ContainerState
  status : WaitStatus
  valid : validateId id = .ok ()
  running_id : running.id = id
  running_status : running.status = .running
  running_network : running.networkMode = "bridge"
  running_lease : running.natLease = some lease
  subnet : lease.subnet = subnetOf octet

namespace EndedContainer

variable (c : EndedContainer)

/-- What its runtime process has to take down. -/
def resources : ParentResources where
  containerId := c.id
  cgroup := c.running.cgroupPath
  bridgeNetwork := some (.forContainerId c.id c.octet)
  natLease := some c.lease
  overlayOwnership := c.running.overlayOwnership
  releaseBridgeAllocation := true

/-- The commands of its runtime process. -/
def script : List TeardownCommand := c.resources.cleanups.flatMap commandsOf

end EndedContainer

/-! ## The system -/

/-- A deletion that was issued, what came of it, and who had which subnet then. -/
structure Deletion where
  rule : Rule
  succeeded : Bool
  allocations : BridgeAllocations

/-- Where the runtime process is. -/
inductive TeardownPc
  /-- In `ParentResources::cleanup`. -/
  | cleaning (todo : List TeardownCommand) (firstError : Option String)
  /-- The cleanup returned `Ok`. -/
  | saving
  | saved
  /-- The cleanup returned this error, and so does `run_process`. -/
  | failed (error : String)
  /-- The cleanup returned `Ok`, and the outcome could not be saved. -/
  | unsaved
  deriving DecidableEq

/-- The failure of a command that would have succeeded: the program cannot be started or is timed out,
the directory of the cgroup is busy, a lock is not had or not released. -/
structure CommandFault where
  error : String
  /-- It comes after the command has had its effect. -/
  effective : Bool

/-- How the rest goes for the runtime process when its cleanup has returned: the capture of learn mode
and its event come before the save. -/
structure SaveAnswers where
  captured : Bool := true
  now : Option UInt64 := some 0
  save : StoreFaults := {}

/-- Nothing of it fails. -/
def SaveAnswers.Succeed (answers : SaveAnswers) : Prop :=
  answers.captured = true ∧ answers.now.isSome ∧ answers.save.lock = none ∧ answers.save.write = none

/-- A `load_current` that is recovering; it has the lock of the state. -/
structure Recovery where
  state : ContainerState
  base : String
  todo : List TeardownCommand
  failed : List (TeardownCommand × String)

/-- The errors of a recovery; those of the lease are one. -/
def Recovery.errors (recovery : Recovery) : List String :=
  let texts (failed : List (TeardownCommand × String)) := failed.map fun f ↦ f.1.recoveryError f.2
  let nat := recovery.failed.filter fun f ↦ f.1.isNat
  let cgroup := recovery.failed.filter fun f ↦ f.1 matches .deleteCgroup _
  let rest := recovery.failed.filter fun f ↦ !f.1.isNat && !(f.1 matches .deleteCgroup _)
  texts cgroup ++
    (if nat = [] then [] else ["NAT cleanup failed: " ++ "; ".intercalate (texts nat)]) ++ texts rest

structure TeardownSystem where
  file : StateFile
  host : NatHost
  allocations : BridgeAllocations
  deletions : List Deletion
  parent : TeardownPc
  recovery : Option Recovery

inductive TeardownAct
  /-- The runtime process runs its next command. -/
  | parentCommand (fault : Option CommandFault)
  | parentReturn
  | parentSave (answers : SaveAnswers)
  /-- Some command calls `load_current`, and gets the lock. -/
  | load (host : Host)
  | recoveryCommand (fault : Option CommandFault)
  | recoverySave (now : Option UInt64) (faults : StoreFaults)
  /-- Other containers come and go, and set up and take down rules of the subnets they have. -/
  | otherAllocates (id : String)
  | otherReleases (id : String)
  | otherAppends (id : String) (rule : Rule)
  | otherDeletes (id : String) (rule : Rule)

namespace TeardownSystem

/-- One command that nothing keeps from its work, and its error: the deletion of a rule that is not
there fails, the others look first whether there is something to do. -/
def perform (s : TeardownSystem) : TeardownCommand → TeardownSystem × Option String
  | .deleteRule rule label =>
    match runIptables {} s.host.rules (.delete rule) with
    | (rules, .ok ()) =>
      ({ s with
        host := { s.host with rules }
        deletions := s.deletions ++ [⟨rule, true, s.allocations⟩] }, none)
    | (rules, .error e) =>
      ({ s with
        host := { s.host with rules }
        deletions := s.deletions ++ [⟨rule, false, s.allocations⟩] }, some (label ++ e.display))
  | .restoreForward lease =>
    ({ s with
      host := { s.host with ipForward := (restoreForward {} lease s.host.ipForward).1 } }, none)
  | .releaseAllocation id => ({ s with allocations := releaseRead s.allocations id }, none)
  | .cleanupVeth _ | .cleanupOverlay _ | .deleteCgroup _ => (s, none)

/-- The deletion that failed is on record, if the command is one. -/
def recordFailure (s : TeardownSystem) (allocations : BridgeAllocations) :
    TeardownCommand → List Deletion
  | .deleteRule rule _ => s.deletions ++ [⟨rule, false, allocations⟩]
  | _ => s.deletions

/-- One command, and its error. -/
def runCommand (s : TeardownSystem) (fault : Option CommandFault) (command : TeardownCommand) :
    TeardownSystem × Option String :=
  match fault with
  | none => s.perform command
  | some fault =>
    let t := if fault.effective then (s.perform command).1 else s
    ({ t with deletions := s.recordFailure s.allocations command }, some fault.error)

/-- The state a recovery saves. -/
def recoveredState (recovery : Recovery) (now : Option UInt64) : Except StateError ContainerState :=
  match recovery.state.markStopped now none
      (some (formatStaleSignal recovery.base recovery.errors)) with
  | (_, .error e) => .error e
  | (state, .ok ()) => .ok state

variable (c : EndedContainer)

/-- Another container that has the subnet of a rule. -/
def OtherHas (s : TeardownSystem) (id : String) (rule : Rule) : Prop :=
  id ≠ c.id ∧ s.allocations.containers[id]?.map subnetOf = some rule.subnet

instance (s : TeardownSystem) (id : String) (rule : Rule) : Decidable (s.OtherHas c id rule) :=
  inferInstanceAs (Decidable (_ ∧ _))

/-- One step of the runtime process, of a load, or of another container. -/
def step (s : TeardownSystem) : TeardownAct → Option TeardownSystem
  | .parentCommand fault => match s.parent with
    | .cleaning (command :: todo) firstError =>
      let (t, error) := s.runCommand fault command
      let error := error.map fun text ↦ command.cleanupError c.id c.lease.subnet text
      some { t with parent := .cleaning todo (firstError.or error) }
    | _ => none
  | .parentReturn => match s.parent with
    | .cleaning [] none => some { s with parent := .saving }
    | .cleaning [] (some error) => some { s with parent := .failed error }
    | _ => none
  | .parentSave answers => match s.parent, answers.captured with
    | .saving, false => some { s with parent := .unsaved }
    | .saving, true => match stoppedState answers.now c.running c.status with
      | .error _ => some { s with parent := .unsaved }
      | .ok state =>
        if s.recovery.isSome then none
        else match saveTo answers.save s.file state with
          | (file, .ok ()) => some { s with file, parent := .saved }
          | (_, .error _) => some { s with parent := .unsaved }
    | _, _ => none
  | .load host => match s.recovery with
    | some _ => none
    | none => match loadFrom c.id s.file with
      | .error _ => some s
      | .ok state => match staleBranch host.proc state with
        | none => some s
        | some (owned, base) =>
          let todo := (recoverySteps state owned).flatMap commandsOf
          some { s with recovery := some ⟨state, base, todo, []⟩ }
  | .recoveryCommand fault => match s.recovery with
    | some ⟨state, base, command :: todo, failed⟩ =>
      let (t, error) := s.runCommand fault command
      let failed := failed ++ error.toList.map fun text ↦ (command, text)
      some { t with recovery := some ⟨state, base, todo, failed⟩ }
    | _ => none
  | .recoverySave now faults => match s.recovery with
    | some recovery =>
      if recovery.todo ≠ [] then none
      else match recoveredState recovery now with
        | .error _ => some { s with recovery := none }
        | .ok state =>
          some { s with file := (writeStateAtomic faults s.file state).1, recovery := none }
    | none => none
  | .otherAllocates id =>
    if id = c.id then none
    else some { s with allocations := (allocateRead s.allocations id).1.getD s.allocations }
  | .otherReleases id =>
    if id = c.id then none else some { s with allocations := releaseRead s.allocations id }
  | .otherAppends id rule =>
    if s.OtherHas c id rule then
      some { s with host := { s.host with rules := s.host.rules ++ [rule] } }
    else none
  | .otherDeletes id rule =>
    if s.OtherHas c id rule then
      some { s with host := { s.host with rules := s.host.rules.erase rule } }
    else none

/-! ## The property and the condition -/

/-- The container has its subnet and its rules, and nobody has begun to take it down. -/
structure Ready (s : TeardownSystem) : Prop where
  file : s.file = .stored c.running
  allocation : s.allocations.containers[c.id]? = some c.octet
  pool : ∃ pool, Represents s.allocations pool
  rules : ∀ owned ∈ c.lease.ownedRules, owned.1 ∈ s.host.rules
  deletions : s.deletions = []
  parent : s.parent = .cleaning c.script none
  recovery : s.recovery = none

/-- The cleanup of the runtime process has returned `Ok`. -/
def Cleaned (s : TeardownSystem) : Prop := s.parent = .saving ∨ s.parent = .saved

/-- A single teardown: no deletion fails or comes twice, none is for a subnet that somebody else has,
neither the cleanup nor the save fails, and in the end all rules are deleted and the outcome is
recorded. -/
structure TornDownOnce (s : TeardownSystem) : Prop where
  succeeded : ∀ deletion ∈ s.deletions, deletion.succeeded
  once : ∀ owned ∈ c.lease.ownedRules, (s.deletions.map Deletion.rule).count owned.1 ≤ 1
  own : ∀ deletion ∈ s.deletions, ∀ other, other ≠ c.id →
    deletion.allocations.containers[other]?.map subnetOf ≠ some deletion.rule.subnet
  ok : ∀ error, s.parent ≠ .failed error
  notLost : s.parent ≠ .unsaved
  all : s.Cleaned → ∀ owned ∈ c.lease.ownedRules,
    (s.deletions.map Deletion.rule).count owned.1 = 1
  recorded : s.parent = .saved → ∃ state, s.file = .stored state ∧ state.status = .stopped ∧
    (state.exitCode, state.signal) = processExit c.status

/-- The condition: a load finds nothing to recover, and nothing fails for the runtime process that is
not the deletion of a rule that is gone. -/
def Undisturbed (s : TeardownSystem) : TeardownAct → Prop
  | .parentCommand fault => fault = none
  | .parentSave answers => answers.Succeed
  | .load host => ∀ state, s.file = .stored state → staleBranch host.proc state = none
  | _ => True

instance decidableUndisturbed (s : TeardownSystem) : ∀ a, Decidable (s.Undisturbed a)
  | .parentCommand fault => inferInstanceAs (Decidable (fault = none))
  | .parentSave answers => inferInstanceAs (Decidable (_ ∧ _ ∧ _ ∧ _))
  | .load host => match h : s.file with
    | .stored state => decidable_of_iff (staleBranch host.proc state = none)
        ⟨fun hnone _ hstate ↦ StateFile.stored.inj (h.symm.trans hstate) ▸ hnone,
          fun hall ↦ hall state h⟩
    | .missing | .malformed => isTrue fun _ hstate ↦ by simp [h] at hstate
  | .parentReturn | .recoveryCommand _ | .recoverySave .. | .otherAllocates _ | .otherReleases _
  | .otherAppends .. | .otherDeletes .. => isTrue trivial

/-! ## The script of the runtime process -/

/-- The rules some commands delete. -/
def deletedRules (commands : List TeardownCommand) : List Rule :=
  commands.filterMap fun
    | .deleteRule rule _ => some rule
    | _ => none

theorem deletedRules_cons_deleteRule (rule : Rule) (label : String)
    (commands : List TeardownCommand) :
    deletedRules (.deleteRule rule label :: commands) = rule :: deletedRules commands := rfl

theorem deletedRules_append (commands commands' : List TeardownCommand) :
    deletedRules (commands ++ commands') = deletedRules commands ++ deletedRules commands' :=
  List.filterMap_append

/-- What the script does after the rules of the lease. -/
def afterRules : List TeardownCommand :=
  [.restoreForward c.lease, .cleanupVeth (BridgeNetwork.forContainerId c.id c.octet).veth.hostName,
    .releaseAllocation c.id] ++
  (c.running.overlayOwnership.toList.map TeardownCommand.cleanupOverlay ++
    c.running.cgroupPath.toList.map TeardownCommand.deleteCgroup)

theorem script_eq : c.script =
    (c.lease.ownedRules.map fun owned ↦ .deleteRule owned.1 owned.2) ++ afterRules c := by
  rw [EndedContainer.script, EndedContainer.resources, ParentResources.cleanups, afterRules]
  cases c.running.overlayOwnership <;> cases c.running.cgroupPath <;> simp [commandsOf]

theorem deletedRules_afterRules : deletedRules (afterRules c) = [] := by
  rw [afterRules]
  cases c.running.overlayOwnership <;> cases c.running.cgroupPath <;> rfl

theorem deletedRules_script :
    deletedRules c.script = c.lease.ownedRules.map Prod.fst := by
  rw [script_eq, deletedRules_append, deletedRules_afterRules, List.append_nil, deletedRules,
    List.filterMap_map]
  exact congrFun List.filterMap_eq_map c.lease.ownedRules

theorem nodup_ownedRules (lease : NatLease) : (lease.ownedRules.map Prod.fst).Nodup := by
  rw [NatLease.ownedRules]
  cases lease.postroutingOwned <;> cases lease.forwardSourceOwned <;>
    cases lease.forwardDestinationOwned <;> simp

theorem subnet_of_mem_deletedRules {rule : Rule} (h : rule ∈ deletedRules c.script) :
    rule.subnet = subnetOf c.octet := by
  rw [deletedRules_script] at h
  obtain ⟨owned, howned, rfl⟩ := List.mem_map.mp h
  rw [subnet_of_mem_ownedRules howned, c.subnet]

/-- The subnet is released only after all rules are deleted. -/
theorem release_mem_of_deleteRule {done todo : List TeardownCommand} {rule : Rule} {label : String}
    (h : c.script = done ++ .deleteRule rule label :: todo) : .releaseAllocation c.id ∈ todo := by
  have hafter : .releaseAllocation c.id ∈ afterRules c := by simp [afterRules]
  rw [script_eq, List.append_eq_append_iff] at h
  rcases h with ⟨front, _, hsplit⟩ | ⟨back, _, hsplit⟩
  · -- the deletion would come after the rules
    have hdeleted : rule ∈ deletedRules (afterRules c) := by
      rw [hsplit, deletedRules_append]
      exact List.mem_append_right _ List.mem_cons_self
    rw [deletedRules_afterRules] at hdeleted
    simp at hdeleted
  · cases back with
    | nil =>
      rw [List.nil_append] at hsplit
      rw [← hsplit] at hafter
      exact (List.mem_cons.mp hafter).resolve_left (by simp)
    | cons command back =>
      rw [List.cons_append] at hsplit
      rw [(List.cons.inj hsplit).2]
      exact List.mem_append_right _ hafter

/-- The subnet is released once. -/
theorem release_once {done todo : List TeardownCommand}
    (h : c.script = done ++ .releaseAllocation c.id :: todo) : .releaseAllocation c.id ∉ todo := by
  have hcount : c.script.count (.releaseAllocation c.id) = 1 := by
    rw [script_eq, List.count_append, afterRules]
    cases c.running.overlayOwnership <;> cases c.running.cgroupPath <;>
      simp [List.count_eq_zero]
  rw [h, List.count_append, List.count_cons_self] at hcount
  rw [← List.count_eq_zero]
  omega

/-- The script releases nothing but the subnet of its container. -/
theorem eq_id_of_release_mem {id : String} (h : .releaseAllocation id ∈ c.script) : id = c.id := by
  rw [script_eq, afterRules] at h
  revert h
  cases c.running.overlayOwnership <;> cases c.running.cgroupPath <;> simp

/-! ## The invariant -/

variable {c} {s t : TeardownSystem}

/-- What has been done, if `todo` is left of the script: the deletions of the rest, and as long as
the subnet is not released it is the container's own and the remaining rules are there. -/
structure Orderly (c : EndedContainer) (s : TeardownSystem) (todo : List TeardownCommand) : Prop where
  done : ∃ done, c.script = done ++ todo ∧ s.deletions.map Deletion.rule = deletedRules done
  succeeded : ∀ deletion ∈ s.deletions, deletion.succeeded
  own : ∀ deletion ∈ s.deletions, ∀ other, other ≠ c.id →
    deletion.allocations.containers[other]?.map subnetOf ≠ some deletion.rule.subnet
  pool : ∃ pool, Represents s.allocations pool
  held : .releaseAllocation c.id ∈ todo → s.allocations.containers[c.id]? = some c.octet
  rules : .releaseAllocation c.id ∈ todo → ∀ rule ∈ deletedRules todo, rule ∈ s.host.rules

/-- The invariant of runs in which nothing is recovered. -/
structure Untouched (c : EndedContainer) (s : TeardownSystem) : Prop where
  recovery : s.recovery = none
  parent : (∃ todo, Orderly c s todo ∧ s.parent = .cleaning todo none ∧ s.file = .stored c.running) ∨
    Orderly c s [] ∧ s.parent = .saving ∧ s.file = .stored c.running ∨
    Orderly c s [] ∧ s.parent = .saved ∧ ∃ state, s.file = .stored state ∧
      state.status = .stopped ∧ (state.exitCode, state.signal) = processExit c.status

/-- A container that has a subnet is the only one. -/
theorem not_other_of_held (hpool : ∃ pool, Represents s.allocations pool)
    (hheld : s.allocations.containers[c.id]? = some c.octet) {other : String} (hne : other ≠ c.id) :
    s.allocations.containers[other]?.map subnetOf ≠ some (subnetOf c.octet) := by
  obtain ⟨pool, hrep⟩ := hpool
  intro h
  obtain ⟨octet, hoctet, hsubnet⟩ := Option.map_eq_some_iff.mp h
  obtain rfl : octet = c.octet := subnetOf_injective hsubnet
  have hown : pool.slot c.id = some c.octet.toNat := by rw [hrep, hheld, Option.map_some]
  have hother : pool.slot other = some c.octet.toNat := by rw [hrep, hoctet, Option.map_some]
  exact hne (pool.inj hother hown)

/-- What deletes and releases nothing changes nothing of that. -/
theorem Orderly.congr {todo : List TeardownCommand} (h : Orderly c s todo)
    (hdeletions : t.deletions = s.deletions) (hallocations : t.allocations = s.allocations)
    (hrules : t.host.rules = s.host.rules) : Orderly c t todo :=
  ⟨hdeletions ▸ h.done, hdeletions ▸ h.succeeded, hdeletions ▸ h.own, hallocations ▸ h.pool,
    hallocations ▸ h.held, hrules ▸ h.rules⟩

theorem Orderly.skip {command : TeardownCommand} {todo : List TeardownCommand}
    (h : Orderly c s (command :: todo)) (hdeletes : deletedRules [command] = []) :
    Orderly c s todo := by
  obtain ⟨done, hscript, hdone⟩ := h.done
  refine ⟨⟨done ++ [command], by simp [hscript], ?_⟩, h.succeeded, h.own, h.pool,
    fun hmem ↦ h.held (List.mem_cons_of_mem _ hmem), fun hmem rule hrule ↦ ?_⟩
  · rw [deletedRules_append, hdeletes, List.append_nil, hdone]
  · refine h.rules (List.mem_cons_of_mem _ hmem) rule ?_
    rw [← List.singleton_append, deletedRules_append, hdeletes, List.nil_append]
    exact hrule

/-- **One command of the script**: it succeeds, and the rest is still to be done. -/
theorem Orderly.perform {command : TeardownCommand} {todo : List TeardownCommand}
    (h : Orderly c s (command :: todo)) :
    Orderly c (s.perform command).1 todo ∧ (s.perform command).2 = none := by
  obtain ⟨done, hscript, hdone⟩ := h.done
  cases command with
  | deleteRule rule label =>
    have hrelease := release_mem_of_deleteRule c hscript
    have hheld := h.held (List.mem_cons_of_mem _ hrelease)
    have hrules := h.rules (List.mem_cons_of_mem _ hrelease)
    rw [deletedRules_cons_deleteRule] at hrules
    have hall : deletedRules c.script = deletedRules done ++ rule :: deletedRules todo := by
      rw [hscript, deletedRules_append, deletedRules_cons_deleteRule]
    have hnodup : (rule :: deletedRules todo).Nodup := by
      have hscriptNodup := nodup_ownedRules c.lease
      rw [← deletedRules_script, hall] at hscriptNodup
      exact (List.nodup_append.mp hscriptNodup).2.1
    have hsubnet : rule.subnet = subnetOf c.octet := by
      refine subnet_of_mem_deletedRules c ?_
      rw [hall]
      exact List.mem_append_right _ List.mem_cons_self
    have hrun : s.perform (.deleteRule rule label) =
        ({ s with
          host := { s.host with rules := s.host.rules.erase rule }
          deletions := s.deletions ++ [⟨rule, true, s.allocations⟩] }, none) := by
      simp [TeardownSystem.perform, runIptables, hrules rule List.mem_cons_self]
    rw [hrun]
    refine ⟨⟨⟨done ++ [.deleteRule rule label], by simp [hscript], ?_⟩, ?_, ?_, h.pool,
      fun _ ↦ hheld, fun _ other hother ↦ ?_⟩, rfl⟩
    · rw [List.map_append, hdone, deletedRules_append]
      rfl
    · intro deletion hmem
      rcases List.mem_append.mp hmem with hmem | hmem
      · exact h.succeeded deletion hmem
      · rw [List.mem_singleton.mp hmem]
    · intro deletion hmem other hne
      rcases List.mem_append.mp hmem with hmem | hmem
      · exact h.own deletion hmem other hne
      · rw [List.mem_singleton.mp hmem, hsubnet]
        exact not_other_of_held h.pool hheld hne
    · have hdiff : other ≠ rule := fun heq ↦ (List.nodup_cons.mp hnodup).1 (heq ▸ hother)
      exact (List.mem_erase_of_ne hdiff).mpr (hrules other (List.mem_cons_of_mem _ hother))
  | releaseAllocation id =>
    have hid : id = c.id := eq_id_of_release_mem c (by simp [hscript])
    obtain ⟨pool, hrep⟩ := h.pool
    refine ⟨⟨⟨done ++ [.releaseAllocation id], by simp [hscript], ?_⟩, h.succeeded, h.own,
      ⟨_, hrep.erase id⟩, fun hmem ↦ ?_, fun hmem ↦ ?_⟩, rfl⟩
    · rw [deletedRules_append, show deletedRules [.releaseAllocation id] = [] from rfl,
        List.append_nil]
      exact hdone
    · exact absurd hmem (release_once c (hid ▸ hscript))
    · exact absurd hmem (release_once c (hid ▸ hscript))
  | restoreForward lease => exact ⟨(h.skip rfl).congr rfl rfl rfl, rfl⟩
  | cleanupVeth | cleanupOverlay | deleteCgroup => exact ⟨h.skip rfl, rfl⟩

/-- What another container does leaves the subnet and the rules of this one, as long as it has
them. -/
theorem Orderly.other {todo : List TeardownCommand} (h : Orderly c s todo)
    (hdeletions : t.deletions = s.deletions) (hpool : ∃ pool, Represents t.allocations pool)
    (hid : t.allocations.containers[c.id]? = s.allocations.containers[c.id]?)
    (hrules : s.allocations.containers[c.id]? = some c.octet → ∀ rule ∈ s.host.rules,
      rule.subnet = subnetOf c.octet → rule ∈ t.host.rules) : Orderly c t todo := by
  refine ⟨hdeletions ▸ h.done, hdeletions ▸ h.succeeded, hdeletions ▸ h.own, hpool,
    fun hmem ↦ hid.trans (h.held hmem), fun hmem rule hrule ↦ ?_⟩
  obtain ⟨done, hscript, _⟩ := h.done
  refine hrules (h.held hmem) rule (h.rules hmem rule hrule) ?_
  refine subnet_of_mem_deletedRules c ?_
  rw [hscript, deletedRules_append]
  exact List.mem_append_right _ hrule

theorem Untouched.mono (h : Untouched c s) (hrecovery : t.recovery = s.recovery)
    (hparent : t.parent = s.parent) (hfile : t.file = s.file)
    (horderly : ∀ todo, Orderly c s todo → Orderly c t todo) : Untouched c t := by
  refine ⟨hrecovery.trans h.recovery, ?_⟩
  rw [hparent, hfile]
  rcases h.parent with ⟨todo, hdone, hrest⟩ | ⟨hdone, hrest⟩ | ⟨hdone, hrest⟩
  · exact Or.inl ⟨todo, horderly todo hdone, hrest⟩
  · exact Or.inr (Or.inl ⟨horderly [] hdone, hrest⟩)
  · exact Or.inr (Or.inr ⟨horderly [] hdone, hrest⟩)

theorem perform_frame (s : TeardownSystem) (command : TeardownCommand) :
    (s.perform command).1.file = s.file ∧ (s.perform command).1.recovery = s.recovery ∧
      (s.perform command).1.parent = s.parent := by
  cases command with
  | deleteRule rule label =>
    rw [perform]
    split <;> exact ⟨rfl, rfl, rfl⟩
  | restoreForward | cleanupVeth | releaseAllocation | cleanupOverlay | deleteCgroup =>
    exact ⟨rfl, rfl, rfl⟩

/-- A command leaves the runtime process where it is. -/
theorem runCommand_parent (s : TeardownSystem) (fault : Option CommandFault)
    (command : TeardownCommand) : (s.runCommand fault command).1.parent = s.parent := by
  cases fault with
  | none => exact (perform_frame s command).2.2
  | some fault =>
    rw [runCommand]
    by_cases heffective : fault.effective
    · simp only [heffective, if_true]
      exact (perform_frame s command).2.2
    · simp only [heffective, Bool.false_eq_true, if_false]

theorem Untouched.parentCommand (h : Untouched c s)
    (hstep : s.step c (.parentCommand none) = some t) : Untouched c t := by
  simp only [step, runCommand] at hstep
  split at hstep
  · rename_i command todo firstError hparent
    obtain rfl := Option.some.inj hstep
    rcases h.parent with ⟨todo', hdone, hcleaning, hfile⟩ | ⟨_, hother, _⟩ | ⟨_, hother, _⟩
    · rw [hcleaning] at hparent
      obtain ⟨rfl, rfl⟩ := TeardownPc.cleaning.inj hparent
      obtain ⟨hnext, hok⟩ := hdone.perform
      obtain ⟨hsameFile, hsameRecovery, _⟩ := perform_frame s command
      refine ⟨hsameRecovery.trans h.recovery, Or.inl ⟨todo, hnext.congr rfl rfl rfl, ?_,
        hsameFile.trans hfile⟩⟩
      rw [hok]
      rfl
    · rw [hother] at hparent
      simp at hparent
    · rw [hother] at hparent
      simp at hparent
  · simp at hstep

theorem Untouched.parentReturn (h : Untouched c s) (hstep : s.step c .parentReturn = some t) :
    Untouched c t := by
  simp only [step] at hstep
  rcases h.parent with ⟨todo, hdone, hcleaning, hfile⟩ | ⟨_, hother, _⟩ | ⟨_, hother, _⟩
  · rw [hcleaning] at hstep
    cases todo with
    | nil =>
      obtain rfl := Option.some.inj hstep
      exact ⟨h.recovery, Or.inr (Or.inl ⟨hdone.congr rfl rfl rfl, rfl, hfile⟩)⟩
    | cons command todo => simp at hstep
  · rw [hother] at hstep
    simp at hstep
  · rw [hother] at hstep
    simp at hstep

/-- A save in which nothing fails is the end. -/
theorem Untouched.parentSave (h : Untouched c s) {answers : SaveAnswers} (hsucceed : answers.Succeed)
    (hstep : s.step c (.parentSave answers) = some t) : Untouched c t := by
  obtain ⟨hcaptured, hnow, hlock, hwrite⟩ := hsucceed
  rcases h.parent with ⟨todo, _, hcleaning, _⟩ | ⟨hdone, hsaving, _⟩ | ⟨_, hsaved, _⟩
  · simp [step, hcleaning] at hstep
  · obtain ⟨state, hstate, hid⟩ := exists_stoppedState c.running c.status hnow
    obtain ⟨hstopped, hexit⟩ := stoppedState_eq hstate
    have hvalid : validateId state.id = .ok () := by
      rw [hid, c.running_id, c.valid]
    have hsave : saveTo answers.save s.file state = (.stored state, .ok ()) := by
      have hok : (saveTo answers.save s.file state).2 = .ok () :=
        (saveTo_eq_ok_iff hvalid).mpr ⟨hlock, hwrite⟩
      rcases saveTo_cases answers.save s.file state with hsave | ⟨e, hsave⟩
      · exact hsave
      · simp [hsave] at hok
    simp only [step, hsaving, hcaptured, hstate, h.recovery, hsave, Option.isSome_none,
      Bool.false_eq_true, if_false] at hstep
    obtain rfl := Option.some.inj hstep
    exact ⟨rfl, Or.inr (Or.inr ⟨hdone.congr rfl rfl rfl, rfl, state, rfl, hstopped, hexit⟩)⟩
  · simp [step, hsaved] at hstep

/-- A load that finds nothing to recover does nothing. -/
theorem Untouched.load (h : Untouched c s) {host : Host} (hcond : s.Undisturbed (.load host))
    (hstep : s.step c (.load host) = some t) : Untouched c t := by
  simp only [step, h.recovery] at hstep
  split at hstep
  · exact Option.some.inj hstep ▸ h
  · rename_i state hload
    rw [hcond state (loadFrom_eq_ok hload)] at hstep
    exact Option.some.inj hstep ▸ h

theorem Untouched.otherAllocates (h : Untouched c s) {id : String}
    (hstep : s.step c (.otherAllocates id) = some t) : Untouched c t := by
  simp only [step] at hstep
  split at hstep
  · simp at hstep
  · rename_i hne
    obtain rfl := Option.some.inj hstep
    refine h.mono rfl rfl rfl fun todo hdone ↦ ?_
    obtain ⟨pool, hrep⟩ := hdone.pool
    cases hheld : s.allocations.containers[id]? with
    | some octet =>
      rw [allocateRead_held hheld]
      exact hdone.congr rfl rfl rfl
    | none =>
      rcases allocateRead_new hrep hheld with ⟨octet, hleast, heq⟩ | ⟨_, heq⟩
      · rw [heq]
        refine hdone.other rfl ⟨_, hrep.insert hleast.1⟩ ?_ fun _ rule hrule _ ↦ hrule
        show (s.allocations.containers.insert id octet)[c.id]? = _
        rw [Std.ExtTreeMap.getElem?_insert, if_neg]
        rw [Std.LawfulEqCmp.compare_eq_iff_eq]
        exact hne
      · rw [heq]
        exact hdone.congr rfl rfl rfl

theorem Untouched.otherReleases (h : Untouched c s) {id : String}
    (hstep : s.step c (.otherReleases id) = some t) : Untouched c t := by
  simp only [step] at hstep
  split at hstep
  · simp at hstep
  · rename_i hne
    obtain rfl := Option.some.inj hstep
    refine h.mono rfl rfl rfl fun todo hdone ↦ ?_
    obtain ⟨pool, hrep⟩ := hdone.pool
    refine hdone.other rfl ⟨_, hrep.erase id⟩ ?_ fun _ rule hrule _ ↦ hrule
    show (s.allocations.containers.erase id)[c.id]? = _
    rw [Std.ExtTreeMap.getElem?_erase, if_neg]
    rw [Std.LawfulEqCmp.compare_eq_iff_eq]
    exact hne

theorem Untouched.otherAppends (h : Untouched c s) {id : String} {rule : Rule}
    (hstep : s.step c (.otherAppends id rule) = some t) : Untouched c t := by
  simp only [step] at hstep
  split at hstep
  · obtain rfl := Option.some.inj hstep
    exact h.mono rfl rfl rfl fun todo hdone ↦
      hdone.other rfl hdone.pool rfl fun _ r hr _ ↦ List.mem_append_left _ hr
  · simp at hstep

theorem Untouched.otherDeletes (h : Untouched c s) {id : String} {rule : Rule}
    (hstep : s.step c (.otherDeletes id rule) = some t) : Untouched c t := by
  simp only [step] at hstep
  split at hstep
  · rename_i hhas
    obtain rfl := Option.some.inj hstep
    refine h.mono rfl rfl rfl fun todo hdone ↦
      hdone.other rfl hdone.pool rfl fun hheld r hr hsubnet ↦ ?_
    -- the other container has another subnet
    have hdiff : r ≠ rule := by
      rintro rfl
      exact not_other_of_held hdone.pool hheld hhas.1 (hsubnet ▸ hhas.2)
    exact (List.mem_erase_of_ne hdiff).mpr hr
  · simp at hstep

/-- **Every undisturbed step keeps the teardown in order.** -/
theorem Untouched.step (h : Untouched c s) {a : TeardownAct} (hcond : s.Undisturbed a)
    (hstep : s.step c a = some t) : Untouched c t := by
  cases a with
  | parentCommand fault =>
    obtain rfl : fault = none := hcond
    exact h.parentCommand hstep
  | parentReturn => exact h.parentReturn hstep
  | parentSave answers => exact h.parentSave hcond hstep
  | load host => exact h.load hcond hstep
  | recoveryCommand fault => simp [TeardownSystem.step, h.recovery] at hstep
  | recoverySave now faults => simp [TeardownSystem.step, h.recovery] at hstep
  | otherAllocates id => exact h.otherAllocates hstep
  | otherReleases id => exact h.otherReleases hstep
  | otherAppends id rule => exact h.otherAppends hstep
  | otherDeletes id rule => exact h.otherDeletes hstep

/-- A container is ready to be taken down when it has been given a subnet and set up. -/
theorem ready_of_setupNat {before host : NatHost} {allocations : BridgeAllocations}
    (hheld : allocations.containers[c.id]? = some c.octet)
    (hpool : ∃ pool, Represents allocations pool)
    (hsetup : setupNat {} before (subnetOf c.octet) = (host, .ok c.lease)) :
    Ready c ⟨.stored c.running, host, allocations, [], .cleaning c.script none, none⟩ := by
  obtain ⟨-, -, -, howned, -⟩ := setupNat_eq_ok hsetup
  refine ⟨rfl, hheld, hpool, fun owned hmem ↦ ?_, rfl, rfl, rfl⟩
  rw [howned]
  exact List.mem_append_right _ (List.mem_map_of_mem hmem)

theorem Ready.untouched (h : Ready c s) : Untouched c s := by
  refine ⟨h.recovery, Or.inl ⟨c.script, ?_, h.parent, h.file⟩⟩
  refine ⟨⟨[], rfl, by rw [h.deletions]; rfl⟩, ?_, ?_, h.pool, fun _ ↦ h.allocation, ?_⟩
  · simp [h.deletions]
  · simp [h.deletions]
  · intro _ rule hrule
    rw [deletedRules_script] at hrule
    obtain ⟨owned, howned, rfl⟩ := List.mem_map.mp hrule
    exact h.rules owned howned

/-- What has been deleted when `todo` is left is a part of the owned rules. -/
theorem Orderly.count_le {todo : List TeardownCommand} (h : Orderly c s todo) (rule : Rule) :
    (s.deletions.map Deletion.rule).count rule ≤ 1 := by
  obtain ⟨done, hscript, hdone⟩ := h.done
  have hnodup := nodup_ownedRules c.lease
  rw [← deletedRules_script, hscript, deletedRules_append] at hnodup
  rw [hdone]
  exact List.nodup_iff_count_le_one.mp (List.nodup_append.mp hnodup).1 rule

theorem Orderly.count_eq (h : Orderly c s []) {owned : Rule × String}
    (howned : owned ∈ c.lease.ownedRules) : (s.deletions.map Deletion.rule).count owned.1 = 1 := by
  obtain ⟨done, hscript, hdone⟩ := h.done
  rw [List.append_nil] at hscript
  have hmem : owned.1 ∈ deletedRules c.script := by
    rw [deletedRules_script]
    exact List.mem_map_of_mem howned
  rw [hdone, ← hscript]
  exact List.count_eq_one_of_mem (deletedRules_script c ▸ nodup_ownedRules c.lease) hmem

theorem Untouched.tornDownOnce (h : Untouched c s) : TornDownOnce c s := by
  rcases h.parent with ⟨todo, hdone, hparent, _⟩ | ⟨hdone, hparent, _⟩ | ⟨hdone, hparent, hstate⟩
  · refine ⟨hdone.succeeded, fun owned _ ↦ hdone.count_le _, hdone.own, ?_, ?_, ?_, ?_⟩
    · simp [hparent]
    · simp [hparent]
    · simp [Cleaned, hparent]
    · simp [hparent]
  · refine ⟨hdone.succeeded, fun owned _ ↦ hdone.count_le _, hdone.own, ?_, ?_,
      fun _ owned howned ↦ hdone.count_eq howned, ?_⟩
    · simp [hparent]
    · simp [hparent]
    · simp [hparent]
  · refine ⟨hdone.succeeded, fun owned _ ↦ hdone.count_le _, hdone.own, ?_, ?_,
      fun _ owned howned ↦ hdone.count_eq howned, fun _ ↦ hstate⟩
    · simp [hparent]
    · simp [hparent]

/-- **A single teardown.**  In every interleaving of the runtime process with loads of its state and
with other containers, in which no load finds something to recover and nothing fails for the runtime
process, the container is taken down once. -/
theorem teardown_once {acts : List TeardownAct} (hready : Ready c s)
    (hcond : Along (step c) Undisturbed s acts) (hexec : exec (step c) s acts = some t) :
    TornDownOnce c t :=
  (invariant_along (fun _ _ _ h hcond hstep ↦ Untouched.step h hcond hstep) hready.untouched hcond
    hexec).tornDownOnce

/-! ## A command that fails -/

/-- The cleanup has an error, or has returned it. -/
def Failing (s : TeardownSystem) : Prop :=
  (∃ todo error, s.parent = .cleaning todo (some error)) ∨ ∃ error, s.parent = .failed error

theorem Failing.congr (h : Failing s) (hparent : t.parent = s.parent) : Failing t := by
  rwa [Failing, hparent]

/-- Whatever the others do, the runtime process stays where it is. -/
theorem parent_eq_of_step {a : TeardownAct} (hstep : s.step c a = some t)
    (hparent : ∀ fault, a ≠ .parentCommand fault) (hreturn : a ≠ .parentReturn)
    (hsave : ∀ answers, a ≠ .parentSave answers) : t.parent = s.parent := by
  cases a with
  | parentCommand fault => exact absurd rfl (hparent fault)
  | parentReturn => exact absurd rfl hreturn
  | parentSave answers => exact absurd rfl (hsave answers)
  | load host =>
    simp only [step] at hstep
    split at hstep
    · simp at hstep
    · split at hstep
      · exact Option.some.inj hstep ▸ rfl
      · split at hstep <;> exact Option.some.inj hstep ▸ rfl
  | recoveryCommand fault =>
    simp only [step] at hstep
    split at hstep
    · obtain rfl := Option.some.inj hstep
      exact runCommand_parent s fault _
    · simp at hstep
  | recoverySave now faults =>
    simp only [step] at hstep
    split at hstep
    · split at hstep
      · simp at hstep
      · split at hstep <;> exact Option.some.inj hstep ▸ rfl
    · simp at hstep
  | otherAllocates | otherReleases =>
    simp only [step] at hstep
    split at hstep
    · simp at hstep
    · exact Option.some.inj hstep ▸ rfl
  | otherAppends | otherDeletes =>
    simp only [step] at hstep
    split at hstep
    · exact Option.some.inj hstep ▸ rfl
    · simp at hstep

/-- The first error is kept. -/
theorem Failing.step (h : Failing s) {a : TeardownAct} (hstep : s.step c a = some t) :
    Failing t := by
  cases a with
  | parentCommand fault =>
    rcases h with ⟨todo, error, hcleaning⟩ | ⟨error, hfailed⟩
    · cases todo with
      | nil => simp [TeardownSystem.step, hcleaning] at hstep
      | cons command todo =>
        simp only [TeardownSystem.step, hcleaning] at hstep
        obtain rfl := Option.some.inj hstep
        exact Or.inl ⟨todo, error, rfl⟩
    · simp [TeardownSystem.step, hfailed] at hstep
  | parentReturn =>
    rcases h with ⟨todo, error, hcleaning⟩ | ⟨error, hfailed⟩
    · cases todo with
      | nil =>
        simp only [TeardownSystem.step, hcleaning] at hstep
        obtain rfl := Option.some.inj hstep
        exact Or.inr ⟨error, rfl⟩
      | cons command todo => simp [TeardownSystem.step, hcleaning] at hstep
    · simp [TeardownSystem.step, hfailed] at hstep
  | parentSave answers =>
    rcases h with ⟨todo, error, hcleaning⟩ | ⟨error, hfailed⟩
    · simp [TeardownSystem.step, hcleaning] at hstep
    · simp [TeardownSystem.step, hfailed] at hstep
  | load | recoveryCommand | recoverySave | otherAllocates | otherReleases | otherAppends
  | otherDeletes =>
    exact h.congr (parent_eq_of_step hstep (by simp) (by simp) (by simp))

/-- **A command that fails loses the outcome.**  Once a command of the runtime process has failed, its
cleanup does not return `Ok` in any run, and nothing is saved. -/
theorem not_cleaned_of_fault {fault : CommandFault} {u : TeardownSystem}
    (hcommand : s.step c (.parentCommand (some fault)) = some t) (hreach : Reachable (step c) t u) :
    ¬ u.Cleaned := by
  have hfailing : Failing t := by
    simp only [TeardownSystem.step] at hcommand
    split at hcommand
    · rename_i command todo firstError _
      obtain rfl := Option.some.inj hcommand
      cases firstError with
      | none => exact Or.inl ⟨todo, _, rfl⟩
      | some error => exact Or.inl ⟨todo, error, rfl⟩
    · simp at hcommand
  rcases invariant (fun _ _ _ h hstep ↦ Failing.step h hstep) hfailing hreach with
    ⟨todo, error, hcleaning⟩ | ⟨error, hfailed⟩
  · simp [Cleaned, hcleaning]
  · simp [Cleaned, hfailed]

/-! ## A container that is stopped -/

/-- The first bridge container of a machine, when its process has exited. -/
def webContainer : EndedContainer where
  id := "web"
  octet := 20
  lease := NatSystem.sampleLease (subnetOf 20) "1"
  running :=
    { sampleState "web" 42 7 with
      networkMode := "bridge"
      networkSubnet := some (subnetOf 20)
      natLease := some (NatSystem.sampleLease (subnetOf 20) "1") }
  status := .exited 42 0
  valid := by decide +kernel
  running_id := rfl
  running_status := rfl
  running_network := rfl
  running_lease := rfl
  subnet := rfl

def webSystem : TeardownSystem where
  file := .stored webContainer.running
  host :=
    { rules := [.postrouting (subnetOf 20), .forwardSource (subnetOf 20),
        .forwardDestination (subnetOf 20)]
      ipForward := "1" }
  allocations := ⟨(∅ : Std.ExtTreeMap String UInt8).insert "web" 20⟩
  deletions := []
  parent := .cleaning webContainer.script none
  recovery := none

theorem webSystem_ready : Ready webContainer webSystem where
  file := rfl
  allocation := by simp [webSystem, webContainer]
  pool := by
    have hfree : (Pool.empty : SubnetPool).Free (20 : UInt8).toNat :=
      ⟨by decide, by decide, fun k h ↦ by simp [Pool.empty] at h⟩
    exact ⟨_, represents_empty.insert hfree⟩
  rules := by decide +kernel
  deletions := rfl
  parent := rfl
  recovery := rfl

/-- A machine on which the process is gone. -/
def goneHost : Host where
  proc := fun _ ↦ .absent
  now := some 2000
  fails := fun _ ↦ none

/-- `stop` looks at the state before the runtime process has begun to take it down, and recovers. -/
def stopFirst : List TeardownAct :=
  [.load goneHost] ++ List.replicate 7 (.recoveryCommand none) ++
    List.replicate 6 (.parentCommand none) ++ [.parentReturn, .recoverySave (some 2000) {}]

/-- It has done so when the subnet is given to another container. -/
def stopBefore : List TeardownAct :=
  [.load goneHost] ++ List.replicate 7 (.recoveryCommand none) ++
    [.otherAllocates "db", .otherAppends "db" (.postrouting (subnetOf 20)), .parentCommand none]

/-- The signal a state file has. -/
def recordedSignal : StateFile → Option String
  | .stored state => state.signal
  | .missing | .malformed => none

/-- **The two teardowns meet.**  Either the deletions of the runtime process fail, the cleanup with
them, and the container ends as `STALE`; or they hit the rules of the container that has the subnet
now. -/
theorem recovery_meets_teardown :
    Ready webContainer webSystem ∧
    (∃ t, exec (step webContainer) webSystem stopFirst = some t ∧
      t.parent = .failed "failed to cleanup NAT for 10.88.20.0/24" ∧
      (∃ state, t.file = .stored state ∧ state.signal = some "STALE") ∧
      ¬ TornDownOnce webContainer t) ∧
    ∃ t, exec (step webContainer) webSystem stopBefore = some t ∧
      (t.deletions.map fun deletion ↦
        (deletion.rule, deletion.succeeded, deletion.allocations.containers["db"]?)) =
        [(.postrouting (subnetOf 20), true, none), (.forwardSource (subnetOf 20), true, none),
          (.forwardDestination (subnetOf 20), true, none),
          (.postrouting (subnetOf 20), true, some 20)] := by
  have hfirst : (exec (step webContainer) webSystem stopFirst).map (fun s ↦
      (s.parent, recordedSignal s.file)) =
      some (.failed "failed to cleanup NAT for 10.88.20.0/24", some "STALE") := by
    decide +kernel
  have hbefore : (exec (step webContainer) webSystem stopBefore).map (fun s ↦
      s.deletions.map fun deletion ↦
        (deletion.rule, deletion.succeeded, deletion.allocations.containers["db"]?)) =
      some [(.postrouting (subnetOf 20), true, none), (.forwardSource (subnetOf 20), true, none),
        (.forwardDestination (subnetOf 20), true, none),
        (.postrouting (subnetOf 20), true, some 20)] := by
    decide +kernel
  obtain ⟨t, ht, hresult⟩ := Option.map_eq_some_iff.mp hfirst
  obtain ⟨hparent, hsignal⟩ := Prod.mk.inj hresult
  obtain ⟨t', ht', hdeletions⟩ := Option.map_eq_some_iff.mp hbefore
  refine ⟨webSystem_ready, ⟨t, ht, hparent, ?_, fun h ↦ h.ok _ hparent⟩, t', ht', hdeletions⟩
  cases hfile : t.file with
  | stored state => exact ⟨state, rfl, by rwa [hfile] at hsignal⟩
  | missing | malformed => simp [hfile, recordedSignal] at hsignal

/-- `stop` looks at the state when the outcome is recorded. -/
theorem teardown_once_before_stop :
    ∃ t, exec (step webContainer) webSystem (List.replicate 6 (.parentCommand none) ++
        [.parentReturn, .parentSave {}, .load goneHost]) = some t ∧
      t.parent = .saved ∧ TornDownOnce webContainer t := by
  have hrun : (exec (step webContainer) webSystem (List.replicate 6 (.parentCommand none) ++
      [.parentReturn, .parentSave {}, .load goneHost])).map parent = some .saved := by
    decide +kernel
  obtain ⟨t, ht, hsaved⟩ := Option.map_eq_some_iff.mp hrun
  exact ⟨t, ht, hsaved, teardown_once webSystem_ready (by decide +kernel) ht⟩

end TeardownSystem

end CrunRs.Lifecycle
