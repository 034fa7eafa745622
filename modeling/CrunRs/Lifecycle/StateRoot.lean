import CrunRs.AuditLog
import CrunRs.Lib.Lts
import CrunRs.Lib.OsPath
import CrunRs.Lifecycle.Launch
import CrunRs.Network.Allocations

/-!
# The state root

Everything the runtime keeps is below `/run/crun-rs`.  A container has the directory of its id there,
and the network code has the directory `network`, with the bridge allocations of all containers.

`validate_id` accepts what is one name (`isName_of_validateId`), so that an id does not lead out of the
root, and two ids do not lead into each other's directories.  An operation on a container keeps to its
directory, but that it may release the container's allocation, and nothing else of the allocations
(`keeps_stepRoot`).  But `network` is a name like any other.  A container that is called so lives next
to the allocations, and when it is deleted they go with its directory: `separated_iff` says that this is
the only such id, and `delete_network_forgets` what happens.  Besides, the allocations are written in
place, so that a write that fails may leave none of them (`delete_torn_forgets`).
-/

set_option autoImplicit false

namespace CrunRs.Lifecycle

open Network State

/-! ## Paths -/

/-- `DEFAULT_STATE_ROOT`. -/
def stateRoot : OsPath := .ofString "/run/crun-rs"

/-- `DEFAULT_NETWORK_STATE_ROOT`. -/
def networkRoot : OsPath := .ofString "/run/crun-rs/network"

/-- `container_dir`. -/
def containerDir (id : String) : OsPath := stateRoot.join (.ofString id)

/-- The files of a container. -/
inductive ContainerFile
  | state
  | stateLock
  /-- What `write_state_atomic` renames. -/
  | stateTmp (pid : UInt32)
  | log
  | runtimeLog
  | runtimeLogRotated
  | runtimeLogLock
  | capture

/-- What a file is called. -/
def ContainerFile.name : ContainerFile → String
  | state => "state.json"
  | stateLock => "state.lock"
  | stateTmp pid => "state.json.tmp." ++ String.ofList (Nat.toDigits 10 pid.toNat)
  | log => "container.log"
  | runtimeLog => "runtime.log"
  | runtimeLogRotated => AuditLog.rotatedPath "runtime.log"
  | runtimeLogLock => AuditLog.lockPath "runtime.log"
  | capture => "syscalls.json"

/-- Where it is. -/
def ContainerFile.path (file : ContainerFile) (id : String) : OsPath :=
  (containerDir id).join (.ofString file.name)

/-- `allocations_file`. -/
def allocationsPath : OsPath := networkRoot.join (.ofString "allocations.json")

/-- The lock of `acquire_allocation_lock`, a directory. -/
def allocationsLockPath : OsPath := networkRoot.join (.ofString "allocations.lock")

/-- `lock_owner_file` of the lock. -/
def lockOwnerPath : OsPath := allocationsLockPath.join (.ofString "owner.json")

/-- The files of the runtime itself: the allocations, and what is in their lock. -/
def RuntimePath (path : List (List UInt8)) : Prop :=
  path = allocationsPath.components ∨ allocationsLockPath.components <+: path

/-! ## Ids are names -/

theorem isName_of_validateId {id : String} (h : validateId id = .ok ()) :
    (OsPath.ofString id).IsName := by
  unfold validateId at h
  split at h
  · simp at h
  · rename_i hempty
    split at h
    · simp at h
    · rename_i hvalid
      obtain ⟨hdot, _, hbytes⟩ : id ≠ "." ∧ id ≠ ".." ∧
          ∀ byte ∈ (OsPath.ofString id).bytes, byte ≠ OsPath.separator := by
        refine ⟨fun heq ↦ hvalid (Or.inl heq), fun heq ↦ hvalid (Or.inr (Or.inl heq)), ?_⟩
        intro byte hbyte heq
        refine hvalid (Or.inr (Or.inr ?_))
        rw [Bool.not_eq_true', List.all_eq_false]
        refine ⟨byte, hbyte, ?_⟩
        rw [heq]
        decide
      refine ⟨fun hnil ↦ hempty ?_, fun hmem ↦ hbytes _ hmem rfl, fun heq ↦ hdot ?_⟩
      · have hsame : OsPath.ofString id = OsPath.ofString "" := congrArg OsPath.mk hnil
        rw [OsPath.ofString_injective hsame]
        rfl
      · have hsame : OsPath.ofString id = OsPath.ofString "." := congrArg OsPath.mk heq
        exact OsPath.ofString_injective hsame

theorem ContainerFile.isName (file : ContainerFile) : (OsPath.ofString file.name).IsName := by
  cases file with
  | stateTmp pid =>
    have hdigits : ∀ c ∈ Nat.toDigits 10 pid.toNat, c.isDigit := fun c hc ↦
      Nat.isDigit_of_mem_toDigits (by decide : 0 < 10) (by decide) hc
    have hbytes : (OsPath.ofString (ContainerFile.stateTmp pid).name).bytes =
        (OsPath.ofString "state.json.tmp.").bytes ++
          (Nat.toDigits 10 pid.toNat).map fun c ↦ c.val.toUInt8 := by
      have hname : (ContainerFile.stateTmp pid).name =
          "state.json.tmp." ++ String.ofList (Nat.toDigits 10 pid.toNat) := rfl
      rw [hname, OsPath.bytes_ofString_append "state.json.tmp."]
      exact congrArg _ (OsPath.bytes_ofString_digits hdigits)
    refine ⟨?_, ?_, ?_⟩
    · rw [hbytes]
      exact fun hnil ↦ absurd (List.append_eq_nil_iff.mp hnil).1 (by decide)
    · rw [hbytes, List.mem_append, List.mem_map]
      rintro (hmem | ⟨c, hc, heq⟩)
      · exact absurd hmem (by decide)
      · obtain ⟨hlo, hhi⟩ : 48 ≤ c.toNat ∧ c.toNat ≤ 57 :=
          Char.isDigit_iff_toNat.mp (hdigits c hc)
        have hval := congrArg UInt8.toNat heq
        rw [UInt32.toNat_toUInt8] at hval
        have hmod : c.toNat % 256 = 47 := hval
        omega
    · intro hdot
      have hmem : (115 : UInt8) ∈ (OsPath.ofString (ContainerFile.stateTmp pid).name).bytes := by
        rw [hbytes]
        exact List.mem_append_left _ (by decide)
      rw [hdot] at hmem
      exact absurd hmem (by decide)
  | state | stateLock | log | runtimeLog | runtimeLogRotated | runtimeLogLock | capture => decide

theorem components_path {id : String} (hid : validateId id = .ok ()) (file : ContainerFile) :
    (file.path id).components =
      stateRoot.components ++ [(OsPath.ofString id).bytes, (OsPath.ofString file.name).bytes] := by
  rw [ContainerFile.path, OsPath.components_join file.isName, containerDir,
    OsPath.components_join (isName_of_validateId hid), List.append_assoc]
  rfl

/-- The network root is where the directory of a container called `network` is. -/
theorem components_networkRoot :
    networkRoot.components = stateRoot.components ++ [(OsPath.ofString "network").bytes] := by
  decide +kernel

theorem under_path (id : String) (file : ContainerFile) :
    (containerDir id).components <+: (file.path id).components :=
  OsPath.prefix_join file.isName

/-- No path is in the directories of two containers. -/
theorem not_under_of_ne {id other : String} (hid : validateId id = .ok ())
    (hother : validateId other = .ok ()) (hne : other ≠ id) {path : List (List UInt8)}
    (h : (containerDir id).components <+: path) : ¬ (containerDir other).components <+: path :=
  OsPath.not_prefix_of_ne (isName_of_validateId hid) (isName_of_validateId hother)
    (fun heq ↦ hne (OsPath.ofString_injective heq).symm) h

/-- The files of the runtime are in the directory of the container called `network`, and of no other. -/
theorem under_runtimePath_iff {id : String} (hid : validateId id = .ok ())
    {path : List (List UInt8)} (hpath : RuntimePath path) :
    (containerDir id).components <+: path ↔ id = "network" := by
  have hnetwork : networkRoot.components <+: path := by
    rcases hpath with rfl | hlock
    · exact OsPath.prefix_join (by decide)
    · exact (OsPath.prefix_join (by decide)).trans hlock
  have hroot : (containerDir "network").components <+: path := by
    rw [containerDir, OsPath.components_join (by decide), ← components_networkRoot]
    exact hnetwork
  refine ⟨fun h ↦ ?_, fun heq ↦ heq ▸ hroot⟩
  by_contra hne
  exact not_under_of_ne (by decide +kernel) hid hne hroot h

/-! ## The files -/

/-- What is in a file below the state root. -/
inductive Content
  | state (state : ContainerState)
  | allocations (allocations : BridgeAllocations)
  /-- A log, a lock, a capture, or something that is cut short. -/
  | other

abbrev Tree := FileTree (List UInt8) Content

/-- The state file of a container. -/
def stateFileAt (tree : Tree) (id : String) : StateFile :=
  match tree (ContainerFile.state.path id).components with
  | none => .missing
  | some (.state state) => .stored state
  | some _ => .malformed

/-- The allocations of all containers. -/
def allocationsAt (tree : Tree) : AllocationsFile :=
  match tree allocationsPath.components with
  | none => .missing
  | some (.allocations allocations) => .allocations allocations
  | some _ => .malformed

/-- A file of a container that is not a state is created or written. -/
def touchFile (tree : Tree) (id : String) (file : ContainerFile) : Tree :=
  tree.write (file.path id).components .other

/-- A state that was stored goes to its file. -/
def putState (tree : Tree) (id : String) : StateFile → Tree
  | .stored state => tree.write (ContainerFile.state.path id).components (.state state)
  | .missing | .malformed => tree

def putAllocations (tree : Tree) : AllocationsFile → Tree
  | .allocations allocations => tree.write allocationsPath.components (.allocations allocations)
  | .missing | .malformed => tree

/-! ## The operations -/

/-- `save`; where it fails to write it may leave the temporary file. -/
def saveAt (pid : UInt32) (faults : StoreFaults) (tree : Tree) (state : ContainerState) :
    Tree × Except StateError Unit :=
  match lockState faults state.id with
  | .error e => (tree, .error e)
  | .ok () =>
    let locked := touchFile tree state.id .stateLock
    match writeStateAtomic faults (stateFileAt tree state.id) state with
    | (_, .error e) => (touchFile locked state.id (.stateTmp pid), .error e)
    | (file, .ok ()) => (putState locked state.id file, .ok ())

/-- The lock is given back. -/
def dropLock (tree : Tree) : Tree := tree.removeIn allocationsLockPath.components fun _ ↦ true

/-- What an operation on the allocations that fails leaves of them. -/
inductive Leftover
  /-- It did not get the lock. -/
  | nothing
  /-- It got the lock, and could not write that it is its own. -/
  | lock
  | unlocked
  /-- It emptied the file to write it. -/
  | torn
  deriving DecidableEq

def Leftover.leave (left : Leftover) (tree : Tree) : Tree :=
  match left with
  | nothing => tree
  | lock => tree.write lockOwnerPath.components .other
  | unlocked => dropLock tree
  | torn => dropLock (tree.write allocationsPath.components .other)

/-- `release_bridge_network`, with the error it ends with, if any.  It takes a lock that is stale from
its owner, and gives its own back. -/
def releaseAt (host : Host) (left : Leftover) (tree : Tree) (id : String) : Tree × Option String :=
  match host.fails (.bridgeAllocation id) with
  | some e => (left.leave tree, some e)
  | none => match releaseLocked (allocationsAt tree) id with
    | (file, .ok ()) => (dropLock (putAllocations tree file), none)
    | (_, .error _) => (dropLock tree, some "failed to parse network allocations")

/-- The host, as a recovery finds it with these files. -/
def hostAt (host : Host) (left : Leftover) (tree : Tree) : Host :=
  { host with fails := fun step ↦ match step with
    | .bridgeAllocation id => (releaseAt host left tree id).2
    | step => host.fails step }

/-- What a cleanup step does to the files. -/
def cleanUpAt (host : Host) (left : Leftover) (tree : Tree) : Cleanup → Tree
  | .bridgeAllocation id => (releaseAt host left tree id).1
  | .cgroup _ | .nat _ | .overlay _ | .veth _ => tree

/-- `load_current`.  A temporary file that it leaves would be in the directory of the container, and is
left out. -/
def loadCurrentAt (host : Host) (faults : StoreFaults) (left : Leftover) (tree : Tree) (id : String) :
    Tree × Except StateError ContainerState :=
  match lockState faults id with
  | .error e => (tree, .error e)
  | .ok () =>
    let load := loadCurrentFrom (hostAt host left tree) faults id (stateFileAt tree id)
    (load.cleanups.foldl (cleanUpAt host left) (putState (touchFile tree id .stateLock) id load.file),
      load.result)

/-- `release_state_network_allocation`. -/
def releaseStateAt (host : Host) (left : Leftover) (tree : Tree) (state : ContainerState) :
    Tree × Option String :=
  if state.networkMode ≠ "bridge" then (tree, none) else releaseAt host left tree state.id

/-- How `remove_dir_all` ends: all is gone, or it fails and some is. -/
inductive Removal
  | complete
  | failed (error : StateError) (gone : List (List UInt8) → Bool)

/-- `delete_from`. -/
def deleteAt (host : Host) (faults : StoreFaults) (left : Leftover) (removal : Removal) (tree : Tree)
    (id : String) : Tree × Except StateError Unit :=
  match loadCurrentAt host faults left tree id with
  | (tree, .error e) => (tree, .error e)
  | (tree, .ok state) =>
    if state.status = .running then (tree, .error (.containerIsRunning id))
    else match releaseStateAt host left tree state with
      | (tree, some _) =>
        (tree, .error (.context "failed to release network allocation before deleting state"))
      | (tree, none) => match removal with
        | .complete => (tree.removeIn (containerDir id).components fun _ ↦ true, .ok ())
        | .failed e gone => (tree.removeIn (containerDir id).components gone, .error e)

/-! ## What they leave alone -/

/-- The subnet a container is recorded to have. -/
def allocationOf (tree : Tree) (id : String) : Option UInt8 :=
  match readAllocations (allocationsAt tree) with
  | .ok allocations => allocations.containers[id]?
  | .error _ => none

theorem allocationOf_congr {tree tree' : Tree} (h : allocationsAt tree = allocationsAt tree')
    (id : String) : allocationOf tree id = allocationOf tree' id := by
  rw [allocationOf, h, allocationOf]

/-- Every state file is about the container of its directory. -/
def Consistent (tree : Tree) : Prop :=
  ∀ id state, validateId id = .ok () → stateFileAt tree id = .stored state → state.id = id

/-- The allocations are as before, or the one of the container is released. -/
def Releases (id : String) (tree tree' : Tree) : Prop :=
  tree' allocationsPath.components = tree allocationsPath.components ∨
    ∃ allocations, readAllocations (allocationsAt tree) = .ok allocations ∧
      tree' allocationsPath.components = some (.allocations (releaseRead allocations id))

/-- Outside the directory of the container only the files of the runtime change, and of the allocations
at most its own is released, if no write of them is cut short. -/
structure Keeps (id : String) (left : Leftover) (tree tree' : Tree) : Prop where
  files : ∀ path, ¬ (containerDir id).components <+: path → ¬ RuntimePath path →
    tree' path = tree path
  releases : left ≠ .torn → id ≠ "network" → Releases id tree tree'

theorem validateId_of_lockState {faults : StoreFaults} {id : String}
    (h : lockState faults id = .ok ()) : validateId id = .ok () := by
  rw [lockState] at h
  split at h
  · simp at h
  · assumption

theorem ContainerFile.name_ne_allocations (file : ContainerFile) :
    file.name ≠ "allocations.json" := by
  cases file with
  | stateTmp pid =>
    intro h
    have hhead := congrArg (fun s : String ↦ s.toList.head?) h
    have hname : (ContainerFile.stateTmp pid).name.toList =
        "state.json.tmp.".toList ++ (String.ofList (Nat.toDigits 10 pid.toNat)).toList :=
      String.toList_append
    rw [hname] at hhead
    exact absurd hhead (by simp)
  | state | stateLock | log | runtimeLog | runtimeLogRotated | runtimeLogLock | capture => decide

/-- No file of a container is where the allocations are, whatever the container is called. -/
theorem path_ne_allocationsPath {id : String} (hid : validateId id = .ok ()) (file : ContainerFile) :
    allocationsPath.components ≠ (file.path id).components := by
  intro h
  have hname : (OsPath.ofString "allocations.json").IsName := by decide
  rw [components_path hid, allocationsPath, OsPath.components_join hname, components_networkRoot,
    List.append_assoc, List.append_cancel_left_eq] at h
  have hbytes : (OsPath.ofString "allocations.json").bytes = (OsPath.ofString file.name).bytes :=
    (List.cons.inj (List.cons.inj h).2).1
  exact file.name_ne_allocations (OsPath.ofString_injective (congrArg OsPath.mk hbytes)).symm

theorem path_state_injective {id id' : String} (hid : validateId id = .ok ())
    (hid' : validateId id' = .ok ()) {file : ContainerFile}
    (h : (ContainerFile.state.path id).components = (file.path id').components) : id = id' := by
  rw [components_path hid, components_path hid', List.append_cancel_left_eq] at h
  exact OsPath.ofString_injective (congrArg OsPath.mk (List.cons.inj h).1)

theorem allocationsAt_congr {tree tree' : Tree}
    (h : tree' allocationsPath.components = tree allocationsPath.components) :
    allocationsAt tree' = allocationsAt tree := by
  rw [allocationsAt, h, allocationsAt]

theorem allocationsAt_write {tree : Tree} {id : String} (hid : validateId id = .ok ())
    (file : ContainerFile) (content : Content) :
    allocationsAt (tree.write (file.path id).components content) = allocationsAt tree :=
  allocationsAt_congr (FileTree.write_of_ne _ _ (path_ne_allocationsPath hid file))

theorem allocationsAt_putState {tree : Tree} {id : String} (hid : validateId id = .ok ())
    (file : StateFile) : allocationsAt (putState tree id file) = allocationsAt tree := by
  cases file with
  | stored state => exact allocationsAt_write hid .state _
  | missing | malformed => rfl

theorem dropLock_allocations (tree : Tree) :
    dropLock tree allocationsPath.components = tree allocationsPath.components :=
  FileTree.removeIn_of_not_prefix _ _ (by decide +kernel)

theorem allocationOf_putAllocations {tree : Tree} (allocations : BridgeAllocations) (id : String) :
    allocationOf (putAllocations tree (.allocations allocations)) id =
      allocations.containers[id]? := by
  rw [allocationOf, allocationsAt, putAllocations, FileTree.write_same]
  rfl

section Frame

variable {tree tree' tree'' : Tree} {host : Host} {faults : StoreFaults} {left : Leftover}
  {id : String}

/-- Releasing twice is releasing once. -/
theorem releaseRead_releaseRead (allocations : BridgeAllocations) (id : String) :
    releaseRead (releaseRead allocations id) id = releaseRead allocations id := by
  rw [releaseRead, releaseRead, BridgeAllocations.mk.injEq]
  refine Std.ExtTreeMap.ext_getElem? fun other ↦ ?_
  simp only [Std.ExtTreeMap.getElem?_erase]
  split <;> rfl

theorem Releases.trans (h : Releases id tree tree') (h' : Releases id tree' tree'') :
    Releases id tree tree'' := by
  rcases h with hsame | ⟨allocations, hread, hreleased⟩
  · rcases h' with hsame' | ⟨allocations, hread, hreleased⟩
    · exact .inl (hsame'.trans hsame)
    · exact .inr ⟨allocations, allocationsAt_congr hsame ▸ hread, hreleased⟩
  · have hat : allocationsAt tree' = .allocations (releaseRead allocations id) := by
      rw [allocationsAt, hreleased]
    rcases h' with hsame | ⟨again, hread', hreleased'⟩
    · exact .inr ⟨allocations, hread, hsame.trans hreleased⟩
    · rw [hat] at hread'
      obtain rfl := Except.ok.inj hread'
      rw [releaseRead_releaseRead] at hreleased'
      exact .inr ⟨allocations, hread, hreleased'⟩

/-- A release is about one container. -/
theorem Releases.allocationOf {other : String} (h : Releases id tree tree') (hne : other ≠ id) :
    allocationOf tree' other = allocationOf tree other := by
  rcases h with hsame | ⟨allocations, hread, hreleased⟩
  · exact allocationOf_congr (allocationsAt_congr hsame) other
  · have hat : allocationsAt tree' = .allocations (releaseRead allocations id) := by
      rw [allocationsAt, hreleased]
    have hcompare : compare id other ≠ .eq := fun heq ↦
      hne (Std.LawfulEqCmp.compare_eq_iff_eq.mp heq).symm
    have hreread : readAllocations (.allocations (releaseRead allocations id)) =
        .ok (releaseRead allocations id) := rfl
    rw [Lifecycle.allocationOf, hat, hreread, Lifecycle.allocationOf, hread]
    simp only [releaseRead, Std.ExtTreeMap.getElem?_erase, if_neg hcompare]

theorem Keeps.refl (id : String) (left : Leftover) (tree : Tree) : Keeps id left tree tree :=
  ⟨fun _ _ _ ↦ rfl, fun _ _ ↦ .inl rfl⟩

theorem Keeps.trans (h : Keeps id left tree tree') (h' : Keeps id left tree' tree'') :
    Keeps id left tree tree'' where
  files path hpath hne := (h'.files path hpath hne).trans (h.files path hpath hne)
  releases htorn hnetwork := (h.releases htorn hnetwork).trans (h'.releases htorn hnetwork)

theorem keeps_write (hid : validateId id = .ok ()) (tree : Tree) (file : ContainerFile)
    (content : Content) : Keeps id left tree (tree.write (file.path id).components content) where
  files path hpath _ := by
    refine FileTree.write_of_ne _ _ fun heq ↦ hpath ?_
    rw [heq]
    exact under_path id file
  releases _ _ := .inl (FileTree.write_of_ne _ _ (path_ne_allocationsPath hid file))

theorem keeps_touchFile (hid : validateId id = .ok ()) (tree : Tree) (file : ContainerFile) :
    Keeps id left tree (touchFile tree id file) := keeps_write hid tree file _

theorem keeps_putState (hid : validateId id = .ok ()) (tree : Tree) (file : StateFile) :
    Keeps id left tree (putState tree id file) := by
  cases file with
  | stored state => exact keeps_write hid tree .state _
  | missing | malformed => exact Keeps.refl id left tree

theorem keeps_removeIn (hid : validateId id = .ok ()) (tree : Tree)
    (gone : List (List UInt8) → Bool) :
    Keeps id left tree (tree.removeIn (containerDir id).components gone) where
  files _ hpath _ := FileTree.removeIn_of_not_prefix _ _ hpath
  releases _ hne := .inl (FileTree.removeIn_of_not_prefix _ _ fun h ↦
    hne ((under_runtimePath_iff hid (.inl rfl)).mp h))

theorem keeps_dropLock (id : String) (left : Leftover) (tree : Tree) :
    Keeps id left tree (dropLock tree) where
  files _ _ hruntime := FileTree.removeIn_of_not_prefix _ _ fun h ↦ hruntime (.inr h)
  releases _ _ := .inl (dropLock_allocations tree)

theorem keeps_leave (id : String) (left : Leftover) (tree : Tree) :
    Keeps id left tree (left.leave tree) := by
  cases left with
  | nothing => exact Keeps.refl id _ tree
  | lock =>
    refine ⟨fun path _ hruntime ↦ FileTree.write_of_ne _ _ fun heq ↦ hruntime (.inr ?_),
      fun _ _ ↦ .inl (FileTree.write_of_ne _ _ (by decide +kernel))⟩
    rw [heq]
    exact OsPath.prefix_join (by decide)
  | unlocked => exact keeps_dropLock id _ tree
  | torn =>
    refine Keeps.trans ?_ (keeps_dropLock id _ _)
    exact ⟨fun _ _ hruntime ↦ FileTree.write_of_ne _ _ fun heq ↦ hruntime (.inl heq),
      fun htorn ↦ absurd rfl htorn⟩

theorem keeps_releaseAt (host : Host) (left : Leftover) (tree : Tree) (id : String) :
    Keeps id left tree (releaseAt host left tree id).1 := by
  rw [releaseAt]
  split
  · exact keeps_leave id left tree
  · cases hread : readAllocations (allocationsAt tree) with
    | error e =>
      rw [releaseLocked, hread]
      exact keeps_dropLock id left tree
    | ok allocations =>
      rw [releaseLocked_eq id hread]
      refine Keeps.trans ?_ (keeps_dropLock id left
        (putAllocations tree (.allocations (releaseRead allocations id))))
      exact ⟨fun _ _ hruntime ↦ FileTree.write_of_ne _ _ fun heq ↦ hruntime (.inl heq),
        fun _ _ ↦ .inr ⟨allocations, hread, FileTree.write_same ..⟩⟩

theorem keeps_cleanups (host : Host) (left : Leftover) (tree : Tree) {cleanups : List Cleanup}
    (hids : ∀ released, .bridgeAllocation released ∈ cleanups → released = id) :
    Keeps id left tree (cleanups.foldl (cleanUpAt host left) tree) := by
  induction cleanups generalizing tree with
  | nil => exact Keeps.refl id left tree
  | cons step cleanups ih =>
    have hstep : Keeps id left tree (cleanUpAt host left tree step) := by
      cases step with
      | bridgeAllocation released =>
        rw [hids released List.mem_cons_self]
        exact keeps_releaseAt host left tree id
      | cgroup | nat | overlay | veth => exact Keeps.refl id left tree
    exact hstep.trans (ih _ fun released h ↦ hids released (List.mem_cons_of_mem step h))

/-- **`save` keeps to the directory.** -/
theorem keeps_saveAt (pid : UInt32) (faults : StoreFaults) (tree : Tree) (state : ContainerState) :
    Keeps state.id left tree (saveAt pid faults tree state).1 := by
  rw [saveAt]
  split
  · exact Keeps.refl _ left tree
  · rename_i hlock
    have hid := validateId_of_lockState hlock
    have hlocked : Keeps state.id left tree (touchFile tree state.id .stateLock) :=
      keeps_touchFile hid tree .stateLock
    rcases writeStateAtomic faults (stateFileAt tree state.id) state with ⟨file, _ | _⟩
    · exact hlocked.trans (keeps_touchFile hid _ _)
    · exact hlocked.trans (keeps_putState hid _ file)

/-- **`load_current` keeps to the directory**, but for a stale container's allocation. -/
theorem keeps_loadCurrentAt (hcons : Consistent tree) :
    Keeps id left tree (loadCurrentAt host faults left tree id).1 := by
  rw [loadCurrentAt]
  split
  · exact Keeps.refl id left tree
  · rename_i hlock
    have hid := validateId_of_lockState hlock
    have hcleanups := (@loadCurrentFrom_id (hostAt host left tree) faults id _
      (fun state h ↦ hcons id state hid h)).2
    exact ((keeps_touchFile hid tree .stateLock).trans (keeps_putState hid _ _)).trans
      (keeps_cleanups host left _ hcleanups)

/-- What is loaded is a state of the container. -/
theorem id_of_loadCurrentAt (hcons : Consistent tree) {loaded : Tree} {state : ContainerState}
    (h : loadCurrentAt host faults left tree id = (loaded, .ok state)) :
    validateId id = .ok () ∧ state.id = id := by
  rw [loadCurrentAt] at h
  split at h
  · simp at h
  · rename_i hlock
    have hid := validateId_of_lockState hlock
    have hfile := (@loadCurrentFrom_id (hostAt host left tree) faults id _
      (fun state h ↦ hcons id state hid h)).1
    exact ⟨hid, hfile state (loadCurrentFrom_eq_ok (Prod.mk.inj h).2)⟩

theorem keeps_releaseStateAt (host : Host) (left : Leftover) (tree : Tree) (state : ContainerState) :
    Keeps state.id left tree (releaseStateAt host left tree state).1 := by
  rw [releaseStateAt]
  split
  · exact Keeps.refl _ left tree
  · exact keeps_releaseAt host left tree state.id

/-- **`delete` keeps to the directory**, but for the container's allocation. -/
theorem keeps_deleteAt (hcons : Consistent tree) (removal : Removal) :
    Keeps id left tree (deleteAt host faults left removal tree id).1 := by
  have hload := @keeps_loadCurrentAt tree host faults left id hcons
  rw [deleteAt]
  split
  · rename_i hresult
    rwa [hresult] at hload
  · rename_i loaded state hresult
    rw [hresult] at hload
    obtain ⟨hid, hown⟩ := id_of_loadCurrentAt hcons hresult
    have hrelease : Keeps id left tree (releaseStateAt host left loaded state).1 :=
      hload.trans (hown ▸ keeps_releaseStateAt host left loaded state)
    split
    · exact hload
    · split
      · rename_i hreleased
        rwa [hreleased] at hrelease
      · rename_i hreleased
        rw [hreleased] at hrelease
        cases removal with
        | complete => exact hrelease.trans (keeps_removeIn hid _ _)
        | failed e gone => exact hrelease.trans (keeps_removeIn hid _ gone)

end Frame

/-! ## What they look at -/

/-- The trees agree on what is in the directory of the container, and on the files of the runtime. -/
def Agree (id : String) (tree tree' : Tree) : Prop :=
  ∀ path, (containerDir id).components <+: path ∨ RuntimePath path → tree' path = tree path

section Agree

variable {tree tree' : Tree} {id : String}

theorem stateFileAt_of_agree (h : Agree id tree tree') :
    stateFileAt tree' id = stateFileAt tree id := by
  rw [stateFileAt, h _ (.inl (under_path id .state)), stateFileAt]

theorem allocationsAt_of_agree (h : Agree id tree tree') : allocationsAt tree' = allocationsAt tree :=
  allocationsAt_congr (h _ (.inr (.inl rfl)))

theorem agree_write (h : Agree id tree tree') (path : List (List UInt8)) (content : Content) :
    Agree id (tree.write path content) (tree'.write path content) := by
  intro other hother
  by_cases heq : other = path
  · rw [heq, FileTree.write_same, FileTree.write_same]
  · rw [FileTree.write_of_ne _ _ heq, FileTree.write_of_ne _ _ heq, h other hother]

theorem agree_putState (h : Agree id tree tree') (id' : String) (file : StateFile) :
    Agree id (putState tree id' file) (putState tree' id' file) := by
  cases file with
  | stored state => exact agree_write h _ _
  | missing | malformed => exact h

theorem agree_putAllocations (h : Agree id tree tree') (file : AllocationsFile) :
    Agree id (putAllocations tree file) (putAllocations tree' file) := by
  cases file with
  | allocations allocations => exact agree_write h _ _
  | missing | malformed => exact h

theorem agree_removeIn (h : Agree id tree tree') (dir : List (List UInt8))
    (gone : List (List UInt8) → Bool) :
    Agree id (tree.removeIn dir gone) (tree'.removeIn dir gone) := by
  intro path hpath
  rw [FileTree.removeIn, h path hpath, FileTree.removeIn]

theorem agree_releaseAt (h : Agree id tree tree') (host : Host) (left : Leftover) (id' : String) :
    Agree id (releaseAt host left tree id').1 (releaseAt host left tree' id').1 ∧
      (releaseAt host left tree' id').2 = (releaseAt host left tree id').2 := by
  rw [releaseAt, releaseAt, allocationsAt_of_agree h]
  split
  · refine ⟨?_, rfl⟩
    cases left with
    | nothing => exact h
    | lock => exact agree_write h _ _
    | unlocked => exact agree_removeIn h _ _
    | torn => exact agree_removeIn (agree_write h _ _) _ _
  · split
    · exact ⟨agree_removeIn (agree_putAllocations h _) _ _, rfl⟩
    · exact ⟨agree_removeIn h _ _, rfl⟩

theorem hostAt_of_agree (h : Agree id tree tree') (host : Host) (left : Leftover) :
    hostAt host left tree' = hostAt host left tree := by
  rw [hostAt, hostAt]
  refine congrArg (fun fails ↦ { host with fails := fails }) (funext fun step ↦ ?_)
  cases step with
  | bridgeAllocation id' => exact (agree_releaseAt h host left id').2
  | cgroup | nat | overlay | veth => rfl

theorem agree_cleanUps (h : Agree id tree tree') (host : Host) (left : Leftover)
    (cleanups : List Cleanup) :
    Agree id (cleanups.foldl (cleanUpAt host left) tree)
      (cleanups.foldl (cleanUpAt host left) tree') := by
  induction cleanups generalizing tree tree' with
  | nil => exact h
  | cons step cleanups ih =>
    refine ih ?_
    cases step with
    | bridgeAllocation id' => exact (agree_releaseAt h host left id').1
    | cgroup | nat | overlay | veth => exact h

theorem agree_saveAt {state : ContainerState} (h : Agree state.id tree tree') (pid : UInt32)
    (faults : StoreFaults) :
    Agree state.id (saveAt pid faults tree state).1 (saveAt pid faults tree' state).1 ∧
      (saveAt pid faults tree' state).2 = (saveAt pid faults tree state).2 := by
  rw [saveAt, saveAt]
  split
  · exact ⟨h, rfl⟩
  · rw [stateFileAt_of_agree h]
    have hlocked := agree_write h (ContainerFile.stateLock.path state.id).components .other
    split
    · exact ⟨agree_write hlocked _ _, rfl⟩
    · exact ⟨agree_putState hlocked _ _, rfl⟩

theorem agree_loadCurrentAt (h : Agree id tree tree') (host : Host) (faults : StoreFaults)
    (left : Leftover) :
    Agree id (loadCurrentAt host faults left tree id).1 (loadCurrentAt host faults left tree' id).1 ∧
      (loadCurrentAt host faults left tree' id).2 =
        (loadCurrentAt host faults left tree id).2 := by
  rw [loadCurrentAt, loadCurrentAt]
  split
  · exact ⟨h, rfl⟩
  · rw [stateFileAt_of_agree h, hostAt_of_agree h host left]
    exact ⟨agree_cleanUps (agree_putState (agree_write h _ _) _ _) host left _, rfl⟩

theorem agree_releaseStateAt (h : Agree id tree tree') (host : Host) (left : Leftover)
    (state : ContainerState) :
    Agree id (releaseStateAt host left tree state).1 (releaseStateAt host left tree' state).1 ∧
      (releaseStateAt host left tree' state).2 =
        (releaseStateAt host left tree state).2 := by
  rw [releaseStateAt, releaseStateAt]
  split
  · exact ⟨h, rfl⟩
  · exact agree_releaseAt h host left state.id

theorem agree_deleteAt (h : Agree id tree tree') (host : Host) (faults : StoreFaults) (left : Leftover)
    (removal : Removal) :
    Agree id (deleteAt host faults left removal tree id).1
        (deleteAt host faults left removal tree' id).1 ∧
      (deleteAt host faults left removal tree' id).2 =
        (deleteAt host faults left removal tree id).2 := by
  obtain ⟨hload, hresult⟩ := agree_loadCurrentAt h host faults left
  rw [deleteAt, deleteAt]
  rcases hone : loadCurrentAt host faults left tree id with ⟨loaded, r⟩
  rcases htwo : loadCurrentAt host faults left tree' id with ⟨loaded', r'⟩
  rw [hone, htwo] at hload hresult
  dsimp only at hload hresult
  subst hresult
  cases r' with
  | error e => exact ⟨hload, rfl⟩
  | ok state =>
    dsimp only
    split
    · exact ⟨hload, rfl⟩
    · obtain ⟨hrelease, hreleased⟩ := agree_releaseStateAt hload host left state
      rcases hthree : releaseStateAt host left loaded state with ⟨released, failure⟩
      rcases hfour : releaseStateAt host left loaded' state with ⟨released', failure'⟩
      rw [hthree, hfour] at hrelease hreleased
      dsimp only at hrelease hreleased
      subst hreleased
      cases failure' with
      | some e => exact ⟨hrelease, rfl⟩
      | none =>
        cases removal with
        | complete => exact ⟨agree_removeIn hrelease _ _, rfl⟩
        | failed e gone => exact ⟨agree_removeIn hrelease _ gone, rfl⟩

end Agree

/-! ## The files of a runtime -/

variable {tree : Tree} {host : Host} {faults : StoreFaults} {left : Leftover} {id : String}

/-- Whatever the runtime does below its root. -/
inductive RootOp
  | save (pid : UInt32) (faults : StoreFaults) (state : ContainerState)
  | loadCurrent (host : Host) (faults : StoreFaults) (left : Leftover) (id : String)
  | delete (host : Host) (faults : StoreFaults) (left : Leftover) (removal : Removal) (id : String)
  /-- The audit log, the log of the container, and the capture. -/
  | write (id : String) (file : ContainerFile)
  | allocate (id : String)
  /-- One that fails. -/
  | allocateFails (left : Leftover)
  | release (host : Host) (left : Leftover) (id : String)

def stepRoot (tree : Tree) : RootOp → Tree
  | .save pid faults state => (saveAt pid faults tree state).1
  | .loadCurrent host faults left id => (loadCurrentAt host faults left tree id).1
  | .delete host faults left removal id => (deleteAt host faults left removal tree id).1
  | .write id file => match validateId id with
    | .ok () => touchFile tree id file
    | .error _ => tree
  | .allocate id => dropLock (putAllocations tree (allocateLocked (allocationsAt tree) id).1)
  | .allocateFails left => left.leave tree
  | .release host left id => (releaseAt host left tree id).1

/-- The container it is about, if it is not one on the allocations. -/
def RootOp.container : RootOp → Option String
  | .save _ _ state => some state.id
  | .loadCurrent _ _ _ id => some id
  | .delete _ _ _ _ id => some id
  | .write id _ => some id
  | .allocate _ | .allocateFails _ | .release _ _ _ => none

/-- What a release in it leaves if it fails. -/
def RootOp.leftover : RootOp → Leftover
  | .loadCurrent _ _ left _ => left
  | .delete _ _ left _ _ => left
  | .allocateFails left => left
  | .release _ left _ => left
  | .save _ _ _ | .write _ _ | .allocate _ => .nothing

/-- What it comes to, and the state if it loads one. -/
def answerRoot (tree : Tree) : RootOp → Except StateError (Option ContainerState)
  | .save pid faults state => (saveAt pid faults tree state).2.map fun _ ↦ none
  | .loadCurrent host faults left id => (loadCurrentAt host faults left tree id).2.map some
  | .delete host faults left removal id =>
    (deleteAt host faults left removal tree id).2.map fun _ ↦ none
  | .write id _ => (validateId id).map fun _ ↦ none
  | .allocate _ | .allocateFails _ | .release _ _ _ => .ok none

/-- The trees the runtime makes of an empty one. -/
def ReachableRoot (tree : Tree) : Prop :=
  Lts.Reachable (fun tree op ↦ some (stepRoot tree op)) FileTree.empty tree

theorem stateFileAt_eq_stored {state : ContainerState} :
    stateFileAt tree id = .stored state ↔
      tree (ContainerFile.state.path id).components = some (.state state) := by
  rw [stateFileAt]
  split <;> simp_all

/-- Writing anything but a state makes no state file. -/
theorem Consistent.write (h : Consistent tree) {content : Content}
    (hcontent : ∀ state, content ≠ .state state) (path : List (List UInt8)) :
    Consistent (tree.write path content) := by
  intro id state hid hstored
  rw [stateFileAt_eq_stored] at hstored
  by_cases hpath : (ContainerFile.state.path id).components = path
  · rw [← hpath, FileTree.write_same] at hstored
    exact absurd (Option.some.inj hstored) (hcontent state)
  · rw [FileTree.write_of_ne _ _ hpath] at hstored
    exact h id state hid (stateFileAt_eq_stored.mpr hstored)

theorem Consistent.putState (h : Consistent tree) (hid : validateId id = .ok ()) {file : StateFile}
    (hfile : ∀ state, file = .stored state → state.id = id) :
    Consistent (putState tree id file) := by
  cases file with
  | missing | malformed => exact h
  | stored stored =>
    intro id' state hid' hstate
    rw [stateFileAt_eq_stored, Lifecycle.putState] at hstate
    by_cases hpath : (ContainerFile.state.path id').components =
        (ContainerFile.state.path id).components
    · rw [hpath, FileTree.write_same] at hstate
      rw [path_state_injective hid' hid hpath, ← Content.state.inj (Option.some.inj hstate)]
      exact hfile stored rfl
    · rw [FileTree.write_of_ne _ _ hpath] at hstate
      exact h id' state hid' (stateFileAt_eq_stored.mpr hstate)

theorem Consistent.removeIn (h : Consistent tree) (dir : List (List UInt8))
    (gone : List (List UInt8) → Bool) : Consistent (tree.removeIn dir gone) := by
  intro id state hid hstate
  rw [stateFileAt_eq_stored] at hstate
  exact h id state hid (stateFileAt_eq_stored.mpr (FileTree.removeIn_eq_some hstate))

theorem Consistent.putAllocations (h : Consistent tree) (file : AllocationsFile) :
    Consistent (putAllocations tree file) := by
  cases file with
  | missing | malformed => exact h
  | allocations allocations => exact h.write (by simp) _

theorem Consistent.touchFile (h : Consistent tree) (id : String) (file : ContainerFile) :
    Consistent (touchFile tree id file) := h.write (by simp) _

theorem Consistent.dropLock (h : Consistent tree) : Consistent (dropLock tree) := h.removeIn _ _

theorem Consistent.leave (h : Consistent tree) (left : Leftover) : Consistent (left.leave tree) := by
  cases left with
  | nothing => exact h
  | lock => exact h.write (by simp) _
  | unlocked => exact h.dropLock
  | torn => exact Consistent.dropLock (h.write (by simp) _)

theorem Consistent.releaseAt (h : Consistent tree) (host : Host) (left : Leftover) (id : String) :
    Consistent (releaseAt host left tree id).1 := by
  rw [Lifecycle.releaseAt]
  split
  · exact h.leave left
  · split
    · exact Consistent.dropLock (h.putAllocations _)
    · exact h.dropLock

theorem Consistent.cleanUps (h : Consistent tree) (host : Host) (left : Leftover)
    (cleanups : List Cleanup) : Consistent (cleanups.foldl (cleanUpAt host left) tree) := by
  induction cleanups generalizing tree with
  | nil => exact h
  | cons step cleanups ih =>
    refine ih ?_
    cases step with
    | bridgeAllocation id => exact h.releaseAt host left id
    | cgroup | nat | overlay | veth => exact h

theorem Consistent.loadCurrentAt (h : Consistent tree) (host : Host) (faults : StoreFaults)
    (left : Leftover) (id : String) : Consistent (loadCurrentAt host faults left tree id).1 := by
  rw [Lifecycle.loadCurrentAt]
  split
  · exact h
  · rename_i hlock
    have hid := validateId_of_lockState hlock
    have hfile := (@loadCurrentFrom_id (hostAt host left tree) faults id _
      (fun state hstate ↦ h id state hid hstate)).1
    exact ((h.touchFile id .stateLock).putState hid hfile).cleanUps host left _

theorem Consistent.deleteAt (h : Consistent tree) (host : Host) (faults : StoreFaults) (left : Leftover)
    (removal : Removal) (id : String) :
    Consistent (deleteAt host faults left removal tree id).1 := by
  have hload := h.loadCurrentAt host faults left id
  rw [Lifecycle.deleteAt]
  split
  · rename_i hresult
    rw [hresult] at hload
    exact hload
  · rename_i loaded state hresult
    rw [hresult] at hload
    have hrelease : Consistent (releaseStateAt host left loaded state).1 := by
      rw [releaseStateAt]
      split
      · exact hload
      · exact Consistent.releaseAt hload host left _
    split
    · exact hload
    · split
      · rename_i hreleased
        rw [hreleased] at hrelease
        exact hrelease
      · rename_i hreleased
        rw [hreleased] at hrelease
        cases removal with
        | complete => exact Consistent.removeIn hrelease _ _
        | failed e gone => exact Consistent.removeIn hrelease _ _

theorem Consistent.saveAt (h : Consistent tree) (pid : UInt32) (faults : StoreFaults)
    (state : ContainerState) : Consistent (saveAt pid faults tree state).1 := by
  rw [Lifecycle.saveAt]
  split
  · exact h
  · have hlocked := h.touchFile state.id .stateLock
    rcases writeStateAtomic_cases faults (stateFileAt tree state.id) state with hwrite | ⟨e, hwrite⟩
    · have hid : validateId state.id = .ok () := by
        rw [writeStateAtomic] at hwrite
        split at hwrite
        · simp at hwrite
        · assumption
      rw [hwrite]
      show Consistent (Lifecycle.putState _ state.id (.stored state))
      refine hlocked.putState hid fun stored hstored ↦ ?_
      rw [← StateFile.stored.inj hstored]
    · rw [hwrite]
      exact hlocked.touchFile _ _

/-- **Every operation leaves the state files with their containers.** -/
theorem Consistent.stepRoot (h : Consistent tree) (op : RootOp) :
    Consistent (stepRoot tree op) := by
  cases op with
  | save pid faults state => exact h.saveAt pid faults state
  | loadCurrent host faults left id => exact h.loadCurrentAt host faults left id
  | delete host faults left removal id => exact h.deleteAt host faults left removal id
  | write id file =>
    rw [Lifecycle.stepRoot]
    split
    · exact h.touchFile id file
    · exact h
  | allocate id => exact Consistent.dropLock (h.putAllocations _)
  | allocateFails left => exact h.leave left
  | release host left id => exact h.releaseAt host left id

theorem consistent_of_reachable (h : ReachableRoot tree) : Consistent tree := by
  have hempty : Consistent FileTree.empty := by
    intro id state hid hstate
    rw [stateFileAt_eq_stored] at hstate
    exact absurd hstate (Option.some_ne_none _).symm
  refine Lts.invariant (fun tree op tree' hcons hstep ↦ ?_) hempty h
  rw [← Option.some.inj hstep]
  exact hcons.stepRoot op

/-! ## Two ways to lose the allocations -/

/-- A stopped container without a network. -/
def stoppedSample (id : String) : ContainerState :=
  { sampleState id 42 7 with pid := none, processStarttime := none, status := .stopped }

/-- A stopped container on the bridge. -/
def bridgeSample (id : String) : ContainerState := { stoppedSample id with networkMode := "bridge" }

/-- A container has a subnet, and then another one is saved. -/
def savedTree (other : String) (state : ContainerState) : Tree :=
  stepRoot (stepRoot FileTree.empty (.allocate other)) (.save 1 {} state)

/-- The other one is called `network`. -/
def networkTree : Tree := savedTree "web" (stoppedSample "network")

theorem savedTree_reachable (other : String) (state : ContainerState) :
    ReachableRoot (savedTree other state) :=
  ⟨[.allocate other, .save 1 {} state], rfl⟩

theorem savedTree_eq (other : String) {state : ContainerState} (hid : validateId state.id = .ok ()) :
    savedTree other state =
      putState (touchFile (stepRoot FileTree.empty (.allocate other)) state.id .stateLock) state.id
        (.stored state) := by
  rw [savedTree, stepRoot, saveAt]
  simp only [lockState, hid, Option.elim_none, writeStateAtomic]

theorem allocationOf_savedTree (other : String) {state : ContainerState}
    (hid : validateId state.id = .ok ()) : allocationOf (savedTree other state) other = some 20 := by
  have hfree : nextFreeBridgeOctet {} = .ok 20 := by
    have hrange : List.range' bridgeOctetStart.toNat 200 = 20 :: List.range' 21 199 := rfl
    rw [nextFreeBridgeOctet, hrange, List.find?_cons_of_pos]
    · rfl
    · simp
  have hnew : (allocateLocked .missing other).1 =
      .allocations ⟨(∅ : Std.ExtTreeMap String UInt8).insert other 20⟩ := by
    rw [allocateLocked_eq other readAllocations_missing, allocateRead]
    simp [hfree, saveAllocations]
  have hallocated : stepRoot FileTree.empty (.allocate other) = dropLock (putAllocations
      FileTree.empty (.allocations ⟨(∅ : Std.ExtTreeMap String UInt8).insert other 20⟩)) := by
    rw [← hnew]
    rfl
  have hsame : allocationsAt (savedTree other state) = allocationsAt (putAllocations FileTree.empty
      (.allocations ⟨(∅ : Std.ExtTreeMap String UInt8).insert other 20⟩)) := by
    rw [savedTree_eq other hid, allocationsAt_putState hid, touchFile, allocationsAt_write hid,
      hallocated, allocationsAt_congr (dropLock_allocations _)]
  rw [allocationOf_congr hsame, allocationOf_putAllocations]
  simp

/-- A stopped container is loaded as it is. -/
theorem loadCurrentAt_savedTree (host : Host) (left : Leftover) (other : String) {state : ContainerState}
    (hid : validateId state.id = .ok ()) (hstatus : state.status = .stopped) :
    ∃ loaded, loadCurrentAt host {} left (savedTree other state) state.id = (loaded, .ok state) := by
  have hstored : stateFileAt (savedTree other state) state.id = .stored state := by
    rw [stateFileAt_eq_stored, savedTree_eq other hid, putState, FileTree.write_same]
  have hstopped : state.status ≠ .running := by simp [hstatus]
  simp only [loadCurrentAt, lockState, hid, Option.elim_none, hstored, loadCurrentFrom, loadFrom,
    refreshLiveness, if_pos hstopped]
  exact ⟨_, rfl⟩

/-- Deleting `network` deletes the allocations of the others. -/
theorem allocationOf_delete_networkTree (left : Leftover) :
    (deleteAt bareHost {} left .complete networkTree "network").2 = .ok () ∧
      allocationOf (deleteAt bareHost {} left .complete networkTree "network").1 "web" = none := by
  obtain ⟨loaded, hload⟩ := @loadCurrentAt_savedTree bareHost left "web" (stoppedSample "network")
    (by decide +kernel) rfl
  have hload : loadCurrentAt bareHost {} left networkTree "network" =
      (loaded, .ok (stoppedSample "network")) := hload
  have hdelete : deleteAt bareHost {} left .complete networkTree "network" =
      (loaded.removeIn (containerDir "network").components fun _ ↦ true, .ok ()) := by
    rw [deleteAt, hload]
    rfl
  have hunder : (containerDir "network").components <+: allocationsPath.components := by
    decide +kernel
  have hgone : allocationsAt (loaded.removeIn (containerDir "network").components fun _ ↦ true) =
      .missing := by
    rw [allocationsAt, FileTree.removeIn, if_pos ⟨hunder, rfl⟩]
  rw [hdelete]
  refine ⟨rfl, ?_⟩
  show allocationOf _ "web" = none
  rw [allocationOf, hgone, readAllocations_missing]
  simp

theorem delete_network_forgets :
    validateId "network" = .ok () ∧ ReachableRoot networkTree ∧
      allocationOf networkTree "web" = some 20 ∧
      (deleteAt bareHost {} .nothing .complete networkTree "network").2 = .ok () ∧
      allocationOf (deleteAt bareHost {} .nothing .complete networkTree "network").1 "web" =
        none :=
  ⟨by decide +kernel, savedTree_reachable _ _, allocationOf_savedTree "web" (by decide +kernel),
    allocationOf_delete_networkTree .nothing⟩

/-- A host on which no release succeeds. -/
def fullHost : Host := { bareHost with fails := fun _ ↦ some "failed to write network allocations" }

/-- Deleting any container does, if the write of the allocations is cut short. -/
theorem delete_torn_forgets {id : String} (hid : validateId id = .ok ()) (other : String) :
    allocationOf (savedTree other (bridgeSample id)) other = some 20 ∧
      allocationOf (deleteAt fullHost {} .torn .complete (savedTree other (bridgeSample id)) id).1
        other = none := by
  refine ⟨allocationOf_savedTree other hid, ?_⟩
  obtain ⟨loaded, hload⟩ := @loadCurrentAt_savedTree fullHost .torn other (bridgeSample id) hid rfl
  have hload : loadCurrentAt fullHost {} .torn (savedTree other (bridgeSample id)) id =
      (loaded, .ok (bridgeSample id)) := hload
  have hdelete : (deleteAt fullHost {} .torn .complete (savedTree other (bridgeSample id)) id).1 =
      Leftover.torn.leave loaded := by
    rw [deleteAt, hload]
    rfl
  have htorn : allocationsAt (Leftover.torn.leave loaded) = .malformed := by
    rw [Leftover.leave, allocationsAt_congr (dropLock_allocations _), allocationsAt,
      FileTree.write_same]
  rw [hdelete, allocationOf, htorn]
  rfl

/-! ## Separation -/

/-- **An operation keeps to the directory of its container**, but for the container's allocation. -/
theorem keeps_stepRoot (hcons : Consistent tree) {op : RootOp} (hop : op.container = some id) :
    Keeps id op.leftover tree (stepRoot tree op) := by
  cases op with
  | save pid faults state =>
    obtain rfl := Option.some.inj hop
    exact keeps_saveAt pid faults tree state
  | loadCurrent host faults left id' =>
    obtain rfl := Option.some.inj hop
    exact keeps_loadCurrentAt hcons
  | delete host faults left removal id' =>
    obtain rfl := Option.some.inj hop
    exact keeps_deleteAt hcons removal
  | write id' file =>
    obtain rfl := Option.some.inj hop
    rw [stepRoot]
    split
    · rename_i hid
      exact keeps_touchFile hid tree file
    · exact Keeps.refl _ _ tree
  | allocate | allocateFails | release => simp [RootOp.container] at hop

/-- What is elsewhere makes no difference to it. -/
theorem agree_stepRoot {tree' : Tree} {op : RootOp} (h : Agree id tree tree')
    (hop : op.container = some id) :
    Agree id (stepRoot tree op) (stepRoot tree' op) ∧ answerRoot tree' op = answerRoot tree op := by
  cases op with
  | save pid faults state =>
    obtain rfl := Option.some.inj hop
    obtain ⟨hsave, hresult⟩ := agree_saveAt h pid faults
    exact ⟨hsave, by rw [answerRoot, hresult, answerRoot]⟩
  | loadCurrent host faults left id' =>
    obtain rfl := Option.some.inj hop
    obtain ⟨hload, hresult⟩ := agree_loadCurrentAt h host faults left
    exact ⟨hload, by rw [answerRoot, hresult, answerRoot]⟩
  | delete host faults left removal id' =>
    obtain rfl := Option.some.inj hop
    obtain ⟨hdelete, hresult⟩ := agree_deleteAt h host faults left removal
    exact ⟨hdelete, by rw [answerRoot, hresult, answerRoot]⟩
  | write id' file =>
    refine ⟨?_, rfl⟩
    rw [stepRoot, stepRoot]
    split
    · exact agree_write h _ _
    · exact h
  | allocate | allocateFails | release => simp [RootOp.container] at hop

/-- An operation looks at a file: that it is another one makes a difference to the answer, or to what
happens to the other files. -/
def LooksAt (op : RootOp) (path : List (List UInt8)) : Prop :=
  ∃ tree tree', Consistent tree ∧ Consistent tree' ∧
    (∀ other, other ≠ path → tree' other = tree other) ∧
    (answerRoot tree' op ≠ answerRoot tree op ∨
      ∃ other, other ≠ path ∧ stepRoot tree' op other ≠ stepRoot tree op other)

/-- What the operations on a container touch: what one of them changes, or looks at. -/
def Touches (id : String) (path : List (List UInt8)) : Prop :=
  ∃ op : RootOp, op.container = some id ∧
    ((∃ tree, Consistent tree ∧ stepRoot tree op path ≠ tree path) ∨ LooksAt op path)

/-- What an operation touches is in the directory of its container, or a file of the runtime. -/
theorem under_of_touches {path : List (List UInt8)} (h : Touches id path) :
    (containerDir id).components <+: path ∨ RuntimePath path := by
  by_contra houtside
  obtain ⟨hunder, hruntime⟩ := not_or.mp houtside
  obtain ⟨op, hop, ⟨tree, hcons, hchanges⟩ | ⟨tree, tree', hcons, hcons', hsame, hlooks⟩⟩ := h
  · exact hchanges ((keeps_stepRoot hcons hop).files path hunder hruntime)
  · have hagree : Agree id tree tree' := fun other hother ↦
      hsame other fun heq ↦ houtside (heq ▸ hother)
    obtain ⟨hstep, hanswer⟩ := agree_stepRoot hagree hop
    rcases hlooks with hlooks | ⟨other, hother, hlooks⟩
    · exact hlooks hanswer
    · refine hlooks ?_
      by_cases hregion : (containerDir id).components <+: other ∨ RuntimePath other
      · exact hstep other hregion
      · obtain ⟨hunder', hruntime'⟩ := not_or.mp hregion
        rw [(keeps_stepRoot hcons' hop).files other hunder' hruntime', hsame other hother,
          (keeps_stepRoot hcons hop).files other hunder' hruntime']

/-- All the files of a container are touched. -/
theorem touches_path (hid : validateId id = .ok ()) (file : ContainerFile) :
    Touches id (file.path id).components := by
  refine ⟨.write id file, rfl, .inl ⟨FileTree.empty, ?_, ?_⟩⟩
  · exact consistent_of_reachable ⟨[], rfl⟩
  · rw [stepRoot, hid]
    show touchFile _ _ _ _ ≠ _
    rw [touchFile, FileTree.write_same]
    exact Option.some_ne_none _

/-- The container keeps to its own part of the state root: its operations touch its directory, which has
none of the runtime's files in it and nothing of another container, and besides they release its own
allocation and no other.  A release that fails leaves `left`. -/
structure Separated (left : Leftover) (id : String) : Prop where
  directory : ∀ path, RuntimePath path → ¬ (containerDir id).components <+: path
  touches : ∀ path, Touches id path → (containerDir id).components <+: path ∨ RuntimePath path
  releases : ∀ tree, Consistent tree → ∀ op : RootOp, op.container = some id →
    (op.leftover = .torn → left = .torn) → Releases id tree (stepRoot tree op)
  others : ∀ other, validateId other = .ok () → other ≠ id →
    ∀ path, Touches id path → Touches other path → RuntimePath path
  delete : ∀ tree, ReachableRoot tree → ∀ host faults removal other, other ≠ id →
    allocationOf (deleteAt host faults left removal tree id).1 other = allocationOf tree other

theorem Separated.not_torn (h : Separated left id) (hid : validateId id = .ok ()) :
    left ≠ .torn := by
  rintro rfl
  obtain ⟨hbefore, hafter⟩ := delete_torn_forgets hid (id ++ "x")
  have hne : id ++ "x" ≠ id := by simp
  have hkept := h.delete _ (savedTree_reachable (id ++ "x") (bridgeSample id)) fullHost {} .complete
    (id ++ "x") hne
  rw [hafter, hbefore] at hkept
  exact Option.some_ne_none _ hkept.symm

/-- **Every valid id but `network` is separated from the runtime's files and from all others**, if no
write of the allocations is cut short. -/
theorem separated_iff (hid : validateId id = .ok ()) :
    Separated left id ↔ id ≠ "network" ∧ left ≠ .torn := by
  constructor
  · refine fun h ↦ ⟨?_, h.not_torn hid⟩
    rintro rfl
    have hkept := h.delete networkTree (savedTree_reachable _ _) bareHost {} .complete "web"
      (by decide)
    rw [(allocationOf_delete_networkTree left).2, networkTree,
      allocationOf_savedTree "web" (by decide +kernel)] at hkept
    exact Option.some_ne_none _ hkept.symm
  · rintro ⟨hne, htorn⟩
    constructor
    · exact fun path hruntime h ↦ hne ((under_runtimePath_iff hid hruntime).mp h)
    · exact fun path ↦ under_of_touches
    · exact fun tree hcons op hop hleft ↦
        (keeps_stepRoot hcons hop).releases (fun heq ↦ htorn (hleft heq)) hne
    · intro other hother hdiff path h h'
      rcases under_of_touches h with hunder | hruntime
      · rcases under_of_touches h' with hunder' | hruntime
        · exact absurd hunder' (not_under_of_ne hid hother hdiff hunder)
        · exact hruntime
      · exact hruntime
    · intro tree hreach host faults removal other hdiff
      have hkeeps := @keeps_deleteAt tree host faults left id (consistent_of_reachable hreach) removal
      exact (hkeeps.releases htorn hne).allocationOf hdiff

/-- A container with another name is separated. -/
theorem separated_web : validateId "web" = .ok () ∧ Separated .nothing "web" ∧
    Touches "web" (ContainerFile.state.path "web").components :=
  ⟨by decide +kernel, (separated_iff (by decide +kernel)).mpr ⟨by decide, by decide⟩,
    touches_path (by decide +kernel) .state⟩

end CrunRs.Lifecycle
