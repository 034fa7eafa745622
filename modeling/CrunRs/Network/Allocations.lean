import CrunRs.Error
import CrunRs.Lib.Lts
import CrunRs.Lib.Ordered
import CrunRs.Lib.Pool
import CrunRs.Network.Veth

/-!
# Bridge subnet allocations

The other half of `network/mod.rs`: which container has which octet of `10.88.0.0/16` is a map in
`allocations.json`, read, changed and written back under a lock.  Here one process runs at a time;
what the lock is worth when several do is the subject of `CrunRs.Network.Lock`.

The map implements a `Pool` of the slots 20 to 219 (`Represents`).  `allocateLocked` and
`releaseLocked` are the bodies of the two operations between acquiring and dropping the lock;
`allocateRead_new` and `Represents.erase` say what they do to the pool.
-/

set_option autoImplicit false

namespace CrunRs.Network

/-! ## The files -/

/-- `BRIDGE_OCTET_START`. -/
def bridgeOctetStart : UInt8 := 20

/-- `BRIDGE_OCTET_END`. -/
def bridgeOctetEnd : UInt8 := 219

/-- `STALE_LOCK_AFTER_SECS`. -/
def staleLockAfterSecs : UInt64 := 30

structure BridgeAllocations where
  containers : Std.ExtTreeMap String UInt8 := ∅

/-- `allocations.json`, by what the JSON library makes of it.  The library reads back what it wrote,
so a file written by the runtime is the map that was written. -/
inductive AllocationsFile
  | missing
  | malformed
  | allocations (a : BridgeAllocations)

structure AllocationLockOwner where
  ownerPid : UInt32
  ownerStarttime : Option UInt64
  createdAtUnix : UInt64
  deriving DecidableEq, Repr

/-- `owner.json` inside the lock directory.  It is created empty and then filled. -/
inductive OwnerFile
  | missing
  | torn
  | owner (o : AllocationLockOwner)
  deriving DecidableEq, Repr

/-- The network state root: the lock directory, if it is there, and `allocations.json`. -/
structure Root where
  lock : Option OwnerFile := none
  allocations : AllocationsFile := .missing

/-- What an operation sees of its own process: its pid, the clock, and `process_starttime` of any
pid. -/
structure Caller where
  pid : UInt32
  now : UInt64
  starttime : Int → Option UInt64

/-- `i32::try_from(pid).unwrap_or(i32::MAX)`. -/
def pidAsI32 (pid : UInt32) : Int := if pid.toNat < 2147483648 then pid.toNat else 2147483647

/-! ## The lock, with nobody else around -/

/-- What `write_lock_owner` writes. -/
def Caller.lockOwner (caller : Caller) : AllocationLockOwner where
  ownerPid := caller.pid
  ownerStarttime := caller.starttime (pidAsI32 caller.pid)
  createdAtUnix := caller.now

/-- `read_lock_owner`: a missing file reads as an owner with pid 0. -/
def readLockOwner : OwnerFile → Except NetworkError AllocationLockOwner
  | .missing => .ok { ownerPid := 0, ownerStarttime := none, createdAtUnix := 0 }
  | .torn => .error (.context "failed to parse network allocation lock owner")
  | .owner o => .ok o

/-- The staleness decision of `allocation_lock_is_stale` about an owner that was read. -/
def ownerIsStale (caller : Caller) (owner : AllocationLockOwner) : Bool :=
  if owner.ownerPid = 0 then true
  else match owner.ownerStarttime with
    | some expected => caller.starttime (pidAsI32 owner.ownerPid) ≠ some expected
    | none =>
      if (caller.starttime (pidAsI32 owner.ownerPid)).isNone then true
      -- `now.saturating_sub(created_at_unix)`
      else staleLockAfterSecs.toNat < caller.now.toNat - owner.createdAtUnix.toNat

/-- `acquire_allocation_lock` while no other process acts: a stale lock is removed in the first
round and taken in the second, and a lock that is not stale stays until the timeout. -/
def acquireAllocationLock (caller : Caller) (root : Root) : Except NetworkError Root :=
  match root.lock with
  | none => .ok { root with lock := some (.owner caller.lockOwner) }
  | some file => match readLockOwner file with
    | .error e => .error e
    | .ok owner =>
      if ownerIsStale caller owner then .ok { root with lock := some (.owner caller.lockOwner) }
      else .error .lockTimeout

/-! ## The two operations -/

/-- `next_free_bridge_octet`. -/
def nextFreeBridgeOctet (allocations : BridgeAllocations) : Except NetworkError UInt8 :=
  match (List.range' bridgeOctetStart.toNat 200).find? fun octet ↦
      !allocations.containers.toList.any fun entry ↦ entry.2 == UInt8.ofNat octet with
  | some octet => .ok (UInt8.ofNat octet)
  | none => .error (.noBridgeSubnetsAvailable bridgeOctetStart bridgeOctetEnd)

/-- `read_allocations`. -/
def readAllocations : AllocationsFile → Except NetworkError BridgeAllocations
  | .missing => .ok {}
  | .malformed => .error (.context "failed to parse network allocations")
  | .allocations a => .ok a

/-- `save_allocations`. -/
def saveAllocations (allocations : BridgeAllocations) : AllocationsFile := .allocations allocations

/-- What `allocate_bridge_network_from` does with the allocations it has read: what it saves, if
anything, and what it returns. -/
def allocateRead (allocations : BridgeAllocations) (containerId : String) :
    Option BridgeAllocations × Except NetworkError BridgeNetwork :=
  match allocations.containers[containerId]? with
  | some octet => (none, .ok (.forContainerId containerId octet))
  | none => match nextFreeBridgeOctet allocations with
    | .error e => (none, .error e)
    | .ok octet =>
      (some ⟨allocations.containers.insert containerId octet⟩,
        .ok (.forContainerId containerId octet))

/-- What `release_bridge_network_from` saves of the allocations it has read. -/
def releaseRead (allocations : BridgeAllocations) (containerId : String) : BridgeAllocations :=
  ⟨allocations.containers.erase containerId⟩

/-- `allocate_bridge_network_from` while it holds the lock. -/
def allocateLocked (file : AllocationsFile) (containerId : String) :
    AllocationsFile × Except NetworkError BridgeNetwork :=
  match readAllocations file with
  | .error e => (file, .error e)
  | .ok allocations =>
    let (save, result) := allocateRead allocations containerId
    (save.elim file saveAllocations, result)

/-- `release_bridge_network_from` while it holds the lock. -/
def releaseLocked (file : AllocationsFile) (containerId : String) :
    AllocationsFile × Except NetworkError Unit :=
  match readAllocations file with
  | .error e => (file, .error e)
  | .ok allocations => (saveAllocations (releaseRead allocations containerId), .ok ())

/-- `allocate_bridge_network_from`.  The pid is not used any more. -/
def allocateBridgeNetworkFrom (caller : Caller) (root : Root) (containerId : String) (_pid : Int) :
    Root × Except NetworkError BridgeNetwork :=
  match acquireAllocationLock caller root with
  | .error e => (root, .error e)
  | .ok locked =>
    let (file, result) := allocateLocked locked.allocations containerId
    (⟨none, file⟩, result)

/-- `release_bridge_network_from`. -/
def releaseBridgeNetworkFrom (caller : Caller) (root : Root) (containerId : String) :
    Root × Except NetworkError Unit :=
  match acquireAllocationLock caller root with
  | .error e => (root, .error e)
  | .ok locked =>
    let (file, result) := releaseLocked locked.allocations containerId
    (⟨none, file⟩, result)

/-! ## The map implements a pool -/

/-- Slots 20 to 219, held by container ids. -/
abbrev SubnetPool := Pool String 20 219

/-- The map says who holds what. -/
def Represents (allocations : BridgeAllocations) (pool : SubnetPool) : Prop :=
  ∀ id, pool.slot id = allocations.containers[id]?.map UInt8.toNat

theorem represents_empty : Represents {} Pool.empty := by
  intro id
  simp [Pool.empty]

variable {allocations : BridgeAllocations} {pool : SubnetPool}

theorem Represents.insert (h : Represents allocations pool) {id : String} {octet : UInt8}
    (hfree : pool.Free octet.toNat) :
    Represents ⟨allocations.containers.insert id octet⟩ (pool.assign id octet.toNat hfree) := by
  intro l
  rw [Pool.assign_slot, Std.ExtTreeMap.getElem?_insert, h l]
  simp only [Std.LawfulEqCmp.compare_eq_iff_eq, eq_comm (a := id)]
  split <;> rfl

theorem Represents.erase (h : Represents allocations pool) (id : String) :
    Represents ⟨allocations.containers.erase id⟩ (pool.release id) := by
  intro l
  rw [Pool.release_slot, Std.ExtTreeMap.getElem?_erase, h l]
  simp only [Std.LawfulEqCmp.compare_eq_iff_eq, eq_comm (a := id)]
  split <;> rfl

/-- The test of the search is freeness, for the octets it looks at. -/
theorem Represents.free_iff (h : Represents allocations pool) {n : Nat} (hlo : 20 ≤ n)
    (hhi : n ≤ 219) :
    (!allocations.containers.toList.any fun entry ↦ entry.2 == UInt8.ofNat n) = true ↔
      pool.Free n := by
  have hoctet : ∀ octet : UInt8, octet = UInt8.ofNat n ↔ octet.toNat = n := by
    intro octet
    rw [← UInt8.toNat_inj, UInt8.toNat_ofNat_of_lt' (by rw [UInt8.size]; omega)]
  rw [Bool.not_eq_true', List.any_eq_false]
  refine ⟨fun hall ↦ ⟨hlo, hhi, fun k hk ↦ ?_⟩, fun hfree entry hentry ↦ ?_⟩
  · rw [h k, Option.map_eq_some_iff] at hk
    obtain ⟨octet, hget, hn⟩ := hk
    refine hall (k, octet) (Std.ExtTreeMap.mem_toList_iff_getElem?_eq_some.mpr hget) ?_
    exact beq_iff_eq.mpr ((hoctet octet).mpr hn)
  · intro heq
    refine hfree.2.2 entry.1 ?_
    rw [h entry.1, Std.ExtTreeMap.mem_toList_iff_getElem?_eq_some.mp hentry, Option.map_some,
      (hoctet entry.2).mp (beq_iff_eq.mp heq)]

/-- **The search hands out the least free slot, and fails only when there is none.** -/
theorem nextFreeBridgeOctet_spec (h : Represents allocations pool) :
    (∃ octet, nextFreeBridgeOctet allocations = .ok octet ∧ pool.IsLeastFree octet.toNat) ∨
      nextFreeBridgeOctet allocations = .error (.noBridgeSubnetsAvailable 20 219) ∧
        pool.Exhausted := by
  rw [nextFreeBridgeOctet]
  split
  · rename_i n hfind
    obtain ⟨htest, hmem, hbefore⟩ := List.find?_range'_eq_some.mp hfind
    obtain ⟨hlo, hhi⟩ : 20 ≤ n ∧ n < 220 := List.mem_range'_1.mp hmem
    have hn : (UInt8.ofNat n).toNat = n := UInt8.toNat_ofNat_of_lt' (by rw [UInt8.size]; omega)
    refine Or.inl ⟨_, rfl, ?_⟩
    rw [hn]
    refine ⟨(h.free_iff hlo (by omega)).mp htest, fun m hm hfree ↦ ?_⟩
    have hskipped := hbefore m hfree.1 hm
    rw [(h.free_iff hfree.1 hfree.2.1).mpr hfree] at hskipped
    exact absurd hskipped (by decide)
  · rename_i hfind
    refine Or.inr ⟨rfl, fun n hfree ↦ ?_⟩
    have hskipped := List.find?_eq_none.mp hfind n
      (List.mem_range'_1.mpr ⟨hfree.1, Nat.lt_succ_of_le hfree.2.1⟩)
    exact hskipped ((h.free_iff hfree.1 hfree.2.1).mpr hfree)

/-! ## What the operations do to the pool -/

theorem readAllocations_missing : readAllocations .missing = .ok {} := rfl

@[simp] theorem readAllocations_save (allocations : BridgeAllocations) :
    readAllocations (saveAllocations allocations) = .ok allocations := rfl

variable {file : AllocationsFile}

theorem allocateRead_held {id : String} {octet : UInt8}
    (hheld : allocations.containers[id]? = some octet) :
    allocateRead allocations id = (none, .ok (.forContainerId id octet)) := by
  rw [allocateRead]
  simp only [hheld]

/-- An id without a slot gets the least free one, and the map gains that entry; or there is none,
and nothing is saved. -/
theorem allocateRead_new {id : String} (hrep : Represents allocations pool)
    (hnew : allocations.containers[id]? = none) :
    (∃ octet, pool.IsLeastFree octet.toNat ∧
      allocateRead allocations id =
        (some ⟨allocations.containers.insert id octet⟩, .ok (.forContainerId id octet))) ∨
      pool.Exhausted ∧
        allocateRead allocations id = (none, .error (.noBridgeSubnetsAvailable 20 219)) := by
  rw [allocateRead]
  simp only [hnew]
  rcases nextFreeBridgeOctet_spec hrep with ⟨octet, hnext, hleast⟩ | ⟨hnext, hex⟩
  · rw [hnext]
    exact Or.inl ⟨octet, hleast, rfl⟩
  · rw [hnext]
    exact Or.inr ⟨hex, rfl⟩

theorem releaseRead_of_ne (allocations : BridgeAllocations) {id k : String} (h : k ≠ id) :
    (releaseRead allocations id).containers[k]? = allocations.containers[k]? := by
  rw [releaseRead, Std.ExtTreeMap.getElem?_erase,
    if_neg (mt Std.LawfulEqCmp.compare_eq_iff_eq.mp h.symm)]

/-- An allocation that works: the id has an octet, and no other entry changes. -/
theorem allocateRead_spec {id : String} {saved : Option BridgeAllocations}
    {network : BridgeNetwork} (hpool : ∃ pool, Represents allocations pool)
    (h : allocateRead allocations id = (saved, .ok network)) :
    (∃ pool, Represents (saved.getD allocations) pool) ∧
    (∃ octet, (saved.getD allocations).containers[id]? = some octet ∧
      network.subnet = subnetOf octet) ∧
    ∀ k, k ≠ id → (saved.getD allocations).containers[k]? = allocations.containers[k]? := by
  obtain ⟨pool, hrep⟩ := hpool
  cases hid : allocations.containers[id]? with
  | some octet =>
    rw [allocateRead_held hid] at h
    cases h
    exact ⟨⟨pool, hrep⟩, ⟨octet, hid, rfl⟩, fun _ _ ↦ rfl⟩
  | none =>
    rcases allocateRead_new hrep hid with ⟨octet, hleast, heq⟩ | ⟨_, heq⟩
    · rw [heq] at h
      cases h
      refine ⟨⟨_, hrep.insert hleast.1⟩, ⟨octet, Std.ExtTreeMap.getElem?_insert_self, rfl⟩,
        fun k hk ↦ ?_⟩
      show (allocations.containers.insert id octet)[k]? = _
      rw [Std.ExtTreeMap.getElem?_insert, if_neg (mt Std.LawfulEqCmp.compare_eq_iff_eq.mp hk.symm)]
    · rw [heq] at h
      simp at h

/-- Two ids have two octets. -/
theorem Represents.id_eq (hrep : Represents allocations pool) {id k : String} {octet : UInt8}
    (h : allocations.containers[id]? = some octet) (h' : allocations.containers[k]? = some octet) :
    id = k := by
  have hslot : pool.slot id = some octet.toNat := by rw [hrep id, h, Option.map_some]
  have hslot' : pool.slot k = some octet.toNat := by rw [hrep k, h', Option.map_some]
  exact pool.inj hslot hslot'

/-- And two subnets. -/
theorem subnet_ne_of_pool {subnet subnet' id k : String} {octet octet' : UInt8}
    (hpool : ∃ pool, Represents allocations pool) (hne : id ≠ k)
    (h : allocations.containers[id]? = some octet) (hsubnet : subnet = subnetOf octet)
    (h' : allocations.containers[k]? = some octet') (hsubnet' : subnet' = subnetOf octet') :
    subnet ≠ subnet' := by
  obtain ⟨pool, hrep⟩ := hpool
  rintro rfl
  obtain rfl : octet = octet' := subnetOf_injective (hsubnet.symm.trans hsubnet')
  exact hne (hrep.id_eq h h')

theorem allocateLocked_eq (id : String) (hread : readAllocations file = .ok allocations) :
    allocateLocked file id =
      ((allocateRead allocations id).1.elim file saveAllocations,
        (allocateRead allocations id).2) := by
  rw [allocateLocked, hread]

theorem releaseLocked_eq (id : String) (hread : readAllocations file = .ok allocations) :
    releaseLocked file id =
      (saveAllocations (releaseRead allocations id), .ok ()) := by
  rw [releaseLocked, hread]

/-- With the lock free, the operations are their locked bodies. -/
theorem allocateBridgeNetworkFrom_of_unlocked (caller : Caller) {root : Root}
    (hlock : root.lock = none) (id : String) (pid : Int) :
    allocateBridgeNetworkFrom caller root id pid =
      (⟨none, (allocateLocked root.allocations id).1⟩,
        (allocateLocked root.allocations id).2) := by
  rw [allocateBridgeNetworkFrom, acquireAllocationLock, hlock]

theorem releaseBridgeNetworkFrom_of_unlocked (caller : Caller) {root : Root}
    (hlock : root.lock = none) (id : String) :
    releaseBridgeNetworkFrom caller root id =
      (⟨none, (releaseLocked root.allocations id).1⟩,
        (releaseLocked root.allocations id).2) := by
  rw [releaseBridgeNetworkFrom, acquireAllocationLock, hlock]

/-! ## Sequential runs -/

inductive Op
  | allocate (caller : Caller) (id : String) (pid : Int)
  | release (caller : Caller) (id : String)

/-- The files, and what the callers were told: the network of every id that was allocated and not
released since. -/
structure World where
  root : Root
  held : String → Option BridgeNetwork

/-- One operation from start to end. -/
def World.apply (w : World) : Op → World
  | .allocate caller id pid =>
    let (root, result) := allocateBridgeNetworkFrom caller w.root id pid
    { root
      held := match result with
        | .ok network => Function.update w.held id (some network)
        | .error _ => w.held }
  | .release caller id =>
    let (root, result) := releaseBridgeNetworkFrom caller w.root id
    { root
      held := match result with
        | .ok () => Function.update w.held id none
        | .error _ => w.held }

def World.run (w : World) (ops : List Op) : World := ops.foldl World.apply w

/-- A state root nobody has locked and from which no allocation is read. -/
structure FreshRoot where
  root : Root
  unlocked : root.lock = none
  empty : readAllocations root.allocations = .ok {}

/-- No files yet. -/
instance : Inhabited FreshRoot := ⟨⟨{}, rfl, readAllocations_missing⟩⟩

def FreshRoot.world (start : FreshRoot) : World where
  root := start.root
  held := fun _ ↦ none

/-- Between operations the lock is free, the file represents a pool, and what the callers were told
is what the file says. -/
def World.Inv (w : World) : Prop :=
  w.root.lock = none ∧ ∃ (allocations : BridgeAllocations) (pool : SubnetPool),
    readAllocations w.root.allocations = .ok allocations ∧ Represents allocations pool ∧
    ∀ id, w.held id = allocations.containers[id]?.map (BridgeNetwork.forContainerId id)

theorem FreshRoot.inv (start : FreshRoot) : start.world.Inv := by
  refine ⟨start.unlocked, _, _, start.empty, represents_empty, fun id ↦ ?_⟩
  simp [FreshRoot.world]

theorem World.Inv.apply {w : World} (h : w.Inv) (op : Op) : (w.apply op).Inv := by
  obtain ⟨hlock, allocations, pool, hread, hrep, hheld⟩ := h
  cases op with
  | allocate caller id pid =>
    rw [World.apply, allocateBridgeNetworkFrom_of_unlocked caller hlock, allocateLocked_eq id hread]
    cases hid : allocations.containers[id]? with
    | some octet =>
      rw [allocateRead_held hid]
      refine ⟨rfl, allocations, pool, hread, hrep, fun l ↦ ?_⟩
      show Function.update w.held id _ l = _
      rw [Function.update_apply]
      split
      · rename_i hl
        rw [hl, hid, Option.map_some]
      · exact hheld l
    | none =>
      rcases allocateRead_new hrep hid with ⟨octet, hleast, heq⟩ | ⟨_, heq⟩
      · rw [heq]
        refine ⟨rfl, _, _, readAllocations_save _, hrep.insert hleast.1, fun l ↦ ?_⟩
        show Function.update w.held id _ l = _
        rw [Function.update_apply, Std.ExtTreeMap.getElem?_insert]
        simp only [Std.LawfulEqCmp.compare_eq_iff_eq, eq_comm (a := id)]
        split
        · rename_i hl
          rw [hl, Option.map_some]
        · exact hheld l
      · rw [heq]
        exact ⟨rfl, allocations, pool, hread, hrep, hheld⟩
  | release caller id =>
    rw [World.apply, releaseBridgeNetworkFrom_of_unlocked caller hlock, releaseLocked_eq id hread]
    refine ⟨rfl, _, _, readAllocations_save _, hrep.erase id, fun l ↦ ?_⟩
    show Function.update w.held id _ l = _
    rw [Function.update_apply, releaseRead, Std.ExtTreeMap.getElem?_erase]
    simp only [Std.LawfulEqCmp.compare_eq_iff_eq, eq_comm (a := id)]
    split
    · rfl
    · exact hheld l

theorem World.Inv.run {w : World} (h : w.Inv) (ops : List Op) : (w.run ops).Inv := by
  induction ops generalizing w with
  | nil => exact h
  | cons op ops ih => exact ih (h.apply op)

/-- Some id has the octet. -/
def Taken (allocations : BridgeAllocations) (octet : UInt8) : Prop :=
  ∃ id : String, allocations.containers[id]? = some octet

/-- The octet is the least of the range that no id has. -/
def LeastFree (allocations : BridgeAllocations) (octet : UInt8) : Prop :=
  20 ≤ octet ∧ octet ≤ 219 ∧ ¬ Taken allocations octet ∧
    ∀ o, 20 ≤ o → o < octet → Taken allocations o

theorem Represents.taken_iff (h : Represents allocations pool) {octet : UInt8} :
    Taken allocations octet ↔ ∃ id, pool.slot id = some octet.toNat := by
  refine exists_congr fun id ↦ ?_
  rw [h id, Option.map_eq_some_iff]
  exact ⟨fun hid ↦ ⟨octet, hid, rfl⟩, fun ⟨o, hid, ho⟩ ↦ UInt8.toNat_inj.mp ho ▸ hid⟩

theorem Represents.leastFree (h : Represents allocations pool) {octet : UInt8}
    (hleast : pool.IsLeastFree octet.toNat) : LeastFree allocations octet := by
  obtain ⟨⟨hlo, hhi, hfree⟩, hbelow⟩ := hleast
  refine ⟨hlo, hhi, fun htaken ↦ ?_, fun o ho hlt ↦ by_contra fun hnot ↦ ?_⟩
  · obtain ⟨id, hid⟩ := h.taken_iff.mp htaken
    exact hfree id hid
  · refine hbelow o.toNat hlt ⟨ho, Nat.le_trans (Nat.le_of_lt hlt) hhi, fun id hid ↦ ?_⟩
    exact hnot (h.taken_iff.mpr ⟨id, hid⟩)

theorem Represents.exhausted_iff (h : Represents allocations pool) :
    pool.Exhausted ↔ ∀ o : UInt8, 20 ≤ o → o ≤ 219 → Taken allocations o := by
  rw [Pool.exhausted_iff]
  constructor
  · intro hex o hlo hhi
    exact h.taken_iff.mpr (hex o.toNat hlo hhi)
  · intro hall n hlo hhi
    have hn : (UInt8.ofNat n).toNat = n := UInt8.toNat_ofNat_of_lt' (by rw [UInt8.size]; omega)
    have hlo' : 20 ≤ UInt8.ofNat n := UInt8.le_iff_toNat_le.mpr (by rw [hn]; exact hlo)
    have hhi' : UInt8.ofNat n ≤ 219 := UInt8.le_iff_toNat_le.mpr (by rw [hn]; exact hhi)
    obtain ⟨id, hid⟩ := h.taken_iff.mp (hall _ hlo' hhi')
    exact ⟨id, hn ▸ hid⟩

/-- **The allocation store.**  After any sequence of operations on a fresh root the map is injective
with values from 20 to 219; allocating for an id that has an octet returns it and changes nothing;
allocating for a new id fails, changing nothing, if all octets are taken, and otherwise returns the
least free one and records it; releasing removes that id alone; and two ids that hold networks hold
different subnets. -/
theorem allocations_sequential (start : FreshRoot) (ops : List Op) :
    ∃ allocations, readAllocations (start.world.run ops).root.allocations = .ok allocations ∧
      (∀ (id id' : String) (octet : UInt8), allocations.containers[id]? = some octet →
        allocations.containers[id']? = some octet → id = id') ∧
      (∀ (id : String) (octet : UInt8), allocations.containers[id]? = some octet →
        20 ≤ octet ∧ octet ≤ 219) ∧
      (∀ caller (id : String) pid octet, allocations.containers[id]? = some octet →
        allocateBridgeNetworkFrom caller (start.world.run ops).root id pid =
          ((start.world.run ops).root, .ok (.forContainerId id octet))) ∧
      (∀ caller (id : String) pid, allocations.containers[id]? = none →
        ((∀ o, 20 ≤ o → o ≤ 219 → Taken allocations o) →
          allocateBridgeNetworkFrom caller (start.world.run ops).root id pid =
            ((start.world.run ops).root, .error (.noBridgeSubnetsAvailable 20 219))) ∧
        (¬ (∀ o, 20 ≤ o → o ≤ 219 → Taken allocations o) →
          ∃ octet, LeastFree allocations octet ∧
            allocateBridgeNetworkFrom caller (start.world.run ops).root id pid =
              (⟨none, saveAllocations ⟨allocations.containers.insert id octet⟩⟩,
                .ok (.forContainerId id octet)))) ∧
      (∀ caller id, releaseBridgeNetworkFrom caller (start.world.run ops).root id =
        (⟨none, saveAllocations ⟨allocations.containers.erase id⟩⟩, .ok ())) ∧
      (∀ id, (start.world.run ops).held id =
        allocations.containers[id]?.map (BridgeNetwork.forContainerId id)) ∧
      (∀ id id' network network', id ≠ id' → (start.world.run ops).held id = some network →
        (start.world.run ops).held id' = some network' → network.subnet ≠ network'.subnet) := by
  obtain ⟨hlock, allocations, pool, hread, hrep, hheld⟩ := start.inv.run ops
  have hslot : ∀ {id : String} {octet : UInt8}, allocations.containers[id]? = some octet →
      pool.slot id = some octet.toNat := by
    intro id octet hid
    rw [hrep id, hid, Option.map_some]
  have hroot : (⟨none, (start.world.run ops).root.allocations⟩ : Root) =
      (start.world.run ops).root := by
    rw [← hlock]
  refine ⟨allocations, hread, ?_, ?_, ?_, ?_, ?_, hheld, ?_⟩
  · intro id id' octet hid hid'
    exact hrep.id_eq hid hid'
  · intro id octet hid
    exact pool.bounds (hslot hid)
  · intro caller id pid octet hid
    rw [allocateBridgeNetworkFrom_of_unlocked caller hlock, allocateLocked_eq id hread,
      allocateRead_held hid]
    exact Prod.ext hroot rfl
  · intro caller id pid hid
    rw [allocateBridgeNetworkFrom_of_unlocked caller hlock, allocateLocked_eq id hread,
      ← hrep.exhausted_iff]
    rcases allocateRead_new hrep hid with ⟨octet, hleast, heq⟩ | ⟨hex, heq⟩
    · rw [heq]
      exact ⟨fun hex ↦ absurd hleast.1 (hex _), fun _ ↦ ⟨octet, hrep.leastFree hleast, rfl⟩⟩
    · rw [heq]
      exact ⟨fun _ ↦ Prod.ext hroot rfl, fun hnot ↦ absurd hex hnot⟩
  · intro caller id
    rw [releaseBridgeNetworkFrom_of_unlocked caller hlock, releaseLocked_eq id hread, releaseRead]
  · intro id id' network network' hne hid hid'
    rw [hheld, Option.map_eq_some_iff] at hid hid'
    obtain ⟨octet, hoctet, rfl⟩ := hid
    obtain ⟨octet', hoctet', rfl⟩ := hid'
    exact subnet_ne_of_pool ⟨pool, hrep⟩ hne hoctet rfl hoctet' rfl

end CrunRs.Network
