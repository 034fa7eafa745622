import CrunRs.Network.Allocations
import CrunRs.Network.Nat
import Mathlib.Data.List.Sort

/-!
# Leases of stale containers

A lease names its rules by the subnet of its container, and a container has its subnet for as long as
its allocation is there.  When a container is taken down — by its own runtime process, or by
`doctor --fix` if that is gone — its rules are deleted, its allocation is released, and the rest is
removed, each whether or not the others worked.  If all of it worked the state is marked stopped.  If
not, the state stays as it is, with the lease, for the next `doctor --fix`.

By then the allocation may be gone and the subnet another container's.  The next recovery deletes the
rules of that one (`retry_takes_live_rules`).  The rules of a live container are safe as long as no
`doctor --fix` finds a stale lease that owns one of them; and no cleanup of a lease can be repeated
once it succeeded, unless the lease owns nothing, since a rule that is not there cannot be deleted
(`stale_lease_exact`).
-/

set_option autoImplicit false

namespace CrunRs.Network

open Lts

/-! ## What the commands do, whatever fails -/

variable {faults : NatFaults} {r : Rule}

theorem runIptables_delete (faults : NatFaults) (rules : List Rule) (rule : Rule) :
    (rule ∈ rules ∧ runIptables faults rules (.delete rule) = (rules.erase rule, .ok ())) ∨
      ∃ e, runIptables faults rules (.delete rule) = (rules, .error e) := by
  unfold runIptables
  dsimp only
  split
  · exact Or.inr ⟨_, rfl⟩
  · split
    · rename_i hmem
      exact Or.inl ⟨hmem, rfl⟩
    · exact Or.inr ⟨_, rfl⟩

/-- Deleting the rules of a lease leaves all others in place. -/
theorem mem_foldl_deleteOwned {owned : List (Rule × String)} {acc : List Rule × List String}
    (h : r ∈ acc.1) (hne : ∀ o ∈ owned, o.1 ≠ r) : r ∈ (owned.foldl (deleteOwned faults) acc).1 := by
  induction owned generalizing acc with
  | nil => exact h
  | cons o rest ih =>
    refine ih ?_ fun o' ho' ↦ hne o' (List.mem_cons_of_mem o ho')
    have hother : r ≠ o.1 := (hne o List.mem_cons_self).symm
    rw [deleteOwned]
    rcases runIptables_delete faults acc.1 o.1 with ⟨_, hdelete⟩ | ⟨e, hdelete⟩
    · rw [hdelete]
      exact (List.mem_erase_of_ne hother).mpr h
    · rw [hdelete]
      exact h

theorem mem_cleanupNatLease {host : NatHost} {lease : NatLease} (h : r ∈ host.rules)
    (hne : ∀ o ∈ lease.ownedRules, o.1 ≠ r) : r ∈ (cleanupNatLease faults host lease).1.rules :=
  @mem_foldl_deleteOwned faults r lease.ownedRules (host.rules, []) h hne

/-- Setting up an address translation leaves the rules of other subnets in place, and if it works the
rules of the lease are there. -/
theorem mem_setupNat {host host' : NatHost} {subnet : String} {result : Except NetworkError NatLease}
    (h : setupNat faults host subnet = (host', result)) :
    (∀ r ∈ host.rules, r.subnet ≠ subnet → r ∈ host'.rules) ∧
      ∀ lease, result = .ok lease → lease.subnet = subnet ∧
        ∀ owned ∈ lease.ownedRules, owned.1 ∈ host'.rules := by
  unfold setupNat at h
  -- what the lease remembers of forwarding does not matter for the rules
  generalize (if faults.readForward then none else some host.ipForward) = previous at h
  dsimp only at h
  generalize (if previous ≠ some "1" then "1" else host.ipForward) = ipForward at h
  split at h
  · cases h
    exact ⟨fun _ hr _ ↦ hr, fun _ hok ↦ by cases hok⟩
  · obtain ⟨made, error, hsetup, hsubnet, -, -⟩ :=
      setupRules_spec faults host.rules subnet previous
    rw [NatLease.fresh] at hsetup
    rw [hsetup] at h
    cases error with
    | none =>
      cases h
      refine ⟨fun r hr _ ↦ List.mem_append_left _ hr, fun lease hok ↦ ?_⟩
      cases hok
      exact ⟨hsubnet, fun owned howned ↦ List.mem_append_right _ (List.mem_map_of_mem howned)⟩
    | some e =>
      have hrollback : ∀ r ∈ host.rules, r.subnet ≠ subnet →
          r ∈ (cleanupNatLease faults ⟨host.rules ++ made.ownedRules.map Prod.fst, ipForward⟩
            made).1.rules := by
        intro r hr hne
        refine mem_cleanupNatLease (List.mem_append_left _ hr) fun o ho heq ↦ hne ?_
        rw [← heq, subnet_of_mem_ownedRules ho, hsubnet]
      dsimp only at h
      split at h
      · rename_i host₁ hclean
        cases h
        refine ⟨fun r hr hne ↦ ?_, fun _ hok ↦ by cases hok⟩
        have hmem := hrollback r hr hne
        rwa [hclean] at hmem
      · rename_i host₁ e' hclean
        cases h
        refine ⟨fun r hr hne ↦ ?_, fun _ hok ↦ by cases hok⟩
        have hmem := hrollback r hr hne
        rwa [hclean] at hmem

/-! ## A second time -/

/-- A cleanup without errors has deleted as many rules as the lease owns. -/
theorem length_foldl_deleteOwned {owned : List (Rule × String)} {acc : List Rule × List String}
    (h : (owned.foldl (deleteOwned faults) acc).2 = []) :
    acc.2 = [] ∧ (owned.foldl (deleteOwned faults) acc).1.length + owned.length = acc.1.length := by
  induction owned generalizing acc with
  | nil => exact ⟨h, rfl⟩
  | cons o rest ih =>
    obtain ⟨herrors, hlength⟩ := ih h
    rw [List.foldl_cons, List.length_cons, ← Nat.add_assoc, hlength]
    rw [deleteOwned] at herrors ⊢
    rcases runIptables_delete faults acc.1 o.1 with ⟨hmem, hdelete⟩ | ⟨e, hdelete⟩
    · simp only [hdelete] at herrors ⊢
      refine ⟨herrors, ?_⟩
      have hpos := List.length_pos_of_mem hmem
      rw [List.length_erase_of_mem hmem]
      omega
    · simp [hdelete] at herrors

/-- A cleanup succeeds and leaves the rules as they are only if there is nothing to delete. -/
theorem cleanupNatLease_keeps_iff (host : NatHost) (lease : NatLease) :
    (cleanupNatLease {} host lease).2 = .ok () ∧
        (cleanupNatLease {} host lease).1.rules = host.rules ↔ lease.ownedRules = [] := by
  constructor
  · rintro ⟨hok, hsame⟩
    have herrors : (lease.ownedRules.foldl (deleteOwned {}) (host.rules, [])).2 = [] := by
      simp only [cleanupNatLease] at hok
      split at hok
      · rename_i hnil
        exact (List.append_eq_nil_iff.mp hnil).1
      · simp at hok
    have hlength := (length_foldl_deleteOwned herrors).2
    have hrules : (lease.ownedRules.foldl (deleteOwned {}) (host.rules, [])).1 = host.rules := hsame
    rw [hrules] at hlength
    exact List.length_eq_zero_iff.mp (Nat.add_eq_left.mp hlength)
  · intro hnil
    have hrestore : (restoreForward {} lease host.ipForward).2 = [] := by
      unfold restoreForward
      split
      · rfl
      · split
        · rfl
        · simp
    simp [cleanupNatLease, hnil, hrestore]

/-! ## Containers with a bridge network -/

/-- A state that says running, with a lease; `live` if its process is there. -/
structure BridgeRecord where
  id : String
  lease : NatLease
  live : Bool
  deriving DecidableEq

/-- The rules, the allocations, and the states in the order of their ids. -/
structure LeaseSystem where
  host : NatHost
  allocations : BridgeAllocations
  records : List BridgeRecord

/-- What fails when a container is taken down: the commands of its lease, the release of its
allocation, or something else (its link, its cgroup, its overlay, saving the state). -/
structure TakedownFaults where
  nat : NatFaults := {}
  release : Bool := false
  others : Bool := false

/-- What fails when a container is started. -/
structure StartFaults where
  veth : Bool := false
  nat : NatFaults := {}
  /-- Saving the state. -/
  save : Bool := false
  /-- Something after the save. -/
  later : Bool := false
  /-- What fails when the start is taken back. -/
  takedown : TakedownFaults := {}

/-- What fails in a `doctor --fix`: in the recovery of a state, in listing the cgroups, and when an
allocation is released that no live container owns. -/
structure DoctorFaults where
  recovery : String → TakedownFaults := fun _ ↦ {}
  cgroups : Bool := false
  release : String → Bool := fun _ ↦ false

inductive LeaseAct
  | start (id : String) (faults : StartFaults)
  /-- The container ends, and its runtime process takes it down. -/
  | stop (id : String) (faults : TakedownFaults)
  /-- The runtime process and the container are gone. -/
  | die (id : String)
  | doctor (faults : DoctorFaults)

namespace LeaseSystem

/-- The allocations after `release_bridge_network`, which may fail. -/
def release (fails : Bool) (allocations : BridgeAllocations) (id : String) : BridgeAllocations :=
  if fails then allocations else releaseRead allocations id

/-- The network part of `ParentResources::cleanup` and of `cleanup_stale_resources`, and whether the
takedown succeeded in all. -/
def takeDown (faults : TakedownFaults) (s : LeaseSystem) (id : String) (lease : NatLease) :
    LeaseSystem × Bool :=
  let (host, result) := cleanupNatLease faults.nat s.host lease
  ({ s with host, allocations := release faults.release s.allocations id },
    result.toBool && !faults.release && !faults.others)

/-- The state is marked stopped. -/
def drop (s : LeaseSystem) (record : BridgeRecord) : LeaseSystem :=
  { s with records := s.records.filter (· ≠ record) }

/-- A running state is saved. -/
def insert (s : LeaseSystem) (record : BridgeRecord) : LeaseSystem :=
  { s with records := s.records.orderedInsert (fun a b ↦ a.id ≤ b.id) record }

/-- The process of the state is gone. -/
def lose (s : LeaseSystem) (id : String) : LeaseSystem :=
  { s with records := s.records.map fun record ↦
      if record.id = id then { record with live := false } else record }

/-- The recovery of one state in `check_stale_running_states`. -/
def recover (faults : DoctorFaults) (s : LeaseSystem) (record : BridgeRecord) : LeaseSystem :=
  if record.live then s
  else match s.takeDown (faults.recovery record.id) record.id record.lease with
    | (s, true) => s.drop record
    | (s, false) => s

/-- The loop of `check_stale_network_allocations`, which a failing release ends. -/
def releaseIds (fails : String → Bool) : List String → BridgeAllocations → BridgeAllocations
  | [], allocations => allocations
  | id :: rest, allocations =>
    if fails id then allocations else releaseIds fails rest (releaseRead allocations id)

/-- `doctor --fix`, as far as it concerns networks. -/
def doctor (faults : DoctorFaults) (s : LeaseSystem) : LeaseSystem :=
  let t := s.records.foldl (recover faults) s
  if faults.cgroups then t
  else
    let active := (s.records.filter BridgeRecord.live).map BridgeRecord.id
    let stale := (t.allocations.containers.toList.map Prod.fst).filter (· ∉ active)
    { t with allocations := releaseIds faults.release stale t.allocations }

/-- The network part of `run_process`, up to the save of the running state. -/
def start (faults : StartFaults) (s : LeaseSystem) (id : String) : LeaseSystem :=
  match allocateRead s.allocations id with
  | (_, .error _) => s
  | (saved, .ok network) =>
    let s := { s with allocations := saved.getD s.allocations }
    let abandoned := { s with allocations := release faults.takedown.release s.allocations id }
    if faults.veth then abandoned
    else match setupNat faults.nat s.host network.subnet with
      | (host, .error _) => { abandoned with host }
      | (host, .ok lease) =>
        let s := { s with host }
        if faults.save then (s.takeDown faults.takedown id lease).1
        else if faults.later then
          ((s.takeDown faults.takedown id lease).1).insert ⟨id, lease, false⟩
        else s.insert ⟨id, lease, true⟩

/-- One command from beginning to end.  A container is not started under the id of a state that is
there. -/
def step (s : LeaseSystem) : LeaseAct → Option LeaseSystem
  | .start id faults =>
    if id ∈ s.records.map BridgeRecord.id then none else some (s.start faults id)
  | .stop id faults => match s.records.find? fun record ↦ record.live && record.id = id with
    | none => none
    | some record => match s.takeDown faults id record.lease with
      | (s, true) => some (s.drop record)
      -- `run_process` returns the error, and the state is not marked stopped
      | (s, false) => some (s.lose id)
  | .die id => some (s.lose id)
  | .doctor faults => some (s.doctor faults)

/-- No container has been started. -/
def init (host : NatHost) : LeaseSystem where
  host := host
  allocations := {}
  records := []

/-- **The rules of every live lease are installed.** -/
def Installed (s : LeaseSystem) : Prop :=
  ∀ record ∈ s.records, record.live → ∀ owned ∈ record.lease.ownedRules, owned.1 ∈ s.host.rules

/-- The condition: a `doctor --fix` does not find a stale lease that owns a rule of a live one. -/
def SparesLive (s : LeaseSystem) : LeaseAct → Prop
  | .doctor _ => ∀ a ∈ s.records, ∀ b ∈ s.records, !a.live → b.live →
      ∀ owned ∈ b.lease.ownedRules, owned.1 ∉ a.lease.ownedRules.map Prod.fst
  | _ => True

instance decidableSparesLive (s : LeaseSystem) : ∀ a, Decidable (s.SparesLive a)
  | .doctor _ => inferInstanceAs
      (Decidable (∀ a ∈ s.records, ∀ b ∈ s.records, _ → _ → ∀ owned ∈ b.lease.ownedRules, _))
  | .start .. | .stop .. | .die _ => isTrue trivial

/-! ## What a record has -/

variable {s t : LeaseSystem} {record : BridgeRecord} {id : String}

/-- The record has its allocation and its rules. -/
structure Has (s : LeaseSystem) (record : BridgeRecord) : Prop where
  octet : ∃ octet, s.allocations.containers[record.id]? = some octet ∧
    record.lease.subnet = subnetOf octet
  rules : ∀ owned ∈ record.lease.ownedRules, owned.1 ∈ s.host.rules

/-- The allocations represent a pool, there is one state for an id, and the live ones have what is
theirs. -/
structure Safe (s : LeaseSystem) : Prop where
  pool : ∃ pool, Represents s.allocations pool
  unique : ∀ a ∈ s.records, ∀ b ∈ s.records, a.id = b.id → a = b
  live : ∀ record ∈ s.records, record.live → s.Has record

theorem release_of_ne (fails : Bool) (allocations : BridgeAllocations) {k : String} (h : k ≠ id) :
    (release fails allocations id).containers[k]? = allocations.containers[k]? := by
  cases fails with
  | true => rfl
  | false => exact releaseRead_of_ne allocations h

theorem release_pool (fails : Bool) {allocations : BridgeAllocations}
    (h : ∃ pool, Represents allocations pool) (id : String) :
    ∃ pool, Represents (release fails allocations id) pool := by
  obtain ⟨pool, hrep⟩ := h
  cases fails with
  | true => exact ⟨pool, hrep⟩
  | false => exact ⟨_, hrep.erase id⟩

theorem releaseIds_of_notMem (fails : String → Bool) {ids : List String} {k : String}
    (h : k ∉ ids) (allocations : BridgeAllocations) :
    (releaseIds fails ids allocations).containers[k]? = allocations.containers[k]? := by
  induction ids generalizing allocations with
  | nil => rfl
  | cons id rest ih =>
    obtain ⟨hne, hrest⟩ := not_or.mp (mt List.mem_cons.mpr h)
    rw [releaseIds]
    split
    · rfl
    · rw [ih hrest]
      exact release_of_ne false allocations hne

theorem releaseIds_pool (fails : String → Bool) (ids : List String) {allocations : BridgeAllocations}
    (h : ∃ pool, Represents allocations pool) :
    ∃ pool, Represents (releaseIds fails ids allocations) pool := by
  induction ids generalizing allocations with
  | nil => exact h
  | cons id rest ih =>
    rw [releaseIds]
    split
    · exact h
    · exact ih (release_pool false h id)

/-- Taking a container down takes nothing from a record with another id and other rules. -/
theorem Has.takeDown (h : s.Has record) (faults : TakedownFaults) {lease : NatLease}
    (hid : record.id ≠ id)
    (hrules : ∀ owned ∈ record.lease.ownedRules, owned.1 ∉ lease.ownedRules.map Prod.fst) :
    (s.takeDown faults id lease).1.Has record := by
  obtain ⟨octet, hoctet, hsubnet⟩ := h.octet
  refine ⟨⟨octet, ?_, hsubnet⟩, fun owned howned ↦ ?_⟩
  · exact (release_of_ne faults.release s.allocations hid).trans hoctet
  · refine mem_cleanupNatLease (h.rules owned howned) fun o ho heq ↦ ?_
    exact hrules owned howned (List.mem_map.mpr ⟨o, ho, heq⟩)

theorem takeDown_records (faults : TakedownFaults) (s : LeaseSystem) (id : String)
    (lease : NatLease) : (s.takeDown faults id lease).1.records = s.records := rfl

theorem takeDown_pool (faults : TakedownFaults) (lease : NatLease)
    (h : ∃ pool, Represents s.allocations pool) :
    ∃ pool, Represents (s.takeDown faults id lease).1.allocations pool :=
  release_pool _ h _

/-- Leases of different subnets have no rule in common. -/
theorem disjoint_of_subnet_ne {lease lease' : NatLease} (h : lease.subnet ≠ lease'.subnet) :
    ∀ owned ∈ lease.ownedRules, owned.1 ∉ lease'.ownedRules.map Prod.fst := by
  intro owned howned hmem
  obtain ⟨o, ho, heq⟩ := List.mem_map.mp hmem
  rw [← subnet_of_mem_ownedRules howned, ← subnet_of_mem_ownedRules ho, heq] at h
  exact h rfl

/-- Live containers with different ids have no rule in common. -/
theorem Safe.disjoint (h : s.Safe) {a b : BridgeRecord} (ha : a ∈ s.records) (hb : b ∈ s.records)
    (halive : a.live) (hblive : b.live) (hne : a.id ≠ b.id) :
    ∀ owned ∈ a.lease.ownedRules, owned.1 ∉ b.lease.ownedRules.map Prod.fst := by
  obtain ⟨octet, hoctet, hsubnet⟩ := (h.live a ha halive).octet
  obtain ⟨octet', hoctet', hsubnet'⟩ := (h.live b hb hblive).octet
  exact disjoint_of_subnet_ne (subnet_ne_of_pool h.pool hne hoctet hsubnet hoctet' hsubnet')

/-! ## One command -/

/-- A live record after `lose` is one of before, with another id. -/
theorem mem_lose (h : record ∈ (s.lose id).records) (hlive : record.live) :
    record ∈ s.records ∧ record.id ≠ id := by
  obtain ⟨old, hold, heq⟩ := List.mem_map.mp h
  split at heq
  · rw [← heq] at hlive
    exact absurd hlive Bool.false_ne_true
  · rename_i hne
    exact heq ▸ ⟨hold, hne⟩

theorem lose_unique (h : ∀ a ∈ s.records, ∀ b ∈ s.records, a.id = b.id → a = b) :
    ∀ a ∈ (s.lose id).records, ∀ b ∈ (s.lose id).records, a.id = b.id → a = b := by
  intro a ha b hb heq
  obtain ⟨a', ha', rfl⟩ := List.mem_map.mp ha
  obtain ⟨b', hb', rfl⟩ := List.mem_map.mp hb
  have hid : ∀ record : BridgeRecord,
      (if record.id = id then { record with live := false } else record).id = record.id := by
    intro record
    split <;> rfl
  rw [hid, hid] at heq
  rw [h a' ha' b' hb' heq]

/-- The recovery of one stale state: no state is added, and who has another id and other rules keeps
what it has. -/
theorem recover_spec (faults : DoctorFaults) (s : LeaseSystem) (record : BridgeRecord) :
    (∀ b ∈ (recover faults s record).records, b ∈ s.records) ∧
    ((∃ pool, Represents s.allocations pool) →
      ∃ pool, Represents (recover faults s record).allocations pool) ∧
    ∀ b, s.Has b → (!record.live → b.id ≠ record.id ∧
        ∀ owned ∈ b.lease.ownedRules, owned.1 ∉ record.lease.ownedRules.map Prod.fst) →
      (recover faults s record).Has b := by
  rw [recover]
  split
  · exact ⟨fun _ ↦ id, id, fun _ h _ ↦ h⟩
  · rename_i hstale
    have hstale : (!record.live) = true := by simpa using hstale
    have htaken : ∀ b, s.Has b → (!record.live → b.id ≠ record.id ∧
        ∀ owned ∈ b.lease.ownedRules, owned.1 ∉ record.lease.ownedRules.map Prod.fst) →
        (s.takeDown (faults.recovery record.id) record.id record.lease).1.Has b := fun b h hother ↦
      h.takeDown _ (hother hstale).1 (hother hstale).2
    have hpool := @takeDown_pool s record.id (faults.recovery record.id) record.lease
    have hsame := takeDown_records (faults.recovery record.id) s record.id record.lease
    split
    · rename_i s' hdown
      rw [hdown] at htaken hpool hsame
      refine ⟨fun b hb ↦ ?_, hpool, fun b h hother ↦ ?_⟩
      · exact hsame ▸ (List.mem_filter.mp hb).1
      · obtain ⟨hoctet, hrules⟩ := htaken b h hother
        exact ⟨hoctet, hrules⟩
    · rename_i s' hdown
      rw [hdown] at htaken hpool hsame
      exact ⟨fun b hb ↦ hsame ▸ hb, hpool, htaken⟩

/-- The recovery of all of them. -/
theorem foldl_recover_spec (faults : DoctorFaults) (l : List BridgeRecord) (s : LeaseSystem) :
    (∀ b ∈ (l.foldl (recover faults) s).records, b ∈ s.records) ∧
    ((∃ pool, Represents s.allocations pool) →
      ∃ pool, Represents (l.foldl (recover faults) s).allocations pool) ∧
    ∀ b, s.Has b → (∀ a ∈ l, !a.live → b.id ≠ a.id ∧
        ∀ owned ∈ b.lease.ownedRules, owned.1 ∉ a.lease.ownedRules.map Prod.fst) →
      (l.foldl (recover faults) s).Has b := by
  induction l generalizing s with
  | nil => exact ⟨fun _ ↦ id, id, fun _ h _ ↦ h⟩
  | cons a rest ih =>
    obtain ⟨hrecords, hpool, hhas⟩ := recover_spec faults s a
    obtain ⟨hrecords', hpool', hhas'⟩ := ih (recover faults s a)
    refine ⟨fun b hb ↦ hrecords b (hrecords' b hb), fun h ↦ hpool' (hpool h), fun b h hother ↦ ?_⟩
    exact hhas' b (hhas b h (hother a List.mem_cons_self)) fun a' ha' ↦
      hother a' (List.mem_cons_of_mem a ha')

theorem Safe.doctor (h : s.Safe) (faults : DoctorFaults)
    (hcond : s.SparesLive (.doctor faults)) : (s.doctor faults).Safe := by
  obtain ⟨hrecords, hpool, hhas⟩ := foldl_recover_spec faults s.records s
  -- a live container has another id than a stale one, and by the condition other rules
  have hlive : ∀ b ∈ s.records, b.live → (s.records.foldl (recover faults) s).Has b := by
    intro b hb hblive
    refine hhas b (h.live b hb hblive) fun a ha hastale ↦ ⟨fun heq ↦ ?_, ?_⟩
    · rw [← h.unique b hb a ha heq, hblive] at hastale
      exact absurd hastale Bool.false_ne_true
    · exact hcond a ha b hb hastale hblive
  have hsafe : (s.records.foldl (recover faults) s).Safe :=
    ⟨hpool h.pool, fun a ha b hb ↦ h.unique a (hrecords a ha) b (hrecords b hb),
      fun b hb ↦ hlive b (hrecords b hb)⟩
  rw [LeaseSystem.doctor]
  split
  · exact hsafe
  · refine ⟨releaseIds_pool _ _ hsafe.pool, hsafe.unique, fun b hb hblive ↦ ?_⟩
    obtain ⟨⟨octet, hoctet, hsubnet⟩, hrules⟩ := hsafe.live b hb hblive
    refine ⟨⟨octet, ?_, hsubnet⟩, hrules⟩
    refine (releaseIds_of_notMem _ (fun hmem ↦ ?_) _).trans hoctet
    have hinactive := of_decide_eq_true (List.mem_filter.mp hmem).2
    exact hinactive (List.mem_map.mpr ⟨b, List.mem_filter.mpr ⟨hrecords b hb, hblive⟩, rfl⟩)

theorem Safe.lose (h : s.Safe) (id : String) : (s.lose id).Safe := by
  refine ⟨h.pool, lose_unique h.unique, fun b hb hlive ↦ ?_⟩
  obtain ⟨hoctet, hrules⟩ := h.live b (mem_lose hb hlive).1 hlive
  exact ⟨hoctet, hrules⟩

theorem Safe.stop (h : s.Safe) {faults : TakedownFaults}
    (hstep : s.step (.stop id faults) = some t) : t.Safe := by
  simp only [step] at hstep
  split at hstep
  · simp at hstep
  · rename_i record hfind
    have hmem : record ∈ s.records := List.mem_of_find?_eq_some hfind
    obtain ⟨hlive, hid⟩ : record.live = true ∧ record.id = id := by
      simpa using List.find?_some hfind
    -- the other live containers have other rules
    have hothers : ∀ b ∈ s.records, b.live → b.id ≠ id →
        (s.takeDown faults id record.lease).1.Has b := fun b hb hblive hne ↦
      (h.live b hb hblive).takeDown faults hne
        (h.disjoint hb hmem hblive hlive (hid.symm ▸ hne))
    have hpool := @takeDown_pool s id faults record.lease h.pool
    have hsame := takeDown_records faults s id record.lease
    split at hstep
    · rename_i s' hdown
      rw [hdown] at hothers hpool hsame
      cases hstep
      have hsub : ∀ b ∈ (s'.drop record).records, b ∈ s.records ∧ b ≠ record := fun b hb ↦
        ⟨hsame ▸ (List.mem_filter.mp hb).1, of_decide_eq_true (List.mem_filter.mp hb).2⟩
      refine ⟨hpool, fun a ha b hb ↦ h.unique a (hsub a ha).1 b (hsub b hb).1, fun b hb hblive ↦ ?_⟩
      obtain ⟨hb, hne⟩ := hsub b hb
      obtain ⟨hoctet, hrules⟩ := hothers b hb hblive fun heq ↦
        hne (h.unique b hb record hmem (heq.trans hid.symm))
      exact ⟨hoctet, hrules⟩
    · rename_i s' hdown
      rw [hdown] at hothers hpool hsame
      cases hstep
      refine ⟨hpool, lose_unique (hsame ▸ h.unique), fun b hb hblive ↦ ?_⟩
      obtain ⟨hmem', hne⟩ := mem_lose hb hblive
      obtain ⟨hoctet, hrules⟩ := hothers b (hsame ▸ hmem') hblive hne
      exact ⟨hoctet, hrules⟩

/-- A new state is added to the ones there are. -/
theorem Safe.insert (h : s.Safe) (hid : ∀ b ∈ s.records, b.id ≠ record.id)
    (hnew : record.live → s.Has record) : (s.insert record).Safe := by
  have hmem : ∀ b ∈ (s.insert record).records, b = record ∨ b ∈ s.records := fun b hb ↦
    (List.mem_orderedInsert ..).mp hb
  refine ⟨h.pool, fun a ha b hb heq ↦ ?_, fun b hb hlive ↦ ?_⟩
  · rcases hmem a ha with ha' | ha' <;> rcases hmem b hb with hb' | hb'
    · rw [ha', hb']
    · exact absurd (heq.symm.trans (congrArg _ ha')) (hid b hb')
    · exact absurd (heq.trans (congrArg _ hb')) (hid a ha')
    · exact h.unique a ha' b hb' heq
  · rcases hmem b hb with rfl | hb
    · obtain ⟨hoctet, hrules⟩ := hnew hlive
      exact ⟨hoctet, hrules⟩
    · obtain ⟨hoctet, hrules⟩ := h.live b hb hlive
      exact ⟨hoctet, hrules⟩

theorem Safe.start (h : s.Safe) (faults : StartFaults) (hid : id ∉ s.records.map BridgeRecord.id) :
    (s.start faults id).Safe := by
  have hnew : ∀ b ∈ s.records, b.id ≠ id := fun b hb heq ↦
    hid (List.mem_map.mpr ⟨b, hb, heq⟩)
  rw [LeaseSystem.start]
  split
  · exact h
  · rename_i saved network hallocate
    obtain ⟨hpool, ⟨octet, hoctet, hsubnet⟩, hkeep⟩ := allocateRead_spec h.pool hallocate
    -- with the allocation, whether or not it is released again
    have hallocated : ∀ host : NatHost, (∀ b ∈ s.records, b.live →
        ∀ owned ∈ b.lease.ownedRules, owned.1 ∈ host.rules) →
        Safe { s with host, allocations := saved.getD s.allocations } := by
      intro host hrules
      refine ⟨hpool, h.unique, fun b hb hlive ↦ ⟨?_, hrules b hb hlive⟩⟩
      obtain ⟨octet', hoctet', hsubnet'⟩ := (h.live b hb hlive).octet
      exact ⟨octet', (hkeep b.id (hnew b hb)).trans hoctet', hsubnet'⟩
    have hreleased : ∀ (fails : Bool) (host : NatHost), (∀ b ∈ s.records, b.live →
        ∀ owned ∈ b.lease.ownedRules, owned.1 ∈ host.rules) →
        Safe { s with host, allocations := release fails (saved.getD s.allocations) id } := by
      intro fails host hrules
      have hsafe := hallocated host hrules
      refine ⟨release_pool fails hsafe.pool id, h.unique, fun b hb hlive ↦ ⟨?_, hrules b hb hlive⟩⟩
      obtain ⟨octet', hoctet', hsubnet'⟩ := (hsafe.live b hb hlive).octet
      exact ⟨octet', (release_of_ne fails _ (hnew b hb)).trans hoctet', hsubnet'⟩
    -- a live container has another octet, so that its rules are of another subnet
    have hother : ∀ b ∈ s.records, b.live → b.lease.subnet ≠ network.subnet := by
      intro b hb hlive
      obtain ⟨octet', hoctet', hsubnet'⟩ := (h.live b hb hlive).octet
      exact subnet_ne_of_pool hpool (hnew b hb) ((hkeep b.id (hnew b hb)).trans hoctet') hsubnet'
        hoctet hsubnet
    dsimp only
    split
    · exact hreleased _ s.host fun b hb hlive ↦ (h.live b hb hlive).rules
    · split
      · rename_i host e hsetup
        refine hreleased _ host fun b hb hlive owned howned ↦ ?_
        refine (mem_setupNat hsetup).1 owned.1 ((h.live b hb hlive).rules owned howned) ?_
        rw [subnet_of_mem_ownedRules howned]
        exact hother b hb hlive
      · rename_i host lease hsetup
        obtain ⟨hrules, hlease⟩ := mem_setupNat hsetup
        obtain ⟨hleaseSubnet, hthere⟩ := hlease lease rfl
        have hsafe := hallocated host fun b hb hlive owned howned ↦
          hrules owned.1 ((h.live b hb hlive).rules owned howned) (by
            rw [subnet_of_mem_ownedRules howned]
            exact hother b hb hlive)
        -- taking it back deletes the rules of its own subnet
        have htaken : Safe (({ s with host, allocations := saved.getD s.allocations } :
            LeaseSystem).takeDown faults.takedown id lease).1 := by
          refine ⟨takeDown_pool _ _ hsafe.pool, h.unique, fun b hb hlive ↦ ?_⟩
          refine (hsafe.live b hb hlive).takeDown _ (hnew b hb) (disjoint_of_subnet_ne ?_)
          rw [hleaseSubnet]
          exact hother b hb hlive
        split
        · exact htaken
        · split
          · exact htaken.insert hnew fun hlive ↦ absurd hlive Bool.false_ne_true
          · exact hsafe.insert hnew fun _ ↦
              ⟨⟨octet, hoctet, hleaseSubnet.trans hsubnet⟩, hthere⟩

/-- **One step.** -/
theorem Safe.step (h : s.Safe) {a : LeaseAct} (hcond : s.SparesLive a)
    (hstep : s.step a = some t) : t.Safe := by
  cases a with
  | start id faults =>
    simp only [LeaseSystem.step] at hstep
    split at hstep
    · simp at hstep
    · rename_i hid
      cases hstep
      exact h.start faults hid
  | stop id faults => exact h.stop hstep
  | die id =>
    cases hstep
    exact h.lose id
  | doctor faults =>
    cases hstep
    exact h.doctor faults hcond

theorem Safe.init (host : NatHost) : (init host).Safe :=
  ⟨⟨Pool.empty, represents_empty⟩, fun _ ha ↦ absurd ha List.not_mem_nil,
    fun _ hrecord ↦ absurd hrecord List.not_mem_nil⟩

/-- **Stale leases and live ones.**  In every run in which no `doctor --fix` finds a stale lease that
owns a rule of a live one, the rules of every live lease are installed in every state reached.  And a
cleanup that succeeded can be repeated — it succeeds again, and leaves the rules as they are — exactly
if the lease owns no rule. -/
theorem stale_lease_exact (host : NatHost) :
    (∀ (acts : List LeaseAct) (t : LeaseSystem),
      Along LeaseSystem.step SparesLive (LeaseSystem.init host) acts →
      exec LeaseSystem.step (LeaseSystem.init host) acts = some t → t.Installed) ∧
    ∀ (faults : NatFaults) (host' : NatHost) (lease : NatLease),
      cleanupNatLease faults host lease = (host', .ok ()) →
      ((cleanupNatLease {} host' lease).2 = .ok () ∧
        (cleanupNatLease {} host' lease).1.rules = host'.rules ↔ lease.ownedRules = []) := by
  refine ⟨fun acts t hcond hrun ↦ ?_, fun faults host' lease _ ↦ ?_⟩
  · have hsafe : t.Safe :=
      invariant_along (fun _ _ _ hs hc ha ↦ hs.step hc ha) (Safe.init host) hcond hrun
    exact fun record hrecord hlive ↦ (hsafe.live record hrecord hlive).rules
  · exact cleanupNatLease_keeps_iff host' lease

/-- A lease of a subnet whose rules were there before. -/
def foreignLease : NatLease where
  subnet := "10.88.20.0/24"
  postroutingOwned := false
  forwardSourceOwned := false
  forwardDestinationOwned := false
  previousIpForward := some "1"

/-- A stale container is recovered, and its subnet goes to another one. -/
def recoveredActs : List LeaseAct :=
  [.start "a" {}, .die "a", .doctor {}, .start "b" {}, .doctor {}]

theorem stale_lease_exact_recovered :
    (∃ t, exec LeaseSystem.step (LeaseSystem.init ⟨[], "1"⟩) recoveredActs = some t ∧ t.Installed) ∧
    (cleanupNatLease {} ⟨[], "1"⟩ foreignLease).2 = .ok () ∧
      (cleanupNatLease {} ⟨[], "1"⟩ foreignLease).1.rules = [] :=
  ⟨⟨_, rfl, (stale_lease_exact ⟨[], "1"⟩).1 recoveredActs _ (by decide +kernel) rfl⟩,
    ((stale_lease_exact ⟨[], "1"⟩).2 {} ⟨[], "1"⟩ foreignLease rfl).mpr rfl⟩

/-- The last rule of the subnet 20 cannot be deleted. -/
def busyDestination : NatFaults where
  iptables := fun command ↦
    if command = .delete (.forwardDestination "10.88.20.0/24") then
      some (.commandTimedOut "iptables" "-D FORWARD -d 10.88.20.0/24 -j ACCEPT" 10000)
    else none

/-- The first `doctor --fix` deletes two of the three rules of `a`, fails on the third and releases
the octet.  Then `b` is started with it, and the second `doctor --fix` tries `a` again. -/
def retriedActs : List LeaseAct :=
  [.start "a" {}, .die "a", .doctor { recovery := fun _ ↦ { nat := busyDestination } },
    .start "b" {}, .doctor {}]

/-- The rules of `b` are gone.  And a cleanup that succeeded fails the second time. -/
theorem retry_takes_live_rules :
    (∃ t lease, exec LeaseSystem.step (LeaseSystem.init ⟨[], "1"⟩) retriedActs = some t ∧
      t.records = [⟨"b", lease, true⟩] ∧ t.host.rules = [] ∧ ¬ t.Installed) ∧
    ∃ host', cleanupNatLease {} ⟨(NatSystem.sampleLease "10.88.20.0/24" "1").ownedRules.map Prod.fst,
        "1"⟩ (NatSystem.sampleLease "10.88.20.0/24" "1") = (host', .ok ()) ∧
      (cleanupNatLease {} host' (NatSystem.sampleLease "10.88.20.0/24" "1")).2 ≠ .ok () := by
  constructor
  · have hend : (exec LeaseSystem.step (LeaseSystem.init ⟨[], "1"⟩) retriedActs).map
        (fun t ↦ (t.records, t.host.rules)) =
        some ([⟨"b", ⟨"10.88.20.0/24", true, true, false, some "1"⟩, true⟩], []) := by
      decide +kernel
    obtain ⟨t, hexec, hpair⟩ := Option.map_eq_some_iff.mp hend
    obtain ⟨hrecords, hrules⟩ := Prod.mk.inj hpair
    refine ⟨t, _, hexec, hrecords, hrules, fun hinstalled ↦ ?_⟩
    have hrule := hinstalled _ (hrecords ▸ List.mem_singleton_self _) rfl
      (.postrouting "10.88.20.0/24", "POSTROUTING cleanup failed: ") List.mem_cons_self
    rw [hrules] at hrule
    exact absurd hrule List.not_mem_nil
  · refine ⟨⟨[], "1"⟩, by decide +kernel, fun hok ↦ ?_⟩
    have hfails : (cleanupNatLease {} ⟨[], "1"⟩
        (NatSystem.sampleLease "10.88.20.0/24" "1")).2.toBool = false := by
      decide +kernel
    rw [hok] at hfails
    exact absurd hfails (by decide)

end LeaseSystem

end CrunRs.Network
