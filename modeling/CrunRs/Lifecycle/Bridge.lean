import CrunRs.Doctor
import CrunRs.Lib.Lts
import CrunRs.Network.Allocations
import Mathlib.Data.Fintype.Basic
import Mathlib.Data.List.Sort

/-!
# Starting a bridge container while `doctor` is at work

`run_process` allocates a subnet, makes a link and sets up the address translation before
`on_started` saves the state that says whose they are.  `doctor --fix` lists the states first, and
then decides by that listing, one check after the other: it recovers the states whose process is gone,
releases the allocations of all ids that are not in the listing as running, and deletes the links
that do not carry the pid of a container in the listing.

A container that allocates before `doctor` reads the allocations and saves its state after `doctor`
has listed the states loses its allocation, and its link as well.  The next container gets the same
subnet (`doctor_releases_starting`).

So what has to be avoided is known (`Settled`): nobody who is up may be missing from the listing when
the allocations are read, have a link when the links are listed — that a link is named after the id
and not after the pid is a matter of its own, see `Doctor.orphan_veth_exact` — or have the id or the
link of a state that is found stale; and nobody may take an allocation or a link that some `doctor`
already has on its list.  If every step is like that, no `doctor` takes anything from a container that
is starting or running, and no two of them have the same octet (`doctor_spares_starting`).
-/

set_option autoImplicit false

namespace CrunRs.Lifecycle

open Doctor Lts Network State

universe u v

/-! ## What is shared -/

/-- The allocations, the host ends of the links, and the states in the order of their ids. -/
structure BridgeShared where
  allocations : BridgeAllocations
  links : List String
  states : List ContainerState

namespace BridgeShared

/-- A cleanup step that succeeds. -/
def cleanUp (s : BridgeShared) : Cleanup → BridgeShared
  | .bridgeAllocation id => { s with allocations := releaseRead s.allocations id }
  | .veth name => { s with links := s.links.filter (· ≠ name) }
  | .cgroup _ | .nat _ | .overlay _ => s

/-- A state is saved. -/
def save (s : BridgeShared) (state : ContainerState) : BridgeShared :=
  let others := s.states.filter fun old ↦ old.id ≠ state.id
  { s with states := others.orderedInsert (fun a b ↦ a.id ≤ b.id) state }

end BridgeShared

/-! ## One container -/

/-- Where the runtime process of a container is. -/
inductive BridgePc
  | idle
  | allocated (octet : UInt8)
  /-- `setup_veth_parent` is done. -/
  | linked (octet : UInt8)
  /-- `setup_nat` is done. -/
  | natted (octet : UInt8)
  /-- `on_started` has saved the running state. -/
  | live (octet : UInt8)
  /-- Failed or ended, and taking down its link. -/
  | closing
  /-- About to release its allocation. -/
  | unlinked
  deriving DecidableEq, Repr

namespace BridgePc

/-- The octet of a container that is starting or running. -/
def octet : BridgePc → Option UInt8
  | allocated octet | linked octet | natted octet | live octet => some octet
  | _ => none

/-- It is starting or running. -/
def up (pc : BridgePc) : Bool := pc.octet.isSome

def hasLink : BridgePc → Bool
  | linked _ | natted _ | live _ => true
  | _ => false

/-- The cleanup steps that would take something from it. -/
def holds (pc : BridgePc) (id : String) : List Cleanup :=
  (if pc.up then [.bridgeAllocation id] else []) ++
    (if pc.hasLink then [.veth (VethPair.forContainerId id).hostName] else [])

end BridgePc

inductive BridgeAct
  | allocate
  | link
  | nat
  | save (state : ContainerState)
  /-- A step of the start fails, or the container ends. -/
  | close
  | deleteLink (fails : Bool)
  | release (fails : Bool)
  /-- The state is marked stopped. -/
  | mark (now : Option UInt64)
  /-- The state is deleted. -/
  | delete
  /-- The runtime process and the container are gone, and nothing is cleaned up. -/
  | die

/-- One step of the runtime process of the container `id`, or of a command on it. -/
def stepBridge (id : String) (s : BridgeShared) : BridgePc → BridgeAct → Option (BridgePc × BridgeShared)
  | .idle, .allocate =>
    -- `run` wants no state, and `start` one that says created
    if s.states.any fun state ↦ state.id = id && state.status ≠ .created then none
    else match allocateRead s.allocations id with
      -- the octet of the network that is returned
      | (saved, .ok _) => match (saved.getD s.allocations).containers[id]? with
        | some octet => some (.allocated octet, { s with allocations := saved.getD s.allocations })
        | none => none
      | (_, .error _) => none
  | .allocated octet, .link =>
    let name := (VethPair.forContainerId id).hostName
    -- `ip link add` does not replace a link
    if name ∈ s.links then none else some (.linked octet, { s with links := name :: s.links })
  | .linked octet, .nat => some (.natted octet, s)
  | .natted octet, .save state =>
    if state.id = id ∧ state.status = .running ∧ state.networkMode = "bridge" then
      some (.live octet, s.save state)
    else none
  | .allocated _, .close | .linked _, .close | .natted _, .close | .live _, .close =>
    some (.closing, s)
  | .closing, .deleteLink fails =>
    some (.unlinked, if fails then s else s.cleanUp (.veth (VethPair.forContainerId id).hostName))
  | .unlinked, .release fails =>
    some (.idle, if fails then s else s.cleanUp (.bridgeAllocation id))
  | .idle, .mark now => match s.states.find? (·.id = id) with
    | some state => some (.idle, s.save (state.markStopped now none none).1)
    | none => none
  | .idle, .delete => some (.idle, { s with states := s.states.filter (·.id ≠ id) })
  | .allocated _, .die | .linked _, .die | .natted _, .die | .live _, .die => some (.idle, s)
  | _, _ => none

theorem BridgePc.mem_holds {pc : BridgePc} {id : String} {step : Cleanup} :
    step ∈ pc.holds id ↔ (pc.up ∧ step = .bridgeAllocation id) ∨
      (pc.hasLink ∧ step = .veth (VethPair.forContainerId id).hostName) := by
  rw [holds, List.mem_append]
  refine or_congr ?_ ?_
  · cases pc.up <;> simp
  · cases pc.hasLink <;> simp

/-- **What one step of a container can do.**  It allocates; or it keeps its octet or gives it up, and
then it may release it. -/
theorem stepBridge_cases {id : String} {s s' : BridgeShared} {pc pc' : BridgePc} {act : BridgeAct}
    (h : stepBridge id s pc act = some (pc', s')) :
    (act = .allocate ∧ ∃ octet saved network, pc' = .allocated octet ∧
      allocateRead s.allocations id = (saved, .ok network) ∧
      s'.allocations = saved.getD s.allocations ∧ s'.allocations.containers[id]? = some octet) ∨
    ((∀ octet, pc'.octet = some octet → pc.octet = some octet) ∧
      (pc'.hasLink → pc.hasLink ∨ act = .link) ∧
      (s'.allocations = s.allocations ∨
        pc'.octet = none ∧ s'.allocations = releaseRead s.allocations id)) := by
  revert h
  fun_cases stepBridge id s pc act
  all_goals intro h
  all_goals cases h
  case case2 saved network hallocate octet hoctet =>
    exact Or.inl ⟨rfl, octet, saved, network, rfl, hallocate, rfl, hoctet⟩
  -- the link, the translation, and the save
  case case6 => exact Or.inr ⟨fun _ h ↦ h, fun _ ↦ Or.inr rfl, Or.inl rfl⟩
  case case7 | case8 => exact Or.inr ⟨fun _ h ↦ h, Or.inl, Or.inl rfl⟩
  case case14 fails => exact Or.inr ⟨fun _ h ↦ h, Or.inl, Or.inl (by cases fails <;> rfl)⟩
  case case15 fails =>
    cases fails with
    | true => exact Or.inr ⟨fun _ h ↦ h, Or.inl, Or.inl rfl⟩
    | false => exact Or.inr ⟨fun _ h ↦ h, Or.inl, Or.inr ⟨rfl, rfl⟩⟩
  -- what is over is not up
  all_goals
    refine Or.inr ⟨fun octet hoctet ↦ ?_, fun hlink ↦ absurd hlink Bool.false_ne_true, Or.inl rfl⟩
    exact absurd hoctet (Option.some_ne_none octet).symm

/-! ## `doctor --fix` -/

/-- Where a `doctor --fix` is, with the listing it decides by. -/
inductive DoctorPc
  | idle
  | listed (states : List ContainerState)
  /-- In the loop of `check_stale_running_states`. -/
  | checking (states : List ContainerState) (protectedVeths : List String)
      (todo : List ContainerState)
  /-- Recovering a state: the steps left, and whether one has failed. -/
  | recovering (states : List ContainerState) (protectedVeths : List String)
      (todo : List ContainerState) (state : ContainerState) (steps : List Cleanup) (failed : Bool)
  /-- After `check_orphan_cgroups`. -/
  | checked (states : List ContainerState)
  /-- In the loop of `check_stale_network_allocations`. -/
  | releasing (states : List ContainerState) (ids : List String)
  /-- In the loop of `check_orphan_veth_links`. -/
  | deleting (names : List String)

/-- What it has on its list. -/
def DoctorPc.pending : DoctorPc → List Cleanup
  | recovering _ _ _ _ steps _ => steps
  | releasing _ ids => ids.map .bridgeAllocation
  | deleting names => names.map .veth
  | _ => []

inductive DoctorAct
  | list
  | protect (host : DoctorHost)
  | check (host : DoctorHost)
  /-- The next step of a recovery. -/
  | clean (fails : Bool)
  /-- The end of a recovery: `mark_stale_state_stopped`, if nothing has failed. -/
  | mark (now : Option UInt64)
  | checkCgroups
  | readAllocations (host : DoctorHost)
  | release (fails : Bool)
  | listLinks
  | deleteLink (fails : Bool)
  /-- The checks are over, or one of them ends with an error. -/
  | quit

/-- One step of a `doctor --fix`. -/
def stepDoctor (s : BridgeShared) : DoctorPc → DoctorAct → Option (DoctorPc × BridgeShared)
  | .idle, .list => some (.listed s.states, s)
  | .listed states, .protect host =>
    some (.checking states (activeVethNames host states) states, s)
  | .checking states protectedVeths (state :: todo), .check host =>
    if state.status = .running ∧ isStaleProcess host state then
      some (.recovering states protectedVeths todo state
        ((staleSteps protectedVeths state).map Prod.fst) false, s)
    else some (.checking states protectedVeths todo, s)
  | .recovering states protectedVeths todo state (step :: steps) failed, .clean fails =>
    some (.recovering states protectedVeths todo state steps (failed || fails),
      if fails then s else s.cleanUp step)
  | .recovering states protectedVeths todo state [] failed, .mark now =>
    some (.checking states protectedVeths todo,
      if failed then s else s.save (state.markStopped now none (some "STALE")).1)
  | .checking states _ [], .checkCgroups => some (.checked states, s)
  | .checked states, .readAllocations host =>
    let ids := s.allocations.containers.toList.map Prod.fst
    some (.releasing states (ids.filter (· ∉ activeBridgeIds host states)), s)
  | .releasing states (id :: ids), .release fails =>
    -- a failing release ends the command
    if fails then some (.idle, s)
    else some (.releasing states ids, s.cleanUp (.bridgeAllocation id))
  | .releasing states [], .listLinks =>
    some (.deleting (s.links.filter (· ∉ expectedVeths states)), s)
  | .deleting (name :: names), .deleteLink fails =>
    some (.deleting names, if fails then s else s.cleanUp (.veth name))
  | _, .quit => some (.idle, s)
  | _, _ => none

/-- The cleanup step that is taken, and succeeds. -/
def taken : DoctorPc → DoctorAct → Option Cleanup
  | .recovering _ _ _ _ (step :: _) _, .clean false => some step
  | .releasing _ (id :: _), .release false => some (.bridgeAllocation id)
  | .deleting (name :: _), .deleteLink false => some (.veth name)
  | _, _ => none

/-- It is the first one on the list. -/
theorem mem_pending_of_taken {pc : DoctorPc} {act : DoctorAct} {step : Cleanup}
    (h : taken pc act = some step) : step ∈ pc.pending := by
  revert h
  fun_cases taken pc act
  all_goals intro h
  all_goals cases h
  all_goals exact List.mem_cons_self

/-- The network steps of a recovery concern the id of the state and its two link names, as far as they
are not protected. -/
theorem mem_staleSteps {protectedVeths : List String} {state : ContainerState} :
    (∀ id, .bridgeAllocation id ∈ (staleSteps protectedVeths state).map Prod.fst →
      state.networkMode = "bridge" ∧ id = state.id) ∧
    ∀ name, .veth name ∈ (staleSteps protectedVeths state).map Prod.fst →
      state.networkMode = "bridge" ∧ name ∈ hostNames state ∧ name ∉ protectedVeths := by
  by_cases hbridge : state.networkMode = "bridge"
  · constructor
    · intro id hmem
      simp [staleSteps, hbridge] at hmem
      exact ⟨hbridge, hmem⟩
    · intro name hmem
      simp [staleSteps, hbridge] at hmem
      exact ⟨hbridge, hmem⟩
  · constructor
    · intro id hmem
      simp [staleSteps, hbridge] at hmem
    · intro name hmem
      simp [staleSteps, hbridge] at hmem

/-- **What one step of a `doctor` does to what is shared**: it takes the cleanup step it has on its
list, or nothing that concerns a network. -/
theorem stepDoctor_shared {s s' : BridgeShared} {pc pc' : DoctorPc} {act : DoctorAct}
    (h : stepDoctor s pc act = some (pc', s')) :
    (∃ step ∈ pc.pending, taken pc act = some step ∧
      s'.allocations = (s.cleanUp step).allocations) ∨
    (taken pc act = none ∧ s'.allocations = s.allocations) := by
  revert h
  fun_cases stepDoctor s pc act
  all_goals intro h
  all_goals cases h
  -- the next step of a recovery, the next release, and the next link
  case case5 step steps failed fails =>
    cases fails with
    | true => exact Or.inr ⟨rfl, rfl⟩
    | false => exact Or.inl ⟨step, List.mem_cons_self, rfl, rfl⟩
  case case10 states id ids fails hworks =>
    obtain rfl : fails = false := Bool.eq_false_iff.mpr hworks
    exact Or.inl ⟨.bridgeAllocation id, List.mem_cons_self, rfl, rfl⟩
  case case12 name names fails =>
    cases fails with
    | true => exact Or.inr ⟨rfl, rfl⟩
    | false => exact Or.inl ⟨.veth name, List.mem_cons_self, rfl, rfl⟩
  case case6 failed now => exact Or.inr ⟨rfl, by cases failed <;> rfl⟩
  case case13 => exact Or.inr ⟨by simp [taken], rfl⟩
  all_goals exact Or.inr ⟨rfl, rfl⟩

/-! ## All of them -/

/-- The containers, each with an id of its own. -/
structure Containers (ι : Type u) where
  id : ι → String
  injective : Function.Injective id

structure BridgeSystem (ι : Type u) (κ : Type v) where
  shared : BridgeShared
  container : ι → BridgePc
  doctor : κ → DoctorPc

inductive SystemAct (ι : Type u) (κ : Type v)
  | container (i : ι) (act : BridgeAct)
  | doctor (d : κ) (act : DoctorAct)

namespace BridgeSystem

variable {ι : Type u} {κ : Type v} (containers : Containers ι)

/-- No container, no link and no `doctor`. -/
def init : BridgeSystem ι κ where
  shared := { allocations := {}, links := [], states := [] }
  container := fun _ ↦ .idle
  doctor := fun _ ↦ .idle

/-- The host end of the link of a container. -/
def hostName (i : ι) : String := (VethPair.forContainerId (containers.id i)).hostName

/-- The condition on the steps of a `doctor` that put something on its list: what it concerns is not
up. -/
def DoctorSettled (s : BridgeSystem ι κ) : DoctorPc → DoctorAct → Prop
  | .checking _ protectedVeths (state :: _), .check host =>
    state.status = .running → isStaleProcess host state → state.networkMode = "bridge" →
      ∀ i, ((s.container i).up → containers.id i ≠ state.id) ∧
        ((s.container i).hasLink → hostName containers i ∈ hostNames state →
          hostName containers i ∈ protectedVeths)
  | .checked states, .readAllocations host =>
    ∀ i, (s.container i).up → containers.id i ∈ activeBridgeIds host states
  | .releasing states [], .listLinks =>
    ∀ i, (s.container i).hasLink → hostName containers i ∈ expectedVeths states
  | _, _ => True

/-- The condition on the steps of a container that make it hold something: no `doctor` has that on its
list. -/
def ContainerSettled (s : BridgeSystem ι κ) (i : ι) : BridgeAct → Prop
  | .allocate => ∀ d, .bridgeAllocation (containers.id i) ∉ (s.doctor d).pending
  | .link => ∀ d, .veth (hostName containers i) ∉ (s.doctor d).pending
  | _ => True

/-- The condition. -/
def Settled (s : BridgeSystem ι κ) : SystemAct ι κ → Prop
  | .container i act => s.ContainerSettled containers i act
  | .doctor d act => s.DoctorSettled containers (s.doctor d) act

/-- **The property**: what a `doctor` takes is not something a container that is up holds. -/
def Spares (s : BridgeSystem ι κ) : SystemAct ι κ → Prop
  | .container _ _ => True
  | .doctor d act => ∀ step, taken (s.doctor d) act = some step →
      ∀ i, step ∉ (s.container i).holds (containers.id i)

variable {containers : Containers ι}

/-- **What one step of a `doctor` puts on its list**, if it meets the condition, is nothing that a
container that is up holds. -/
theorem pending_stepDoctor {s : BridgeSystem ι κ} {pc pc' : DoctorPc} {act : DoctorAct}
    {s' : BridgeShared} (hcond : s.DoctorSettled containers pc act)
    (h : stepDoctor s.shared pc act = some (pc', s')) :
    ∀ step ∈ pc'.pending, step ∈ pc.pending ∨
      ∀ i, step ∉ (s.container i).holds (containers.id i) := by
  revert h hcond
  fun_cases stepDoctor s.shared pc act
  all_goals intro hcond h
  all_goals cases h
  all_goals intro step hstep
  case case3 states protectedVeths state todo host hstale =>
    -- a recovery: the condition is about the id and the link names of the state
    refine Or.inr fun i hholds ↦ ?_
    rcases BridgePc.mem_holds.mp hholds with ⟨hup, rfl⟩ | ⟨hlink, rfl⟩
    · obtain ⟨hbridge, heq⟩ := mem_staleSteps.1 _ hstep
      exact (hcond hstale.1 hstale.2 hbridge i).1 hup heq
    · obtain ⟨hbridge, hname, hfree⟩ := mem_staleSteps.2 _ hstep
      exact hfree ((hcond hstale.1 hstale.2 hbridge i).2 hlink hname)
  case case5 first steps failed fails => exact Or.inl (List.mem_cons_of_mem first hstep)
  case case8 states host ids =>
    -- the allocations: who is up is in the listing
    obtain ⟨id, hid, rfl⟩ := List.mem_map.mp hstep
    refine Or.inr fun i hholds ↦ ?_
    rcases BridgePc.mem_holds.mp hholds with ⟨hup, heq⟩ | ⟨_, heq⟩
    · obtain rfl : id = containers.id i := Cleanup.bridgeAllocation.inj heq
      exact of_decide_eq_true (List.mem_filter.mp hid).2 (hcond i hup)
    · simp at heq
  case case10 states id ids fails hworks =>
    exact Or.inl (List.mem_cons_of_mem _ hstep)
  case case11 states =>
    -- the links: who is up has none
    obtain ⟨name, hname, rfl⟩ := List.mem_map.mp hstep
    refine Or.inr fun i hholds ↦ ?_
    rcases BridgePc.mem_holds.mp hholds with ⟨_, heq⟩ | ⟨hlink, heq⟩
    · simp at heq
    · obtain rfl : name = hostName containers i := Cleanup.veth.inj heq
      exact of_decide_eq_true (List.mem_filter.mp hname).2 (hcond i hlink)
  case case12 name names fails => exact Or.inl (List.mem_cons_of_mem _ hstep)
  all_goals exact absurd hstep List.not_mem_nil

/-! ## The invariant -/

/-- The allocations are a pool, who is up has its octet in it, and no `doctor` has something on its
list that a container holds. -/
structure Undisturbed (containers : Containers ι) (s : BridgeSystem ι κ) : Prop where
  pool : ∃ pool, Represents s.shared.allocations pool
  octet : ∀ i octet, (s.container i).octet = some octet →
    s.shared.allocations.containers[containers.id i]? = some octet
  pending : ∀ d, ∀ step ∈ (s.doctor d).pending, ∀ i,
    step ∉ (s.container i).holds (containers.id i)

theorem Undisturbed.init : Undisturbed containers (init : BridgeSystem ι κ) :=
  ⟨⟨Pool.empty, represents_empty⟩, fun _ octet h ↦ absurd h (Option.some_ne_none octet).symm,
    fun _ _ h ↦ absurd h List.not_mem_nil⟩

theorem Undisturbed.spares {s : BridgeSystem ι κ} (h : Undisturbed containers s)
    (a : SystemAct ι κ) : s.Spares containers a := by
  cases a with
  | container i act => trivial
  | doctor d act => exact fun step htaken ↦ h.pending d step (mem_pending_of_taken htaken)

/-- Nobody shares an octet. -/
theorem Undisturbed.eq_of_octet {s : BridgeSystem ι κ} (h : Undisturbed containers s) {i j : ι}
    {octet : UInt8} (hi : (s.container i).octet = some octet)
    (hj : (s.container j).octet = some octet) : i = j := by
  obtain ⟨pool, hrep⟩ := h.pool
  exact containers.injective (hrep.id_eq (h.octet i octet hi) (h.octet j octet hj))

variable (containers) in
/-- One step of one of them. -/
def step [DecidableEq ι] [DecidableEq κ] (s : BridgeSystem ι κ) : SystemAct ι κ → Option (BridgeSystem ι κ)
  | .container i act => match stepBridge (containers.id i) s.shared (s.container i) act with
    | some (pc, shared) => some { s with shared, container := Function.update s.container i pc }
    | none => none
  | .doctor d act => match stepDoctor s.shared (s.doctor d) act with
    | some (pc, shared) => some { s with shared, doctor := Function.update s.doctor d pc }
    | none => none

theorem Undisturbed.container [DecidableEq ι] {s : BridgeSystem ι κ}
    (h : Undisturbed containers s) {i : ι} {act : BridgeAct} {pc : BridgePc} {shared : BridgeShared}
    (hcond : s.ContainerSettled containers i act)
    (hstep : stepBridge (containers.id i) s.shared (s.container i) act = some (pc, shared)) :
    Undisturbed containers { s with shared, container := Function.update s.container i pc } := by
  have hne : ∀ j, j ≠ i → containers.id j ≠ containers.id i := fun j hj heq ↦
    hj (containers.injective heq)
  -- whatever the others hold they held before
  have hpending : (∀ d, ∀ step ∈ (s.doctor d).pending, step ∉ pc.holds (containers.id i)) →
      ∀ d, ∀ step ∈ (s.doctor d).pending, ∀ j,
        step ∉ (Function.update s.container i pc j).holds (containers.id j) := by
    intro hown d step hmem j
    by_cases hj : j = i
    · rw [hj, Function.update_self]
      exact hown d step hmem
    · rw [Function.update_of_ne hj]
      exact h.pending d step hmem j
  rcases stepBridge_cases hstep with
    ⟨rfl, octet, saved, network, rfl, hallocate, hsaved, hoctet⟩ | ⟨hkeep, hlink, halloc⟩
  · obtain ⟨hpool, _, hothers⟩ := allocateRead_spec h.pool hallocate
    rw [← hsaved] at hpool hothers
    refine ⟨hpool, fun j octet' hj ↦ ?_, hpending fun d step hmem hholds ↦ ?_⟩
    · dsimp only at hj ⊢
      by_cases heq : j = i
      · rw [heq, Function.update_self] at hj
        rw [heq, hoctet]
        exact hj
      · rw [Function.update_of_ne heq] at hj
        rw [hothers _ (hne j heq)]
        exact h.octet j octet' hj
    · rcases BridgePc.mem_holds.mp hholds with ⟨_, rfl⟩ | ⟨hno, _⟩
      · exact hcond d hmem
      · exact absurd hno Bool.false_ne_true
  · refine ⟨?_, fun j octet hj ↦ ?_, hpending fun d step hmem hholds ↦ ?_⟩
    · rcases halloc with hsame | ⟨_, hreleased⟩
      · rw [hsame]
        exact h.pool
      · rw [hreleased]
        obtain ⟨pool, hrep⟩ := h.pool
        exact ⟨_, hrep.erase _⟩
    · dsimp only at hj ⊢
      have hold : (s.container j).octet = some octet := by
        by_cases heq : j = i
        · rw [heq, Function.update_self] at hj
          rw [heq]
          exact hkeep octet hj
        · rwa [Function.update_of_ne heq] at hj
      rcases halloc with hsame | ⟨hdown, hreleased⟩
      · rw [hsame]
        exact h.octet j octet hold
      · have heq : j ≠ i := by
          rintro rfl
          rw [Function.update_self, hdown] at hj
          exact absurd hj (Option.some_ne_none octet).symm
        rw [hreleased, releaseRead_of_ne _ (hne j heq)]
        exact h.octet j octet hold
    · rcases BridgePc.mem_holds.mp hholds with ⟨hup, rfl⟩ | ⟨hhas, rfl⟩
      · obtain ⟨octet, hoctet⟩ := Option.isSome_iff_exists.mp hup
        refine h.pending d _ hmem i (BridgePc.mem_holds.mpr (Or.inl ⟨?_, rfl⟩))
        rw [BridgePc.up, hkeep octet hoctet]
        rfl
      · rcases hlink hhas with hold | rfl
        · exact h.pending d _ hmem i (BridgePc.mem_holds.mpr (Or.inr ⟨hold, rfl⟩))
        · exact hcond d hmem

theorem Undisturbed.doctor [DecidableEq κ] {s : BridgeSystem ι κ}
    (h : Undisturbed containers s) {d : κ} {act : DoctorAct} {pc : DoctorPc} {shared : BridgeShared}
    (hcond : s.DoctorSettled containers (s.doctor d) act)
    (hstep : stepDoctor s.shared (s.doctor d) act = some (pc, shared)) :
    Undisturbed containers { s with shared, doctor := Function.update s.doctor d pc } := by
  have hpending : ∀ e, ∀ step ∈ (Function.update s.doctor d pc e).pending, ∀ i,
      step ∉ (s.container i).holds (containers.id i) := by
    intro e step hmem i
    by_cases he : e = d
    · rw [he, Function.update_self] at hmem
      rcases pending_stepDoctor hcond hstep step hmem with hold | hfree
      · exact h.pending d step hold i
      · exact hfree i
    · rw [Function.update_of_ne he] at hmem
      exact h.pending e step hmem i
  rcases stepDoctor_shared hstep with ⟨step, hmem, _, halloc⟩ | ⟨_, halloc⟩
  · -- what it takes belongs to nobody who is up
    refine ⟨?_, fun i octet hi ↦ ?_, hpending⟩
    · rw [halloc]
      cases step with
      | bridgeAllocation id =>
        obtain ⟨pool, hrep⟩ := h.pool
        exact ⟨_, hrep.erase id⟩
      | veth | cgroup | nat | overlay => exact h.pool
    · rw [halloc]
      cases step with
      | bridgeAllocation id =>
        have hne : containers.id i ≠ id := by
          rintro rfl
          refine h.pending d _ hmem i (BridgePc.mem_holds.mpr (Or.inl ⟨?_, rfl⟩))
          rw [BridgePc.up, hi]
          rfl
        exact (releaseRead_of_ne _ hne).trans (h.octet i octet hi)
      | veth | cgroup | nat | overlay => exact h.octet i octet hi
  · refine ⟨?_, fun i octet hi ↦ ?_, hpending⟩
    · rw [halloc]
      exact h.pool
    · rw [halloc]
      exact h.octet i octet hi

variable [DecidableEq ι] [DecidableEq κ]

/-- **One step.** -/
theorem Undisturbed.step {s t : BridgeSystem ι κ} {a : SystemAct ι κ}
    (h : Undisturbed containers s) (hcond : s.Settled containers a)
    (hstep : s.step containers a = some t) : Undisturbed containers t := by
  cases a with
  | container i act =>
    simp only [BridgeSystem.step] at hstep
    split at hstep
    · rename_i pc shared hbridge
      cases hstep
      exact h.container hcond hbridge
    · simp at hstep
  | doctor d act =>
    simp only [BridgeSystem.step] at hstep
    split at hstep
    · rename_i pc shared hdoctor
      cases hstep
      exact h.doctor hcond hdoctor
    · simp at hstep

variable (containers) in
/-- **`doctor` spares who is starting, unless it decides too early or too late.**  In every run whose
steps meet the condition no `doctor` releases the allocation or deletes the link of a container that
is starting or running, and in every state reached no two of these have the same octet. -/
theorem doctor_spares_starting (as : List (SystemAct ι κ)) (t : BridgeSystem ι κ)
    (hcond : Along (BridgeSystem.step containers) (Settled containers) BridgeSystem.init as)
    (hrun : exec (BridgeSystem.step containers) BridgeSystem.init as = some t) :
    Along (BridgeSystem.step containers) (Spares containers) BridgeSystem.init as ∧
      ∀ i j octet, (t.container i).octet = some octet → (t.container j).octet = some octet →
        i = j := by
  have hinv : Undisturbed containers t :=
    invariant_along (fun _ _ _ hs hc ha ↦ hs.step hc ha) Undisturbed.init hcond hrun
  exact ⟨Along.of_invariant (fun _ _ _ hs hc ha ↦ hs.step hc ha) (fun _ a hs ↦ hs.spares a)
    Undisturbed.init hcond, fun i j octet ↦ hinv.eq_of_octet⟩

/-- One container, called `a`. -/
def oneContainer : Containers Unit where
  id := fun _ ↦ "a"
  injective := fun _ _ _ ↦ rfl

/-- A `doctor` that finds nothing, and then a start. -/
def quietActs : List (SystemAct Unit Unit) :=
  [.doctor () .list, .doctor () (.protect (sampleDoctorHost "")), .doctor () .checkCgroups,
    .doctor () (.readAllocations (sampleDoctorHost "")), .doctor () .listLinks, .doctor () .quit,
    .container () .allocate, .container () .link]

theorem doctor_spares_starting_quiet :
    Along (BridgeSystem.step oneContainer) (Spares oneContainer) BridgeSystem.init quietActs ∧
      ∃ t, exec (BridgeSystem.step oneContainer) BridgeSystem.init quietActs = some t ∧
        ∀ i j octet, (t.container i).octet = some octet → (t.container j).octet = some octet →
          i = j := by
  obtain ⟨t, hrun⟩ : ∃ t, exec (BridgeSystem.step oneContainer) BridgeSystem.init quietActs =
      some t := Option.isSome_iff_exists.mp (by decide +kernel)
  have hcond : Along (BridgeSystem.step oneContainer) (Settled oneContainer) BridgeSystem.init
      quietActs := by
    refine (along_cons_iff rfl).mpr ⟨trivial, ?_⟩
    refine (along_cons_iff rfl).mpr ⟨trivial, ?_⟩
    refine (along_cons_iff rfl).mpr ⟨trivial, ?_⟩
    -- nobody is up when the allocations are read and the links are listed
    refine (along_cons_iff rfl).mpr ⟨fun _ hup ↦ absurd hup Bool.false_ne_true, ?_⟩
    refine (along_cons_iff rfl).mpr ⟨fun _ hlink ↦ absurd hlink Bool.false_ne_true, ?_⟩
    refine (along_cons_iff rfl).mpr ⟨trivial, ?_⟩
    -- and the `doctor` has nothing on its list when the container starts
    refine (along_cons_iff rfl).mpr ⟨fun _ hmem ↦ absurd hmem List.not_mem_nil, ?_⟩
    refine (along_cons_iff rfl).mpr ⟨fun _ hmem ↦ absurd hmem List.not_mem_nil, trivial⟩
  obtain ⟨hspares, hoctets⟩ := doctor_spares_starting oneContainer quietActs t hcond hrun
  exact ⟨hspares, t, hrun, hoctets⟩

/-- Two containers, called `a` and `b`. -/
def twoContainers : Containers Bool where
  id := fun i ↦ if i then "a" else "b"
  injective := by decide

/-- The state of a container with a bridge network. -/
def bridgeState (id : String) : ContainerState :=
  { sampleState id 42 7 with networkMode := "bridge" }

/-- The `doctor` lists the states before `a` has saved its own, and reads the allocations and the
links after `a` has got them.  Then `b` is started. -/
def overtakenActs : List (SystemAct Bool Unit) :=
  [.doctor () .list, .container true .allocate, .container true .link,
    .doctor () (.protect (sampleDoctorHost "")), .doctor () .checkCgroups,
    .doctor () (.readAllocations (sampleDoctorHost "")), .doctor () (.release false),
    .doctor () .listLinks, .doctor () (.deleteLink false), .doctor () .quit,
    .container true .nat, .container true (.save (bridgeState "a")),
    .container false .allocate, .container false .link, .container false .nat,
    .container false (.save (bridgeState "b"))]

/-- The `doctor` has released the allocation of `a` and deleted its link, and both containers run
with the octet 20. -/
theorem doctor_releases_starting :
    ∃ t : BridgeSystem Bool Unit,
      exec (BridgeSystem.step twoContainers) BridgeSystem.init overtakenActs = some t ∧
      t.container true = .live 20 ∧ t.container false = .live 20 ∧
      t.shared.allocations.containers["a"]? = none ∧
      hostName twoContainers true ∉ t.shared.links := by
  have hend : (exec (BridgeSystem.step twoContainers) BridgeSystem.init overtakenActs).map
      (fun t : BridgeSystem Bool Unit ↦ (t.container true, t.container false,
        t.shared.allocations.containers["a"]?,
        decide (hostName twoContainers true ∈ t.shared.links))) =
      some (.live 20, .live 20, none, false) := by
    decide +kernel
  obtain ⟨t, hexec, hend⟩ := Option.map_eq_some_iff.mp hend
  simp only [Prod.mk.injEq, decide_eq_false_iff_not] at hend
  exact ⟨t, hexec, hend⟩

end BridgeSystem

end CrunRs.Lifecycle
