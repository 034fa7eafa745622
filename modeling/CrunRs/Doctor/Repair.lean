import CrunRs.Doctor

/-!
# What `doctor --fix` leaves behind

All checks of `doctor.rs` go by the states as they were when it began, and the first one changes
some of them.  So what one run has repaired another one may still object to.

If a run has repaired all that it found, the next one finds no stale state, no orphan cgroup and no
stale allocation.  But it may find links.  A link that is named after the pid of a stale container
is none of the orphans, because that state still says running; and the recovery of the state spares
it if a live container has the same name for a link, be it only because it has the pid now
(`repair_settles`, `repair_leaves_link`).  After a second run there is nothing more
(`repair_twice`).
-/

set_option autoImplicit false

namespace CrunRs.Doctor

open Network State

/-! ## A machine that is repaired -/

/-- What `doctor` goes through. -/
structure Installation where
  states : List ContainerState
  cgroups : List String
  allocations : List String
  links : List Link

/-- What `ip -o link show` writes. -/
def Installation.listing (i : Installation) : List Char :=
  i.links.flatMap fun link ↦ link.line ++ ['\n']

/-- The machine that has it. -/
def Installation.on (i : Installation) (host : DoctorHost) : DoctorHost :=
  { host with
    cgroupDirs := .ok i.cgroups
    allocationIds := .ok i.allocations
    ipLinkShow := .ok (some i.listing) }

/-- A step has been taken, and worked. -/
def Worked (host : DoctorHost) (steps : List Cleanup) (step : Cleanup) : Prop :=
  step ∈ steps ∧ host.fails step = none

instance (host : DoctorHost) (steps : List Cleanup) (step : Cleanup) :
    Decidable (Worked host steps step) :=
  inferInstanceAs (Decidable (_ ∧ _))

/-- The directory of a cgroup has been removed, however its path was written. -/
def CgroupRemoved (host : DoctorHost) (steps : List Cleanup) (path : String) : Prop :=
  ∃ written, samePath written path = true ∧ Worked host steps (.cgroup written)

/-- The path of the cgroup that a step removes. -/
def cgroupOf : Cleanup → Option String
  | .cgroup path => some path
  | _ => none

theorem cgroupRemoved_iff {host : DoctorHost} {steps : List Cleanup} {path : String} :
    CgroupRemoved host steps path ↔ ∃ written ∈ steps.filterMap cgroupOf,
      samePath written path = true ∧ host.fails (.cgroup written) = none := by
  have hmem : ∀ written, written ∈ steps.filterMap cgroupOf ↔ .cgroup written ∈ steps := by
    intro written
    rw [List.mem_filterMap]
    constructor
    · rintro ⟨step, hstep, hpath⟩
      cases step with
      | cgroup path => exact Option.some.inj hpath ▸ hstep
      | _ => cases hpath
    · exact fun hstep ↦ ⟨_, hstep, rfl⟩
  simp only [CgroupRemoved, Worked, hmem]
  exact exists_congr fun written ↦ and_left_comm

instance (host : DoctorHost) (steps : List Cleanup) (path : String) :
    Decidable (CgroupRemoved host steps path) := decidable_of_iff _ cgroupRemoved_iff.symm

/-- What is left after some steps. -/
def Installation.without (i : Installation) (host : DoctorHost) (steps : List Cleanup) :
    Installation where
  states := i.states
  cgroups := i.cgroups.filter fun path ↦ ¬ CgroupRemoved host steps path
  allocations := i.allocations.filter fun id ↦ ¬ Worked host steps (.bridgeAllocation id)
  links := i.links.filter fun link ↦ ¬ Worked host steps (.veth (String.ofList link.name))

/-- What the later checks find: with `--fix`, what the recovery of the stale states has left. -/
def Installation.seen (i : Installation) (host : DoctorHost) : Bool → Installation
  | true => i.without host (checkStaleRunningStates host i.states true).steps
  | false => i

/-- `doctor`, with and without `--fix`. -/
def Installation.check (i : Installation) (host : DoctorHost) (fix : Bool) : Outcome :=
  run ((i.seen host fix).on host) i.states fix

/-- A state that says running, and has no process. -/
def Stale (host : DoctorHost) (state : ContainerState) : Prop :=
  state.status = .running ∧ isStaleProcess host state = true

instance (host : DoctorHost) (state : ContainerState) : Decidable (Stale host state) :=
  inferInstanceAs (Decidable (_ ∧ _))

/-- A state after a run with `--fix`. -/
def Installation.recovered (i : Installation) (host : DoctorHost) (state : ContainerState) :
    ContainerState :=
  if Stale host state ∧ recoverState host (activeVethNames host i.states) state = none then
    (state.markStopped host.now none (some "STALE")).1
  else state

/-- **What a run with `--fix` leaves**, on a machine whose processes stay as they are. -/
def Installation.repair (i : Installation) (host : DoctorHost) : Installation :=
  { i.without host (i.check host true).steps with states := i.states.map (i.recovered host) }

/-- A run with `--fix` ends without an error, and has repaired all that it can repair: what it says
about the kernel is beyond it. -/
structure Installation.Repaired (i : Installation) (host : DoctorHost) : Prop where
  error : (i.check host true).error = none
  fixed : ∀ issue ∈ (i.check host true).issues,
    issue.kind ∈ ["stale_state", "orphan_cgroup", "stale_network_allocation", "orphan_veth"] →
      issue.fixed = true

/-! ## One check after the other -/

variable {host : DoctorHost} {i : Installation} {state : ContainerState}

theorem andThen_eq {first second : Outcome} (h : first.error = none) :
    first.andThen second =
      ⟨first.issues ++ second.issues, first.steps ++ second.steps, second.error⟩ := by
  rw [Outcome.andThen, h]
  rfl

theorem check_eq {fix : Bool}
    (h : (checkStaleNetworkAllocations ((i.seen host fix).on host) i.states fix).error = none) :
    i.check host fix =
      ⟨(checkStaleRunningStates host i.states fix).issues ++
          ((checkOrphanCgroups ((i.seen host fix).on host) i.states fix).issues ++
            ((checkStaleNetworkAllocations ((i.seen host fix).on host) i.states fix).issues ++
              ((checkOrphanVethLinks ((i.seen host fix).on host) i.states fix).issues ++
                (checkSeccompLogAction host).issues))),
        (checkStaleRunningStates host i.states fix).steps ++
          ((checkOrphanCgroups ((i.seen host fix).on host) i.states fix).steps ++
            ((checkStaleNetworkAllocations ((i.seen host fix).on host) i.states fix).steps ++
              ((checkOrphanVethLinks ((i.seen host fix).on host) i.states fix).steps ++
                (checkSeccompLogAction host).steps))),
        (checkSeccompLogAction host).error⟩ := by
  have hstale : (checkStaleRunningStates ((i.seen host fix).on host) i.states fix).error = none :=
    rfl
  have hcgroups : (checkOrphanCgroups ((i.seen host fix).on host) i.states fix).error = none := rfl
  have hlinks : (checkOrphanVethLinks ((i.seen host fix).on host) i.states fix).error = none := rfl
  rw [Installation.check, run, andThen_eq hstale, andThen_eq hcgroups, andThen_eq h,
    andThen_eq hlinks]
  rfl

theorem error_checkSeccompLogAction (host : DoctorHost) :
    (checkSeccompLogAction host).error = none := by
  rw [checkSeccompLogAction]
  split
  · rfl
  · split <;> rfl

/-- Releases that end without an error are all there, and have worked. -/
theorem mem_steps_releaseStale {ids : List String} {id : String}
    (h : (releaseStale host true ids).error = none) (hid : id ∈ ids) :
    .bridgeAllocation id ∈ (releaseStale host true ids).steps ∧
      host.fails (.bridgeAllocation id) = none := by
  induction ids with
  | nil => cases hid
  | cons first ids ih =>
    rw [releaseStale] at h ⊢
    split at h
    · cases h
    · rename_i hworks
      rw [if_neg hworks, andThen_eq rfl]
      obtain ⟨-, hrest⟩ := error_andThen h
      rcases List.mem_cons.mp hid with rfl | hid
      · exact ⟨List.mem_append_left _ List.mem_cons_self, by simpa using hworks⟩
      · exact ⟨List.mem_append_right _ (ih hrest hid).1, (ih hrest hid).2⟩

/-! ## What has been repaired -/

theorem checkStaleState_of_stale {protectedVeths : List String} (h : Stale host state) :
    ∃ message, (checkStaleState host protectedVeths true state).issues =
        [⟨"stale_state", some state.id, none, message,
          (recoverState host protectedVeths state).isNone⟩] ∧
      (checkStaleState host protectedVeths true state).steps =
        (staleSteps protectedVeths state).map Prod.fst := by
  obtain ⟨hrunning, hstale⟩ := h
  rw [checkStaleState, if_neg (by simp [hrunning, hstale])]
  exact ⟨_, rfl, rfl⟩

/-- All steps of a recovery that ends without an error have worked. -/
theorem works_of_recoverState {protectedVeths : List String}
    (h : recoverState host protectedVeths state = none) {entry : Cleanup × String}
    (hentry : entry ∈ staleSteps protectedVeths state) : host.fails entry.1 = none := by
  unfold recoverState at h
  dsimp only at h
  split at h
  · cases h
  · rename_i herrors
    have hnone := List.filterMap_eq_nil_iff.mp (not_not.mp herrors) entry hentry
    exact Option.map_eq_none_iff.mp hnone

/-- The links that are left are those that have not been deleted. -/
theorem mem_parseVethLinks_without {steps : List Cleanup} {name : String} :
    name ∈ parseVethLinks (i.without host steps).listing ↔
      name ∈ parseVethLinks i.listing ∧ ¬ Worked host steps (.veth name) := by
  simp only [Installation.listing, parseVethLinks_listing, Installation.without, List.mem_map,
    List.mem_filter, decide_eq_true_eq]
  constructor
  · rintro ⟨link, ⟨⟨hmem, hleft⟩, hveth⟩, rfl⟩
    exact ⟨⟨link, ⟨hmem, hveth⟩, rfl⟩, hleft⟩
  · rintro ⟨⟨link, ⟨hmem, hveth⟩, rfl⟩, hleft⟩
    exact ⟨link, ⟨⟨hmem, hleft⟩, hveth⟩, rfl⟩

namespace Installation.Repaired

variable (h : i.Repaired host)

include h

theorem allocations_error :
    (checkStaleNetworkAllocations ((i.seen host true).on host) i.states true).error = none := by
  have herror := h.error
  obtain ⟨-, hrest⟩ := error_andThen herror
  obtain ⟨-, hrest⟩ := error_andThen hrest
  exact (error_andThen hrest).1

theorem recoverState_eq_none (hmem : state ∈ i.states) (hstale : Stale host state) :
    recoverState host (activeVethNames host i.states) state = none := by
  obtain ⟨message, hissues, -⟩ :=
    @checkStaleState_of_stale host state (activeVethNames host i.states) hstale
  have hissue := h.fixed ⟨"stale_state", some state.id, none, message,
    (recoverState host (activeVethNames host i.states) state).isNone⟩
  rw [check_eq h.allocations_error] at hissue
  refine Option.isNone_iff_eq_none.mp (hissue (List.mem_append_left _ ?_) (by simp))
  exact List.mem_flatMap.mpr ⟨state, hmem, by rw [hissues]; exact List.mem_singleton_self _⟩

/-- What the recovery has done is done. -/
theorem worked_of_recovery {step : Cleanup}
    (hworked : Worked host (checkStaleRunningStates host i.states true).steps step) :
    Worked host (i.check host true).steps step := by
  rw [check_eq h.allocations_error]
  exact ⟨List.mem_append_left _ hworked.1, hworked.2⟩

/-- The steps of a recovery have been taken, and worked. -/
theorem worked_of_stale (hmem : state ∈ i.states) (hstale : Stale host state)
    {entry : Cleanup × String}
    (hentry : entry ∈ staleSteps (activeVethNames host i.states) state) :
    Worked host (i.check host true).steps entry.1 := by
  refine h.worked_of_recovery
    ⟨?_, works_of_recoverState (h.recoverState_eq_none hmem hstale) hentry⟩
  obtain ⟨-, -, hsteps⟩ :=
    @checkStaleState_of_stale host state (activeVethNames host i.states) hstale
  refine List.mem_flatMap.mpr ⟨state, hmem, ?_⟩
  rw [hsteps]
  exact List.mem_map_of_mem hentry

theorem cgroup_removed {path : String} (hpath : path ∈ i.cgroups)
    (horphan : cgroupReferenced i.states path = false) :
    CgroupRemoved host (i.check host true).steps path := by
  by_cases hgone : CgroupRemoved host (checkStaleRunningStates host i.states true).steps path
  · obtain ⟨written, hsame, hworked⟩ := hgone
    exact ⟨written, hsame, h.worked_of_recovery hworked⟩
  have hseen : path ∈ (i.seen host true).cgroups :=
    List.mem_filter.mpr ⟨hpath, decide_eq_true hgone⟩
  have hfilter : path ∈ (i.seen host true).cgroups.filter fun path ↦
      !cgroupReferenced i.states path :=
    List.mem_filter.mpr ⟨hseen, by rw [horphan]; rfl⟩
  have hissue := h.fixed ⟨"orphan_cgroup", none, some path,
    "cgroup is not referenced by any container state", (host.fails (.cgroup path)).isNone⟩
  rw [check_eq h.allocations_error] at hissue ⊢
  refine ⟨path, decide_eq_true rfl, ?_, ?_⟩
  · exact List.mem_append_right _ (List.mem_append_left _ (List.mem_map_of_mem hfilter))
  · exact Option.isNone_iff_eq_none.mp (hissue
      (List.mem_append_right _ (List.mem_append_left _ (List.mem_map.mpr ⟨path, hfilter, rfl⟩)))
      (by simp))

theorem worked_allocation {id : String} (hid : id ∈ i.allocations)
    (hstale : id ∉ activeBridgeIds host i.states) :
    Worked host (i.check host true).steps (.bridgeAllocation id) := by
  by_cases hgone :
      Worked host (checkStaleRunningStates host i.states true).steps (.bridgeAllocation id)
  · exact h.worked_of_recovery hgone
  have hseen : id ∈ (i.seen host true).allocations :=
    List.mem_filter.mpr ⟨hid, decide_eq_true hgone⟩
  have hfilter : id ∈ (i.seen host true).allocations.filter (· ∉ activeBridgeIds host i.states) :=
    List.mem_filter.mpr ⟨hseen, decide_eq_true hstale⟩
  obtain ⟨hstep, hworks⟩ := mem_steps_releaseStale h.allocations_error hfilter
  rw [check_eq h.allocations_error]
  exact ⟨List.mem_append_right _ (List.mem_append_right _ (List.mem_append_left _ hstep)), hworks⟩

theorem worked_link {name : String} (hname : name ∈ parseVethLinks i.listing)
    (horphan : name ∉ expectedVeths i.states) :
    Worked host (i.check host true).steps (.veth name) := by
  by_cases hgone : Worked host (checkStaleRunningStates host i.states true).steps (.veth name)
  · exact h.worked_of_recovery hgone
  have hlisted : name ∈ orphanVeths i.states (i.seen host true).listing :=
    List.mem_filter.mpr
      ⟨mem_parseVethLinks_without.mpr ⟨hname, hgone⟩, decide_eq_true horphan⟩
  have hissue := h.fixed ⟨"orphan_veth", none, some name,
    "host veth is not owned by a running bridge container", (host.fails (.veth name)).isNone⟩
  rw [check_eq h.allocations_error] at hissue ⊢
  constructor
  · exact List.mem_append_right _ (List.mem_append_right _ (List.mem_append_right _
      (List.mem_append_left _ (List.mem_map_of_mem hlisted))))
  · exact Option.isNone_iff_eq_none.mp (hissue (List.mem_append_right _ (List.mem_append_right _
      (List.mem_append_right _ (List.mem_append_left _ (List.mem_map.mpr ⟨name, hlisted, rfl⟩)))))
      (by simp))

/-! ## What is left -/

theorem recovered_of_stale (hmem : state ∈ i.states) (hstale : Stale host state) :
    i.recovered host state = (state.markStopped host.now none (some "STALE")).1 :=
  if_pos ⟨hstale, h.recoverState_eq_none hmem hstale⟩

/-- No state is stale any more. -/
theorem not_stale (hmem : state ∈ (i.repair host).states) : ¬ Stale host state := by
  obtain ⟨before, hbefore, rfl⟩ := List.mem_map.mp hmem
  by_cases hstale : Stale host before
  · rw [h.recovered_of_stale hbefore hstale]
    intro hagain
    have hstopped := (before.markStopped_status host.now none (some "STALE")).1
    rw [hagain.1] at hstopped
    cases hstopped
  · rwa [Installation.recovered, if_neg fun hboth ↦ hstale hboth.1]

/-- No cgroup is an orphan any more. -/
theorem cgroup_referenced {path : String} (hpath : path ∈ (i.repair host).cgroups) :
    cgroupReferenced (i.repair host).states path = true := by
  obtain ⟨hbefore, hleft⟩ := List.mem_filter.mp hpath
  have hnot : ¬ CgroupRemoved host (i.check host true).steps path := of_decide_eq_true hleft
  have hreferenced : cgroupReferenced i.states path = true := by
    rw [← Bool.not_eq_false]
    exact fun horphan ↦ hnot (h.cgroup_removed hbefore horphan)
  obtain ⟨before, hmem, hpath⟩ := List.any_eq_true.mp hreferenced
  obtain ⟨written, hcgroup, hsame⟩ : ∃ written, before.cgroupPath = some written ∧
      samePath written path = true := by
    cases hcgroup : before.cgroupPath with
    | none => simp [hcgroup] at hpath
    | some written => exact ⟨written, rfl, by simpa [hcgroup] using hpath⟩
  have hlive : ¬ Stale host before := by
    intro hstale
    refine hnot ⟨written, hsame, @worked_of_stale host i before h hmem hstale
      (.cgroup written, "cgroup cleanup failed: ") ?_⟩
    rw [staleSteps, hcgroup]
    simp
  refine List.any_eq_true.mpr ⟨_, List.mem_map_of_mem hmem, ?_⟩
  rw [Installation.recovered, if_neg fun hboth ↦ hlive hboth.1]
  exact hpath

/-- No allocation is stale any more. -/
theorem allocation_active {id : String} (hid : id ∈ (i.repair host).allocations) :
    id ∈ activeBridgeIds host (i.repair host).states := by
  obtain ⟨hbefore, hleft⟩ := List.mem_filter.mp hid
  have hnot : ¬ Worked host (i.check host true).steps (.bridgeAllocation id) :=
    of_decide_eq_true hleft
  have hactive : id ∈ activeBridgeIds host i.states :=
    by_contra fun hstale ↦ hnot (h.worked_allocation hbefore hstale)
  obtain ⟨before, hmem, rfl⟩ := List.mem_map.mp hactive
  obtain ⟨hmem, hlive⟩ := List.mem_filter.mp hmem
  have hsame : i.recovered host before = before := if_neg fun hboth ↦ by
    simp [hboth.1.2] at hlive
  refine List.mem_map.mpr ⟨before, List.mem_filter.mpr ⟨?_, hlive⟩, rfl⟩
  exact List.mem_map.mpr ⟨before, hmem, hsame⟩

end Installation.Repaired

theorem mem_expectedVeths {states : List ContainerState} {name : String} :
    name ∈ expectedVeths states ↔ ∃ state ∈ states, state.status = .running ∧
      state.networkMode = "bridge" ∧ ∃ pid, state.pid = some pid ∧
        "vethh" ++ toString pid = name := by
  simp only [expectedVeths, List.mem_filterMap, List.mem_filter, Bool.and_eq_true,
    decide_eq_true_eq, Option.map_eq_some_iff, and_assoc]

/-- **The links that are left over**: those that the state of a stale container has kept from being
orphans, and a live container from being deleted with it. -/
theorem Installation.Repaired.orphans_iff (h : i.Repaired host) {name : String} :
    name ∈ orphanVeths (i.repair host).states (i.repair host).listing ↔
      name ∈ parseVethLinks i.listing ∧ name ∈ expectedVeths i.states ∧
        name ∉ expectedVeths (i.repair host).states ∧ name ∈ activeVethNames host i.states := by
  have horphans : ∀ states stdout, name ∈ orphanVeths states stdout ↔
      name ∈ parseVethLinks stdout ∧ name ∉ expectedVeths states := fun states stdout ↦ by
    simp [orphanVeths]
  have hleftover : name ∈ parseVethLinks (i.repair host).listing ↔ name ∈ parseVethLinks i.listing ∧
      ¬ Worked host (i.check host true).steps (.veth name) := mem_parseVethLinks_without
  rw [horphans, hleftover]
  constructor
  · rintro ⟨⟨hlisted, hleft⟩, hunexpected⟩
    have hexpected : name ∈ expectedVeths i.states :=
      by_contra fun hnot ↦ hleft (h.worked_link hlisted hnot)
    refine ⟨hlisted, hexpected, hunexpected, by_contra fun hfree ↦ ?_⟩
    obtain ⟨state, hmem, hrunning, hbridge, pid, hpid, hname⟩ := mem_expectedVeths.mp hexpected
    have hstale : Stale host state := by
      by_contra hlive
      have hsame : i.recovered host state = state := if_neg fun hboth ↦ hlive hboth.1
      exact hunexpected (mem_expectedVeths.mpr
        ⟨state, List.mem_map.mpr ⟨state, hmem, hsame⟩, hrunning, hbridge, pid, hpid, hname⟩)
    -- its recovery deletes the link, since nobody else has it
    refine hleft (@Repaired.worked_of_stale host i state h hmem hstale
      (.veth name, "veth " ++ name ++ " cleanup failed: ") ?_)
    have hhost : name ∈ hostNames state := by
      rw [hostNames, hpid]
      exact List.mem_cons_of_mem _ (List.mem_singleton.mpr hname.symm)
    rw [staleSteps, if_pos hbridge]
    simp only [List.mem_append, List.mem_map, List.mem_filter]
    exact Or.inl (Or.inl (Or.inr (Or.inl ⟨name, ⟨hhost, decide_eq_true hfree⟩, rfl⟩)))
  · rintro ⟨hlisted, hexpected, hunexpected, hactive⟩
    refine ⟨⟨hlisted, fun hworked ↦ ?_⟩, hunexpected⟩
    have hdeletes : name ∈ (i.check host true).deletes :=
      List.mem_filterMap.mpr ⟨_, hworked.1, rfl⟩
    rw [Installation.check, (run_links h.error rfl).2, List.mem_append] at hdeletes
    rcases hdeletes with hdeletes | hdeletes
    · obtain ⟨step, hstep, hname⟩ := List.mem_filterMap.mp hdeletes
      obtain rfl : step = .veth name := by
        cases step with
        | veth n => exact congrArg Cleanup.veth (Option.some.inj hname)
        | _ => cases hname
      obtain ⟨state, hmem, hstep⟩ := List.mem_flatMap.mp hstep
      rw [checkStaleState] at hstep
      split at hstep
      · cases hstep
      · obtain ⟨⟨step, label⟩, hentry, heq⟩ := List.mem_map.mp hstep
        obtain rfl : step = .veth name := heq
        exact not_mem_of_veth_mem_staleSteps hentry hactive
    · exact ((horphans _ _).mp hdeletes).2 hexpected

/-! ## The next run -/

/-- What is said of an orphan link without `--fix`. -/
def orphanIssue (name : String) : DoctorIssue where
  kind := "orphan_veth"
  id := none
  path := some name
  message := "host veth is not owned by a running bridge container"
  fixed := false

/-- After a repair, links are all there is to find. -/
theorem Installation.Repaired.check_repair (h : i.Repaired host) :
    ((i.repair host).check host false).error = none ∧
      ((i.repair host).check host false).issues =
        (orphanVeths (i.repair host).states (i.repair host).listing).map orphanIssue ++
          (checkSeccompLogAction host).issues := by
  have hstale : (checkStaleRunningStates host (i.repair host).states false).issues = [] := by
    refine List.flatMap_eq_nil_iff.mpr fun state hmem ↦ ?_
    rw [checkStaleState, if_pos]
    by_contra hboth
    obtain ⟨hrunning, hgone⟩ := not_or.mp hboth
    exact h.not_stale hmem ⟨not_not.mp hrunning, by simpa using hgone⟩
  have hcgroups : (checkOrphanCgroups (((i.repair host).seen host false).on host)
      (i.repair host).states false).issues = [] := by
    refine List.map_eq_nil_iff.mpr (List.filter_eq_nil_iff.mpr fun path hpath ↦ ?_)
    rw [h.cgroup_referenced hpath]
    simp
  have hids : (i.repair host).allocations.filter
      (· ∉ activeBridgeIds host (i.repair host).states) = [] := by
    refine List.filter_eq_nil_iff.mpr fun id hid ↦ ?_
    rw [decide_eq_true_eq, not_not]
    exact h.allocation_active hid
  have hallocations : checkStaleNetworkAllocations (((i.repair host).seen host false).on host)
      (i.repair host).states false = {} :=
    (congrArg (releaseStale ((i.repair host).on host) false) hids).trans rfl
  rw [check_eq (by rw [hallocations]), hstale, hcgroups, hallocations]
  exact ⟨error_checkSeccompLogAction host, rfl⟩

/-- **What a repaired machine has left.**  After a run with `--fix` that has repaired all it found,
the next run finds nothing but links: exactly the listed ones that were expected for a stale
container, are expected for no other, and have a name that the recovery spared for a live one. -/
theorem repair_settles (h : i.Repaired host) :
    ((i.repair host).check host false).error = none ∧
      ∃ names : List String, ((i.repair host).check host false).issues =
          names.map orphanIssue ++ (checkSeccompLogAction host).issues ∧
        ∀ name, name ∈ names ↔ name ∈ parseVethLinks i.listing ∧ name ∈ expectedVeths i.states ∧
          name ∉ expectedVeths (i.repair host).states ∧ name ∈ activeVethNames host i.states :=
  ⟨h.check_repair.1, _, h.check_repair.2, fun _ ↦ h.orphans_iff⟩

/-- The process of `web` has the pid that `old` had, whose link is still there, and a container that is
gone has left a cgroup and an allocation. -/
def reusedPid : Installation where
  states := [{ sampleState "old" 42 9 with networkMode := "bridge" }, sampleState "web" 42 7]
  cgroups := ["/sys/fs/cgroup/container-runtime/gone"]
  allocations := ["gone"]
  links := [
    { index := 9
      name := ['v', 'e', 't', 'h', 'h', '4', '2']
      peer := none
      details := ['<', 'U', 'P', '>']
      name_plain := by simp
      peer_plain := by simp
      details_plain := by simp }]

theorem reusedPid_repaired : reusedPid.Repaired (sampleDoctorHost "") where
  error := by decide +kernel
  fixed := by decide +kernel

/-- After the first run there is the link, which `old` was expected to have. -/
theorem repair_settles_reusedPid :
    ((reusedPid.repair (sampleDoctorHost "")).check (sampleDoctorHost "") false).error = none ∧
      ∃ names : List String,
        ((reusedPid.repair (sampleDoctorHost "")).check (sampleDoctorHost "") false).issues =
            names.map orphanIssue ++ (checkSeccompLogAction (sampleDoctorHost "")).issues ∧
          "vethh42" ∈ names ∧ ∀ name ∈ names, name ∈ expectedVeths reusedPid.states := by
  obtain ⟨herror, names, hissues, hnames⟩ := repair_settles reusedPid_repaired
  exact ⟨herror, names, hissues, (hnames _).mpr (by decide +kernel), fun name hname ↦
    ((hnames name).mp hname).2.1⟩

/-- One run is not enough: the link of `old` is spared by the first and found by the second. -/
theorem repair_leaves_link :
    ((reusedPid.repair (sampleDoctorHost "")).check (sampleDoctorHost "") false).issues =
      [orphanIssue "vethh42"] := by
  decide +kernel

/-- **Twice is enough**: after a second run that has repaired all it found, there is no more. -/
theorem repair_twice (h : i.Repaired host) (h' : (i.repair host).Repaired host) :
    (((i.repair host).repair host).check host false).issues =
      (checkSeccompLogAction host).issues := by
  have hstates : ((i.repair host).repair host).states = (i.repair host).states := by
    have hsame : ∀ state ∈ (i.repair host).states, (i.repair host).recovered host state = state :=
      fun state hmem ↦ if_neg fun hboth ↦ h.not_stale hmem hboth.1
    exact (List.map_congr_left hsame).trans (List.map_id' _)
  rw [h'.check_repair.2]
  have hnone : orphanVeths ((i.repair host).repair host).states
      ((i.repair host).repair host).listing = [] := by
    refine List.eq_nil_iff_forall_not_mem.mpr fun name hname ↦ ?_
    obtain ⟨-, hexpected, hunexpected, -⟩ := h'.orphans_iff.mp hname
    exact hunexpected (hstates ▸ hexpected)
  rw [hnone]
  rfl

/-- The second run finds the link, and deletes it. -/
theorem repair_twice_reusedPid :
    (((reusedPid.repair (sampleDoctorHost "")).repair (sampleDoctorHost "")).check
      (sampleDoctorHost "") false).issues = (checkSeccompLogAction (sampleDoctorHost "")).issues :=
  repair_twice reusedPid_repaired ⟨by decide +kernel, by decide +kernel⟩

end CrunRs.Doctor
