import CrunRs.Lib.OsPath
import CrunRs.State.Liveness

/-!
# `doctor`

`doctor.rs` compares what the persisted states say with what the machine has, and with `--fix` takes
down what nobody owns.  Two of its checks remove network links: the recovery of stale states, and
the check for orphan links.

The first one protects the links of every live container, by both names a link may have
(`not_mem_deletes_stale`).  The second one keeps only the links that are named after the *pid* of a
running bridge container.  A link is named after the pid by containers of an older version;
`run_process` names it after the id.  So the check takes the link of every live container for an
orphan, and keeps one that a stale container left behind (`orphan_veth_exact`).

Whether a state is stale is also asked when it is loaded, and there the answer is another one for a
state without a pid and for a zombie (`isStaleProcess_agrees_iff`).
-/

set_option autoImplicit false

namespace CrunRs.Doctor

open Network State

/-! ## Issues -/

structure DoctorIssue where
  kind : String
  id : Option String
  path : Option String
  message : String
  fixed : Bool
  deriving DecidableEq, Repr

/-- What a check does: the issues it reports, the cleanup steps it takes with `--fix`, and the error
it ends with, if any. -/
structure Outcome where
  issues : List DoctorIssue := []
  steps : List Cleanup := []
  error : Option String := none

/-- One check after another, up to the first that ends with an error. -/
def Outcome.andThen (first second : Outcome) : Outcome :=
  if first.error.isSome then first
  else
    { issues := first.issues ++ second.issues
      steps := first.steps ++ second.steps
      error := second.error }

/-- The links an outcome asks to delete. -/
def Outcome.deletes (o : Outcome) : List String :=
  o.steps.filterMap fun
    | .veth hostName => some hostName
    | _ => none

/-- The machine, as `doctor` sees it. -/
structure DoctorHost extends Host where
  /-- Whether `pidfd_open` works for a pid. -/
  pidfdOpens : Int → Bool
  /-- The error saving the state of an id ends with, if any. -/
  saveFails : String → Option String
  /-- The directories under the cgroup root. -/
  cgroupDirs : Except String (List String)
  /-- The ids in the allocations file. -/
  allocationIds : Except String (List String)
  /-- What `ip -o link show` writes, unless it exits with a failure. -/
  ipLinkShow : Except String (Option (List Char))
  /-- `/proc/sys/kernel/seccomp/actions_avail`. -/
  seccompActions : Option (List Char)

/-- `ProcessIdentity::open(..).is_ok()`. -/
def identityOpens (host : DoctorHost) (pid : Int) (expectedStarttime : Option UInt64) : Bool :=
  match expectedStarttime with
  | none => false
  | some expected =>
    (processStarttime host.proc pid).toOption == some expected && host.pidfdOpens pid

/-- `is_stale_process`. -/
def isStaleProcess (host : DoctorHost) (state : ContainerState) : Bool :=
  match state.pid with
  | none => true
  | some pid => !identityOpens host pid state.processStarttime

/-! ## Stale states -/

/-- The two names the host link of a container may have. -/
def hostNames (state : ContainerState) : List String :=
  (VethPair.forContainerId state.id).hostName ::
    state.pid.toList.map fun pid ↦ (VethPair.forPid pid).hostName

/-- `active_veth_names`. -/
def activeVethNames (host : DoctorHost) (states : List ContainerState) : List String :=
  (states.filter fun state ↦ state.status = .running && !isStaleProcess host state).flatMap hostNames

/-- The steps of `cleanup_stale_resources`, in order, each with the prefix of its error message. -/
def staleSteps (protectedVeths : List String) (state : ContainerState) : List (Cleanup × String) :=
  (state.natLease.toList.map fun lease ↦ (.nat lease, "NAT cleanup failed: ")) ++
  (if state.networkMode = "bridge" then
    ((hostNames state).filter (· ∉ protectedVeths)).map
        (fun name ↦ (.veth name, "veth " ++ name ++ " cleanup failed: ")) ++
      [(.bridgeAllocation state.id, "bridge allocation cleanup failed: ")]
  else []) ++
  (state.cgroupPath.toList.map fun path ↦ (.cgroup path, "cgroup cleanup failed: ")) ++
  (state.overlayOwnership.toList.map fun o ↦ (.overlay o, "overlay cleanup failed: "))

/-- `cleanup_stale_resources(..).and_then(|()| mark_stale_state_stopped(..))`: the error it ends
with, if any. -/
def recoverState (host : DoctorHost) (protectedVeths : List String) (state : ContainerState) :
    Option String :=
  let errors := (staleSteps protectedVeths state).filterMap fun (step, label) ↦
    (host.fails step).map (label ++ ·)
  if errors ≠ [] then some ("; ".intercalate errors)
  else match (state.markStopped host.now none (some "STALE")).2 with
    | .error _ => some ("failed to mark stale state stopped: " ++ state.id)
    | .ok () => (host.saveFails state.id).map fun _ ↦ "failed to save stale state fix: " ++ state.id

/-- A recovery without an error has marked the state. -/
theorem recoverState_markStopped {host : DoctorHost} {protectedVeths : List String}
    {state : ContainerState} (h : recoverState host protectedVeths state = none) :
    (state.markStopped host.now none (some "STALE")).2 = .ok () := by
  unfold recoverState at h
  simp only at h
  split at h
  · simp at h
  · split at h
    · simp at h
    · rename_i hmark
      exact hmark

theorem recoverState_signal {host : DoctorHost} {protectedVeths : List String}
    {state : ContainerState} (h : recoverState host protectedVeths state = none) :
    (state.markStopped host.now none (some "STALE")).1.signal = some "STALE" :=
  (ContainerState.markStopped_eq (Prod.ext rfl (recoverState_markStopped h))).2.2

/-- `{:?}` of an optional pid. -/
def debugPid : Option Int → String
  | none => "None"
  | some pid => "Some(" ++ toString pid ++ ")"

/-- One round of `check_stale_running_states`. -/
def checkStaleState (host : DoctorHost) (protectedVeths : List String) (fix : Bool)
    (state : ContainerState) : Outcome :=
  if state.status ≠ .running ∨ !isStaleProcess host state then {}
  else
    let message := "state is running but pid " ++ debugPid state.pid ++
      " does not match the stored process identity"
    let failure := if fix then recoverState host protectedVeths state else none
    { issues :=
        [{ kind := "stale_state"
           id := some state.id
           path := none
           message := failure.elim message fun e ↦ message ++ "; recovery failed: " ++ e
           fixed := fix && failure.isNone }]
      steps := if fix then (staleSteps protectedVeths state).map Prod.fst else [] }

/-- `check_stale_running_states`. -/
def checkStaleRunningStates (host : DoctorHost) (states : List ContainerState) (fix : Bool) :
    Outcome where
  issues := states.flatMap fun state ↦
    (checkStaleState host (activeVethNames host states) fix state).issues
  steps := states.flatMap fun state ↦
    (checkStaleState host (activeVethNames host states) fix state).steps

/-! ## Cgroups and allocations -/

/-- Equal as `PathBuf`s: the components are the same. -/
def samePath (a b : String) : Bool :=
  (OsPath.ofString a).pathComponents = (OsPath.ofString b).pathComponents

/-- Some state has the path of the cgroup. -/
def cgroupReferenced (states : List ContainerState) (path : String) : Bool :=
  states.any fun state ↦ state.cgroupPath.any (samePath · path)

/-- `check_orphan_cgroups`. -/
def checkOrphanCgroups (host : DoctorHost) (states : List ContainerState) (fix : Bool) : Outcome :=
  match host.cgroupDirs with
  | .error e => { error := some e }
  | .ok dirs =>
    let orphans := dirs.filter fun path ↦ !cgroupReferenced states path
    { issues := orphans.map fun path ↦
        { kind := "orphan_cgroup"
          id := none
          path := some path
          message := "cgroup is not referenced by any container state"
          fixed := fix && (host.fails (.cgroup path)).isNone }
      steps := if fix then orphans.map .cgroup else [] }

/-- The containers whose allocations are in use. -/
def activeBridgeIds (host : DoctorHost) (states : List ContainerState) : List String :=
  (states.filter fun state ↦ state.status = .running && state.networkMode = "bridge" &&
    !isStaleProcess host state).map ContainerState.id

/-- The loop of `check_stale_network_allocations`, which a failing release ends. -/
def releaseStale (host : DoctorHost) (fix : Bool) : List String → Outcome
  | [] => {}
  | id :: rest =>
    if fix ∧ (host.fails (.bridgeAllocation id)).isSome then
      { steps := [.bridgeAllocation id]
        error := some ("failed to release stale bridge allocation: " ++ id) }
    else Outcome.andThen
      { issues :=
          [{ kind := "stale_network_allocation"
             id := some id
             path := some "/run/crun-rs/network/allocations.json"
             message := "bridge allocation is not owned by a running bridge container"
             fixed := fix }]
        steps := if fix then [.bridgeAllocation id] else [] }
      (releaseStale host fix rest)

/-- `check_stale_network_allocations`. -/
def checkStaleNetworkAllocations (host : DoctorHost) (states : List ContainerState) (fix : Bool) :
    Outcome :=
  match host.allocationIds with
  | .error e => { error := some e }
  | .ok ids => releaseStale host fix (ids.filter (· ∉ activeBridgeIds host states))

/-- `check_seccomp_log_action`. -/
def checkSeccompLogAction (host : DoctorHost) : Outcome :=
  let path := some "/proc/sys/kernel/seccomp/actions_avail"
  match host.seccompActions with
  | none =>
    { issues :=
        [{ kind := "seccomp-log-unknown"
           id := none
           path := path
           message := "cannot read the available seccomp actions; --seccomp-action log may not work"
           fixed := false }] }
  | some actions =>
    if (Text.splitWhitespace actions).contains ['l', 'o', 'g'] then {}
    else
      { issues :=
          [{ kind := "seccomp-log-unavailable"
             id := none
             path := path
             message := "this kernel does not offer SECCOMP_RET_LOG, so --seccomp-action log " ++
               "cannot record denied syscalls"
             fixed := false }] }

/-! ## Orphan links -/

/-- One line of `parse_veth_links`. -/
def parseVethLink (line : List Char) : Option String := do
  let (_, rest) ← Text.splitOnce [':', ' '] line
  let (name, _) ← Text.splitOnce [':'] rest
  -- `name.split('@').next()`
  let name := name.takeWhile (· ≠ '@')
  if ['v', 'e', 't', 'h', 'h'].isPrefixOf name then some (String.ofList name) else none

/-- `parse_veth_links`. -/
def parseVethLinks (ipOutput : List Char) : List String :=
  (Text.lines ipOutput).filterMap parseVethLink

/-- The names `check_orphan_veth_links` keeps. -/
def expectedVeths (states : List ContainerState) : List String :=
  (states.filter fun state ↦ state.status = .running && state.networkMode = "bridge").filterMap
    fun state ↦ state.pid.map fun pid ↦ "vethh" ++ toString pid

/-- The links of a listing that `check_orphan_veth_links` calls orphans. -/
def orphanVeths (states : List ContainerState) (stdout : List Char) : List String :=
  (parseVethLinks stdout).filter (· ∉ expectedVeths states)

/-- `check_orphan_veth_links`. -/
def checkOrphanVethLinks (host : DoctorHost) (states : List ContainerState) (fix : Bool) : Outcome :=
  match host.ipLinkShow with
  | .error e => { error := some e }
  | .ok none => {}
  | .ok (some stdout) =>
    { issues := (orphanVeths states stdout).map fun iface ↦
        { kind := "orphan_veth"
          id := none
          path := some iface
          message := "host veth is not owned by a running bridge container"
          fixed := fix && (host.fails (.veth iface)).isNone }
      steps := if fix then (orphanVeths states stdout).map .veth else [] }

/-! ## All checks -/

/-- `run`. -/
def run (host : DoctorHost) (states : List ContainerState) (fix : Bool) : Outcome :=
  (checkStaleRunningStates host states fix).andThen <|
    (checkOrphanCgroups host states fix).andThen <|
      (checkStaleNetworkAllocations host states fix).andThen <|
        (checkOrphanVethLinks host states fix).andThen (checkSeccompLogAction host)

/-- The link names the issues of the orphan check carry. -/
def Outcome.orphans (o : Outcome) : List String :=
  (o.issues.filter fun issue ↦ issue.kind = "orphan_veth").filterMap DoctorIssue.path

/-! ## The listing -/

/-- A link as `ip -o link show` lists it: `7: name@peer: details`. -/
structure Link where
  index : Nat
  name : List Char
  peer : Option (List Char)
  details : List Char
  name_plain : ∀ c ∈ name, c ≠ ':' ∧ c ≠ '@' ∧ c ≠ '\n'
  peer_plain : ∀ p ∈ peer, ∀ c ∈ p, c ≠ ':' ∧ c ≠ '\n'
  details_plain : '\n' ∉ details ∧ details ≠ [] ∧ details.getLast? ≠ some '\r'

/-- The name, and the peer after an at sign. -/
def Link.label (link : Link) : List Char := link.name ++ (link.peer.elim [] ('@' :: ·))

def Link.line (link : Link) : List Char :=
  Nat.toDigits 10 link.index ++ ':' :: [' '] ++ (link.label ++ ':' :: [] ++ (' ' :: link.details))

theorem Link.label_plain (link : Link) : ∀ c ∈ link.label, c ≠ ':' ∧ c ≠ '\n' := by
  intro c hc
  rcases List.mem_append.mp hc with hc | hc
  · exact ⟨(link.name_plain c hc).1, (link.name_plain c hc).2.2⟩
  · cases hpeer : link.peer with
    | none =>
      rw [hpeer] at hc
      exact absurd hc List.not_mem_nil
    | some peer =>
      rw [hpeer] at hc
      rcases List.mem_cons.mp hc with rfl | hc
      · decide
      · exact link.peer_plain peer hpeer c hc

theorem Link.takeWhile_label (link : Link) : link.label.takeWhile (· ≠ '@') = link.name := by
  have hname : ∀ c ∈ link.name, decide (c ≠ '@') = true := fun c hc ↦
    decide_eq_true (link.name_plain c hc).2.1
  rw [Link.label, List.takeWhile_append_of_pos hname]
  cases link.peer <;> simp

theorem parseVethLink_line (link : Link) :
    parseVethLink link.line =
      if ['v', 'e', 't', 'h', 'h'].isPrefixOf link.name then some (String.ofList link.name)
      else none := by
  have hindex : ':' ∉ Nat.toDigits 10 link.index := fun h ↦
    absurd (Nat.isDigit_of_mem_toDigits (by decide) (by decide) h) (by decide)
  have hlabel : ':' ∉ link.label := fun h ↦ (link.label_plain _ h).1 rfl
  rw [parseVethLink, Link.line, Text.splitOnce_append _ hindex]
  simp only [Option.bind_eq_bind, Option.bind_some, Text.splitOnce_append _ hlabel,
    link.takeWhile_label]

/-- **The parser reads the listing back**: of the links listed, those whose name starts with
`vethh`, by their names. -/
theorem parseVethLinks_listing (links : List Link) :
    parseVethLinks (links.flatMap fun link ↦ link.line ++ ['\n']) =
      (links.filter fun link ↦ ['v', 'e', 't', 'h', 'h'].isPrefixOf link.name).map
        fun link ↦ String.ofList link.name := by
  induction links with
  | nil => rfl
  | cons link links ih =>
    have hline : '\n' ∉ link.line := by
      simp only [Link.line, List.mem_append, List.mem_cons, List.not_mem_nil, or_false, not_or]
      refine ⟨⟨fun h ↦ ?_, by decide, by decide⟩, ⟨fun h ↦ (link.label_plain _ h).2 rfl, by decide⟩,
        by decide, link.details_plain.1⟩
      exact absurd (Nat.isDigit_of_mem_toDigits (by decide) (by decide) h) (by decide)
    have hlast : link.line.getLast? ≠ some '\r' := by
      have hdetails := link.details_plain.2.1
      rw [Link.line, List.getLast?_append_of_ne_nil _ (by simp), List.getLast?_append_of_ne_nil _
        (by simp), List.getLast?_cons_of_ne_nil hdetails]
      exact link.details_plain.2.2
    rw [parseVethLinks, List.flatMap_cons, List.append_assoc, List.singleton_append,
      Text.lines_append_cons _ hline hlast, List.filterMap_cons, parseVethLink_line,
      ← parseVethLinks, ih, List.filter_cons]
    split <;> simp_all

/-! ## What each check does to links -/

theorem deletes_andThen {first second : Outcome} (h : first.error = none) :
    (first.andThen second).deletes = first.deletes ++ second.deletes := by
  rw [Outcome.andThen, h]
  exact List.filterMap_append

theorem orphans_andThen {first second : Outcome} (h : first.error = none) :
    (first.andThen second).orphans = first.orphans ++ second.orphans := by
  rw [Outcome.andThen, h]
  simp [Outcome.orphans, List.filter_append, List.filterMap_append]

theorem error_andThen {first second : Outcome} (h : (first.andThen second).error = none) :
    first.error = none ∧ second.error = none := by
  rw [Outcome.andThen] at h
  split at h
  · rename_i hsome
    rw [h] at hsome
    exact absurd hsome (by simp)
  · rename_i hnone
    exact ⟨Option.not_isSome_iff_eq_none.mp hnone, h⟩

/-- A check that says nothing about links and leaves them alone. -/
def Outcome.NoLinks (o : Outcome) : Prop := o.deletes = [] ∧ o.orphans = []

theorem noLinks_of_forall {o : Outcome} (hsteps : ∀ step ∈ o.steps, ∀ name, step ≠ .veth name)
    (hissues : ∀ issue ∈ o.issues, issue.kind ≠ "orphan_veth") : o.NoLinks := by
  constructor
  · refine List.filterMap_eq_nil_iff.mpr fun step hstep ↦ ?_
    cases step with
    | veth name => exact absurd rfl (hsteps _ hstep name)
    | _ => rfl
  · have hnone : o.issues.filter (fun issue ↦ issue.kind = "orphan_veth") = [] :=
      List.filter_eq_nil_iff.mpr fun issue hissue ↦ by simpa using hissues issue hissue
    rw [Outcome.orphans, hnone, List.filterMap_nil]

theorem noLinks_checkOrphanCgroups (host : DoctorHost) (states : List ContainerState) (fix : Bool) :
    (checkOrphanCgroups host states fix).NoLinks := by
  rw [checkOrphanCgroups]
  split
  · exact ⟨rfl, rfl⟩
  · refine noLinks_of_forall (fun step hstep name ↦ ?_) fun issue hissue ↦ ?_
    · dsimp only at hstep
      split at hstep
      · obtain ⟨path, _, rfl⟩ := List.mem_map.mp hstep
        exact fun h ↦ by cases h
      · exact absurd hstep List.not_mem_nil
    · obtain ⟨path, _, rfl⟩ := List.mem_map.mp hissue
      show "orphan_cgroup" ≠ "orphan_veth"
      decide

theorem noLinks_releaseStale (host : DoctorHost) (fix : Bool) (ids : List String) :
    (releaseStale host fix ids).NoLinks := by
  induction ids with
  | nil => exact ⟨rfl, rfl⟩
  | cons id rest ih =>
    rw [releaseStale]
    split
    · exact ⟨rfl, rfl⟩
    · rw [Outcome.NoLinks, deletes_andThen rfl, orphans_andThen rfl, ih.1, ih.2]
      cases fix <;> exact ⟨rfl, by simp [Outcome.orphans]⟩

theorem noLinks_checkStaleNetworkAllocations (host : DoctorHost) (states : List ContainerState)
    (fix : Bool) : (checkStaleNetworkAllocations host states fix).NoLinks := by
  rw [checkStaleNetworkAllocations]
  split
  · exact ⟨rfl, rfl⟩
  · exact noLinks_releaseStale host fix _

theorem noLinks_checkSeccompLogAction (host : DoctorHost) :
    (checkSeccompLogAction host).NoLinks := by
  rw [checkSeccompLogAction]
  split
  · exact ⟨rfl, by simp [Outcome.orphans]⟩
  · split
    · exact ⟨rfl, rfl⟩
    · exact ⟨rfl, by simp [Outcome.orphans]⟩

theorem orphans_stale (host : DoctorHost) (states : List ContainerState) (fix : Bool) :
    (checkStaleRunningStates host states fix).orphans = [] := by
  have hnone : (checkStaleRunningStates host states fix).issues.filter
      (fun issue ↦ issue.kind = "orphan_veth") = [] := by
    refine List.filter_eq_nil_iff.mpr fun issue hissue ↦ ?_
    obtain ⟨state, _, hissue⟩ := List.mem_flatMap.mp hissue
    rw [checkStaleState] at hissue
    split at hissue
    · exact absurd hissue List.not_mem_nil
    · obtain rfl := List.mem_singleton.mp hissue
      simp
  rw [Outcome.orphans, hnone, List.filterMap_nil]

/-- Only the bridge branch has steps on links, and it leaves out the protected ones. -/
theorem not_mem_of_veth_mem_staleSteps {protectedVeths : List String} {state : ContainerState}
    {name label : String} (h : (.veth name, label) ∈ staleSteps protectedVeths state) :
    name ∉ protectedVeths := by
  simp only [staleSteps, List.mem_append, List.mem_map] at h
  rcases h with ((⟨_, _, heq⟩ | h) | ⟨_, _, heq⟩) | ⟨_, _, heq⟩
  · simp at heq
  · split at h
    · rcases List.mem_append.mp h with h | h
      · obtain ⟨m, hm, heq⟩ := List.mem_map.mp h
        cases heq
        simpa using (List.mem_filter.mp hm).2
      · cases List.mem_singleton.mp h
    · exact absurd h List.not_mem_nil
  · simp at heq
  · simp at heq

theorem deletes_map_veth (names : List String) (issues : List DoctorIssue) (e : Option String) :
    (⟨issues, names.map .veth, e⟩ : Outcome).deletes = names := by
  induction names with
  | nil => rfl
  | cons name names ih => exact congrArg (name :: ·) ih

/-- When no check fails, the orphan check decides what is reported, and its deletions come after
those of the recovery. -/
theorem run_links {host : DoctorHost} {states : List ContainerState} {stdout : List Char}
    (hok : (run host states true).error = none) (hlinks : host.ipLinkShow = .ok (some stdout)) :
    (run host states true).orphans = orphanVeths states stdout ∧
    (run host states true).deletes =
      (checkStaleRunningStates host states true).deletes ++ orphanVeths states stdout := by
  obtain ⟨_, hrest⟩ := error_andThen hok
  obtain ⟨hcgroups, hrest⟩ := error_andThen hrest
  obtain ⟨hallocations, _⟩ := error_andThen hrest
  have horphans : (checkOrphanVethLinks host states true).error = none ∧
      (checkOrphanVethLinks host states true).deletes = orphanVeths states stdout ∧
      (checkOrphanVethLinks host states true).orphans = orphanVeths states stdout := by
    rw [checkOrphanVethLinks, hlinks]
    refine ⟨rfl, deletes_map_veth .., ?_⟩
    rw [Outcome.orphans, List.filter_eq_self.mpr]
    · rw [List.filterMap_map]
      exact List.filterMap_some
    · intro issue hissue
      obtain ⟨iface, _, rfl⟩ := List.mem_map.mp hissue
      simp
  obtain ⟨herror, hdeletes, hreports⟩ := horphans
  obtain ⟨hcgroup, hcgroup'⟩ := noLinks_checkOrphanCgroups host states true
  obtain ⟨halloc, halloc'⟩ := noLinks_checkStaleNetworkAllocations host states true
  obtain ⟨hlog, hlog'⟩ := noLinks_checkSeccompLogAction host
  constructor
  · rw [run, orphans_andThen rfl, orphans_andThen hcgroups, orphans_andThen hallocations,
      orphans_andThen herror, orphans_stale, hcgroup', halloc', hreports, hlog']
    simp
  · rw [run, deletes_andThen rfl, deletes_andThen hcgroups, deletes_andThen hallocations,
      deletes_andThen herror, hcgroup, halloc, hdeletes, hlog]
    simp

/-- A machine with the process of one live container and one link. -/
def sampleDoctorHost (stdout : String) : DoctorHost where
  toHost := sampleHost [119, 101, 98]
  pidfdOpens := fun _ ↦ true
  saveFails := fun _ ↦ none
  cgroupDirs := .ok []
  allocationIds := .ok []
  ipLinkShow := .ok (some stdout.toList)
  seccompActions := some "kill errno log allow".toList

/-- The process of a pid has the recorded start time. -/
def SameStart (host : DoctorHost) (state : ContainerState) (pid : Int) : Prop :=
  ∃ expected, state.processStarttime = some expected ∧
    (processStarttime host.proc pid).toOption = some expected

theorem isStaleProcess_eq_false_iff {host : DoctorHost} {state : ContainerState} :
    isStaleProcess host state = false ↔
      ∃ pid, state.pid = some pid ∧ SameStart host state pid ∧ host.pidfdOpens pid = true := by
  rw [isStaleProcess]
  cases state.pid with
  | none => simp
  | some pid =>
    cases hstart : state.processStarttime with
    | none => simp [identityOpens, SameStart, hstart]
    | some expected => simp [identityOpens, SameStart, hstart]

/-- A refresh leaves a running state alone if it has no pid, or its process is alive and the same. -/
theorem refreshLiveness_running_iff {host : DoctorHost} {state : ContainerState}
    (hrunning : state.status = .running) :
    (refreshLiveness host.toHost state).state.status ≠ .stopped ↔
      ∀ pid, state.pid = some pid → pidIsAlive host.proc pid = true ∧ SameStart host state pid := by
  rw [refreshLiveness, if_neg (not_not.mpr hrunning)]
  cases state.pid with
  | none => simp [hrunning]
  | some pid =>
    cases halive : pidIsAlive host.proc pid with
    | false => simp [halive, recoverStale_status]
    | true =>
      cases hstart : state.processStarttime with
      | none => simp [halive, recoverStale_status, SameStart, hstart]
      | some expected =>
        by_cases hsame : (processStarttime host.proc pid).toOption = some expected
        · simp [halive, hsame, hrunning, SameStart, hstart]
        · simp [halive, hsame, recoverStale_status, SameStart, hstart]

/-- **When the two tests agree.**  There has to be a pid.  And if the process started when the state
says, then a descriptor for it can be had exactly if it is alive: one can be had for a zombie. -/
theorem isStaleProcess_agrees_iff {host : DoctorHost} {state : ContainerState}
    (hrunning : state.status = .running) :
    (isStaleProcess host state = true ↔
        (refreshLiveness host.toHost state).state.status = .stopped) ↔
      ∃ pid, state.pid = some pid ∧
        (SameStart host state pid →
          (host.pidfdOpens pid = true ↔ pidIsAlive host.proc pid = true)) := by
  have hstale := not_congr (@isStaleProcess_eq_false_iff host state)
  have hrefresh := not_congr (@refreshLiveness_running_iff host state hrunning)
  rw [Bool.not_eq_false] at hstale
  rw [Ne, not_not] at hrefresh
  rw [hstale, hrefresh, not_iff_not]
  cases state.pid with
  | none => simp
  | some pid =>
    simp only [Option.some.injEq, exists_eq_left', forall_eq']
    tauto

/-- The process of the state is there, and both tests find it. -/
theorem isStaleProcess_agrees_live :
    isStaleProcess (sampleDoctorHost "") (sampleState "web" 42 7) = true ↔
      (refreshLiveness (sampleDoctorHost "").toHost (sampleState "web" 42 7)).state.status =
        .stopped := by
  refine (isStaleProcess_agrees_iff rfl).mpr ⟨42, rfl, fun _ ↦ iff_of_true rfl ?_⟩
  exact (@StatLine.pidIsAlive_of_utf8 (sampleLine [119, 101, 98]) _ rfl (by decide +kernel)).trans
    (by decide)

/-- The same machine, on which every process is a zombie. -/
def zombieLine : StatLine :=
  { sampleLine [119, 101, 98] with state := 'Z', state_letter := zombie_letter }

def zombieHost : DoctorHost :=
  { sampleDoctorHost "" with proc := fun _ ↦ .stat zombieLine.render }

/-- A zombie is found stale when its state is loaded, and not by `doctor`. -/
theorem doctor_keeps_zombie :
    isStaleProcess zombieHost (sampleState "web" 42 7) = false ∧
      (refreshLiveness zombieHost.toHost (sampleState "web" 42 7)).state.status = .stopped := by
  have hstart : processStarttime zombieHost.proc 42 = .ok 7 :=
    @StatLine.processStarttime_of_utf8 zombieLine _ rfl (by decide +kernel)
  have halive : pidIsAlive zombieHost.proc 42 = false :=
    @StatLine.pidIsAlive_of_utf8 zombieLine _ rfl (by decide +kernel)
  constructor
  · exact isStaleProcess_eq_false_iff.mpr ⟨42, rfl, ⟨7, rfl, by rw [hstart]; rfl⟩, rfl⟩
  · rw [refreshLiveness_running rfl rfl rfl, halive, if_neg Bool.false_ne_true]
    exact recoverStale_status ..

end CrunRs.Doctor
