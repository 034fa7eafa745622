import CrunRs.Lib.CredentialRuns
import CrunRs.Lib.Text
import CrunRs.Security.Apply
import CrunRs.Spec.Validate
import CrunRs.State.Basic

/-!
# Confinement

What the last steps before `execvp` make of a container, for as long as it runs.  `run_child` and
`exec_command` end alike: `apply_process_user`, then `security::apply`, then the command.  From there
on the tasks of the container do what they like — they fork, execute files, set their ids, install
filters, make and enter user namespaces — and the theorems are about every order of that.

With the denylist (`denylist_confines`) no task of the container ever has a capability over the
container's user namespace or over what is around it, another id than the first one had, or a native
call of the denied ones.  An allowlist (`allowlist_confines`) bounds every task as it bounds the
first one.  A private user namespace (`private_confines`) keeps ids and capabilities inside whatever
the profile is.
-/

set_option autoImplicit false

namespace CrunRs.Security

open Credentials (Cap Caps Ids IdMap Space UserNs World capSetuid capSetgid)
open Seccomp
open State (UserNamespaceMap)

/-! ## `apply_process_user` -/

/-- `apply_process_user`. -/
def applyProcessUser (space : Space) (user : Option ProcessUser) (privateUserns : Bool)
    (task : Task) : Except LifecycleError Task :=
  match user with
  | none => .ok task
  | some user => do
    let groups := user.additionalGids.map UInt32.toNat
    let task ← (if ¬ privateUserns ∨ groups ≠ [] then
        orContext (task.setgroups space groups) "failed to set additional groups"
      else .ok task)
    let task ← orContext (task.setgid space user.gid.toNat)
      ("failed to set gid: " ++ String.ofList (Text.decimal user.gid.toNat))
    orContext (task.setuid space user.uid.toNat)
      ("failed to set uid: " ++ String.ofList (Text.decimal user.uid.toNat))

/-- The end of `run_child`, and of `exec_command`, before the command is executed. -/
def confine (k : Kernel) (t : Target) (space : Space) (user : Option ProcessUser)
    (privateUserns : Bool) (profile : SecurityProfile) (plan : SeccompPlan) (task : Task) :
    Except LifecycleError Task := do
  let task ← applyProcessUser space user privateUserns task
  apply k t profile plan task

variable {k : Kernel} {t : Target} {space : Space} {user : Option ProcessUser}
  {privateUserns : Bool} {profile : SecurityProfile} {plan : SeccompPlan}
  {task started r : Task} {w w' : World Program} {pid other : ℕ}

/-- What a successful `apply_process_user` is made of. -/
theorem applyProcessUser_eq_ok {user : ProcessUser}
    (h : applyProcessUser space (some user) privateUserns task = .ok started) :
    ∃ grouped gids uids,
      (if ¬ privateUserns = true ∨ user.additionalGids.map UInt32.toNat ≠ [] then
        task.setgroups space (user.additionalGids.map UInt32.toNat) = some grouped
      else grouped = task) ∧
      grouped.setgid space user.gid.toNat = some { grouped with gids } ∧
      started = Credentials.Task.withUids space { grouped with gids } uids ∧
      Credentials.Task.setuid space { grouped with gids } user.uid.toNat = some started := by
  obtain ⟨grouped, hgroups, h⟩ := Fallible.bind_eq_ok_iff.mp h
  obtain ⟨task', hgid, h⟩ := Fallible.bind_eq_ok_iff.mp h
  have hgid := orContext_eq_ok_iff.mp hgid
  obtain ⟨gids, rfl, _⟩ := Credentials.Task.setgid_eq_some hgid
  have huid := orContext_eq_ok_iff.mp h
  obtain ⟨uids, hstarted, _⟩ := Credentials.Task.setuid_eq_some huid
  refine ⟨grouped, gids, uids, ?_, hgid, hstarted, huid⟩
  split at hgroups
  · rename_i hcond
    rw [if_pos hcond]
    exact orContext_eq_ok_iff.mp hgroups
  · rename_i hcond
    rw [if_neg hcond]
    exact (Except.ok.inj hgroups).symm

/-- `apply_process_user` leaves the filters and the namespace alone. -/
theorem filters_applyProcessUser
    (h : applyProcessUser space user privateUserns task = .ok started) :
    started.filters = task.filters ∧ started.userNs = task.userNs := by
  cases user with
  | none =>
    obtain rfl := Except.ok.inj h
    exact ⟨rfl, rfl⟩
  | some user =>
    obtain ⟨grouped, gids, uids, hgroups, _, rfl, _⟩ := applyProcessUser_eq_ok h
    split at hgroups
    · obtain ⟨_, groups, rfl, _⟩ := Credentials.Task.setgroups_eq_some hgroups
      exact ⟨rfl, rfl⟩
    · obtain rfl := hgroups
      exact ⟨rfl, rfl⟩

theorem confine_eq_ok (h : confine k t space user privateUserns profile plan task = .ok started) :
    ∃ task', applyProcessUser space user privateUserns task = .ok task' ∧
      started = applied t profile plan task' := by
  obtain ⟨task', huser, h⟩ := Fallible.bind_eq_ok_iff.mp h
  exact ⟨task', huser, apply_eq_ok h⟩

/-! ## The denylist -/

/-- The initial user namespace, which has a name for every id. -/
def initialSpace : Space where
  uidMap := [⟨0, 0, 4294967295⟩]
  gidMap := [⟨0, 0, 4294967295⟩]
  setgroups := true

/-- One task and the initial user namespace. -/
def initialWorld (task : Task) : World Program where
  tasks := fun pid ↦ if pid = 1 then some task else none
  spaces := fun ns ↦ if ns = .init then some initialSpace else none

theorem alone_initialWorld (task : Task) :
    (initialWorld task).Alone 1 task where
  task := rfl
  only := fun _ hne ↦ if_neg hne
  lowest := by
    intro ns space hspace hbelow
    have hinit : ns = .init := by
      by_contra hne
      simp [initialWorld, hne] at hspace
    rw [hinit] at hbelow
    exact hbelow.elim

/-- The bundle asks for user 1000. -/
def sampleUser : ProcessUser := { uid := 1000, gid := 1000, additionalGids := [100] }

theorem applyProcessUser_of_steps {user : ProcessUser} {grouped withGid : Task}
    (hgroups : task.setgroups space (user.additionalGids.map UInt32.toNat) = some grouped)
    (hgid : grouped.setgid space user.gid.toNat = some withGid)
    (huid : withGid.setuid space user.uid.toNat = some started) :
    applyProcessUser space (some user) false task = .ok started := by
  simp [applyProcessUser, hgroups, hgid, huid, orContext]

theorem applyProcessUser_sampleUser : ∃ task,
    applyProcessUser initialSpace (some sampleUser) false rootTask = .ok task := by
  have hcap : ∀ cap, cap ∈ rootTask.caps.effective := Finset.mem_univ
  have hgroups : rootTask.setgroups initialSpace [100] = some { rootTask with groups := [100] } := by
    rw [Credentials.Task.setgroups, if_pos ⟨hcap _, by decide, rfl⟩]
    rfl
  have hgid : initialSpace.gidMap.kernelId 1000 = some 1000 := rfl
  have huid : initialSpace.uidMap.kernelId 1000 = some 1000 := rfl
  exact ⟨_, applyProcessUser_of_steps hgroups (Credentials.Task.setgid_of_capable (hcap _) hgid)
    (Credentials.Task.setuid_of_capable (hcap _) huid)⟩

theorem confine_sampleUser {profile : SecurityProfile} {plan : SeccompPlan}
    (h : ¬ (profile = .denylist ∧ plan = .learn))
    (hlen : ∀ program flags, plan = .enforce program flags → program.len ≤ 65535) :
    ∃ started, started.userNs = .init ∧
      confine willingKernel .x86_64 initialSpace (some sampleUser) false profile plan rootTask =
        .ok started := by
  obtain ⟨task, huser⟩ := applyProcessUser_sampleUser
  obtain ⟨hfilters, hns⟩ := filters_applyProcessUser huser
  refine ⟨applied .x86_64 profile plan task, hns, ?_⟩
  rw [confine, huser, Fallible.ok_bind, apply_of_willing willing_willingKernel
    (fun _ ↦ hfilters ▸ permits_nil _) hlen, if_neg h]

/-- The first task forks. -/
theorem reachable_clone (hone : w.tasks 1 = some task) (htwo : w.tasks 2 = none) :
    ∃ w', Lts.Reachable World.step w w' ∧ w'.tasks 2 = some task := by
  refine ⟨w.put 2 task, ⟨[(1, .clone 2 none)], ?_⟩, by simp [World.put]⟩
  simp [Lts.exec, World.step, World.act, World.clone, hone, htwo]

theorem initialWorld_clone (task : Task) :
    ∃ w', Lts.Reachable World.step (initialWorld task) w' ∧ w'.tasks 2 = some task :=
  reachable_clone rfl rfl

/-- **A container with the denylist, whatever it does.**  Every task of it, at any time, has
`no_new_privs`, no capability over the user namespace of the container or one around it, only ids of
the first task, and no call that the first one did not have; in particular no native call of a denied
number. -/
theorem denylist_confines
    (h : confine k t space user privateUserns .denylist plan task = .ok started)
    (halone : w.Alone pid started) (hreach : Lts.Reachable World.step w w')
    (hr : w'.tasks other = some r) :
    r.noNewPrivs = true ∧
      (∀ cap ns, started.userNs.Within ns → r.capable cap ns = false) ∧
      r.uids.In started.uids.Own ∧
      r.gids.In started.gids.Own ∧
      (∀ gid ∈ r.groups, gid ∈ started.groups ∨ started.gids.Own gid) ∧
      ∀ d, permits r.filters d → permits started.filters d ∧
        (d.arch = auditArchNative t → (d.nr.toNat : Int) ∉ deniedSyscalls t) := by
  obtain ⟨task', _, rfl⟩ := confine_eq_ok h
  have hnnp : (applied t .denylist plan task').noNewPrivs = true := by simp [applied]
  have hcaps : (applied t .denylist plan task').caps.permitted = ∅ := by
    simp [applied, Caps.dropped, Caps.cleared]
  have hwithin := (Credentials.withinBounds_of_noNewPrivs halone hnnp (Ids.in_own _)
    (Ids.in_own _) (by simp [hcaps]) hreach).tasks other r hr
  refine ⟨hwithin.noNewPrivs rfl, fun cap ns hns ↦ ?_, hwithin.uids, hwithin.gids, hwithin.groups,
    fun d hd ↦ ?_⟩
  · by_contra hcap
    have hmem := (hwithin.mem_of_capable rfl (Bool.not_eq_false _ ▸ hcap) hns).2
    simp [hcaps] at hmem
  · have hstarted := permits_of_suffix hwithin.filters hd
    refine ⟨hstarted, fun _ ↦ ?_⟩
    have hprofile := (permits_append.mp (permits_append.mp hstarted).1).2
    exact (permits_denylistProgram.mp hprofile).2

/-- A container of user 1000, which forks. -/
theorem denylist_confines_child : ∃ started, ∃ w' : World Program,
    confine willingKernel .x86_64 initialSpace (some sampleUser) false .denylist .none rootTask =
        .ok started ∧
      w'.tasks 2 = some started ∧ ∀ cap, started.capable cap .init = false := by
  obtain ⟨started, hns, hconfine⟩ := @confine_sampleUser .denylist .none (by simp) (by simp)
  obtain ⟨w', hreach, hchild⟩ := initialWorld_clone started
  have halone := alone_initialWorld started
  exact ⟨started, w', hconfine, hchild, fun cap ↦
    (denylist_confines hconfine halone hreach hchild).2.1 cap .init (Or.inl hns)⟩

/-! ## Allowlists -/

/-- What a compiled profile permits: what it allows, or everything if it only logs the rest. -/
theorem permits_compiled {doc : SeccompProfile} {options : CompileOptions} {compiled : CompiledProfile}
    (h : compile t doc options = .ok compiled) {d : SeccompData} :
    permits [compiled.program] d ↔ options.defaultAction = .log ∨
      (d.arch = auditArchNative t ∧ AllowsNumber t doc d.nr.toNat) := by
  have hsupported : doc.validateSupported = .ok () := by
    obtain ⟨_, _, h⟩ := Fallible.bind_eq_ok_iff.mp h
    obtain ⟨_, hvalid, _⟩ := Fallible.bind_eq_ok_iff.mp h
    exact hvalid
  obtain ⟨compiled', hcompile, hrun⟩ := compile_spec t options hsupported
  obtain rfl : compiled = compiled' := Except.ok.inj (h.symm.trans hcompile)
  rw [permits_iff, List.forall_mem_singleton, answer]
  by_cases hd : d.arch = auditArchNative t ∧ AllowsNumber t doc d.nr.toNat
  · rw [(hrun d).1 hd]
    exact iff_of_true (by decide) (Or.inr hd)
  · rw [(hrun d).2 hd]
    cases options.defaultAction <;> simp only [hd, or_false] <;> decide

/-- **A container with an allowlist, whatever it does.**  The first task may make exactly the calls
that the allowlist allows, the denylist does not deny and the filters around the runtime permit.  No
task of the container, at any time, may make another one, and none ever has a capability over its user
namespace that the first one had not. -/
theorem allowlist_confines {doc : SeccompProfile} {options : CompileOptions}
    {compiled : CompiledProfile} (hcompile : compile t doc options = .ok compiled) {flags : UInt64}
    (h : confine k t space user privateUserns profile (.enforce compiled.program flags) task =
      .ok started)
    (halone : w.Alone pid started) (hreach : Lts.Reachable World.step w w')
    (hr : w'.tasks other = some r) :
    (∀ d, permits started.filters d ↔
      permits task.filters d ∧
        (profile = .denylist →
          d.arch = auditArchNative t ∧ (d.nr.toNat : Int) ∉ deniedSyscalls t) ∧
        (options.defaultAction = .log ∨
          (d.arch = auditArchNative t ∧ AllowsNumber t doc d.nr.toNat))) ∧
      (∀ d, permits r.filters d → permits started.filters d) ∧
      r.noNewPrivs = true ∧
      ∀ cap ns, started.userNs.Within ns → r.capable cap ns = true →
        ns = started.userNs ∧ cap ∈ started.caps.permitted := by
  obtain ⟨task', huser, rfl⟩ := confine_eq_ok h
  have hwithin := (Credentials.withinBounds_of_noNewPrivs halone (by simp [applied])
    ⟨Set.mem_univ _, Set.mem_univ _, Set.mem_univ _⟩
    ⟨Set.mem_univ _, Set.mem_univ _, Set.mem_univ _⟩
    ⟨Or.inr fun _ ↦ Set.mem_univ _, Or.inr fun _ ↦ Set.mem_univ _⟩ hreach).tasks other r hr
  refine ⟨fun d ↦ ?_, fun d hd ↦ permits_of_suffix hwithin.filters hd, hwithin.noNewPrivs rfl,
    fun cap ns hns hcap ↦ hwithin.mem_of_capable rfl hcap hns⟩
  have hprofile : permits (profileFilters t profile) d ↔ (profile = .denylist →
      d.arch = auditArchNative t ∧ (d.nr.toNat : Int) ∉ deniedSyscalls t) := by
    cases profile with
    | unconfined => simp [profileFilters, permits_iff]
    | denylist => simp [profileFilters, permits_denylistProgram]
  rw [show (applied t profile (.enforce compiled.program flags) task').filters =
      [compiled.program] ++ profileFilters t profile ++ task'.filters from rfl,
    permits_append, permits_append, permits_compiled hcompile, hprofile,
    (filters_applyProcessUser huser).1]
  tauto

/-- A compiled program is within the kernel's limit. -/
theorem len_compiled {doc : SeccompProfile} {options : CompileOptions} {compiled : CompiledProfile}
    (h : compile t doc options = .ok compiled) : compiled.program.len ≤ maxBpfInsns := by
  have hsupported : doc.validateSupported = .ok () := by
    obtain ⟨_, _, h⟩ := Fallible.bind_eq_ok_iff.mp h
    obtain ⟨_, hvalid, _⟩ := Fallible.bind_eq_ok_iff.mp h
    exact hvalid
  have hfits : ∀ n ∈ comparedNumbers t doc options.order, FitsU32 n := comparedNumbers_fits
  rw [compile_eq t options hsupported] at h
  cases hbuild : buildAllowlist t (comparedNumbers t doc options.order) options.defaultAction with
  | error e => simp [hbuild, Except.map] at h
  | ok program =>
    rw [hbuild] at h
    obtain rfl := Except.ok.inj h
    rw [len_buildAllowlist hfits hbuild]
    exact allowlistLen_comparedNumbers_le t doc options.order

/-- A container of user 1000 with an allowlist of nothing, which forks. -/
theorem allowlist_confines_child : ∃ compiled started, ∃ w' : World Program,
    compile .x86_64 Lifecycle.Exec.denyingProfile { defaultAction := .kill, order := .byNumber } =
        .ok compiled ∧
      confine willingKernel .x86_64 initialSpace (some sampleUser) false .unconfined
        (.enforce compiled.program 0) rootTask = .ok started ∧
      w'.tasks 2 = some started ∧ started.noNewPrivs = true := by
  obtain ⟨compiled, hcompile, _⟩ := @compile_spec .x86_64 Lifecycle.Exec.denyingProfile
    { defaultAction := .kill, order := .byNumber } rfl
  have hlen : ∀ program flags, SeccompPlan.enforce compiled.program 0 = .enforce program flags →
      program.len ≤ 65535 := by
    rintro program flags heq
    obtain ⟨rfl, _⟩ := SeccompPlan.enforce.inj heq
    exact (len_compiled hcompile).trans (by decide)
  obtain ⟨started, hns, hconfine⟩ := @confine_sampleUser .unconfined _ (by simp) hlen
  obtain ⟨w', hreach, hchild⟩ := initialWorld_clone started
  have halone := alone_initialWorld started
  exact ⟨compiled, started, w', hcompile, hconfine, hchild,
    (allowlist_confines hcompile hconfine halone hreach hchild).2.2.1⟩

/-! ## The ids a bundle asks for -/

/-- A task that may choose its ids has the ones asked for, and no other. -/
theorem applyProcessUser_of_capable {user : ProcessUser}
    (h : applyProcessUser space (some user) privateUserns task = .ok started)
    (huid : capSetuid ∈ task.caps.effective) (hgid : capSetgid ∈ task.caps.effective) :
    ∃ uid gid, space.uidMap.kernelId user.uid.toNat = some uid ∧
      space.gidMap.kernelId user.gid.toNat = some gid ∧
      started.uids = ⟨uid, uid, uid⟩ ∧ started.gids = ⟨gid, gid, gid⟩ ∧
      (if ¬ privateUserns = true ∨ user.additionalGids.map UInt32.toNat ≠ [] then
        (user.additionalGids.map UInt32.toNat).mapM space.gidMap.kernelId = some started.groups
      else started.groups = task.groups) := by
  obtain ⟨grouped, gids, uids, hgroups, hsetgid, rfl, hsetuid⟩ := applyProcessUser_eq_ok h
  have hgrouped : grouped.caps = task.caps ∧
      (if ¬ privateUserns = true ∨ user.additionalGids.map UInt32.toNat ≠ [] then
        (user.additionalGids.map UInt32.toNat).mapM space.gidMap.kernelId = some grouped.groups
      else grouped.groups = task.groups) := by
    split at hgroups
    · rename_i hcond
      obtain ⟨_, groups, rfl, hmapM⟩ := Credentials.Task.setgroups_eq_some hgroups
      exact ⟨rfl, by rw [if_pos hcond]; exact hmapM⟩
    · rename_i hcond
      obtain rfl := hgroups
      exact ⟨rfl, by rw [if_neg hcond]⟩
  obtain ⟨gid, hgidOf, hset⟩ := Option.bind_eq_some_iff.mp hsetgid
  obtain ⟨gids', hgids, hset⟩ := Option.bind_eq_some_iff.mp hset
  obtain rfl : gids' = gids := congrArg Credentials.Task.gids (Option.some.inj hset)
  obtain ⟨uid, huidOf, hset⟩ := Option.bind_eq_some_iff.mp hsetuid
  obtain ⟨uids', huids, hset⟩ := Option.bind_eq_some_iff.mp hset
  obtain rfl : uids' = uids := congrArg Credentials.Task.uids (Option.some.inj hset)
  rw [Ids.set, if_pos (by simp [hgrouped.1, hgid])] at hgids
  rw [Ids.set, if_pos (by simp [hgrouped.1, huid])] at huids
  exact ⟨uid, gid, huidOf, hgidOf, (Option.some.inj huids).symm, (Option.some.inj hgids).symm,
    hgrouped.2⟩

/-- **The ids a bundle asks for, for good.**  A runtime that may choose ids, and a container with the
denylist in its namespace: every task of the container, at any time, has exactly the user and the
group id of the bundle, as real, effective and saved one, and no supplementary group but the
bundle's. -/
theorem bundle_ids_kept {user : ProcessUser}
    (huid : capSetuid ∈ task.caps.effective) (hgid : capSetgid ∈ task.caps.effective)
    (h : confine k t space (some user) false .denylist plan task = .ok started)
    (halone : w.Alone pid started) (hreach : Lts.Reachable World.step w w')
    (hr : w'.tasks other = some r) :
    ∃ uid gid groups, space.uidMap.kernelId user.uid.toNat = some uid ∧
      space.gidMap.kernelId user.gid.toNat = some gid ∧
      (user.additionalGids.map UInt32.toNat).mapM space.gidMap.kernelId = some groups ∧
      r.uids = ⟨uid, uid, uid⟩ ∧ r.gids = ⟨gid, gid, gid⟩ ∧
      ∀ id ∈ r.groups, id ∈ groups ∨ id = gid := by
  obtain ⟨task', huser, rfl⟩ := confine_eq_ok h
  obtain ⟨uid, gid, huidOf, hgidOf, huids, hgids, hgroups⟩ :=
    applyProcessUser_of_capable huser huid hgid
  rw [if_pos (Or.inl (by simp))] at hgroups
  have hcaps : (applied t .denylist plan task').caps.permitted = ∅ := by
    simp [applied, Caps.dropped, Caps.cleared]
  have hin : ∀ {ids : Ids} {id : ℕ}, ids = ⟨id, id, id⟩ → ids.In {i | i = id} := by
    rintro ids id rfl
    exact ⟨rfl, rfl, rfl⟩
  have hwithin := (Credentials.withinBounds_of_noNewPrivs halone (by simp [applied]) (hin huids)
    (hin hgids) (by simp [hcaps]) hreach).tasks other r hr
  exact ⟨uid, gid, task'.groups, huidOf, hgidOf, hgroups, hwithin.uids.eq_of_singleton,
    hwithin.gids.eq_of_singleton, hwithin.groups⟩

/-- A container of user 1000, which forks. -/
theorem bundle_ids_kept_child : ∃ started, ∃ w' : World Program,
    confine willingKernel .x86_64 initialSpace (some sampleUser) false .denylist .none rootTask =
        .ok started ∧
      w'.tasks 2 = some started ∧ ∃ uid, started.uids = ⟨uid, uid, uid⟩ := by
  obtain ⟨started, hns, hconfine⟩ := @confine_sampleUser .denylist .none (by simp) (by simp)
  obtain ⟨w', hreach, hchild⟩ := initialWorld_clone started
  have halone := alone_initialWorld started
  obtain ⟨uid, _, _, _, _, _, huids, _⟩ := bundle_ids_kept (Finset.mem_univ _) (Finset.mem_univ _)
    hconfine halone hreach hchild
  exact ⟨started, w', hconfine, hchild, uid, huids⟩

/-! ## Private user namespaces -/

/-- `write_uid_gid_maps`, by the parent. -/
def writeUidGidMaps (w : World Program) (parent : Task) (ns : UserNs) (map : UserNamespaceMap) :
    Option (World Program) := do
  let w ← w.denySetgroups parent ns
  let w ← w.writeUidMap parent [⟨0, map.hostUid.toNat, 1⟩] ns
  w.writeGidMap parent [⟨0, map.hostGid.toNat, 1⟩] ns

/-- The child's `unshare`, and the maps the parent writes then. -/
def enterPrivate (w : World Program) (parent child : Task) (index : ℕ) (map : UserNamespaceMap) :
    Option (World Program × Task) := do
  let made ← w.newUserNs child index
  let w ← writeUidGidMaps made.1 parent made.2.userNs map
  return (w, made.2)

/-- The tasks of the container only. -/
def containerOnly (w : World Program) (pid : ℕ) (task : Task) : World Program :=
  { w with tasks := fun other ↦ if other = pid then some task else none }

/-- What becomes of the two: a new namespace, in which the child has all capabilities and root is the
only name there is. -/
theorem enterPrivate_eq_some {parent child : Task} {index : ℕ} {map : UserNamespaceMap}
    {above : Space} {made : World Program × Task}
    (h : enterPrivate w parent child index map = some made)
    (habove : w.spaces child.userNs = some above) :
    ∃ uid gid, above.uidMap.kernelId map.hostUid.toNat = some uid ∧
      above.gidMap.kernelId map.hostGid.toNat = some gid ∧
      w.spaces made.2.userNs = none ∧ made.2.userNs.Below child.userNs ∧
      made.2 = World.enter child made.2.userNs ∧
      made.1.spaces = Function.update w.spaces made.2.userNs (some
        { uidMap := [⟨0, uid, 1⟩], gidMap := [⟨0, gid, 1⟩], setgroups := false }) := by
  obtain ⟨made', hnew, h⟩ := Option.bind_eq_some_iff.mp h
  obtain ⟨w₁, hwrite, h⟩ := Option.bind_eq_some_iff.mp h
  obtain rfl := Option.some.inj h
  obtain ⟨space, hspace, hfresh, rfl⟩ := World.newUserNs_eq_some hnew
  obtain rfl : above = space := Option.some.inj (habove.symm.trans hspace)
  obtain ⟨w₂, hdeny, hwrite⟩ := Option.bind_eq_some_iff.mp hwrite
  obtain ⟨w₃, huid, hgid⟩ := Option.bind_eq_some_iff.mp hwrite
  have hne : child.userNs ≠ .child child.userNs child.uids.effective index := by
    intro heq
    have hlow := UserNs.below_child child.userNs child.uids.effective index
    exact absurd (heq ▸ UserNs.Within.refl _) (UserNs.not_within_of_below hlow)
  obtain ⟨_, hdenied, rfl⟩ := World.denySetgroups_eq_some hdeny
  obtain ⟨_, _, _, hnow, haboveNow, hkept, rfl, _⟩ := World.writeUidMap_eq_some huid
  simp only [World.enter, World.putSpace_self, World.putSpace_of_ne _ _ hne, habove,
    Option.some.injEq] at hdenied hnow haboveNow
  obtain rfl := hdenied
  obtain rfl := hnow
  obtain rfl := haboveNow
  obtain ⟨uid, huidOf, rfl⟩ := IdMap.ofParent_root hkept
  obtain ⟨_, _, _, hnow, haboveNow, hkept, rfl, _⟩ := World.writeGidMap_eq_some hgid
  simp only [World.enter, World.putSpace_self, World.putSpace_of_ne _ _ hne, habove,
    Option.some.injEq] at hnow haboveNow
  obtain rfl := hnow
  obtain rfl := haboveNow
  obtain ⟨gid, hgidOf, rfl⟩ := IdMap.ofParent_root hkept
  refine ⟨uid, gid, huidOf, hgidOf, hfresh, UserNs.below_child _ _ _, rfl, ?_⟩
  simp [World.putSpace, World.enter, Function.update_idem]

/-- The ids of a task of the runtime, of the child that a bundle without a user leaves as they are,
or of root in the namespace. -/
def PrivateIds (user : Option ProcessUser) (ids : Ids) (root : ℕ) : Set ℕ :=
  {id | id = root ∨ (user = none ∧ ids.Own id)}

/-- In a private namespace `apply_process_user` makes the child root there, if anything. -/
theorem privateIds_applyProcessUser {map : UserNamespaceMap} {uid gid : ℕ}
    (hvalid : validateProcessUser (.private_ map) user = .ok ())
    (huidMap : space.uidMap = [⟨0, uid, 1⟩]) (hgidMap : space.gidMap = [⟨0, gid, 1⟩])
    (hcaps : task.caps = .full)
    (h : applyProcessUser space user true task = .ok started) :
    started.uids.In (PrivateIds user task.uids uid) ∧
      started.gids.In (PrivateIds user task.gids gid) ∧ started.groups = task.groups := by
  cases user with
  | none =>
    obtain rfl := Except.ok.inj h
    exact ⟨(Ids.in_own _).mono fun _ hid ↦ Or.inr ⟨rfl, hid⟩,
      (Ids.in_own _).mono fun _ hid ↦ Or.inr ⟨rfl, hid⟩, rfl⟩
  | some user =>
    have hroot : user.uid = 0 ∧ user.gid = 0 ∧ user.additionalGids = [] := by
      unfold validateProcessUser at hvalid
      split at hvalid
      · rename_i heq
        obtain rfl := Option.some.inj heq
        split at hvalid
        · simp at hvalid
        · rename_i hnot
          simpa using hnot
      · rename_i hno
        exact absurd rfl (hno map user rfl)
    obtain ⟨uid', gid', huidOf, hgidOf, huids, hgids, hgroups⟩ :=
      applyProcessUser_of_capable h (by simp [hcaps, Caps.full]) (by simp [hcaps, Caps.full])
    rw [hroot.1, huidMap] at huidOf
    rw [hroot.2.1, hgidMap] at hgidOf
    obtain rfl : uid = uid' := Option.some.inj huidOf
    obtain rfl : gid = gid' := Option.some.inj hgidOf
    rw [if_neg (by simp [hroot.2.2])] at hgroups
    rw [huids, hgids]
    exact ⟨⟨Or.inl rfl, Or.inl rfl, Or.inl rfl⟩, ⟨Or.inl rfl, Or.inl rfl, Or.inl rfl⟩, hgroups⟩

/-- **A container in a private user namespace, whatever it does**, and whatever its profile and its
plan are.  Every task of it, at any time, has capabilities over the container's namespace and those
below only, and no user or group id but the ones root is mapped to — or those of the runtime itself,
if the bundle names no user — and no supplementary group but these and the runtime's. -/
theorem private_confines {parent child : Task} {index : ℕ} {map : UserNamespaceMap} {above : Space}
    {made : World Program × Task} (hclosed : w.Closed) (habove : w.spaces child.userNs = some above)
    (henter : enterPrivate w parent child index map = some made)
    (hspace : made.1.spaces made.2.userNs = some space)
    (hvalid : validateProcessUser (.private_ map) user = .ok ())
    (h : confine k t space user true profile plan made.2 = .ok started)
    (hreach : Lts.Reachable World.step (containerOnly made.1 pid started) w')
    (hr : w'.tasks other = some r) :
    ∃ uid gid, above.uidMap.kernelId map.hostUid.toNat = some uid ∧
      above.gidMap.kernelId map.hostGid.toNat = some gid ∧
      started.userNs.Below child.userNs ∧
      (∀ cap ns, r.capable cap ns = true → ns.Within started.userNs) ∧
      r.uids.In (PrivateIds user child.uids uid) ∧ r.gids.In (PrivateIds user child.gids gid) ∧
      ∀ id ∈ r.groups, id ∈ child.groups ∨ id ∈ PrivateIds user child.gids gid := by
  obtain ⟨uid, gid, huidOf, hgidOf, hfresh, hlow, hchild, hspaces⟩ :=
    enterPrivate_eq_some henter habove
  obtain ⟨task', huser, rfl⟩ := confine_eq_ok h
  have hns : task'.userNs = made.2.userNs := (filters_applyProcessUser huser).2
  rw [hspaces, Function.update_self] at hspace
  obtain rfl := Option.some.inj hspace
  have hids := privateIds_applyProcessUser hvalid rfl rfl (by rw [hchild, World.enter]) huser
  rw [show made.2.uids = child.uids by rw [hchild, World.enter],
    show made.2.gids = child.gids by rw [hchild, World.enter],
    show made.2.groups = child.groups by rw [hchild, World.enter]] at hids
  obtain ⟨huids, hgids, hgroups⟩ := hids
  have halone : (containerOnly made.1 pid (applied t profile plan task')).Alone pid
      (applied t profile plan task') := by
    refine ⟨if_pos rfl, fun _ hne ↦ if_neg hne, fun ns found hfound hbelow ↦ ?_⟩
    change made.1.spaces ns = some found at hfound
    change ns.Below task'.userNs at hbelow
    rw [hns] at hbelow
    have hne : ns ≠ made.2.userNs := fun heq ↦
      UserNs.not_within_of_below hbelow (heq ▸ UserNs.Within.refl _)
    rw [hspaces, Function.update_of_ne hne] at hfound
    have hsome := hclosed.isSome_of_below hbelow (by rw [hfound]; rfl)
    simp [hfresh] at hsome
  have hwithin := (Credentials.withinBounds_of_maps halone
    (show made.1.spaces task'.userNs = some _ by rw [hns, hspaces, Function.update_self])
    huids hgids (fun _ hid ↦ Or.inl (IdMap.maps_root.mp hid))
    (fun _ hid ↦ Or.inl (IdMap.maps_root.mp hid)) hreach).tasks other r hr
  refine ⟨uid, gid, huidOf, hgidOf, ?_, fun cap ns hcap ↦ hwithin.within_of_capable hcap,
    hwithin.uids, hwithin.gids, fun id hid ↦ ?_⟩
  · show task'.userNs.Below child.userNs
    rw [hns]
    exact hlow
  · rw [← hgroups]
    exact hwithin.groups id hid

/-- A user without privileges. -/
def plainTask : Task :=
  { rootTask with
    uids := ⟨1000, 1000, 1000⟩
    gids := ⟨1000, 1000, 1000⟩
    caps := Caps.full.dropped }

/-- The user runs a container in a private namespace, without any profile, and it forks. -/
theorem private_confines_child : ∃ made started, ∃ w' : World Program,
    enterPrivate (initialWorld plainTask) plainTask plainTask 0 { hostUid := 1000, hostGid := 1000 } =
        some made ∧
      confine willingKernel .x86_64 { uidMap := [⟨0, 1000, 1⟩], gidMap := [⟨0, 1000, 1⟩]
                                      setgroups := false }
        none true .unconfined .none made.2 = .ok started ∧
      w'.tasks 2 = some started ∧ ∀ cap, started.capable cap .init = false := by
  obtain ⟨made, henter⟩ : ∃ made, enterPrivate (initialWorld plainTask) plainTask plainTask 0
      { hostUid := 1000, hostGid := 1000 } = some made := ⟨_, rfl⟩
  have hclosed : (initialWorld plainTask).Closed := by
    intro parent owner index hsome
    simp [initialWorld] at hsome
  have habove : (initialWorld plainTask).spaces plainTask.userNs = some initialSpace := rfl
  obtain ⟨uid, gid, huid, hgid, _, _, hchild, hspaces⟩ := enterPrivate_eq_some henter habove
  obtain rfl : 1000 = uid := Option.some.inj huid
  obtain rfl : 1000 = gid := Option.some.inj hgid
  have hspace := congrFun hspaces made.2.userNs
  rw [Function.update_self] at hspace
  have hconfine : confine willingKernel .x86_64 { uidMap := [⟨0, 1000, 1⟩]
                                                  gidMap := [⟨0, 1000, 1⟩], setgroups := false }
      none true .unconfined .none made.2 = .ok (applied .x86_64 .unconfined .none made.2) := by
    have hopen : made.2.filters = [] := by rw [hchild, World.enter]; rfl
    have happly := @apply_of_willing willingKernel .x86_64 .unconfined .none made.2
      willing_willingKernel (fun _ ↦ hopen ▸ permits_nil _) (by simp)
    exact happly
  obtain ⟨w', hreach, hforked⟩ := reachable_clone
    (show (containerOnly made.1 1 (applied .x86_64 .unconfined .none made.2)).tasks 1 = some _ from
      rfl) rfl
  obtain ⟨_, _, _, _, hbelow, hcapable, _⟩ := private_confines hclosed habove henter hspace rfl
    hconfine hreach hforked
  refine ⟨made, _, w', henter, hconfine, hforked, fun cap ↦ ?_⟩
  by_contra hcap
  exact absurd (hcapable cap .init (Bool.not_eq_false _ ▸ hcap))
    (UserNs.not_within_of_below hbelow)

end CrunRs.Security
