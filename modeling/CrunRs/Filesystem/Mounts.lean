import CrunRs.Spec.Validate
import Mathlib.Data.Finset.Basic

/-!
# Mounting what a configuration asks for

`setup_mounts` of `filesystem/mod.rs`, which the container process runs over the `mounts` of its
bundle once it is in its own mount namespace.  What the host answers to the calls of one
`setup_mount` is a `MountAnswers`; what `setup_mount` did to the host, a list of `MountEffect`s.

A mount can fail because of the host, and then the error says what was being done
(`IsContext`), or because of what the configuration says about it.  A destination is
usable exactly if it is absolute, names something below the root, and never goes up
(`exists_containerMountDestination_iff`).  For a mount that was validated nothing else can be wrong
with the configuration (`setupMount_error`).
-/

set_option autoImplicit false

namespace CrunRs.Filesystem

open Fallible

/-! ## Options -/

/-- The flags of `MsFlags` that an option or a bind sets. -/
inductive MsFlag
  | rdonly
  | nosuid
  | nodev
  | noexec
  | synchronous
  | remount
  | dirsync
  | noatime
  | nodiratime
  | bind
  | recursive
  | unbindable
  | private_
  | slave
  | shared
  | relatime
  | strictatime
  deriving DecidableEq, Repr

structure MountOptions where
  flags : Finset MsFlag
  propagation : Option (Finset MsFlag)
  data : Option String
  deriving DecidableEq

/-- What an option asks for. -/
inductive OptionEffect
  | nothing
  | set (flag : MsFlag)
  | remove (flag : MsFlag)
  | propagate (flags : Finset MsFlag)
  | data

/-- The arms of `MountOptions::parse`. -/
def optionEffect : String → OptionEffect
  | "defaults" | "bind" | "rbind" => .nothing
  | "ro" => .set .rdonly
  | "rw" => .remove .rdonly
  | "nosuid" => .set .nosuid
  | "suid" => .remove .nosuid
  | "nodev" => .set .nodev
  | "dev" => .remove .nodev
  | "noexec" => .set .noexec
  | "exec" => .remove .noexec
  | "sync" => .set .synchronous
  | "dirsync" => .set .dirsync
  | "remount" => .set .remount
  | "noatime" => .set .noatime
  | "atime" => .remove .noatime
  | "nodiratime" => .set .nodiratime
  | "relatime" => .set .relatime
  | "norelatime" => .remove .relatime
  | "strictatime" => .set .strictatime
  | "nostrictatime" => .remove .strictatime
  | "private" => .propagate {.private_}
  | "rprivate" => .propagate {.private_, .recursive}
  | "slave" => .propagate {.slave}
  | "rslave" => .propagate {.slave, .recursive}
  | "shared" => .propagate {.shared}
  | "rshared" => .propagate {.shared, .recursive}
  | "unbindable" => .propagate {.unbindable}
  | "runbindable" => .propagate {.unbindable, .recursive}
  | _ => .data

/-- The variables of the loop of `MountOptions::parse`. -/
structure ParsedOptions where
  flags : Finset MsFlag := ∅
  propagation : Option (Finset MsFlag) := none
  data : List String := []

/-- One round of the loop. -/
def ParsedOptions.add (parsed : ParsedOptions) (option : String) : ParsedOptions :=
  match optionEffect option with
  | .nothing => parsed
  | .set flag => { parsed with flags := insert flag parsed.flags }
  | .remove flag => { parsed with flags := parsed.flags.erase flag }
  | .propagate flags => { parsed with propagation := some flags }
  | .data => { parsed with data := parsed.data ++ [option] }

/-- `MountOptions::parse`. -/
def MountOptions.parse (options : List String) : MountOptions :=
  let parsed := options.foldl ParsedOptions.add {}
  { flags := parsed.flags
    propagation := parsed.propagation
    data := if parsed.data = [] then none else some (",".intercalate parsed.data) }

/-! ## Destinations -/

/-- One round of the loop of `container_mount_destination`. -/
def pushComponent (destination : String) (relative : OsPath) (part : List UInt8) :
    Except FilesystemError OsPath :=
  if part = parentDir then .error (.mountDestinationEscapesRootfs destination)
  else .ok (relative.join ⟨part⟩)

/-- `container_mount_destination`. -/
def containerMountDestination (rootfs : OsPath) (destination : String) :
    Except FilesystemError OsPath := do
  ensure (OsPath.ofString destination).isAbsolute (.mountDestinationNotAbsolute destination)
  let relative ← (OsPath.ofString destination).components.foldlM (pushComponent destination) ⟨[]⟩
  ensure (relative.bytes ≠ []) .mountDestinationIsContainerRoot
  return rootfs.join relative

/-- What the host answers to the calls of one `setup_mount`. -/
structure MountAnswers where
  /-- Whether the source is a directory, if there is a source. -/
  sourceIsDir : Option Bool
  /-- The rest of `prepare_mount_destination`, which goes down from the root to the destination and
  makes what is missing: a file descriptor, or the message it fails with. -/
  opened : OsPath → Bool → Except String Nat
  /-- The mount succeeds. -/
  mounted : Bool
  /-- The call that changes it afterwards succeeds. -/
  changed : Bool

/-- `PreparedMountDestination`, without the paths it made, which the host removes when it is rolled
back. -/
structure PreparedMountDestination where
  path : OsPath
  fd : Nat

/-- `PreparedMountDestination::mount_path`. -/
def PreparedMountDestination.mountPath (destination : PreparedMountDestination) : OsPath :=
  OsPath.ofString ("/proc/self/fd/" ++ toString destination.fd)

/-- `prepare_mount_destination`. -/
def prepareMountDestination (answers : MountAnswers) (rootfs : OsPath) (destination : String)
    (sourceIsDir : Bool) : Except FilesystemError PreparedMountDestination := do
  let path ← containerMountDestination rootfs destination
  let fd ← (answers.opened path sourceIsDir).mapError .context
  return { path, fd }

/-! ## Mounts -/

/-- The arguments of `mount(2)`. -/
structure MountCall where
  source : Option String := none
  target : OsPath
  fstype : Option String := none
  flags : Finset MsFlag
  data : Option String := none
  deriving DecidableEq

/-- What a `setup_mount` does to the host after its destination is prepared. -/
inductive MountEffect
  | mount (call : MountCall)
  | rollback (mounted : Bool)
  deriving DecidableEq

/-- `filesystem_type`: version 2 is the only one the runtime knows. -/
def filesystemType (mountType : String) : String :=
  if mountType = "cgroup" then "cgroup2" else mountType

variable (lossy : ByteArray → String)

/-- `setup_filesystem_mount`. -/
def setupFilesystemMount (answers : MountAnswers) (rootfs : OsPath) (mount : Mount) :
    List MountEffect × Except FilesystemError Unit :=
  match prepareMountDestination answers rootfs mount.destination true with
  | .error e => ([], .error e)
  | .ok destination =>
    let options := MountOptions.parse mount.options
    let filesystem := filesystemType mount.mountType
    let call : MountCall :=
      { source := some (mount.source.getD filesystem)
        target := destination.mountPath
        fstype := some filesystem
        flags := options.flags
        data := options.data }
    if !answers.mounted then
      ([.mount call, .rollback false],
        .error (.context ("failed to mount " ++ filesystem ++ " at " ++
          destination.path.display lossy)))
    else match options.propagation with
    | none => ([.mount call], .ok ())
    | some propagation =>
      let change : MountCall := { target := destination.path, flags := propagation }
      if !answers.changed then
        ([.mount call, .mount change, .rollback true],
          .error (.context ("failed to set mount propagation for " ++
            destination.path.display lossy)))
      else ([.mount call, .mount change], .ok ())

/-- `setup_bind_mount`. -/
def setupBindMount (answers : MountAnswers) (rootfs : OsPath) (mount : Mount) :
    List MountEffect × Except FilesystemError Unit :=
  match mount.source with
  | none => ([], .error .missingBindMountSource)
  | some source => match answers.sourceIsDir with
    | none => ([], .error (.context ("failed to stat bind mount source: " ++ source)))
    | some sourceIsDir =>
      match prepareMountDestination answers rootfs mount.destination sourceIsDir with
      | .error e => ([], .error e)
      | .ok destination =>
        let recursive : Finset MsFlag :=
          if mount.options.any fun option ↦ option = "rbind" ∨ option = "rshared" then {.recursive}
          else ∅
        let call : MountCall :=
          { source := some source, target := destination.mountPath, flags := {.bind} ∪ recursive }
        if !answers.mounted then
          ([.mount call, .rollback false],
            .error (.context ("failed to bind mount " ++ source ++ " to " ++
              destination.path.display lossy)))
        else if mount.options.any (· = "ro") then
          let change : MountCall :=
            { target := destination.path, flags := {.bind, .remount, .rdonly} ∪ recursive }
          if !answers.changed then
            ([.mount call, .mount change, .rollback true],
              .error (.context ("failed to remount bind mount readonly: " ++
                destination.path.display lossy)))
          else ([.mount call, .mount change], .ok ())
        else ([.mount call], .ok ())

/-- `setup_mount`. -/
def setupMount (answers : MountAnswers) (rootfs : OsPath) (mount : Mount) :
    List MountEffect × Except FilesystemError Unit :=
  if mount.isBind then setupBindMount lossy answers rootfs mount
  else if mount.mountType ∈
      ["proc", "sysfs", "tmpfs", "devpts", "mqueue", "cgroup", "cgroup2", "ramfs"] then
    setupFilesystemMount lossy answers rootfs mount
  else ([], .error (.ociConfig (.unsupportedMountType mount.mountType)))

/-- `setup_mounts`, with the answers to each mount. -/
def setupMounts (answers : Nat → MountAnswers) (rootfs : OsPath) :
    List Mount → List MountEffect × Except FilesystemError Unit
  | [] => ([], .ok ())
  | mount :: mounts =>
    match setupMount lossy (answers 0) rootfs mount with
    | (effects, .error e) => (effects, .error e)
    | (effects, .ok ()) =>
      let rest := setupMounts (fun n ↦ answers (n + 1)) rootfs mounts
      (effects ++ rest.1, rest.2)

/-! ## What can go wrong -/

theorem foldlM_pushComponent_eq_ok_iff {destination : String} {parts : List (List UInt8)}
    {relative path : OsPath} :
    parts.foldlM (pushComponent destination) relative = .ok path ↔
      parentDir ∉ parts ∧ parts.foldl (fun relative part ↦ relative.join ⟨part⟩) relative = path := by
  induction parts generalizing relative with
  | nil => simp [pure, Except.pure]
  | cons part parts ih =>
    rw [List.foldlM_cons, bind_eq_ok_iff, List.foldl_cons, List.mem_cons, not_or, and_assoc]
    by_cases hpart : part = parentDir
    · simp [pushComponent, hpart]
    · simp [pushComponent, hpart, ih, Ne.symm hpart]

/-- Something is pushed for each component, if there is one. -/
theorem foldl_join_ne_nil {parts : List (List UInt8)} (hparts : ∀ part ∈ parts, part ≠ [])
    (relative : OsPath) :
    (parts.foldl (fun relative part ↦ relative.join ⟨part⟩) relative).bytes ≠ [] ↔
      relative.bytes ≠ [] ∨ parts ≠ [] := by
  induction parts generalizing relative with
  | nil => simp
  | cons part parts ih =>
    rw [List.forall_mem_cons] at hparts
    rw [List.foldl_cons, ih hparts.2]
    have hjoin : (relative.join ⟨part⟩).bytes ≠ [] := OsPath.join_ne_nil hparts.1
    exact ⟨fun _ ↦ Or.inr (List.cons_ne_nil _ _), fun _ ↦ Or.inl hjoin⟩

/-- A destination that can be mounted on: below the root of the container, and without a way up. -/
structure UsableDestination (destination : String) : Prop where
  isAbsolute : (OsPath.ofString destination).isAbsolute
  noParentDir : parentDir ∉ (OsPath.ofString destination).components
  notRoot : (OsPath.ofString destination).components ≠ []

instance (destination : String) : Decidable (UsableDestination destination) :=
  decidable_of_iff
    ((OsPath.ofString destination).isAbsolute ∧
      ¬ (OsPath.ofString destination).components.contains parentDir ∧
      (OsPath.ofString destination).components ≠ [])
    ⟨fun h ↦ ⟨h.1, mt List.contains_iff_mem.mpr h.2.1, h.2.2⟩,
      fun h ↦ ⟨h.isAbsolute, mt List.contains_iff_mem.mp h.noParentDir, h.notRoot⟩⟩

theorem containerMountDestination_eq_ok_iff {rootfs path : OsPath} {destination : String} :
    containerMountDestination rootfs destination = .ok path ↔
      UsableDestination destination ∧
        rootfs.join (OsPath.ofParts (OsPath.ofString destination).components) = path := by
  have hnonempty := @foldl_join_ne_nil (OsPath.ofString destination).components
    (fun part h ↦ OsPath.ne_nil_of_mem_components h) ⟨[]⟩
  rw [containerMountDestination, seq_eq_ok_iff, bind_eq_ok_iff, ensure_eq_ok_iff]
  simp only [seq_eq_ok_iff, ensure_eq_ok_iff, foldlM_pushComponent_eq_ok_iff, pure_eq_ok_iff]
  constructor
  · rintro ⟨habsolute, _, ⟨hparent, rfl⟩, hne, rfl⟩
    exact ⟨⟨habsolute, hparent, by simpa using hnonempty.mp hne⟩, rfl⟩
  · rintro ⟨h, rfl⟩
    exact ⟨h.isAbsolute, _, ⟨h.noParentDir, rfl⟩, hnonempty.mpr (Or.inr h.notRoot), rfl⟩

/-- **Which destinations are accepted.** -/
theorem exists_containerMountDestination_iff {rootfs : OsPath} {destination : String} :
    (∃ path, containerMountDestination rootfs destination = .ok path) ↔
      UsableDestination destination := by
  simp only [containerMountDestination_eq_ok_iff, exists_and_left, exists_eq', and_true]

theorem foldlM_pushComponent_error {destination : String} {parts : List (List UInt8)}
    {relative : OsPath} {e : FilesystemError}
    (h : parts.foldlM (pushComponent destination) relative = .error e) :
    e = .mountDestinationEscapesRootfs destination := by
  induction parts generalizing relative with
  | nil => cases h
  | cons part parts ih =>
    rw [List.foldlM_cons, pushComponent] at h
    split at h
    · exact (Except.error.inj h).symm
    · exact ih h

/-- What is wrong with a destination is wrong with the destination. -/
theorem containerMountDestination_error {rootfs : OsPath} {destination : String}
    {e : FilesystemError} (h : containerMountDestination rootfs destination = .error e) :
    e = .mountDestinationNotAbsolute destination ∨ e = .mountDestinationEscapesRootfs destination ∨
      e = .mountDestinationIsContainerRoot := by
  rw [containerMountDestination] at h
  by_cases habsolute : (OsPath.ofString destination).isAbsolute
  · rw [ensure, if_pos habsolute, ok_bind] at h
    cases hfold : (OsPath.ofString destination).components.foldlM (pushComponent destination)
        ⟨[]⟩ with
    | error e' =>
      rw [hfold] at h
      obtain rfl := Except.error.inj h
      exact Or.inr (Or.inl (foldlM_pushComponent_error hfold))
    | ok relative =>
      rw [hfold, ok_bind, ensure] at h
      split at h
      · cases h
      · exact Or.inr (Or.inr (Except.error.inj h).symm)
  · rw [ensure, if_neg habsolute] at h
    exact Or.inl (Except.error.inj h).symm

/-- The error is about the host. -/
def IsContext (e : FilesystemError) : Prop := ∃ message, e = .context message

theorem isContext_of_error_eq {message : String} {e : FilesystemError}
    (h : (.error (.context message) : Except FilesystemError Unit) = .error e) : IsContext e :=
  ⟨message, (Except.error.inj h).symm⟩

theorem prepareMountDestination_error {answers : MountAnswers} {rootfs : OsPath}
    {destination : String} {sourceIsDir : Bool} {e : FilesystemError}
    (h : prepareMountDestination answers rootfs destination sourceIsDir = .error e) :
    IsContext e ∨ containerMountDestination rootfs destination = .error e := by
  cases hpath : containerMountDestination rootfs destination with
  | error e' =>
    rw [prepareMountDestination, hpath] at h
    exact Or.inr (congrArg _ (Except.error.inj h))
  | ok path =>
    rw [prepareMountDestination, hpath, ok_bind] at h
    cases hopened : answers.opened path sourceIsDir with
    | error message =>
      rw [hopened] at h
      exact Or.inl ⟨message, (Except.error.inj h).symm⟩
    | ok fd =>
      rw [hopened] at h
      cases h

theorem setupFilesystemMount_error {answers : MountAnswers} {rootfs : OsPath} {mount : Mount}
    {e : FilesystemError} (h : (setupFilesystemMount lossy answers rootfs mount).2 = .error e) :
    IsContext e ∨ containerMountDestination rootfs mount.destination = .error e := by
  rw [setupFilesystemMount] at h
  split at h
  · rename_i hprepare
    obtain rfl := Except.error.inj h
    exact prepareMountDestination_error hprepare
  · left
    dsimp only at h
    split at h
    · exact isContext_of_error_eq h
    · split at h
      · cases h
      · split at h
        · exact isContext_of_error_eq h
        · cases h

theorem setupBindMount_error {answers : MountAnswers} {rootfs : OsPath} {mount : Mount}
    {e : FilesystemError} (hsource : mount.source ≠ none)
    (h : (setupBindMount lossy answers rootfs mount).2 = .error e) :
    IsContext e ∨ containerMountDestination rootfs mount.destination = .error e := by
  rw [setupBindMount] at h
  split at h
  · rename_i hnone
    exact absurd hnone hsource
  · split at h
    · exact Or.inl (isContext_of_error_eq h)
    · split at h
      · rename_i hprepare
        obtain rfl := Except.error.inj h
        exact prepareMountDestination_error hprepare
      · left
        dsimp only at h
        split at h
        · exact isContext_of_error_eq h
        · split at h
          · split at h
            · exact isContext_of_error_eq h
            · cases h
          · cases h

/-- A supported type is a bind or one of those that `setup_mount` can mount. -/
theorem mem_of_isSupportedMountType {mount : Mount} (hbind : ¬ mount.isBind)
    (h : isSupportedMountType mount.mountType) :
    mount.mountType ∈
      ["proc", "sysfs", "tmpfs", "devpts", "mqueue", "cgroup", "cgroup2", "ramfs"] := by
  have hmem : mount.mountType ∈ ["bind", "rbind", "none"] ++
      ["proc", "sysfs", "tmpfs", "devpts", "mqueue", "cgroup", "cgroup2", "ramfs"] :=
    of_decide_eq_true h
  refine (List.mem_append.mp hmem).resolve_left fun htype ↦ hbind ?_
  rw [Mount.isBind, Bool.or_eq_true]
  exact Or.inl (decide_eq_true htype)

/-- **A validated mount** fails because of the host or because of its destination. -/
theorem setupMount_error {answers : MountAnswers} {rootfs : OsPath} {mount : Mount}
    {e : FilesystemError} (hvalid : mount.Valid)
    (h : (setupMount lossy answers rootfs mount).2 = .error e) :
    IsContext e ∨ containerMountDestination rootfs mount.destination = .error e := by
  rw [setupMount] at h
  by_cases hbind : mount.isBind
  · rw [if_pos hbind] at h
    refine setupBindMount_error lossy (fun hnone ↦ hvalid.source hbind ?_) h
    rw [hnone]
    rfl
  · rw [if_neg hbind, if_pos (mem_of_isSupportedMountType hbind hvalid.mountType)] at h
    exact setupFilesystemMount_error lossy h

/-- The loop ends with the error of one of its mounts. -/
theorem exists_of_setupMounts_error {answers : Nat → MountAnswers} {rootfs : OsPath}
    {mounts : List Mount} {e : FilesystemError}
    (h : (setupMounts lossy answers rootfs mounts).2 = .error e) :
    ∃ mount ∈ mounts, ∃ n, (setupMount lossy (answers n) rootfs mount).2 = .error e := by
  induction mounts generalizing answers with
  | nil => cases h
  | cons mount mounts ih =>
    rw [setupMounts] at h
    split at h
    · rename_i hmount
      exact ⟨mount, List.mem_cons_self, 0, by rw [hmount]; exact h⟩
    · obtain ⟨other, hmem, n, hother⟩ := ih h
      exact ⟨other, List.mem_cons_of_mem _ hmem, n + 1, hother⟩

/-- **Validated mounts with usable destinations** fail because of the host only. -/
theorem setupMounts_error {answers : Nat → MountAnswers} {rootfs : OsPath} {mounts : List Mount}
    {e : FilesystemError} (hvalid : ∀ mount ∈ mounts, mount.Valid)
    (husable : ∀ mount ∈ mounts, UsableDestination mount.destination)
    (h : (setupMounts lossy answers rootfs mounts).2 = .error e) : IsContext e := by
  obtain ⟨mount, hmem, n, hmount⟩ := exists_of_setupMounts_error lossy h
  refine (setupMount_error lossy (hvalid mount hmem) hmount).resolve_right fun herror ↦ ?_
  obtain ⟨path, hpath⟩ := (@exists_containerMountDestination_iff rootfs _).mpr (husable mount hmem)
  rw [herror] at hpath
  cases hpath

end CrunRs.Filesystem
