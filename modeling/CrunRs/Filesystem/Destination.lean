import CrunRs.Filesystem.Mounts
import CrunRs.Lib.FileSystem

/-!
# Preparing the destination of a mount

`prepare_mount_destination` of `filesystem/mod.rs`, with the calls it makes.  The rootfs comes from an
image, and what is in it may be a link to anywhere; so the code goes down from the rootfs one name at
a time and follows no link.

The names are those of the destination (`containerMountDestination_lexical`): what
`container_mount_destination` put behind the rootfs, `strip_prefix` and `relative_components` find there
again.  On the way down missing directories are made, and for a file the file.

The way down is gone one descriptor at a time, but what will be made is looked for by full paths, and
taken back by them.  The kernel takes no name of more than 255 bytes and no path of 4096 or more.
-/

set_option autoImplicit false

namespace CrunRs.Filesystem.Destination

open Fallible OsPath

/-! ## Components -/

/-- One round of the loop of `relative_components`. -/
def pushRelative (path : String) (components : List (List UInt8)) (component : Component) :
    Except FilesystemError (List (List UInt8)) :=
  match component with
  | .normal part => .ok (components ++ [part])
  | .curDir => .ok components
  | .rootDir | .parentDir => .error (.mountDestinationEscapesRootfs path)

/-- `relative_components`, of a path that is given by its components. -/
def relativeComponents (path : String) (relative : List Component) :
    Except FilesystemError (List (List UInt8)) := do
  let components ← relative.foldlM (pushRelative path) []
  ensure (components ≠ []) .mountDestinationIsContainerRoot
  return components

theorem foldlM_pushRelative_normal (path : String) (parts components : List (List UInt8)) :
    (parts.map Component.normal).foldlM (pushRelative path) components =
      .ok (components ++ parts) := by
  induction parts generalizing components with
  | nil => rw [List.map_nil, List.foldlM_nil, List.append_nil]; rfl
  | cons part parts ih =>
    rw [List.map_cons, List.foldlM_cons, pushRelative, ok_bind, ih, List.append_assoc,
      List.singleton_append]

theorem relativeComponents_normal (path : String) {parts : List (List UInt8)} (hparts : parts ≠ []) :
    relativeComponents path (parts.map Component.normal) = .ok parts := by
  rw [relativeComponents, foldlM_pushRelative_normal, List.nil_append, ok_bind, ensure, if_pos hparts]
  rfl

/-- The names in a path. -/
def normalParts (p : OsPath) : List (List UInt8) :=
  p.pathComponents.filterMap fun
    | .normal part => some part
    | _ => none

theorem filterMap_normal_lead (p : OsPath) :
    p.lead.filterMap (fun
      | .normal part => some part
      | _ => none) = ([] : List (List UInt8)) := by
  rw [lead]
  split_ifs <;> rfl

theorem parentDir_mem_pathComponents_iff {p : OsPath} :
    .parentDir ∈ p.pathComponents ↔ parentDir ∈ p.components := by
  have hlead : .parentDir ∉ p.lead := by
    rw [lead]
    split_ifs <;> decide
  rw [pathComponents, List.mem_append, or_iff_right hlead, List.mem_map]
  constructor
  · rintro ⟨part, hpart, heq⟩
    rw [Component.ofPart] at heq
    split at heq
    · rename_i hdots
      rwa [hdots] at hpart
    · simp at heq
  · intro h
    exact ⟨_, h, rfl⟩

/-- Without a way up all parts of a path are names. -/
theorem normalParts_eq {p : OsPath} (h : .parentDir ∉ p.pathComponents) :
    normalParts p = p.components := by
  rw [parentDir_mem_pathComponents_iff] at h
  rw [normalParts, pathComponents, List.filterMap_append, filterMap_normal_lead, List.nil_append,
    List.filterMap_map]
  refine (List.filterMap_congr fun part hpart ↦ ?_).trans List.filterMap_some
  have hdots : part ≠ parentDir := fun heq ↦ h (heq ▸ hpart)
  rw [Function.comp_apply, Component.ofPart, ← parentDir, if_neg hdots]

/-- The same for a relative path that is made of names. -/
theorem pathComponents_ofParts {parts : List (List UInt8)} (hname : ∀ part ∈ parts, IsName ⟨part⟩)
    (h : parentDir ∉ parts) : (ofParts parts).pathComponents = parts.map Component.normal := by
  rw [pathComponents, lead_ofParts hname, components_ofParts hname, List.nil_append]
  refine List.map_congr_left fun part hpart ↦ ?_
  have hdots : part ≠ parentDir := fun heq ↦ h (heq ▸ hpart)
  rw [Component.ofPart, ← parentDir, if_neg hdots]

theorem usableDestination_iff {destination : String} :
    UsableDestination destination ↔
      (ofString destination).isAbsolute ∧ .parentDir ∉ (ofString destination).pathComponents ∧
        normalParts (ofString destination) ≠ [] := by
  rw [parentDir_mem_pathComponents_iff]
  constructor
  · rintro ⟨habsolute, hparent, hroot⟩
    refine ⟨habsolute, hparent, ?_⟩
    rwa [normalParts_eq (by rwa [parentDir_mem_pathComponents_iff])]
  · rintro ⟨habsolute, hparent, hroot⟩
    refine ⟨habsolute, hparent, ?_⟩
    rwa [normalParts_eq (by rwa [parentDir_mem_pathComponents_iff])] at hroot

/-- An accepted destination is the rootfs and the names below it. -/
theorem pathComponents_of_containerMountDestination {rootfs path : OsPath} {destination : String}
    (h : containerMountDestination rootfs destination = .ok path) :
    path.pathComponents =
        rootfs.pathComponents ++ (normalParts (ofString destination)).map Component.normal ∧
      ∃ relative, path.stripPrefix rootfs = some relative ∧
        ∀ text, relativeComponents text relative = .ok (normalParts (ofString destination)) := by
  obtain ⟨husable, rfl⟩ := containerMountDestination_eq_ok_iff.mp h
  have hname (part : List UInt8) (hpart : part ∈ (ofString destination).components) :=
    isName_of_mem_components hpart
  have hlead := lead_ofParts hname
  have hparts := pathComponents_ofParts hname husable.noParentDir
  rw [normalParts_eq (usableDestination_iff.mp husable).2.1]
  refine ⟨by rw [pathComponents_join hlead, hparts], _, stripPrefix_join hlead, fun text ↦ ?_⟩
  rw [hparts, relativeComponents_normal text husable.notRoot]

/-- **Destinations are below the rootfs, as far as their text goes.**  One is accepted exactly if it is
absolute, has no `..` and a name.  It is then the rootfs and the names, in order; and without the
rootfs in front it is the names again. -/
theorem containerMountDestination_lexical {rootfs path : OsPath} {destination : String} :
    (containerMountDestination rootfs destination = .ok path ↔
      ((ofString destination).isAbsolute ∧ .parentDir ∉ (ofString destination).pathComponents ∧
        normalParts (ofString destination) ≠ []) ∧
      path = rootfs.join (ofParts (normalParts (ofString destination)))) ∧
    (containerMountDestination rootfs destination = .ok path →
      path.pathComponents =
        rootfs.pathComponents ++ (normalParts (ofString destination)).map Component.normal ∧
      ∃ relative, path.stripPrefix rootfs = some relative ∧
        ∀ text, relativeComponents text relative = .ok (normalParts (ofString destination))) := by
  constructor
  · rw [containerMountDestination_eq_ok_iff, usableDestination_iff, @eq_comm _ path]
    exact and_congr_right fun h ↦ by rw [normalParts_eq h.2.1]
  · exact pathComponents_of_containerMountDestination

/-! ## Going down -/

abbrev Name := List UInt8

abbrev Fs := FileSystem Name

/-- A name that `openat2` and the others take: at most `NAME_MAX` bytes, none of them zero. -/
def nameable (name : Name) : Bool := decide (name.length ≤ 255) && name.all (· ≠ 0)

/-- A path that the system calls take: with the byte behind it, at most `PATH_MAX`. -/
def fits (path : OsPath) : Bool := decide (path.bytes.length < 4096)

/-- Which of the calls fail, whatever is there; those of a name, by its path. -/
structure DestinationFaults where
  openRootfs : Bool := false
  /-- The call that looks for a name, and for the rootfs the one that opens it again. -/
  opens : List Name → Bool := fun _ ↦ false
  mkdirs : List Name → Bool := fun _ ↦ false
  /-- The call that opens a directory after it was made. -/
  reopens : List Name → Bool := fun _ ↦ false
  fstats : List Name → Bool := fun _ ↦ false
  creates : List Name → Bool := fun _ ↦ false
  /-- `symlink_metadata`, before the way down. -/
  lstats : List Name → Bool := fun _ ↦ false
  /-- `remove_dir` and `remove_file`, in `rollback`. -/
  removes : List Name → Bool := fun _ ↦ false

variable (lossy : ByteArray → String) (faults : DestinationFaults)

/-- `name.to_string_lossy()`. -/
def nameText (name : Name) : String := (OsPath.mk name).display lossy

/-- An open with `RESOLVE_NO_SYMLINKS`, which may fail for reasons of its own, and for the name. -/
def openat2 (fails : Bool) (fs : Fs) (directory : Bool) (dir : List Name) (name : Name) :
    Except FileSystem.OpenError (List Name) :=
  if fails || !nameable name then .error .other else fs.openAt directory dir name

/-- `open_or_create_directory_at`, with `open_directory_at`. -/
def openOrCreateDirectoryAt (fs : Fs) (dir : List Name) (name : Name) :
    Fs × Except FilesystemError (List Name) :=
  let unopened :=
    .error (.context ("failed to open mount destination component " ++ nameText lossy name))
  match openat2 (faults.opens (dir ++ [name])) fs true dir name with
  | .ok fd => (fs, .ok fd)
  | .error .enoent =>
    match if faults.mkdirs (dir ++ [name]) then none else fs.add dir name .directory with
    | none =>
      (fs, .error (.context ("failed to create mount destination directory " ++ nameText lossy name)))
    | some fs => match openat2 (faults.reopens (dir ++ [name])) fs true dir name with
      | .ok fd => (fs, .ok fd)
      | .error _ => (fs, unopened)
  | .error _ => (fs, unopened)

/-- The loop of `open_or_create_directory_tree`. -/
def openOrCreateDirectories (fs : Fs) (dir : List Name) :
    List Name → Fs × Except FilesystemError (List Name)
  | [] => (fs, .ok dir)
  | name :: names => match openOrCreateDirectoryAt lossy faults fs dir name with
    | (fs, .error e) => (fs, .error e)
    | (fs, .ok fd) => openOrCreateDirectories fs fd names

/-- `open_or_create_directory_tree`. -/
def openOrCreateDirectoryTree (fs : Fs) (root : List Name) (components : List Name) :
    Fs × Except FilesystemError (List Name) :=
  if faults.opens root then (fs, .error (.context "failed to open mount destination component ."))
  else openOrCreateDirectories lossy faults fs root components

/-- `SFlag::from_bits_truncate(st_mode).contains(SFlag::S_IFDIR)`. -/
def looksLikeDirectory (node : FileNode) : Bool := node.typeBits &&& 0o040000 = 0o040000

/-- The end of `open_or_create_file_destination`, in the directory of the file. -/
def openOrCreateFileAt (fs : Fs) (parent : List Name) (name : Name) :
    Fs × Except FilesystemError (List Name) :=
  match openat2 (faults.opens (parent ++ [name])) fs false parent name with
  | .ok fd =>
    -- what the errors without a text become is up to the caller, which gives them one
    if faults.fstats fd then (fs, .error (.context "fstat"))
    else if (fs.lookup fd).any looksLikeDirectory then
      (fs, .error (.bindDestinationIsDirectory (nameText lossy name)))
    else (fs, .ok fd)
  | .error .enoent =>
    match if faults.creates (parent ++ [name]) then none else fs.add parent name (.regular []) with
    | none =>
      (fs, .error (.context ("failed to create mount destination file " ++ nameText lossy name)))
    | some fs => (fs, .ok (parent ++ [name]))
  | .error _ => (fs, .error (.context "openat2"))

/-- `open_or_create_file_destination`. -/
def openOrCreateFileDestination (fs : Fs) (root : List Name) (components : List Name) :
    Fs × Except FilesystemError (List Name) :=
  match components.getLast? with
  | none => (fs, .error (.context "file mount destination has no final component"))
  | some name => match openOrCreateDirectoryTree lossy faults fs root components.dropLast with
    | (fs, .error e) => (fs, .error e)
    | (fs, .ok parent) => openOrCreateFileAt lossy faults fs parent name

/-! ## What will be made -/

/-- Whether `symlink_metadata` fails for the names below a directory.  It follows the links on the way,
and what it finds behind one is up to the host. -/
def lstatFails (through : List Name → Bool) (fs : Fs) (dir : List Name) : List Name → Bool
  | [] => false
  | [name] => (fs.lookup (dir ++ [name])).isNone
  | name :: next :: names => match fs.lookup (dir ++ [name]) with
    | some .directory => lstatFails through fs (dir ++ [name]) (next :: names)
    | some (.symlink _) => through (dir ++ name :: next :: names)
    | _ => true

/-- The candidate that the names of a way are pushed onto. -/
def candidate (rootfs : OsPath) (way : List Name) : OsPath :=
  way.foldl (fun path name ↦ path.join ⟨name⟩) rootfs

/-- A full path that the system calls take. -/
def reachable (rootfs : OsPath) (way : List Name) : Bool :=
  fits (candidate rootfs way) && way.all nameable

/-- `symlink_metadata` fails, whatever is there. -/
def unseen (rootfs : OsPath) (root way : List Name) : Bool :=
  faults.lstats (root ++ way) || !reachable rootfs way

/-- `fs::symlink_metadata(&candidate).is_err()`. -/
def symlinkMetadataFails (through : List Name → Bool) (fs : Fs) (rootfs : OsPath) (root : List Name)
    (way : List Name) : Bool :=
  unseen faults rootfs root way || lstatFails through fs root way

/-- `prospective_created_paths`, each path without the rootfs in front. -/
def prospectiveCreatedPaths (through : List Name → Bool) (fs : Fs) (rootfs : OsPath)
    (root : List Name) (components : List Name) (sourceIsDir : Bool) : List (List Name) :=
  let finalIndex := if sourceIsDir then components.length else components.length - 1
  (((List.range finalIndex).map fun index ↦ components.take (index + 1)).filter
      (symlinkMetadataFails faults through fs rootfs root)) ++
    if !sourceIsDir && components ≠ [] then
      [components].filter (symlinkMetadataFails faults through fs rootfs root)
    else []

/-! ## `prepare_mount_destination` -/

/-- `PreparedMountDestination`, with the path of what its descriptor is open on. -/
structure Prepared where
  path : OsPath
  fd : List Name
  createdPaths : List (List Name)

/-- A component as it is written. -/
def componentBytes : Component → List UInt8
  | .rootDir => [separator]
  | .curDir => [46]
  | .parentDir => parentDir
  | .normal part => part

/-- `prepare_mount_destination`.  The rootfs is at `root`. -/
def prepareMountDestination (through : List Name → Bool) (fs : Fs) (root : List Name)
    (rootfs : OsPath) (destination : String) (sourceIsDir : Bool) :
    Fs × Except FilesystemError Prepared :=
  match containerMountDestination rootfs destination with
  | .error e => (fs, .error e)
  | .ok path => match path.stripPrefix rootfs with
    | none => (fs, .error (.context "mount destination was not beneath rootfs"))
    | some relative =>
      match relativeComponents ((ofParts (relative.map componentBytes)).display lossy) relative with
      | .error e => (fs, .error e)
      | .ok components =>
        if faults.openRootfs ∨ fs.lookup root ≠ some .directory then
          (fs, .error (.context ("failed to open rootfs directory: " ++ rootfs.display lossy)))
        else
          let createdPaths :=
            prospectiveCreatedPaths faults through fs rootfs root components sourceIsDir
          let opened :=
            if sourceIsDir then openOrCreateDirectoryTree lossy faults fs root components
            else openOrCreateFileDestination lossy faults fs root components
          match opened with
          | (fs, .error _) =>
            (fs, .error (.context ((if sourceIsDir then "failed to resolve directory mount destination"
              else "failed to resolve file mount destination") ++ " without symlinks: " ++
                path.display lossy)))
          | (fs, .ok fd) => (fs, .ok { path, fd, createdPaths })

/-- `remove_dir` or else `remove_file`, by the full path; the errors are dropped. -/
def removePath (rootfs : OsPath) (root : List Name) (fs : Fs) (way : List Name) : Fs :=
  if faults.removes (root ++ way) || !reachable rootfs way then fs
  else (fs.remove (root ++ way)).getD fs

/-- `PreparedMountDestination::rollback` of what was not mounted. -/
def Prepared.rollback (prepared : Prepared) (rootfs : OsPath) (root : List Name) (fs : Fs) : Fs :=
  prepared.createdPaths.reverse.foldl (removePath faults rootfs root) fs

/-! ## What a mount sees of it -/

/-- A number for the descriptor, or the message of the failure. -/
def openedAs (number : List Name → ℕ) : Except FilesystemError Prepared → Except String ℕ
  | .ok prepared => .ok (number prepared.fd)
  | .error (.context message) => .error message
  | .error _ => .error ""

/-- The call of `setup_mount` is this one, if what the host answers is what is in the tree. -/
theorem prepareMountDestination_eq {answers : MountAnswers} {through : List Name → Bool} {fs : Fs}
    {root : List Name} {rootfs : OsPath} {destination : String} {sourceIsDir : Bool}
    (number : List Name → ℕ)
    (hopened : ∀ path, containerMountDestination rootfs destination = .ok path →
      answers.opened path sourceIsDir = openedAs number
        (prepareMountDestination lossy faults through fs root rootfs destination sourceIsDir).2) :
    Filesystem.prepareMountDestination answers rootfs destination sourceIsDir =
      (prepareMountDestination lossy faults through fs root rootfs destination sourceIsDir).2.map
        fun prepared ↦ { path := prepared.path, fd := number prepared.fd } := by
  cases hpath : containerMountDestination rootfs destination with
  | error e =>
    rw [Filesystem.prepareMountDestination, hpath, prepareMountDestination, hpath]
    rfl
  | ok path =>
    obtain ⟨-, relative, hstrip, hrelative⟩ := pathComponents_of_containerMountDestination hpath
    rw [Filesystem.prepareMountDestination, hpath, ok_bind, hopened path hpath]
    -- past the checks of the destination every error has a context
    simp only [prepareMountDestination, hpath, hstrip, hrelative]
    split
    · rfl
    · split <;> rfl

end CrunRs.Filesystem.Destination
