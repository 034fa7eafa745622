import CrunRs.Lib.OsPath
import Mathlib.Data.Finmap

/-!
# File systems with directories

A file system as a map from paths to what they name.  What is in a directory is in it because its path
says so, and everything but the root is in a directory (`FileSystem.parents`).

The calls are those that go one name down from an open directory and follow no link: `openAt`, and
`add`, which makes a directory or a file.  A directory has to be empty to be removed.  What they change
is said path by path (`lookup_of_add`, `lookup_of_remove`), and two file systems are the same if all
their paths name the same (`ext_lookup`).
-/

set_option autoImplicit false

universe u

/-- What a path can name. -/
inductive FileNode
  | directory
  | regular (content : List UInt8)
  | symlink (target : OsPath)
  | charDevice
  | blockDevice
  | fifo
  | socket
  deriving DecidableEq, Repr

/-- The bits of `st_mode` that say which. -/
def FileNode.typeBits : FileNode → Nat
  | .fifo => 0o010000
  | .charDevice => 0o020000
  | .directory => 0o040000
  | .blockDevice => 0o060000
  | .regular _ => 0o100000
  | .symlink _ => 0o120000
  | .socket => 0o140000

/-- A file system with names of some type. -/
structure FileSystem (κ : Type u) [DecidableEq κ] where
  nodes : Finmap fun _ : List κ ↦ FileNode
  parents : ∀ dir name, dir ++ [name] ∈ nodes → nodes.lookup dir = some .directory

namespace FileSystem

variable {κ : Type u} [DecidableEq κ]

def lookup (fs : FileSystem κ) (path : List κ) : Option FileNode := fs.nodes.lookup path

theorem ext_lookup {fs fs' : FileSystem κ} (h : ∀ path, fs.lookup path = fs'.lookup path) :
    fs = fs' := by
  obtain ⟨nodes, parents⟩ := fs
  obtain ⟨nodes', parents'⟩ := fs'
  obtain rfl : nodes = nodes' := Finmap.ext_lookup h
  rfl

theorem lookup_parent {fs : FileSystem κ} {dir : List κ} {name : κ}
    (h : fs.lookup (dir ++ [name]) ≠ none) : fs.lookup dir = some .directory :=
  fs.parents dir name (Finmap.lookup_isSome.mp (Option.isSome_iff_ne_none.mpr h))

/-- Above everything there are directories. -/
theorem lookup_of_append {fs : FileSystem κ} {dir rest : List κ} (hrest : rest ≠ [])
    (h : fs.lookup (dir ++ rest) ≠ none) : fs.lookup dir = some .directory := by
  induction rest using List.reverseRecOn with
  | nil => exact absurd rfl hrest
  | append_singleton rest name ih =>
    rw [← List.append_assoc] at h
    have hparent := lookup_parent h
    by_cases hempty : rest = []
    · rwa [hempty, List.append_nil] at hparent
    · exact ih hempty (by rw [hparent]; exact Option.some_ne_none _)

theorem lookup_above {fs : FileSystem κ} {path dir : List κ}
    (hpath : fs.lookup path = some .directory) (hdir : dir <+: path) :
    fs.lookup dir = some .directory := by
  obtain ⟨rest, rfl⟩ := hdir
  by_cases hrest : rest = []
  · rwa [hrest, List.append_nil] at hpath
  · exact lookup_of_append hrest (by rw [hpath]; exact Option.some_ne_none _)

/-- Below what is missing everything is missing. -/
theorem lookup_append_eq_none {fs : FileSystem κ} {dir : List κ} (rest : List κ)
    (h : fs.lookup dir = none) : fs.lookup (dir ++ rest) = none := by
  by_cases hrest : rest = []
  · rwa [hrest, List.append_nil]
  · by_contra hpresent
    rw [lookup_of_append hrest hpresent] at h
    exact absurd h (Option.some_ne_none _)

/-! ## Opening -/

/-- Why something cannot be opened. -/
inductive OpenError
  | enoent
  | enotdir
  | eloop
  | other
  deriving DecidableEq, Repr

/-- `openat2` with `RESOLVE_NO_SYMLINKS`, for a name in a directory: the path of what is opened. -/
def openAt (fs : FileSystem κ) (directory : Bool) (dir : List κ) (name : κ) :
    Except OpenError (List κ) :=
  match fs.lookup (dir ++ [name]) with
  | none => .error .enoent
  | some (.symlink _) => .error .eloop
  | some node => if directory ∧ node ≠ .directory then .error .enotdir else .ok (dir ++ [name])

theorem openAt_of_directory {fs : FileSystem κ} {dir : List κ} {name : κ}
    (h : fs.lookup (dir ++ [name]) = some .directory) :
    fs.openAt true dir name = .ok (dir ++ [name]) := by
  rw [openAt, h]
  rfl

theorem openAt_of_none {fs : FileSystem κ} {directory : Bool} {dir : List κ} {name : κ}
    (h : fs.lookup (dir ++ [name]) = none) : fs.openAt directory dir name = .error .enoent := by
  rw [openAt, h]

/-- What is no directory is not opened as one. -/
theorem openAt_of_not_directory {fs : FileSystem κ} {dir : List κ} {name : κ} {node : FileNode}
    (h : fs.lookup (dir ++ [name]) = some node) (hnode : node ≠ .directory) :
    ∃ e, e ≠ .enoent ∧ fs.openAt true dir name = .error e := by
  rw [openAt, h]
  cases node with
  | directory => exact absurd rfl hnode
  | symlink target => exact ⟨.eloop, by decide, rfl⟩
  | _ => exact ⟨.enotdir, by decide, if_pos ⟨rfl, hnode⟩⟩

/-- What is no link is opened. -/
theorem openAt_of_some {fs : FileSystem κ} {dir : List κ} {name : κ} {node : FileNode}
    (h : fs.lookup (dir ++ [name]) = some node) (hnode : ∀ target, node ≠ .symlink target) :
    fs.openAt false dir name = .ok (dir ++ [name]) := by
  rw [openAt, h]
  cases node with
  | symlink target => exact absurd rfl (hnode target)
  | _ => rfl

theorem openAt_of_symlink {fs : FileSystem κ} {directory : Bool} {dir : List κ} {name : κ}
    {target : OsPath} (h : fs.lookup (dir ++ [name]) = some (.symlink target)) :
    fs.openAt directory dir name = .error .eloop := by
  rw [openAt, h]

/-! ## Adding and removing -/

/-- Something new in a directory. -/
def add (fs : FileSystem κ) (dir : List κ) (name : κ) (node : FileNode) : Option (FileSystem κ) :=
  if h : fs.lookup dir = some .directory ∧ fs.lookup (dir ++ [name]) = none then
    some
      { nodes := fs.nodes.insert (dir ++ [name]) node
        parents := fun other name' hmem ↦ by
          have hne : ∀ path, fs.lookup path = some .directory → path ≠ dir ++ [name] := by
            rintro path hpath rfl
            rw [h.2] at hpath
            exact absurd hpath.symm (Option.some_ne_none _)
          rcases Finmap.mem_insert.mp hmem with heq | hmem
          · obtain ⟨rfl, -⟩ := List.append_inj' heq rfl
            rw [Finmap.lookup_insert_of_ne _ (hne other h.1)]
            exact h.1
          · have hparent := fs.parents other name' hmem
            rwa [Finmap.lookup_insert_of_ne _ (hne other hparent)] }
  else none

theorem exists_add {fs : FileSystem κ} {dir : List κ} {name : κ} (node : FileNode)
    (hdir : fs.lookup dir = some .directory) (hname : fs.lookup (dir ++ [name]) = none) :
    ∃ fs', fs.add dir name node = some fs' := by
  rw [add, dif_pos ⟨hdir, hname⟩]
  exact ⟨_, rfl⟩

theorem lookup_of_add {fs fs' : FileSystem κ} {dir : List κ} {name : κ} {node : FileNode}
    (h : fs.add dir name node = some fs') (path : List κ) :
    fs'.lookup path = if path = dir ++ [name] then some node else fs.lookup path := by
  rw [add] at h
  split at h
  · obtain rfl := Option.some.inj h
    split
    · rename_i hpath
      rw [hpath]
      exact Finmap.lookup_insert _
    · rename_i hpath
      exact Finmap.lookup_insert_of_ne _ hpath
  · simp at h

/-- `rmdir`, or else `unlink`.  A directory has to be empty. -/
def remove (fs : FileSystem κ) (path : List κ) : Option (FileSystem κ) :=
  if h : path ∈ fs.nodes ∧ ∀ other ∈ fs.nodes.keys, other ≠ [] → other.dropLast ≠ path then
    some
      { nodes := fs.nodes.erase path
        parents := fun dir name hmem ↦ by
          have hmem := (Finmap.mem_erase.mp hmem).2
          have hne : dir ≠ path := by
            simpa using h.2 (dir ++ [name]) (Finmap.mem_keys.mpr hmem) (by simp)
          rw [Finmap.lookup_erase_ne hne]
          exact fs.parents dir name hmem }
  else none

theorem exists_remove {fs : FileSystem κ} {path : List κ} (hpath : fs.lookup path ≠ none)
    (hempty : ∀ name, fs.lookup (path ++ [name]) = none) :
    ∃ fs', fs.remove path = some fs' := by
  rw [remove, dif_pos]
  · exact ⟨_, rfl⟩
  · refine ⟨Finmap.lookup_isSome.mp (Option.isSome_iff_ne_none.mpr hpath), ?_⟩
    rintro other hother hne rfl
    have hlast := hempty (other.getLast hne)
    rw [List.dropLast_concat_getLast hne] at hlast
    exact absurd (Finmap.mem_keys.mp hother) (Finmap.lookup_eq_none.mp hlast)

theorem lookup_of_remove {fs fs' : FileSystem κ} {path : List κ} (h : fs.remove path = some fs')
    (other : List κ) : fs'.lookup other = if other = path then none else fs.lookup other := by
  rw [remove] at h
  split at h
  · obtain rfl := Option.some.inj h
    split
    · rename_i hother
      rw [hother]
      exact Finmap.lookup_erase _ _
    · rename_i hother
      exact Finmap.lookup_erase_ne hother
  · simp at h

/-- What has something in it is not removed. -/
theorem remove_eq_none {fs : FileSystem κ} {path : List κ} {name : κ}
    (h : fs.lookup (path ++ [name]) ≠ none) : fs.remove path = none := by
  by_contra hremove
  obtain ⟨fs', hremove⟩ := Option.ne_none_iff_exists'.mp hremove
  have hlookup := lookup_of_remove hremove
  have hparent : fs'.lookup path = some .directory :=
    @lookup_parent κ _ fs' path name (by rwa [hlookup, if_neg (by simp)])
  simp [hlookup] at hparent

end FileSystem
