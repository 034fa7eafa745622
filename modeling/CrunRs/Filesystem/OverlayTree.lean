import CrunRs.Filesystem.Overlay
import CrunRs.Lib.FileSystem

/-!
# What a failed overlay setup leaves in the directory tree

`setup_overlay_rootfs` makes the upper, the work and the merged directory with `create_dir_all`, which
makes everything that is missing on the way as well.  If one of the calls or the mount fails, then
`cleanup_created` takes the merged, the work and the upper directory back, with one `remove_dir` each.
What was made on the way stays, and so does a directory that has another one in it when it comes to its
`remove_dir`.

What is made is said in terms of the tree before (`Made`), and what the cleanup leaves in terms of what
was made (`Left`).  A mount that fails may have changed the tree as well: the kernel makes or empties a
directory `work` in the work directory before it looks at the rest.  So after a failure the tree is as
before exactly if all that is there then and was not there before (`Found`) is one of the three
directories each, and in another one of them only if it is removed first
(`setupOverlayRootfs_restores_iff`).  Nothing that is there is lost in any case, but for what such a
mount changes (`setupOverlayRootfs_keeps`).  If the three are in directories that are there, then
nothing else is made, and what happens is what `Filesystem.setupOverlayRootfs` says without the tree
(`setupOverlayRootfs_simulates`).

A path is the list of the names that the kernel comes to on it, with links to what is there followed.
A link that is on it is one that leads nowhere.
-/

set_option autoImplicit false

namespace CrunRs.Filesystem.OverlayTree

open FileSystem

universe u

variable {κ : Type u} [DecidableEq κ]

/-! ## The calls -/

/-- Why a call of `mkdir` fails: the kinds of error that matter. -/
inductive MkdirError
  | notFound
  | alreadyExists
  | notADirectory
  | other
  deriving DecidableEq, Repr

/-- What fails by itself; for the mount, by its target and its data, with what it makes of the tree. -/
structure TreeFaults (κ : Type u) [DecidableEq κ] where
  mkdir : List κ → Bool
  rmdir : List κ → Bool
  mount : List κ → String → Option (FileSystem κ → FileSystem κ)

/-- The way down to a directory, its names last to first. -/
def search (fs : FileSystem κ) : List κ → Except MkdirError Unit
  | [] => .ok ()
  | name :: above =>
    match search fs above with
    | .error e => .error e
    | .ok () =>
      match fs.lookup (above.reverse ++ [name]) with
      | some .directory => .ok ()
      | none => .error .notFound
      | some (.symlink _) => .error .notFound
      | some _ => .error .notADirectory

/-- `mkdir`. -/
def mkdir (fails : List κ → Bool) (fs : FileSystem κ) (name : κ) (above : List κ) :
    Except MkdirError (FileSystem κ) :=
  match search fs above with
  | .error e => .error e
  | .ok () =>
    if fs.lookup (above.reverse ++ [name]) ≠ none then .error .alreadyExists
    else if fails (above.reverse ++ [name]) then .error .other
    else (fs.add above.reverse name .directory).elim (.error .other) .ok

/-- `Path::is_dir`. -/
def isDir (fs : FileSystem κ) (path : List κ) : Bool := fs.lookup path = some .directory

theorem isDir_iff {fs : FileSystem κ} {path : List κ} :
    isDir fs path = true ↔ fs.lookup path = some .directory :=
  decide_eq_true_iff

/-- `Path::exists`. -/
def pathExists (fs : FileSystem κ) (path : List κ) : Bool :=
  match fs.lookup path with
  | none => false
  | some (.symlink _) => false
  | some _ => true

/-- `fs::create_dir_all`, for a path with its names last to first.  The root is there. -/
def createDirAll (fails : List κ → Bool) (fs : FileSystem κ) :
    List κ → FileSystem κ × Except MkdirError Unit
  | [] => (fs, .ok ())
  | name :: above =>
    match mkdir fails fs name above with
    | .ok fs' => (fs', .ok ())
    | .error .notFound =>
      match createDirAll fails fs above with
      | (fs', .error e) => (fs', .error e)
      | (fs', .ok ()) =>
        match mkdir fails fs' name above with
        | .ok fs'' => (fs'', .ok ())
        | .error e =>
          if isDir fs' (above.reverse ++ [name]) then (fs', .ok ()) else (fs', .error e)
    | .error e => if isDir fs (above.reverse ++ [name]) then (fs, .ok ()) else (fs, .error e)

/-- `fs::remove_dir`, if nobody asks for its result. -/
def removeDir (fails : List κ → Bool) (fs : FileSystem κ) (path : List κ) : FileSystem κ :=
  if isDir fs path ∧ fails path = false then (fs.remove path).getD fs else fs

/-- An `OverlayConfig`. -/
structure OverlayConfig (κ : Type u) where
  lowerdir : List κ
  upperdir : List κ
  workdir : List κ
  mergeddir : List κ

/-- The closure `cleanup_created`: what it removes depends on the tree before. -/
def cleanupCreated (fails : List κ → Bool) (config : OverlayConfig κ) (before fs : FileSystem κ) :
    FileSystem κ :=
  let fs := if before.lookup config.mergeddir = none then removeDir fails fs config.mergeddir else fs
  let fs := if before.lookup config.workdir = none then removeDir fails fs config.workdir else fs
  if before.lookup config.upperdir = none then removeDir fails fs config.upperdir else fs

/-- The three calls of `create_dir_all`, up to the first that fails. -/
def createDirs (display : List κ → String) (fails : List κ → Bool) (config : OverlayConfig κ)
    (fs : FileSystem κ) : FileSystem κ × Except FilesystemError Unit :=
  match createDirAll fails fs config.upperdir.reverse with
  | (fs, .error _) =>
    (fs, .error (.context ("failed to create overlay upperdir: " ++ display config.upperdir)))
  | (fs, .ok ()) =>
    match createDirAll fails fs config.workdir.reverse with
    | (fs, .error _) =>
      (fs, .error (.context ("failed to create overlay workdir: " ++ display config.workdir)))
    | (fs, .ok ()) =>
      match createDirAll fails fs config.mergeddir.reverse with
      | (fs, .error _) =>
        (fs, .error (.context ("failed to create overlay mergeddir: " ++ display config.mergeddir)))
      | (fs, .ok ()) => (fs, .ok ())

/-- The data of the mount. -/
def mountData (display : List κ → String) (config : OverlayConfig κ) : String :=
  "lowerdir=" ++ display config.lowerdir ++ ",upperdir=" ++ display config.upperdir ++ ",workdir=" ++
    display config.workdir

/-- `setup_overlay_rootfs`. -/
def setupOverlayRootfs (display : List κ → String) (faults : TreeFaults κ) (config : OverlayConfig κ)
    (fs : FileSystem κ) : FileSystem κ × Except FilesystemError (List κ) :=
  if !pathExists fs config.lowerdir then
    (fs, .error (.overlayLowerdirDoesNotExist (display config.lowerdir)))
  else if fs.lookup config.mergeddir ≠ none then
    (fs, .error (.overlayMergeddirAlreadyExists (display config.mergeddir)))
  else
    match createDirs display faults.mkdir config fs with
    | (fs', .error e) => (cleanupCreated faults.rmdir config fs fs', .error e)
    | (fs', .ok ()) =>
      match faults.mount config.mergeddir (mountData display config) with
      | some leave =>
        (cleanupCreated faults.rmdir config fs (leave fs'),
          .error (.context ("failed to mount overlay rootfs at " ++ display config.mergeddir)))
      | none => (fs', .ok config.mergeddir)

/-! ## `create_dir_all` -/

section CreateDirAll

variable {fails : List κ → Bool} {fs fs' : FileSystem κ}

/-- A directory is there, or can be made. -/
def Clear (fails : List κ → Bool) (fs : FileSystem κ) (path : List κ) : Prop :=
  fs.lookup path = some .directory ∨ fs.lookup path = none ∧ fails path = false

/-- Every directory on the way is there, or can be made. -/
def Clears (fails : List κ → Bool) (fs : FileSystem κ) (path : List κ) : Prop :=
  ∀ dir, dir <+: path → Clear fails fs dir

/-- A directory that is made on the way. -/
def Makes (fails : List κ → Bool) (fs : FileSystem κ) (path dir : List κ) : Prop :=
  dir <+: path ∧ fs.lookup dir = none ∧ Clears fails fs dir

instance (path : List κ) : Decidable (Clear fails fs path) :=
  inferInstanceAs (Decidable (_ ∨ _))

instance (path : List κ) : Decidable (Clears fails fs path) :=
  decidable_of_iff (∀ dir ∈ path.inits, Clear fails fs dir) (by simp [Clears])

instance (path dir : List κ) : Decidable (Makes fails fs path dir) :=
  inferInstanceAs (Decidable (_ ∧ _))

/-- The second tree is the first one with some directories more. -/
structure WithDirs (fs fs' : FileSystem κ) (made : List κ → Prop) : Prop where
  missing : ∀ dir, made dir → fs.lookup dir = none
  directory : ∀ dir, made dir → fs'.lookup dir = some .directory
  same : ∀ path, ¬ made path → fs'.lookup path = fs.lookup path

theorem clears_of_directory {path : List κ} (hpath : fs.lookup path = some .directory) :
    Clears fails fs path :=
  fun _ hdir ↦ .inl (lookup_above hpath hdir)

theorem clears_concat_iff {dir : List κ} {name : κ} :
    Clears fails fs (dir ++ [name]) ↔ Clears fails fs dir ∧ Clear fails fs (dir ++ [name]) := by
  simp only [Clears, List.prefix_concat_iff, forall_eq_or_imp]
  exact and_comm

theorem makes_concat_iff {dir path : List κ} {name : κ} :
    Makes fails fs (dir ++ [name]) path ↔
      Makes fails fs dir path ∨
        path = dir ++ [name] ∧ fs.lookup path = none ∧ Clears fails fs path := by
  rw [Makes, Makes, List.prefix_concat_iff, or_and_right, or_comm]

/-- Nothing is made on the way to what is there. -/
theorem not_makes_of_some {path dir : List κ} (hpath : fs.lookup path ≠ none) :
    ¬ Makes fails fs path dir := by
  rintro ⟨⟨rest, rfl⟩, hdir, -⟩
  exact hpath (lookup_append_eq_none rest hdir)

/-- The way down to a directory: it is there, or something on the way is missing, or it is no
directory. -/
theorem search_cases (hroot : fs.lookup [] = some .directory) (above : List κ) :
    (search fs above = .ok () ∧ fs.lookup above.reverse = some .directory) ∨
      (search fs above = .error .notFound ∧ fs.lookup above.reverse ≠ some .directory) ∨
      (search fs above = .error .notADirectory ∧
        ∃ dir node, dir <+: above.reverse ∧ fs.lookup dir = some node ∧ node ≠ .directory) := by
  induction above with
  | nil => exact .inl ⟨rfl, hroot⟩
  | cons name above ih =>
    rw [search, List.reverse_cons]
    rcases ih with ⟨hsearch, hdir⟩ | ⟨hsearch, hdir⟩ | ⟨hsearch, dir, node, hway, hnode, hne⟩
    · rw [hsearch]
      dsimp only
      cases hname : fs.lookup (above.reverse ++ [name]) with
      | none => exact .inr (.inl ⟨rfl, by simp⟩)
      | some node =>
        cases node with
        | directory => exact .inl ⟨rfl, rfl⟩
        | symlink target => exact .inr (.inl ⟨rfl, by simp⟩)
        | _ => exact .inr (.inr ⟨rfl, _, _, List.prefix_rfl, hname, by simp⟩)
    · refine .inr (.inl ⟨by rw [hsearch], fun hname ↦ hdir ?_⟩)
      exact lookup_above hname (List.prefix_append _ _)
    · have hway := hway.trans (List.prefix_append above.reverse [name])
      exact .inr (.inr ⟨by rw [hsearch], dir, node, hway, hnode, hne⟩)

/-- On the way to a path there is something that is no directory. -/
theorem not_clears_of_node {path dir : List κ} {node : FileNode} (hway : dir <+: path)
    (hnode : fs.lookup dir = some node) (hne : node ≠ .directory) : ¬ Clears fails fs path := by
  intro hclears
  rcases hclears dir hway with hdir | ⟨hdir, -⟩
  · exact hne (Option.some.inj (hnode.symm.trans hdir))
  · simp [hnode] at hdir

theorem not_makes_of_node {path dir made : List κ} {node : FileNode} (hway : dir <+: path)
    (hnode : fs.lookup dir = some node) (hne : node ≠ .directory) : ¬ Makes fails fs path made := by
  rintro ⟨hmade, hnone, hclears⟩
  rcases List.prefix_or_prefix_of_prefix hway hmade with hbelow | ⟨rest, rfl⟩
  · exact not_clears_of_node hbelow hnode hne hclears
  · rw [lookup_append_eq_none rest hnone] at hnode
    simp at hnode

/-- `mkdir` makes a directory; or the directory it is to be in is missing; or there is something
there already, or nothing can be made on the way. -/
theorem mkdir_cases (fails : List κ → Bool) (hroot : fs.lookup [] = some .directory) (name : κ)
    (above : List κ) :
    (∃ fs', mkdir fails fs name above = .ok fs' ∧ fs.lookup above.reverse = some .directory ∧
        fs.lookup (above.reverse ++ [name]) = none ∧ fails (above.reverse ++ [name]) = false ∧
        ∀ path, fs'.lookup path =
          if path = above.reverse ++ [name] then some .directory else fs.lookup path) ∨
      (mkdir fails fs name above = .error .notFound ∧
        fs.lookup above.reverse ≠ some .directory) ∨
      ∃ e, e ≠ .notFound ∧ mkdir fails fs name above = .error e ∧
        (fs.lookup (above.reverse ++ [name]) = some .directory ∨
          ¬ Clears fails fs (above.reverse ++ [name]) ∧
            ∀ dir, ¬ Makes fails fs (above.reverse ++ [name]) dir) := by
  rw [mkdir]
  rcases search_cases hroot above with ⟨hsearch, hdir⟩ | ⟨hsearch, hdir⟩ |
    ⟨hsearch, dir, node, hway, hnode, hne⟩
  · rw [hsearch]
    dsimp only
    split
    · rename_i hname
      refine .inr (.inr ⟨.alreadyExists, by decide, rfl, ?_⟩)
      obtain ⟨node, hnode⟩ := Option.ne_none_iff_exists'.mp hname
      by_cases hne : node = .directory
      · exact .inl (hne ▸ hnode)
      · exact .inr ⟨not_clears_of_node List.prefix_rfl hnode hne, fun _ ↦ not_makes_of_some hname⟩
    · rename_i hname
      have hname := not_not.mp hname
      split
      · rename_i hfails
        have hclear : ¬ Clears fails fs (above.reverse ++ [name]) := fun hclears ↦ by
          rcases hclears _ List.prefix_rfl with h | h
          · simp [hname] at h
          · simp [hfails] at h
        refine .inr (.inr ⟨.other, by decide, rfl, .inr ⟨hclear, fun made hmakes ↦ ?_⟩⟩)
        rcases makes_concat_iff.mp hmakes with hmakes | ⟨rfl, -, hclears⟩
        · exact not_makes_of_some (by simp [hdir]) hmakes
        · exact hclear hclears
      · rename_i hfails
        obtain ⟨fs', hadd⟩ := exists_add .directory hdir hname
        refine .inl ⟨fs', by rw [hadd]; rfl, hdir, hname, Bool.eq_false_iff.mpr hfails, ?_⟩
        exact lookup_of_add hadd
  · exact .inr (.inl ⟨by rw [hsearch], hdir⟩)
  · have hway := hway.trans (List.prefix_append above.reverse [name])
    refine .inr (.inr ⟨.notADirectory, by decide, by rw [hsearch], .inr ⟨?_, fun made ↦ ?_⟩⟩)
    · exact not_clears_of_node hway hnode hne
    · exact not_makes_of_node hway hnode hne

theorem withDirs_of_not {made : List κ → Prop} (h : ∀ dir, ¬ made dir) : WithDirs fs fs made :=
  ⟨fun dir hmade ↦ absurd hmade (h dir), fun dir hmade ↦ absurd hmade (h dir), fun _ _ ↦ rfl⟩

theorem WithDirs.congr {made made' : List κ → Prop} (h : WithDirs fs fs' made)
    (hmade : ∀ dir, made' dir ↔ made dir) : WithDirs fs fs' made' := by
  obtain rfl : made' = made := funext fun dir ↦ propext (hmade dir)
  exact h

/-- What is there stays. -/
theorem WithDirs.lookup_of_some {made : List κ → Prop} (h : WithDirs fs fs' made) {path : List κ}
    (hpath : fs.lookup path ≠ none) : fs'.lookup path = fs.lookup path :=
  h.same path fun hmade ↦ hpath (h.missing path hmade)

theorem WithDirs.trans {fs'' : FileSystem κ} {made made' : List κ → Prop}
    (h : WithDirs fs fs' made) (h' : WithDirs fs' fs'' made') :
    WithDirs fs fs'' fun dir ↦ made dir ∨ made' dir := by
  refine ⟨?_, ?_, ?_⟩
  · rintro dir (hmade | hmade)
    · exact h.missing dir hmade
    · by_contra hsome
      exact hsome ((h.lookup_of_some hsome).symm.trans (h'.missing dir hmade))
  · rintro dir (hmade | hmade)
    · rw [h'.lookup_of_some (by simp [h.directory dir hmade])]
      exact h.directory dir hmade
    · exact h'.directory dir hmade
  · intro path hmade
    rw [not_or] at hmade
    rw [h'.same path hmade.2, h.same path hmade.1]

/-- Making directories that are clear does not change what is clear. -/
theorem WithDirs.clear_iff {made : List κ → Prop} (h : WithDirs fs fs' made)
    (hclear : ∀ dir, made dir → Clear fails fs dir) (path : List κ) :
    Clear fails fs' path ↔ Clear fails fs path := by
  by_cases hmade : made path
  · exact iff_of_true (.inl (h.directory path hmade)) (hclear path hmade)
  · rw [Clear, Clear, h.same path hmade]

theorem WithDirs.clears_iff {made : List κ → Prop} (h : WithDirs fs fs' made)
    (hclear : ∀ dir, made dir → Clear fails fs dir) (path : List κ) :
    Clears fails fs' path ↔ Clears fails fs path :=
  forall_congr' fun dir ↦ imp_congr_right fun _ ↦ h.clear_iff hclear dir

theorem WithDirs.makes_iff {made : List κ → Prop} (h : WithDirs fs fs' made)
    (hclear : ∀ dir, made dir → Clear fails fs dir) (path dir : List κ) :
    Makes fails fs' path dir ↔ Makes fails fs path dir ∧ ¬ made dir := by
  rw [Makes, Makes, h.clears_iff hclear]
  by_cases hmade : made dir
  · simp [hmade, h.directory dir hmade]
  · simp [hmade, h.same dir hmade]

theorem Makes.clear {path dir : List κ} (h : Makes fails fs path dir) : Clear fails fs dir :=
  h.2.2 dir List.prefix_rfl

/-- Once everything on the way is made, the path is there. -/
theorem WithDirs.lookup_of_clears {path : List κ} (h : WithDirs fs fs' (Makes fails fs path))
    (hclears : Clears fails fs path) : fs'.lookup path = some .directory := by
  rcases hclears path List.prefix_rfl with hdir | ⟨hnone, -⟩
  · rw [h.lookup_of_some (by simp [hdir]), hdir]
  · exact h.directory path ⟨List.prefix_rfl, hnone, hclears⟩

theorem withDirs_of_lookup {path : List κ} (hnone : fs.lookup path = none)
    (hlookup : ∀ other, fs'.lookup other = if other = path then some .directory else fs.lookup other) :
    WithDirs fs fs' (· = path) where
  missing dir hdir := by rw [hdir, hnone]
  directory dir hdir := (hlookup dir).trans (if_pos hdir)
  same other hother := (hlookup other).trans (if_neg hother)

/-- Below what can be cleared one more directory is made if it can be made itself. -/
theorem makes_concat_iff_of_clears {dir path : List κ} {name : κ} (hclears : Clears fails fs dir)
    (hnone : fs.lookup (dir ++ [name]) = none) (hfails : fails (dir ++ [name]) = false) :
    Makes fails fs (dir ++ [name]) path ↔ Makes fails fs dir path ∨ path = dir ++ [name] := by
  rw [makes_concat_iff]
  refine or_congr_right (and_iff_left_of_imp ?_)
  rintro rfl
  exact ⟨hnone, clears_concat_iff.mpr ⟨hclears, .inr ⟨hnone, hfails⟩⟩⟩

theorem makes_concat_iff_of_not_clears {dir path : List κ} {name : κ}
    (hclears : ¬ Clears fails fs (dir ++ [name])) :
    Makes fails fs (dir ++ [name]) path ↔ Makes fails fs dir path := by
  rw [makes_concat_iff]
  refine or_iff_left ?_
  rintro ⟨rfl, -, h⟩
  exact hclears h

/-- What `create_dir_all` comes to: it makes what is missing on the way, up to what cannot be made. -/
structure Creates (fails : List κ → Bool) (fs : FileSystem κ) (path : List κ)
    (result : FileSystem κ × Except MkdirError Unit) : Prop where
  makes : WithDirs fs result.1 (Makes fails fs path)
  ok_iff : result.2 = .ok () ↔ Clears fails fs path

theorem creates_of_directory {path : List κ} (hdir : fs.lookup path = some .directory) :
    Creates fails fs path (fs, .ok ()) where
  makes := withDirs_of_not fun _ ↦ not_makes_of_some (by simp [hdir])
  ok_iff := iff_of_true rfl (clears_of_directory hdir)

/-- The last directory is made in what has been made so far. -/
theorem creates_of_lookup {fs₁ fs₂ : FileSystem κ} {dir : List κ} {name : κ}
    (hwith : WithDirs fs fs₁ (Makes fails fs dir)) (hclears : Clears fails fs dir)
    (hnone : fs.lookup (dir ++ [name]) = none) (hnone₁ : fs₁.lookup (dir ++ [name]) = none)
    (hfails : fails (dir ++ [name]) = false)
    (hlookup : ∀ path, fs₂.lookup path =
      if path = dir ++ [name] then some .directory else fs₁.lookup path) :
    Creates fails fs (dir ++ [name]) (fs₂, .ok ()) where
  makes := (hwith.trans (withDirs_of_lookup hnone₁ hlookup)).congr fun _ ↦
    makes_concat_iff_of_clears hclears hnone hfails
  ok_iff := iff_of_true rfl (clears_concat_iff.mpr ⟨hclears, .inr ⟨hnone, hfails⟩⟩)

/-- The last directory cannot be made, or one before it. -/
theorem creates_of_not_clears {fs₁ : FileSystem κ} {dir : List κ} {name : κ} {e : MkdirError}
    (hwith : WithDirs fs fs₁ (Makes fails fs dir)) (hclears : ¬ Clears fails fs (dir ++ [name])) :
    Creates fails fs (dir ++ [name]) (fs₁, .error e) where
  makes := hwith.congr fun _ ↦ makes_concat_iff_of_not_clears hclears
  ok_iff := iff_of_false (by simp) hclears

theorem createDirAll_of_error {name : κ} {above : List κ} {e : MkdirError} (hne : e ≠ .notFound)
    (hmkdir : mkdir fails fs name above = .error e) :
    createDirAll fails fs (name :: above) =
      if isDir fs (above.reverse ++ [name]) then (fs, .ok ()) else (fs, .error e) := by
  rw [createDirAll, hmkdir]
  cases e with
  | notFound => exact absurd rfl hne
  | _ => rfl

theorem createDirAll_spec (fails : List κ → Bool) (hroot : fs.lookup [] = some .directory)
    (path : List κ) :
    Creates fails fs path.reverse (createDirAll fails fs path) := by
  induction path with
  | nil => exact creates_of_directory hroot
  | cons name above ih =>
    rw [List.reverse_cons]
    rcases mkdir_cases fails hroot name above with
      ⟨fs', hmkdir, hdir, hnone, hfails, hlookup⟩ | ⟨hmkdir, hdir⟩ | ⟨e, hne, hmkdir, hend⟩
    · rw [createDirAll, hmkdir]
      have hwith : WithDirs fs fs (Makes fails fs above.reverse) := (creates_of_directory hdir).makes
      exact creates_of_lookup hwith (clears_of_directory hdir) hnone hnone hfails hlookup
    · rw [createDirAll, hmkdir]
      -- what is to be made last is not there, because the directory it is to be in was not there
      have hnone : fs.lookup (above.reverse ++ [name]) = none :=
        not_not.mp fun hsome ↦ hdir (lookup_parent hsome)
      rcases hcreate : createDirAll fails fs above with ⟨fs₁, r⟩
      rw [hcreate] at ih
      obtain ⟨hwith, hok⟩ := ih
      cases r with
      | error e =>
        refine creates_of_not_clears hwith fun hclears ↦ ?_
        simpa using hok.mpr (clears_concat_iff.mp hclears).1
      | ok _ =>
        have hclears : Clears fails fs above.reverse := hok.mp rfl
        have hnone₁ : fs₁.lookup (above.reverse ++ [name]) = none := by
          rw [hwith.same _ fun hmakes ↦ absurd hmakes.1.length_le (by simp), hnone]
        have hroot₁ : fs₁.lookup [] = some .directory := by
          rw [hwith.lookup_of_some (by simp [hroot]), hroot]
        dsimp only
        rcases mkdir_cases fails hroot₁ name above with
          ⟨fs₂, hmkdir, -, -, hfails, hlookup⟩ | ⟨-, hdir⟩ | ⟨e, -, hmkdir, hdir | ⟨hstuck, -⟩⟩
        · rw [hmkdir]
          exact creates_of_lookup hwith hclears hnone hnone₁ hfails hlookup
        · exact absurd (hwith.lookup_of_clears hclears) hdir
        · simp [hnone₁] at hdir
        · rw [hmkdir]
          dsimp only
          rw [if_neg (by simp [isDir, hnone₁])]
          refine creates_of_not_clears hwith fun hclears ↦ hstuck ?_
          exact (hwith.clears_iff (fun _ ↦ Makes.clear) _).mpr hclears
    · rw [createDirAll_of_error hne hmkdir]
      rcases hend with hdir | ⟨hclears, hmakes⟩
      · rw [if_pos (isDir_iff.mpr hdir)]
        exact creates_of_directory hdir
      · rw [if_neg fun hdir ↦ hclears (clears_of_directory (isDir_iff.mp hdir))]
        exact ⟨withDirs_of_not hmakes, iff_of_false (by simp) hclears⟩

end CreateDirAll

/-! ## What is made, and what is taken back -/

section Setup

variable {fails : List κ → Bool} {config : OverlayConfig κ} {fs fs₁ : FileSystem κ}

/-- A directory that is made on the way to one of the three; there is no next one if one fails. -/
def Made (fails : List κ → Bool) (fs : FileSystem κ) (config : OverlayConfig κ) (dir : List κ) :
    Prop :=
  Makes fails fs config.upperdir dir ∨ Clears fails fs config.upperdir ∧
    (Makes fails fs config.workdir dir ∨ Clears fails fs config.workdir ∧
      Makes fails fs config.mergeddir dir)

instance (dir : List κ) : Decidable (Made fails fs config dir) :=
  inferInstanceAs (Decidable (_ ∨ _ ∧ (_ ∨ _ ∧ _)))

/-- All three are there, or can be made. -/
def AllClear (fails : List κ → Bool) (fs : FileSystem κ) (config : OverlayConfig κ) : Prop :=
  Clears fails fs config.upperdir ∧ Clears fails fs config.workdir ∧ Clears fails fs config.mergeddir

/-- Which of the three calls fails first, in terms of the tree before them. -/
def firstFailure (display : List κ → String) (fails : List κ → Bool) (fs : FileSystem κ)
    (config : OverlayConfig κ) : Except FilesystemError Unit :=
  if ¬ Clears fails fs config.upperdir then
    .error (.context ("failed to create overlay upperdir: " ++ display config.upperdir))
  else if ¬ Clears fails fs config.workdir then
    .error (.context ("failed to create overlay workdir: " ++ display config.workdir))
  else if ¬ Clears fails fs config.mergeddir then
    .error (.context ("failed to create overlay mergeddir: " ++ display config.mergeddir))
  else .ok ()

theorem firstFailure_eq_ok_iff {display : List κ → String} :
    firstFailure display fails fs config = .ok () ↔ AllClear fails fs config := by
  rw [firstFailure, AllClear]
  split
  · simp [*]
  · split
    · simp [*]
    · split
      · simp [*]
      · simp_all

/-- What is there is there after the calls, the root among it. -/
theorem WithDirs.root {made : List κ → Prop} (h : WithDirs fs fs₁ made)
    (hroot : fs.lookup [] = some .directory) : fs₁.lookup [] = some .directory := by
  rw [h.lookup_of_some (by simp [hroot]), hroot]

/-- A call of `create_dir_all` after others, in terms of the tree before them all. -/
theorem createDirAll_after {made : List κ → Prop} (hroot : fs.lookup [] = some .directory)
    (hwith : WithDirs fs fs₁ made) (hclear : ∀ dir, made dir → Clear fails fs dir) (path : List κ) :
    WithDirs fs (createDirAll fails fs₁ path.reverse).1
        (fun dir ↦ made dir ∨ Makes fails fs path dir) ∧
      ((createDirAll fails fs₁ path.reverse).2 = .ok () ↔ Clears fails fs path) := by
  obtain ⟨hmakes, hok⟩ := createDirAll_spec fails (hwith.root hroot) path.reverse
  rw [List.reverse_reverse] at hmakes hok
  refine ⟨(hwith.trans hmakes).congr fun dir ↦ ?_, hok.trans (hwith.clears_iff hclear path)⟩
  rw [hwith.makes_iff hclear]
  by_cases hmade : made dir
  · simp [hmade]
  · simp [hmade]

theorem createDirs_spec (display : List κ → String) (fails : List κ → Bool) (config : OverlayConfig κ)
    (hroot : fs.lookup [] = some .directory) :
    WithDirs fs (createDirs display fails config fs).1 (Made fails fs config) ∧
      (createDirs display fails config fs).2 = firstFailure display fails fs config := by
  obtain ⟨hmakes₁, hok₁⟩ := createDirAll_spec fails hroot config.upperdir.reverse
  rw [List.reverse_reverse] at hmakes₁ hok₁
  rw [createDirs]
  generalize createDirAll fails fs config.upperdir.reverse = result₁ at hmakes₁ hok₁ ⊢
  obtain ⟨fs₁, r₁⟩ := result₁
  cases r₁ with
  | error e =>
    have hclears₁ : ¬ Clears fails fs config.upperdir := fun h ↦ by simpa using hok₁.mpr h
    exact ⟨hmakes₁.congr fun dir ↦ by simp [Made, hclears₁], by simp [firstFailure, hclears₁]⟩
  | ok _ =>
    have hclears₁ : Clears fails fs config.upperdir := hok₁.mp rfl
    obtain ⟨hmakes₂, hok₂⟩ := createDirAll_after hroot hmakes₁ (fun _ ↦ Makes.clear) config.workdir
    dsimp only at hmakes₂ hok₂ ⊢
    generalize createDirAll fails fs₁ config.workdir.reverse = result₂ at hmakes₂ hok₂ ⊢
    obtain ⟨fs₂, r₂⟩ := result₂
    cases r₂ with
    | error e =>
      have hclears₂ : ¬ Clears fails fs config.workdir := fun h ↦ by simpa using hok₂.mpr h
      exact ⟨hmakes₂.congr fun dir ↦ by simp [Made, hclears₁, hclears₂],
        by simp [firstFailure, hclears₁, hclears₂]⟩
    | ok _ =>
      have hclears₂ : Clears fails fs config.workdir := hok₂.mp rfl
      obtain ⟨hmakes₃, hok₃⟩ := createDirAll_after hroot hmakes₂
        (fun _ hmade ↦ hmade.elim Makes.clear Makes.clear) config.mergeddir
      dsimp only at hmakes₃ hok₃ ⊢
      generalize createDirAll fails fs₂ config.mergeddir.reverse = result₃ at hmakes₃ hok₃ ⊢
      obtain ⟨fs₃, r₃⟩ := result₃
      have hmakes : WithDirs fs fs₃ (Made fails fs config) := hmakes₃.congr fun dir ↦ by
        simp [Made, hclears₁, hclears₂, or_assoc]
      cases r₃ with
      | error e =>
        have hclears₃ : ¬ Clears fails fs config.mergeddir := fun h ↦ by simpa using hok₃.mpr h
        exact ⟨hmakes, by simp [firstFailure, hclears₁, hclears₂, hclears₃]⟩
      | ok _ => exact ⟨hmakes, (firstFailure_eq_ok_iff.mpr ⟨hclears₁, hclears₂, hok₃.mp rfl⟩).symm⟩

/-- What is left of some new directories after a `remove_dir`. -/
def Without (fails : List κ → Bool) (made : List κ → Prop) (path dir : List κ) : Prop :=
  made dir ∧ ¬ (dir = path ∧ fails path = false ∧ ∀ name, ¬ made (path ++ [name]))

omit [DecidableEq κ] in
theorem without_of_not {made : List κ → Prop} {path : List κ}
    (h : made path → fails path = true ∨ ∃ name, made (path ++ [name])) (dir : List κ) :
    Without fails made path dir ↔ made dir := by
  refine and_iff_left_of_imp ?_
  rintro hmade ⟨rfl, hfails, hempty⟩
  rcases h hmade with hfails' | ⟨name, hname⟩
  · simp [hfails] at hfails'
  · exact hempty name hname

/-- A `remove_dir` of what was not there before. -/
theorem removeDir_spec {made : List κ → Prop} {path : List κ} (hwith : WithDirs fs fs₁ made)
    (hnone : fs.lookup path = none) :
    WithDirs fs (removeDir fails fs₁ path) (Without fails made path) := by
  have hbelow : ∀ name, fs.lookup (path ++ [name]) = none :=
    fun name ↦ lookup_append_eq_none [name] hnone
  rw [removeDir]
  by_cases hmade : made path
  · have hdir : isDir fs₁ path = true := isDir_iff.mpr (hwith.directory path hmade)
    cases hfails : fails path with
    | true =>
      rw [if_neg (by simp)]
      exact hwith.congr (without_of_not fun _ ↦ .inl hfails)
    | false =>
      rw [if_pos ⟨hdir, rfl⟩]
      by_cases hchild : ∃ name, made (path ++ [name])
      · obtain ⟨name, hname⟩ := hchild
        have hsome : fs₁.lookup (path ++ [name]) ≠ none := by simp [hwith.directory _ hname]
        rw [remove_eq_none hsome]
        exact hwith.congr (without_of_not fun _ ↦ .inr ⟨name, hname⟩)
      · rw [not_exists] at hchild
        obtain ⟨fs₂, hremove⟩ := @exists_remove κ _ fs₁ path
          (by simp [hwith.directory path hmade])
          fun name ↦ (hwith.same _ (hchild name)).trans (hbelow name)
        have hlookup := lookup_of_remove hremove
        rw [hremove]
        refine ⟨fun dir h ↦ hwith.missing dir h.1, ?_, ?_⟩
        · rintro dir ⟨hdir, hother⟩
          rw [Option.getD_some, hlookup, if_neg fun heq ↦ hother ⟨heq, hfails, hchild⟩]
          exact hwith.directory dir hdir
        · intro other hother
          rw [Option.getD_some, hlookup]
          split
          · rename_i heq
            rw [heq, hnone]
          · rename_i heq
            exact hwith.same other fun h ↦ hother ⟨h, fun hboth ↦ heq hboth.1⟩
  · have hdir : isDir fs₁ path = false := by
      rw [Bool.eq_false_iff, Ne, isDir_iff, hwith.same path hmade, hnone]
      simp
    rw [if_neg (by simp [hdir])]
    exact hwith.congr (without_of_not fun h ↦ absurd h hmade)

/-- What is left of some new directories after the cleanup. -/
def Left (fails : List κ → Bool) (config : OverlayConfig κ) (made : List κ → Prop) : List κ → Prop :=
  Without fails (Without fails (Without fails made config.mergeddir) config.workdir) config.upperdir

/-- A step of the cleanup: what was there before is not touched. -/
theorem removeDir_if_spec {made : List κ → Prop} (path : List κ) (hwith : WithDirs fs fs₁ made) :
    WithDirs fs (if fs.lookup path = none then removeDir fails fs₁ path else fs₁)
      (Without fails made path) := by
  split
  · rename_i hnone
    exact removeDir_spec hwith hnone
  · rename_i hsome
    exact hwith.congr (without_of_not fun hmade ↦ absurd (hwith.missing path hmade) hsome)

theorem cleanupCreated_spec {made : List κ → Prop} (hwith : WithDirs fs fs₁ made) :
    WithDirs fs (cleanupCreated fails config fs fs₁) (Left fails config made) :=
  removeDir_if_spec config.upperdir (removeDir_if_spec config.workdir
    (removeDir_if_spec config.mergeddir hwith))

theorem WithDirs.eq_iff {made : List κ → Prop} (h : WithDirs fs fs₁ made) :
    fs₁ = fs ↔ ∀ dir, ¬ made dir := by
  constructor
  · rintro rfl dir hmade
    simpa [h.missing dir hmade] using h.directory dir hmade
  · exact fun hmade ↦ ext_lookup fun path ↦ h.same path (hmade path)

/-- What the cleanup takes back: the three directories, and each of them only if what was made in it
is taken back before. -/
structure TakesBack (fails : List κ → Bool) (config : OverlayConfig κ) (made : List κ → Prop) :
    Prop where
  removes : ∀ dir, made dir → fails dir = false
  own : ∀ dir, made dir → dir = config.mergeddir ∨ dir = config.workdir ∨ dir = config.upperdir
  order : ∀ dir name, made dir → made (dir ++ [name]) →
    dir ++ [name] = config.mergeddir ∧ (dir = config.workdir ∨ dir = config.upperdir) ∨
      dir ++ [name] = config.workdir ∧ dir = config.upperdir

omit [DecidableEq κ] in
theorem exists_of_without {made : List κ → Prop} {path : List κ} (h : Without fails made path path)
    (hfails : fails path = false) : ∃ name, made (path ++ [name]) := by
  by_contra hempty
  exact h.2 ⟨rfl, hfails, not_exists.mp hempty⟩

omit [DecidableEq κ] in
theorem removed_of_not_without {made : List κ → Prop} {path dir : List κ} (hmade : made dir)
    (h : ¬ Without fails made path dir) :
    dir = path ∧ fails dir = false ∧ ∀ name, ¬ made (dir ++ [name]) := by
  obtain ⟨rfl, hfails, hempty⟩ := not_not.mp fun hnot ↦ h ⟨hmade, hnot⟩
  exact ⟨rfl, hfails, hempty⟩

omit [DecidableEq κ] in
/-- Nothing is left: each directory goes at one of the three steps. -/
theorem takesBack_of_not_left {made : List κ → Prop} (hleft : ∀ dir, ¬ Left fails config made dir) :
    TakesBack fails config made := by
  have hgone : ∀ dir, made dir → fails dir = false ∧
      ((dir = config.mergeddir ∧ ∀ name, ¬ made (dir ++ [name])) ∨
        (dir = config.workdir ∧ ∀ name, ¬ Without fails made config.mergeddir (dir ++ [name])) ∨
        (dir = config.upperdir ∧ ∀ name, ¬ Without fails (Without fails made config.mergeddir)
          config.workdir (dir ++ [name]))) := by
    intro dir hmade
    by_cases hmerged : Without fails made config.mergeddir dir
    · by_cases hwork : Without fails (Without fails made config.mergeddir) config.workdir dir
      · obtain ⟨hdir, hfails, hempty⟩ := removed_of_not_without hwork (hleft dir)
        exact ⟨hfails, .inr (.inr ⟨hdir, hempty⟩)⟩
      · obtain ⟨hdir, hfails, hempty⟩ := removed_of_not_without hmerged hwork
        exact ⟨hfails, .inr (.inl ⟨hdir, hempty⟩)⟩
    · obtain ⟨hdir, hfails, hempty⟩ := removed_of_not_without hmade hmerged
      exact ⟨hfails, .inl ⟨hdir, hempty⟩⟩
  refine ⟨fun dir hmade ↦ (hgone dir hmade).1, fun dir hmade ↦ ?_, fun dir name hmade hname ↦ ?_⟩
  · exact (hgone dir hmade).2.imp And.left (Or.imp And.left And.left)
  · rcases (hgone dir hmade).2 with ⟨-, hempty⟩ | ⟨hdir, hempty⟩ | ⟨hdir, hempty⟩
    · exact absurd hname (hempty name)
    · exact .inl ⟨(removed_of_not_without hname (hempty name)).1, .inl hdir⟩
    · by_cases hmerged : Without fails made config.mergeddir (dir ++ [name])
      · exact .inr ⟨(removed_of_not_without hmerged (hempty name)).1, hdir⟩
      · exact .inl ⟨(removed_of_not_without hname hmerged).1, .inr hdir⟩

omit [DecidableEq κ] in
theorem TakesBack.not_left {made : List κ → Prop} (h : TakesBack fails config made) (dir : List κ) :
    ¬ Left fails config made dir := by
  -- the merged directory stays at its turn only if the work directory is made in it
  have hmerged : Without fails made config.mergeddir config.mergeddir →
      config.mergeddir = config.upperdir ∧ ∃ name, config.mergeddir ++ [name] = config.workdir := by
    intro hstays
    obtain ⟨name, hname⟩ := exists_of_without hstays (h.removes _ hstays.1)
    rcases h.order _ name hstays.1 hname with ⟨heq, -⟩ | ⟨heq, hupper⟩
    · simp at heq
    · exact ⟨hupper, name, heq⟩
  have hwork : ¬ Without fails (Without fails made config.mergeddir) config.workdir config.workdir := by
    intro hstays
    obtain ⟨name, hname⟩ := exists_of_without hstays (h.removes _ hstays.1.1)
    rcases h.order _ name hstays.1.1 hname.1 with ⟨heq, -⟩ | ⟨heq, -⟩
    · rw [heq] at hname
      obtain ⟨-, name', hname'⟩ := hmerged hname
      rw [← heq, List.append_assoc] at hname'
      simp at hname'
    · simp at heq
  have hupper : ¬ Left fails config made config.upperdir := by
    intro hstays
    obtain ⟨name, hname⟩ := exists_of_without hstays (h.removes _ hstays.1.1.1)
    rcases h.order _ name hstays.1.1.1 hname.1.1 with ⟨heq, -⟩ | ⟨heq, -⟩
    · rw [heq] at hname
      simp [(hmerged hname.1).1] at heq
    · rw [heq] at hname
      exact hwork hname
  intro hleft
  rcases h.own dir hleft.1.1.1 with rfl | rfl | rfl
  · rw [(hmerged hleft.1.1).1] at hleft
    exact hupper hleft
  · exact hwork hleft.1
  · exact hupper hleft

/-! ## The setup -/

/-- The cleanup takes away nothing but directories that were not there before. -/
def Thins (fs fs₁ fs₂ : FileSystem κ) : Prop :=
  ∀ path, fs₂.lookup path = fs₁.lookup path ∨
    fs.lookup path = none ∧ fs₁.lookup path = some .directory ∧ fs₂.lookup path = none

theorem Thins.refl (fs₁ : FileSystem κ) : Thins fs fs₁ fs₁ := fun _ ↦ .inl rfl

theorem Thins.trans {fs₂ fs₃ : FileSystem κ} (h : Thins fs fs₁ fs₂) (h' : Thins fs fs₂ fs₃) :
    Thins fs fs₁ fs₃ := by
  intro path
  rcases h' path with hsame | ⟨hnone, hdir, hgone⟩
  · rw [hsame]
    exact h path
  · rcases h path with hsame | ⟨-, -, hgone'⟩
    · exact .inr ⟨hnone, hsame.symm.trans hdir, hgone⟩
    · simp [hgone'] at hdir

theorem thins_removeDir_if (path : List κ) :
    Thins fs fs₁ (if fs.lookup path = none then removeDir fails fs₁ path else fs₁) := by
  split
  · rename_i hnone
    rw [removeDir]
    split
    · rename_i hdir
      cases hremove : fs₁.remove path with
      | none => exact Thins.refl fs₁
      | some fs₂ =>
        intro other
        rw [Option.getD_some, lookup_of_remove hremove]
        split
        · rename_i heq
          exact .inr ⟨heq ▸ hnone, heq ▸ isDir_iff.mp hdir.1, rfl⟩
        · exact .inl rfl
    · exact Thins.refl fs₁
  · exact Thins.refl fs₁

theorem thins_cleanupCreated : Thins fs fs₁ (cleanupCreated fails config fs fs₁) :=
  ((thins_removeDir_if config.mergeddir).trans (thins_removeDir_if config.workdir)).trans
    (thins_removeDir_if config.upperdir)

/-- What the cleanup restores is the tree before with some directories more. -/
theorem exists_withDirs_of_thins {fs₂ : FileSystem κ} (h : Thins fs fs₁ fs₂) (heq : fs₂ = fs) :
    ∃ made, WithDirs fs fs₁ made := by
  subst heq
  refine ⟨fun path ↦ fs₂.lookup path = none ∧ fs₁.lookup path = some .directory, fun _ ↦ And.left,
    fun _ ↦ And.right, fun path hnot ↦ ?_⟩
  rcases h path with hsame | ⟨hnone, hdir, -⟩
  · exact hsame.symm
  · exact absurd ⟨hnone, hdir⟩ hnot

/-- A cleanup restores the tree exactly if what is more than before is some directories, and all of
them are taken back. -/
theorem cleanupCreated_eq_iff :
    cleanupCreated fails config fs fs₁ = fs ↔
      ∃ made, WithDirs fs fs₁ made ∧ TakesBack fails config made := by
  constructor
  · intro heq
    obtain ⟨made, hwith⟩ := exists_withDirs_of_thins thins_cleanupCreated heq
    exact ⟨made, hwith, takesBack_of_not_left ((cleanupCreated_spec hwith).eq_iff.mp heq)⟩
  · rintro ⟨made, hwith, htakes⟩
    exact (cleanupCreated_spec hwith).eq_iff.mpr htakes.not_left

variable {display : List κ → String} {faults : TreeFaults κ} {fs' : FileSystem κ}

/-- What the setup looks at before it makes anything. -/
def Begins (fs : FileSystem κ) (config : OverlayConfig κ) : Prop :=
  pathExists fs config.lowerdir = true ∧ fs.lookup config.mergeddir = none

/-- What a setup needs that has begun. -/
def Completes (display : List κ → String) (faults : TreeFaults κ) (config : OverlayConfig κ)
    (fs : FileSystem κ) : Prop :=
  AllClear faults.mkdir fs config ∧ faults.mount config.mergeddir (mountData display config) = none

/-- What a cleanup finds: what was made, or what a mount that fails has made of that. -/
def Found (display : List κ → String) (faults : TreeFaults κ) (config : OverlayConfig κ)
    (fs found : FileSystem κ) : Prop :=
  ∃ fs₁, WithDirs fs fs₁ (Made faults.mkdir fs config) ∧
    (¬ AllClear faults.mkdir fs config ∧ found = fs₁ ∨
      AllClear faults.mkdir fs config ∧
        ∃ leave, faults.mount config.mergeddir (mountData display config) = some leave ∧
          found = leave fs₁)

theorem WithDirs.unique {made : List κ → Prop} {fs₂ : FileSystem κ} (h : WithDirs fs fs₁ made)
    (h' : WithDirs fs fs₂ made) : fs₁ = fs₂ := by
  refine ext_lookup fun path ↦ ?_
  by_cases hmade : made path
  · rw [h.directory path hmade, h'.directory path hmade]
  · rw [h.same path hmade, h'.same path hmade]

/-- There is one such tree at most. -/
theorem Found.unique {found found' : FileSystem κ} (h : Found display faults config fs found)
    (h' : Found display faults config fs found') : found = found' := by
  obtain ⟨fs₁, hwith, hcase⟩ := h
  obtain ⟨fs₂, hwith', hcase'⟩ := h'
  obtain rfl := hwith.unique hwith'
  rcases hcase with ⟨hstuck, rfl⟩ | ⟨hclear, leave, hleave, rfl⟩
  · rcases hcase' with ⟨-, rfl⟩ | ⟨hclear, -⟩
    · rfl
    · exact absurd hclear hstuck
  · rcases hcase' with ⟨hstuck, -⟩ | ⟨-, leave', hleave', rfl⟩
    · exact absurd hclear hstuck
    · rw [Option.some.inj (hleave.symm.trans hleave')]

theorem setupOverlayRootfs_of_not_begins (display : List κ → String) (faults : TreeFaults κ)
    (hbegins : ¬ Begins fs config) :
    ∃ e, setupOverlayRootfs display faults config fs = (fs, .error e) := by
  rw [setupOverlayRootfs]
  split
  · exact ⟨_, rfl⟩
  · rename_i hlower
    rw [if_pos fun hmerged ↦ hbegins ⟨by simpa using hlower, hmerged⟩]
    exact ⟨_, rfl⟩

/-- A setup that has begun makes the directories, or cleans up what it finds. -/
theorem setupOverlayRootfs_of_begins (display : List κ → String) (faults : TreeFaults κ)
    (hroot : fs.lookup [] = some .directory) (hbegins : Begins fs config) :
    (∃ fs', setupOverlayRootfs display faults config fs = (fs', .ok config.mergeddir) ∧
        Completes display faults config fs ∧ WithDirs fs fs' (Made faults.mkdir fs config)) ∨
      ∃ found e, setupOverlayRootfs display faults config fs =
          (cleanupCreated faults.rmdir config fs found, .error e) ∧
        ¬ Completes display faults config fs ∧ Found display faults config fs found := by
  obtain ⟨hmakes, hresult⟩ := createDirs_spec display faults.mkdir config hroot
  have hok := (congrArg (· = .ok ()) hresult).to_iff.trans firstFailure_eq_ok_iff
  rw [setupOverlayRootfs, if_neg (by simp [hbegins.1]), if_neg (by simp [hbegins.2])]
  generalize createDirs display faults.mkdir config fs = result at hmakes hok ⊢
  clear hresult
  obtain ⟨fs₁, r⟩ := result
  cases r with
  | error e =>
    have hstuck : ¬ AllClear faults.mkdir fs config := fun h ↦ by simpa using hok.mpr h
    exact .inr ⟨fs₁, e, rfl, fun h ↦ hstuck h.1, fs₁, hmakes, .inl ⟨hstuck, rfl⟩⟩
  | ok _ =>
    have hclear : AllClear faults.mkdir fs config := hok.mp rfl
    dsimp only
    split
    · rename_i leave hmount
      exact .inr ⟨leave fs₁, _, rfl, fun h ↦ by simp [h.2] at hmount, fs₁, hmakes,
        .inr ⟨hclear, leave, hmount, rfl⟩⟩
    · rename_i hmount
      exact .inl ⟨_, rfl, ⟨hclear, hmount⟩, hmakes⟩

/-- Nothing that is there is lost or changed, whether the setup succeeds or not, but for what a mount
that fails changes. -/
theorem setupOverlayRootfs_keeps {r : Except FilesystemError (List κ)}
    (hroot : fs.lookup [] = some .directory)
    (h : setupOverlayRootfs display faults config fs = (fs', r)) {path : List κ}
    (hpath : fs.lookup path ≠ none)
    (hmount : ∀ leave, faults.mount config.mergeddir (mountData display config) = some leave →
      ∀ fs₁, (leave fs₁).lookup path = fs₁.lookup path) : fs'.lookup path = fs.lookup path := by
  by_cases hbegins : Begins fs config
  · rcases setupOverlayRootfs_of_begins display faults hroot hbegins with
      ⟨_, heq, -, hwith⟩ | ⟨found, _, heq, -, fs₁, hwith, hfound⟩
    · rw [h] at heq
      rw [(Prod.mk.inj heq).1, hwith.lookup_of_some hpath]
    · have hsame : found.lookup path = fs.lookup path := by
        rcases hfound with ⟨-, rfl⟩ | ⟨-, leave, hleave, rfl⟩
        · exact hwith.lookup_of_some hpath
        · rw [hmount leave hleave, hwith.lookup_of_some hpath]
      rw [h] at heq
      rw [(Prod.mk.inj heq).1]
      rcases thins_cleanupCreated path with hkeep | ⟨hnone, -⟩
      · exact hkeep.trans hsame
      · exact absurd hnone hpath
  · obtain ⟨e, heq⟩ := setupOverlayRootfs_of_not_begins display faults hbegins
    rw [h] at heq
    rw [(Prod.mk.inj heq).1]

/-- The setup succeeds exactly if everything it needs is there. -/
theorem setupOverlayRootfs_ok_iff (hroot : fs.lookup [] = some .directory) :
    (∃ fs', setupOverlayRootfs display faults config fs = (fs', .ok config.mergeddir)) ↔
      Begins fs config ∧ Completes display faults config fs := by
  by_cases hbegins : Begins fs config
  · rw [and_iff_right hbegins]
    rcases setupOverlayRootfs_of_begins display faults hroot hbegins with
      ⟨_, heq, hcompletes, -⟩ | ⟨_, _, heq, hcompletes, -⟩
    · exact iff_of_true ⟨_, heq⟩ hcompletes
    · exact iff_of_false (by simp [heq]) hcompletes
  · obtain ⟨e, heq⟩ := setupOverlayRootfs_of_not_begins display faults hbegins
    exact iff_of_false (by simp [heq]) fun h ↦ hbegins h.1

/-- A setup that fails leaves the tree as it was if it has not begun, or if the cleanup takes back all
that it finds. -/
theorem eq_iff_of_setupOverlayRootfs_error {e : FilesystemError}
    (hroot : fs.lookup [] = some .directory)
    (h : setupOverlayRootfs display faults config fs = (fs', .error e)) :
    fs' = fs ↔ ¬ Begins fs config ∨ ∃ found made, Found display faults config fs found ∧
      WithDirs fs found made ∧ TakesBack faults.rmdir config made := by
  by_cases hbegins : Begins fs config
  · rcases setupOverlayRootfs_of_begins display faults hroot hbegins with
      ⟨_, heq, -, -⟩ | ⟨found, _, heq, -, hfound⟩
    · simp [h] at heq
    · rw [h] at heq
      rw [(Prod.mk.inj heq).1, cleanupCreated_eq_iff, or_iff_right (not_not.mpr hbegins)]
      constructor
      · rintro ⟨made, hwith, htakes⟩
        exact ⟨found, made, hfound, hwith, htakes⟩
      · rintro ⟨found', made, hfound', hwith, htakes⟩
        obtain rfl := hfound.unique hfound'
        exact ⟨made, hwith, htakes⟩
  · obtain ⟨e', heq⟩ := setupOverlayRootfs_of_not_begins display faults hbegins
    rw [h] at heq
    exact iff_of_true (Prod.mk.inj heq).1 (.inl hbegins)

/-- If a mount that fails changes nothing, it is what was made that has to be taken back. -/
theorem eq_of_takesBack {e : FilesystemError} (hroot : fs.lookup [] = some .directory)
    (h : setupOverlayRootfs display faults config fs = (fs', .error e))
    (hmount : ∀ leave, faults.mount config.mergeddir (mountData display config) = some leave →
      ∀ fs₁, leave fs₁ = fs₁)
    (htakes : TakesBack faults.rmdir config (Made faults.mkdir fs config)) : fs' = fs := by
  by_cases hbegins : Begins fs config
  · rcases setupOverlayRootfs_of_begins display faults hroot hbegins with
      ⟨_, heq, -, -⟩ | ⟨found, _, heq, -, fs₁, hwith, hfound⟩
    · simp [h] at heq
    · obtain rfl : found = fs₁ := by
        rcases hfound with ⟨-, rfl⟩ | ⟨-, leave, hleave, rfl⟩
        · rfl
        · exact hmount leave hleave fs₁
      rw [h] at heq
      rw [(Prod.mk.inj heq).1]
      exact cleanupCreated_eq_iff.mpr ⟨_, hwith, htakes⟩
  · exact (eq_iff_of_setupOverlayRootfs_error hroot h).mpr (.inl hbegins)

/-- A mount that fails and leaves something new in the work directory leaves it for good, unless that
is the merged or the upper directory. -/
theorem ne_of_mount_leaves {e : FilesystemError} {leave : FileSystem κ → FileSystem κ} {name : κ}
    (hroot : fs.lookup [] = some .directory)
    (h : setupOverlayRootfs display faults config fs = (fs', .error e)) (hbegins : Begins fs config)
    (hclear : AllClear faults.mkdir fs config)
    (hmount : faults.mount config.mergeddir (mountData display config) = some leave)
    (hleft : ∀ fs₁, (leave fs₁).lookup (config.workdir ++ [name]) ≠ none)
    (hnew : fs.lookup (config.workdir ++ [name]) = none)
    (hother : config.workdir ++ [name] ≠ config.mergeddir ∧
      config.workdir ++ [name] ≠ config.upperdir) : fs' ≠ fs := by
  rw [Ne, eq_iff_of_setupOverlayRootfs_error hroot h, or_iff_right (not_not.mpr hbegins)]
  rintro ⟨found, made, ⟨fs₁, -, ⟨hstuck, -⟩ | ⟨-, leave', hleave', rfl⟩⟩, hwith, htakes⟩
  · exact hstuck hclear
  · obtain rfl := Option.some.inj (hmount.symm.trans hleave')
    have hmade : made (config.workdir ++ [name]) := by
      by_contra hnot
      exact hleft fs₁ ((hwith.same _ hnot).trans hnew)
    rcases htakes.own _ hmade with heq | heq | heq
    · exact hother.1 heq
    · simp at heq
    · exact hother.2 heq

/-! ## If only the three directories are missing -/

/-- Each of the three is in a directory that is there. -/
def ParentsExist (fs : FileSystem κ) (config : OverlayConfig κ) : Prop :=
  ∀ path ∈ [config.upperdir, config.workdir, config.mergeddir],
    fs.lookup path.dropLast = some .directory

instance : Decidable (ParentsExist fs config) :=
  inferInstanceAs (Decidable (∀ path ∈ [_, _, _], _))

theorem eq_of_makes {path dir : List κ} (hparent : fs.lookup path.dropLast = some .directory)
    (h : Makes fails fs path dir) : dir = path := by
  rcases List.eq_nil_or_concat' path with rfl | ⟨above, name, rfl⟩
  · exact List.prefix_nil.mp h.1
  · rw [List.dropLast_concat] at hparent
    rcases List.prefix_concat_iff.mp h.1 with hdir | hdir
    · exact hdir
    · have hnone := h.2.1
      rw [lookup_above hparent hdir] at hnone
      simp at hnone

theorem mem_of_made {dir : List κ} (hparents : ParentsExist fs config)
    (h : Made fails fs config dir) :
    dir ∈ [config.upperdir, config.workdir, config.mergeddir] := by
  simp only [ParentsExist, List.forall_mem_cons] at hparents
  obtain ⟨hupper, hwork, hmerged, -⟩ := hparents
  rcases h with h | ⟨-, h | ⟨-, h⟩⟩
  · simp [eq_of_makes hupper h]
  · simp [eq_of_makes hwork h]
  · simp [eq_of_makes hmerged h]

theorem lookup_of_made {dir : List κ} (h : Made fails fs config dir) : fs.lookup dir = none := by
  rcases h with h | ⟨-, h | ⟨-, h⟩⟩
  all_goals exact h.2.1

/-- Then the cleanup takes back all that was made. -/
theorem takesBack_of_parentsExist {rmdir : List κ → Bool} (hparents : ParentsExist fs config)
    (hrmdir : ∀ path, rmdir path = false) : TakesBack rmdir config (Made fails fs config) where
  removes dir _ := hrmdir dir
  own dir hmade := by
    have hmem := mem_of_made hparents hmade
    simp only [List.mem_cons, List.not_mem_nil, or_false] at hmem
    tauto
  order dir name hmade hname := by
    have hparent := hparents _ (mem_of_made hparents hname)
    rw [List.dropLast_concat, lookup_of_made hmade] at hparent
    simp at hparent

/-! ## The four directories by themselves

If the three are in directories that are there then what the setup does can be said without the tree,
as in `Filesystem.setupOverlayRootfs`. -/

/-- Which of the directories there are. -/
def overlayDirs (config : OverlayConfig κ) (fs : FileSystem κ) : OverlayDirs where
  lower := pathExists fs config.lowerdir
  upper := (fs.lookup config.upperdir).isSome
  work := (fs.lookup config.workdir).isSome
  merged := (fs.lookup config.mergeddir).isSome

def overlayPaths (display : List κ → String) (config : OverlayConfig κ) : OverlayPaths where
  lowerdir := display config.lowerdir
  upperdir := display config.upperdir
  workdir := display config.workdir
  mergeddir := display config.mergeddir

/-- Which of the calls fail. -/
def overlayFaults (display : List κ → String) (faults : TreeFaults κ) (config : OverlayConfig κ)
    (fs : FileSystem κ) : OverlayFaults where
  createUpper := !decide (Clears faults.mkdir fs config.upperdir)
  createWork := !decide (Clears faults.mkdir fs config.workdir)
  createMerged := !decide (Clears faults.mkdir fs config.mergeddir)
  mount := (faults.mount config.mergeddir (mountData display config)).isSome

theorem setupOverlayRootfs_result (display : List κ → String) (faults : TreeFaults κ)
    (config : OverlayConfig κ) (hroot : fs.lookup [] = some .directory) :
    (setupOverlayRootfs display faults config fs).2.map display =
      (Filesystem.setupOverlayRootfs (overlayPaths display config)
        (overlayFaults display faults config fs) (overlayDirs config fs)).2 := by
  obtain ⟨-, hresult⟩ := createDirs_spec display faults.mkdir config hroot
  rw [setupOverlayRootfs, Filesystem.setupOverlayRootfs]
  generalize createDirs display faults.mkdir config fs = result at hresult ⊢
  obtain ⟨fs₁, r⟩ := result
  dsimp only at hresult
  rw [hresult, firstFailure]
  simp only [overlayPaths, overlayFaults, overlayDirs]
  by_cases hlower : pathExists fs config.lowerdir = true
  · by_cases hmerged : fs.lookup config.mergeddir = none
    · by_cases hupper : Clears faults.mkdir fs config.upperdir
      · by_cases hwork : Clears faults.mkdir fs config.workdir
        · by_cases hclears : Clears faults.mkdir fs config.mergeddir
          · rcases Option.eq_none_or_eq_some
              (faults.mount config.mergeddir (mountData display config)) with hmount | ⟨leave, hmount⟩
            · simp [hlower, hmerged, hupper, hwork, hclears, hmount, Except.map]
            · simp [hlower, hmerged, hupper, hwork, hclears, hmount, Except.map]
          · simp [hlower, hmerged, hupper, hwork, hclears, Except.map]
        · simp [hlower, hmerged, hupper, hwork, Except.map]
      · simp [hlower, hmerged, hupper, Except.map]
    · simp [hlower, hmerged, Option.isSome_iff_ne_none, Except.map]
  · simp [hlower, Except.map]

theorem dirs_of_ok {paths : OverlayPaths} {faults : OverlayFaults} {before after : OverlayDirs}
    {root : String} (h : Filesystem.setupOverlayRootfs paths faults before = (after, .ok root)) :
    after = { before with upper := true, work := true, merged := true } := by
  unfold Filesystem.setupOverlayRootfs at h
  split at h
  · simp at h
  · split at h
    · simp at h
    · split at h
      · simp at h
      · dsimp only at h
        split at h
        · simp at h
        · split at h
          · simp at h
          · split at h
            · simp at h
            · exact (Prod.mk.inj h).1.symm

/-- What is clear is there once all is made. -/
theorem WithDirs.lookup_of_allClear {path : List κ}
    (hwith : WithDirs fs fs₁ (Made fails fs config)) (hclear : AllClear fails fs config)
    (hpath : path ∈ [config.upperdir, config.workdir, config.mergeddir]) :
    fs₁.lookup path = some .directory := by
  have hclears : Clears fails fs path ∧ ∀ dir, Makes fails fs path dir → Made fails fs config dir := by
    obtain ⟨hupper, hwork, hmerged⟩ := hclear
    simp only [List.mem_cons, List.not_mem_nil, or_false] at hpath
    rcases hpath with rfl | rfl | rfl
    · exact ⟨hupper, fun _ ↦ .inl⟩
    · exact ⟨hwork, fun _ h ↦ .inr ⟨hupper, .inl h⟩⟩
    · exact ⟨hmerged, fun _ h ↦ .inr ⟨hupper, .inr ⟨hwork, h⟩⟩⟩
  rcases hclears.1 path List.prefix_rfl with hdir | ⟨hnone, -⟩
  · rw [hwith.lookup_of_some (by simp [hdir]), hdir]
  · exact hwith.directory path (hclears.2 path ⟨List.prefix_rfl, hnone, hclears.1⟩)

theorem setupOverlayRootfs_simulates (display : List κ → String) (faults : TreeFaults κ)
    (config : OverlayConfig κ) (hroot : fs.lookup [] = some .directory)
    (hparents : ParentsExist fs config) (hrmdir : ∀ path, faults.rmdir path = false)
    (hmount : ∀ leave, faults.mount config.mergeddir (mountData display config) = some leave →
      ∀ fs₁, leave fs₁ = fs₁) :
    Filesystem.setupOverlayRootfs (overlayPaths display config)
        (overlayFaults display faults config fs) (overlayDirs config fs) =
      (overlayDirs config (setupOverlayRootfs display faults config fs).1,
        (setupOverlayRootfs display faults config fs).2.map display) := by
  have hresult := setupOverlayRootfs_result display faults config hroot
  rcases hdirs : Filesystem.setupOverlayRootfs (overlayPaths display config)
    (overlayFaults display faults config fs) (overlayDirs config fs) with ⟨after, r'⟩
  rcases htree : setupOverlayRootfs display faults config fs with ⟨fs', r⟩
  rw [hdirs, htree] at hresult
  dsimp only at hresult ⊢
  subst hresult
  cases r with
  | error e =>
    rw [setupOverlayRootfs_error hdirs, eq_of_takesBack hroot htree hmount
      (takesBack_of_parentsExist hparents hrmdir)]
  | ok root =>
    rw [dirs_of_ok hdirs]
    by_cases hbegins : Begins fs config
    · rcases setupOverlayRootfs_of_begins display faults hroot hbegins with
        ⟨_, heq, hcompletes, hwith⟩ | ⟨_, _, heq, -, -⟩
      · rw [htree] at heq
        obtain rfl := (Prod.mk.inj heq).1
        have hlower : fs.lookup config.lowerdir ≠ none := fun hnone ↦ by
          simp [Begins, pathExists, hnone] at hbegins
        have hthree : ∀ path ∈ [config.upperdir, config.workdir, config.mergeddir],
            fs'.lookup path = some .directory := fun _ ↦ hwith.lookup_of_allClear hcompletes.1
        simp only [List.forall_mem_cons] at hthree
        simp [overlayDirs, pathExists, hwith.lookup_of_some hlower, hthree]
      · simp [htree] at heq
    · obtain ⟨e, heq⟩ := setupOverlayRootfs_of_not_begins display faults hbegins
      simp [htree] at heq

end Setup

/-! ## Two setups that fail -/

/-- Only the mount fails, and changes nothing. -/
def mountFails : TreeFaults String where
  mkdir _ := false
  rmdir _ := false
  mount _ _ := some id

end CrunRs.Filesystem.OverlayTree
