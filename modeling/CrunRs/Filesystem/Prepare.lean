import CrunRs.Filesystem.Destination

/-!
# What preparing a destination does to the rootfs

On the way down from the rootfs each directory is there, or it is made (`Passes`).  What one step does
is said in `openOrCreateDirectoryAt_spec`, and what the walk does in `openOrCreateDirectories_spec`:
nothing is changed but that directories are added along the way, and they are added also if the walk
fails later.

If the code succeeds then what it made is taken back by `rollback`, as far as its calls succeed.  If it
fails nobody takes anything back, so the rootfs is as it was exactly if no directory was made before the
failure (`prepareMountDestination_restores_iff`).  And if no call fails by itself or for the length of a
name or a path, then the code accepts what it should, except that it takes block devices and sockets for
directories (`preparesExactly_iff`).
-/

set_option autoImplicit false

namespace CrunRs.Filesystem.Destination

open FileSystem OsPath

variable {lossy : ByteArray → String} {faults : DestinationFaults} {fs fs' : Fs}
  {dir root : List Name}

/-! ## One step -/

/-- The call that looks for a name fails, whatever is there. -/
def DestinationFaults.refuses (faults : DestinationFaults) (path : List Name) : Bool :=
  faults.opens path || path.getLast?.any fun name ↦ !nameable name

theorem refuses_concat {path : List Name} {name : Name} :
    faults.refuses (path ++ [name]) = (faults.opens (path ++ [name]) || !nameable name) := by
  rw [DestinationFaults.refuses, List.getLast?_concat, Option.any_some]

/-- A directory is there, or can be made. -/
def Passes (faults : DestinationFaults) (fs : Fs) (path : List Name) : Prop :=
  faults.refuses path = false ∧
    (fs.lookup path = some .directory ∨
      fs.lookup path = none ∧ faults.mkdirs path = false ∧ faults.reopens path = false)

/-- A directory is made, once the walk comes to it. -/
def Makes (faults : DestinationFaults) (fs : Fs) (path : List Name) : Prop :=
  faults.refuses path = false ∧ fs.lookup path = none ∧ faults.mkdirs path = false

instance (path : List Name) : Decidable (Passes faults fs path) :=
  inferInstanceAs (Decidable (_ ∧ (_ ∨ _)))

instance (path : List Name) : Decidable (Makes faults fs path) :=
  inferInstanceAs (Decidable (_ ∧ _))

theorem passes_congr {path : List Name} (h : fs'.lookup path = fs.lookup path) :
    Passes faults fs' path ↔ Passes faults fs path := by
  rw [Passes, Passes, h]

theorem makes_congr {path : List Name} (h : fs'.lookup path = fs.lookup path) :
    Makes faults fs' path ↔ Makes faults fs path := by
  rw [Makes, Makes, h]

/-- Directories are added from one down to another, where there is nothing. -/
def AddsDirectories (fs fs' : Fs) (dir names : List Name) : Prop :=
  ∀ path, fs'.lookup path = (fs.lookup path).or
    (if dir <+: path ∧ path <+: dir ++ names then some .directory else none)

theorem addsDirectories_nil (hdir : fs.lookup dir = some .directory) :
    AddsDirectories fs fs dir [] := by
  intro path
  split
  · rename_i hpath
    rw [List.append_nil] at hpath
    obtain rfl := List.IsPrefix.eq_of_length hpath.1 (le_antisymm hpath.1.length_le hpath.2.length_le)
    rw [hdir]
    rfl
  · rw [Option.or_none]

theorem lookup_eq_ite_of_not_makes {path : List Name} (h : ¬ Makes faults fs path)
    (other : List Name) :
    fs.lookup other = if other = path ∧ Makes faults fs path then some .directory
      else fs.lookup other := by
  rw [if_neg fun hboth ↦ h hboth.2]

/-- A step: what it does to the rootfs, and when it fails. -/
theorem openOrCreateDirectoryAt_spec {name : Name} (hdir : fs.lookup dir = some .directory) :
    ∃ fs' result, openOrCreateDirectoryAt lossy faults fs dir name = (fs', result) ∧
      (∀ path, fs'.lookup path =
        if path = dir ++ [name] ∧ Makes faults fs (dir ++ [name]) then some .directory
        else fs.lookup path) ∧
      (Passes faults fs (dir ++ [name]) → result = .ok (dir ++ [name])) ∧
      (¬ Passes faults fs (dir ++ [name]) → ∃ e, result = .error e) := by
  by_cases hopens : faults.refuses (dir ++ [name]) = true
  · refine ⟨_, _, by rw [openOrCreateDirectoryAt, openat2, ← refuses_concat, if_pos hopens],
      lookup_eq_ite_of_not_makes ?_, ?_, fun _ ↦ ⟨_, rfl⟩⟩
    · simp [Makes, hopens]
    · simp [Passes, hopens]
  have hnameable : nameable name = true := by
    rw [refuses_concat] at hopens
    by_contra hnot
    exact hopens (by simp [hnot])
  rw [openOrCreateDirectoryAt, openat2, ← refuses_concat, if_neg hopens]
  cases hlookup : fs.lookup (dir ++ [name]) with
  | some node =>
    have hmakes : ¬ Makes faults fs (dir ++ [name]) := by simp [Makes, hlookup]
    by_cases hnode : node = .directory
    · rw [hnode] at hlookup
      rw [openAt_of_directory hlookup]
      exact ⟨_, _, rfl, lookup_eq_ite_of_not_makes hmakes, fun _ ↦ rfl,
        fun hfails ↦ absurd ⟨by simpa using hopens, .inl hlookup⟩ hfails⟩
    · obtain ⟨e, hne, hopen⟩ := openAt_of_not_directory hlookup hnode
      have hfails : ¬ Passes faults fs (dir ++ [name]) := by simp [Passes, hlookup, hnode]
      rw [hopen]
      cases e with
      | enoent => exact absurd rfl hne
      | enotdir | eloop | other =>
        exact ⟨fs, _, rfl, lookup_eq_ite_of_not_makes hmakes, fun hpasses ↦ absurd hpasses hfails,
          fun _ ↦ ⟨_, rfl⟩⟩
  | none =>
    rw [openAt_of_none hlookup]
    by_cases hmkdirs : faults.mkdirs (dir ++ [name]) = true
    · rw [if_pos hmkdirs]
      refine ⟨fs, _, rfl, lookup_eq_ite_of_not_makes ?_, ?_, fun _ ↦ ⟨_, rfl⟩⟩
      · simp [Makes, hmkdirs]
      · simp [Passes, hlookup, hmkdirs]
    · obtain ⟨made, hadd⟩ := exists_add .directory hdir hlookup
      have hmakes : Makes faults fs (dir ++ [name]) :=
        ⟨by simpa using hopens, hlookup, by simpa using hmkdirs⟩
      have hmade (path : List Name) : made.lookup path =
          if path = dir ++ [name] ∧ Makes faults fs (dir ++ [name]) then some .directory
          else fs.lookup path := by
        simp only [lookup_of_add hadd, hmakes, and_true]
      have hthere : made.lookup (dir ++ [name]) = some .directory := by
        rw [lookup_of_add hadd, if_pos rfl]
      rw [if_neg hmkdirs, hadd]
      simp only [openat2, hnameable, Bool.not_true, Bool.or_false, openAt_of_directory hthere]
      by_cases hreopens : faults.reopens (dir ++ [name]) = true
      · rw [if_pos hreopens]
        exact ⟨made, _, rfl, hmade, by simp [Passes, hlookup, hreopens], fun _ ↦ ⟨_, rfl⟩⟩
      · rw [if_neg hreopens]
        refine ⟨made, _, rfl, hmade, fun _ ↦ rfl, fun hfails ↦ ?_⟩
        exact absurd ⟨hmakes.1, .inr ⟨hlookup, hmakes.2.2, by simpa using hreopens⟩⟩ hfails

/-! ## The walk -/

theorem forall_prefix_cons {p : List Name → Prop} {name : Name} {names : List Name} :
    (∀ path, path ≠ [] → path <+: name :: names → p path) ↔
      p [name] ∧ ∀ path, path ≠ [] → path <+: names → p (name :: path) := by
  constructor
  · intro h
    exact ⟨h [name] (by simp) (by simp), fun path _ hpath ↦ h _ (by simp) (by simpa using hpath)⟩
  · rintro ⟨hname, hnames⟩ path hne hpath
    obtain ⟨first, rest, rfl⟩ := List.exists_cons_of_ne_nil hne
    obtain ⟨rfl, hrest⟩ := List.cons_prefix_cons.mp hpath
    by_cases hempty : rest = []
    · rwa [hempty]
    · exact hnames rest hempty hrest

/-- Every directory on the way down passes. -/
def Walks (faults : DestinationFaults) (fs : Fs) (dir names : List Name) : Prop :=
  ∀ path, path ≠ [] → path <+: names → Passes faults fs (dir ++ path)

/-- A directory is made on the way down. -/
def Leaves (faults : DestinationFaults) (fs : Fs) (dir names : List Name) : Prop :=
  ∃ path, path ≠ [] ∧ path <+: names ∧
    (∀ before, before ≠ [] → before <+: path → before ≠ path → Passes faults fs (dir ++ before)) ∧
    Makes faults fs (dir ++ path)

theorem walks_cons {name : Name} {names : List Name} :
    Walks faults fs dir (name :: names) ↔
      Passes faults fs (dir ++ [name]) ∧ Walks faults fs (dir ++ [name]) names := by
  rw [Walks, forall_prefix_cons, Walks]
  simp only [List.append_assoc, List.singleton_append]

theorem leaves_cons {name : Name} {names : List Name} :
    Leaves faults fs dir (name :: names) ↔
      Makes faults fs (dir ++ [name]) ∨
        Passes faults fs (dir ++ [name]) ∧ Leaves faults fs (dir ++ [name]) names := by
  constructor
  · rintro ⟨path, hne, hpath, hbefore, hmakes⟩
    obtain ⟨first, rest, rfl⟩ := List.exists_cons_of_ne_nil hne
    obtain ⟨rfl, hrest⟩ := List.cons_prefix_cons.mp hpath
    by_cases hempty : rest = []
    · rw [hempty] at hmakes
      exact .inl hmakes
    · refine .inr ⟨hbefore [first] (by simp) (by simp) (by simpa using Ne.symm hempty), rest, hempty,
        hrest, fun before hne' hunder hproper ↦ ?_, by simpa using hmakes⟩
      simpa using hbefore (first :: before) (by simp) (by simpa using hunder) (by simpa using hproper)
  · rintro (hmakes | ⟨hpasses, path, hne, hpath, hbefore, hmakes⟩)
    · refine ⟨[name], by simp, by simp, fun before hne hunder hproper ↦ ?_, hmakes⟩
      obtain ⟨first, rest, rfl⟩ := List.exists_cons_of_ne_nil hne
      obtain ⟨rfl, hrest⟩ := List.cons_prefix_cons.mp hunder
      exact absurd (by rw [List.prefix_nil.mp hrest]) hproper
    · refine ⟨name :: path, by simp, by simpa using hpath, fun before hne' hunder hproper ↦ ?_,
        by simpa using hmakes⟩
      obtain ⟨first, rest, rfl⟩ := List.exists_cons_of_ne_nil hne'
      obtain ⟨rfl, hrest⟩ := List.cons_prefix_cons.mp hunder
      by_cases hempty : rest = []
      · rwa [hempty]
      · simpa using hbefore rest hempty hrest (by simpa using hproper)

/-- A step that passes, and directories below it. -/
theorem AddsDirectories.cons {fs'' : Fs} {name : Name} {names : List Name}
    (hdir : fs.lookup dir = some .directory) (hpasses : Passes faults fs (dir ++ [name]))
    (hstep : ∀ path, fs'.lookup path =
      if path = dir ++ [name] ∧ Makes faults fs (dir ++ [name]) then some .directory
      else fs.lookup path)
    (h : AddsDirectories fs' fs'' (dir ++ [name]) names) :
    AddsDirectories fs fs'' dir (name :: names) := by
  intro path
  rw [h path, hstep path]
  by_cases hpath : path = dir ++ [name]
  · subst hpath
    rcases hpasses.2 with hlookup | ⟨hlookup, hmkdirs, -⟩
    · simp [hlookup]
    · have hmakes : Makes faults fs (dir ++ [name]) := ⟨hpasses.1, hlookup, hmkdirs⟩
      simp [hmakes, hlookup]
  · rw [if_neg fun hboth ↦ hpath hboth.1]
    by_cases hbelow : dir ++ [name] <+: path
    · have habove : dir <+: path := (List.prefix_append dir [name]).trans hbelow
      simp [hbelow, habove]
    · -- between the two there is only the directory itself, which is there already
      rw [if_neg fun hboth ↦ hbelow hboth.1]
      split
      · rename_i hbetween
        obtain ⟨⟨rest, rfl⟩, hrest⟩ := hbetween
        rw [List.prefix_append_right_inj] at hrest
        cases rest with
        | nil => rw [List.append_nil, hdir]; rfl
        | cons first rest =>
          obtain ⟨rfl, -⟩ := List.cons_prefix_cons.mp hrest
          exact absurd (by simp) hbelow
      · rfl

/-- What was there stays, and nothing is changed that is not below a directory. -/
structure Grows (fs fs' : Fs) (dir : List Name) : Prop where
  kept : ∀ path, fs.lookup path ≠ none → fs'.lookup path = fs.lookup path
  outside : ∀ path, ¬ dir <+: path → fs'.lookup path = fs.lookup path

theorem grows_refl : Grows fs fs dir := ⟨fun _ _ ↦ rfl, fun _ _ ↦ rfl⟩

theorem Grows.trans {fs'' : Fs} {below : List Name} (h : Grows fs fs' dir)
    (hnext : Grows fs' fs'' (dir ++ below)) : Grows fs fs'' dir where
  kept path hpath := by
    rw [hnext.kept path (by rwa [h.kept path hpath]), h.kept path hpath]
  outside path hpath := by
    rw [hnext.outside path fun hbelow ↦ hpath ((List.prefix_append dir below).trans hbelow),
      h.outside path hpath]

theorem grows_of_step {name : Name}
    (hstep : ∀ path, fs'.lookup path =
      if path = dir ++ [name] ∧ Makes faults fs (dir ++ [name]) then some .directory
      else fs.lookup path) : Grows fs fs' dir where
  kept path hpath := by
    rw [hstep path, if_neg]
    rintro ⟨rfl, hmakes⟩
    exact hpath hmakes.2.1
  outside path hpath := by
    rw [hstep path, if_neg]
    rintro ⟨rfl, -⟩
    exact hpath (List.prefix_append dir [name])

/-- Something that was missing is there. -/
theorem ne_of_makes {path : List Name} (hmakes : Makes faults fs path)
    (hpath : fs'.lookup path ≠ none) : fs' ≠ fs := by
  rintro rfl
  exact hpath hmakes.2.1

theorem eq_of_step {name : Name}
    (hstep : ∀ path, fs'.lookup path =
      if path = dir ++ [name] ∧ Makes faults fs (dir ++ [name]) then some .directory
      else fs.lookup path) (hmakes : ¬ Makes faults fs (dir ++ [name])) : fs' = fs :=
  ext_lookup fun path ↦ by rw [hstep path, if_neg fun hboth ↦ hmakes hboth.2]

theorem walks_congr {names : List Name}
    (h : ∀ path, path ≠ [] → fs'.lookup (dir ++ path) = fs.lookup (dir ++ path)) :
    Walks faults fs' dir names ↔ Walks faults fs dir names :=
  forall_congr' fun path ↦ forall_congr' fun hne ↦ imp_congr_right fun _ ↦
    passes_congr (h path hne)

theorem leaves_congr {names : List Name}
    (h : ∀ path, path ≠ [] → fs'.lookup (dir ++ path) = fs.lookup (dir ++ path)) :
    Leaves faults fs' dir names ↔ Leaves faults fs dir names := by
  refine exists_congr fun path ↦ and_congr_right fun hne ↦ and_congr_right fun _ ↦
    and_congr ?_ (makes_congr (h path hne))
  exact forall_congr' fun before ↦ forall_congr' fun hbefore ↦ imp_congr_right fun _ ↦
    imp_congr_right fun _ ↦ passes_congr (h before hbefore)

/-- **The walk**: what it does to the rootfs, and when it fails. -/
theorem openOrCreateDirectories_spec {names : List Name} (hdir : fs.lookup dir = some .directory) :
    ∃ fs' result, openOrCreateDirectories lossy faults fs dir names = (fs', result) ∧
      Grows fs fs' dir ∧ (fs' ≠ fs ↔ Leaves faults fs dir names) ∧
      (Walks faults fs dir names →
        result = .ok (dir ++ names) ∧ AddsDirectories fs fs' dir names) ∧
      (¬ Walks faults fs dir names → ∃ e, result = .error e) := by
  induction names generalizing fs dir with
  | nil =>
    refine ⟨fs, _, rfl, grows_refl, ?_, fun _ ↦ ⟨by rw [List.append_nil], addsDirectories_nil hdir⟩,
      fun hfails ↦ ?_⟩
    · refine iff_of_false (not_not.mpr rfl) ?_
      rintro ⟨path, hne, hpath, -⟩
      exact hne (List.prefix_nil.mp hpath)
    · exact absurd (fun path hne hpath ↦ absurd (List.prefix_nil.mp hpath) hne) hfails
  | cons name names ih =>
    obtain ⟨fs₁, result₁, heq, hstep, hok, herror⟩ :=
      @openOrCreateDirectoryAt_spec lossy faults fs dir name hdir
    have hgrows := grows_of_step hstep
    have hmade (hmakes : Makes faults fs (dir ++ [name])) :
        fs₁.lookup (dir ++ [name]) = some .directory := by
      rw [hstep, if_pos ⟨rfl, hmakes⟩]
    rw [openOrCreateDirectories, heq, walks_cons, leaves_cons]
    by_cases hpasses : Passes faults fs (dir ++ [name])
    · obtain rfl := hok hpasses
      have hdir₁ : fs₁.lookup (dir ++ [name]) = some .directory := by
        rcases hpasses.2 with hlookup | ⟨hlookup, hmkdirs, -⟩
        · rw [hgrows.kept _ (by rw [hlookup]; exact Option.some_ne_none _), hlookup]
        · exact hmade ⟨hpasses.1, hlookup, hmkdirs⟩
      -- below the new directory the rootfs is as it was
      have hbelow (path : List Name) (hne : path ≠ []) :
          fs₁.lookup (dir ++ [name] ++ path) = fs.lookup (dir ++ [name] ++ path) := by
        rw [hstep, if_neg]
        rintro ⟨hpath, -⟩
        simp [hne] at hpath
      obtain ⟨fs₂, result, hwalk, hgrows₂, hchanged, hwalks, hfails⟩ := ih hdir₁
      rw [walks_congr hbelow] at hwalks hfails
      rw [leaves_congr hbelow] at hchanged
      refine ⟨fs₂, result, hwalk, hgrows.trans hgrows₂, ?_, fun hnames ↦ ?_, fun hnames ↦ ?_⟩
      · by_cases hmakes : Makes faults fs (dir ++ [name])
        · refine iff_of_true (ne_of_makes hmakes ?_) (.inl hmakes)
          rw [hgrows₂.kept _ (by rw [hdir₁]; exact Option.some_ne_none _), hdir₁]
          exact Option.some_ne_none _
        · rw [eq_of_step hstep hmakes] at hchanged
          rw [hchanged, or_iff_right hmakes, and_iff_right hpasses]
      · obtain ⟨rfl, hadds⟩ := hwalks hnames.2
        exact ⟨by simp, hadds.cons hdir hpasses hstep⟩
      · exact hfails fun h ↦ hnames ⟨hpasses, h⟩
    · obtain ⟨e, rfl⟩ := herror hpasses
      refine ⟨fs₁, _, rfl, hgrows, ?_, fun hnames ↦ absurd hnames.1 hpasses, fun _ ↦ ⟨_, rfl⟩⟩
      by_cases hmakes : Makes faults fs (dir ++ [name])
      · refine iff_of_true (ne_of_makes hmakes ?_) (.inl hmakes)
        rw [hmade hmakes]
        exact Option.some_ne_none _
      · exact iff_of_false (not_not.mpr (eq_of_step hstep hmakes))
          (not_or.mpr ⟨hmakes, fun h ↦ hpasses h.1⟩)

/-! ## The end of the way -/

/-- The file at the end is there, and is one the code takes for a file, or it can be made. -/
def LastPasses (faults : DestinationFaults) (fs : Fs) (path : List Name) : Prop :=
  faults.refuses path = false ∧
    (fs.lookup path = none ∧ faults.creates path = false ∨
      ∃ node, fs.lookup path = some node ∧ (∀ target, node ≠ .symlink target) ∧
        faults.fstats path = false ∧ looksLikeDirectory node = false)

/-- The names of directories in a destination. -/
def directoryNames (components : List Name) (sourceIsDir : Bool) : List Name :=
  if sourceIsDir then components else components.dropLast

/-- The way to the destination can be gone. -/
def Opens (faults : DestinationFaults) (fs : Fs) (root components : List Name) (sourceIsDir : Bool) :
    Prop :=
  faults.opens root = false ∧ Walks faults fs root (directoryNames components sourceIsDir) ∧
    (sourceIsDir = false → LastPasses faults fs (root ++ components))

/-- What is at a path of the way, if there was nothing. -/
def newNode (root components : List Name) (sourceIsDir : Bool) (path : List Name) :
    Option FileNode :=
  if root <+: path ∧ path <+: root ++ components then
    if path = root ++ components ∧ sourceIsDir = false then some (.regular []) else some .directory
  else none

/-- `open_or_create_directory_tree` or `open_or_create_file_destination`. -/
def openDestination (lossy : ByteArray → String) (faults : DestinationFaults) (fs : Fs)
    (root components : List Name) (sourceIsDir : Bool) : Fs × Except FilesystemError (List Name) :=
  if sourceIsDir then openOrCreateDirectoryTree lossy faults fs root components
  else openOrCreateFileDestination lossy faults fs root components

theorem openOrCreateDirectoryTree_spec {names : List Name} (hroot : fs.lookup root = some .directory) :
    ∃ fs' result, openOrCreateDirectoryTree lossy faults fs root names = (fs', result) ∧
      Grows fs fs' root ∧ (fs' ≠ fs ↔ faults.opens root = false ∧ Leaves faults fs root names) ∧
      (faults.opens root = false ∧ Walks faults fs root names →
        result = .ok (root ++ names) ∧ AddsDirectories fs fs' root names) ∧
      (¬ (faults.opens root = false ∧ Walks faults fs root names) → ∃ e, result = .error e) := by
  rw [openOrCreateDirectoryTree]
  by_cases hopens : faults.opens root = true
  · rw [if_pos hopens]
    exact ⟨fs, _, rfl, grows_refl, by simp [hopens], by simp [hopens], fun _ ↦ ⟨_, rfl⟩⟩
  · rw [if_neg hopens]
    have hopens : faults.opens root = false := by simpa using hopens
    obtain ⟨fs', result, heq, hgrows, hchanged, hok, herror⟩ :=
      @openOrCreateDirectories_spec lossy faults fs root names hroot
    exact ⟨fs', result, heq, hgrows, by rw [hchanged, and_iff_right hopens], fun h ↦ hok h.2,
      fun h ↦ herror fun hwalks ↦ h ⟨hopens, hwalks⟩⟩

/-- The bit of a directory is also in the type of a block device, and of a socket. -/
theorem looksLikeDirectory_iff {node : FileNode} :
    looksLikeDirectory node = true ↔
      node = .directory ∨ node = .blockDevice ∨ node = .socket := by
  cases node <;> simp [looksLikeDirectory, FileNode.typeBits]

/-- At the end of a walk there is a directory. -/
theorem lookup_of_addsDirectories {names : List Name} (hroot : fs.lookup root = some .directory)
    (hwalks : Walks faults fs root names) (hadds : AddsDirectories fs fs' root names) :
    fs'.lookup (root ++ names) = some .directory := by
  rw [hadds, if_pos ⟨List.prefix_append _ _, List.prefix_rfl⟩]
  by_cases hnames : names = []
  · rw [hnames, List.append_nil, hroot]
    rfl
  · rcases (hwalks names hnames List.prefix_rfl).2 with hlookup | ⟨hlookup, -⟩
    · rw [hlookup]
      rfl
    · rw [hlookup]
      rfl

/-- The step to the file: what it does, and when it fails. -/
theorem openOrCreateFileAt_spec {name : Name} (hdir : fs.lookup dir = some .directory) :
    ∃ fs' result, openOrCreateFileAt lossy faults fs dir name = (fs', result) ∧
      (LastPasses faults fs (dir ++ [name]) →
        result = .ok (dir ++ [name]) ∧
          ∀ path, fs'.lookup path = (fs.lookup path).or
            (if path = dir ++ [name] then some (.regular []) else none)) ∧
      (¬ LastPasses faults fs (dir ++ [name]) → fs' = fs ∧ ∃ e, result = .error e) := by
  rw [openOrCreateFileAt, openat2, ← refuses_concat]
  by_cases hopens : faults.refuses (dir ++ [name]) = true
  · rw [if_pos hopens]
    exact ⟨fs, _, rfl, by simp [LastPasses, hopens], fun _ ↦ ⟨rfl, _, rfl⟩⟩
  rw [if_neg hopens]
  have hopens : faults.refuses (dir ++ [name]) = false := by simpa using hopens
  cases hlookup : fs.lookup (dir ++ [name]) with
  | none =>
    rw [openAt_of_none hlookup]
    by_cases hcreates : faults.creates (dir ++ [name]) = true
    · rw [if_pos hcreates]
      exact ⟨fs, _, rfl, by simp [LastPasses, hlookup, hcreates], fun _ ↦ ⟨rfl, _, rfl⟩⟩
    · obtain ⟨made, hadd⟩ := exists_add (.regular []) hdir hlookup
      rw [if_neg hcreates, hadd]
      refine ⟨made, _, rfl, fun _ ↦ ⟨rfl, fun path ↦ ?_⟩, fun hfails ↦ ?_⟩
      · rw [lookup_of_add hadd]
        split
        · rename_i hpath
          rw [hpath, hlookup]
          rfl
        · rw [Option.or_none]
      · exact absurd ⟨hopens, .inl ⟨hlookup, by simpa using hcreates⟩⟩ hfails
  | some node =>
    by_cases hnode : ∃ target, node = .symlink target
    · obtain ⟨target, rfl⟩ := hnode
      rw [openAt_of_symlink hlookup]
      exact ⟨fs, _, rfl, by simp [LastPasses, hlookup], fun _ ↦ ⟨rfl, _, rfl⟩⟩
    rw [not_exists] at hnode
    simp only [openAt_of_some hlookup hnode, hlookup, Option.any_some]
    by_cases hfstats : faults.fstats (dir ++ [name]) = true
    · rw [if_pos hfstats]
      exact ⟨fs, _, rfl, by simp [LastPasses, hlookup, hfstats], fun _ ↦ ⟨rfl, _, rfl⟩⟩
    rw [if_neg hfstats]
    by_cases hlooks : looksLikeDirectory node = true
    · rw [if_pos hlooks]
      exact ⟨fs, _, rfl, by simp [LastPasses, hlookup, hlooks], fun _ ↦ ⟨rfl, _, rfl⟩⟩
    rw [if_neg hlooks]
    refine ⟨fs, _, rfl, fun _ ↦ ⟨rfl, fun path ↦ ?_⟩, fun hfails ↦ ?_⟩
    · split
      · rename_i hpath
        rw [hpath, hlookup]
        rfl
      · rw [Option.or_none]
    · exact absurd ⟨hopens, .inr ⟨node, hlookup, hnode, by simpa using hfstats, by simpa using hlooks⟩⟩
        hfails

theorem not_prefix_of_concat {names : List Name} {name : Name} :
    ¬ root ++ names ++ [name] <+: root ++ names := fun h ↦ by
  have hlength := h.length_le
  simp only [List.length_append, List.length_singleton] at hlength
  omega

theorem lastPasses_congr {path : List Name} (h : fs'.lookup path = fs.lookup path) :
    LastPasses faults fs' path ↔ LastPasses faults fs path := by
  rw [LastPasses, LastPasses, h]

/-- Whatever is added where there is nothing below a directory. -/
theorem grows_of_or {added : List Name → Option FileNode}
    (h : ∀ path, fs'.lookup path = (fs.lookup path).or (added path))
    (hadded : ∀ path, added path ≠ none → dir <+: path) : Grows fs fs' dir where
  kept path hpath := by
    obtain ⟨node, hnode⟩ := Option.ne_none_iff_exists'.mp hpath
    rw [h path, hnode]
    rfl
  outside path hpath := by
    have hnone : added path = none := by
      by_contra hsome
      exact hpath (hadded path hsome)
    rw [h path, hnone, Option.or_none]

/-- What a file adds: the file, and its directories. -/
theorem newNode_concat (root names : List Name) (name : Name) (path : List Name) :
    newNode root (names ++ [name]) false path =
      if path = root ++ names ++ [name] then some (.regular [])
      else if root <+: path ∧ path <+: root ++ names then some .directory else none := by
  rw [newNode, ← List.append_assoc]
  by_cases hpath : path = root ++ names ++ [name]
  · rw [if_pos hpath, if_pos ⟨by simp [hpath], by rw [hpath]⟩, if_pos ⟨hpath, rfl⟩]
  · have hunder : path <+: root ++ names ++ [name] ↔ path <+: root ++ names := by
      rw [List.prefix_concat_iff, or_iff_right hpath]
    simp only [hunder, hpath, false_and, if_false]

/-- **The way to the destination**: what it does to the rootfs, and when it fails. -/
theorem openDestination_spec {components : List Name} {sourceIsDir : Bool}
    (hroot : fs.lookup root = some .directory) (hcomponents : components ≠ []) :
    ∃ fs' result, openDestination lossy faults fs root components sourceIsDir = (fs', result) ∧
      Grows fs fs' root ∧
      (Opens faults fs root components sourceIsDir →
        result = .ok (root ++ components) ∧
          ∀ path, fs'.lookup path = (fs.lookup path).or (newNode root components sourceIsDir path)) ∧
      (¬ Opens faults fs root components sourceIsDir → (∃ e, result = .error e) ∧
        (fs' ≠ fs ↔ faults.opens root = false ∧
          Leaves faults fs root (directoryNames components sourceIsDir))) := by
  cases sourceIsDir with
  | true =>
    obtain ⟨fs', result, heq, hgrows, hchanged, hok, herror⟩ :=
      @openOrCreateDirectoryTree_spec lossy faults fs root components hroot
    have hopens : Opens faults fs root components true ↔
        faults.opens root = false ∧ Walks faults fs root components := by
      simp [Opens, directoryNames]
    rw [hopens]
    refine ⟨fs', result, heq, hgrows, fun h ↦ ⟨(hok h).1, fun path ↦ ?_⟩,
      fun h ↦ ⟨herror h, hchanged⟩⟩
    rw [(hok h).2 path]
    simp [newNode]
  | false =>
    obtain ⟨names, name, rfl⟩ : ∃ names name, components = names ++ [name] :=
      ⟨_, _, (List.dropLast_concat_getLast hcomponents).symm⟩
    obtain ⟨fs₁, result₁, heq, hgrows, hchanged, hok, herror⟩ :=
      @openOrCreateDirectoryTree_spec lossy faults fs root names hroot
    have hopens : Opens faults fs root (names ++ [name]) false ↔
        (faults.opens root = false ∧ Walks faults fs root names) ∧
          LastPasses faults fs (root ++ names ++ [name]) := by
      simp [Opens, directoryNames, and_assoc]
    simp only [openDestination, Bool.false_eq_true, if_false, openOrCreateFileDestination,
      List.getLast?_concat, List.dropLast_concat, heq, hopens, directoryNames]
    by_cases hwalks : faults.opens root = false ∧ Walks faults fs root names
    · obtain ⟨rfl, hadds⟩ := hok hwalks
      obtain ⟨fs₂, result, heq₂, hlast, hfails⟩ := @openOrCreateFileAt_spec lossy faults fs₁
        (root ++ names) name (lookup_of_addsDirectories hroot hwalks.2 hadds)
      have hsame : fs₁.lookup (root ++ names ++ [name]) = fs.lookup (root ++ names ++ [name]) := by
        rw [hadds, if_neg fun h ↦ not_prefix_of_concat h.2, Option.or_none]
      rw [lastPasses_congr hsame] at hlast hfails
      rw [and_iff_right hwalks]
      by_cases hpasses : LastPasses faults fs (root ++ names ++ [name])
      · obtain ⟨rfl, hadded⟩ := hlast hpasses
        have hgrows₂ : Grows fs₁ fs₂ (root ++ names) := by
          refine grows_of_or hadded fun path hpath ↦ ?_
          rw [ite_ne_right_iff] at hpath
          rw [hpath.1]
          exact List.prefix_append _ _
        refine ⟨fs₂, _, heq₂, hgrows.trans hgrows₂, fun _ ↦ ⟨by simp, fun path ↦ ?_⟩,
          fun h ↦ absurd hpasses h⟩
        rw [hadded, hadds, newNode_concat]
        by_cases hpath : path = root ++ names ++ [name]
        · rw [if_pos hpath, if_pos hpath, if_neg, Option.or_none]
          rintro ⟨-, hunder⟩
          rw [hpath] at hunder
          exact not_prefix_of_concat hunder
        · rw [if_neg hpath, if_neg hpath, Option.or_none]
      · obtain ⟨rfl, e, rfl⟩ := hfails hpasses
        exact ⟨fs₂, _, heq₂, hgrows, fun h ↦ absurd h hpasses, fun _ ↦ ⟨⟨_, rfl⟩, hchanged⟩⟩
    · obtain ⟨e, rfl⟩ := herror hwalks
      exact ⟨fs₁, _, rfl, hgrows, fun h ↦ absurd h.1 hwalks, fun _ ↦ ⟨⟨_, rfl⟩, hchanged⟩⟩

/-! ## What was made, and taking it back -/

/-- The ways from the rootfs to the directories on the way, and to the destination. -/
def waysDown (components : List Name) : List (List Name) :=
  (List.range components.length).map fun index ↦ components.take (index + 1)

theorem mem_waysDown_iff {components path : List Name} :
    path ∈ waysDown components ↔ path ≠ [] ∧ path <+: components := by
  simp only [waysDown, List.mem_map, List.mem_range]
  constructor
  · rintro ⟨index, hindex, rfl⟩
    refine ⟨fun h ↦ ?_, List.take_prefix _ _⟩
    rw [List.take_eq_nil_iff] at h
    rcases h with h | h
    · omega
    · rw [h] at hindex
      exact absurd hindex (Nat.not_lt_zero _)
  · rintro ⟨hne, hpath⟩
    have hpos := List.length_pos_of_ne_nil hne
    refine ⟨path.length - 1, by have := hpath.length_le; omega, ?_⟩
    rw [Nat.sub_add_cancel hpos]
    exact (List.prefix_iff_eq_take.mp hpath).symm

/-- Each of them goes further than the one before. -/
theorem pairwise_waysDown (components : List Name) :
    (waysDown components).Pairwise fun path next ↦ path.length < next.length := by
  rw [waysDown, List.pairwise_map]
  refine List.Pairwise.imp_of_mem (fun {index next} hindex hnext hlt ↦ ?_) List.pairwise_lt_range
  rw [List.mem_range] at hindex hnext
  simp only [List.length_take]
  omega

theorem prospectiveCreatedPaths_eq {through : List Name → Bool} {rootfs : OsPath}
    {components : List Name} (sourceIsDir : Bool) (hcomponents : components ≠ []) :
    prospectiveCreatedPaths faults through fs rootfs root components sourceIsDir =
      (waysDown components).filter (symlinkMetadataFails faults through fs rootfs root) := by
  cases sourceIsDir with
  | true => simp [prospectiveCreatedPaths, waysDown]
  | false =>
    obtain ⟨n, hn⟩ := Nat.exists_eq_succ_of_ne_zero
      (Nat.ne_of_gt (List.length_pos_of_ne_nil hcomponents))
    have hlast : components.take (n + 1) = components := List.take_of_length_le (Nat.le_of_eq hn)
    simp only [prospectiveCreatedPaths, waysDown, hn, List.range_succ, List.map_append,
      List.filter_append]
    simp [hcomponents, hlast]

/-- If there are no links on the way then the code finds what is there. -/
theorem lstatFails_eq {through : List Name → Bool} {path : List Name} (hne : path ≠ [])
    (hdirs : ∀ before, before ≠ [] → before <+: path → before ≠ path →
      ∀ node, fs.lookup (dir ++ before) = some node → node = .directory) :
    lstatFails through fs dir path = (fs.lookup (dir ++ path)).isNone := by
  induction path generalizing dir with
  | nil => exact absurd rfl hne
  | cons name names ih =>
    cases names with
    | nil => rfl
    | cons next names =>
      rw [lstatFails]
      cases hlookup : fs.lookup (dir ++ [name]) with
      | none =>
        have hbelow := lookup_append_eq_none (next :: names) hlookup
        rw [List.append_assoc, List.singleton_append] at hbelow
        rw [hbelow]
        rfl
      | some node =>
        obtain rfl := hdirs [name] (by simp) (by simp) (by simp) node hlookup
        rw [ih (by simp), List.append_assoc, List.singleton_append]
        intro before hbefore hunder hproper node hnode
        refine hdirs (name :: before) (by simp) (by simpa using hunder) (by simpa using hproper) node ?_
        rwa [List.append_assoc, List.singleton_append] at hnode

/-- A path can be removed, as far as its text and the calls go. -/
def Removable (faults : DestinationFaults) (rootfs : OsPath) (root way : List Name) : Prop :=
  faults.removes (root ++ way) = false ∧ reachable rootfs way = true

instance (rootfs : OsPath) (way : List Name) : Decidable (Removable faults rootfs root way) :=
  inferInstanceAs (Decidable (_ ∧ _))

section Rollback

variable {rootfs : OsPath}

theorem removePath_of_removable {way : List Name} (h : Removable faults rootfs root way) :
    removePath faults rootfs root fs way = (fs.remove (root ++ way)).getD fs := by
  rw [removePath, h.1, h.2]
  rfl

theorem removePath_of_not_removable {way : List Name} (h : ¬ Removable faults rootfs root way) :
    removePath faults rootfs root fs way = fs := by
  rw [removePath, if_pos]
  rw [Removable, not_and_or, Bool.not_eq_false, Bool.not_eq_true] at h
  simpa using h

/-- Removing a path changes nothing else. -/
theorem lookup_removePath (way path : List Name) :
    (removePath faults rootfs root fs way).lookup path = fs.lookup path ∨
      Removable faults rootfs root way ∧ path = root ++ way ∧
        (removePath faults rootfs root fs way).lookup path = none := by
  by_cases hremovable : Removable faults rootfs root way
  · rw [removePath_of_removable hremovable]
    cases hremove : fs.remove (root ++ way) with
    | none => exact .inl rfl
    | some removed =>
      rw [Option.getD_some, lookup_of_remove hremove]
      split
      · rename_i hpath
        exact .inr ⟨hremovable, hpath, rfl⟩
      · exact .inl rfl
  · rw [removePath_of_not_removable hremovable]
    exact .inl rfl

/-- What is not removed stays. -/
theorem lookup_foldl_removePath {created : List (List Name)} {path : List Name}
    (hpath : ∀ way ∈ created, Removable faults rootfs root way → path ≠ root ++ way) :
    (created.foldl (removePath faults rootfs root) fs).lookup path = fs.lookup path := by
  induction created generalizing fs with
  | nil => rfl
  | cons way created ih =>
    rw [List.foldl_cons, ih fun other hother ↦ hpath other (List.mem_cons_of_mem _ hother)]
    rcases lookup_removePath way path with hsame | ⟨hremovable, heq, -⟩
    · exact hsame
    · exact absurd heq (hpath way List.mem_cons_self hremovable)

/-- Nothing comes back. -/
theorem lookup_foldl_removePath_of_none {created : List (List Name)} {path : List Name}
    (hnone : fs.lookup path = none) :
    (created.foldl (removePath faults rootfs root) fs).lookup path = none := by
  induction created generalizing fs with
  | nil => exact hnone
  | cons way created ih =>
    refine ih ?_
    rcases lookup_removePath way path with hsame | ⟨-, -, hgone⟩
    · rw [hsame, hnone]
    · exact hgone

/-- Removing some paths changes nothing exactly if removing each of them changes nothing. -/
theorem foldl_removePath_eq_self_iff {created : List (List Name)} :
    created.foldl (removePath faults rootfs root) fs = fs ↔
      ∀ way ∈ created, removePath faults rootfs root fs way = fs := by
  induction created with
  | nil => simp
  | cons way created ih =>
    rw [List.foldl_cons, List.forall_mem_cons]
    constructor
    · intro h
      -- what the first one removes does not come back
      have hfirst : removePath faults rootfs root fs way = fs := by
        refine ext_lookup fun path ↦ ?_
        rcases @lookup_removePath faults fs root rootfs way path with hsame | ⟨-, -, hgone⟩
        · exact hsame
        · have hstays := @lookup_foldl_removePath_of_none faults _ root rootfs created path hgone
          rw [h] at hstays
          rw [hgone, hstays]
      rw [hfirst] at h
      exact ⟨hfirst, ih.mp h⟩
    · rintro ⟨hfirst, hrest⟩
      rw [hfirst]
      exact ih.mpr hrest

/-- A path that is there stays exactly if it cannot be removed, or there is something in it. -/
theorem removePath_eq_self_iff {way : List Name} (hway : fs.lookup (root ++ way) ≠ none) :
    removePath faults rootfs root fs way = fs ↔
      (Removable faults rootfs root way → ∃ name, fs.lookup (root ++ way ++ [name]) ≠ none) := by
  by_cases hremovable : Removable faults rootfs root way
  · rw [removePath_of_removable hremovable, forall_prop_of_true hremovable]
    constructor
    · intro h
      by_contra hempty
      simp only [not_exists, not_not] at hempty
      obtain ⟨removed, hremove⟩ := exists_remove hway hempty
      rw [hremove, Option.getD_some] at h
      have hgone := lookup_of_remove hremove (root ++ way)
      rw [if_pos rfl, h] at hgone
      exact hway hgone
    · rintro ⟨name, hname⟩
      rw [remove_eq_none hname]
      rfl
  · exact iff_of_true (removePath_of_not_removable hremovable) fun h ↦ absurd h hremovable

/-- **Taking back what was made.**  The paths are removed from the last one on, and each is empty when
its turn comes. -/
theorem foldl_removePath_eq {created : List (List Name)}
    (hpairwise : created.Pairwise fun path next ↦ path.length < next.length)
    (hremovable : ∀ path ∈ created, Removable faults rootfs root path)
    (hmissing : ∀ path ∈ created, fs.lookup (root ++ path) = none)
    (hmade : ∀ path ∈ created, fs'.lookup (root ++ path) ≠ none)
    (hsame : ∀ path, (∀ other ∈ created, path ≠ root ++ other) → fs'.lookup path = fs.lookup path) :
    created.reverse.foldl (removePath faults rootfs root) fs' = fs := by
  induction created using List.reverseRecOn generalizing fs' with
  | nil => exact ext_lookup fun path ↦ hsame path (by simp)
  | append_singleton created last ih =>
    rw [List.pairwise_append] at hpairwise
    obtain ⟨hpairwise, -, hshorter⟩ := hpairwise
    rw [List.forall_mem_append, List.forall_mem_singleton] at hremovable hmissing hmade
    have hempty (name : Name) : fs'.lookup (root ++ last ++ [name]) = none := by
      rw [hsame, lookup_append_eq_none _ hmissing.2]
      intro other hother heq
      rw [List.append_assoc, List.append_cancel_left_eq] at heq
      rcases List.mem_append.mp hother with hother | hother
      · have hlength := hshorter other hother last (by simp)
        rw [← heq, List.length_append, List.length_singleton] at hlength
        omega
      · rw [List.mem_singleton.mp hother] at heq
        simp at heq
    obtain ⟨removed, hremove⟩ := exists_remove hmade.2 hempty
    rw [List.reverse_concat, List.foldl_cons, removePath_of_removable hremovable.2, hremove,
      Option.getD_some]
    refine ih hpairwise hremovable.1 hmissing.1 (fun path hpath ↦ ?_) fun path hpath ↦ ?_
    · rw [lookup_of_remove hremove, if_neg]
      · exact hmade.1 path hpath
      · intro heq
        rw [List.append_cancel_left_eq] at heq
        have hlength := hshorter path hpath last (by simp)
        rw [heq] at hlength
        exact absurd hlength (Nat.lt_irrefl _)
    · rw [lookup_of_remove hremove]
      split
      · rename_i hlast
        rw [hlast, hmissing.2]
      · rename_i hlast
        refine hsame path fun other hother ↦ ?_
        rcases List.mem_append.mp hother with hother | hother
        · exact hpath other hother
        · rw [List.mem_singleton.mp hother]
          exact hlast

/-- Among paths of which all are missing that come after a missing one, those that are missing come
last. -/
theorem filter_or_eq_append {α : Type} {l : List α} {p q : α → Bool}
    (h : l.Pairwise fun a b ↦ p a = true → p b = true) :
    l.filter (fun a ↦ q a || p a) = l.filter (fun a ↦ q a && !p a) ++ l.filter p := by
  induction l with
  | nil => rfl
  | cons a l ih =>
    rw [List.pairwise_cons] at h
    cases hp : p a with
    | true =>
      have hall : ∀ b ∈ l, p b = true := fun b hb ↦ h.1 b hb hp
      have hnone : l.filter (fun a ↦ q a && !p a) = [] :=
        List.filter_eq_nil_iff.mpr fun b hb ↦ by simp [hall b hb]
      have ih := ih h.2
      rw [hnone, List.nil_append] at ih
      simp [hp, hnone, ih]
    | false =>
      cases hq : q a with
      | true => simp [hp, hq, ih h.2]
      | false => simp [hp, hq, ih h.2]

/-- **What `rollback` restores.**  The paths it was told to remove are some that were there, and all
that were not; each of the latter has to go, and none of the former. -/
theorem foldl_removePath_eq_iff {listed missing : List (List Name)}
    (hpairwise : missing.Pairwise fun path next ↦ path.length < next.length)
    (hlisted : ∀ way ∈ listed, fs.lookup (root ++ way) ≠ none)
    (hmissing : ∀ way ∈ missing, fs.lookup (root ++ way) = none)
    (hmade : ∀ way ∈ missing, fs'.lookup (root ++ way) ≠ none)
    (hsame : ∀ path, (∀ way ∈ missing, path ≠ root ++ way) → fs'.lookup path = fs.lookup path) :
    (listed ++ missing).reverse.foldl (removePath faults rootfs root) fs' = fs ↔
      (∀ way ∈ missing, Removable faults rootfs root way) ∧
        ∀ way ∈ listed, Removable faults rootfs root way →
          ∃ name, fs.lookup (root ++ way ++ [name]) ≠ none := by
  have hback (hremovable : ∀ way ∈ missing, Removable faults rootfs root way) :
      missing.reverse.foldl (removePath faults rootfs root) fs' = fs :=
    foldl_removePath_eq hpairwise hremovable hmissing hmade hsame
  have hstays : listed.reverse.foldl (removePath faults rootfs root) fs = fs ↔
      ∀ way ∈ listed, Removable faults rootfs root way →
        ∃ name, fs.lookup (root ++ way ++ [name]) ≠ none := by
    rw [foldl_removePath_eq_self_iff]
    simp only [List.mem_reverse]
    exact forall₂_congr fun way hway ↦ removePath_eq_self_iff (hlisted way hway)
  rw [List.reverse_append, List.foldl_append]
  constructor
  · intro h
    have hremovable : ∀ way ∈ missing, Removable faults rootfs root way := by
      intro way hway
      by_contra hnot
      -- nothing else takes it away
      have hkept := @lookup_foldl_removePath faults fs' root rootfs
        (missing.reverse ++ listed.reverse) (root ++ way) fun other _ hother heq ↦
          hnot (List.append_cancel_left heq ▸ hother)
      rw [List.foldl_append, h, hmissing way hway] at hkept
      exact hmade way hway hkept.symm
    rw [hback hremovable] at h
    exact ⟨hremovable, hstays.mp h⟩
  · rintro ⟨hremovable, hlistedStay⟩
    rw [hback hremovable]
    exact hstays.mpr hlistedStay

end Rollback

/-! ## `prepare_mount_destination` -/

/-- The names of a destination. -/
abbrev namesOf (destination : String) : List Name := (ofString destination).components

/-- The rootfs can be opened. -/
def Starts (faults : DestinationFaults) (fs : Fs) (root : List Name) : Prop :=
  faults.openRootfs = false ∧ fs.lookup root = some .directory

section Prepare

variable {through : List Name → Bool} {rootfs : OsPath} {destination : String} {sourceIsDir : Bool}

/-- Before the walk begins nothing is done. -/
theorem prepareMountDestination_of_not
    (h : ¬ (UsableDestination destination ∧ Starts faults fs root)) :
    ∃ e, prepareMountDestination lossy faults through fs root rootfs destination sourceIsDir =
      (fs, .error e) := by
  rw [prepareMountDestination]
  cases hpath : containerMountDestination rootfs destination with
  | error e => exact ⟨_, rfl⟩
  | ok path =>
    have husable := (containerMountDestination_eq_ok_iff.mp hpath).1
    dsimp only
    split
    · exact ⟨_, rfl⟩
    split
    · exact ⟨_, rfl⟩
    rw [if_pos]
    · exact ⟨_, rfl⟩
    · by_contra hstarts
      rw [not_or, Bool.not_eq_true, not_not] at hstarts
      exact h ⟨husable, hstarts⟩

theorem prefix_dropLast_of_ne {path names : List Name} (h : path <+: names) (hne : path ≠ names) :
    path <+: names.dropLast := by
  rcases List.eq_nil_or_concat names with rfl | ⟨init, last, rfl⟩
  · exact h
  · rw [List.concat_eq_append] at h hne ⊢
    rw [List.dropLast_concat]
    exact (List.prefix_concat_iff.mp h).resolve_left hne

/-- What is there that was missing. -/
theorem added_iff {components : List Name} (hroot : fs.lookup root = some .directory)
    (hadded : ∀ path, fs'.lookup path = (fs.lookup path).or (newNode root components sourceIsDir path))
    {path : List Name} :
    (∃ way ∈ (waysDown components).filter fun way ↦ (fs.lookup (root ++ way)).isNone,
        path = root ++ way) ↔
      fs.lookup path = none ∧ fs'.lookup path ≠ none := by
  constructor
  · rintro ⟨way, hway, rfl⟩
    obtain ⟨hway, hnone⟩ := List.mem_filter.mp hway
    have hnone : fs.lookup (root ++ way) = none := by simpa using hnone
    refine ⟨hnone, ?_⟩
    have hnew : newNode root components sourceIsDir (root ++ way) ≠ none := by
      rw [newNode, if_pos ⟨List.prefix_append _ _, by simpa using (mem_waysDown_iff.mp hway).2⟩]
      split_ifs <;> exact Option.some_ne_none _
    rwa [hadded, hnone, Option.none_or]
  · rintro ⟨hnone, hsome⟩
    rw [hadded, hnone, Option.none_or, newNode, ite_ne_right_iff] at hsome
    obtain ⟨⟨⟨way, rfl⟩, hunder⟩, -⟩ := hsome
    have hway : way ≠ [] := by
      rintro rfl
      rw [List.append_nil, hroot] at hnone
      exact absurd hnone (Option.some_ne_none _)
    refine ⟨way, List.mem_filter.mpr ⟨mem_waysDown_iff.mpr ⟨hway, ?_⟩, by simpa using hnone⟩, rfl⟩
    simpa using hunder

/-- The code takes a path for one it will make. -/
def Listed (faults : DestinationFaults) (fs : Fs) (rootfs : OsPath) (root way : List Name) : Bool :=
  unseen faults rootfs root way || (fs.lookup (root ++ way)).isNone

/-- What the code says it will make is what is missing or cannot be looked at, if the way can be
gone. -/
theorem prospectiveCreatedPaths_of_opens {components : List Name} (hcomponents : components ≠ [])
    (hopens : Opens faults fs root components sourceIsDir) :
    prospectiveCreatedPaths faults through fs rootfs root components sourceIsDir =
      (waysDown components).filter (Listed faults fs rootfs root) := by
  rw [prospectiveCreatedPaths_eq sourceIsDir hcomponents]
  refine List.filter_congr fun path hpath ↦ ?_
  obtain ⟨hne, hunder⟩ := mem_waysDown_iff.mp hpath
  rw [symlinkMetadataFails, Listed]
  refine congrArg _ (lstatFails_eq hne ?_)
  intro before hbefore hpre hproper node hnode
  have hnames : before <+: directoryNames components sourceIsDir := by
    rw [directoryNames]
    split
    · exact hpre.trans hunder
    · refine prefix_dropLast_of_ne (hpre.trans hunder) fun heq ↦ hproper ?_
      rw [heq] at hpre ⊢
      exact hpre.eq_of_length (le_antisymm hpre.length_le hunder.length_le)
  rcases (hopens.2.1 before hbefore hnames).2 with hlookup | ⟨hlookup, -⟩
  · rw [hlookup] at hnode
    exact (Option.some.inj hnode).symm
  · rw [hlookup] at hnode
    exact absurd hnode.symm (Option.some_ne_none _)

/-- **What preparing a destination does**, once the rootfs is open. -/
theorem prepareMountDestination_spec (husable : UsableDestination destination)
    (hstarts : Starts faults fs root) :
    ∃ fs' result,
      prepareMountDestination lossy faults through fs root rootfs destination sourceIsDir =
        (fs', result) ∧
      Grows fs fs' root ∧
      (Opens faults fs root (namesOf destination) sourceIsDir →
        (∀ path, fs'.lookup path =
          (fs.lookup path).or (newNode root (namesOf destination) sourceIsDir path)) ∧
        ∃ path, result = .ok ⟨path, root ++ namesOf destination,
          (waysDown (namesOf destination)).filter (Listed faults fs rootfs root)⟩) ∧
      (¬ Opens faults fs root (namesOf destination) sourceIsDir → (∃ e, result = .error e) ∧
        (fs' ≠ fs ↔ faults.opens root = false ∧
          Leaves faults fs root (directoryNames (namesOf destination) sourceIsDir))) := by
  obtain ⟨path, hpath⟩ := (@exists_containerMountDestination_iff rootfs _).mpr husable
  have hlexical := pathComponents_of_containerMountDestination hpath
  rw [normalParts_eq (usableDestination_iff.mp husable).2.1] at hlexical
  obtain ⟨-, relative, hstrip, hrelative⟩ := hlexical
  have hrootfs : ¬ (faults.openRootfs = true ∨ fs.lookup root ≠ some .directory) := by
    simp [hstarts.1, hstarts.2]
  obtain ⟨fs', result, heq, hgrows, hok, herror⟩ := @openDestination_spec lossy faults fs root
    (namesOf destination) sourceIsDir hstarts.2 husable.notRoot
  rw [openDestination] at heq
  simp only [prepareMountDestination, hpath, hstrip, hrelative, if_neg hrootfs, heq]
  by_cases hopens : Opens faults fs root (namesOf destination) sourceIsDir
  · obtain ⟨rfl, hadded⟩ := hok hopens
    rw [prospectiveCreatedPaths_of_opens husable.notRoot hopens]
    exact ⟨fs', _, rfl, hgrows, fun _ ↦ ⟨hadded, path, rfl⟩, fun h ↦ absurd hopens h⟩
  · obtain ⟨⟨e, rfl⟩, hchanged⟩ := herror hopens
    exact ⟨fs', _, rfl, hgrows, fun h ↦ absurd h hopens, fun _ ↦ ⟨⟨_, rfl⟩, hchanged⟩⟩

/-- What `rollback` removes is what was made: all that was missing can be removed, and what was there
and could not be looked at cannot, or there is something in it. -/
structure RollsBack (faults : DestinationFaults) (fs : Fs) (rootfs : OsPath)
    (root components : List Name) : Prop where
  missing : ∀ way, way ≠ [] → way <+: components → fs.lookup (root ++ way) = none →
    Removable faults rootfs root way
  kept : ∀ way, way ≠ [] → way <+: components → fs.lookup (root ++ way) ≠ none →
    faults.lstats (root ++ way) = true → Removable faults rootfs root way →
      ∃ name, fs.lookup (root ++ way ++ [name]) ≠ none

/-- What comes after a missing path on the way down is missing. -/
theorem pairwise_missing (fs : Fs) (root components : List Name) :
    (waysDown components).Pairwise fun way next ↦
      (fs.lookup (root ++ way)).isNone = true → (fs.lookup (root ++ next)).isNone = true := by
  refine (pairwise_waysDown components).imp_of_mem fun {way next} hway hnext hlt hnone ↦ ?_
  obtain ⟨rest, rfl⟩ : way <+: next :=
    List.prefix_of_prefix_length_le (mem_waysDown_iff.mp hway).2 (mem_waysDown_iff.mp hnext).2 hlt.le
  rw [Option.isNone_iff_eq_none] at hnone ⊢
  rw [← List.append_assoc]
  exact lookup_append_eq_none rest hnone

/-- A call that succeeds is taken back exactly if its `rollback` can remove what was made. -/
theorem rollback_eq_iff {path : OsPath} {fd components : List Name}
    (hroot : fs.lookup root = some .directory)
    (hadded : ∀ path, fs'.lookup path =
      (fs.lookup path).or (newNode root components sourceIsDir path)) (hgrows : Grows fs fs' root) :
    Prepared.rollback faults
        ⟨path, fd, (waysDown components).filter (Listed faults fs rootfs root)⟩ rootfs root fs' = fs ↔
      RollsBack faults fs rootfs root components := by
  have hmade (path : List Name) := @added_iff fs fs' root sourceIsDir _ hroot hadded path
  have hsplit := filter_or_eq_append (q := unseen faults rootfs root)
    (pairwise_missing fs root components)
  rw [Prepared.rollback, show Listed faults fs rootfs root = fun way ↦
    unseen faults rootfs root way || (fs.lookup (root ++ way)).isNone from rfl]
  dsimp only
  rw [hsplit, foldl_removePath_eq_iff ((pairwise_waysDown _).filter _)]
  · constructor
    · rintro ⟨hremovable, hstays⟩
      refine ⟨fun way hne hway hnone ↦ hremovable way ?_, fun way hne hway hsome hlstat ↦
        hstays way ?_⟩
      · exact List.mem_filter.mpr ⟨mem_waysDown_iff.mpr ⟨hne, hway⟩, by simp [hnone]⟩
      · refine List.mem_filter.mpr ⟨mem_waysDown_iff.mpr ⟨hne, hway⟩, ?_⟩
        simpa [unseen, hlstat, Option.isSome_iff_ne_none] using hsome
    · rintro ⟨hremovable, hstays⟩
      refine ⟨fun way hway ↦ ?_, fun way hway hremove ↦ ?_⟩
      · obtain ⟨hway, hnone⟩ := List.mem_filter.mp hway
        obtain ⟨hne, hunder⟩ := mem_waysDown_iff.mp hway
        exact hremovable way hne hunder (Option.isNone_iff_eq_none.mp hnone)
      · obtain ⟨hway, hunseen⟩ := List.mem_filter.mp hway
        obtain ⟨hne, hunder⟩ := mem_waysDown_iff.mp hway
        simp only [unseen, hremove.2, Bool.not_true, Bool.or_false, Bool.and_eq_true,
          Bool.not_eq_true', Option.isNone_eq_false_iff, Option.isSome_iff_ne_none] at hunseen
        exact hstays way hne hunder hunseen.2 hunseen.1 hremove
  · intro way hway
    have hsome := (Bool.and_eq_true_iff.mp (List.mem_filter.mp hway).2).2
    exact Option.isSome_iff_ne_none.mp (by simpa using hsome)
  · intro way hway
    exact ((hmade _).mp ⟨way, hway, rfl⟩).1
  · intro way hway
    exact ((hmade _).mp ⟨way, hway, rfl⟩).2
  · intro path hpath
    have hnot := not_congr (hmade path) |>.mp (by simpa using hpath)
    by_cases hnone : fs.lookup path = none
    · rw [hnone]
      exact not_not.mp fun h ↦ hnot ⟨hnone, h⟩
    · exact hgrows.kept path hnone

/-- **When a call leaves the rootfs as it was, or can be taken back.**  One that succeeds is taken back
exactly if its `rollback` can remove what was made and nothing else.  One that fails changes nothing
exactly if it fails before it makes a directory. -/
theorem prepareMountDestination_restores_iff :
    ((∀ fs' prepared,
        prepareMountDestination lossy faults through fs root rootfs destination sourceIsDir =
          (fs', .ok prepared) → prepared.rollback faults rootfs root fs' = fs) ∧
      ∀ fs' e,
        prepareMountDestination lossy faults through fs root rootfs destination sourceIsDir =
          (fs', .error e) → fs' = fs) ↔
      (UsableDestination destination → Starts faults fs root →
        (Opens faults fs root (namesOf destination) sourceIsDir →
          RollsBack faults fs rootfs root (namesOf destination)) ∧
        (¬ Opens faults fs root (namesOf destination) sourceIsDir → faults.opens root = false →
          ¬ Leaves faults fs root (directoryNames (namesOf destination) sourceIsDir))) := by
  by_cases hbegin : UsableDestination destination ∧ Starts faults fs root
  · obtain ⟨fs', result, heq, hgrows, hok, herror⟩ := @prepareMountDestination_spec lossy faults fs root
      through rootfs destination sourceIsDir hbegin.1 hbegin.2
    rw [heq, forall_prop_of_true hbegin.1, forall_prop_of_true hbegin.2]
    by_cases hopens : Opens faults fs root (namesOf destination) sourceIsDir
    · obtain ⟨hadded, path, rfl⟩ := hok hopens
      have hback := @rollback_eq_iff faults fs fs' root rootfs sourceIsDir path
        (root ++ namesOf destination) _ hbegin.2.2 hadded hgrows
      constructor
      · rintro ⟨h, -⟩
        exact ⟨fun _ ↦ hback.mp (h _ _ rfl), fun h ↦ absurd hopens h⟩
      · rintro ⟨h, -⟩
        refine ⟨?_, by simp⟩
        rintro fs'' prepared h'
        obtain ⟨rfl, hprepared⟩ := Prod.mk.inj h'
        obtain rfl := Except.ok.inj hprepared
        exact hback.mpr (h hopens)
    · obtain ⟨⟨e, rfl⟩, hchanged⟩ := herror hopens
      constructor
      · rintro ⟨-, h⟩
        refine ⟨fun h ↦ absurd h hopens, fun _ hroot hleaves ↦ ?_⟩
        exact hchanged.mpr ⟨hroot, hleaves⟩ (h _ _ rfl)
      · rintro ⟨-, h⟩
        refine ⟨by simp, fun fs'' e' heq' ↦ ?_⟩
        obtain ⟨rfl, -⟩ := Prod.mk.inj heq'
        by_contra hne
        obtain ⟨hroot, hleaves⟩ := hchanged.mp hne
        exact h hopens hroot hleaves
  · obtain ⟨e, heq⟩ := @prepareMountDestination_of_not lossy faults fs root through rootfs destination
      sourceIsDir hbegin
    rw [heq]
    refine iff_of_true ⟨by simp, fun fs' e' h ↦ ?_⟩ fun h₁ h₂ ↦ absurd ⟨h₁, h₂⟩ hbegin
    exact (Prod.mk.inj h).1.symm

end Prepare

/-- A rootfs with nothing in it. -/
def emptyRootfs : Fs where
  nodes := Finmap.singleton [] .directory
  parents dir name h := by simp at h

/-- The second directory cannot be made, and the first one stays. -/
theorem first_directory_stays :
    ∃ fs' e,
      prepareMountDestination (fun _ ↦ "") { mkdirs := fun path ↦ path = [[97], [98]] } (fun _ ↦ true)
        emptyRootfs [] (ofString "/rootfs") "/a/b" true = (fs', .error e) ∧
      emptyRootfs.lookup [[97]] = none ∧ fs'.lookup [[97]] = some .directory :=
  ⟨_, _, rfl, rfl, rfl⟩

/-! ## Where nothing is refused -/

/-- What a destination should be: the directories that are there on the way are directories, and what
is there at its end is one, or for a file neither one nor a link. -/
structure Acceptable (fs : Fs) (root components : List Name) (sourceIsDir : Bool) : Prop where
  directories : ∀ path, path ≠ [] → path <+: directoryNames components sourceIsDir →
    ∀ node, fs.lookup (root ++ path) = some node → node = .directory
  file : sourceIsDir = false → ∀ node, fs.lookup (root ++ components) = some node →
    node ≠ .directory ∧ ∀ target, node ≠ .symlink target

/-- The code accepts what it should, adds what is missing and nothing else, and knows what that is. -/
structure PreparesExactly (lossy : ByteArray → String) (faults : DestinationFaults)
    (through : List Name → Bool) (fs : Fs) (root : List Name) (rootfs : OsPath)
    (destination : String) (sourceIsDir : Bool) : Prop where
  accepts : (∃ fs' prepared,
      prepareMountDestination lossy faults through fs root rootfs destination sourceIsDir =
        (fs', .ok prepared)) ↔ Acceptable fs root (namesOf destination) sourceIsDir
  adds : ∀ fs' prepared,
    prepareMountDestination lossy faults through fs root rootfs destination sourceIsDir =
      (fs', .ok prepared) →
    (∀ path, fs'.lookup path =
      (fs.lookup path).or (newNode root (namesOf destination) sourceIsDir path)) ∧
    prepared.createdPaths.Nodup ∧
    ∀ path, (∃ way ∈ prepared.createdPaths, path = root ++ way) ↔
      fs.lookup path = none ∧ fs'.lookup path ≠ none
  inside : ∀ path, ¬ root <+: path →
    (prepareMountDestination lossy faults through fs root rootfs destination
      sourceIsDir).1.lookup path = fs.lookup path

/-- No call but `mkdirat` and the creation of the file is refused: the rootfs and the names are opened,
what is there is looked at, and the file at the end is none that is taken for a directory. -/
structure Unhindered (faults : DestinationFaults) (fs : Fs) (rootfs : OsPath)
    (root components : List Name) (sourceIsDir : Bool) : Prop where
  openRootfs : faults.openRootfs = false
  openRoot : faults.opens root = false
  names : ∀ name ∈ components, nameable name = true
  opens : ∀ way, way ≠ [] → way <+: components → faults.opens (root ++ way) = false
  reopens : ∀ way, way ≠ [] → way <+: directoryNames components sourceIsDir →
    fs.lookup (root ++ way) = none → faults.reopens (root ++ way) = false
  lstats : ∀ way, way ≠ [] → way <+: components → fs.lookup (root ++ way) ≠ none →
    faults.lstats (root ++ way) = false ∧ fits (candidate rootfs way) = true
  fstats : sourceIsDir = false → fs.lookup (root ++ components) ≠ none →
    faults.fstats (root ++ components) = false
  device : sourceIsDir = false → fs.lookup (root ++ components) ≠ some .blockDevice ∧
    fs.lookup (root ++ components) ≠ some .socket

section Exact

variable {components : List Name} {sourceIsDir : Bool} {rootfs : OsPath}

/-- All names can be looked for. -/
theorem forall_refuses_iff :
    (∀ way, way ≠ [] → way <+: components → faults.refuses (root ++ way) = false) ↔
      (∀ way, way ≠ [] → way <+: components → faults.opens (root ++ way) = false) ∧
        ∀ name ∈ components, nameable name = true := by
  have hlast (way : List Name) (name : Name) : faults.refuses (root ++ (way ++ [name])) = false ↔
      faults.opens (root ++ (way ++ [name])) = false ∧ nameable name = true := by
    rw [← List.append_assoc, refuses_concat]
    simp
  constructor
  · intro h
    refine ⟨fun way hne hway ↦ ?_, fun name hname ↦ ?_⟩
    · have hrefuses := h way hne hway
      obtain ⟨above, name, rfl⟩ := (List.eq_nil_or_concat' way).resolve_left hne
      exact ((hlast above name).mp hrefuses).1
    · obtain ⟨above, rest, rfl⟩ := List.append_of_mem hname
      have hrefuses := h (above ++ [name]) (by simp) ⟨rest, by simp⟩
      exact ((hlast above name).mp hrefuses).2
  · rintro ⟨hopens, hnames⟩ way hne hway
    have hopen := hopens way hne hway
    obtain ⟨above, name, rfl⟩ := (List.eq_nil_or_concat' way).resolve_left hne
    exact (hlast above name).mpr ⟨hopen, hnames name (hway.subset (by simp))⟩

theorem walks_iff {names : List Name} (hmkdirs : ∀ path, faults.mkdirs path = false) :
    Walks faults fs root names ↔
      (∀ path, path ≠ [] → path <+: names → faults.refuses (root ++ path) = false) ∧
        (∀ path, path ≠ [] → path <+: names →
          ∀ node, fs.lookup (root ++ path) = some node → node = .directory) ∧
        ∀ path, path ≠ [] → path <+: names → fs.lookup (root ++ path) = none →
          faults.reopens (root ++ path) = false := by
  have hpasses (path : List Name) : Passes faults fs path ↔ faults.refuses path = false ∧
      (∀ node, fs.lookup path = some node → node = .directory) ∧
        (fs.lookup path = none → faults.reopens path = false) := by
    cases hlookup : fs.lookup path with
    | none => simp [Passes, hlookup, hmkdirs]
    | some node => simp [Passes, hlookup]
  simp only [Walks, hpasses]
  exact ⟨fun h ↦ ⟨fun path hne hpath ↦ (h path hne hpath).1,
      fun path hne hpath ↦ (h path hne hpath).2.1, fun path hne hpath ↦ (h path hne hpath).2.2⟩,
    fun h path hne hpath ↦ ⟨h.1 path hne hpath, h.2.1 path hne hpath, h.2.2 path hne hpath⟩⟩

theorem lastPasses_iff {path : List Name} (hcreates : ∀ path, faults.creates path = false) :
    LastPasses faults fs path ↔
      faults.refuses path = false ∧
        (∀ node, fs.lookup path = some node →
          node ≠ .directory ∧ ∀ target, node ≠ .symlink target) ∧
        (fs.lookup path ≠ none → faults.fstats path = false) ∧
        fs.lookup path ≠ some .blockDevice ∧ fs.lookup path ≠ some .socket := by
  cases hlookup : fs.lookup path with
  | none => simp [LastPasses, hlookup, hcreates]
  | some node =>
    have hlooks := not_congr (@looksLikeDirectory_iff node)
    rw [Bool.not_eq_true, not_or, not_or] at hlooks
    simp only [Option.some.injEq, ne_eq, forall_eq']
    constructor
    · rintro ⟨hrefuses, ⟨hnone, -⟩ | ⟨other, hother, hlink, hfstat, hfile⟩⟩
      · rw [hlookup] at hnone
        exact absurd hnone (Option.some_ne_none _)
      · rw [hlookup] at hother
        obtain rfl := Option.some.inj hother
        obtain ⟨hdirectory, hdevice⟩ := hlooks.mp hfile
        exact ⟨hrefuses, ⟨hdirectory, hlink⟩, fun _ ↦ hfstat, hdevice⟩
    · rintro ⟨hrefuses, ⟨hdirectory, hlink⟩, hfstat, hdevice⟩
      exact ⟨hrefuses, .inr ⟨node, hlookup, hlink, hfstat (Option.some_ne_none _),
        hlooks.mpr ⟨hdirectory, hdevice⟩⟩⟩

/-- The names on the way to a file, and the file. -/
theorem forall_way_iff {p : List Name → Prop} (hcomponents : components ≠ []) :
    (∀ way, way ≠ [] → way <+: components → p way) ↔
      (∀ way, way ≠ [] → way <+: directoryNames components sourceIsDir → p way) ∧
        (sourceIsDir = false → p components) := by
  cases sourceIsDir with
  | true => simp [directoryNames]
  | false =>
    simp only [directoryNames, Bool.false_eq_true, if_false, true_imp_iff]
    constructor
    · intro h
      exact ⟨fun way hne hway ↦ h way hne (hway.trans (List.dropLast_prefix _)),
        h components hcomponents List.prefix_rfl⟩
    · rintro ⟨hnames, hfile⟩ way hne hway
      by_cases hlast : way = components
      · exact hlast ▸ hfile
      · exact hnames way hne (prefix_dropLast_of_ne hway hlast)

/-- If every directory and file can be made, the way can be gone exactly if it is acceptable and no
other call on it is refused. -/
theorem opens_iff (hcomponents : components ≠ []) (hmkdirs : ∀ path, faults.mkdirs path = false)
    (hcreates : ∀ path, faults.creates path = false) :
    Opens faults fs root components sourceIsDir ↔
      Acceptable fs root components sourceIsDir ∧ faults.opens root = false ∧
        (∀ way, way ≠ [] → way <+: components → faults.refuses (root ++ way) = false) ∧
        (∀ way, way ≠ [] → way <+: directoryNames components sourceIsDir →
          fs.lookup (root ++ way) = none → faults.reopens (root ++ way) = false) ∧
        (sourceIsDir = false → (fs.lookup (root ++ components) ≠ none →
          faults.fstats (root ++ components) = false) ∧
            fs.lookup (root ++ components) ≠ some .blockDevice ∧
            fs.lookup (root ++ components) ≠ some .socket) := by
  rw [Opens, walks_iff hmkdirs, lastPasses_iff hcreates,
    @forall_way_iff components sourceIsDir _ hcomponents]
  constructor
  · rintro ⟨hroot, ⟨hrefuses, hdirectories, hreopens⟩, hlast⟩
    exact ⟨⟨hdirectories, fun h ↦ (hlast h).2.1⟩, hroot, ⟨hrefuses, fun h ↦ (hlast h).1⟩, hreopens,
      fun h ↦ (hlast h).2.2⟩
  · rintro ⟨⟨hdirectories, hfile⟩, hroot, ⟨hrefuses, hrefuse⟩, hreopens, hlast⟩
    exact ⟨hroot, ⟨hrefuses, hdirectories, hreopens⟩, fun h ↦ ⟨hrefuse h, hfile h, hlast h⟩⟩

theorem unseen_eq_false_iff {way : List Name} (hnames : ∀ name ∈ way, nameable name = true) :
    unseen faults rootfs root way = false ↔
      faults.lstats (root ++ way) = false ∧ fits (candidate rootfs way) = true := by
  have hall : way.all nameable = true := List.all_eq_true.mpr hnames
  simp [unseen, reachable, hall]

/-- What is at the end of a way has directories above it. -/
theorem acceptable_of_lookup {node : FileNode} (h : fs.lookup (root ++ components) = some node)
    (hnode : node ≠ .directory) (hlink : ∀ target, node ≠ .symlink target) :
    Acceptable fs root components false where
  directories path hne hpath other hother := by
    obtain ⟨rest, hrest⟩ := hpath.trans (List.dropLast_prefix components)
    have hrest' : rest ≠ [] := by
      rintro rfl
      rw [List.append_nil] at hrest
      have hlength := hpath.length_le
      rw [hrest, directoryNames, if_neg Bool.false_ne_true, List.length_dropLast] at hlength
      have hpos := List.length_pos_of_ne_nil hne
      rw [hrest] at hpos
      omega
    rw [← hrest, ← List.append_assoc] at h
    rw [lookup_of_append hrest' (by rw [h]; exact Option.some_ne_none _)] at hother
    exact (Option.some.inj hother).symm
  file _ other hother := by
    rw [h] at hother
    obtain rfl := Option.some.inj hother
    exact ⟨hnode, hlink⟩

end Exact

/-- **When destinations are prepared as they should be**, if every `mkdirat` and every creation of a
file succeeds.  The code takes a block device or a socket for a directory, and so refuses to mount a file
there; it does not get to make a name that is too long; and it lists what is there behind a path that is
too long. -/
theorem preparesExactly_iff {lossy : ByteArray → String} {faults : DestinationFaults}
    {through : List Name → Bool} {fs : Fs} {root : List Name} {rootfs : OsPath} {destination : String}
    {sourceIsDir : Bool} (husable : UsableDestination destination)
    (hroot : fs.lookup root = some .directory) (hmkdirs : ∀ path, faults.mkdirs path = false)
    (hcreates : ∀ path, faults.creates path = false) :
    PreparesExactly lossy faults through fs root rootfs destination sourceIsDir ↔
      (Acceptable fs root (namesOf destination) sourceIsDir →
        Unhindered faults fs rootfs root (namesOf destination) sourceIsDir) := by
  have hopensIff := @opens_iff faults fs root (namesOf destination) sourceIsDir husable.notRoot hmkdirs
    hcreates
  by_cases hopenRootfs : faults.openRootfs = true
  · -- nothing is accepted
    obtain ⟨e, heq⟩ := @prepareMountDestination_of_not lossy faults fs root through rootfs destination
      sourceIsDir fun h ↦ by simp [h.2.1] at hopenRootfs
    constructor
    · intro h hacceptable
      obtain ⟨fs', prepared, hok⟩ := h.accepts.mpr hacceptable
      simp [heq] at hok
    · intro h
      have hnot : ¬ Acceptable fs root (namesOf destination) sourceIsDir := fun hacceptable ↦ by
        simp [(h hacceptable).openRootfs] at hopenRootfs
      exact ⟨iff_of_false (by simp [heq]) hnot, by simp [heq], by simp [heq]⟩
  have hopenRootfs : faults.openRootfs = false := by simpa using hopenRootfs
  obtain ⟨fs', result, heq, hgrows, hok, herror⟩ := @prepareMountDestination_spec lossy faults fs root
    through rootfs destination sourceIsDir husable ⟨hopenRootfs, hroot⟩
  have haccepts : (∃ fs' prepared,
      prepareMountDestination lossy faults through fs root rootfs destination sourceIsDir =
        (fs', .ok prepared)) ↔ Opens faults fs root (namesOf destination) sourceIsDir := by
    rw [heq]
    by_cases hopens : Opens faults fs root (namesOf destination) sourceIsDir
    · obtain ⟨-, path, rfl⟩ := hok hopens
      exact iff_of_true ⟨_, _, rfl⟩ hopens
    · obtain ⟨⟨e, rfl⟩, -⟩ := herror hopens
      exact iff_of_false (by simp) hopens
  constructor
  · intro h hacceptable
    have hopens := haccepts.mp (h.accepts.mpr hacceptable)
    obtain ⟨-, hdot, hrefuses, hreopens, hlast⟩ := hopensIff.mp hopens
    obtain ⟨hopen, hnames⟩ := forall_refuses_iff.mp hrefuses
    refine ⟨hopenRootfs, hdot, hnames, hopen, hreopens, fun way hne hway hsome ↦ ?_,
      fun hfile ↦ (hlast hfile).1, fun hfile ↦ (hlast hfile).2⟩
    -- what cannot be looked at is listed, and so is taken for new
    rw [← unseen_eq_false_iff fun name hname ↦ hnames name (hway.subset hname)]
    by_contra hunseen
    obtain ⟨hadded, path, rfl⟩ := hok hopens
    obtain ⟨-, -, hlisted⟩ := h.adds _ _ heq
    have hnew := (hlisted (root ++ way)).mp ⟨way, List.mem_filter.mpr
      ⟨mem_waysDown_iff.mpr ⟨hne, hway⟩, by simp [Listed, (Bool.not_eq_false _).mp hunseen]⟩, rfl⟩
    exact hsome hnew.1
  · intro hunhindered
    have hopens : Opens faults fs root (namesOf destination) sourceIsDir ↔
        Acceptable fs root (namesOf destination) sourceIsDir := by
      refine ⟨fun h ↦ (hopensIff.mp h).1, fun hacceptable ↦ hopensIff.mpr ?_⟩
      have h := hunhindered hacceptable
      exact ⟨hacceptable, h.openRoot, forall_refuses_iff.mpr ⟨h.opens, h.names⟩, h.reopens,
        fun hfile ↦ ⟨h.fstats hfile, h.device hfile⟩⟩
    refine ⟨haccepts.trans hopens, fun fs'' prepared h ↦ ?_, ?_⟩
    · have hgone := haccepts.mp ⟨_, _, h⟩
      have hfree := hunhindered (hopens.mp hgone)
      obtain ⟨hadded, path, rfl⟩ := hok hgone
      rw [heq] at h
      obtain ⟨rfl, hprepared⟩ := Prod.mk.inj h
      obtain rfl := Except.ok.inj hprepared
      have hlisted : (waysDown (namesOf destination)).filter (Listed faults fs rootfs root) =
          (waysDown (namesOf destination)).filter fun way ↦ (fs.lookup (root ++ way)).isNone := by
        refine List.filter_congr fun way hway ↦ ?_
        obtain ⟨hne, hunder⟩ := mem_waysDown_iff.mp hway
        cases hlookup : fs.lookup (root ++ way) with
        | none => simp [Listed, hlookup]
        | some node =>
          have hseen := (unseen_eq_false_iff fun name hname ↦ hfree.names name
            (hunder.subset hname)).mpr (hfree.lstats way hne hunder (by simp [hlookup]))
          simp [Listed, hlookup, hseen]
      rw [hlisted]
      refine ⟨hadded, ?_, fun path ↦ added_iff hroot hadded⟩
      refine ((pairwise_waysDown _).filter _).imp fun hlength ↦ ?_
      rintro rfl
      exact absurd hlength (Nat.lt_irrefl _)
    · rw [heq]
      exact hgrows.outside

/-- A file on a path where there is nothing. -/
theorem preparesExactly_empty :
    PreparesExactly (fun _ ↦ "") {} (fun _ ↦ true) emptyRootfs [] (ofString "/rootfs") "/etc/hosts"
      false := by
  refine (preparesExactly_iff (by decide) rfl (fun _ ↦ rfl) fun _ ↦ rfl).mpr fun _ ↦ ?_
  have hnothing (way : List Name) (hne : way ≠ []) : emptyRootfs.lookup ([] ++ way) = none := by
    rw [List.nil_append, FileSystem.lookup, emptyRootfs, Finmap.lookup_eq_none, Finmap.mem_singleton]
    exact hne
  exact
    { openRootfs := rfl
      openRoot := rfl
      names := by decide
      opens := fun _ _ _ ↦ rfl
      reopens := fun _ _ _ _ ↦ rfl
      lstats := fun way hne _ hsome ↦ absurd (hnothing way hne) hsome
      fstats := fun _ _ ↦ rfl
      device := fun _ ↦ ⟨by decide, by decide⟩ }

/-- A rootfs with one block device. -/
def deviceRootfs : Fs where
  nodes := (Finmap.singleton [] .directory).insert [[100]] .blockDevice
  parents dir name h := by
    rw [Finmap.mem_insert, Finmap.mem_singleton] at h
    obtain rfl : dir = [] := by simpa using congrArg List.length (h.resolve_right (by simp))
    decide

/-- A file cannot be mounted on the device, which is taken for a directory. -/
theorem device_is_refused :
    ∃ e,
      prepareMountDestination (fun _ ↦ "") {} (fun _ ↦ true) deviceRootfs [] (ofString "/rootfs") "/d"
        false = (deviceRootfs, .error e) ∧
      Acceptable deviceRootfs [] (namesOf "/d") false :=
  ⟨_, rfl, acceptable_of_lookup rfl (by simp) (by simp)⟩

end CrunRs.Filesystem.Destination
