import CrunRs.RootfsDiff

/-!
# When the listing of an overlay is faithful

A directory the walk comes to is a directory the container sees (`merged_of_mem_directories`), and
what is seen in it depends on it and on whether the lower tree shows through (`mergedFrom_append`).
Going down a path, the lower tree shows through until something on the way is listed
(`Plain.covered_of_differs`), so nothing is left out; and what is listed is so (`Plain.fits`), which
also makes every path be listed once.

All this needs that the upper tree is plain, and nothing less will do
(`diffOverlayDirs_faithful_iff`): no new directory is opaque, no directory replaces a file or a link
of the lower tree unless an opaque one covers it, and `exists` is not misled by links.
-/

set_option autoImplicit false

namespace CrunRs.RootfsDiff

open OsPath

/-! ## What is seen -/

theorem hides_iff {entries : Upper} {name : Name} :
    hides entries name = true ↔ ∃ entry ∈ entries.toList, Hides entry.1 entry.2 name := by
  rw [hides, List.any_eq_true]
  simp only [decide_eq_true_eq]

theorem of_shown_eq_some {entries : Upper} {name : Name} {entry : Upper ⊕ UpperFile}
    (h : shown entries name = some entry) : (name, entry) ∈ entries.toList ∧ Shows name entry := by
  obtain ⟨⟨name', entry'⟩, hfind, rfl⟩ := Option.map_eq_some_iff.mp h
  have hfound := List.find?_some hfind
  rw [decide_eq_true_eq] at hfound
  obtain ⟨rfl, hshows⟩ := hfound
  exact ⟨List.mem_of_find?_eq_some hfind, hshows⟩

theorem IsDirectory.eq_of_name_eq {entries : Upper} (h : IsDirectory entries)
    {entry other : Name × (Upper ⊕ UpperFile)} (hentry : entry ∈ entries.toList)
    (hother : other ∈ entries.toList) (heq : entry.1 = other.1) : entry = other :=
  List.inj_on_of_nodup_map h.distinct hentry hother heq

theorem IsDirectory.shown_eq_some {entries : Upper} (h : IsDirectory entries) {name : Name}
    {entry : Upper ⊕ UpperFile} (hentry : (name, entry) ∈ entries.toList)
    (hshows : Shows name entry) : shown entries name = some entry := by
  cases hshown : shown entries name with
  | none =>
    rw [shown, Option.map_eq_none_iff, List.find?_eq_none] at hshown
    exact absurd (hshown _ hentry) (by simpa using hshows)
  | some entry' =>
    have heq := h.eq_of_name_eq (of_shown_eq_some hshown).1 hentry rfl
    rw [(Prod.mk.inj heq).2]

/-- Nothing hides what is seen of the same directory. -/
theorem IsDirectory.hides_eq_false {entries : Upper} (h : IsDirectory entries) {name : Name}
    {entry : Upper ⊕ UpperFile} (hentry : (name, entry) ∈ entries.toList)
    (hshows : Shows name entry) : hides entries name = false := by
  rw [← Bool.not_eq_true, hides_iff]
  rintro ⟨other, hother, hmarker, ⟨hchar, heq⟩ | ⟨-, -, heq⟩⟩
  · rw [h.eq_of_name_eq hother hentry heq] at hchar
    exact absurd (hchar.symm.trans hshows.2.1) (by simp)
  · exact h.notBoth _ hentry other hother heq

/-- The walk can read the names of the directories it comes to. -/
structure IsReadable (entries : Upper) : Prop where
  isDirectory : ∀ dir ∈ entries.directories descends, IsDirectory dir.2
  readable : ∀ dir ∈ entries.directories descends, ∀ entry ∈ dir.2.toList, Readable entry.1

/-- **A directory the walk comes to is seen**, and what is seen in it depends on it alone and on whether
the lower tree shows through. -/
theorem mergedFrom_append (lower : Lower) {entries sub : Upper} (hread : IsReadable entries)
    (visible : Bool) (current : List Name) {path : List Name}
    (h : (path, sub) ∈ entries.directories descends) :
    ∃ visible', ∀ rest, mergedFrom lower entries visible current (path ++ rest) =
      mergedFrom lower sub visible' (current ++ path) rest := by
  induction path generalizing entries visible current with
  | nil =>
    obtain rfl := DirTree.mem_directories_nil.mp h
    exact ⟨visible, fun rest ↦ by rw [List.nil_append, List.append_nil]⟩
  | cons name path ih =>
    obtain ⟨entries', hmem, hdescends, hsub⟩ := DirTree.mem_directories_cons.mp h
    have hroot : ([], entries) ∈ entries.directories descends := DirTree.mem_directories_nil.mpr rfl
    have hdir : IsDirectory entries := hread.isDirectory _ hroot
    have hshows : Shows name (.inl entries') :=
      (descends_iff entries' (hdir.isName _ hmem).1 (hread.readable _ hroot _ hmem)).mp hdescends
    have hbelow : ∀ dir ∈ entries'.directories descends,
        (name :: dir.1, dir.2) ∈ entries.directories descends := fun dir hdir ↦
      DirTree.mem_directories_cons.mpr ⟨entries', hmem, hdescends, hdir⟩
    have hread' : IsReadable entries' :=
      { isDirectory := fun dir hdir ↦ hread.isDirectory (name :: dir.1, dir.2) (hbelow dir hdir)
        readable := fun dir hdir ↦ hread.readable (name :: dir.1, dir.2) (hbelow dir hdir) }
    obtain ⟨visible', hrest⟩ := ih hread' (visible &&
      lower.tree.lookup (current ++ [name]) = some .directory && !isOpaque entries')
      (current ++ [name]) hsub
    refine ⟨visible', fun rest ↦ ?_⟩
    rw [List.cons_append, mergedFrom, hdir.hides_eq_false hmem hshows, if_neg (by simp),
      hdir.shown_eq_some hmem hshows]
    dsimp only
    rw [hrest, List.append_assoc, List.singleton_append]

section Seen

variable {lower : Lower} {upper : UpperTree} {dir : List Name × Upper}
  {entry : Name × (Upper ⊕ UpperFile)}

theorem isReadable_of_isText (htext : IsText lower upper.entries) : IsReadable upper.entries :=
  { isDirectory := upper.isDirectory
    readable := fun _ hdir _ hentry ↦ readable_of_isText htext hdir hentry }

theorem merged_append (htext : IsText lower upper.entries)
    (hdir : dir ∈ upper.entries.directories descends) :
    ∃ visible, ∀ rest, merged lower upper.entries (dir.1 ++ rest) =
      mergedFrom lower dir.2 visible dir.1 rest :=
  mergedFrom_append lower (isReadable_of_isText htext) _ [] hdir

theorem merged_of_mem_directories (htext : IsText lower upper.entries)
    (hdir : dir ∈ upper.entries.directories descends) :
    merged lower upper.entries dir.1 = some .directory := by
  obtain ⟨visible, hrest⟩ := merged_append htext hdir
  have hhere := hrest []
  rwa [List.append_nil, mergedFrom] at hhere

/-- Above a directory there are directories. -/
theorem merged_of_isPrefix (htext : IsText lower upper.entries)
    (hdir : dir ∈ upper.entries.directories descends) {above : List Name} (h : above <+: dir.1) :
    merged lower upper.entries above = some .directory := by
  obtain ⟨sub, hsub⟩ := DirTree.exists_mem_directories_of_isPrefix hdir h
  exact merged_of_mem_directories htext hsub

theorem merged_of_file (htext : IsText lower upper.entries)
    (hdir : dir ∈ upper.entries.directories descends) (hentry : entry ∈ dir.2.toList)
    (hshows : Shows entry.1 entry.2) (hfile : entry.2.isRight = true) :
    merged lower upper.entries (dir.1 ++ [entry.1]) = some .upperFile := by
  obtain ⟨visible, hrest⟩ := merged_append htext hdir
  obtain ⟨name, data | data⟩ := entry
  · exact absurd hfile (by simp)
  · have hdirectory := upper.isDirectory _ hdir
    rw [hrest, mergedFrom, hdirectory.hides_eq_false hentry hshows,
      hdirectory.shown_eq_some hentry hshows]
    rfl

theorem mem_directories_of_shows (htext : IsText lower upper.entries)
    (hdir : dir ∈ upper.entries.directories descends) {name : Name} {sub : Upper}
    (hentry : (name, .inl sub) ∈ dir.2.toList) (hshows : Shows name (.inl sub)) :
    (dir.1 ++ [name], sub) ∈ upper.entries.directories descends := by
  refine DirTree.mem_directories_concat.mpr ⟨dir.2, hdir, hentry, ?_⟩
  have hname := ((upper.isDirectory _ hdir).isName _ hentry).1
  exact (descends_iff sub hname (readable_of_isText htext hdir hentry)).mpr hshows

theorem merged_of_shows (htext : IsText lower upper.entries)
    (hdir : dir ∈ upper.entries.directories descends) (hentry : entry ∈ dir.2.toList)
    (hshows : Shows entry.1 entry.2) :
    merged lower upper.entries (dir.1 ++ [entry.1]) ≠ none := by
  obtain ⟨name, sub | data⟩ := entry
  · rw [merged_of_mem_directories htext (mem_directories_of_shows htext hdir hentry hshows)]
    simp
  · rw [merged_of_file htext hdir hentry hshows rfl]
    simp

theorem merged_of_hides (htext : IsText lower upper.entries)
    (hdir : dir ∈ upper.entries.directories descends) (hentry : entry ∈ dir.2.toList) {name : Name}
    (hhides : Hides entry.1 entry.2 name) :
    merged lower upper.entries (dir.1 ++ [name]) = none := by
  obtain ⟨visible, hrest⟩ := merged_append htext hdir
  rw [hrest, mergedFrom, if_pos (hides_iff.mpr ⟨entry, hentry, hhides⟩)]

/-! ## The lower tree -/

/-- On the way to a directory there is no link. -/
theorem Lower.isLink_eq_false {path above : List Name}
    (h : lower.tree.lookup path = some .directory) (habove : above <+: path) :
    isLink (lower.tree.lookup above) = false := by
  obtain ⟨rest, rfl⟩ := habove
  have hdirectory : lower.tree.lookup above = some .directory := by
    by_cases hrest : rest = []
    · rwa [hrest, List.append_nil] at h
    · exact FileSystem.lookup_of_append hrest (by rw [h]; simp)
  rw [hdirectory]
  rfl

theorem Lower.pathExists_of_directory {path : List Name}
    (h : lower.tree.lookup path = some .directory) : lower.pathExists path = true := by
  rw [Lower.pathExists, if_neg, h]
  · rfl
  · rw [List.any_eq_true]
    rintro ⟨above, habove, hlink⟩
    rw [Lower.isLink_eq_false h ((List.mem_inits _ _).mp habove)] at hlink
    exact absurd hlink (by simp)

/-- What the tree has not got in one of its directories does not exist. -/
theorem Lower.pathExists_eq_false {path : List Name} {name : Name}
    (hdir : lower.tree.lookup path = some .directory)
    (h : lower.tree.lookup (path ++ [name]) = none) : lower.pathExists (path ++ [name]) = false := by
  rw [Lower.pathExists, if_neg, h]
  · rfl
  · rw [List.any_eq_true]
    rintro ⟨above, habove, hlink⟩
    rcases List.prefix_concat_iff.mp ((List.mem_inits _ _).mp habove) with rfl | habove
    · rw [h] at hlink
      exact absurd hlink (by simp [isLink])
    · rw [Lower.isLink_eq_false hdir habove] at hlink
      exact absurd hlink (by simp)

end Seen


/-! ## The order of the listing -/

instance : Std.TransCmp compareEntries :=
  inferInstanceAs (Std.TransCmp (compareLex (compareOn RootfsDiffEntry.path)
    (compareOn fun listed ↦ diffKindRank listed.kind)))

instance : Std.LawfulEqCmp compareEntries where
  eq_of_compare {left right} h := by
    obtain ⟨leftPath, leftKind⟩ := left
    obtain ⟨rightPath, rightKind⟩ := right
    obtain ⟨hpath, hrank⟩ := Ordering.then_eq_eq.mp h
    have hpath : leftPath = rightPath := Std.LawfulEqCmp.compare_eq_iff_eq.mp hpath
    have hrank : diffKindRank leftKind = diffKindRank rightKind :=
      Std.LawfulEqCmp.compare_eq_iff_eq.mp hrank
    have hkind : leftKind = rightKind := by
      cases leftKind <;> cases rightKind <;> first | rfl | exact absurd hrank (by decide)
    rw [hpath, hkind]

/-- **No path is listed twice** if there is only one kind a listed path can have. -/
theorem sortEntries_increasing {entries : List RootfsDiffEntry}
    (h : ∀ left ∈ entries, ∀ right ∈ entries, left.path = right.path → left.kind = right.kind) :
    (sortEntries entries).Pairwise fun left right ↦ left.path < right.path := by
  refine (Ordered.sortDedup_pairwise entries).imp_of_mem fun {left right} hleft hright hlt ↦ ?_
  rw [sortEntries, Ordered.mem_sortDedup] at hleft hright
  rcases Ordering.then_eq_lt.mp hlt with hpath | ⟨hpath, hrank⟩
  · exact compareOfLessAndEq_eq_lt.mp hpath
  · rw [Std.LawfulEqCmp.compare_eq_iff_eq] at hpath
    rw [h left hleft right hright hpath] at hrank
    exact absurd hrank (by simp)

section Main

variable {lower : Lower} {upper : UpperTree}

/-- A path is listed as one kind of change. -/
theorem Fits.unique {entries : Upper} {path : List Name} {kind kind' : RootfsDiffKind}
    (h : Fits lower entries path kind) (h' : Fits lower entries path kind') : kind = kind' := by
  cases kind <;> cases kind' <;> simp_all [Fits]

/-- What is hidden has a name, as long as it is not dots. -/
theorem isName_of_hides {entries : Upper} (hdir : IsDirectory entries) {name : Name}
    {entry : Name × (Upper ⊕ UpperFile)} (hentry : entry ∈ entries.toList)
    (hhides : Hides entry.1 entry.2 name)
    (hdots : isCharWhiteout entry.2 = false →
      entry.1 ≠ whiteoutPrefix ++ [46] ∧ entry.1 ≠ whiteoutPrefix ++ [46, 46]) :
    IsName ⟨name⟩ ∧ name ≠ [46, 46] := by
  have hname := hdir.isName _ hentry
  rcases hhides.2 with ⟨-, heq⟩ | ⟨hchar, hempty, heq⟩
  · rwa [← heq]
  · have hne := hdots hchar
    rw [heq] at hne hname
    refine ⟨⟨hempty, fun h ↦ hname.1.noSeparator (List.mem_append_right _ h), ?_⟩, ?_⟩
    · rintro rfl
      exact hne.1 rfl
    · rintro rfl
      exact hne.2 rfl

/-- A directory that is not in the lower tree as `exists` sees it is not there at all. -/
theorem Plain.lookup_eq_none (hplain : Plain lower upper.entries) {dir : List Name × Upper}
    (hdir : dir ∈ upper.entries.directories descends) (hlower : lower.pathExists dir.1 = false) :
    lower.tree.lookup dir.1 = none := by
  by_contra hpresent
  have hexists : lower.pathExists dir.1 = true := by
    by_cases hdirectory : lower.tree.lookup dir.1 = some .directory
    · exact Lower.pathExists_of_directory hdirectory
    · exact (hplain.covered dir hdir hpresent hdirectory).1
  exact absurd (hexists.symm.trans hlower) (by simp)

/-- **Nothing is listed that is not so.** -/
theorem Plain.fits (hplain : Plain lower upper.entries) (htext : IsText lower upper.entries)
    {path : List Name} {kind : RootfsDiffKind} (h : Lists lower upper.entries path kind) :
    Fits lower upper.entries path kind := by
  cases h with
  | marked hdir hcovers =>
    rw [Fits, merged_of_mem_directories htext hdir]
    exact ⟨by simp, hplain.notNew _ hdir hcovers⟩
  | hidden hdir hentry hhides =>
    have hname := isName_of_hides (upper.isDirectory _ hdir) hentry hhides
      (hplain.dots _ hdir _ hentry)
    rw [Fits, foldl_goTo_components _ hname.1 hname.2]
    exact merged_of_hides htext hdir hentry hhides
  | @created dir entry hdir hentry hshows hlower =>
    refine ⟨merged_of_shows htext hdir hentry hshows, ?_⟩
    obtain ⟨name, sub | data⟩ := entry
    · exact hplain.lookup_eq_none (mem_directories_of_shows htext hdir hentry hshows) hlower
    · have hfile := hplain.files _ hdir _ hentry rfl hshows
      rw [hlower] at hfile
      simpa using hfile
  | modified hdir hentry hshows hfile hlower =>
    exact ⟨merged_of_shows htext hdir hentry hshows,
      (hplain.files _ hdir _ hentry hfile hshows).mp hlower⟩

/-- A path at or below one that is listed. -/
def Covered (lower : Lower) (upper : Upper) (path : List Name) : Prop :=
  ∃ above kind, Lists lower upper above kind ∧ above <+: path

theorem Covered.mono {entries : Upper} {path path' : List Name} (h : Covered lower entries path)
    (hbelow : path <+: path') : Covered lower entries path' := by
  obtain ⟨above, kind, hlists, habove⟩ := h
  exact ⟨above, kind, hlists, habove.trans hbelow⟩

/-- A directory that does not show what the lower tree has there is covered. -/
theorem Plain.covered_of_not_visible (hplain : Plain lower upper.entries)
    (htext : IsText lower upper.entries) {dir : List Name × Upper}
    (hdir : dir ∈ upper.entries.directories descends)
    (hlower : lower.tree.lookup dir.1 = some .directory) {name : Name} {sub : Upper}
    (hentry : (name, .inl sub) ∈ dir.2.toList) (hshows : Shows name (.inl sub))
    (hvisible : ¬ (lower.tree.lookup (dir.1 ++ [name]) = some .directory ∧ isOpaque sub = false)) :
    Covered lower upper.entries (dir.1 ++ [name]) := by
  have hsub := mem_directories_of_shows htext hdir hentry hshows
  by_cases hmissing : lower.tree.lookup (dir.1 ++ [name]) = none
  · have hexists := Lower.pathExists_eq_false hlower hmissing
    exact ⟨_, _, Lists.created hdir hentry hshows hexists, List.prefix_refl _⟩
  by_cases hdirectory : lower.tree.lookup (dir.1 ++ [name]) = some .directory
  · have hcovers : isOpaque sub = true := by
      rw [← Bool.not_eq_false]
      exact fun h ↦ hvisible ⟨hdirectory, h⟩
    exact ⟨_, _, Lists.marked hsub hcovers, List.prefix_refl _⟩
  · obtain ⟨-, above, habove, hbelow, hcovers⟩ := hplain.covered _ hsub hmissing hdirectory
    exact ⟨_, _, Lists.marked habove hcovers, hbelow⟩

/-- **Nothing is left out**, by induction along the path: as long as nothing on the way is listed, the
lower tree shows through. -/
theorem Plain.covered_of_differs (hplain : Plain lower upper.entries)
    (htext : IsText lower upper.entries) {rest : List Name} {dir : List Name × Upper}
    (hdir : dir ∈ upper.entries.directories descends)
    (hlower : lower.tree.lookup dir.1 = some .directory)
    (hdiffers : mergedFrom lower dir.2 true dir.1 rest ≠ lower.seen (dir.1 ++ rest)) :
    Covered lower upper.entries (dir.1 ++ rest) := by
  induction rest generalizing dir with
  | nil =>
    rw [mergedFrom, List.append_nil, Lower.seen, hlower] at hdiffers
    exact absurd rfl hdiffers
  | cons name rest ih =>
    have hbelow : dir.1 ++ [name] <+: dir.1 ++ name :: rest :=
      (List.prefix_append_right_inj _).mpr ⟨rest, rfl⟩
    rw [mergedFrom] at hdiffers
    split at hdiffers
    · rename_i hhides
      obtain ⟨entry, hentry, hhides⟩ := hides_iff.mp hhides
      have hname := isName_of_hides (upper.isDirectory _ hdir) hentry hhides
        (hplain.dots _ hdir _ hentry)
      refine ⟨_, _, Lists.hidden hdir hentry hhides, ?_⟩
      rwa [foldl_goTo_components _ hname.1 hname.2]
    · split at hdiffers
      · rename_i sub hshown
        obtain ⟨hentry, hshows⟩ := of_shown_eq_some hshown
        by_cases hvisible : lower.tree.lookup (dir.1 ++ [name]) = some .directory ∧
            isOpaque sub = false
        · have hsub := mem_directories_of_shows htext hdir hentry hshows
          have hrest := @ih (dir.1 ++ [name], sub) hsub hvisible.1
          simp only [List.append_assoc, List.singleton_append] at hrest
          simp only [hvisible.1, hvisible.2, decide_true, Bool.not_false, Bool.and_self] at hdiffers
          exact hrest hdiffers
        · exact (hplain.covered_of_not_visible htext hdir hlower hentry hshows hvisible).mono hbelow
      · rename_i data hshown
        obtain ⟨hentry, hshows⟩ := of_shown_eq_some hshown
        cases hexists : lower.pathExists (dir.1 ++ [name]) with
        | true => exact ⟨_, _, Lists.modified hdir hentry hshows rfl hexists, hbelow⟩
        | false => exact ⟨_, _, Lists.created hdir hentry hshows hexists, hbelow⟩
      · exact absurd rfl hdiffers

theorem Plain.complete (hplain : Plain lower upper.entries) (htext : IsText lower upper.entries)
    {path : List Name} (hdiffers : merged lower upper.entries path ≠ lower.seen path) :
    Covered lower upper.entries path := by
  have hroot : ([], upper.entries) ∈ upper.entries.directories descends :=
    DirTree.mem_directories_nil.mpr rfl
  cases hcovers : isOpaque upper.entries with
  | true => exact ⟨_, _, Lists.marked hroot hcovers, List.nil_prefix⟩
  | false =>
    rw [merged, hcovers] at hdiffers
    exact hplain.covered_of_differs htext hroot lower.root hdiffers

/-- A listing is faithful if every path on it fits and every difference is covered. -/
theorem faithful_iff {lossy : ByteArray → String} (htext : IsText lower upper.entries) :
    Faithful lower upper.entries (diffOverlayDirs lossy lower upper.entries) ↔
      (∀ path kind, Lists lower upper.entries path kind → Fits lower upper.entries path kind) ∧
        ∀ path, merged lower upper.entries path ≠ lower.seen path →
          Covered lower upper.entries path := by
  constructor
  · intro h
    constructor
    · intro path kind hlists
      obtain ⟨listed, hlisted, rfl, rfl⟩ := exists_mem_of_lists lossy htext hlists
      exact h.fits listed hlisted
    · intro path hdiffers
      obtain ⟨listed, hlisted, habove⟩ := h.complete path hdiffers
      exact ⟨_, _, lists_of_mem htext hlisted, habove⟩
  · rintro ⟨hfits, hcovered⟩
    have hfits' : ∀ listed ∈ diffOverlayDirs lossy lower upper.entries,
        Fits lower upper.entries (pathOf listed.path) listed.kind := fun listed hlisted ↦
      hfits _ _ (lists_of_mem htext hlisted)
    refine ⟨sortEntries_increasing fun left hleft right hright hpath ↦ ?_, hfits',
      fun path hdiffers ↦ ?_⟩
    · have hkind := hfits' left (Ordered.mem_sortDedup.mpr hleft)
      rw [hpath] at hkind
      exact hkind.unique (hfits' right (Ordered.mem_sortDedup.mpr hright))
    · obtain ⟨above, kind, hlists, habove⟩ := hcovered path hdiffers
      obtain ⟨listed, hlisted, rfl, -⟩ := exists_mem_of_lists lossy htext hlists
      exact ⟨listed, hlisted, habove⟩

/-- A directory below the root is listed if the lower tree has nothing there. -/
theorem lists_created_of_mem_directories (htext : IsText lower upper.entries)
    {dir : List Name × Upper} (hdir : dir ∈ upper.entries.directories descends) (hroot : dir.1 ≠ [])
    (hlower : lower.pathExists dir.1 = false) : Lists lower upper.entries dir.1 .created := by
  obtain ⟨path, sub⟩ := dir
  obtain ⟨above, name, rfl⟩ := (List.eq_nil_or_concat' path).resolve_left hroot
  obtain ⟨parent, hparent, hentry, hdescends⟩ := DirTree.mem_directories_concat.mp hdir
  have hname := ((upper.isDirectory _ hparent).isName _ hentry).1
  have hreadable := readable_of_isText htext hparent hentry
  exact Lists.created hparent hentry ((descends_iff sub hname hreadable).mp hdescends) hlower

theorem Lower.seen_eq_directory_iff {path : List Name} :
    lower.seen path = some .directory ↔ lower.tree.lookup path = some .directory := by
  rw [Lower.seen, Option.map_eq_some_iff]
  constructor
  · rintro ⟨node, hnode, hseen⟩
    cases node with
    | directory => exact hnode
    | _ => simp [seenOf] at hseen
  · intro h
    exact ⟨.directory, h, rfl⟩

/-- A listing that leaves nothing out covers a directory over something else only by an opaque one. -/
theorem exists_isOpaque_of_covered (htext : IsText lower upper.entries)
    (hfits : ∀ path kind, Lists lower upper.entries path kind → Fits lower upper.entries path kind)
    {dir : List Name × Upper} (hdir : dir ∈ upper.entries.directories descends)
    (hlower : lower.tree.lookup dir.1 ≠ none) (hcovered : Covered lower upper.entries dir.1) :
    ∃ above ∈ upper.entries.directories descends, above.1 <+: dir.1 ∧ isOpaque above.2 = true := by
  obtain ⟨above, kind, hlists, habove⟩ := hcovered
  have hseen := merged_of_isPrefix htext hdir habove
  cases hlists with
  | marked hmarked hcovers => exact ⟨_, hmarked, habove, hcovers⟩
  | hidden hparent hentry hhides =>
    have hgone : merged lower upper.entries _ = none := hfits _ _ (.hidden hparent hentry hhides)
    rw [hseen] at hgone
    exact absurd hgone (by simp)
  | created hparent hentry hshows hexists =>
    obtain ⟨-, hnone⟩ := hfits _ _ (.created hparent hentry hshows hexists)
    obtain ⟨rest, hrest⟩ := habove
    rw [← hrest] at hlower
    exact absurd (FileSystem.lookup_append_eq_none rest hnone) hlower
  | modified hparent hentry hshows hfile hexists =>
    rw [merged_of_file htext hparent hentry hshows hfile] at hseen
    exact absurd hseen (by simp)

/-- **Where the listing is faithful the upper tree is plain.** -/
theorem plain_of_faithful (htext : IsText lower upper.entries)
    (hfits : ∀ path kind, Lists lower upper.entries path kind → Fits lower upper.entries path kind)
    (hcovered : ∀ path, merged lower upper.entries path ≠ lower.seen path →
      Covered lower upper.entries path) : Plain lower upper.entries where
  covered dir hdir hpresent hdirectory := by
    have hroot : dir.1 ≠ [] := by
      intro hempty
      rw [hempty] at hdirectory
      exact hdirectory lower.root
    refine ⟨?_, exists_isOpaque_of_covered htext hfits hdir hpresent (hcovered _ ?_)⟩
    · rw [← Bool.not_eq_false]
      intro hmissing
      exact hpresent (hfits _ _ (lists_created_of_mem_directories htext hdir hroot hmissing)).2
    · rw [merged_of_mem_directories htext hdir]
      exact fun heq ↦ hdirectory (Lower.seen_eq_directory_iff.mp heq.symm)
  notNew dir hdir hcovers := (hfits _ _ (.marked hdir hcovers)).2
  files dir hdir entry hentry hfile hshows := by
    cases hexists : lower.pathExists (dir.1 ++ [entry.1]) with
    | true =>
      have hpresent := (hfits _ _ (.modified hdir hentry hshows hfile hexists)).2
      simpa using hpresent
    | false =>
      have hmissing := (hfits _ _ (.created hdir hentry hshows hexists)).2
      simpa using hmissing
  dots dir hdir entry hentry hchar := by
    -- a whiteout of dots is listed as the deletion of a directory that is seen
    have hgone : ∀ {name}, Hides entry.1 entry.2 name →
        ¬ (OsPath.mk name).components.foldl goTo dir.1 <+: dir.1 := by
      intro name hhides hbelow
      have hnone : merged lower upper.entries _ = none := hfits _ _ (.hidden hdir hentry hhides)
      rw [merged_of_isPrefix htext hdir hbelow] at hnone
      exact absurd hnone (by simp)
    constructor
    · intro hname
      refine hgone ⟨?_, Or.inr ⟨hchar, by decide, hname⟩⟩ (List.prefix_refl _)
      rw [hname]
      decide
    · intro hname
      refine hgone ⟨?_, Or.inr ⟨hchar, by decide, hname⟩⟩ (List.dropLast_prefix _)
      rw [hname]
      decide

/-- **The listing of an overlay is faithful exactly if the upper tree is plain.** -/
theorem diffOverlayDirs_faithful_iff (lossy : ByteArray → String) (lower : Lower) (upper : UpperTree)
    (htext : IsText lower upper.entries) :
    Faithful lower upper.entries (diffOverlayDirs lossy lower upper.entries) ↔
      Plain lower upper.entries := by
  rw [faithful_iff htext]
  constructor
  · rintro ⟨hfits, hcovered⟩
    exact plain_of_faithful htext hfits hcovered
  · intro hplain
    exact ⟨fun _ _ ↦ hplain.fits htext, fun _ ↦ hplain.complete htext⟩

end Main


/-- A lower tree with the one file `etc/config`. -/
def configLower : Lower where
  tree :=
    { nodes := ((Finmap.singleton [] .directory).insert [(ofString "etc").bytes] .directory).insert
        [(ofString "etc").bytes, (ofString "config").bytes] (.regular [])
      parents := fun dir name h ↦ by
        rw [Finmap.mem_insert, Finmap.mem_insert, Finmap.mem_singleton] at h
        rcases h with h | h | h
        · obtain rfl : dir = [(ofString "etc").bytes] := by simpa using congrArg List.dropLast h
          decide
        · obtain rfl : dir = [] := by simpa using congrArg List.dropLast h
          decide
        · exact absurd h (by simp) }
  root := by decide
  through _ := false

/-- The file is changed, another one deleted, and a new one made. -/
def configUpper : UpperTree where
  entries :=
    .dir (ofString "etc").bytes
      (.file (ofString "config").bytes .other (.file (ofString ".wh.removed").bytes .other .nil))
      (.file (ofString "new-file").bytes .other .nil)
  isDirectory := by
    refine fun dir hdir ↦ ⟨?_, ?_, ?_⟩ <;> revert dir <;> decide

/-- The first overlay that the tests of the source look at. -/
theorem diffOverlayDirs_faithful_config :
    Faithful configLower configUpper.entries
      (diffOverlayDirs (fun _ ↦ "") configLower configUpper.entries) := by
  have hutf8 : ∀ dir ∈ configUpper.entries.directories descends, ∀ entry ∈ dir.2.toList,
      ∀ name ∈ dir.1 ++ [entry.1], IsUtf8 ⟨name⟩ := by decide
  exact (diffOverlayDirs_faithful_iff _ configLower configUpper
    fun dir hdir entry hentry ↦ Or.inl (hutf8 dir hdir entry hentry)).mpr
    ⟨by decide, by decide, by decide, by decide⟩

/-- A directory in the place of a file. -/
def replacedUpper : UpperTree where
  entries := .dir (ofString "etc").bytes (.dir (ofString "config").bytes .nil .nil) .nil
  isDirectory := by
    refine fun dir hdir ↦ ⟨?_, ?_, ?_⟩ <;> revert dir <;> decide

/-- Nothing is listed, and the file is gone. -/
theorem replaced_file_is_not_listed :
    ¬ Faithful configLower replacedUpper.entries
      (diffOverlayDirs (fun _ ↦ "") configLower replacedUpper.entries) := by
  intro h
  have hdiffers : merged configLower replacedUpper.entries
        [(ofString "etc").bytes, (ofString "config").bytes] ≠
      configLower.seen [(ofString "etc").bytes, (ofString "config").bytes] := by decide
  obtain ⟨listed, hlisted, -⟩ := h.complete _ hdiffers
  rw [diffOverlayDirs, sortEntries, Ordered.mem_sortDedup] at hlisted
  have hnone : collectDiffEntries (fun _ ↦ "") configLower [] replacedUpper.entries = [] := by decide
  rw [hnone] at hlisted
  exact absurd hlisted List.not_mem_nil

end CrunRs.RootfsDiff
