import CrunRs.Lib.DirTree
import CrunRs.Lib.FileSystem
import CrunRs.Lib.Ordered
import Mathlib.Data.List.Infix

/-!
# The changes an overlay holds

An overlay shows a lower tree through an upper one.  What the container has changed is all in the upper
tree, so the listing of the changes (`diffOverlayDirs`) walks the upper tree and asks of each path in it
only whether the lower tree has it too.

What the container sees is said by `merged`, path by path, and `Faithful` is what a listing should be:
it follows from the two trees alone.  `Lists` says path by path what is listed, with the texts gone
(`lists_of_mem`, `exists_mem_of_lists`), as far as the names are text.
-/

set_option autoImplicit false

namespace CrunRs.RootfsDiff

open OsPath

abbrev Name := List UInt8

inductive RootfsDiffKind
  | created
  | modified
  | deleted
  deriving DecidableEq, Repr

structure RootfsDiffEntry where
  path : String
  kind : RootfsDiffKind
  deriving DecidableEq, Repr

/-! ## The two trees -/

/-- A file of the upper tree, which is a whiteout if it is a character device with the number 0. -/
inductive UpperFile
  | charDevice (rdev : Nat)
  | other
  deriving DecidableEq, Repr

/-- The entries of a directory of the upper tree, as `read_dir` returns them. -/
abbrev Upper := DirTree Name UpperFile

/-- The lower tree.  Its links may lead anywhere, so what is at a path that goes through one is not for
the tree to say: `through` is the answer of the host. -/
structure Lower where
  tree : FileSystem Name
  root : tree.lookup [] = some .directory
  through : List Name → Bool

def isLink : Option FileNode → Bool
  | some (.symlink _) => true
  | _ => false

/-- `Path::exists`, which follows links, of a path below the lower directory. -/
def Lower.pathExists (lower : Lower) (path : List Name) : Bool :=
  if path.inits.any fun above ↦ isLink (lower.tree.lookup above) then lower.through path
  else (lower.tree.lookup path).isSome

/-! ## The listing -/

/-- `OsStr::to_str`. -/
def toStr (name : Name) : Option String := String.fromUTF8? (OsPath.mk name).toByteArray

def isOpaqueMarker (name : Name) : Bool := toStr name = some ".wh..wh..opq"

def isCharWhiteout : Upper ⊕ UpperFile → Bool
  | .inr (.charDevice rdev) => rdev = 0
  | _ => false

/-- A path below the upper directory, as the container names it; `lossy` replaces what is no text. -/
def containerPath (lossy : ByteArray → String) (path : List Name) : String :=
  if path = [] then "/" else "/" ++ (ofParts path).display lossy

/-- The name that a whiteout file has in its own name. -/
def deletedName (name : Name) : Option String := do
  let name ← toStr name
  let deleted ← name.toList.dropPrefix? ".wh.".toList
  if deleted = [] ∨ deleted = ".wh..opq".toList then none else some (String.ofList deleted)

/-- The deleted name is joined to the directory, where a single dot adds nothing. -/
def whiteoutDeletedPath (lossy : ByteArray → String) (current : List Name) (name : Name)
    (entry : Upper ⊕ UpperFile) : Option String :=
  if isCharWhiteout entry then some (containerPath lossy (current ++ [name]))
  else (deletedName name).map fun deleted ↦
    containerPath lossy (current ++ (ofString deleted).components)

/-- What is listed for an entry that is there only to mark something. -/
def markEntry (lossy : ByteArray → String) (current : List Name) (name : Name)
    (entry : Upper ⊕ UpperFile) : Option RootfsDiffEntry :=
  if isOpaqueMarker name then some ⟨containerPath lossy current, .modified⟩
  else (whiteoutDeletedPath lossy current name entry).map fun path ↦ ⟨path, .deleted⟩

def collectDiffEntries (lossy : ByteArray → String) (lower : Lower) :
    List Name → Upper → List RootfsDiffEntry
  | _, .nil => []
  | current, .dir name entries rest =>
    let path := current ++ [name]
    (match markEntry lossy current name (.inl entries) with
      | some mark => [mark]
      | none =>
        (if lower.pathExists path then [] else [⟨containerPath lossy path, .created⟩]) ++
          collectDiffEntries lossy lower path entries) ++
      collectDiffEntries lossy lower current rest
  | current, .file name data rest =>
    let path := current ++ [name]
    (match markEntry lossy current name (.inr data) with
      | some mark => mark
      | none =>
        ⟨containerPath lossy path, if lower.pathExists path then .modified else .created⟩) ::
      collectDiffEntries lossy lower current rest

def diffKindRank : RootfsDiffKind → Nat
  | .created => 0
  | .modified => 1
  | .deleted => 2

def compareEntries (left right : RootfsDiffEntry) : Ordering :=
  (compare left.path right.path).then (compare (diffKindRank left.kind) (diffKindRank right.kind))

def sortEntries (entries : List RootfsDiffEntry) : List RootfsDiffEntry :=
  Ordered.sortDedup compareEntries entries

def diffOverlayDirs (lossy : ByteArray → String) (lower : Lower) (upper : Upper) :
    List RootfsDiffEntry :=
  sortEntries (collectDiffEntries lossy lower [] upper)

/-! ## What the container sees -/

def markerName : Name := (ofString ".wh..wh..opq").bytes

def whiteoutPrefix : Name := (ofString ".wh.").bytes

/-- An entry of the upper tree that hides what the lower tree has under a name: a character device has
that name itself, anything else has it in its own. -/
def Hides (name : Name) (entry : Upper ⊕ UpperFile) (hidden : Name) : Prop :=
  name ≠ markerName ∧
    (isCharWhiteout entry = true ∧ name = hidden ∨
      isCharWhiteout entry = false ∧ hidden ≠ [] ∧ name = whiteoutPrefix ++ hidden)

instance (name : Name) (entry : Upper ⊕ UpperFile) (hidden : Name) :
    Decidable (Hides name entry hidden) :=
  inferInstanceAs (Decidable (_ ∧ (_ ∧ _ ∨ _ ∧ _ ∧ _)))

/-- An entry of the upper tree that the container sees, and not only its effect. -/
def Shows (name : Name) (entry : Upper ⊕ UpperFile) : Prop :=
  name ≠ markerName ∧ isCharWhiteout entry = false ∧
    (whiteoutPrefix <+: name → name = whiteoutPrefix)

instance (name : Name) (entry : Upper ⊕ UpperFile) : Decidable (Shows name entry) :=
  inferInstanceAs (Decidable (_ ∧ _ ∧ (_ → _)))

/-- The directory hides all that the lower tree has in it. -/
def isOpaque (entries : Upper) : Bool := entries.toList.any fun entry ↦ entry.1 = markerName

def hides (entries : Upper) (name : Name) : Bool :=
  entries.toList.any fun entry ↦ Hides entry.1 entry.2 name

/-- The entry the container sees under a name. -/
def shown (entries : Upper) (name : Name) : Option (Upper ⊕ UpperFile) :=
  (entries.toList.find? fun entry ↦ entry.1 = name ∧ Shows entry.1 entry.2).map Prod.snd

/-- What can be seen at a path: a directory, or a file and the layer it comes from. -/
inductive Seen
  | directory
  | upperFile
  | lowerFile (node : FileNode)
  deriving DecidableEq, Repr

def seenOf : FileNode → Seen
  | .directory => .directory
  | node => .lowerFile node

def Lower.seen (lower : Lower) (path : List Name) : Option Seen :=
  (lower.tree.lookup path).map seenOf

/-- What is seen at a path in a directory of the upper tree; `visible` says that the directory which the
lower tree has there shows through. -/
def mergedFrom (lower : Lower) : Upper → Bool → List Name → List Name → Option Seen
  | _, _, _, [] => some .directory
  | entries, visible, current, name :: rest =>
    if hides entries name then none
    else match shown entries name with
      | some (.inl sub) =>
        mergedFrom lower sub
          (visible && lower.tree.lookup (current ++ [name]) = some .directory && !isOpaque sub)
          (current ++ [name]) rest
      | some (.inr _) => if rest = [] then some .upperFile else none
      | none => if visible then lower.seen (current ++ name :: rest) else none

def merged (lower : Lower) (upper : Upper) (path : List Name) : Option Seen :=
  mergedFrom lower upper (!isOpaque upper) [] path

/-- One step along a path, where two dots go up. -/
def goTo (dir : List Name) (part : Name) : List Name :=
  if part = [46, 46] then dir.dropLast else dir ++ [part]

/-- The path a listed text names. -/
def pathOf (text : String) : List Name := (ofString text).components.foldl goTo []

/-- What is said of a path that is listed as some kind of change. -/
def Fits (lower : Lower) (upper : Upper) (path : List Name) : RootfsDiffKind → Prop
  | .created => merged lower upper path ≠ none ∧ lower.tree.lookup path = none
  | .modified => merged lower upper path ≠ none ∧ lower.tree.lookup path ≠ none
  | .deleted => merged lower upper path = none

/-- A listing says what the overlay has changed: no path twice, nothing that is not so, and nothing left
out that is not below something listed. -/
structure Faithful (lower : Lower) (upper : Upper) (entries : List RootfsDiffEntry) : Prop where
  increasing : entries.Pairwise fun left right ↦ left.path < right.path
  fits : ∀ listed ∈ entries, Fits lower upper (pathOf listed.path) listed.kind
  complete : ∀ path, merged lower upper path ≠ lower.seen path →
    ∃ listed ∈ entries, pathOf listed.path <+: path

/-! ## Upper trees -/

/-- The names whose directories the walk goes into. -/
def descends (name : Name) : Bool := !isOpaqueMarker name && (deletedName name).isNone

/-- The entries of one directory: names, no two the same, and never a name and a whiteout of it. -/
structure IsDirectory (entries : Upper) : Prop where
  isName : ∀ entry ∈ entries.toList, IsName ⟨entry.1⟩ ∧ entry.1 ≠ [46, 46]
  distinct : (entries.toList.map Prod.fst).Nodup
  notBoth : ∀ entry ∈ entries.toList, ∀ other ∈ entries.toList, other.1 ≠ whiteoutPrefix ++ entry.1

structure UpperTree where
  entries : Upper
  isDirectory : ∀ dir ∈ entries.directories descends, IsDirectory dir.2

/-- All paths are text, except those of directories that the lower tree has too: for them nothing is
listed. -/
def IsText (lower : Lower) (upper : Upper) : Prop :=
  ∀ dir ∈ upper.directories descends, ∀ entry ∈ dir.2.toList,
    (∀ name ∈ dir.1 ++ [entry.1], IsUtf8 ⟨name⟩) ∨
      entry.2.isLeft = true ∧ lower.pathExists (dir.1 ++ [entry.1]) = true ∧
        (whiteoutPrefix <+: entry.1 → entry.1 = whiteoutPrefix)

/-- The upper trees whose listing is faithful. -/
structure Plain (lower : Lower) (upper : Upper) : Prop where
  /-- A directory over a file or a link of the lower tree: the link does not dangle, and the directory
  is opaque or in an opaque one. -/
  covered : ∀ dir ∈ upper.directories descends, lower.tree.lookup dir.1 ≠ none →
    lower.tree.lookup dir.1 ≠ some .directory → lower.pathExists dir.1 = true ∧
      ∃ above ∈ upper.directories descends, above.1 <+: dir.1 ∧ isOpaque above.2 = true
  /-- No new directory is opaque. -/
  notNew : ∀ dir ∈ upper.directories descends, isOpaque dir.2 = true →
    lower.tree.lookup dir.1 ≠ none
  /-- Links do not mislead `exists`. -/
  files : ∀ dir ∈ upper.directories descends, ∀ entry ∈ dir.2.toList, entry.2.isRight = true →
    Shows entry.1 entry.2 → (lower.pathExists (dir.1 ++ [entry.1]) = true ↔
      lower.tree.lookup (dir.1 ++ [entry.1]) ≠ none)
  /-- No whiteout is of the directory itself, or of the one above it. -/
  dots : ∀ dir ∈ upper.directories descends, ∀ entry ∈ dir.2.toList,
    isCharWhiteout entry.2 = false →
      entry.1 ≠ whiteoutPrefix ++ [46] ∧ entry.1 ≠ whiteoutPrefix ++ [46, 46]

/-! ## Names -/

theorem toStr_eq_some_iff {name : Name} {s : String} :
    toStr name = some s ↔ name = (ofString s).bytes := by
  constructor
  · intro h
    rw [toStr, String.fromUTF8?] at h
    split at h
    · obtain rfl := Option.some.inj h
      rfl
    · simp at h
  · rintro rfl
    rw [toStr, OsPath.toByteArray_ofString, String.fromUTF8?, dif_pos s.isValidUTF8]
    rfl

theorem isOpaqueMarker_iff {name : Name} : isOpaqueMarker name = true ↔ name = markerName := by
  rw [isOpaqueMarker, decide_eq_true_iff, toStr_eq_some_iff, markerName]

theorem deletedName_eq_some_iff {name : Name} {deleted : String} :
    deletedName name = some deleted ↔
      name = whiteoutPrefix ++ (ofString deleted).bytes ∧ deleted ≠ "" ∧ name ≠ markerName := by
  have hmarker : (ofString (".wh." ++ deleted)).bytes = markerName ↔ deleted = ".wh..opq" := by
    constructor
    · intro h
      have heq : ".wh." ++ deleted = ".wh." ++ ".wh..opq" := ofString_injective (congrArg OsPath.mk h)
      exact (String.append_right_inj ".wh.").mp heq
    · rintro rfl
      rfl
  have hbytes : whiteoutPrefix ++ (ofString deleted).bytes = (ofString (".wh." ++ deleted)).bytes :=
    (bytes_ofString_append _ _).symm
  constructor
  · intro h
    simp only [deletedName, Option.bind_eq_bind, Option.bind_eq_some_iff] at h
    obtain ⟨s, hs, rest, hrest, hdeleted⟩ := h
    obtain ⟨front, hfront, hpat⟩ := List.dropPrefix?_eq_some_iff.mp hrest
    split at hdeleted
    · simp at hdeleted
    · rename_i hne
      rw [not_or] at hne
      obtain rfl := Option.some.inj hdeleted
      have htext : s = ".wh." ++ String.ofList rest := by
        apply String.ext
        simp [hfront, eq_of_beq hpat]
      have hname : name = (ofString (".wh." ++ String.ofList rest)).bytes := by
        rw [← htext]
        exact toStr_eq_some_iff.mp hs
      refine ⟨hname.trans hbytes.symm, fun hempty ↦ hne.1 ?_, fun heq ↦ hne.2 ?_⟩
      · simpa using congrArg String.toList hempty
      · simpa using congrArg String.toList (hmarker.mp (hname.symm.trans heq))
  · rintro ⟨hname, hempty, hne⟩
    rw [hbytes] at hname
    simp only [deletedName, Option.bind_eq_bind, Option.bind_eq_some_iff]
    refine ⟨_, toStr_eq_some_iff.mpr hname, deleted.toList,
      List.dropPrefix?_eq_some_iff.mpr ⟨".wh.".toList, by simp, by simp⟩, ?_⟩
    rw [if_neg, String.ofList_toList]
    rintro (h | h)
    · exact hempty (String.toList_eq_nil_iff.mp h)
    · exact hne (hname.trans (hmarker.mpr (String.toList_injective h)))


/-- The name is text, or at least the walk takes it for what it is. -/
def Readable (name : Name) : Prop := IsUtf8 ⟨name⟩ ∨ ¬ whiteoutPrefix <+: name

theorem deletedName_eq_none {name : Name} (h : whiteoutPrefix <+: name → name = whiteoutPrefix) :
    deletedName name = none := by
  rw [Option.eq_none_iff_forall_ne_some]
  intro deleted hdeleted
  obtain ⟨hname, hempty, -⟩ := deletedName_eq_some_iff.mp hdeleted
  have heq := h (hname ▸ List.prefix_append _ _)
  rw [hname, List.append_right_eq_self] at heq
  exact hempty (ofString_injective (congrArg OsPath.mk heq))

/-- **What an entry is there for**: it marks its directory, or hides a name, or is seen itself. -/
theorem marker_or_hides_or_shows (name : Name) (entry : Upper ⊕ UpperFile) :
    name = markerName ∨ (∃ hidden, Hides name entry hidden) ∨ Shows name entry := by
  by_cases hmarker : name = markerName
  · exact Or.inl hmarker
  cases hchar : isCharWhiteout entry with
  | true => exact Or.inr (Or.inl ⟨name, hmarker, Or.inl ⟨hchar, rfl⟩⟩)
  | false =>
    by_cases hwhiteout : whiteoutPrefix <+: name → name = whiteoutPrefix
    · exact Or.inr (Or.inr ⟨hmarker, hchar, hwhiteout⟩)
    · obtain ⟨⟨hidden, rfl⟩, hne⟩ := Classical.not_imp.mp hwhiteout
      refine Or.inr (Or.inl ⟨hidden, hmarker, Or.inr ⟨hchar, ?_, rfl⟩⟩)
      rintro rfl
      exact hne (List.append_nil _)

section Mark

variable (lossy : ByteArray → String) (current : List Name) {name hidden : Name}
  {entry : Upper ⊕ UpperFile}

theorem markEntry_of_marker (h : name = markerName) :
    markEntry lossy current name entry = some ⟨containerPath lossy current, .modified⟩ := by
  rw [markEntry, if_pos (isOpaqueMarker_iff.mpr h)]

theorem markEntry_of_hides (hname : IsName ⟨name⟩) (htext : Readable name)
    (h : Hides name entry hidden) : markEntry lossy current name entry =
      some ⟨containerPath lossy (current ++ (OsPath.mk hidden).components), .deleted⟩ := by
  obtain ⟨hmarker, h⟩ := h
  rw [markEntry, if_neg (mt isOpaqueMarker_iff.mp hmarker), whiteoutDeletedPath]
  rcases h with ⟨hchar, rfl⟩ | ⟨hchar, hempty, rfl⟩
  · rw [if_pos hchar, hname.components]
    rfl
  · rcases htext with hutf8 | hreserved
    · obtain ⟨deleted, hdeleted⟩ := isUtf8_iff.mp (isUtf8_of_append hutf8)
      obtain rfl : hidden = (ofString deleted).bytes := congrArg OsPath.bytes hdeleted
      have hsome : deletedName (whiteoutPrefix ++ (ofString deleted).bytes) = some deleted := by
        refine deletedName_eq_some_iff.mpr ⟨rfl, ?_, hmarker⟩
        rintro rfl
        exact hempty rfl
      rw [if_neg (by simp [hchar]), hsome]
      rfl
    · exact absurd (List.prefix_append _ _) hreserved

theorem markEntry_of_shows (h : Shows name entry) : markEntry lossy current name entry = none := by
  obtain ⟨hmarker, hchar, hwhiteout⟩ := h
  rw [markEntry, if_neg (mt isOpaqueMarker_iff.mp hmarker), whiteoutDeletedPath,
    if_neg (by simp [hchar]), deletedName_eq_none hwhiteout]
  rfl

end Mark

/-! ## The walk -/

/-- What the walk lists for one entry. -/
def report (lossy : ByteArray → String) (lower : Lower) (current : List Name)
    (entry : Name × (Upper ⊕ UpperFile)) : List RootfsDiffEntry :=
  match markEntry lossy current entry.1 entry.2 with
  | some mark => [mark]
  | none =>
    if lower.pathExists (current ++ [entry.1]) = false then
      [⟨containerPath lossy (current ++ [entry.1]), .created⟩]
    else if entry.2.isRight then [⟨containerPath lossy (current ++ [entry.1]), .modified⟩]
    else []

/-- A directory is gone into if it is there for itself. -/
theorem descends_iff_markEntry (lossy : ByteArray → String) (current : List Name) (name : Name)
    (entries : Upper) :
    descends name = true ↔ markEntry lossy current name (.inl entries) = none := by
  have hchar : isCharWhiteout (.inl entries) = false := rfl
  rw [descends, markEntry, whiteoutDeletedPath, hchar]
  cases isOpaqueMarker name <;> cases deletedName name <;> simp

/-- The walk goes into the directories the container sees, if it can read their names. -/
theorem descends_iff {name : Name} (entries : Upper) (hname : IsName ⟨name⟩)
    (htext : Readable name) : descends name = true ↔ Shows name (.inl entries) := by
  rw [descends_iff_markEntry (fun _ ↦ "") [] name entries]
  constructor
  · intro hnone
    rcases marker_or_hides_or_shows name (.inl entries) with hmarker | ⟨hidden, hhides⟩ | hshows
    · rw [markEntry_of_marker _ _ hmarker] at hnone
      simp at hnone
    · rw [markEntry_of_hides _ _ hname htext hhides] at hnone
      simp at hnone
    · exact hshows
  · exact markEntry_of_shows _ _

theorem collectDiffEntries_dir (lossy : ByteArray → String) (lower : Lower) (current : List Name)
    (name : Name) (entries rest : Upper) :
    collectDiffEntries lossy lower current (.dir name entries rest) =
      report lossy lower current (name, .inl entries) ++
        ((if descends name then collectDiffEntries lossy lower (current ++ [name]) entries else []) ++
          collectDiffEntries lossy lower current rest) := by
  rw [collectDiffEntries, report, ← List.append_assoc]
  congr 1
  cases hmark : markEntry lossy current name (.inl entries) with
  | some mark =>
    have hdescends : ¬ descends name = true := by
      rw [descends_iff_markEntry lossy current name entries, hmark]
      simp
    simp [hdescends]
  | none =>
    have hdescends := (descends_iff_markEntry lossy current name entries).mpr hmark
    cases lower.pathExists (current ++ [name]) <;> simp [hdescends]

theorem collectDiffEntries_file (lossy : ByteArray → String) (lower : Lower) (current : List Name)
    (name : Name) (data : UpperFile) (rest : Upper) :
    collectDiffEntries lossy lower current (.file name data rest) =
      report lossy lower current (name, .inr data) ++ collectDiffEntries lossy lower current rest := by
  rw [collectDiffEntries, report]
  cases hmark : markEntry lossy current name (.inr data) with
  | some mark => rfl
  | none => cases lower.pathExists (current ++ [name]) <;> simp

/-- **The walk lists what there is to list for the entries of the directories it comes to.** -/
theorem mem_collectDiffEntries {lossy : ByteArray → String} {lower : Lower} {current : List Name}
    {entries : Upper} {listed : RootfsDiffEntry} :
    listed ∈ collectDiffEntries lossy lower current entries ↔
      ∃ dir ∈ entries.directories descends, ∃ entry ∈ dir.2.toList,
        listed ∈ report lossy lower (current ++ dir.1) entry := by
  rw [DirTree.directories]
  simp only [List.mem_cons, exists_eq_or_imp, List.append_nil]
  induction entries generalizing current with
  | nil => simp [collectDiffEntries, DirTree.toList, DirTree.subdirectories]
  | file name data rest ih =>
    rw [collectDiffEntries_file, List.mem_append, ih, DirTree.toList, DirTree.subdirectories]
    simp only [List.mem_cons, exists_eq_or_imp]
    rw [or_assoc]
  | dir name entries rest ihentries ihrest =>
    -- what is listed below this entry, as the walk of it and as part of the whole
    have hentry : (listed ∈ if descends name then
          collectDiffEntries lossy lower (current ++ [name]) entries else []) ↔
        descends name ∧ ∃ dir ∈ entries.directories descends, ∃ entry ∈ dir.2.toList,
          listed ∈ report lossy lower (current ++ name :: dir.1) entry := by
      split
      · rename_i hname
        rw [ihentries, DirTree.directories]
        simp only [hname, true_and, List.mem_cons, exists_eq_or_imp, List.append_assoc,
          List.singleton_append]
      · rename_i hname
        simp [hname]
    rw [collectDiffEntries_dir, List.mem_append, List.mem_append, hentry, ihrest, DirTree.toList,
      DirTree.exists_subdirectories_dir]
    simp only [List.mem_cons, or_and_right, exists_or, exists_eq_left]
    rw [← or_assoc, or_or_or_comm]

/-! ## Texts and paths -/

/-- **What is listed for a path names that path**, if it is text. -/
theorem pathOf_containerPath (lossy : ByteArray → String) {path : List Name}
    (hname : ∀ name ∈ path, IsName ⟨name⟩) (htext : ∀ name ∈ path, IsUtf8 ⟨name⟩) :
    pathOf (containerPath lossy path) = path.foldl goTo [] := by
  rw [pathOf, containerPath]
  split
  · rename_i hpath
    rw [hpath]
    decide
  · congr 1
    have hdisplay : ofString ((ofParts path).display lossy) = ofParts path :=
      ofString_display_iff.mpr (isUtf8_ofParts htext)
    have hbytes : ofString ("/" ++ (ofParts path).display lossy) =
        ⟨[] ++ separator :: (ofParts path).bytes⟩ := by
      have happend := congrArg OsPath.mk (bytes_ofString_append "/" ((ofParts path).display lossy))
      rwa [hdisplay] at happend
    rw [hbytes, components_append_separator, components_nil, List.nil_append]
    exact components_ofParts hname

theorem foldl_goTo (dir : List Name) {path : List Name} (h : ∀ name ∈ path, name ≠ [46, 46]) :
    path.foldl goTo dir = dir ++ path := by
  induction path generalizing dir with
  | nil => exact (List.append_nil _).symm
  | cons name path ih =>
    rw [List.forall_mem_cons] at h
    rw [List.foldl_cons, goTo, if_neg h.1, ih _ h.2, List.append_assoc, List.singleton_append]

/-- The path of a name that is hidden, if it is one and not dots. -/
theorem foldl_goTo_components (dir : List Name) {name : Name} (hname : IsName ⟨name⟩)
    (hdots : name ≠ [46, 46]) : (OsPath.mk name).components.foldl goTo dir = dir ++ [name] := by
  rw [hname.components]
  exact foldl_goTo dir (by simpa using hdots)

theorem UpperTree.isName_of_mem_directories {upper : UpperTree} {dir : List Name × Upper}
    (h : dir ∈ upper.entries.directories descends) :
    ∀ name ∈ dir.1, IsName ⟨name⟩ ∧ name ≠ [46, 46] := by
  obtain ⟨path, sub⟩ := dir
  induction path using List.reverseRecOn generalizing sub with
  | nil => simp
  | append_singleton path last ih =>
    obtain ⟨parent, hparent, hlast, -⟩ := DirTree.mem_directories_concat.mp h
    rw [List.forall_mem_append, List.forall_mem_singleton]
    exact ⟨ih parent hparent, (upper.isDirectory _ hparent).isName _ hlast⟩

/-! ## What is listed -/

/-- The paths that are listed, and as what. -/
inductive Lists (lower : Lower) (upper : Upper) : List Name → RootfsDiffKind → Prop
  | marked {dir : List Name × Upper} (hdir : dir ∈ upper.directories descends)
      (hcovers : isOpaque dir.2 = true) : Lists lower upper dir.1 .modified
  | hidden {dir : List Name × Upper} {entry : Name × (Upper ⊕ UpperFile)} {name : Name}
      (hdir : dir ∈ upper.directories descends) (hentry : entry ∈ dir.2.toList)
      (hhides : Hides entry.1 entry.2 name) :
      Lists lower upper ((OsPath.mk name).components.foldl goTo dir.1) .deleted
  | created {dir : List Name × Upper} {entry : Name × (Upper ⊕ UpperFile)}
      (hdir : dir ∈ upper.directories descends) (hentry : entry ∈ dir.2.toList)
      (hshows : Shows entry.1 entry.2) (hlower : lower.pathExists (dir.1 ++ [entry.1]) = false) :
      Lists lower upper (dir.1 ++ [entry.1]) .created
  | modified {dir : List Name × Upper} {entry : Name × (Upper ⊕ UpperFile)}
      (hdir : dir ∈ upper.directories descends) (hentry : entry ∈ dir.2.toList)
      (hshows : Shows entry.1 entry.2) (hfile : entry.2.isRight = true)
      (hlower : lower.pathExists (dir.1 ++ [entry.1]) = true) :
      Lists lower upper (dir.1 ++ [entry.1]) .modified

theorem isOpaque_iff {entries : Upper} :
    isOpaque entries = true ↔ ∃ entry ∈ entries.toList, entry.1 = markerName := by
  rw [isOpaque, List.any_eq_true]
  simp only [decide_eq_true_eq]

theorem whiteoutPrefix_isPrefix_markerName : whiteoutPrefix <+: markerName := by decide

theorem markerName_ne_whiteoutPrefix : markerName ≠ whiteoutPrefix := by decide

theorem Hides.not_shows {name hidden : Name} {entry : Upper ⊕ UpperFile} (h : Hides name entry hidden) :
    ¬ Shows name entry := by
  rintro ⟨-, hchar, hwhiteout⟩
  rcases h.2 with ⟨hchar', -⟩ | ⟨-, hempty, rfl⟩
  · exact absurd (hchar.symm.trans hchar') (by simp)
  · exact hempty (List.append_right_eq_self.mp (hwhiteout (List.prefix_append _ _)))

section Listing

variable {lower : Lower} {upper : UpperTree} {dir : List Name × Upper}
  {entry : Name × (Upper ⊕ UpperFile)}

/-- A directory named only `.wh.` is one like any other. -/
theorem readable_of_isText (htext : IsText lower upper.entries)
    (hdir : dir ∈ upper.entries.directories descends) (hentry : entry ∈ dir.2.toList) :
    Readable entry.1 := by
  rcases htext dir hdir entry hentry with hutf8 | ⟨-, -, hreserved⟩
  · exact Or.inl (hutf8 _ (by simp))
  · by_cases hwhiteout : whiteoutPrefix <+: entry.1
    · rw [hreserved hwhiteout]
      exact Or.inl (isUtf8_ofString ".wh.")
    · exact Or.inr hwhiteout

/-- A path that is listed is text. -/
theorem isUtf8_of_isText (htext : IsText lower upper.entries)
    (hdir : dir ∈ upper.entries.directories descends) (hentry : entry ∈ dir.2.toList)
    (hlisted : Shows entry.1 entry.2 →
      entry.2.isRight = true ∨ lower.pathExists (dir.1 ++ [entry.1]) = false) :
    ∀ name ∈ dir.1 ++ [entry.1], IsUtf8 ⟨name⟩ := by
  refine (htext dir hdir entry hentry).resolve_right ?_
  rintro ⟨hleft, hlower, hreserved⟩
  obtain ⟨name, sub | data⟩ := entry
  · have hshows : Shows name (.inl sub) := by
      refine ⟨?_, rfl, hreserved⟩
      rintro rfl
      exact markerName_ne_whiteoutPrefix (hreserved whiteoutPrefix_isPrefix_markerName)
    rcases hlisted hshows with hright | hmissing
    · exact absurd hright (by simp)
    · exact absurd (hlower.symm.trans hmissing) (by simp)
  · exact absurd hleft (by simp)

theorem pathOf_shown (lossy : ByteArray → String) (htext : IsText lower upper.entries)
    (hdir : dir ∈ upper.entries.directories descends) (hentry : entry ∈ dir.2.toList)
    (hlisted : entry.2.isRight = true ∨ lower.pathExists (dir.1 ++ [entry.1]) = false) :
    pathOf (containerPath lossy (dir.1 ++ [entry.1])) = dir.1 ++ [entry.1] := by
  have hnames : ∀ name ∈ dir.1 ++ [entry.1], IsName ⟨name⟩ ∧ name ≠ [46, 46] := by
    rw [List.forall_mem_append, List.forall_mem_singleton]
    exact ⟨upper.isName_of_mem_directories hdir, (upper.isDirectory _ hdir).isName _ hentry⟩
  rw [pathOf_containerPath lossy (fun name h ↦ (hnames name h).1)
    (isUtf8_of_isText htext hdir hentry fun _ ↦ hlisted)]
  exact foldl_goTo [] fun name h ↦ (hnames name h).2

theorem pathOf_marked (lossy : ByteArray → String) (htext : IsText lower upper.entries)
    (hdir : dir ∈ upper.entries.directories descends) (hentry : entry ∈ dir.2.toList)
    (hmarker : entry.1 = markerName) : pathOf (containerPath lossy dir.1) = dir.1 := by
  have hnames := upper.isName_of_mem_directories hdir
  have hutf8 := isUtf8_of_isText htext hdir hentry fun hshows ↦ absurd hmarker hshows.1
  rw [pathOf_containerPath lossy (fun name h ↦ (hnames name h).1)
    (fun name h ↦ hutf8 name (List.mem_append_left _ h))]
  exact foldl_goTo [] fun name h ↦ (hnames name h).2

theorem pathOf_hidden (lossy : ByteArray → String) (htext : IsText lower upper.entries)
    (hdir : dir ∈ upper.entries.directories descends) (hentry : entry ∈ dir.2.toList) {name : Name}
    (hhides : Hides entry.1 entry.2 name) :
    pathOf (containerPath lossy (dir.1 ++ (OsPath.mk name).components)) =
      (OsPath.mk name).components.foldl goTo dir.1 := by
  have hnames := upper.isName_of_mem_directories hdir
  have hutf8 := isUtf8_of_isText htext hdir hentry fun hshows ↦ absurd hshows hhides.not_shows
  have hentryName := ((upper.isDirectory _ hdir).isName _ hentry).1
  rw [List.forall_mem_append, List.forall_mem_singleton] at hutf8
  have hhidden : IsUtf8 ⟨name⟩ ∧ separator ∉ name := by
    rcases hhides.2 with ⟨-, heq⟩ | ⟨-, -, heq⟩
    · rw [← heq]
      exact ⟨hutf8.2, hentryName.noSeparator⟩
    · rw [heq] at hutf8 hentryName
      exact ⟨isUtf8_of_append hutf8.2, fun h ↦ hentryName.noSeparator (List.mem_append_right _ h)⟩
  have hparts : ∀ part ∈ (OsPath.mk name).components, part = name := fun part hpart ↦
    eq_of_mem_components hhidden.2 hpart
  rw [pathOf_containerPath, List.foldl_append, foldl_goTo [] fun name h ↦ (hnames name h).2]
  · rfl
  · rw [List.forall_mem_append]
    exact ⟨fun name h ↦ (hnames name h).1, fun part hpart ↦ isName_of_mem_components hpart⟩
  · rw [List.forall_mem_append]
    exact ⟨hutf8.1, fun part hpart ↦ hparts part hpart ▸ hhidden.1⟩

/-- **Everything listed is listed for a reason.** -/
theorem lists_of_mem {lossy : ByteArray → String} {listed : RootfsDiffEntry}
    (htext : IsText lower upper.entries) (h : listed ∈ diffOverlayDirs lossy lower upper.entries) :
    Lists lower upper.entries (pathOf listed.path) listed.kind := by
  rw [diffOverlayDirs, sortEntries, Ordered.mem_sortDedup, mem_collectDiffEntries] at h
  obtain ⟨dir, hdir, entry, hentry, hlisted⟩ := h
  rw [List.nil_append, report] at hlisted
  have hname := ((upper.isDirectory _ hdir).isName _ hentry).1
  have hreadable := readable_of_isText htext hdir hentry
  rcases marker_or_hides_or_shows entry.1 entry.2 with hmarker | ⟨name, hhides⟩ | hshows
  · rw [markEntry_of_marker _ _ hmarker, List.mem_singleton] at hlisted
    rw [hlisted, pathOf_marked lossy htext hdir hentry hmarker]
    exact Lists.marked hdir (isOpaque_iff.mpr ⟨entry, hentry, hmarker⟩)
  · rw [markEntry_of_hides _ _ hname hreadable hhides, List.mem_singleton] at hlisted
    rw [hlisted, pathOf_hidden lossy htext hdir hentry hhides]
    exact Lists.hidden hdir hentry hhides
  · rw [markEntry_of_shows _ _ hshows] at hlisted
    dsimp only at hlisted
    split at hlisted
    · rename_i hlower
      rw [List.mem_singleton] at hlisted
      rw [hlisted, pathOf_shown lossy htext hdir hentry (Or.inr hlower)]
      exact Lists.created hdir hentry hshows hlower
    · rename_i hlower
      split at hlisted
      · rename_i hfile
        rw [List.mem_singleton] at hlisted
        rw [hlisted, pathOf_shown lossy htext hdir hentry (Or.inl hfile)]
        exact Lists.modified hdir hentry hshows hfile (by simpa using hlower)
      · exact absurd hlisted List.not_mem_nil

/-- **Everything there is a reason for is listed.** -/
theorem exists_mem_of_lists (lossy : ByteArray → String) {path : List Name} {kind : RootfsDiffKind}
    (htext : IsText lower upper.entries) (h : Lists lower upper.entries path kind) :
    ∃ listed ∈ diffOverlayDirs lossy lower upper.entries,
      pathOf listed.path = path ∧ listed.kind = kind := by
  -- it is enough that it is listed for one of the entries
  have hmem : ∀ {dir entry text kind}, dir ∈ upper.entries.directories descends →
      entry ∈ dir.2.toList → ⟨text, kind⟩ ∈ report lossy lower dir.1 entry → pathOf text = path →
      ∃ listed ∈ diffOverlayDirs lossy lower upper.entries,
        pathOf listed.path = path ∧ listed.kind = kind := by
    intro dir entry text kind hdir hentry hlisted hpath
    refine ⟨⟨text, kind⟩, ?_, hpath, rfl⟩
    rw [diffOverlayDirs, sortEntries, Ordered.mem_sortDedup, mem_collectDiffEntries]
    exact ⟨dir, hdir, entry, hentry, hlisted⟩
  cases h with
  | marked hdir hcovers =>
    obtain ⟨entry, hentry, hmarker⟩ := isOpaque_iff.mp hcovers
    refine hmem hdir hentry ?_ (pathOf_marked lossy htext hdir hentry hmarker)
    rw [report, markEntry_of_marker _ _ hmarker]
    exact List.mem_singleton_self _
  | hidden hdir hentry hhides =>
    have hname := ((upper.isDirectory _ hdir).isName _ hentry).1
    refine hmem hdir hentry ?_ (pathOf_hidden lossy htext hdir hentry hhides)
    rw [report, markEntry_of_hides _ _ hname (readable_of_isText htext hdir hentry) hhides]
    exact List.mem_singleton_self _
  | created hdir hentry hshows hlower =>
    refine hmem hdir hentry ?_ (pathOf_shown lossy htext hdir hentry (Or.inr hlower))
    rw [report, markEntry_of_shows _ _ hshows]
    simp [hlower]
  | modified hdir hentry hshows hfile hlower =>
    refine hmem hdir hentry ?_ (pathOf_shown lossy htext hdir hentry (Or.inl hfile))
    rw [report, markEntry_of_shows _ _ hshows]
    simp [hlower, hfile]

end Listing

end CrunRs.RootfsDiff
