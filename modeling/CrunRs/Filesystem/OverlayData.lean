import CrunRs.Filesystem.OverlayTree
import CrunRs.Lib.Escape
import CrunRs.Lifecycle.Launch

/-!
# The data of the overlay mount

`setup_overlay_rootfs` gives the kernel the three directories in one text, without any escapes.  The
kernel splits it at commas and the lower directories at colons, unless these are escaped with a
backslash.  So it reads back what was meant exactly if none of these characters is in a path
(`mountData_roundTrip_iff`); paths are what the bundle says, and relative ones start with where the
bundle is.

The one direction is to read the text.  For the other one, escapes cost characters: an overlay with
the three directories meant has as many as the text, so there are no escapes, and then there are no
separators but the two that were written.
-/

set_option autoImplicit false

namespace CrunRs.Filesystem

open Escape

/-! ## The text -/

/-- The data of the mount; the merged directory is not in it. -/
def OverlayPaths.mountData (paths : OverlayPaths) : String :=
  "lowerdir=" ++ paths.lowerdir ++ ",upperdir=" ++ paths.upperdir ++ ",workdir=" ++ paths.workdir

/-- The paths of a configuration as they are displayed. -/
def displayed (lossy : ByteArray → String) (config : Lifecycle.OverlayConfig) : OverlayPaths where
  lowerdir := config.lowerdir.display lossy
  upperdir := config.upperdir.display lossy
  workdir := config.workdir.display lossy
  mergeddir := config.mergeddir.display lossy

/-- It is the data that the setup gives to the mount. -/
theorem OverlayTree.mountData_eq {κ : Type*} (display : List κ → String)
    (config : OverlayTree.OverlayConfig κ) :
    OverlayTree.mountData display config =
      OverlayPaths.mountData ⟨display config.lowerdir, display config.upperdir,
        display config.workdir, display config.mergeddir⟩ :=
  rfl

/-! ## The grammar -/

/-- What the overlay file system reads. -/
inductive OverlayOption
  | lowerdir (dirs : List String)
  | upperdir (dir : String)
  | workdir (dir : String)
  | other (text : String)
  deriving DecidableEq, Repr

/-- A text without its backslashes. -/
def unescaped (text : List Char) : String := String.ofList (unescape '\\' text)

/-- One option; the value of `lowerdir` is a list. -/
def parseOption (text : List Char) : OverlayOption :=
  if "lowerdir=".toList.isPrefixOf text then
    .lowerdir ((fields '\\' ':' (text.drop 9)).map unescaped)
  else if "upperdir=".toList.isPrefixOf text then .upperdir (unescaped (text.drop 9))
  else if "workdir=".toList.isPrefixOf text then .workdir (unescaped (text.drop 8))
  else .other (unescaped text)

/-- All options; nothing between two commas is no option. -/
def parseOptions (data : String) : List OverlayOption :=
  ((fields '\\' ',' data.toList).filter (· ≠ [])).map parseOption

example : parseOptions "lowerdir=/a:/b,index=on,,upperdir=/c\\,d" =
    [.lowerdir ["/a", "/b"], .other "index=on", .upperdir "/c,d"] := by decide

/-- The options that are meant. -/
def OverlayPaths.options (paths : OverlayPaths) : List OverlayOption :=
  [.lowerdir [paths.lowerdir], .upperdir paths.upperdir, .workdir paths.workdir]

/-- None of the characters that are read is in a path. -/
structure OverlayPaths.Plain (paths : OverlayPaths) : Prop where
  comma_lowerdir : ',' ∉ paths.lowerdir.toList
  colon_lowerdir : ':' ∉ paths.lowerdir.toList
  backslash_lowerdir : '\\' ∉ paths.lowerdir.toList
  comma_upperdir : ',' ∉ paths.upperdir.toList
  backslash_upperdir : '\\' ∉ paths.upperdir.toList
  comma_workdir : ',' ∉ paths.workdir.toList
  backslash_workdir : '\\' ∉ paths.workdir.toList

/-! ## Reading it -/

theorem toList_mountData (paths : OverlayPaths) :
    paths.mountData.toList = ("lowerdir=".toList ++ paths.lowerdir.toList) ++
      ',' :: (("upperdir=".toList ++ paths.upperdir.toList) ++
        ',' :: ("workdir=".toList ++ paths.workdir.toList)) := by
  simp [OverlayPaths.mountData]

theorem parseOption_lowerdir (value : List Char) :
    parseOption ("lowerdir=".toList ++ value) = .lowerdir ((fields '\\' ':' value).map unescaped) := by
  simp [parseOption]

theorem parseOption_upperdir (value : List Char) :
    parseOption ("upperdir=".toList ++ value) = .upperdir (unescaped value) := by
  simp [parseOption]

theorem parseOption_workdir (value : List Char) :
    parseOption ("workdir=".toList ++ value) = .workdir (unescaped value) := by
  simp [parseOption]

theorem unescaped_of_notMem {text : String} (h : '\\' ∉ text.toList) :
    unescaped text.toList = text := by
  rw [unescaped, unescape_of_notMem h, String.ofList_toList]

/-- Without commas and backslashes the three options are read one after the other. -/
theorem parseOptions_mountData {paths : OverlayPaths}
    (hcomma : ',' ∉ paths.lowerdir.toList ∧ ',' ∉ paths.upperdir.toList ∧
      ',' ∉ paths.workdir.toList)
    (hbackslash : '\\' ∉ paths.lowerdir.toList ∧ '\\' ∉ paths.upperdir.toList ∧
      '\\' ∉ paths.workdir.toList) :
    parseOptions paths.mountData =
      [.lowerdir ((fields '\\' ':' paths.lowerdir.toList).map unescaped),
        .upperdir paths.upperdir, .workdir paths.workdir] := by
  have hoption : ∀ {c : Char} {key value : List Char}, c ∉ key → c ∉ value → c ∉ key ++ value :=
    fun hkey hvalue h ↦ (List.mem_append.mp h).elim hkey hvalue
  rw [parseOptions, toList_mountData,
    fields_append_cons _ (hoption (by decide) hcomma.1) (hoption (by decide) hbackslash.1),
    fields_append_cons _ (hoption (by decide) hcomma.2.1) (hoption (by decide) hbackslash.2.1),
    fields_of_notMem (hoption (by decide) hcomma.2.2) (hoption (by decide) hbackslash.2.2)]
  rw [List.filter_eq_self.mpr (by simp)]
  simp only [List.map_cons, List.map_nil, parseOption_lowerdir, parseOption_upperdir,
    parseOption_workdir, unescaped_of_notMem hbackslash.2.1, unescaped_of_notMem hbackslash.2.2]

/-! ## What is read is not longer -/

/-- How many characters an option takes, with a separator after each of its values. -/
def OverlayOption.size : OverlayOption → ℕ
  | .lowerdir dirs => 9 + (dirs.map fun dir ↦ dir.length + 1).sum
  | .upperdir dir => 9 + (dir.length + 1)
  | .workdir dir => 8 + (dir.length + 1)
  | .other text => text.length + 1

theorem length_unescaped (text : List Char) :
    (unescaped text).length = (unescape '\\' text).length := by
  rw [unescaped, String.length_ofList]

theorem parseOption_cases (text : List Char) :
    (∃ value, text = "lowerdir=".toList ++ value ∧
      parseOption text = .lowerdir ((fields '\\' ':' value).map unescaped)) ∨
    (∃ value, text = "upperdir=".toList ++ value ∧
      parseOption text = .upperdir (unescaped value)) ∨
    (∃ value, text = "workdir=".toList ++ value ∧
      parseOption text = .workdir (unescaped value)) ∨
    parseOption text = .other (unescaped text) := by
  rw [parseOption]
  split_ifs with hlower hupper hwork
  · obtain ⟨value, rfl⟩ := List.isPrefixOf_iff_prefix.mp hlower
    exact Or.inl ⟨value, rfl, by simp⟩
  · obtain ⟨value, rfl⟩ := List.isPrefixOf_iff_prefix.mp hupper
    exact Or.inr (Or.inl ⟨value, rfl, by simp⟩)
  · obtain ⟨value, rfl⟩ := List.isPrefixOf_iff_prefix.mp hwork
    exact Or.inr (Or.inr (Or.inl ⟨value, rfl, by simp⟩))
  · exact Or.inr (Or.inr (Or.inr rfl))

/-- An option takes as much as the text it is read from, but for what its value loses. -/
theorem size_parseOption (text : List Char) :
    ∃ key value n, text = key ++ value ∧ '\\' ∉ key ∧ (parseOption text).size = key.length + n ∧
      n ≤ value.length + 1 ∧ ('\\' ∈ value → n < value.length + 1) := by
  have hone : ∀ value : List Char, (unescaped value).length + 1 ≤ value.length + 1 ∧
      ('\\' ∈ value → (unescaped value).length + 1 < value.length + 1) := by
    intro value
    rw [length_unescaped]
    exact ⟨Nat.succ_le_succ (length_unescape_le value),
      fun h ↦ Nat.succ_lt_succ (length_unescape_lt h)⟩
  rcases parseOption_cases text with ⟨value, rfl, h⟩ | ⟨value, rfl, h⟩ | ⟨value, rfl, h⟩ | h
  · refine ⟨_, value, _, rfl, by decide, by rw [h]; rfl, ?_⟩
    have hle : ∀ dir : List Char, (unescaped dir).length + 1 ≤ dir.length + 1 := fun dir ↦
      (hone dir).1
    rw [List.map_map]
    refine ⟨sum_fields_le hle, fun hmem ↦ sum_fields_lt hle ?_⟩
    obtain ⟨dir, hdir, hmem⟩ := exists_mem_fields '\\' (show '\\' ≠ ':' by decide) hmem
    exact ⟨dir, hdir, (hone dir).2 hmem⟩
  · exact ⟨_, value, _, rfl, by decide, by rw [h]; rfl, hone value⟩
  · exact ⟨_, value, _, rfl, by decide, by rw [h]; rfl, hone value⟩
  · exact ⟨[], text, _, rfl, List.not_mem_nil, by rw [h, List.length_nil, Nat.zero_add]; rfl,
      hone text⟩

/-- What a field between two commas takes: nothing, or an option. -/
def sizeOf (text : List Char) : ℕ := if text = [] then 0 else (parseOption text).size

theorem sizeOf_le (text : List Char) : sizeOf text ≤ text.length + 1 := by
  rw [sizeOf]
  split_ifs
  · exact Nat.zero_le _
  · obtain ⟨key, value, n, rfl, -, hsize, hle, -⟩ := size_parseOption text
    rw [hsize, List.length_append]
    omega

theorem sizeOf_lt {text : List Char} (h : '\\' ∈ text) : sizeOf text < text.length + 1 := by
  rw [sizeOf, if_neg (List.ne_nil_of_mem h)]
  obtain ⟨key, value, n, rfl, hkey, hsize, -, hlt⟩ := size_parseOption text
  have hlt := hlt ((List.mem_append.mp h).resolve_left hkey)
  rw [hsize, List.length_append]
  omega

theorem sum_size_parseOptions (data : String) :
    ((parseOptions data).map OverlayOption.size).sum =
      ((fields '\\' ',' data.toList).map sizeOf).sum := by
  rw [parseOptions, List.map_map]
  induction fields '\\' ',' data.toList with
  | nil => rfl
  | cons text texts ih =>
    rw [List.map_cons, List.sum_cons, ← ih, List.filter_cons, sizeOf]
    by_cases htext : text = [] <;> simp [htext]

theorem sum_size_options (paths : OverlayPaths) :
    (paths.options.map OverlayOption.size).sum = paths.mountData.toList.length + 1 := by
  have hlower : "lowerdir=".length = 9 := rfl
  have hupper : "upperdir=".length = 9 := rfl
  have hwork : "workdir=".length = 8 := rfl
  rw [toList_mountData]
  simp only [OverlayPaths.options, OverlayOption.size, List.map_cons, List.map_nil, List.sum_cons,
    List.sum_nil, List.length_append, List.length_cons, String.length_toList]
  omega

/-- If the options that are meant are read, nothing has been lost. -/
theorem sizeOf_eq_of_perm {paths : OverlayPaths}
    (h : (parseOptions paths.mountData).Perm paths.options) :
    ∀ text ∈ fields '\\' ',' paths.mountData.toList, sizeOf text = text.length + 1 := by
  intro text htext
  by_contra hne
  have hsum := (h.map OverlayOption.size).sum_eq
  rw [sum_size_parseOptions, sum_size_options] at hsum
  have hlt := sum_fields_lt sizeOf_le ⟨text, htext, lt_of_le_of_ne (sizeOf_le text) hne⟩
  omega

/-- Nor are there more commas than the two that are written. -/
theorem comma_notMem_of_perm {paths : OverlayPaths}
    (h : (parseOptions paths.mountData).Perm paths.options)
    (hbackslash : '\\' ∉ paths.mountData.toList) :
    ',' ∉ paths.lowerdir.toList ∧ ',' ∉ paths.upperdir.toList ∧ ',' ∉ paths.workdir.toList := by
  have hne : ∀ text ∈ fields '\\' ',' paths.mountData.toList, text ≠ [] := by
    rintro text htext rfl
    exact absurd (sizeOf_eq_of_perm h [] htext) (by decide)
  have hlength : (fields '\\' ',' paths.mountData.toList).length = 3 := by
    have hlength := h.length_eq
    rw [parseOptions, List.length_map, List.filter_eq_self.mpr (by simpa using hne)] at hlength
    exact hlength
  rw [length_fields hbackslash, toList_mountData] at hlength
  simp only [List.count_append, List.count_cons_self] at hlength
  refine ⟨?_, ?_, ?_⟩
  all_goals
    rw [← List.count_eq_zero]
    omega

/-- **The data of the mount is read back** exactly if the paths are plain. -/
theorem parseOptions_perm_iff (paths : OverlayPaths) :
    (parseOptions paths.mountData).Perm paths.options ↔ paths.Plain := by
  constructor
  · intro h
    have hbackslash : '\\' ∉ paths.mountData.toList := by
      intro hmem
      obtain ⟨text, htext, hmem⟩ := exists_mem_fields '\\' (show '\\' ≠ ',' by decide) hmem
      exact absurd (sizeOf_eq_of_perm h text htext) (sizeOf_lt hmem).ne
    have hcomma := comma_notMem_of_perm h hbackslash
    have hpaths : '\\' ∉ paths.lowerdir.toList ∧ '\\' ∉ paths.upperdir.toList ∧
        '\\' ∉ paths.workdir.toList := by
      rw [toList_mountData] at hbackslash
      simp_all
    rw [parseOptions_mountData hcomma hpaths] at h
    have hcolon : ':' ∉ paths.lowerdir.toList := by
      have hmem := h.subset List.mem_cons_self
      simp only [OverlayPaths.options, List.mem_cons, OverlayOption.lowerdir.injEq, reduceCtorEq,
        List.not_mem_nil, or_false] at hmem
      have hlength := congrArg List.length hmem
      rw [List.length_map, length_fields hpaths.1, List.length_singleton] at hlength
      rw [← List.count_eq_zero]
      omega
    exact ⟨hcomma.1, hcolon, hpaths.1, hcomma.2.1, hpaths.2.1, hcomma.2.2, hpaths.2.2⟩
  · intro h
    rw [parseOptions_mountData ⟨h.comma_lowerdir, h.comma_upperdir, h.comma_workdir⟩
      ⟨h.backslash_lowerdir, h.backslash_upperdir, h.backslash_workdir⟩,
      fields_of_notMem h.colon_lowerdir h.backslash_lowerdir, List.map_singleton,
      unescaped_of_notMem h.backslash_lowerdir]
    exact .rfl

/-! ## The paths of a bundle -/

/-- Where a relative path is put behind the bundle. -/
theorem resolveBundlePath_ofString (bundle path : String) :
    ∃ front, (front = "" ∨ front = bundle ∨ front = bundle ++ "/") ∧
      Lifecycle.resolveBundlePath (.ofString bundle) path = .ofString (front ++ path) := by
  have happend : ∀ front : String,
      OsPath.mk ((OsPath.ofString front).bytes ++ (OsPath.ofString path).bytes) =
        .ofString (front ++ path) :=
    fun front ↦ congrArg OsPath.mk (OsPath.bytes_ofString_append front path).symm
  have hpath : OsPath.ofString path = .ofString ("" ++ path) := by rw [String.empty_append]
  rw [Lifecycle.resolveBundlePath, OsPath.join]
  split_ifs
  · exact ⟨"", Or.inl rfl, hpath⟩
  · exact ⟨"", Or.inl rfl, hpath⟩
  · exact ⟨bundle, Or.inr (Or.inl rfl), happend bundle⟩
  · refine ⟨bundle ++ "/", Or.inr (Or.inr rfl), ?_⟩
    rw [← happend, OsPath.bytes_ofString_append, List.append_assoc]
    rfl

/-- None of the characters that are read is in a text. -/
def Clear (text : String) : Prop :=
  ',' ∉ text.toList ∧ ':' ∉ text.toList ∧ '\\' ∉ text.toList

theorem clear_resolveBundlePath (lossy : ByteArray → String) {bundle path : String}
    (hbundle : Clear bundle) (hpath : Clear path) :
    Clear ((Lifecycle.resolveBundlePath (.ofString bundle) path).display lossy) := by
  obtain ⟨front, hfront, h⟩ := resolveBundlePath_ofString bundle path
  rw [h, OsPath.display_ofString]
  rcases hfront with rfl | rfl | rfl
  · simpa [Clear] using hpath
  · simp_all [Clear]
  · simp_all [Clear]

/-- **A bundle whose paths are clear**, and that is itself at such a path, mounts what it says. -/
theorem parseOptions_resolveOverlayConfig (lossy : ByteArray → String) {bundle rootPath : String}
    {crun : Option CrunConfig} {overlay : CrunOverlay} {config : Lifecycle.OverlayConfig}
    (hoverlay : crun.bind CrunConfig.overlay = some overlay)
    (h : Lifecycle.resolveOverlayConfig (.ofString bundle) rootPath crun = some config)
    (hbundle : Clear bundle) (hlower : Clear (overlay.lowerdir.getD rootPath))
    (hupper : Clear overlay.upperdir) (hwork : Clear overlay.workdir) :
    (parseOptions (displayed lossy config).mountData).Perm (displayed lossy config).options := by
  simp only [Lifecycle.resolveOverlayConfig, hoverlay] at h
  split_ifs at h
  · obtain rfl := Option.some.inj h
    obtain ⟨hcomma, hcolon, hbackslash⟩ := clear_resolveBundlePath lossy hbundle hlower
    obtain ⟨hcomma', -, hbackslash'⟩ := clear_resolveBundlePath lossy hbundle hupper
    obtain ⟨hcomma'', -, hbackslash''⟩ := clear_resolveBundlePath lossy hbundle hwork
    exact (parseOptions_perm_iff _).mpr
      ⟨hcomma, hcolon, hbackslash, hcomma', hbackslash', hcomma'', hbackslash''⟩

/-! ## Configurations -/

/-- The configuration with these paths. -/
def configOf (lowerdir upperdir workdir mergeddir : String) : Lifecycle.OverlayConfig :=
  ⟨.ofString lowerdir, .ofString upperdir, .ofString workdir, .ofString mergeddir⟩

theorem displayed_configOf (lossy : ByteArray → String)
    (lowerdir upperdir workdir mergeddir : String) :
    displayed lossy (configOf lowerdir upperdir workdir mergeddir) =
      ⟨lowerdir, upperdir, workdir, mergeddir⟩ := by
  simp only [displayed, configOf, OsPath.display_ofString]

/-- **The data of the mount means what it says** for exactly the configurations without a comma or a
backslash in the three paths, and without a colon in the lower directory. -/
theorem mountData_roundTrip_iff (lossy : ByteArray → String)
    (lowerdir upperdir workdir mergeddir : String) :
    (parseOptions (displayed lossy (configOf lowerdir upperdir workdir mergeddir)).mountData).Perm
        [.lowerdir [lowerdir], .upperdir upperdir, .workdir workdir] ↔
      OverlayPaths.Plain ⟨lowerdir, upperdir, workdir, mergeddir⟩ := by
  rw [displayed_configOf]
  exact parseOptions_perm_iff _

/-- A bundle at `/srv/a:b` has two lower directories. -/
theorem colon_not_roundTrip :
    ¬ (parseOptions (displayed (fun _ ↦ "") (configOf "/srv/a:b/rootfs" "/srv/a:b/upper"
        "/srv/a:b/work" "/srv/a:b/merged")).mountData).Perm
      [.lowerdir ["/srv/a:b/rootfs"], .upperdir "/srv/a:b/upper", .workdir "/srv/a:b/work"] := by
  rw [displayed_configOf]
  decide

end CrunRs.Filesystem
