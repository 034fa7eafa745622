import CrunRs.Error
import CrunRs.Lib.Text

/-!
# Finding the cgroup mount

`cgroup_root` of `cgroup/mod.rs`: the mount point of the first `cgroup2` mount, looked up in
`/proc/self/mountinfo`.

The kernel writes a space, a tab, a line feed and a backslash of a path as a code (`render`).  The
code takes the codes back, one after the other, and gets every path right (`unescape_escape`).  But it
splits the fields at any white space there is in Unicode, and the kernel writes all but those three
as they are.  So what it finds is the second word of the mount's root and mount point, and that is
the mount point exactly if neither is cut by such white space (`findCgroup2Mountpoint_render_iff`),
or the root is cut in front of the same text.
-/

set_option autoImplicit false

namespace CrunRs.Mountinfo

open Text

/-! ## The lookup -/

/-- `unescape_mountinfo_path`. -/
def unescapeMountinfoPath (path : List Char) : List Char :=
  replace '\\' ['1', '3', '4'] ['\\'] <|
    replace '\\' ['0', '1', '2'] ['\n'] <|
      replace '\\' ['0', '1', '1'] ['\t'] <|
        replace '\\' ['0', '4', '0'] [' '] path

def cgroup2 : List Char := ['c', 'g', 'r', 'o', 'u', 'p', '2']

/-- The loop of `find_cgroup2_mountpoint`. -/
def findInLines : List (List Char) → Option (List Char)
  | [] => none
  | line :: rest => match splitOnce [' ', '-', ' '] line with
    | none => findInLines rest
    | some (mountFields, filesystemFields) =>
      if (splitWhitespace filesystemFields).head? ≠ some cgroup2 then findInLines rest
      else (splitWhitespace mountFields)[4]?.map unescapeMountinfoPath

/-- `find_cgroup2_mountpoint`. -/
def findCgroup2Mountpoint (mountinfo : List Char) : Option (List Char) :=
  findInLines (lines mountinfo)

/-- `cgroup_root`, with what `read_to_string` returns. -/
def cgroupRoot (mountinfo : Option (List Char)) : Except CgroupError (List Char) :=
  match mountinfo with
  | none => .error (.context "failed to read /proc/self/mountinfo")
  | some mountinfo => match findCgroup2Mountpoint mountinfo with
    | none => .error .cgroupV2Unavailable
    | some mountpoint => .ok mountpoint

/-! ## What the kernel writes -/

/-- A character of a field. -/
def escapeChar (c : Char) : List Char :=
  if c = ' ' then ['\\', '0', '4', '0']
  else if c = '\t' then ['\\', '0', '1', '1']
  else if c = '\n' then ['\\', '0', '1', '2']
  else if c = '\\' then ['\\', '1', '3', '4']
  else [c]

def escape (s : List Char) : List Char := s.flatMap escapeChar

/-- A path the kernel shows for a mount: a slash at its beginning, or the name of a file system's own
for what has no path. -/
def IsPath (path : List Char) : Prop :=
  ∃ c rest, path = c :: rest ∧ isWhitespace c = false ∧ c ≠ '-'

/-- A mount, with the fields the kernel shows of it. -/
structure MountInfo where
  mountId : Nat
  parentId : Nat
  major : Nat
  minor : Nat
  root : List Char
  mountPoint : List Char
  options : List Char
  optionalFields : List (List Char)
  /-- The name of the file system type, and the subtype some have. -/
  typeName : List Char
  subtype : Option (List Char)
  source : List Char
  superOptions : List Char
  root_path : IsPath root
  mountPoint_path : IsPath mountPoint
  fields_hyphen : ∀ field ∈ options :: optionalFields, field ≠ ['-']
  typeName_word : typeName ≠ [] ∧ ∀ c ∈ typeName, isWhitespace c = false

namespace MountInfo

/-- The type of the file system. -/
def fsType (m : MountInfo) : List Char := m.typeName ++ m.subtype.elim [] ('.' :: ·)

/-- The fields behind the first one, up to the hyphen. -/
def mountFields (m : MountInfo) : List (List Char) :=
  Nat.toDigits 10 m.parentId :: (Nat.toDigits 10 m.major ++ ':' :: Nat.toDigits 10 m.minor) ::
    escape m.root :: escape m.mountPoint :: escape m.options :: m.optionalFields.map escape

/-- The line of a mount. -/
def line (m : MountInfo) : List Char :=
  spaced (Nat.toDigits 10 m.mountId) m.mountFields ++ ' ' :: '-' :: ' ' ::
    (escape m.fsType ++ ' ' :: (escape m.source ++ ' ' :: escape m.superOptions))

end MountInfo

/-- `/proc/self/mountinfo`. -/
def render (mounts : List MountInfo) : List Char := unlines (mounts.map MountInfo.line)

/-! ## Taking the codes back -/

/-- The code of a character, or the character itself. -/
theorem escapeChar_cases (c : Char) :
    (c = ' ' ∧ escapeChar c = ['\\', '0', '4', '0']) ∨
    (c = '\t' ∧ escapeChar c = ['\\', '0', '1', '1']) ∨
    (c = '\n' ∧ escapeChar c = ['\\', '0', '1', '2']) ∨
    (c = '\\' ∧ escapeChar c = ['\\', '1', '3', '4']) ∨
    (c ∉ [' ', '\t', '\n', '\\'] ∧ escapeChar c = [c]) := by
  rw [escapeChar]
  split_ifs with h₁ h₂ h₃ h₄
  · exact Or.inl ⟨h₁, rfl⟩
  · exact Or.inr (Or.inl ⟨h₂, rfl⟩)
  · exact Or.inr (Or.inr (Or.inl ⟨h₃, rfl⟩))
  · exact Or.inr (Or.inr (Or.inr (Or.inl ⟨h₄, rfl⟩)))
  · exact Or.inr (Or.inr (Or.inr (Or.inr ⟨by simp [h₁, h₂, h₃, h₄], rfl⟩)))

theorem escapeChar_injective : Function.Injective escapeChar := by
  intro c d h
  rcases escapeChar_cases c with ⟨rfl, hc⟩ | ⟨rfl, hc⟩ | ⟨rfl, hc⟩ | ⟨rfl, hc⟩ | ⟨-, hc⟩ <;>
  rcases escapeChar_cases d with ⟨rfl, hd⟩ | ⟨rfl, hd⟩ | ⟨rfl, hd⟩ | ⟨rfl, hd⟩ | ⟨-, hd⟩ <;>
  simp_all

/-- The codes are as long as each other, and only begin with a backslash. -/
theorem apart_escapeChar {a c : Char} {pat : List Char} (ha : escapeChar a = '\\' :: pat)
    (hc : c ≠ a) : Apart '\\' pat (escapeChar c) := by
  have hne : escapeChar c ≠ '\\' :: pat := ha ▸ escapeChar_injective.ne hc
  have hlength : pat.length = 3 := by
    have hcode := congrArg List.length ha
    rcases escapeChar_cases a with ⟨-, h⟩ | ⟨-, h⟩ | ⟨-, h⟩ | ⟨-, h⟩ | ⟨hplain, h⟩
    iterate 4 rw [h] at hcode; exact (Nat.succ.inj hcode).symm
    -- a character that is written as it is is no backslash
    rw [h] at ha
    obtain ⟨rfl, -⟩ := List.cons.inj ha
    simp at hplain
  rcases escapeChar_cases c with ⟨-, h⟩ | ⟨-, h⟩ | ⟨-, h⟩ | ⟨-, h⟩ | ⟨hplain, h⟩
  iterate 4 exact Or.inr ⟨by rw [h, hlength]; rfl, hne, by rw [h]; decide⟩
  refine Or.inl ?_
  rw [h, List.mem_singleton]
  rintro rfl
  simp at hplain

/-- A text in which some of the codes have been taken back, but not that of the backslash. -/
def PartlyEscaped (code : Char → List Char) : Prop :=
  ∀ c, code c = escapeChar c ∨ c ≠ '\\' ∧ code c = [c]

/-- Taking back the code of `a`. -/
theorem PartlyEscaped.replace_flatMap {code : Char → List Char} (h : PartlyEscaped code) {a : Char}
    {pat : List Char} (ha : escapeChar a = '\\' :: pat) (hcode : code a = '\\' :: pat)
    (s : List Char) :
    replace '\\' pat [a] (s.flatMap code) = s.flatMap (Function.update code a [a]) := by
  refine Text.replace_flatMap hcode (fun c hc ↦ ?_) s
  rcases h c with hc' | ⟨hplain, hc'⟩
  · rw [hc']
    exact apart_escapeChar ha hc
  · rw [hc']
    exact Or.inl (by simpa using hplain.symm)

theorem PartlyEscaped.update {code : Char → List Char} (h : PartlyEscaped code) {a : Char}
    (ha : a ≠ '\\') : PartlyEscaped (Function.update code a [a]) := by
  intro c
  by_cases hc : c = a
  · rw [hc, Function.update_self]
    exact Or.inr ⟨ha, rfl⟩
  · rw [Function.update_of_ne hc]
    exact h c

/-- **What the kernel writes for a path is taken back.**  The backslash is the last code to go: what
is made of the others holds none. -/
theorem unescape_escape (s : List Char) : unescapeMountinfoPath (escape s) = s := by
  have hall : PartlyEscaped escapeChar := fun c ↦ Or.inl rfl
  have hspace : PartlyEscaped (Function.update escapeChar ' ' [' ']) := hall.update (by decide)
  have htab := hspace.update (show '\t' ≠ '\\' by decide)
  have hfeed := htab.update (show '\n' ≠ '\\' by decide)
  rw [unescapeMountinfoPath, escape, hall.replace_flatMap rfl rfl, hspace.replace_flatMap rfl rfl,
    htab.replace_flatMap rfl rfl, hfeed.replace_flatMap rfl rfl]
  have hnone : Function.update (Function.update (Function.update (Function.update escapeChar
      ' ' [' ']) '\t' ['\t']) '\n' ['\n']) '\\' ['\\'] = fun c ↦ [c] := by
    funext c
    rcases escapeChar_cases c with ⟨rfl, -⟩ | ⟨rfl, -⟩ | ⟨rfl, -⟩ | ⟨rfl, -⟩ | ⟨hplain, h⟩
    iterate 4 rfl
    simp only [List.mem_cons, not_or] at hplain
    rw [Function.update_of_ne hplain.2.2.2.1, Function.update_of_ne hplain.2.2.1,
      Function.update_of_ne hplain.2.1, Function.update_of_ne hplain.1, h]
  rw [hnone, List.flatMap_singleton']

/-! ## Splitting what the kernel writes -/

/-- White space that the kernel writes as it is. -/
def isRawSpace (c : Char) : Bool := isWhitespace c && escapeChar c = [c]

/-- The words of a text between such white space. -/
def rawWords (s : List Char) : List (List Char) := (s.splitOnP isRawSpace).filter (· ≠ [])

theorem not_isWhitespace_code {c d : Char} (hd : d ∈ escapeChar c) (hc : isRawSpace c = false) :
    isWhitespace d = false := by
  rcases escapeChar_cases c with ⟨-, h⟩ | ⟨-, h⟩ | ⟨-, h⟩ | ⟨-, h⟩ | ⟨hplain, h⟩
  iterate 4
    have hcode : (escapeChar c).all (!isWhitespace ·) := by rw [h]; rfl
    simpa using List.all_eq_true.mp hcode d hd
  rw [h, List.mem_singleton] at hd
  rw [isRawSpace, h, Bool.and_eq_false_iff] at hc
  rw [hd]
  exact hc.resolve_right (by simp)

theorem escape_eq_nil_iff {s : List Char} : escape s = [] ↔ s = [] := by
  cases s with
  | nil => simp [escape]
  | cons c s =>
    rcases escapeChar_cases c with ⟨-, h⟩ | ⟨-, h⟩ | ⟨-, h⟩ | ⟨-, h⟩ | ⟨-, h⟩ <;>
    simp [escape, h]

/-- **A text is split where the kernel writes white space.** -/
theorem splitWhitespace_escape (s : List Char) :
    splitWhitespace (escape s) = (rawWords s).map escape := by
  have hsplit : (escape s).splitOnP isWhitespace = (s.splitOnP isRawSpace).map escape := by
    induction s with
    | nil => rfl
    | cons c s ih =>
      rw [escape, List.flatMap_cons, ← escape, List.splitOnP_cons_eq_if_modifyHead]
      by_cases hc : isRawSpace c
      · have hraw := Bool.and_eq_true_iff.mp hc
        rw [if_pos hc, of_decide_eq_true hraw.2, List.singleton_append, List.splitOnP_cons_eq_if_modifyHead,
          if_pos hraw.1, ih]
        rfl
      · rw [if_neg hc, splitOnP_append _ fun d hd ↦ not_isWhitespace_code hd (by simpa using hc), ih]
        cases s.splitOnP isRawSpace with
        | nil => rfl
        | cons word words => simp [escape]
  rw [splitWhitespace, rawWords, hsplit, List.filter_map]
  refine congrArg _ (List.filter_congr fun word _ ↦ ?_)
  simp [escape_eq_nil_iff]

theorem escape_injective : Function.Injective escape :=
  Function.LeftInverse.injective unescape_escape

theorem notMem_escape {c : Char} (hc : c = ' ' ∨ c = '\n') (s : List Char) : c ∉ escape s := by
  rw [escape, List.mem_flatMap]
  rintro ⟨d, -, hd⟩
  rcases escapeChar_cases d with ⟨-, h⟩ | ⟨-, h⟩ | ⟨-, h⟩ | ⟨-, h⟩ | ⟨hplain, h⟩
  iterate 4 rw [h] at hd; rcases hc with rfl | rfl <;> revert hd <;> decide
  rw [h, List.mem_singleton] at hd
  rcases hc with rfl | rfl <;> simp [← hd] at hplain

/-- The first word of a text that does not begin with white space. -/
theorem rawWords_append {front : List Char} (s : List Char) (hne : front ≠ [])
    (hfront : ∀ c ∈ front, isRawSpace c = false) :
    ∃ w words, rawWords (front ++ s) = (front ++ w) :: words ∧ (s = [] → w = [] ∧ words = []) := by
  rw [rawWords, splitOnP_append s hfront]
  cases hs : s.splitOnP isRawSpace with
  | nil => exact absurd hs (List.splitOnP_ne_nil _ _)
  | cons w words =>
    refine ⟨w, words.filter (· ≠ []), by simp [hne], ?_⟩
    rintro rfl
    obtain ⟨rfl, rfl⟩ := List.cons.inj hs
    exact ⟨rfl, rfl⟩

theorem rawWords_of_plain {s : List Char} (hne : s ≠ []) (hs : ∀ c ∈ s, isRawSpace c = false) :
    rawWords s = [s] := by
  obtain ⟨w, words, h, hempty⟩ := rawWords_append [] hne hs
  obtain ⟨rfl, rfl⟩ := hempty rfl
  simpa using h

theorem IsPath.ne_nil {path : List Char} (h : IsPath path) : path ≠ [] := by
  obtain ⟨c, rest, rfl, -⟩ := h
  exact List.cons_ne_nil c rest

/-- A text is the first of its words if it has no such white space. -/
theorem head?_rawWords_eq_self_iff {s : List Char} (hne : s ≠ []) :
    (rawWords s).head? = some s ↔ ∀ c ∈ s, isRawSpace c = false := by
  constructor
  · intro h
    have hmem : s ∈ rawWords s := List.mem_of_head? h
    exact not_of_mem_splitOnP (List.mem_filter.mp hmem).1
  · intro h
    rw [rawWords_of_plain hne h]
    rfl

theorem IsPath.rawWords_ne_nil {path : List Char} (h : IsPath path) : rawWords path ≠ [] := by
  obtain ⟨c, rest, rfl, hc, -⟩ := h
  obtain ⟨w, words, hwords, -⟩ := rawWords_append rest (List.cons_ne_nil c []) (by
    simp [isRawSpace, hc])
  rw [List.singleton_append] at hwords
  rw [hwords]
  exact List.cons_ne_nil _ _

/-! ## What is found -/

theorem isDigit_toDigits {n : Nat} {c : Char} (h : c ∈ Nat.toDigits 10 n) : c.isDigit = true :=
  Nat.isDigit_of_mem_toDigits (by decide) (by decide) h

namespace MountInfo

variable (m : MountInfo)

/-- The word the code takes for the mount point: the second one of the root and the mount point. -/
def wordTaken : Option (List Char) := (rawWords m.root ++ rawWords m.mountPoint)[1]?

/-- Nothing in front of the hyphen is taken for it. -/
theorem splitOnce_line (rest : List Char) :
    splitOnce [' ', '-', ' ']
        (spaced (Nat.toDigits 10 m.mountId) m.mountFields ++ ' ' :: '-' :: ' ' :: rest) =
      some (spaced (Nat.toDigits 10 m.mountId) m.mountFields, rest) := by
  have hdigits : ∀ n : Nat, ' ' ∉ Nat.toDigits 10 n := fun n h ↦
    absurd (isDigit_toDigits h) (by decide)
  have hplain : ∀ s : List Char, s ≠ ['-'] → ' ' ∉ escape s ∧ escape s ≠ ['-'] := fun s hs ↦
    ⟨notMem_escape (Or.inl rfl) s, fun h ↦ hs (escape_injective h)⟩
  have hpath : ∀ path, IsPath path → path ≠ ['-'] := by
    rintro path ⟨c, rest, rfl, -, hc⟩ h
    exact hc (List.cons.inj h).1
  refine splitOnce_spaced rest (hdigits _) ?_
  simp only [mountFields, List.forall_mem_cons, List.forall_mem_map]
  refine ⟨⟨hdigits _, fun h ↦ ?_⟩, ⟨?_, fun h ↦ ?_⟩, hplain _ (hpath _ m.root_path),
    hplain _ (hpath _ m.mountPoint_path), hplain _ (m.fields_hyphen _ List.mem_cons_self),
    fun field hfield ↦ hplain _ (m.fields_hyphen _ (List.mem_cons_of_mem _ hfield))⟩
  · exact absurd (@isDigit_toDigits _ '-' (h ▸ List.mem_singleton_self _)) (by decide)
  · simp [hdigits]
  · have hcolon : ':' ∈ ['-'] := h ▸ List.mem_append_right _ List.mem_cons_self
    exact absurd hcolon (by decide)

theorem head?_filesystemFields (rest : List Char) :
    (splitWhitespace (escape m.fsType ++ ' ' :: rest)).head? = some cgroup2 ↔
      m.fsType = cgroup2 := by
  obtain ⟨hne, hword⟩ := m.typeName_word
  have hraw : ∀ c ∈ m.typeName, isRawSpace c = false := fun c hc ↦ by simp [isRawSpace, hword c hc]
  rw [splitWhitespace_append_sep _ _ (by decide), splitWhitespace_escape]
  cases hsub : m.subtype with
  | none =>
    have htype : m.fsType = m.typeName := by rw [fsType, hsub]; exact List.append_nil _
    rw [htype, rawWords_of_plain hne hraw, List.map_singleton, List.singleton_append, List.head?_cons,
      Option.some.injEq]
    exact escape_injective.eq_iff (b := cgroup2)
  | some sub =>
    -- neither the type nor its first word is without the dot in front of the subtype
    have htype : m.fsType = (m.typeName ++ ['.']) ++ sub := by rw [fsType, hsub]; simp
    obtain ⟨w, words, hwords, -⟩ := @rawWords_append (m.typeName ++ ['.']) sub (by simp) (by
      intro c hc
      rcases List.mem_append.mp hc with hc | hc
      · exact hraw c hc
      · rw [List.mem_singleton.mp hc]; rfl)
    have hdot : '.' ∉ cgroup2 := by decide
    rw [htype, hwords, List.map_cons, List.cons_append, List.head?_cons, Option.some.injEq]
    refine iff_of_false (fun h ↦ hdot ?_) (fun h ↦ hdot ?_)
    · rw [← h]
      simp [escape, escapeChar]
    · rw [← h]
      simp

theorem one_lt_length_rawWords : 1 < (rawWords m.root ++ rawWords m.mountPoint).length := by
  have hroot := List.length_pos_iff.mpr m.root_path.rawWords_ne_nil
  have hpoint := List.length_pos_iff.mpr m.mountPoint_path.rawWords_ne_nil
  rw [List.length_append]
  omega

theorem exists_wordTaken : ∃ word, m.wordTaken = some word :=
  ⟨_, List.getElem?_eq_getElem m.one_lt_length_rawWords⟩

theorem getElem?_mountFields :
    (splitWhitespace (spaced (Nat.toDigits 10 m.mountId) m.mountFields))[4]? =
      m.wordTaken.map escape := by
  have hdigits : ∀ n : Nat, splitWhitespace (Nat.toDigits 10 n) = [Nat.toDigits 10 n] := fun n ↦
    splitWhitespace_word Nat.toDigits_ne_nil fun c hc ↦ isWhitespace_of_isDigit (isDigit_toDigits hc)
  have hdevice : splitWhitespace (Nat.toDigits 10 m.major ++ ':' :: Nat.toDigits 10 m.minor) =
      [Nat.toDigits 10 m.major ++ ':' :: Nat.toDigits 10 m.minor] := by
    refine splitWhitespace_word (by simp) fun c hc ↦ ?_
    rcases List.mem_append.mp hc with hc | hc
    · exact isWhitespace_of_isDigit (isDigit_toDigits hc)
    · rcases List.mem_cons.mp hc with rfl | hc
      · decide
      · exact isWhitespace_of_isDigit (isDigit_toDigits hc)
  have hlength : 1 < ((rawWords m.root ++ rawWords m.mountPoint).map escape).length := by
    rw [List.length_map]
    exact m.one_lt_length_rawWords
  rw [splitWhitespace_spaced, mountFields, hdigits]
  simp only [List.flatMap_cons, hdigits, hdevice, splitWhitespace_escape, List.singleton_append,
    List.getElem?_cons_succ]
  rw [← List.append_assoc, ← List.map_append, List.getElem?_append_left hlength, List.getElem?_map,
    wordTaken]

theorem notMem_line : '\n' ∉ m.line := by
  have hescape : ∀ s : List Char, '\n' ∉ escape s := notMem_escape (Or.inr rfl)
  have hdigits : ∀ n : Nat, '\n' ∉ Nat.toDigits 10 n := fun n h ↦
    absurd (isDigit_toDigits h) (by decide)
  simp [line, spaced, mountFields, hescape, hdigits]

/-- Reading a line only takes something away from its last field. -/
theorem stripEnd_line : ∃ superOptions, stripEnd m.line =
    spaced (Nat.toDigits 10 m.mountId) m.mountFields ++ ' ' :: '-' :: ' ' ::
      (escape m.fsType ++ ' ' :: (escape m.source ++ ' ' :: superOptions)) := by
  refine ⟨stripEnd (escape m.superOptions), ?_⟩
  have h := @stripEnd_append_cons ' ' (spaced (Nat.toDigits 10 m.mountId) m.mountFields ++
    ' ' :: '-' :: ' ' :: (escape m.fsType ++ ' ' :: escape m.source)) (by decide)
    (escape m.superOptions)
  simpa [line] using h

end MountInfo

theorem lines_render (mounts : List MountInfo) :
    lines (render mounts) = mounts.map (stripEnd ·.line) := by
  induction mounts with
  | nil => rfl
  | cons m mounts ih =>
    rw [render, List.map_cons, unlines_cons, lines_append_lf _ m.notMem_line, ← render, ih,
      List.map_cons]

/-- **What is found is a word of the first mount of the type.** -/
theorem findCgroup2Mountpoint_render (mounts : List MountInfo) :
    findCgroup2Mountpoint (render mounts) =
      (mounts.find? (·.fsType = cgroup2)).bind MountInfo.wordTaken := by
  rw [findCgroup2Mountpoint, lines_render]
  induction mounts with
  | nil => rfl
  | cons m mounts ih =>
    obtain ⟨superOptions, hline⟩ := m.stripEnd_line
    rw [List.map_cons, hline, findInLines, m.splitOnce_line]
    by_cases htype : m.fsType = cgroup2
    · rw [List.find?_cons_of_pos (by simpa using htype), Option.bind_some]
      simp only [(m.head?_filesystemFields _).mpr htype, ne_eq, not_true_eq_false, if_false]
      rw [m.getElem?_mountFields, Option.map_map]
      cases m.wordTaken with
      | none => rfl
      | some word => exact congrArg some (unescape_escape word)
    · rw [List.find?_cons_of_neg (by simpa using htype)]
      simp only [ne_eq, mt (m.head?_filesystemFields _).mp htype, not_false_eq_true, if_true]
      exact ih

/-- No mount of the type is passed over. -/
theorem cgroupRoot_render_eq_error_iff (mounts : List MountInfo) :
    cgroupRoot (some (render mounts)) = .error .cgroupV2Unavailable ↔
      ∀ m ∈ mounts, m.fsType ≠ cgroup2 := by
  rw [cgroupRoot, findCgroup2Mountpoint_render]
  cases hfind : mounts.find? (·.fsType = cgroup2) with
  | none => exact iff_of_true rfl fun m hm ↦ by simpa using List.find?_eq_none.mp hfind m hm
  | some m =>
    have htype : m.fsType = cgroup2 := by simpa using List.find?_some hfind
    obtain ⟨word, hword⟩ := m.exists_wordTaken
    simp only [Option.bind_some, hword, reduceCtorEq, false_iff]
    exact fun h ↦ h m (List.mem_of_find?_eq_some hfind) htype

namespace MountInfo

/-- A mount whose mount point is the second word: the root is a single word and there is no such white
space in the mount point, or what is behind white space in the root is the same again. -/
def Uncut (m : MountInfo) : Prop :=
  (rawWords m.root).length = 1 ∧ (∀ c ∈ m.mountPoint, isRawSpace c = false) ∨
    (rawWords m.root)[1]? = some m.mountPoint

theorem wordTaken_eq_mountPoint_iff (m : MountInfo) :
    m.wordTaken = some m.mountPoint ↔ m.Uncut := by
  rw [wordTaken, Uncut, ← head?_rawWords_eq_self_iff m.mountPoint_path.ne_nil]
  rcases hroot : rawWords m.root with _ | ⟨first, _ | ⟨second, rest⟩⟩
  · exact absurd hroot m.root_path.rawWords_ne_nil
  · simp [List.head?_eq_getElem?]
  · simp

end MountInfo

/-- **The mount point is found exactly if white space does not cut it off.** -/
theorem findCgroup2Mountpoint_render_iff (mounts : List MountInfo) :
    findCgroup2Mountpoint (render mounts) =
        (mounts.find? (·.fsType = cgroup2)).map MountInfo.mountPoint ↔
      ∀ m ∈ mounts.find? (·.fsType = cgroup2), m.Uncut := by
  rw [findCgroup2Mountpoint_render]
  cases mounts.find? (·.fsType = cgroup2) with
  | none => simp
  | some m => simp [m.wordTaken_eq_mountPoint_iff]

theorem isWhitespace_of_mem_cgroup2 : ∀ c ∈ cgroup2, isWhitespace c = false := by
  have hall : cgroup2.all (!isWhitespace ·) := rfl
  simpa using List.all_eq_true.mp hall

/-- A cgroup mount in a directory whose name holds a no-break space. -/
def noBreakSpaceMount : MountInfo where
  mountId := 36
  parentId := 29
  major := 0
  minor := 32
  root := ['/']
  mountPoint := ['/', 'm', 'n', 't', '/', 'a', '\u00a0', 'b']
  options := ['r', 'w']
  optionalFields := []
  typeName := cgroup2
  subtype := none
  source := cgroup2
  superOptions := ['r', 'w']
  root_path := ⟨'/', [], rfl, rfl, by decide⟩
  mountPoint_path := ⟨'/', _, rfl, rfl, by decide⟩
  fields_hyphen := by decide
  typeName_word := ⟨List.cons_ne_nil _ _, isWhitespace_of_mem_cgroup2⟩

/-- What is found is the name up to the space. -/
theorem mountpoint_cut_at_noBreakSpace :
    findCgroup2Mountpoint (render [noBreakSpaceMount]) = some ['/', 'm', 'n', 't', '/', 'a'] ∧
      ¬ ∀ mounts : List MountInfo, findCgroup2Mountpoint (render mounts) =
        (mounts.find? (·.fsType = cgroup2)).map MountInfo.mountPoint := by
  have hcut : findCgroup2Mountpoint (render [noBreakSpaceMount]) =
      some ['/', 'm', 'n', 't', '/', 'a'] := by
    rw [findCgroup2Mountpoint_render]
    decide
  refine ⟨hcut, fun h ↦ ?_⟩
  have hfound := h [noBreakSpaceMount]
  rw [hcut] at hfound
  revert hfound
  decide

end CrunRs.Mountinfo
