import CrunRs.Lib.Text
import Mathlib.Data.List.DropRight

/-!
# Paths and files

A path of the operating system is a string of bytes, and need not be text.  A program that writes a
path down as text and reads it back gets the path it started from exactly if it was text
(`ofString_display_iff`), whatever it does with the bytes that were not.

`components` reads a path the way the kernel does: empty parts and single dots name nothing.
-/

set_option autoImplicit false

structure OsPath where
  bytes : List UInt8
  deriving DecidableEq, Repr

namespace OsPath

/-- The path a text names. -/
def ofString (s : String) : OsPath := ⟨s.toByteArray.data.toList⟩

/-! ## Paths as text -/

def toByteArray (p : OsPath) : ByteArray := ⟨p.bytes.toArray⟩

/-- The path is text. -/
def IsUtf8 (p : OsPath) : Prop := p.toByteArray.IsValidUTF8

instance (p : OsPath) : Decidable p.IsUtf8 := inferInstanceAs (Decidable p.toByteArray.IsValidUTF8)

/-- The path as text; `lossy` replaces what is not. -/
def display (lossy : ByteArray → String) (p : OsPath) : String :=
  (String.fromUTF8? p.toByteArray).getD (lossy p.toByteArray)

theorem toByteArray_ofString (s : String) : (ofString s).toByteArray = s.toByteArray := by
  rw [toByteArray, ofString, Array.toArray_toList]

theorem isUtf8_ofString (s : String) : (ofString s).IsUtf8 := by
  rw [IsUtf8, toByteArray_ofString]
  exact s.isValidUTF8

theorem display_ofString (lossy : ByteArray → String) (s : String) :
    display lossy (ofString s) = s := by
  rw [display, toByteArray_ofString, String.fromUTF8?, dif_pos s.isValidUTF8, Option.getD_some]
  rfl

/-- **Writing a path as text and reading it back** gives the same path exactly if it was text. -/
theorem ofString_display_iff {lossy : ByteArray → String} {p : OsPath} :
    ofString (p.display lossy) = p ↔ p.IsUtf8 := by
  constructor
  · intro h
    rw [← h]
    exact isUtf8_ofString _
  · intro h
    have hvalid : p.toByteArray.IsValidUTF8 := h
    rw [display, String.fromUTF8?, dif_pos hvalid, Option.getD_some, ofString]
    rfl

/-! ## Joining -/

/-- The separator, `/`. -/
def separator : UInt8 := 47

def isAbsolute (p : OsPath) : Bool := p.bytes.head? = some separator

/-- `Path::join`: an absolute path replaces what it is joined to. -/
def join (base p : OsPath) : OsPath :=
  if p.isAbsolute || base.bytes.isEmpty then p
  else if base.bytes.getLast? = some separator then ⟨base.bytes ++ p.bytes⟩
  else ⟨base.bytes ++ separator :: p.bytes⟩

theorem join_ne_nil {base p : OsPath} (h : p.bytes ≠ []) : (base.join p).bytes ≠ [] := by
  rw [join]
  split
  · exact h
  · split
    · exact List.append_ne_nil_of_right_ne_nil _ h
    · exact List.append_ne_nil_of_right_ne_nil _ (List.cons_ne_nil _ _)

theorem ofString_injective : Function.Injective ofString := fun s t h ↦ by
  have hdisplay := congrArg (display fun _ ↦ "") h
  rwa [display_ofString, display_ofString] at hdisplay

theorem bytes_ofString_append (s t : String) :
    (ofString (s ++ t)).bytes = (ofString s).bytes ++ (ofString t).bytes := by
  rw [ofString, String.toByteArray_append]
  simp [ofString]

theorem isUtf8_iff {p : OsPath} : p.IsUtf8 ↔ ∃ s, p = ofString s := by
  constructor
  · intro h
    exact ⟨p.display fun _ ↦ "", (ofString_display_iff.mpr h).symm⟩
  · rintro ⟨s, rfl⟩
    exact isUtf8_ofString s

theorem IsUtf8.join {base p : OsPath} (hbase : base.IsUtf8) (hp : p.IsUtf8) :
    (base.join p).IsUtf8 := by
  obtain ⟨s, rfl⟩ := isUtf8_iff.mp hbase
  obtain ⟨t, rfl⟩ := isUtf8_iff.mp hp
  have happend : ∀ front back : String,
      OsPath.mk ((ofString front).bytes ++ (ofString back).bytes) = ofString (front ++ back) :=
    fun front back ↦ congrArg OsPath.mk (bytes_ofString_append front back).symm
  rw [OsPath.join]
  split_ifs
  · exact hp
  · rw [happend]
    exact isUtf8_ofString _
  · have hsep : separator :: (ofString t).bytes = (ofString ("/" ++ t)).bytes :=
      (bytes_ofString_append "/" t).symm
    rw [hsep, happend]
    exact isUtf8_ofString _

/-- What is left of a text when a text is taken off its beginning is text. -/
theorem isUtf8_of_append {s : String} {bytes : List UInt8}
    (h : IsUtf8 ⟨(ofString s).bytes ++ bytes⟩) : IsUtf8 ⟨bytes⟩ := by
  have hlist : ∀ (cs : List Char) (b : ByteArray), (cs.utf8Encode ++ b).IsValidUTF8 →
      b.IsValidUTF8 := by
    intro cs b
    induction cs with
    | nil => simp
    | cons c cs ih =>
      rw [List.utf8Encode_cons, ByteArray.append_assoc,
        ByteArray.isValidUTF8_utf8Encode_singleton_append_iff]
      exact ih
  refine hlist s.toList _ ?_
  rw [← String.toByteArray_ofList, String.ofList_toList]
  have hbytes : toByteArray ⟨(ofString s).bytes ++ bytes⟩ = s.toByteArray ++ toByteArray ⟨bytes⟩ := by
    apply ByteArray.ext
    simp [toByteArray, ofString]
  rwa [← hbytes]

/-- A text of digits is made of the bytes of its digits. -/
theorem bytes_ofString_digits {cs : List Char} (h : ∀ c ∈ cs, c.isDigit) :
    (ofString (String.ofList cs)).bytes = cs.map fun c ↦ c.val.toUInt8 := by
  induction cs with
  | nil => rfl
  | cons c cs ih =>
    obtain ⟨hlo, hhi⟩ : 48 ≤ c.toNat ∧ c.toNat ≤ 57 := Char.isDigit_iff_toNat.mp (h c (by simp))
    have hsize : c.utf8Size = 1 := by
      rw [Char.utf8Size_eq_one_iff, UInt32.le_iff_toNat_le]
      exact Nat.le_trans hhi (by decide)
    have htail := ih fun d hd ↦ h d (List.mem_cons_of_mem c hd)
    rw [ofString, String.toByteArray_ofList] at htail ⊢
    rw [List.utf8Encode_cons, List.map_cons, ← htail]
    simp [List.utf8Encode, String.utf8EncodeChar_eq_singleton hsize]

/-! ## The components of a path -/

/-- What the parts of a path name, in order. -/
def components (p : OsPath) : List (List UInt8) :=
  (p.bytes.splitOnP (· == separator)).filter fun part ↦ part ≠ [] ∧ part ≠ [46]

theorem ne_nil_of_mem_components {p : OsPath} {part : List UInt8} (h : part ∈ p.components) :
    part ≠ [] :=
  (of_decide_eq_true (List.mem_filter.mp h).2).1

/-- `Path::parent`: the path without its last component, if there is one.  A dot is a component only
at the beginning. -/
def parent (p : OsPath) : Option OsPath :=
  let trivial : List UInt8 → Bool := fun part ↦ part = [] ∨ part = [46]
  let joined (parts : List (List UInt8)) : List UInt8 := [separator].intercalate parts
  match p.bytes.splitOnP (· == separator) with
  | [] => none
  | first :: rest =>
    let fixed := if first = [] ∧ rest ≠ [] ∨ first = [46] then [first] else []
    let body := (if fixed = [] then first :: rest else rest).rdropWhile trivial
    if body ≠ [] then
      let parts := body.dropLast.rdropWhile trivial
      if fixed = [[]] ∧ parts = [] then some ⟨[separator]⟩ else some ⟨joined (fixed ++ parts)⟩
    else if fixed = [[46]] then some ⟨[]⟩ else none

example : [ofString "/a/b/", ofString "a.json", ofString "/a", ofString "./a", ofString "/",
    ofString "a//./b"].map parent =
  [some (ofString "/a"), some (ofString ""), some (ofString "/"), some (ofString "."), none,
    some (ofString "a")] := by
  decide +kernel

/-- A name: one part of a path, that names something in the directory it stands in. -/
structure IsName (p : OsPath) : Prop where
  nonempty : p.bytes ≠ []
  noSeparator : separator ∉ p.bytes
  notDot : p.bytes ≠ [46]

instance (p : OsPath) : Decidable p.IsName :=
  decidable_of_iff (p.bytes ≠ [] ∧ separator ∉ p.bytes ∧ p.bytes ≠ [46])
    ⟨fun h ↦ ⟨h.1, h.2.1, h.2.2⟩, fun h ↦ ⟨h.nonempty, h.noSeparator, h.notDot⟩⟩

theorem splitOnP_of_notMem {bytes : List UInt8} (h : separator ∉ bytes) :
    bytes.splitOnP (· == separator) = [bytes] := by
  refine List.splitOnP_eq_singleton fun byte hbyte ↦ beq_eq_false_iff_ne.mpr fun heq ↦ ?_
  rw [heq] at hbyte
  exact h hbyte

theorem IsName.splitOnP {p : OsPath} (h : p.IsName) :
    p.bytes.splitOnP (· == separator) = [p.bytes] :=
  splitOnP_of_notMem h.noSeparator

theorem IsName.not_isAbsolute {p : OsPath} (h : p.IsName) : p.isAbsolute = false := by
  rw [isAbsolute, decide_eq_false_iff_not]
  exact fun hhead ↦ h.noSeparator (List.mem_of_head? hhead)

theorem components_append_separator (front rest : List UInt8) :
    components ⟨front ++ separator :: rest⟩ = components ⟨front⟩ ++ components ⟨rest⟩ := by
  rw [components, List.splitOnP_append_cons _ _ (by simp), List.filter_append, components, components]

@[simp] theorem components_nil : components ⟨[]⟩ = [] := rfl

/-- **Joining a relative path adds its components.** -/
theorem components_join_of_relative {base p : OsPath} (hp : p.isAbsolute = false) :
    (base.join p).components = base.components ++ p.components := by
  rw [join, hp, Bool.false_or]
  by_cases hempty : base.bytes = []
  · obtain ⟨bytes⟩ := base
    obtain rfl : bytes = [] := hempty
    rw [List.isEmpty_nil, if_pos rfl, components_nil, List.nil_append]
  · rw [if_neg (by simpa using hempty)]
    by_cases hsep : base.bytes.getLast? = some separator
    · -- the separator is there already, and what follows it in the base is empty
      obtain ⟨front, hfront⟩ := List.getLast?_eq_some_iff.mp hsep
      obtain ⟨bytes⟩ := base
      obtain rfl : bytes = front ++ [separator] := hfront
      rw [if_pos hsep, List.append_assoc, List.singleton_append, components_append_separator,
        components_append_separator, components_nil, List.append_nil]
    · rw [if_neg hsep, components_append_separator]

theorem IsName.components {p : OsPath} (h : p.IsName) : p.components = [p.bytes] := by
  rw [OsPath.components, h.splitOnP]
  exact List.filter_cons_of_pos (by simpa using ⟨h.nonempty, h.notDot⟩)

/-- **Joining a name adds it as the last component.** -/
theorem components_join {base p : OsPath} (hp : p.IsName) :
    (base.join p).components = base.components ++ [p.bytes] := by
  rw [components_join_of_relative hp.not_isAbsolute, hp.components]

theorem separator_notMem_of_mem_splitOnP {bytes part : List UInt8}
    (h : part ∈ bytes.splitOnP (· == separator)) : separator ∉ part := by
  induction bytes generalizing part with
  | nil =>
    obtain rfl : part = [] := by simpa using h
    exact List.not_mem_nil
  | cons byte bytes ih =>
    obtain ⟨first, parts, hparts⟩ :=
      List.exists_cons_of_ne_nil (List.splitOnP_ne_nil (· == separator) bytes)
    simp only [hparts, List.mem_cons, forall_eq_or_imp] at ih
    rw [List.splitOnP_cons_eq_if_modifyHead, hparts] at h
    by_cases hbyte : byte = separator
    · rw [if_pos (by simpa using hbyte)] at h
      rcases List.mem_cons.mp h with rfl | h
      · exact List.not_mem_nil
      · rcases List.mem_cons.mp h with rfl | h
        · exact ih.1
        · exact ih.2 part h
    · rw [if_neg (by simpa using hbyte), List.modifyHead_cons] at h
      rcases List.mem_cons.mp h with rfl | h
      · rw [List.mem_cons, not_or]
        exact ⟨Ne.symm hbyte, ih.1⟩
      · exact ih.2 part h

theorem isName_of_mem_components {p : OsPath} {part : List UInt8} (h : part ∈ p.components) :
    IsName ⟨part⟩ := by
  obtain ⟨hmem, hpart⟩ := List.mem_filter.mp h
  obtain ⟨hne, hdot⟩ := of_decide_eq_true hpart
  exact ⟨hne, separator_notMem_of_mem_splitOnP hmem, hdot⟩

/-- What has no separator in it has no other component than itself. -/
theorem eq_of_mem_components {name part : List UInt8} (h : separator ∉ name)
    (hpart : part ∈ (OsPath.mk name).components) : part = name := by
  rw [components, splitOnP_of_notMem h] at hpart
  exact List.mem_singleton.mp (List.mem_filter.mp hpart).1

/-! ## The components of a path as a program sees them -/

/-- `Component`, without the prefixes another system has. -/
inductive Component
  | rootDir
  | curDir
  | parentDir
  | normal (part : List UInt8)
  deriving DecidableEq, Repr

def Component.ofPart (part : List UInt8) : Component :=
  if part = [46, 46] then .parentDir else .normal part

/-- How a path begins: at the root, with a dot, or with a name. -/
def lead (p : OsPath) : List Component :=
  if p.isAbsolute then [.rootDir]
  else if (p.bytes.splitOnP (· == separator)).head? = some [46] then [.curDir]
  else []

/-- `Path::components`.  A dot is a component only at the beginning. -/
def pathComponents (p : OsPath) : List Component := p.lead ++ p.components.map Component.ofPart

example : [ofString "/a//./b/", ofString "./..", ofString "", ofString ".a/...", ofString "/"].map
    pathComponents =
  [[.rootDir, .normal [97], .normal [98]], [.curDir, .parentDir], [],
    [.normal [46, 97], .normal [46, 46, 46]], [.rootDir]] := by
  decide +kernel

theorem isAbsolute_join_of_relative {base p : OsPath} (hp : p.isAbsolute = false) :
    (base.join p).isAbsolute = base.isAbsolute := by
  rw [join, hp, Bool.false_or]
  obtain ⟨bytes⟩ := base
  cases bytes with
  | nil => rw [List.isEmpty_nil, if_pos rfl, hp]; rfl
  | cons byte bytes =>
    rw [List.isEmpty_cons, if_neg (by simp)]
    split_ifs <;> rfl

theorem isAbsolute_of_lead {p : OsPath} (hp : p.lead = []) : p.isAbsolute = false := by
  rw [lead] at hp
  by_cases habsolute : p.isAbsolute = true
  · rw [if_pos habsolute] at hp
    exact absurd hp (List.cons_ne_nil _ _)
  · simpa using habsolute

theorem head?_splitOnP_append (front rest : List UInt8) :
    ((front ++ separator :: rest).splitOnP (· == separator)).head? =
      (front.splitOnP (· == separator)).head? := by
  rw [List.splitOnP_append_cons _ _ (by simp)]
  obtain ⟨first, parts, hparts⟩ :=
    List.exists_cons_of_ne_nil (List.splitOnP_ne_nil (· == separator) front)
  rw [hparts]
  rfl

/-- A path that begins with a name does not change how the path it is joined to begins. -/
theorem lead_join {base p : OsPath} (hp : p.lead = []) : (base.join p).lead = base.lead := by
  have hrelative := isAbsolute_of_lead hp
  by_cases hempty : base.bytes = []
  · obtain ⟨bytes⟩ := base
    obtain rfl : bytes = [] := hempty
    rw [join, List.isEmpty_nil, Bool.or_true, if_pos rfl, hp]
    rfl
  have hhead : ((base.join p).bytes.splitOnP (· == separator)).head? =
      (base.bytes.splitOnP (· == separator)).head? := by
    rw [join, hrelative, Bool.false_or, if_neg (by simpa using hempty)]
    by_cases hsep : base.bytes.getLast? = some separator
    · obtain ⟨front, hfront⟩ := List.getLast?_eq_some_iff.mp hsep
      rw [if_pos hsep, hfront, List.append_assoc, List.singleton_append, head?_splitOnP_append,
        head?_splitOnP_append]
    · rw [if_neg hsep, head?_splitOnP_append]
  rw [lead, isAbsolute_join_of_relative hrelative, hhead, lead]

/-- **Joining a path that begins with a name adds its components.** -/
theorem pathComponents_join {base p : OsPath} (hp : p.lead = []) :
    (base.join p).pathComponents = base.pathComponents ++ p.pathComponents := by
  rw [pathComponents, lead_join hp, components_join_of_relative (isAbsolute_of_lead hp),
    List.map_append, ← List.append_assoc, pathComponents, pathComponents, hp, List.nil_append]

/-- `Path::strip_prefix`: the components that are left. -/
def stripPrefix (p base : OsPath) : Option (List Component) :=
  if base.pathComponents <+: p.pathComponents then
    some (p.pathComponents.drop base.pathComponents.length)
  else none

theorem stripPrefix_join {base p : OsPath} (hp : p.lead = []) :
    (base.join p).stripPrefix base = some p.pathComponents := by
  rw [stripPrefix, pathComponents_join hp, if_pos (List.prefix_append _ _), List.drop_left]

theorem IsName.lead {p : OsPath} (h : p.IsName) : p.lead = [] := by
  rw [OsPath.lead, h.not_isAbsolute, if_neg (by simp), h.splitOnP, List.head?_cons,
    if_neg (by simpa using h.notDot)]

/-- A relative path of some names, one below the other. -/
def ofParts (parts : List (List UInt8)) : OsPath :=
  parts.foldl (fun path part ↦ path.join ⟨part⟩) ⟨[]⟩

theorem ofParts_concat (parts : List (List UInt8)) (part : List UInt8) :
    ofParts (parts ++ [part]) = (ofParts parts).join ⟨part⟩ := by
  rw [ofParts, List.foldl_concat, ofParts]

theorem components_ofParts {parts : List (List UInt8)} (h : ∀ part ∈ parts, IsName ⟨part⟩) :
    (ofParts parts).components = parts := by
  induction parts using List.reverseRecOn with
  | nil => rfl
  | append_singleton parts part ih =>
    rw [List.forall_mem_append, List.forall_mem_singleton] at h
    rw [ofParts_concat, components_join h.2, ih h.1]

theorem lead_ofParts {parts : List (List UInt8)} (h : ∀ part ∈ parts, IsName ⟨part⟩) :
    (ofParts parts).lead = [] := by
  induction parts using List.reverseRecOn with
  | nil => rfl
  | append_singleton parts part ih =>
    rw [List.forall_mem_append, List.forall_mem_singleton] at h
    rw [ofParts_concat, lead_join h.2.lead, ih h.1]

theorem isUtf8_ofParts {parts : List (List UInt8)} (h : ∀ part ∈ parts, IsUtf8 ⟨part⟩) :
    (ofParts parts).IsUtf8 := by
  induction parts using List.reverseRecOn with
  | nil => exact isUtf8_ofString ""
  | append_singleton parts part ih =>
    rw [List.forall_mem_append, List.forall_mem_singleton] at h
    rw [ofParts_concat]
    exact (ih h.1).join h.2

/-- A name in a directory. -/
theorem prefix_join {dir p : OsPath} (hp : p.IsName) : dir.components <+: (dir.join p).components := by
  rw [components_join hp]
  exact List.prefix_append _ _

/-- Two names in one directory have nothing in common below them. -/
theorem not_prefix_of_ne {dir name name' : OsPath} (hname : name.IsName) (hname' : name'.IsName)
    (hne : name ≠ name') {path : List (List UInt8)} (h : (dir.join name).components <+: path) :
    ¬ (dir.join name').components <+: path := by
  rw [components_join hname] at h
  rw [components_join hname']
  intro h'
  have hboth := List.prefix_of_prefix_length_le h h' (by simp)
  rw [List.prefix_append_right_inj, List.cons_prefix_cons] at hboth
  exact hne (congrArg OsPath.mk hboth.1)

end OsPath

/-!
## Trees of files

What is in the files of a file system, by their components.  Directories are there when something is
in them.
-/

universe u v

/-- The files of a file system. -/
def FileTree (κ : Type u) (α : Type v) := List κ → Option α

namespace FileTree

variable {κ : Type u} {α : Type v} [DecidableEq κ]

/-- No files. -/
def empty : FileTree κ α := fun _ ↦ none

def write (tree : FileTree κ α) (path : List κ) (content : α) : FileTree κ α :=
  Function.update tree path (some content)

/-- Remove the files that are chosen, of those in a directory. -/
def removeIn (tree : FileTree κ α) (dir : List κ) (chosen : List κ → Bool) : FileTree κ α :=
  fun path ↦ if dir <+: path ∧ chosen path then none else tree path

@[simp] theorem write_same (tree : FileTree κ α) (path : List κ) (content : α) :
    tree.write path content path = some content := Function.update_self ..

theorem write_of_ne (tree : FileTree κ α) {path other : List κ} (content : α) (h : other ≠ path) :
    tree.write path content other = tree other := Function.update_of_ne h ..

theorem removeIn_of_not_prefix (tree : FileTree κ α) {dir path : List κ} (chosen : List κ → Bool)
    (h : ¬ dir <+: path) : tree.removeIn dir chosen path = tree path :=
  if_neg fun hboth ↦ h hboth.1

theorem removeIn_eq_some {tree : FileTree κ α} {dir path : List κ} {chosen : List κ → Bool}
    {content : α} (h : tree.removeIn dir chosen path = some content) : tree path = some content := by
  rw [removeIn] at h
  split at h
  · simp at h
  · exact h

end FileTree
