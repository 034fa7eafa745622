import Mathlib.Data.List.Basic

/-!
# Trees of directories

What a program that reads a directory and the directories in it sees: the entries of each of them, in
the order they are read.  Such a program need not go into every directory, and which ones it goes into
may depend on their names, so `directories` takes the names to be gone into and lists what is come to
that way, with the paths.  A directory that is come to has been come to from the one it is in
(`mem_directories_concat`), and so have all those above it (`exists_mem_directories_of_isPrefix`).
-/

set_option autoImplicit false

universe u v

/-- The entries of a directory: directories with their entries, and files. -/
inductive DirTree (κ : Type u) (α : Type v)
  | nil
  | dir (name : κ) (entries rest : DirTree κ α)
  | file (name : κ) (data : α) (rest : DirTree κ α)
  deriving Repr

namespace DirTree

variable {κ : Type u} {α : Type v}

/-- The entries in a list, each with its name. -/
def toList : DirTree κ α → List (κ × (DirTree κ α ⊕ α))
  | nil => []
  | dir name entries rest => (name, .inl entries) :: rest.toList
  | file name data rest => (name, .inr data) :: rest.toList

/-- The directories below one, with their paths from there. -/
def subdirectories (descends : κ → Bool) : DirTree κ α → List (List κ × DirTree κ α)
  | nil => []
  | dir name entries rest =>
    (if descends name then
      ([name], entries) :: (subdirectories descends entries).map fun (path, sub) ↦ (name :: path, sub)
     else []) ++ subdirectories descends rest
  | file _ _ rest => subdirectories descends rest

/-- A directory and the directories below it. -/
def directories (descends : κ → Bool) (tree : DirTree κ α) : List (List κ × DirTree κ α) :=
  ([], tree) :: tree.subdirectories descends

variable {descends : κ → Bool} {tree sub : DirTree κ α} {name : κ} {path : List κ}

/-- What some directory below a tree has: one below its first entry, or one below the others. -/
theorem exists_subdirectories_dir {entries rest : DirTree κ α} {p : List κ × DirTree κ α → Prop} :
    (∃ d ∈ (dir name entries rest).subdirectories descends, p d) ↔
      (descends name ∧ ∃ d ∈ entries.directories descends, p (name :: d.1, d.2)) ∨
        ∃ d ∈ rest.subdirectories descends, p d := by
  rw [subdirectories, directories]
  cases descends name with
  | true =>
    simp only [if_true, true_and, List.mem_append, List.mem_cons, List.mem_map, or_and_right,
      exists_or, exists_eq_left, exists_exists_and_eq_and]
  | false => simp

theorem mem_subdirectories : (path, sub) ∈ tree.subdirectories descends ↔
    ∃ name entries rest, path = name :: rest ∧ (name, .inl entries) ∈ tree.toList ∧
      descends name ∧ (rest, sub) ∈ entries.directories descends := by
  induction tree with
  | nil => simp [subdirectories, toList]
  | file name data rest ihrest =>
    rw [subdirectories, ihrest]
    simp [toList]
  | dir name entries rest _ ihrest =>
    rw [subdirectories, List.mem_append, ihrest]
    constructor
    · rintro (hmem | ⟨other, entries', rest', hpath, hother, hrest⟩)
      · split at hmem
        · rename_i hname
          rcases List.mem_cons.mp hmem with heq | hmem
          · obtain ⟨rfl, rfl⟩ := Prod.mk.inj heq
            exact ⟨name, _, [], rfl, List.mem_cons_self, hname, List.mem_cons_self⟩
          · obtain ⟨⟨path', sub'⟩, hbelow, heq⟩ := List.mem_map.mp hmem
            obtain ⟨rfl, rfl⟩ := Prod.mk.inj heq
            exact ⟨name, entries, path', rfl, List.mem_cons_self, hname, List.mem_cons_of_mem _ hbelow⟩
        · exact absurd hmem List.not_mem_nil
      · exact ⟨other, entries', rest', hpath, List.mem_cons_of_mem _ hother, hrest⟩
    · rintro ⟨other, entries', rest', hpath, hother, hdescends, hrest⟩
      rcases List.mem_cons.mp hother with heq | hother
      · obtain ⟨rfl, hentries⟩ := Prod.mk.inj heq
        obtain rfl := Sum.inl.inj hentries
        left
        rw [if_pos hdescends, hpath]
        rcases List.mem_cons.mp hrest with heq | hrest
        · obtain ⟨rfl, rfl⟩ := Prod.mk.inj heq
          exact List.mem_cons_self
        · exact List.mem_cons_of_mem _ (List.mem_map.mpr ⟨(rest', sub), hrest, rfl⟩)
      · exact Or.inr ⟨other, entries', rest', hpath, hother, hdescends, hrest⟩

@[simp] theorem mem_directories_nil : ([], sub) ∈ tree.directories descends ↔ sub = tree := by
  rw [directories, List.mem_cons, mem_subdirectories]
  simp

@[simp] theorem mem_directories_cons : (name :: path, sub) ∈ tree.directories descends ↔
    ∃ entries, (name, .inl entries) ∈ tree.toList ∧ descends name ∧
      (path, sub) ∈ entries.directories descends := by
  rw [directories, List.mem_cons, mem_subdirectories]
  constructor
  · rintro (heq | ⟨other, entries, rest, heq, hrest⟩)
    · exact absurd (Prod.mk.inj heq).1 (List.cons_ne_nil _ _)
    · obtain ⟨rfl, rfl⟩ := List.cons.inj heq
      exact ⟨entries, hrest⟩
  · rintro ⟨entries, hrest⟩
    exact Or.inr ⟨name, entries, path, rfl, hrest⟩

/-- **A directory is come to from the one it is in.** -/
theorem mem_directories_concat : (path ++ [name], sub) ∈ tree.directories descends ↔
    ∃ parent, (path, parent) ∈ tree.directories descends ∧ (name, .inl sub) ∈ parent.toList ∧
      descends name := by
  induction path generalizing tree with
  | nil =>
    rw [List.nil_append, mem_directories_cons]
    simp only [mem_directories_nil]
    constructor
    · rintro ⟨entries, hmem, hname, rfl⟩
      exact ⟨tree, rfl, hmem, hname⟩
    · rintro ⟨parent, rfl, hmem, hname⟩
      exact ⟨sub, hmem, hname, rfl⟩
  | cons first path ih =>
    rw [List.cons_append, mem_directories_cons]
    simp only [mem_directories_cons, ih]
    constructor
    · rintro ⟨entries, hmem, hfirst, parent, hparent, hsub⟩
      exact ⟨parent, ⟨entries, hmem, hfirst, hparent⟩, hsub⟩
    · rintro ⟨parent, ⟨entries, hmem, hfirst, hparent⟩, hsub⟩
      exact ⟨entries, hmem, hfirst, parent, hparent, hsub⟩

/-- Above a directory that is come to there are others. -/
theorem exists_mem_directories_of_isPrefix {other : List κ}
    (h : (path, sub) ∈ tree.directories descends) (hother : other <+: path) :
    ∃ sub', (other, sub') ∈ tree.directories descends := by
  induction other generalizing tree path with
  | nil => exact ⟨tree, mem_directories_nil.mpr rfl⟩
  | cons first other ih =>
    obtain ⟨rest, rfl⟩ := hother
    obtain ⟨entries, hmem, hfirst, hrest⟩ := mem_directories_cons.mp h
    obtain ⟨sub', hsub'⟩ := ih hrest (List.prefix_append other rest)
    exact ⟨sub', mem_directories_cons.mpr ⟨entries, hmem, hfirst, hsub'⟩⟩

end DirTree
