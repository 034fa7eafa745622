import CrunRs.Lib.Lts
import Mathlib.Logic.Function.Basic

/-!
# Importing an image

`import_into` of `image.rs`, one file-system call a step, for any number of processes that import an
image of the same name.  The name is taken if its directory exists, and a process whose unpacking
fails removes that directory again.

Between the test and `create_dir_all` there is nothing that keeps a second process out.  It may come
through the test as well, stumble over the files of the first one, and remove an image whose import
has succeeded (`import_lost`).  Where no process makes the directory when it is already there, an
image that was imported stays whole, and what can be listed is whole, or has an owner who writes its
configuration or removes it (`import_interleavings`).
-/

set_option autoImplicit false

namespace CrunRs.Image

open Lts

variable {α : Type}

/-! ## The steps -/

/-- `config.json`: `fs::write` makes the file, and then writes it. -/
inductive ConfigFile
  | created
  | written
  deriving DecidableEq, Repr

/-- The directory of an image: what has been unpacked into its rootfs, if there is one, and its
configuration. -/
structure ImageDir (α : Type) where
  rootfs : Option (List α) := none
  config : Option ConfigFile := none
  deriving DecidableEq

/-- What `list_from` shows and `bundle_path` accepts. -/
def ImageDir.Listed (dir : ImageDir α) : Prop := dir.rootfs.isSome ∧ dir.config.isSome

/-- Where an import is: about to do what the name says, or through with it. -/
inductive Phase (α : Type)
  | checking
  | creating
  | creatingRootfs
  | extracting (left : List α)
  | writing
  | removing
  | done (ok : Bool)
  deriving DecidableEq

inductive ImportAct (α : Type)
  /-- `dir.exists()`. -/
  | check
  /-- `create_dir_all`, for the directory of the image and for the rootfs in it. -/
  | create
  /-- Unpack the next entry. -/
  | extract
  | openConfig
  | writeConfig
  /-- The call that is next fails. -/
  | fail
  /-- `remove_dir_all` removes something and leaves `left`. -/
  | removeSome (left : ImageDir α)
  | remove
  deriving DecidableEq

/-- What a call does to the directory of the image, and to the import that makes it. -/
def advance (archive : List α) : Option (ImageDir α) → Phase α → ImportAct α →
    Option (Option (ImageDir α) × Phase α)
  -- what comes before the test: the name, the archive and the root of the images
  | dir, .checking, .fail => some (dir, .done false)
  | dir, .checking, .check => some (dir, if dir.isSome then .done false else .creating)
  | dir, .creating, .create => some (some (dir.getD {}), .creatingRootfs)
  -- an error of `create_dir_all` is returned at once, without the cleanup
  | dir, .creating, .fail => some (dir, .done false)
  | some dir, .creatingRootfs, .create =>
    some (some { dir with rootfs := some (dir.rootfs.getD []) }, .extracting archive)
  | dir, .creatingRootfs, .fail => some (dir, .done false)
  | some dir, .extracting (file :: left), .extract =>
    some (some { dir with rootfs := some (dir.rootfs.getD [] ++ [file]) }, .extracting left)
  | dir, .extracting _, .fail => some (dir, .removing)
  | some dir, .extracting [], .openConfig =>
    some (some { dir with config := some .created }, .writing)
  -- the open file can be written even if its directory is gone
  | dir, .writing, .writeConfig =>
    some (dir.map fun dir ↦ { dir with config := dir.config.map fun _ ↦ .written }, .done true)
  | dir, .writing, .fail => some (dir, .removing)
  | some _, .removing, .removeSome left => some (some left, .removing)
  -- `NotFound` counts as removed
  | _, .removing, .remove => some (none, .done false)
  | dir, .removing, .fail => some (dir, .done false)
  | _, _, _ => none

structure ImportSystem (α : Type) where
  dir : Option (ImageDir α)
  phase : ℕ → Phase α

namespace ImportSystem

/-- A process makes a call. -/
def step (archive : ℕ → List α) (s : ImportSystem α) (a : ℕ × ImportAct α) :
    Option (ImportSystem α) :=
  (advance (archive a.1) s.dir (s.phase a.1) a.2).map fun result ↦
    ⟨result.1, Function.update s.phase a.1 result.2⟩

/-- No image of that name, and nobody has begun. -/
def start : ImportSystem α where
  dir := none
  phase := fun _ ↦ .checking

end ImportSystem

/-! ## Whose directory it is -/

/-- The import has made the directory, and has not given it up. -/
def Phase.Owns : Phase α → Prop
  | .creatingRootfs | .extracting _ | .writing | .removing | .done true => True
  | _ => False

/-- The whole image. -/
def wholeImage (archive : List α) : ImageDir α := ⟨some archive, some .written⟩

/-- The directory is as its owner has left it. -/
def Phase.Fits (archive : List α) (dir : Option (ImageDir α)) : Phase α → Prop
  | .creatingRootfs => dir = some {}
  | .extracting left => ∃ files, dir = some ⟨some files, none⟩ ∧ files ++ left = archive
  | .writing => dir = some ⟨some archive, some .created⟩
  | .removing => dir.isSome
  | .done true => dir = some (wholeImage archive)
  | _ => True

/-- A process that makes the directory of the image finds none there. -/
def CreatesFresh (s : ImportSystem α) (a : ℕ × ImportAct α) : Prop :=
  s.phase a.1 = .creating → a.2 = .create → s.dir = none

/-- And what is to be removed can be. -/
def Removes (s : ImportSystem α) (a : ℕ × ImportAct α) : Prop :=
  CreatesFresh s a ∧ (s.phase a.1 = .removing → a.2 ≠ .fail)

instance [DecidableEq α] (s : ImportSystem α) (a : ℕ × ImportAct α) : Decidable (CreatesFresh s a) :=
  inferInstanceAs (Decidable (_ → _ → _))

instance [DecidableEq α] (s : ImportSystem α) (a : ℕ × ImportAct α) : Decidable (Removes s a) :=
  inferInstanceAs (Decidable (_ ∧ (_ → _)))

/-- At most one import owns the directory, which is as that one has left it. -/
structure Orderly (archive : ℕ → List α) (s : ImportSystem α) : Prop where
  one : ∀ p q, (s.phase p).Owns → (s.phase q).Owns → p = q
  fits : ∀ p, (s.phase p).Fits (archive p) s.dir

/-- And there is nothing in a directory without an owner. -/
structure Tidy (archive : ℕ → List α) (s : ImportSystem α) : Prop extends Orderly archive s where
  free : (∀ p, ¬ (s.phase p).Owns) → s.dir = none ∨ s.dir = some {}

/-! ## One call -/

section

variable {archive : List α} {dir dir' : Option (ImageDir α)} {phase phase' : Phase α}
  {a : ImportAct α}

theorem Phase.Fits.of_not_owns (h : ¬ phase.Owns) : phase.Fits archive dir := by
  cases phase with
  | done ok =>
    cases ok with
    | true => exact (h trivial).elim
    | false => trivial
  | checking => trivial
  | creating => trivial
  | _ => exact (h trivial).elim

/-- There is a directory where one is owned. -/
theorem Phase.Fits.isSome (h : phase.Fits archive dir) (howns : phase.Owns) : dir.isSome := by
  cases phase with
  | done ok =>
    cases ok with
    | true => exact Option.isSome_of_eq_some h
    | false => exact howns.elim
  | checking => exact howns.elim
  | creating => exact howns.elim
  | extracting left =>
    obtain ⟨files, hdir, -⟩ := h
    exact Option.isSome_of_eq_some hdir
  | creatingRootfs => exact Option.isSome_of_eq_some h
  | writing => exact Option.isSome_of_eq_some h
  | removing => exact h

/-- **What a call does.**  What an owner leaves fits, and is nothing if it gives up the directory by
anything but a failing `remove_dir_all`; a process that makes the directory becomes its owner; and no
other call changes anything, or makes an owner. -/
theorem advance_cases (h : advance archive dir phase a = some (dir', phase')) :
    (phase.Owns ∧ (phase.Fits archive dir → phase'.Fits archive dir' ∧
        (¬ phase'.Owns → (phase = .removing → a ≠ .fail) → dir' = none ∨ dir' = some {}))) ∨
      (phase = .creating ∧ a = .create ∧ dir' = some (dir.getD {}) ∧ phase' = .creatingRootfs) ∨
      (¬ phase.Owns ∧ dir' = dir ∧ ¬ phase'.Owns) := by
  unfold advance at h
  split at h <;> cases h
  case h_1 => exact Or.inr (Or.inr ⟨id, rfl, id⟩)
  case h_2 =>
    refine Or.inr (Or.inr ⟨id, rfl, ?_⟩)
    split <;> exact id
  case h_3 => exact Or.inr (Or.inl ⟨rfl, rfl, rfl, rfl⟩)
  case h_4 => exact Or.inr (Or.inr ⟨id, rfl, id⟩)
  case h_5 =>
    refine Or.inl ⟨trivial, fun hfits ↦ ⟨?_, fun hgone ↦ absurd trivial hgone⟩⟩
    obtain rfl := Option.some.inj hfits
    exact ⟨[], rfl, rfl⟩
  case h_6 => exact Or.inl ⟨trivial, fun hfits ↦ ⟨trivial, fun _ _ ↦ Or.inr hfits⟩⟩
  case h_7 =>
    refine Or.inl ⟨trivial, fun hfits ↦ ⟨?_, fun hgone ↦ absurd trivial hgone⟩⟩
    obtain ⟨files, hdir, hfiles⟩ := hfits
    obtain rfl := Option.some.inj hdir
    exact ⟨files ++ [_], rfl, by rw [← hfiles, List.append_assoc, List.singleton_append]⟩
  case h_8 =>
    refine Or.inl ⟨trivial, fun hfits ↦ ⟨?_, fun hgone ↦ absurd trivial hgone⟩⟩
    exact hfits.isSome trivial
  case h_9 =>
    refine Or.inl ⟨trivial, fun hfits ↦ ⟨?_, fun hgone ↦ absurd trivial hgone⟩⟩
    obtain ⟨files, hdir, hfiles⟩ := hfits
    obtain rfl := Option.some.inj hdir
    rw [List.append_nil] at hfiles
    exact hfiles ▸ rfl
  case h_10 =>
    refine Or.inl ⟨trivial, fun hfits ↦ ⟨?_, fun hgone ↦ absurd trivial hgone⟩⟩
    rw [Phase.Fits] at hfits
    rw [hfits]
    rfl
  case h_11 =>
    refine Or.inl ⟨trivial, fun hfits ↦ ⟨?_, fun hgone ↦ absurd trivial hgone⟩⟩
    exact hfits.isSome trivial
  case h_12 => exact Or.inl ⟨trivial, fun _ ↦ ⟨rfl, fun hgone ↦ absurd trivial hgone⟩⟩
  case h_13 => exact Or.inl ⟨trivial, fun _ ↦ ⟨trivial, fun _ _ ↦ Or.inl rfl⟩⟩
  case h_14 => exact Or.inl ⟨trivial, fun _ ↦ ⟨trivial, fun _ hfail ↦ absurd rfl (hfail rfl)⟩⟩

end

/-! ## A run -/

variable {archive : ℕ → List α} {s s' : ImportSystem α} {a : ℕ × ImportAct α}

theorem step_eq_some (h : s.step archive a = some s') :
    advance (archive a.1) s.dir (s.phase a.1) a.2 = some (s'.dir, s'.phase a.1) ∧
      ∀ q, q ≠ a.1 → s'.phase q = s.phase q := by
  obtain ⟨result, hadvance, rfl⟩ := Option.map_eq_some_iff.mp h
  refine ⟨?_, fun q hq ↦ Function.update_of_ne hq _ _⟩
  rw [hadvance]
  dsimp only
  rw [Function.update_self]

/-- A directory that no other process owns. -/
theorem Orderly.of_alone {p : ℕ} (hothers : ∀ q, q ≠ p → ¬ (s.phase q).Owns)
    (hfits : (s.phase p).Fits (archive p) s.dir) : Orderly archive s where
  one := by
    have heq : ∀ q, (s.phase q).Owns → q = p := fun q hq ↦ by_contra fun hne ↦ hothers q hne hq
    exact fun q r hq hr ↦ (heq q hq).trans (heq r hr).symm
  fits := by
    intro q
    by_cases hq : q = p
    · exact hq ▸ hfits
    · exact .of_not_owns (hothers q hq)

theorem Orderly.step (h : Orderly archive s) (hfresh : CreatesFresh s a)
    (hstep : s.step archive a = some s') : Orderly archive s' := by
  obtain ⟨hadvance, hsame⟩ := step_eq_some hstep
  obtain ⟨howns, hkeeps⟩ | ⟨hphase, hact, hdir, hphase'⟩ | ⟨-, hdir, hnot⟩ := advance_cases hadvance
  · refine .of_alone (fun q hq hother ↦ ?_) (hkeeps (h.fits a.1)).1
    rw [hsame q hq] at hother
    exact hq (h.one q a.1 hother howns)
  · have hnone := hfresh hphase hact
    refine .of_alone (p := a.1) (fun q hq hother ↦ ?_) ?_
    · rw [hsame q hq] at hother
      have hsome := (h.fits q).isSome hother
      rw [hnone] at hsome
      cases hsome
    · rw [hphase', hdir, hnone]
      rfl
  · have howns : ∀ p, (s'.phase p).Owns → (s.phase p).Owns := fun p hp ↦ by
      have hne : p ≠ a.1 := fun heq ↦ hnot (heq ▸ hp)
      rwa [hsame p hne] at hp
    refine ⟨fun p q hp hq ↦ h.one p q (howns p hp) (howns q hq), fun p ↦ ?_⟩
    by_cases hp : p = a.1
    · exact .of_not_owns (hp ▸ hnot)
    · rw [hsame p hp, hdir]
      exact h.fits p

theorem Tidy.step (h : Tidy archive s) (hremoves : Removes s a)
    (hstep : s.step archive a = some s') : Tidy archive s' := by
  refine ⟨h.toOrderly.step hremoves.1 hstep, fun hnobody ↦ ?_⟩
  obtain ⟨hadvance, hsame⟩ := step_eq_some hstep
  obtain ⟨-, hkeeps⟩ | ⟨-, -, -, hphase'⟩ | ⟨hnot, hdir, -⟩ := advance_cases hadvance
  · exact (hkeeps (h.fits a.1)).2 (hnobody a.1) hremoves.2
  · have hno := hnobody a.1
    rw [hphase'] at hno
    exact absurd trivial hno
  · rw [hdir]
    refine h.free fun p ↦ ?_
    by_cases hp : p = a.1
    · exact hp ▸ hnot
    · exact hsame p hp ▸ hnobody p

theorem tidy_start : Tidy archive (ImportSystem.start : ImportSystem α) where
  one := fun _ _ hp ↦ hp.elim
  fits := fun _ ↦ trivial
  free := fun _ ↦ Or.inl rfl

/-- What an owner has can be listed if the import is through, or at its configuration, or at
removing it. -/
theorem Phase.Fits.of_listed {archive : List α} {dir : ImageDir α} {phase : Phase α}
    (h : phase.Fits archive (some dir)) (howns : phase.Owns) (hlisted : dir.Listed) :
    (phase = .done true ∧ dir = wholeImage archive) ∨ phase = .writing ∨ phase = .removing := by
  cases phase with
  | done ok =>
    cases ok with
    | true => exact Or.inl ⟨rfl, Option.some.inj h⟩
    | false => exact howns.elim
  | checking => exact howns.elim
  | creating => exact howns.elim
  | extracting left =>
    obtain ⟨files, hdir, -⟩ := h
    rw [Option.some.inj hdir] at hlisted
    cases hlisted.2
  | creatingRootfs =>
    rw [Option.some.inj h] at hlisted
    cases hlisted.2
  | writing => exact Or.inr (Or.inl rfl)
  | removing => exact Or.inr (Or.inr rfl)

/-- **Imports of one name.**  In every run in which no process makes the directory when it is there,
at most one import succeeds, and its image stays whole.  If besides no removal fails, an image can be
listed only if its import has succeeded, or is at its configuration or at removing it; and when nobody
owns the directory there is none, or an empty one. -/
theorem import_interleavings {acts : List (ℕ × ImportAct α)}
    (hexec : exec (ImportSystem.step archive) .start acts = some s)
    (hfresh : Along (ImportSystem.step archive) CreatesFresh .start acts) :
    (∀ p, s.phase p = .done true → s.dir = some (wholeImage (archive p)) ∧
      ∀ q, s.phase q = .done true → q = p) ∧
    (Along (ImportSystem.step archive) Removes .start acts →
      (∀ dir, s.dir = some dir → dir.Listed → ∃ p,
        (s.phase p = .done true ∧ dir = wholeImage (archive p)) ∨ s.phase p = .writing ∨
          s.phase p = .removing) ∧
      ((∀ p, ¬ (s.phase p).Owns) → s.dir = none ∨ s.dir = some {})) := by
  have horderly : Orderly archive s :=
    invariant_along (fun _ _ _ h hc hstep ↦ Orderly.step h hc hstep) tidy_start.toOrderly hfresh hexec
  refine ⟨fun p hp ↦ ⟨?_, fun q hq ↦ ?_⟩, fun hremoves ↦ ?_⟩
  · have hfits := horderly.fits p
    rwa [hp] at hfits
  · exact horderly.one q p (by rw [hq]; trivial) (by rw [hp]; trivial)
  · have htidy : Tidy archive s :=
      invariant_along (fun _ _ _ h hc hstep ↦ Tidy.step h hc hstep) tidy_start hremoves hexec
    refine ⟨fun dir hdir hlisted ↦ ?_, htidy.free⟩
    by_cases howner : ∃ p, (s.phase p).Owns
    · obtain ⟨p, howns⟩ := howner
      have hfits := horderly.fits p
      rw [hdir] at hfits
      exact ⟨p, hfits.of_listed howns hlisted⟩
    · rcases htidy.free (not_exists.mp howner) with hnone | hempty
      · rw [hdir] at hnone
        cases hnone
      · rw [hdir, Option.some.injEq] at hempty
        rw [hempty] at hlisted
        cases hlisted.2

/-- One process imports an image, and another one comes too late. -/
def lateImport : List (ℕ × ImportAct ℕ) :=
  [(0, .check), (0, .create), (1, .check), (0, .create), (0, .extract), (0, .openConfig),
    (0, .writeConfig)]

theorem import_interleavings_late :
    ∃ s, exec (ImportSystem.step fun _ ↦ [7]) .start lateImport = some s ∧
      s.dir = some (wholeImage [7]) := by
  have hfresh : Along (ImportSystem.step fun _ ↦ [7]) CreatesFresh .start lateImport := by decide
  exact ⟨_, rfl, ((import_interleavings rfl hfresh).1 0 rfl).1⟩

/-- Both have found the name free.  The second one fails at a file that the first one has unpacked,
and removes the image of the first. -/
theorem import_lost :
    ∃ s, exec (ImportSystem.step fun _ ↦ [7]) .start
      [(0, .check), (1, .check), (0, .create), (0, .create), (0, .extract), (0, .openConfig),
        (0, .writeConfig), (1, .create), (1, .create), (1, .fail), (1, .remove)] = some s ∧
      s.phase 0 = .done true ∧ s.dir = none :=
  ⟨_, rfl, rfl, rfl⟩

end CrunRs.Image
