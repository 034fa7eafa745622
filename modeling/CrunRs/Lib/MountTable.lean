import Mathlib.Data.List.Find
import Mathlib.Data.List.Infix
import Mathlib.Data.List.TakeWhile

/-!
# Mount tables

The mounts of a namespace, newest first.  A mount shows a directory of a filesystem at its mountpoint,
and what is visible at a path is the newest mount whose point is above it: a mount hides everything
that was at or below its point before.

A recursive bind shows at its target what is visible at its source, mounts and all
(`locate_bind`, `flags_bind`).  A change of flags is different: it changes one mount, the one whose
point is the path, and so reaches as far down as no other mount begins (`visible_remount`).  A path that
is bound to itself and then changed keeps what it shows, and so does everything else; and of a
sequence of such changes each one reaches what it would have reached alone (`Rebound`).
-/

set_option autoImplicit false

namespace MountTable

universe u v

variable {κ : Type u} {φ : Type v}

/-- The directory `root` of a filesystem, shown at `point`. -/
structure Mount (κ : Type u) (φ : Type v) where
  point : List κ
  fs : ℕ
  root : List κ
  flags : φ

/-- The mounts of a namespace, newest first.  One of them is its root. -/
structure Table (κ : Type u) (φ : Type v) where
  mounts : List (Mount κ φ)
  rooted : ∃ m ∈ mounts, m.point = []

/-- A place in a filesystem. -/
structure Location (κ : Type u) where
  fs : ℕ
  inside : List κ
  deriving DecidableEq

/-- What a mount shows at a path below its point. -/
def Mount.locate (m : Mount κ φ) (path : List κ) : Location κ :=
  ⟨m.fs, m.root ++ path.drop m.point.length⟩

namespace Table

variable [DecidableEq κ] (t : Table κ φ)

/-- The newest mount above a path. -/
def visible (path : List κ) : Mount κ φ :=
  (t.mounts.find? fun m ↦ m.point <+: path).get (by
    obtain ⟨m, hm, hpoint⟩ := t.rooted
    rw [List.find?_isSome]
    exact ⟨m, hm, by simp [hpoint]⟩)

/-- What is visible at a path. -/
def locate (path : List κ) : Location κ := (t.visible path).locate path

/-- The flags of the mount that is visible at a path. -/
def flags (path : List κ) : φ := (t.visible path).flags

/-- A new mount. -/
def attach (m : Mount κ φ) : Table κ φ where
  mounts := m :: t.mounts
  rooted := by
    obtain ⟨root, hmem, hpoint⟩ := t.rooted
    exact ⟨root, List.mem_cons_of_mem m hmem, hpoint⟩

/-- A mount that is copied with the one above it. -/
def moved (source target : List κ) (m : Mount κ φ) : Mount κ φ :=
  { m with point := target ++ m.point.drop source.length }

/-- The mounts on top of the one that is visible at a path. -/
def below (source : List κ) : List (Mount κ φ) :=
  (t.mounts.takeWhile fun m ↦ ¬ m.point <+: source).filter fun m ↦ source <+: m.point

/-- The directory that is visible at a path, shown at its own point. -/
def shown (source target : List κ) : Mount κ φ :=
  { t.visible source with
    point := target
    root := (t.visible source).root ++ source.drop (t.visible source).point.length }

/-- Bind `source` to `target`, and with `recursive` the mounts below it as well. -/
def bind (recursive : Bool) (source target : List κ) : Table κ φ where
  mounts := (if recursive then (t.below source).map (moved source target) else []) ++
    t.shown source target :: t.mounts
  rooted := by
    obtain ⟨root, hmem, hpoint⟩ := t.rooted
    exact ⟨root, List.mem_append_right _ (List.mem_cons_of_mem _ hmem), hpoint⟩

/-- Set the flags of the first mount that meets a condition. -/
def setFlags (p : Mount κ φ → Bool) (flags : φ) : List (Mount κ φ) → List (Mount κ φ)
  | [] => []
  | m :: mounts => if p m then { m with flags } :: mounts else m :: setFlags p flags mounts

omit [DecidableEq κ] in
theorem map_point_setFlags (p : Mount κ φ → Bool) (flags : φ) (mounts : List (Mount κ φ)) :
    (setFlags p flags mounts).map Mount.point = mounts.map Mount.point := by
  induction mounts with
  | nil => rfl
  | cons m mounts ih =>
    rw [setFlags]
    split
    · rfl
    · rw [List.map_cons, ih, List.map_cons]

/-- Change the flags of the mount that is visible at a path. -/
def remount (flags : φ) (path : List κ) : Table κ φ where
  mounts := setFlags (fun m ↦ m.point <+: path) flags t.mounts
  rooted := by
    obtain ⟨root, hmem, hpoint⟩ := t.rooted
    have hpoints : root.point ∈ (setFlags (fun m ↦ m.point <+: path) flags t.mounts).map
        Mount.point := by
      rw [map_point_setFlags]
      exact List.mem_map_of_mem hmem
    obtain ⟨m, hm, hsame⟩ := List.mem_map.mp hpoints
    exact ⟨m, hm, hsame.trans hpoint⟩

/-! ## What is visible -/

variable {t} {path source target : List κ} {m : Mount κ φ}

theorem find?_visible : t.mounts.find? (fun m ↦ m.point <+: path) = some (t.visible path) :=
  (Option.some_get _).symm

theorem visible_eq (h : t.mounts.find? (fun m ↦ m.point <+: path) = some m) :
    t.visible path = m :=
  Option.some.inj (find?_visible.symm.trans h)

/-- The point of what is visible is above the path. -/
theorem point_visible : (t.visible path).point <+: path := by
  have h := List.find?_some (@find?_visible κ φ _ t path)
  exact of_decide_eq_true h

theorem visible_attach_of_prefix (h : m.point <+: path) : (t.attach m).visible path = m :=
  visible_eq (List.find?_cons_of_pos (by simpa using h))

theorem visible_attach_of_not (h : ¬ m.point <+: path) :
    (t.attach m).visible path = t.visible path :=
  visible_eq ((List.find?_cons_of_neg (by simpa using h)).trans find?_visible)

/-- Below a path the mounts on top of the one that is visible there are the newest. -/
theorem find?_below (q : List κ) :
    t.mounts.find? (fun m ↦ m.point <+: source ++ q) =
      ((t.below source).find? fun m ↦ m.point <+: source ++ q).or (some (t.visible source)) := by
  obtain ⟨hpoint, front, back, hmounts, hfront⟩ :=
    List.find?_eq_some_iff_append.mp (@find?_visible κ φ _ t source)
  have hnot : ∀ m ∈ front, ¬ m.point <+: source := fun m hm ↦ by simpa using hfront m hm
  have htake : t.mounts.takeWhile (fun m ↦ ¬ m.point <+: source) = front := by
    rw [hmounts, List.takeWhile_append_of_pos (by simpa using hnot),
      List.takeWhile_cons_of_neg (by simpa using hpoint), List.append_nil]
  -- a point above the longer path, and not above the shorter, is between them
  have hbetween : ∀ m ∈ front, m.point <+: source ++ q → source <+: m.point := fun m hm hq ↦
    (List.prefix_or_prefix_of_prefix hq (List.prefix_append source q)).resolve_left (hnot m hm)
  have hvisible : (t.visible source).point <+: source ++ q :=
    point_visible.trans (List.prefix_append source q)
  rw [below, htake, List.find?_filter, hmounts, List.find?_append,
    List.find?_cons_of_pos (by simpa using hvisible)]
  congr 1
  refine List.find?_congr fun m hm ↦ ?_
  by_cases hq : m.point <+: source ++ q
  · simp [hq, hbetween m hm hq]
  · simp [hq]

theorem prefix_of_mem_below (h : m ∈ t.below source) : ∃ r, m.point = source ++ r := by
  obtain ⟨r, hr⟩ := of_decide_eq_true (List.mem_filter.mp h).2
  exact ⟨r, hr.symm⟩

/-- Where a mount that is copied is above a path. -/
theorem moved_prefix_iff {q : List κ} (h : m ∈ t.below source) :
    (moved source target m).point <+: target ++ q ↔ m.point <+: source ++ q := by
  obtain ⟨r, hr⟩ := prefix_of_mem_below h
  rw [moved, hr, List.drop_left, List.prefix_append_right_inj, List.prefix_append_right_inj]

/-- What is visible below a path, and below the target of a recursive bind of it. -/
theorem visible_cases (source target q : List κ) :
    (∃ m ∈ t.below source, t.visible (source ++ q) = m ∧
      (t.bind true source target).visible (target ++ q) = moved source target m) ∨
    (t.visible (source ++ q) = t.visible source ∧
      (t.bind true source target).visible (target ++ q) = t.shown source target) := by
  have hcopies : ((t.below source).map (moved source target)).find?
      (fun m ↦ m.point <+: target ++ q) =
        ((t.below source).find? fun m ↦ m.point <+: source ++ q).map (moved source target) := by
    rw [List.find?_map]
    refine congrArg _ (List.find?_congr fun m hm ↦ ?_)
    simp only [Function.comp_apply, moved_prefix_iff hm]
  have hshown : (t.shown source target).point <+: target ++ q := List.prefix_append target q
  have hbind : (t.bind true source target).mounts.find? (fun m ↦ m.point <+: target ++ q) =
      (((t.below source).find? fun m ↦ m.point <+: source ++ q).map (moved source target)).or
        (some (t.shown source target)) := by
    have hmounts : (t.bind true source target).mounts =
        (t.below source).map (moved source target) ++ t.shown source target :: t.mounts := rfl
    rw [hmounts, List.find?_append, hcopies, List.find?_cons_of_pos (by simpa using hshown)]
  have hbelow := @find?_below κ φ _ t source q
  cases hfound : (t.below source).find? fun m ↦ m.point <+: source ++ q with
  | none =>
    rw [hfound] at hbind hbelow
    exact Or.inr ⟨visible_eq hbelow, visible_eq hbind⟩
  | some m =>
    rw [hfound] at hbind hbelow
    exact Or.inl ⟨m, List.mem_of_find?_eq_some hfound, visible_eq hbelow, visible_eq hbind⟩

/-- **A recursive bind shows what was visible at its source.** -/
theorem locate_bind (source target q : List κ) :
    (t.bind true source target).locate (target ++ q) = t.locate (source ++ q) := by
  rw [locate, locate]
  rcases @visible_cases κ φ _ t source target q with ⟨m, hm, hfrom, hto⟩ | ⟨hfrom, hto⟩
  · obtain ⟨r, hr⟩ := prefix_of_mem_below hm
    have hdrop : ∀ front : List κ, (front ++ q).drop (front ++ r).length = q.drop r.length := by
      intro front
      rw [List.length_append, ← List.drop_drop, List.drop_left]
    rw [hfrom, hto, Mount.locate, Mount.locate, moved, hr, List.drop_left, hdrop, hdrop]
  · have hle : (t.visible source).point.length ≤ source.length := point_visible.length_le
    rw [hfrom, hto, Mount.locate, Mount.locate, shown, List.drop_left,
      List.drop_append_of_le_length hle, List.append_assoc]

/-- ... with the flags it was visible with. -/
theorem flags_bind (source target q : List κ) :
    (t.bind true source target).flags (target ++ q) = t.flags (source ++ q) := by
  rw [flags, flags]
  rcases @visible_cases κ φ _ t source target q with ⟨m, -, hfrom, hto⟩ | ⟨hfrom, hto⟩
  · rw [hfrom, hto, moved]
  · rw [hfrom, hto, shown]

/-- Nothing else is to be seen of a bind. -/
theorem visible_bind_of_not {recursive : Bool} (h : ¬ target <+: path) :
    (t.bind recursive source target).visible path = t.visible path := by
  refine visible_eq ?_
  rw [bind, List.find?_append, List.find?_cons_of_neg (by rw [shown]; simpa using h),
    find?_visible]
  refine Option.or_eq_some_iff.mpr (Or.inr ⟨List.find?_eq_none.mpr ?_, rfl⟩)
  intro m hm hpoint
  have habove : target <+: m.point := by
    cases recursive with
    | false => simp at hm
    | true =>
      obtain ⟨n, -, rfl⟩ := List.mem_map.mp hm
      exact List.prefix_append _ _
  exact h (habove.trans (of_decide_eq_true hpoint))

/-- A bind that is not recursive shows one mount only. -/
theorem visible_bind_false (source target q : List κ) :
    (t.bind false source target).visible (target ++ q) = t.shown source target :=
  visible_eq (List.find?_cons_of_pos (by simp [shown]))

/-! ## Changes of flags -/

/-- The flags of the first mount that is above one path, as it is found from another. -/
theorem find?_setFlags {flags : φ} {mounts : List (Mount κ φ)}
    (h : mounts.find? (fun m ↦ m.point <+: path) = some m) {q : List κ} {n : Mount κ φ}
    (hpath : m.point = path) (hfound : mounts.find? (fun m ↦ m.point <+: q) = some n) :
    (setFlags (fun m ↦ m.point <+: path) flags mounts).find? (fun m ↦ m.point <+: q) =
      some (if path <+: q ∧ n.point <+: path then { n with flags } else n) := by
  induction mounts with
  | nil => simp at h
  | cons first mounts ih =>
    rw [setFlags]
    by_cases hfirst : first.point <+: path
    · -- this is the mount that is changed
      rw [List.find?_cons_of_pos (by simpa using hfirst)] at h
      obtain rfl := Option.some.inj h
      rw [if_pos (by simpa using hfirst)]
      by_cases hq : first.point <+: q
      · rw [List.find?_cons_of_pos (by simpa using hq)] at hfound ⊢
        obtain rfl := Option.some.inj hfound
        rw [if_pos ⟨hpath ▸ hq, hfirst⟩]
      · rw [List.find?_cons_of_neg (by simpa using hq)] at hfound ⊢
        rw [hfound, if_neg (by rw [← hpath]; exact fun hand ↦ hq hand.1)]
    · rw [List.find?_cons_of_neg (by simpa using hfirst)] at h
      rw [if_neg (by simpa using hfirst)]
      by_cases hq : first.point <+: q
      · rw [List.find?_cons_of_pos (by simpa using hq)] at hfound ⊢
        obtain rfl := Option.some.inj hfound
        rw [if_neg fun hand ↦ hfirst hand.2]
      · rw [List.find?_cons_of_neg (by simpa using hq)] at hfound ⊢
        exact ih h hfound

/-- **A change of flags** reaches what is below the path and has no other mount in between. -/
theorem visible_remount {flags : φ} (hpath : (t.visible path).point = path) (q : List κ) :
    (t.remount flags path).visible q =
      if path <+: q ∧ (t.visible q).point <+: path then { t.visible q with flags }
      else t.visible q :=
  visible_eq (find?_setFlags find?_visible hpath find?_visible)

theorem locate_remount {flags : φ} (hpath : (t.visible path).point = path) (q : List κ) :
    (t.remount flags path).locate q = t.locate q := by
  rw [locate, locate, visible_remount hpath]
  split <;> rfl

/-! ## Binding a path to itself and changing its flags -/

/-- A path is reached from another one above it: no mount begins between them. -/
def Reaches (t : Table κ φ) (path q : List κ) : Prop := path <+: q ∧ (t.visible q).point <+: path

instance (t : Table κ φ) (path q : List κ) : Decidable (t.Reaches path q) :=
  inferInstanceAs (Decidable (_ ∧ _))

/-- Bind a path to itself, and give the bind its own flags. -/
def rebind (t : Table κ φ) (flags : φ) (path : List κ) : Table κ φ :=
  (t.bind true path path).remount flags path

theorem point_visible_bind_self (path q : List κ) :
    ((t.bind true path path).visible (path ++ q)).point =
      if (t.visible (path ++ q)).point <+: path then path else (t.visible (path ++ q)).point := by
  rcases @visible_cases κ φ _ t path path q with ⟨m, hm, hfrom, hto⟩ | ⟨hfrom, hto⟩
  · obtain ⟨r, hr⟩ := prefix_of_mem_below hm
    have hnot : ¬ m.point <+: path := by
      have htake := List.mem_takeWhile_imp (List.mem_of_mem_filter hm)
      simpa using htake
    rw [hfrom, hto, if_neg hnot, moved, hr, List.drop_left]
  · rw [hfrom, hto, if_pos point_visible, shown]

theorem visible_bind_self_point (path : List κ) :
    ((t.bind true path path).visible path).point = path := by
  have h := @point_visible_bind_self κ φ _ t path []
  rwa [List.append_nil, if_pos point_visible] at h

theorem locate_rebind (flags : φ) (path q : List κ) :
    (t.rebind flags path).locate q = t.locate q := by
  rw [rebind, locate_remount (visible_bind_self_point path)]
  by_cases hq : path <+: q
  · obtain ⟨r, rfl⟩ := hq
    exact locate_bind path path r
  · rw [locate, locate, visible_bind_of_not hq]

/-- The point of what is visible, after a rebind. -/
theorem point_rebind (flags : φ) (path q : List κ) :
    ((t.rebind flags path).visible q).point =
      if t.Reaches path q then path else (t.visible q).point := by
  rw [rebind, visible_remount (visible_bind_self_point path)]
  have hpoint : ((t.bind true path path).visible q).point =
      if t.Reaches path q then path else (t.visible q).point := by
    by_cases hq : path <+: q
    · obtain ⟨r, rfl⟩ := hq
      rw [point_visible_bind_self]
      simp only [Reaches, List.prefix_append, true_and]
    · rw [visible_bind_of_not hq, if_neg fun h ↦ hq h.1]
  split
  · exact hpoint
  · exact hpoint

theorem flags_rebind (flags : φ) (path q : List κ) :
    (t.rebind flags path).flags q = if t.Reaches path q then flags else t.flags q := by
  rw [Table.flags, rebind, visible_remount (visible_bind_self_point path)]
  by_cases hq : path <+: q
  · obtain ⟨r, rfl⟩ := hq
    have hflags := @flags_bind κ φ _ t path path r
    rw [Table.flags, Table.flags] at hflags
    rw [point_visible_bind_self, Table.flags]
    by_cases hreach : (t.visible (path ++ r)).point <+: path
    · rw [if_pos hreach, if_pos ⟨List.prefix_append path r, List.prefix_refl path⟩,
        if_pos ⟨List.prefix_append path r, hreach⟩]
    · rw [if_neg hreach, if_neg fun h ↦ hreach h.2, if_neg fun h ↦ hreach h.2, hflags]
  · rw [if_neg fun h ↦ hq h.1, if_neg fun h ↦ hq h.1, visible_bind_of_not hq, Table.flags]

/-! ## A sequence of rebinds -/

/-- What one table has become by rebinds of some paths: everything shows what it showed, the flags are
new where one of the paths reaches, and a mount that has come in between is behind such a path. -/
structure Rebound (t : Table κ φ) (flags : φ) (paths : List (List κ)) (t' : Table κ φ) : Prop where
  locate : ∀ q, t'.locate q = t.locate q
  flags : ∀ q, t'.flags q = if ∃ path ∈ paths, t.Reaches path q then flags else t.flags q
  reaches : ∀ path q, t'.Reaches path q → (∃ path' ∈ paths, t.Reaches path' q) ∨ t.Reaches path q
  reached : ∀ path q, t.Reaches path q → (∃ path' ∈ paths, t.Reaches path' q) ∨ t'.Reaches path q

theorem rebound_nil (t : Table κ φ) (flags : φ) : Rebound t flags [] t where
  locate := fun _ ↦ rfl
  flags := fun q ↦ by simp
  reaches := fun _ _ h ↦ Or.inr h
  reached := fun _ _ h ↦ Or.inr h

/-- **One more rebind.** -/
theorem Rebound.concat {t t' : Table κ φ} {flags : φ} {paths : List (List κ)}
    (h : Rebound t flags paths t') (path : List κ) :
    Rebound t flags (paths ++ [path]) (t'.rebind flags path) := by
  have hmem : ∀ q, (∃ p ∈ paths ++ [path], t.Reaches p q) ↔
      (∃ p ∈ paths, t.Reaches p q) ∨ t.Reaches path q := by
    intro q
    simp [or_and_right, exists_or]
  constructor
  · intro q
    rw [locate_rebind, h.locate]
  · intro q
    rw [flags_rebind, h.flags]
    by_cases hold : ∃ p ∈ paths, t.Reaches p q
    · rw [if_pos hold, if_pos ((hmem q).mpr (Or.inl hold)), ite_self]
    · have hiff : t'.Reaches path q ↔ t.Reaches path q :=
        ⟨fun hr ↦ (h.reaches path q hr).resolve_left hold,
          fun hr ↦ (h.reached path q hr).resolve_left hold⟩
      rw [if_neg hold]
      simp only [hmem, hold, false_or, hiff]
  · intro p q hreach
    rw [hmem]
    obtain ⟨hp, hpoint⟩ := hreach
    rw [point_rebind] at hpoint
    split at hpoint
    · -- the new mount is behind its own path
      rename_i hr
      exact Or.inl ((h.reaches path q hr).imp_right id)
    · exact (h.reaches p q ⟨hp, hpoint⟩).imp_left Or.inl
  · intro p q hreach
    rw [hmem]
    rcases h.reached p q hreach with hold | hr
    · exact Or.inl (Or.inl hold)
    · by_cases hpath : t'.Reaches path q
      · exact Or.inl (h.reaches path q hpath)
      · refine Or.inr ⟨hr.1, ?_⟩
        rw [point_rebind, if_neg hpath]
        exact hr.2

end Table

end MountTable
