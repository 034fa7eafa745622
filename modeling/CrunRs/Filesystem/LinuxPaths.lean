import CrunRs.Filesystem.Rootfs
import CrunRs.Filesystem.Settings
import CrunRs.Lib.Fallible
import CrunRs.Lib.MountTable

/-!
# Masked and read-only paths

`apply_oci_linux_paths` of `filesystem/mod.rs`, and what is left of a container's files after it.  The
calls of `mount(2)` that it makes act on a `MountSpace`: the mounts of the container, and the files of
the filesystems they show.  Paths are taken as they are once their symbolic links are followed.

What is masked is out of reach for good (`masked_paths_hidden`).  What is to be read-only is a matter
of mounts: `MS_REC` means nothing to a change of flags, so what is mounted below a read-only path stays
as writable as it was, and the flags that a mount had besides are lost (`readonly_paths_exact`).
-/

set_option autoImplicit false

namespace CrunRs.Filesystem

open MountTable

/-- The components of a path. -/
abbrev Parts := List (List UInt8)

/-- The components of a path that is written down. -/
def parts (path : String) : Parts := (OsPath.ofString path).components

/-- What there is at a place. -/
inductive FileKind
  | dir
  | other
  deriving DecidableEq, Repr

/-- The mounts of a container, and the files they show.  Only a directory has something in it. -/
structure MountSpace where
  table : Table (List UInt8) (Finset MsFlag)
  files : Location (List UInt8) → Option FileKind
  /-- No filesystem from this one on is mounted anywhere. -/
  next : ℕ
  /-- Whether a call fails for a reason of its own. -/
  refuses : MountCall → Bool
  known : ∀ m ∈ table.mounts, m.fs < next
  tree : ∀ fs inside name, files ⟨fs, inside ++ [name]⟩ ≠ none → files ⟨fs, inside⟩ = some .dir

namespace MountSpace

variable (k : MountSpace)

/-- What is there, at a path. -/
def seen (path : Parts) : Option FileKind := k.files (k.table.locate path)

/-- The files, with an empty filesystem more. -/
def withEmpty (loc : Location (List UInt8)) : Option FileKind :=
  if loc.fs = k.next then if loc.inside = [] then some .dir else none else k.files loc

/-- A new and empty filesystem. -/
def mountEmpty (target : Parts) (flags : Finset MsFlag) : MountSpace where
  table := k.table.attach ⟨target, k.next, [], flags⟩
  files := k.withEmpty
  next := k.next + 1
  refuses := k.refuses
  known := by
    intro m hm
    rcases List.mem_cons.mp hm with rfl | hm
    · exact Nat.lt_succ_self _
    · exact Nat.lt_succ_of_lt (k.known m hm)
  tree := by
    intro fs inside name h
    rw [withEmpty] at h ⊢
    split at h
    · simp at h
    · rename_i hfs
      rw [if_neg hfs]
      exact k.tree fs inside name h

/-- A bind. -/
def mountBind (recursive : Bool) (source target : Parts) : MountSpace where
  table := k.table.bind recursive source target
  files := k.files
  next := k.next
  refuses := k.refuses
  known := by
    have hvisible : ∀ path, (k.table.visible path).fs < k.next := fun path ↦
      k.known _ (List.mem_of_find?_eq_some Table.find?_visible)
    intro m hm
    rcases List.mem_append.mp hm with hm | hm
    · cases recursive with
      | false => simp at hm
      | true =>
        obtain ⟨n, hn, rfl⟩ := List.mem_map.mp hm
        exact k.known n ((List.takeWhile_sublist _).subset (List.mem_of_mem_filter hn))
    · rcases List.mem_cons.mp hm with rfl | hm
      · exact hvisible source
      · exact k.known m hm
  tree := k.tree

/-- A change of flags. -/
def changeFlags (target : Parts) (flags : Finset MsFlag) : MountSpace where
  table := k.table.remount flags target
  files := k.files
  next := k.next
  refuses := k.refuses
  known := by
    have hset : ∀ mounts : List (MountTable.Mount (List UInt8) (Finset MsFlag)),
        (∀ m ∈ mounts, m.fs < k.next) →
          ∀ m ∈ Table.setFlags (fun m ↦ m.point <+: target) flags mounts, m.fs < k.next := by
      intro mounts hmounts
      induction mounts with
      | nil => simp [Table.setFlags]
      | cons first mounts ih =>
        obtain ⟨hfirst, hrest⟩ := List.forall_mem_cons.mp hmounts
        rw [Table.setFlags]
        split
        · exact List.forall_mem_cons.mpr ⟨hfirst, hrest⟩
        · exact List.forall_mem_cons.mpr ⟨hfirst, ih hrest⟩
    exact hset _ k.known
  tree := k.tree

/-- `mount(2)`, as far as it is used here: a bind, a change of flags, or an empty `tmpfs`.  `MS_REC`
is ignored where flags are changed. -/
def mount (call : MountCall) : Option MountSpace :=
  let target := call.target.components
  if k.refuses call then none
  else match k.seen target with
  | none => none
  | some kind =>
    if .remount ∈ call.flags then
      if (k.table.visible target).point = target then
        some (k.changeFlags target (call.flags ∩ restrictions))
      else none
    else if .bind ∈ call.flags then match call.source with
      | none => none
      | some source =>
        if k.seen (parts source) = some kind then
          some (k.mountBind (MsFlag.recursive ∈ call.flags) (parts source) target)
        else none
    else if call.fstype = some "tmpfs" ∧ kind = .dir then
      some (k.mountEmpty target (call.flags ∩ restrictions))
    else none

/-- A call, and the context of its error. -/
def mountOr (call : MountCall) (context : String) : Except FilesystemError MountSpace :=
  match k.mount call with
  | some k' => .ok k'
  | none => .error (.context context)

/-- `mask_container_path`. -/
def maskContainerPath (path : String) : Except FilesystemError MountSpace :=
  match k.seen (parts path) with
  | none => .ok k
  | some .dir =>
    k.mountOr
      { source := some "tmpfs"
        target := OsPath.ofString path
        fstype := some "tmpfs"
        flags := {.rdonly, .nosuid, .nodev, .noexec}
        data := some "size=0k" }
      ("failed to mask directory path: " ++ path)
  | some .other =>
    k.mountOr { source := some "/dev/null", target := OsPath.ofString path, flags := {.bind} }
      ("failed to mask file path: " ++ path)

/-- `make_container_path_readonly`. -/
def makeContainerPathReadonly (path : String) : Except FilesystemError MountSpace :=
  match k.seen (parts path) with
  | none => .ok k
  | some _ => do
    let k ← k.mountOr
      { source := some path, target := OsPath.ofString path, flags := {.bind, .recursive} }
      ("failed to bind readonly path: " ++ path)
    k.mountOr
      { source := some path
        target := OsPath.ofString path
        flags := {.bind, .recursive, .remount, .rdonly} }
      ("failed to remount readonly path: " ++ path)

/-- `apply_oci_linux_paths`. -/
def applyOciLinuxPaths (maskedPaths readonlyPaths : List String) :
    Except FilesystemError MountSpace := do
  let k ← maskedPaths.foldlM maskContainerPath k
  readonlyPaths.foldlM makeContainerPathReadonly k

/-! ## One path -/

variable {k} {k' : MountSpace} {path : String}

theorem mountOr_eq_ok {call : MountCall} {context : String} (h : k.mountOr call context = .ok k') :
    k.mount call = some k' := by
  rw [mountOr] at h
  split at h
  · rename_i hcall
    rw [hcall, Except.ok.inj h]
  · cases h

/-- A call that succeeds has a target that is there, and is one of three. -/
theorem mount_eq_some {call : MountCall} (h : k.mount call = some k') :
    ∃ kind, k.seen call.target.components = some kind ∧
      ((.remount ∈ call.flags ∧
          k' = k.changeFlags call.target.components (call.flags ∩ restrictions)) ∨
        (.remount ∉ call.flags ∧ .bind ∈ call.flags ∧ ∃ source, call.source = some source ∧
          k.seen (parts source) = some kind ∧
            k' = k.mountBind (MsFlag.recursive ∈ call.flags) (parts source)
              call.target.components) ∨
        (.remount ∉ call.flags ∧ .bind ∉ call.flags ∧
          k' = k.mountEmpty call.target.components (call.flags ∩ restrictions))) := by
  unfold mount at h
  dsimp only at h
  split at h
  · cases h
  split at h
  · cases h
  rename_i kind hkind
  refine ⟨kind, hkind, ?_⟩
  split at h
  · rename_i hremount
    split at h
    · exact Or.inl ⟨hremount, (Option.some.inj h).symm⟩
    · cases h
  rename_i hremount
  right
  split at h
  · rename_i hbind
    split at h
    · cases h
    · rename_i source hsource
      split at h
      · rename_i hseen
        exact Or.inl ⟨hremount, hbind, source, hsource, hseen, (Option.some.inj h).symm⟩
      · cases h
  · rename_i hbind
    split at h
    · exact Or.inr ⟨hremount, hbind, (Option.some.inj h).symm⟩
    · cases h

/-- The device whose contents a masked file has. -/
def devNull : Parts := parts "/dev/null"

/-- What masking does: nothing to what is not there, an empty filesystem on a directory, and the null
device on anything else. -/
theorem maskContainerPath_eq_ok (h : k.maskContainerPath path = .ok k') :
    (k.seen (parts path) = none ∧ k' = k) ∨
    (k.seen (parts path) = some .dir ∧ k' = k.mountEmpty (parts path) restrictions) ∨
    (k.seen (parts path) = some .other ∧ k.seen devNull = some .other ∧
      k' = k.mountBind false devNull (parts path)) := by
  rw [maskContainerPath] at h
  split at h
  · rename_i hseen
    exact Or.inl ⟨hseen, (Except.ok.inj h).symm⟩
  · rename_i hseen
    obtain ⟨kind, -, ⟨hremount, -⟩ | ⟨-, hbind, -⟩ | ⟨-, -, rfl⟩⟩ := mount_eq_some (mountOr_eq_ok h)
    · exact absurd hremount (by simp)
    · exact absurd hbind (by simp)
    · have hflags : ({.rdonly, .nosuid, .nodev, .noexec} : Finset MsFlag) ∩ restrictions =
          restrictions := by decide
      exact Or.inr (Or.inl ⟨hseen, by rw [hflags]; rfl⟩)
  · rename_i hseen
    obtain ⟨kind, hkind, ⟨hremount, -⟩ | ⟨-, -, source, hsource, hnull, rfl⟩ | ⟨-, hbind, -⟩⟩ :=
      mount_eq_some (mountOr_eq_ok h)
    · exact absurd hremount (by simp)
    · obtain rfl := Option.some.inj hsource
      obtain rfl : kind = .other := Option.some.inj (hkind.symm.trans hseen)
      exact Or.inr (Or.inr ⟨hseen, hnull, rfl⟩)
    · exact absurd hbind (by simp)

/-- What making a path read-only does: nothing to what is not there, and else a bind of its own. -/
theorem makeContainerPathReadonly_eq_ok (h : k.makeContainerPathReadonly path = .ok k') :
    (k.seen (parts path) = none ∧ k' = k) ∨
    (k.seen (parts path) ≠ none ∧ k'.table = k.table.rebind {.rdonly} (parts path) ∧
      k'.files = k.files) := by
  rw [makeContainerPathReadonly] at h
  split at h
  · rename_i hseen
    exact Or.inl ⟨hseen, (Except.ok.inj h).symm⟩
  · rename_i kind hseen
    obtain ⟨bound, hbound, hchanged⟩ := Fallible.bind_eq_ok_iff.mp h
    right
    refine ⟨by simp [hseen], ?_⟩
    obtain ⟨_, -, ⟨hremount, -⟩ | ⟨-, -, source, hsource, -, rfl⟩ | ⟨-, hbind, -⟩⟩ :=
      mount_eq_some (mountOr_eq_ok hbound)
    · exact absurd hremount (by simp)
    · obtain rfl := Option.some.inj hsource
      obtain ⟨_, -, ⟨-, rfl⟩ | ⟨hremount, -⟩ | ⟨hremount, -⟩⟩ :=
        mount_eq_some (mountOr_eq_ok hchanged)
      · have hflags : ({.bind, .recursive, .remount, .rdonly} : Finset MsFlag) ∩ restrictions =
            {.rdonly} := by decide
        exact ⟨by rw [hflags]; rfl, rfl⟩
      · exact absurd (by simp) hremount
      · exact absurd (by simp) hremount
    · exact absurd (by simp) hbind

/-! ## The masked paths -/

/-- What has something in it is a directory, however far below it is. -/
theorem dir_of_append {α : Type} {f : List α → Option FileKind}
    (htree : ∀ l a, f (l ++ [a]) ≠ none → f l = some .dir) {l rest : List α} (hrest : rest ≠ [])
    (h : f (l ++ rest) ≠ none) : f l = some .dir := by
  induction rest using List.reverseRecOn with
  | nil => exact absurd rfl hrest
  | append_singleton rest a ih =>
    rw [← List.append_assoc] at h
    have hdir := htree _ _ h
    by_cases hnil : rest = []
    · rwa [hnil, List.append_nil] at hdir
    · exact ih hnil (by simp [hdir])

/-- Every path that is there is in a directory. -/
def IsTree (k : MountSpace) : Prop := ∀ path name, k.seen (path ++ [name]) ≠ none → k.seen path = some .dir

theorem IsTree.dir_above {p q : Parts} (h : k.IsTree) (hp : p <+: q) (hne : p ≠ q)
    (hq : k.seen q ≠ none) : k.seen p = some .dir := by
  obtain ⟨rest, rfl⟩ := hp
  exact dir_of_append h (by rintro rfl; simp at hne) hq

/-- What is visible at a path is in an empty filesystem that is read-only, and was mounted since. -/
structure Emptied (since : ℕ) (k : MountSpace) (q : Parts) : Prop where
  fs : since ≤ (k.table.locate q).fs
  rdonly : .rdonly ∈ k.table.flags q
  empty : k.seen q = none ∨ (k.table.locate q).inside = [] ∧ k.seen q = some .dir

theorem Emptied.seen_ne {since : ℕ} {q : Parts} (h : Emptied since k q) : k.seen q ≠ some .other := by
  rcases h.empty with hq | ⟨-, hq⟩ <;> simp [hq]

/-- What has become of the files once some paths are masked. -/
structure Masked (k : MountSpace) (paths : List Parts) (k' : MountSpace) : Prop where
  next : k.next ≤ k'.next
  dir : ∀ p ∈ paths, k.seen p = some .dir → ∀ q, p <+: q → Emptied k.next k' q
  file : ∀ p ∈ paths, k.seen p = some .other → Emptied k.next k' p ∨
    k.seen devNull = some .other ∧ k'.table.locate p = k.table.locate devNull
  gone : ∀ q, k.seen q = none → k'.seen q = none
  same : ∀ q, (∀ p ∈ paths, p <+: q → k.seen p = none) →
    k'.table.visible q = k.table.visible q ∧ k'.seen q = k.seen q

variable {k₁ k₂ : MountSpace} {paths : List Parts}

theorem fs_locate_lt (k : MountSpace) (q : Parts) : (k.table.locate q).fs < k.next :=
  k.known _ (List.mem_of_find?_eq_some Table.find?_visible)

/-- A path that is still there was not touched, is emptied, or is the null device. -/
theorem Masked.cases (h : Masked k paths k₁) (htree : k.IsTree) {q : Parts} (hq : k₁.seen q ≠ none) :
    Emptied k.next k₁ q ∨
    (q ∈ paths ∧ k.seen q = some .other ∧ k.seen devNull = some .other ∧
      k₁.table.locate q = k.table.locate devNull) ∨
    (k₁.table.visible q = k.table.visible q ∧ k₁.seen q = k.seen q) := by
  by_cases hsame : ∀ p ∈ paths, p <+: q → k.seen p = none
  · exact Or.inr (Or.inr (h.same q hsame))
  · push Not at hsame
    obtain ⟨p, hp, habove, hseen⟩ := hsame
    obtain ⟨kind, hkind⟩ := Option.ne_none_iff_exists'.mp hseen
    cases kind with
    | dir => exact Or.inl (h.dir p hp hkind q habove)
    | other =>
      have hpq : p = q := by
        by_contra hne
        rw [htree.dir_above habove hne fun hgone ↦ hq (h.gone q hgone)] at hkind
        cases hkind
      subst hpq
      rcases h.file p hp hkind with hempty | ⟨hnull, hlocate⟩
      · exact Or.inl hempty
      · exact Or.inr (Or.inl ⟨hp, hkind, hnull, hlocate⟩)

theorem masked_nil (k : MountSpace) : Masked k [] k where
  next := Nat.le_refl _
  dir := by simp
  file := by simp
  gone := fun _ h ↦ h
  same := fun _ _ ↦ ⟨rfl, rfl⟩

/-- A masked path that is not there. -/
theorem Masked.concat_none (h : Masked k paths k₁) (htree : k.IsTree) {p : Parts}
    (hp : k₁.seen p = none) : Masked k (paths ++ [p]) k₁ := by
  -- it was not there before, or is hidden already
  have hgone : k.seen p ≠ none → ∃ p' ∈ paths, p' <+: p ∧ k.seen p' ≠ none := by
    intro hseen
    by_contra hnot
    push Not at hnot
    exact hseen ((h.same p hnot).2.symm.trans hp)
  refine ⟨h.next, fun p' hp' hdir q hq ↦ ?_, fun p' hp' hfile ↦ ?_, h.gone, fun q hq ↦ ?_⟩
  · rcases List.mem_append.mp hp' with hp' | hp'
    · exact h.dir p' hp' hdir q hq
    · obtain rfl := List.mem_singleton.mp hp'
      obtain ⟨d, hd, habove, hseen⟩ := hgone (by simp [hdir])
      by_cases hne : d = p'
      · exact h.dir p' (hne ▸ hd) hdir q hq
      · exact h.dir d hd (htree.dir_above habove hne (by simp [hdir])) q (habove.trans hq)
  · rcases List.mem_append.mp hp' with hp' | hp'
    · exact h.file p' hp' hfile
    · obtain rfl := List.mem_singleton.mp hp'
      obtain ⟨d, hd, habove, hseen⟩ := hgone (by simp [hfile])
      by_cases hne : d = p'
      · exact h.file p' (hne ▸ hd) hfile
      · exact Or.inl (h.dir d hd (htree.dir_above habove hne (by simp [hfile])) p' habove)
  · exact h.same q fun p' hp' ↦ hq p' (List.mem_append_left _ hp')

theorem seen_mountEmpty_below {p q : Parts} {flags : Finset MsFlag} (hq : p <+: q) :
    (k₁.mountEmpty p flags).seen q = if q = p then some .dir else none := by
  obtain ⟨rest, rfl⟩ := hq
  have hvisible : (k₁.mountEmpty p flags).table.visible (p ++ rest) = ⟨p, k₁.next, [], flags⟩ :=
    Table.visible_attach_of_prefix (List.prefix_append p rest)
  rw [seen, Table.locate, hvisible, MountTable.Mount.locate]
  change k₁.withEmpty _ = _
  simp [withEmpty]

theorem mountEmpty_elsewhere {p q : Parts} {flags : Finset MsFlag} (hq : ¬ p <+: q) :
    (k₁.mountEmpty p flags).table.visible q = k₁.table.visible q ∧
      (k₁.mountEmpty p flags).seen q = k₁.seen q := by
  have hvisible : (k₁.mountEmpty p flags).table.visible q = k₁.table.visible q :=
    Table.visible_attach_of_not hq
  refine ⟨hvisible, ?_⟩
  rw [seen, Table.locate, hvisible]
  exact if_neg (Nat.ne_of_lt (fs_locate_lt k₁ q))

/-- What is visible decides about what is emptied. -/
theorem Emptied.congr {since : ℕ} {q : Parts} (h : Emptied since k₁ q)
    (hvisible : k₂.table.visible q = k₁.table.visible q) (hseen : k₂.seen q = k₁.seen q) :
    Emptied since k₂ q := by
  have hlocate : k₂.table.locate q = k₁.table.locate q := by rw [Table.locate, hvisible, Table.locate]
  refine ⟨hlocate ▸ h.fs, ?_, ?_⟩
  · rw [Table.flags, hvisible]
    exact h.rdonly
  · rw [hlocate, hseen]
    exact h.empty

/-- A masked directory. -/
theorem Masked.concat_dir (h : Masked k paths k₁) {p : Parts} (hp : k₁.seen p = some .dir) :
    Masked k (paths ++ [p]) (k₁.mountEmpty p restrictions) := by
  have hempty : ∀ q, p <+: q → Emptied k.next (k₁.mountEmpty p restrictions) q := by
    intro q hq
    have hvisible : (k₁.mountEmpty p restrictions).table.visible q =
        ⟨p, k₁.next, [], restrictions⟩ := Table.visible_attach_of_prefix hq
    refine ⟨?_, ?_, ?_⟩
    · rw [Table.locate, hvisible]
      exact h.next
    · rw [Table.flags, hvisible]
      exact (by decide : MsFlag.rdonly ∈ restrictions)
    · rw [seen_mountEmpty_below hq, Table.locate, hvisible]
      by_cases hqp : q = p <;> simp [hqp, MountTable.Mount.locate]
  refine ⟨Nat.le_succ_of_le h.next, fun p' hp' hdir q hq ↦ ?_, fun p' hp' hfile ↦ ?_, fun q hq ↦ ?_,
    fun q hq ↦ ?_⟩
  · by_cases hpq : p <+: q
    · exact hempty q hpq
    · obtain ⟨hvisible, hseen⟩ := @mountEmpty_elsewhere k₁ p q restrictions hpq
      rcases List.mem_append.mp hp' with hp' | hp'
      · exact (h.dir p' hp' hdir q hq).congr hvisible hseen
      · exact absurd (List.mem_singleton.mp hp' ▸ hq) hpq
  · by_cases hpq : p <+: p'
    · exact Or.inl (hempty p' hpq)
    · obtain ⟨hvisible, hseen⟩ := @mountEmpty_elsewhere k₁ p p' restrictions hpq
      rcases List.mem_append.mp hp' with hp' | hp'
      · refine (h.file p' hp' hfile).imp (fun he ↦ he.congr hvisible hseen) fun hnull ↦ ?_
        refine ⟨hnull.1, ?_⟩
        rw [Table.locate, hvisible]
        exact hnull.2
      · exact absurd (List.mem_singleton.mp hp' ▸ List.prefix_refl p') hpq
  · by_cases hpq : p <+: q
    · rw [seen_mountEmpty_below hpq, if_neg]
      rintro rfl
      rw [h.gone q hq] at hp
      cases hp
    · rw [(mountEmpty_elsewhere hpq).2]
      exact h.gone q hq
  · have hpq : ¬ p <+: q := by
      intro hpq
      rw [h.gone p (hq p (by simp) hpq)] at hp
      cases hp
    obtain ⟨hvisible, hseen⟩ := @mountEmpty_elsewhere k₁ p q restrictions hpq
    obtain ⟨hvisible₁, hseen₁⟩ := h.same q fun p' hp' ↦ hq p' (List.mem_append_left _ hp')
    exact ⟨hvisible.trans hvisible₁, hseen.trans hseen₁⟩

/-- A masked path that is something else. -/
theorem Masked.concat_file (h : Masked k paths k₁) (htree : k.IsTree) {p : Parts}
    (hp : k₁.seen p = some .other) (hnull : k₁.seen devNull = some .other) :
    Masked k (paths ++ [p]) (k₁.mountBind false devNull p) := by
  have hold : k.seen p = some .other := by
    rcases h.cases htree (q := p) (by simp [hp]) with hempty | ⟨-, hfile, -⟩ | ⟨-, hseen⟩
    · exact absurd hp hempty.seen_ne
    · exact hfile
    · exact hseen.symm.trans hp
  have hdevice : k.seen devNull = some .other ∧
      k₁.table.locate devNull = k.table.locate devNull := by
    rcases h.cases htree (q := devNull) (by simp [hnull]) with
      hempty | ⟨-, -, hfile, hlocate⟩ | ⟨hvisible, hseen⟩
    · exact absurd hnull hempty.seen_ne
    · exact ⟨hfile, hlocate⟩
    · exact ⟨hseen.symm.trans hnull, by rw [Table.locate, hvisible, Table.locate]⟩
  -- what is below the path is the device, in which there is nothing
  have hlocate : ∀ rest, (k₁.mountBind false devNull p).table.locate (p ++ rest) =
      ⟨(k₁.table.locate devNull).fs, (k₁.table.locate devNull).inside ++ rest⟩ := by
    intro rest
    have hvisible : (k₁.mountBind false devNull p).table.visible (p ++ rest) =
        k₁.table.shown devNull p := Table.visible_bind_false devNull p rest
    rw [Table.locate, hvisible, MountTable.Mount.locate, Table.shown, List.drop_left]
    rfl
  have hother : ∀ q, ¬ p <+: q →
      (k₁.mountBind false devNull p).table.visible q = k₁.table.visible q ∧
        (k₁.mountBind false devNull p).seen q = k₁.seen q := by
    intro q hq
    have hvisible : (k₁.mountBind false devNull p).table.visible q = k₁.table.visible q :=
      Table.visible_bind_of_not hq
    refine ⟨hvisible, ?_⟩
    rw [seen, Table.locate, hvisible]
    rfl
  refine ⟨h.next, fun p' hp' hdir q hq ↦ ?_, fun p' hp' hfile ↦ ?_, fun q hq ↦ ?_, fun q hq ↦ ?_⟩
  · have hpq : ¬ p <+: q := by
      intro hpq
      rcases List.prefix_or_prefix_of_prefix hq hpq with habove | hbelow
      · rcases List.mem_append.mp hp' with hp' | hp'
        · exact (h.dir p' hp' hdir p habove).seen_ne hp
        · rw [List.mem_singleton.mp hp', hold] at hdir
          cases hdir
      · have hne : p ≠ p' := by
          rintro rfl
          rw [hold] at hdir
          cases hdir
        rw [htree.dir_above hbelow hne (by simp [hdir])] at hold
        cases hold
    rcases List.mem_append.mp hp' with hp' | hp'
    · exact (h.dir p' hp' hdir q hq).congr (hother q hpq).1 (hother q hpq).2
    · exact absurd (List.mem_singleton.mp hp' ▸ hq) hpq
  · by_cases hpq : p <+: p'
    · have hsame : p = p' := by
        by_contra hne
        rw [htree.dir_above hpq hne (by simp [hfile])] at hold
        cases hold
      subst hsame
      have hdevice' := hlocate []
      rw [List.append_nil, List.append_nil] at hdevice'
      exact Or.inr ⟨hdevice.1, hdevice'.trans hdevice.2⟩
    · rcases List.mem_append.mp hp' with hp' | hp'
      · refine (h.file p' hp' hfile).imp (fun he ↦ he.congr (hother p' hpq).1 (hother p' hpq).2)
          fun hfile ↦ ⟨hfile.1, ?_⟩
        rw [Table.locate, (hother p' hpq).1]
        exact hfile.2
      · exact absurd (List.mem_singleton.mp hp' ▸ List.prefix_refl p') hpq
  · by_cases hpq : p <+: q
    · obtain ⟨rest, rfl⟩ := hpq
      by_contra hseen
      rw [seen, hlocate] at hseen
      by_cases hrest : rest = []
      · rw [hrest, List.append_nil, hold] at hq
        cases hq
      · have hdir := @dir_of_append _ (fun inside ↦ k₁.files ⟨(k₁.table.locate devNull).fs, inside⟩)
          (k₁.tree (k₁.table.locate devNull).fs) _ _ hrest hseen
        exact absurd (hdir.symm.trans hnull) (by simp)
    · rw [(hother q hpq).2]
      exact h.gone q hq
  · have hpq : ¬ p <+: q := by
      intro hpq
      rw [hq p (by simp) hpq] at hold
      cases hold
    obtain ⟨hvisible, hseen⟩ := h.same q fun p' hp' ↦ hq p' (List.mem_append_left _ hp')
    exact ⟨(hother q hpq).1.trans hvisible, (hother q hpq).2.trans hseen⟩

/-- **Masking one path after another.** -/
theorem masked_of_foldlM {maskedPaths : List String} (htree : k.IsTree)
    (h : maskedPaths.foldlM maskContainerPath k = .ok k') : Masked k (maskedPaths.map parts) k' := by
  have hrun : ∀ done k₁, Masked k done k₁ →
      maskedPaths.foldlM maskContainerPath k₁ = .ok k' →
        Masked k (done ++ maskedPaths.map parts) k' := by
    clear h
    induction maskedPaths with
    | nil =>
      intro done k₁ hmasked h
      obtain rfl := Except.ok.inj h
      simpa using hmasked
    | cons path maskedPaths ih =>
      intro done k₁ hmasked h
      rw [List.foldlM_cons] at h
      obtain ⟨k₂, hpath, hrest⟩ := Fallible.bind_eq_ok_iff.mp h
      have hstep : Masked k (done ++ [parts path]) k₂ := by
        rcases maskContainerPath_eq_ok hpath with ⟨hseen, rfl⟩ | ⟨hseen, rfl⟩ | ⟨hseen, hnull, rfl⟩
        · exact hmasked.concat_none htree hseen
        · exact hmasked.concat_dir hseen
        · exact hmasked.concat_file htree hseen hnull
      have hend := ih (done ++ [parts path]) k₂ hstep hrest
      rwa [List.append_assoc] at hend
  exact hrun [] k (masked_nil k) h

/-! ## The read-only paths -/

/-- **Making one path read-only after another.** -/
theorem rebound_of_foldlM {readonlyPaths : List String}
    (h : readonlyPaths.foldlM makeContainerPathReadonly k = .ok k') :
    Table.Rebound k.table {.rdonly} ((readonlyPaths.map parts).filter fun p ↦ (k.seen p).isSome)
      k'.table ∧ k'.files = k.files := by
  have hrun : ∀ done k₁, Table.Rebound k.table {.rdonly} done k₁.table → k₁.files = k.files →
      readonlyPaths.foldlM makeContainerPathReadonly k₁ = .ok k' →
        Table.Rebound k.table {.rdonly}
          (done ++ (readonlyPaths.map parts).filter fun p ↦ (k.seen p).isSome) k'.table ∧
            k'.files = k.files := by
    clear h
    induction readonlyPaths with
    | nil =>
      intro done k₁ hrebound hfiles h
      obtain rfl := Except.ok.inj h
      exact ⟨by simpa using hrebound, hfiles⟩
    | cons path readonlyPaths ih =>
      intro done k₁ hrebound hfiles h
      rw [List.foldlM_cons] at h
      obtain ⟨k₂, hpath, hrest⟩ := Fallible.bind_eq_ok_iff.mp h
      have hseen : k₁.seen (parts path) = k.seen (parts path) := by
        rw [seen, hrebound.locate, hfiles, seen]
      rw [List.map_cons]
      rcases makeContainerPathReadonly_eq_ok hpath with ⟨hnone, rfl⟩ | ⟨hsome, htable, hfiles₂⟩
      · rw [List.filter_cons_of_neg (by simp [← hseen, hnone])]
        exact ih done _ hrebound hfiles hrest
      · rw [List.filter_cons_of_pos (by rw [← hseen]; exact Option.isSome_iff_ne_none.mpr hsome)]
        have hend := ih (done ++ [parts path]) k₂ (htable ▸ hrebound.concat (parts path))
          (hfiles₂.trans hfiles) hrest
        rwa [List.append_assoc] at hend
  exact hrun [] k (Table.rebound_nil _ _) rfl h

/-- The two halves. -/
theorem applyOciLinuxPaths_eq_ok {maskedPaths readonlyPaths : List String} (htree : k.IsTree)
    (h : k.applyOciLinuxPaths maskedPaths readonlyPaths = .ok k') :
    ∃ k₁, Masked k (maskedPaths.map parts) k₁ ∧
      Table.Rebound k₁.table {.rdonly}
        ((readonlyPaths.map parts).filter fun p ↦ (k₁.seen p).isSome) k'.table ∧
          ∀ q, k'.seen q = k₁.seen q := by
  obtain ⟨k₁, hmasked, hreadonly⟩ := Fallible.bind_eq_ok_iff.mp h
  obtain ⟨hrebound, hfiles⟩ := rebound_of_foldlM hreadonly
  exact ⟨k₁, masked_of_foldlM htree hmasked, hrebound, fun q ↦ by rw [seen, hrebound.locate, hfiles, seen]⟩

/-- **Masked paths are out of reach.**  Whatever is masked and made read-only in whatever order: at and
below a masked directory there is nothing but empty read-only filesystems, a masked file is the null
device or gone, what was not there does not appear, and everything else shows what it showed. -/
theorem masked_paths_hidden {maskedPaths readonlyPaths : List String} (htree : k.IsTree)
    (h : k.applyOciLinuxPaths maskedPaths readonlyPaths = .ok k') :
    (∀ path ∈ maskedPaths, k.seen (parts path) = some .dir →
      ∀ q, parts path <+: q → Emptied k.next k' q) ∧
    (∀ path ∈ maskedPaths, k.seen (parts path) = some .other →
      Emptied k.next k' (parts path) ∨ k'.table.locate (parts path) = k.table.locate devNull) ∧
    (∀ q, k.seen q = none → k'.seen q = none) ∧
    ∀ q, (∀ path ∈ maskedPaths, parts path <+: q → k.seen (parts path) = none) →
      k'.table.locate q = k.table.locate q ∧ k'.seen q = k.seen q := by
  obtain ⟨k₁, hmasked, hrebound, hseen⟩ := applyOciLinuxPaths_eq_ok htree h
  have hempty : ∀ q, Emptied k.next k₁ q → Emptied k.next k' q := by
    intro q hq
    refine ⟨by rw [hrebound.locate]; exact hq.fs, ?_, by rw [hrebound.locate, hseen]; exact hq.empty⟩
    rw [hrebound.flags]
    split
    · exact Finset.mem_singleton_self _
    · exact hq.rdonly
  refine ⟨fun path hpath hdir q hq ↦ ?_, fun path hpath hfile ↦ ?_, fun q hq ↦ ?_, fun q hq ↦ ?_⟩
  · exact hempty q (hmasked.dir _ (List.mem_map_of_mem hpath) hdir q hq)
  · refine (hmasked.file _ (List.mem_map_of_mem hpath) hfile).imp (hempty _) fun hnull ↦ ?_
    rw [hrebound.locate]
    exact hnull.2
  · rw [hseen]
    exact hmasked.gone q hq
  · obtain ⟨hvisible, hsame⟩ := hmasked.same q (by simpa using hq)
    rw [hrebound.locate, hseen]
    exact ⟨by rw [Table.locate, hvisible, Table.locate], hsame⟩

/-- **What is read-only in the end.**  The flags of a path that is not masked are those it had, unless
a read-only path that is there reaches it without another mount in between; then it is read-only, and
has no other restriction any more. -/
theorem readonly_paths_exact {maskedPaths readonlyPaths : List String} (htree : k.IsTree)
    (h : k.applyOciLinuxPaths maskedPaths readonlyPaths = .ok k') (q : Parts)
    (hq : ∀ path ∈ maskedPaths, parts path <+: q → k.seen (parts path) = none) :
    k'.table.flags q =
      if ∃ path ∈ readonlyPaths, k.seen (parts path) ≠ none ∧ k.table.Reaches (parts path) q then
        {.rdonly}
      else k.table.flags q := by
  obtain ⟨k₁, hmasked, hrebound, -⟩ := applyOciLinuxPaths_eq_ok htree h
  have hsame := fun p (hp : p <+: q) ↦ hmasked.same p (by
    intro p' hp' habove
    obtain ⟨path, hpath, rfl⟩ := List.mem_map.mp hp'
    exact hq path hpath (habove.trans hp))
  have hvisible := (hsame q (List.prefix_refl q)).1
  have hreaches : ∀ p, k₁.table.Reaches p q ↔ k.table.Reaches p q := by
    intro p
    rw [Table.Reaches, hvisible, Table.Reaches]
  have hiff : (∃ p ∈ (readonlyPaths.map parts).filter fun p ↦ (k₁.seen p).isSome,
      k₁.table.Reaches p q) ↔
        ∃ path ∈ readonlyPaths, k.seen (parts path) ≠ none ∧ k.table.Reaches (parts path) q := by
    constructor
    · rintro ⟨p, hp, hreach⟩
      obtain ⟨hp, hseen⟩ := List.mem_filter.mp hp
      obtain ⟨path, hpath, rfl⟩ := List.mem_map.mp hp
      rw [hreaches] at hreach
      rw [(hsame _ hreach.1).2, Option.isSome_iff_ne_none] at hseen
      exact ⟨path, hpath, hseen, hreach⟩
    · rintro ⟨path, hpath, hseen, hreach⟩
      refine ⟨parts path, List.mem_filter.mpr ⟨List.mem_map_of_mem hpath, ?_⟩, (hreaches _).mpr hreach⟩
      rw [(hsame _ hreach.1).2]
      exact Option.isSome_iff_ne_none.mpr hseen
  rw [hrebound.flags, Table.flags, hvisible]
  simp only [hiff]
  rfl

/-- The files of a small container. -/
def smallFiles (loc : Location (List UInt8)) : Option FileKind :=
  if loc.fs = 0 then
    if loc.inside ∈ [[], parts "/dev", parts "/etc"] then some .dir
    else if loc.inside ∈ [devNull, parts "/etc/key"] then some .other else none
  else none

theorem smallFiles_tree (fs : ℕ) (inside : Parts) (name : List UInt8)
    (h : smallFiles ⟨fs, inside ++ [name]⟩ ≠ none) : smallFiles ⟨fs, inside⟩ = some .dir := by
  have hdev : parts "/dev" = [] ++ [[100, 101, 118]] := by decide +kernel
  have hetc : parts "/etc" = [] ++ [[101, 116, 99]] := by decide +kernel
  have hnull : devNull = parts "/dev" ++ [[110, 117, 108, 108]] := by decide +kernel
  have hkey : parts "/etc/key" = parts "/etc" ++ [[107, 101, 121]] := by decide +kernel
  have hinside : fs = 0 ∧ inside ∈ [[], parts "/dev", parts "/etc"] := by
    unfold smallFiles at h
    dsimp only at h
    split_ifs at h with hfs hdir hfile
    · refine ⟨hfs, ?_⟩
      simp only [List.mem_cons, List.not_mem_nil, or_false] at hdir
      rcases hdir with hdir | hdir | hdir
      · simp at hdir
      · rw [(List.append_inj' (hdir.trans hdev) rfl).1]
        simp
      · rw [(List.append_inj' (hdir.trans hetc) rfl).1]
        simp
    · refine ⟨hfs, ?_⟩
      simp only [List.mem_cons, List.not_mem_nil, or_false] at hfile
      rcases hfile with hfile | hfile
      · rw [(List.append_inj' (hfile.trans hnull) rfl).1]
        simp
      · rw [(List.append_inj' (hfile.trans hkey) rfl).1]
        simp
    · exact absurd rfl h
    · exact absurd rfl h
  rw [smallFiles, if_pos hinside.1, if_pos hinside.2]

/-- It has one mount. -/
def smallContainer : MountSpace where
  table :=
    { mounts := [⟨[], 0, [], {.nosuid}⟩]
      rooted := ⟨⟨[], 0, [], {.nosuid}⟩, by simp, rfl⟩ }
  files := smallFiles
  next := 1
  refuses := fun _ ↦ false
  known := by simp
  tree := smallFiles_tree

theorem isTree_smallContainer : smallContainer.IsTree := by
  have hseen : ∀ path, smallContainer.seen path = smallFiles ⟨0, path⟩ := fun path ↦ by
    have hvisible : smallContainer.table.visible path = ⟨[], 0, [], {.nosuid}⟩ :=
      Table.visible_eq rfl
    rw [seen, Table.locate, hvisible]
    rfl
  intro path name h
  rw [hseen] at h ⊢
  exact smallFiles_tree 0 path name h

/-- A key that is masked, in a directory that is made read-only. -/
theorem exists_smallContainer :
    ∃ k', smallContainer.applyOciLinuxPaths ["/etc/key"] ["/etc"] = .ok k' := by
  have hok : (smallContainer.applyOciLinuxPaths ["/etc/key"] ["/etc"]).isOk = true := by
    decide +kernel
  cases hresult : smallContainer.applyOciLinuxPaths ["/etc/key"] ["/etc"] with
  | error e =>
    rw [hresult] at hok
    cases hok
  | ok k' => exact ⟨k', rfl⟩

theorem masked_paths_hidden_key :
    smallContainer.seen (parts "/etc/key") = some .other ∧
      ∃ k', smallContainer.applyOciLinuxPaths ["/etc/key"] ["/etc"] = .ok k' ∧
        (Emptied 1 k' (parts "/etc/key") ∨
          k'.table.locate (parts "/etc/key") = smallContainer.table.locate devNull) := by
  obtain ⟨k', h⟩ := exists_smallContainer
  have hseen : smallContainer.seen (parts "/etc/key") = some .other := by decide +kernel
  exact ⟨hseen, k', h, (masked_paths_hidden isTree_smallContainer h).2.1 "/etc/key" (by simp) hseen⟩

theorem readonly_paths_exact_etc :
    ∃ k', smallContainer.applyOciLinuxPaths ["/etc/key"] ["/etc"] = .ok k' ∧
      k'.table.flags (parts "/etc/hosts") = {.rdonly} ∧ k'.table.flags (parts "/dev") = {.nosuid} := by
  obtain ⟨k', h⟩ := exists_smallContainer
  have hetc := readonly_paths_exact isTree_smallContainer h (parts "/etc/hosts") (by decide +kernel)
  have hdev := readonly_paths_exact isTree_smallContainer h (parts "/dev") (by decide +kernel)
  refine ⟨k', h, ?_, ?_⟩
  · rw [hetc, if_pos (by decide +kernel)]
  · rw [hdev, if_neg (by decide +kernel)]
    decide +kernel

end MountSpace

end CrunRs.Filesystem
