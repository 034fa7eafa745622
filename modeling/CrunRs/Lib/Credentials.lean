import Mathlib.Data.Finset.Basic
import Mathlib.Data.Fintype.Basic

/-!
# Linux credentials

User namespaces, user and group ids, the five capability sets, the `no_new_privs` flag and the
seccomp filters of a task, and what its system calls do to them.  Ids are kernel ids; the maps of a
namespace say which of them it has a name for.  Secure bits are at their default.

A call is a partial function: where the kernel refuses, there is no result.  Where it refuses for a
reason that is left out here (a limit, a security module, a filter), there is a result too many,
which is the safe side for what no run can do.

`call_eq_some` and `call_ids` say what a call can do to a task with `no_new_privs`.
-/

set_option autoImplicit false

namespace Credentials

/-! ## Capability sets -/

/-- A capability, by its number: `CAP_LAST_CAP` is 40. -/
abbrev Cap := Fin 41

def capSetgid : Cap := 6

def capSetuid : Cap := 7

def capSetpcap : Cap := 8

def capSysAdmin : Cap := 21

/-- The capability sets of a task.  The kernel keeps the effective ones among the permitted ones, and
the ambient ones among those that are permitted and inheritable. -/
structure Caps where
  permitted : Finset Cap
  effective : Finset Cap
  inheritable : Finset Cap
  ambient : Finset Cap
  bounding : Finset Cap
  effective_subset : effective ⊆ permitted
  ambient_subset : ambient ⊆ permitted ∩ inheritable

namespace Caps

/-- What the first task of a new user namespace has. -/
def full : Caps where
  permitted := Finset.univ
  effective := Finset.univ
  inheritable := ∅
  ambient := ∅
  bounding := Finset.univ
  effective_subset := Finset.Subset.refl _
  ambient_subset := Finset.empty_subset _

/-- `capset`. -/
def capset (c : Caps) (permitted effective inheritable : Finset Cap) : Option Caps :=
  if h : (capSetpcap ∈ c.effective ∨ inheritable ⊆ c.inheritable ∪ c.permitted) ∧
      inheritable ⊆ c.inheritable ∪ c.bounding ∧ permitted ⊆ c.permitted ∧
      effective ⊆ permitted then
    some { c with
      permitted, effective, inheritable
      ambient := c.ambient ∩ (permitted ∩ inheritable)
      effective_subset := h.2.2.2
      ambient_subset := Finset.inter_subset_right }
  else none

/-- `PR_CAP_AMBIENT_RAISE`. -/
def raiseAmbient (c : Caps) (cap : Cap) : Option Caps :=
  if h : cap ∈ c.permitted ∩ c.inheritable then
    some { c with
      ambient := insert cap c.ambient
      ambient_subset := Finset.insert_subset h c.ambient_subset }
  else none

/-- `PR_CAP_AMBIENT_LOWER` and `PR_CAP_AMBIENT_CLEAR_ALL`. -/
def lowerAmbient (c : Caps) (caps : Finset Cap) : Caps :=
  { c with
    ambient := c.ambient \ caps
    ambient_subset := Finset.sdiff_subset.trans c.ambient_subset }

/-- `PR_CAPBSET_DROP`. -/
def dropBounding (c : Caps) (cap : Cap) : Option Caps :=
  if capSetpcap ∈ c.effective then some { c with bounding := c.bounding.erase cap } else none

/-- Without the permitted, the effective and the ambient ones. -/
def cleared (c : Caps) : Caps :=
  { c with
    permitted := ∅
    effective := ∅
    ambient := ∅
    effective_subset := Finset.Subset.refl _
    ambient_subset := Finset.empty_subset _ }

/-- `cap_emulate_setxuid`: what a change of user ids does.  The arguments say whether one of the
three ids is root's before and after, and whether the effective one is. -/
def changeUids (c : Caps) (hadRoot hasRoot wasRoot isRoot : Bool) : Caps :=
  let c := if hadRoot ∧ ¬ hasRoot then c.cleared else c
  if wasRoot ∧ ¬ isRoot then
    { c with effective := ∅, effective_subset := Finset.empty_subset _ }
  else if ¬ wasRoot ∧ isRoot then
    { c with effective := c.permitted, effective_subset := Finset.Subset.refl _ }
  else c

theorem capset_eq_some {c c' : Caps} {permitted effective inheritable : Finset Cap}
    (h : c.capset permitted effective inheritable = some c') :
    c'.permitted = permitted ∧ c'.effective = effective ∧ c'.inheritable = inheritable ∧
      c'.ambient = c.ambient ∩ (permitted ∩ inheritable) ∧ permitted ⊆ c.permitted := by
  unfold capset at h
  split at h
  · rename_i hcond
    obtain rfl := Option.some.inj h
    exact ⟨rfl, rfl, rfl, rfl, hcond.2.2.1⟩
  · simp at h

/-- Without any but the bounding ones. -/
def dropped (c : Caps) : Caps :=
  { c.cleared with
    inheritable := ∅
    ambient_subset := Finset.empty_subset _ }

/-- Dropping everything is never refused. -/
theorem capset_empty (c : Caps) : c.capset ∅ ∅ ∅ = some c.dropped := by
  rw [capset, dif_pos ⟨Or.inr (Finset.empty_subset _), Finset.empty_subset _,
    Finset.empty_subset _, Finset.empty_subset _⟩]
  simp [dropped, cleared]

theorem raiseAmbient_permitted {c c' : Caps} {cap : Cap} (h : c.raiseAmbient cap = some c') :
    c'.permitted = c.permitted := by
  unfold raiseAmbient at h
  split at h
  · obtain rfl := Option.some.inj h
    rfl
  · simp at h

theorem dropBounding_permitted {c c' : Caps} {cap : Cap} (h : c.dropBounding cap = some c') :
    c'.permitted = c.permitted := by
  unfold dropBounding at h
  split at h
  · obtain rfl := Option.some.inj h
    rfl
  · simp at h

theorem changeUids_permitted_subset (c : Caps) (hadRoot hasRoot wasRoot isRoot : Bool) :
    (c.changeUids hadRoot hasRoot wasRoot isRoot).permitted ⊆ c.permitted := by
  have hfirst : (if hadRoot ∧ ¬ hasRoot then c.cleared else c).permitted ⊆ c.permitted := by
    split
    · exact Finset.empty_subset _
    · exact Finset.Subset.refl _
  unfold changeUids
  dsimp only
  split
  · exact hfirst
  · split
    · exact hfirst
    · exact hfirst

end Caps

/-! ## User namespaces -/

/-- A user namespace: the initial one, or the one that a task of the namespace `parent` made when its
effective user id was `owner`.  `index` tells those apart. -/
inductive UserNs
  | init
  | child (parent : UserNs) (owner : ℕ) (index : ℕ)
  deriving DecidableEq

namespace UserNs

/-- The namespace is a proper descendant of the other one. -/
def Below : UserNs → UserNs → Prop
  | .init, _ => False
  | .child parent _ _, top => parent = top ∨ parent.Below top

/-- The namespace is the other one or a descendant of it. -/
def Within (ns top : UserNs) : Prop := ns = top ∨ ns.Below top

def depth : UserNs → ℕ
  | .init => 0
  | .child parent _ _ => parent.depth + 1

theorem Within.refl (ns : UserNs) : ns.Within ns := Or.inl rfl

theorem below_child (ns : UserNs) (owner index : ℕ) : (child ns owner index).Below ns := Or.inl rfl

theorem Below.depth_lt {ns top : UserNs} (h : ns.Below top) : top.depth < ns.depth := by
  induction ns with
  | init => exact h.elim
  | child parent owner index ih =>
    rcases h with rfl | h
    · exact Nat.lt_succ_self _
    · exact (ih h).trans (Nat.lt_succ_self _)

theorem Below.trans {a b c : UserNs} (hab : a.Below b) (hbc : b.Below c) : a.Below c := by
  induction a with
  | init => exact hab.elim
  | child parent owner index ih =>
    rcases hab with rfl | h
    · exact Or.inr hbc
    · exact Or.inr (ih h)

theorem Below.trans_within {a b c : UserNs} (hab : a.Below b) (hbc : b.Within c) : a.Below c := by
  rcases hbc with rfl | hbc
  · exact hab
  · exact hab.trans hbc

theorem Within.trans {a b c : UserNs} (hab : a.Within b) (hbc : b.Within c) : a.Within c := by
  rcases hab with rfl | hab
  · exact hbc
  · exact Or.inr (hab.trans_within hbc)

theorem not_within_of_below {a b : UserNs} (h : a.Below b) : ¬ b.Within a := by
  rintro (rfl | hba)
  · exact absurd h.depth_lt (lt_irrefl _)
  · exact absurd (h.depth_lt.trans hba.depth_lt) (lt_irrefl _)

end UserNs

/-! ## Ids and their maps -/

/-- The real, the effective and the saved id. -/
structure Ids where
  real : ℕ
  effective : ℕ
  saved : ℕ
  deriving DecidableEq

namespace Ids

/-- All three are in the set. -/
def In (ids : Ids) (s : Set ℕ) : Prop := ids.real ∈ s ∧ ids.effective ∈ s ∧ ids.saved ∈ s

/-- The id is one a task can name without privilege. -/
def Own (ids : Ids) (id : ℕ) : Prop := id = ids.real ∨ id = ids.effective ∨ id = ids.saved

instance (ids : Ids) (id : ℕ) : Decidable (ids.Own id) := inferInstanceAs (Decidable (_ ∨ _))

/-- `setuid` and `setgid`. -/
def set (ids : Ids) (privileged : Bool) (id : ℕ) : Option Ids :=
  if privileged then some ⟨id, id, id⟩
  else if id = ids.real ∨ id = ids.saved then some { ids with effective := id }
  else none

/-- `setresuid` and `setresgid`; `none` is an id that stays. -/
def setRes (ids : Ids) (privileged : Bool) (real effective saved : Option ℕ) : Option Ids :=
  if privileged ∨ ∀ id ∈ real.toList ++ effective.toList ++ saved.toList, ids.Own id then
    some ⟨real.getD ids.real, effective.getD ids.effective, saved.getD ids.saved⟩
  else none

theorem In.mem {ids : Ids} {s : Set ℕ} (h : ids.In s) {id : ℕ} (hid : ids.Own id) : id ∈ s := by
  rcases hid with rfl | rfl | rfl
  · exact h.1
  · exact h.2.1
  · exact h.2.2

theorem in_own (ids : Ids) : ids.In ids.Own := ⟨Or.inl rfl, Or.inr (Or.inl rfl), Or.inr (Or.inr rfl)⟩

theorem In.mono {ids : Ids} {s s' : Set ℕ} (h : ids.In s) (hs : ∀ id ∈ s, id ∈ s') : ids.In s' :=
  ⟨hs _ h.1, hs _ h.2.1, hs _ h.2.2⟩

theorem In.eq_of_singleton {ids : Ids} {id : ℕ} (h : ids.In {i | i = id}) : ids = ⟨id, id, id⟩ := by
  obtain ⟨real, effective, saved⟩ := ids
  obtain ⟨rfl, rfl, rfl⟩ : real = id ∧ effective = id ∧ saved = id := h
  rfl

/-- Ids that are set come from those that there were, or were asked for with privilege. -/
theorem in_set {ids ids' : Ids} {privileged : Bool} {id : ℕ} {s : Set ℕ}
    (h : ids.set privileged id = some ids') (hs : ids.In s) (hid : privileged = true → id ∈ s) :
    ids'.In s := by
  unfold set at h
  split at h
  · rename_i hprivileged
    obtain rfl := Option.some.inj h
    have hmem := hid hprivileged
    exact ⟨hmem, hmem, hmem⟩
  · split at h
    · rename_i hown
      obtain rfl := Option.some.inj h
      rcases hown with rfl | rfl
      · exact ⟨hs.1, hs.1, hs.2.2⟩
      · exact ⟨hs.1, hs.2.2, hs.2.2⟩
    · simp at h

theorem in_setRes {ids ids' : Ids} {privileged : Bool} {real effective saved : Option ℕ}
    {s : Set ℕ} (h : ids.setRes privileged real effective saved = some ids') (hs : ids.In s)
    (hid : privileged = true →
      ∀ id ∈ real.toList ++ effective.toList ++ saved.toList, id ∈ s) : ids'.In s := by
  unfold setRes at h
  split at h
  · rename_i hallowed
    obtain rfl := Option.some.inj h
    have hall : ∀ id ∈ real.toList ++ effective.toList ++ saved.toList, id ∈ s := by
      rcases hallowed with hprivileged | hown
      · exact hid hprivileged
      · exact fun id hmem ↦ hs.mem (hown id hmem)
    have hget : ∀ (o : Option ℕ) (d : ℕ), d ∈ s → (∀ id ∈ o.toList, id ∈ s) → o.getD d ∈ s := by
      intro o d hd ho
      cases o with
      | none => exact hd
      | some id => exact ho id (by simp)
    refine ⟨hget real _ hs.1 fun id h ↦ hall id ?_,
      hget effective _ hs.2.1 fun id h ↦ hall id ?_, hget saved _ hs.2.2 fun id h ↦ hall id ?_⟩
    · exact List.mem_append_left _ (List.mem_append_left _ h)
    · exact List.mem_append_left _ (List.mem_append_right _ h)
    · exact List.mem_append_right _ h
  · simp at h

end Ids

/-- One line of an id map: `count` ids of the namespace, from `inside` on, are the kernel ids from
`kernel` on. -/
structure Extent where
  inside : ℕ
  kernel : ℕ
  count : ℕ
  deriving DecidableEq

/-- An id map, empty as long as it is not written. -/
abbrev IdMap := List Extent

namespace IdMap

/-- The kernel id from which `count` ids of the namespace, from `first` on, are mapped. -/
def down (m : IdMap) (first count : ℕ) : Option ℕ :=
  (m.find? fun e ↦ e.inside ≤ first ∧ first + count ≤ e.inside + e.count).map fun e ↦
    e.kernel + (first - e.inside)

/-- The kernel id an id of the namespace stands for. -/
def kernelId (m : IdMap) (id : ℕ) : Option ℕ := m.down id 1

/-- The namespace has a name for the kernel id. -/
def Maps (m : IdMap) (kernel : ℕ) : Prop := ∃ e ∈ m, e.kernel ≤ kernel ∧ kernel < e.kernel + e.count

instance (m : IdMap) (kernel : ℕ) : Decidable (m.Maps kernel) :=
  inferInstanceAs (Decidable (∃ e ∈ m, _))

/-- What is written to a map file names ids of the parent; the kernel keeps kernel ids. -/
def ofParent (parent lines : IdMap) : Option IdMap :=
  lines.mapM fun line ↦
    (parent.down line.kernel line.count).map fun kernel ↦ { line with kernel }

theorem maps_of_down {m : IdMap} {first count kernel i : ℕ} (h : m.down first count = some kernel)
    (hi : i < count) : m.Maps (kernel + i) := by
  obtain ⟨e, hfind, rfl⟩ := Option.map_eq_some_iff.mp h
  have hcond := List.find?_some hfind
  simp only [decide_eq_true_eq] at hcond
  exact ⟨e, List.mem_of_find?_eq_some hfind, by omega, by omega⟩

theorem maps_of_kernelId {m : IdMap} {id kernel : ℕ} (h : m.kernelId id = some kernel) :
    m.Maps kernel :=
  maps_of_down h Nat.one_pos

/-- Each line that is kept comes from one that was written. -/
theorem exists_line_of_mem {parent lines m : IdMap} (h : ofParent parent lines = some m) {e : Extent}
    (he : e ∈ m) : ∃ line ∈ lines, parent.down line.kernel line.count = some e.kernel ∧
      e.count = line.count := by
  induction lines generalizing m with
  | nil =>
    obtain rfl : [] = m := by simpa [ofParent] using h
    simp at he
  | cons line lines ih =>
    rw [ofParent, List.mapM_cons, Option.bind_eq_bind, Option.bind_eq_some_iff] at h
    obtain ⟨kept, hkept, h⟩ := h
    rw [Option.bind_eq_bind, Option.bind_eq_some_iff] at h
    obtain ⟨rest, hrest, h⟩ := h
    obtain rfl : kept :: rest = m := Option.some.inj h
    rcases List.mem_cons.mp he with rfl | he
    · obtain ⟨kernel, hdown, rfl⟩ := Option.map_eq_some_iff.mp hkept
      exact ⟨line, List.mem_cons_self, hdown, rfl⟩
    · obtain ⟨line', hmem, hline⟩ := ih hrest he
      exact ⟨line', List.mem_cons_of_mem _ hmem, hline⟩

/-- A namespace has names only for what its parent has names for. -/
theorem maps_of_ofParent {parent lines m : IdMap} (h : ofParent parent lines = some m) {kernel : ℕ}
    (hm : m.Maps kernel) : parent.Maps kernel := by
  obtain ⟨e, he, hle, hlt⟩ := hm
  obtain ⟨line, _, hdown, hcount⟩ := exists_line_of_mem h he
  have hmaps := maps_of_down hdown (show kernel - e.kernel < line.count by omega)
  rwa [Nat.add_sub_cancel' hle] at hmaps

/-- The map of a namespace that has a name for one id, the name of root. -/
theorem ofParent_root {parent m : IdMap} {id : ℕ} (h : ofParent parent [⟨0, id, 1⟩] = some m) :
    ∃ kernel, parent.kernelId id = some kernel ∧ m = [⟨0, kernel, 1⟩] := by
  rw [ofParent, List.mapM_cons, Option.bind_eq_bind, Option.bind_eq_some_iff] at h
  obtain ⟨line, hline, h⟩ := h
  obtain ⟨kernel, hkernel, rfl⟩ := Option.map_eq_some_iff.mp hline
  exact ⟨kernel, hkernel, (Option.some.inj h).symm⟩

theorem maps_root {kernel id : ℕ} : IdMap.Maps [⟨0, kernel, 1⟩] id ↔ id = kernel := by
  simp only [IdMap.Maps, List.mem_singleton, exists_eq_left]
  omega

end IdMap

/-! ## Tasks -/

/-- What is known of a user namespace. -/
structure Space where
  uidMap : IdMap
  gidMap : IdMap
  setgroups : Bool

variable {φ : Type}

/-- The credentials of a task, with its seccomp filters, the newest first. -/
structure Task (φ : Type) where
  userNs : UserNs
  uids : Ids
  gids : Ids
  groups : List ℕ
  caps : Caps
  noNewPrivs : Bool
  filters : List φ

/-- `ns_capable`: a capability over a namespace is held in it, or over it by its owner in the parent,
or over one of its ancestors in the same way. -/
def Task.capable (t : Task φ) (cap : Cap) : UserNs → Bool
  | .init => t.userNs = .init ∧ cap ∈ t.caps.effective
  | .child parent owner index =>
    if t.userNs = .child parent owner index then cap ∈ t.caps.effective
    else decide (t.userNs = parent ∧ t.uids.effective = owner) || t.capable cap parent

/-- The capabilities of a file. -/
structure FileCaps where
  permitted : Finset Cap
  inheritable : Finset Cap
  effective : Bool

/-- A file that is executed. -/
structure Image where
  uid : ℕ
  gid : ℕ
  setuid : Bool
  setgid : Bool
  caps : Option FileCaps

/-- The calls that change the credentials of their caller only.  Ids are those of its namespace. -/
inductive Call (φ : Type)
  | setuid (id : ℕ)
  | setgid (id : ℕ)
  | setresuid (real effective saved : Option ℕ)
  | setresgid (real effective saved : Option ℕ)
  | setgroups (ids : List ℕ)
  | capset (permitted effective inheritable : Finset Cap)
  | raiseAmbient (cap : Cap)
  | lowerAmbient (caps : Finset Cap)
  | dropBounding (cap : Cap)
  | setNoNewPrivs
  | seccomp (filter : φ)
  | execve (image : Image) (shared : Bool)

namespace Task

/-- The id is root's in the namespace. -/
def isRoot (space : Space) (id : ℕ) : Bool := space.uidMap.kernelId 0 = some id

def hasRoot (space : Space) (ids : Ids) : Bool :=
  isRoot space ids.real || isRoot space ids.effective || isRoot space ids.saved

def withUids (space : Space) (t : Task φ) (uids : Ids) : Task φ :=
  { t with
    uids
    caps := t.caps.changeUids (hasRoot space t.uids) (hasRoot space uids)
      (isRoot space t.uids.effective) (isRoot space uids.effective) }

/-- The kernel id of an argument that may be -1. -/
def argument (m : IdMap) : Option ℕ → Option (Option ℕ)
  | none => some none
  | some id => (m.kernelId id).map some

/-- `setuid`. -/
def setuid (space : Space) (t : Task φ) (id : ℕ) : Option (Task φ) := do
  let kernel ← space.uidMap.kernelId id
  let uids ← t.uids.set (capSetuid ∈ t.caps.effective) kernel
  return t.withUids space uids

/-- `setgid`. -/
def setgid (space : Space) (t : Task φ) (id : ℕ) : Option (Task φ) := do
  let kernel ← space.gidMap.kernelId id
  let gids ← t.gids.set (capSetgid ∈ t.caps.effective) kernel
  return { t with gids }

/-- `setresuid`. -/
def setresuid (space : Space) (t : Task φ) (real effective saved : Option ℕ) :
    Option (Task φ) := do
  let real ← argument space.uidMap real
  let effective ← argument space.uidMap effective
  let saved ← argument space.uidMap saved
  let uids ← t.uids.setRes (capSetuid ∈ t.caps.effective) real effective saved
  return t.withUids space uids

/-- `setresgid`. -/
def setresgid (space : Space) (t : Task φ) (real effective saved : Option ℕ) :
    Option (Task φ) := do
  let real ← argument space.gidMap real
  let effective ← argument space.gidMap effective
  let saved ← argument space.gidMap saved
  let gids ← t.gids.setRes (capSetgid ∈ t.caps.effective) real effective saved
  return { t with gids }

/-- `setgroups`. -/
def setgroups (space : Space) (t : Task φ) (ids : List ℕ) : Option (Task φ) :=
  if capSetgid ∈ t.caps.effective ∧ space.gidMap ≠ [] ∧ space.setgroups then
    (ids.mapM space.gidMap.kernelId).map fun groups ↦ { t with groups }
  else none

/-- `seccomp` with a filter: it takes `no_new_privs` or `CAP_SYS_ADMIN`. -/
def seccomp (t : Task φ) (filter : φ) : Option (Task φ) :=
  if t.noNewPrivs ∨ capSysAdmin ∈ t.caps.effective then
    some { t with filters := filter :: t.filters }
  else none

/-- The permitted capabilities a file gives, before what the task has is looked at. -/
def fileCaps (c : Caps) : Option FileCaps → Finset Cap
  | none => ∅
  | some file => (c.bounding ∩ file.permitted) ∪ (c.inheritable ∩ file.inheritable)

/-- A file with the effective flag is not executed without all its capabilities. -/
def fileRefused (c : Caps) : Option FileCaps → Bool
  | none => false
  | some file => file.effective ∧ ¬ file.permitted ⊆ fileCaps c (some file)

/-- The file is executed with root's capabilities: for a real or an effective user id of root, but not
for a set-user-id file with capabilities of its own. -/
def runsAsRoot (space : Space) (t : Task φ) (image : Image) (euid : ℕ) : Bool :=
  (isRoot space euid ∨ isRoot space t.uids.real) ∧
    ¬ (image.caps.isSome ∧ isRoot space euid ∧ ¬ isRoot space t.uids.real)

/-- The permitted capabilities `execve` computes, before what the task may gain is looked at. -/
def granted (space : Space) (t : Task φ) (image : Image) (euid : ℕ) : Finset Cap :=
  if runsAsRoot space t image euid then t.caps.bounding ∪ t.caps.inheritable
  else fileCaps t.caps image.caps

/-- `execve`: the set-id bits, the capabilities of the file and those of root, and what is taken back
of them from a task that may not gain any.  `shared` says that something else holds on to the task,
such as a tracer without the privilege for it. -/
def execve (space : Space) (t : Task φ) (image : Image) (shared : Bool) : Option (Task φ) :=
  let honoured : Bool :=
    ¬ t.noNewPrivs ∧ space.uidMap.Maps image.uid ∧ space.gidMap.Maps image.gid
  let euid := if honoured ∧ image.setuid then image.uid else t.uids.effective
  let egid := if honoured ∧ image.setgid then image.gid else t.gids.effective
  let permitted := granted space t image euid
  let allEffective : Bool :=
    image.caps.any FileCaps.effective ∨ (runsAsRoot space t image euid ∧ isRoot space euid)
  let setId : Bool := euid ≠ t.uids.real ∨ egid ≠ t.gids.real
  let downgraded : Bool :=
    (setId ∨ ¬ permitted ⊆ t.caps.permitted) ∧ (shared ∨ t.noNewPrivs)
  let ownIds : Bool := downgraded ∧ (t.noNewPrivs ∨ capSetuid ∉ t.caps.effective)
  let euid := if ownIds then t.uids.real else euid
  let egid := if ownIds then t.gids.real else egid
  let ambient := if image.caps.isSome ∨ setId then ∅ else t.caps.ambient
  let permitted := (if downgraded then permitted ∩ t.caps.permitted else permitted) ∪ ambient
  have hambient : ambient ⊆ t.caps.inheritable := by
    dsimp only [ambient]
    split
    · exact Finset.empty_subset _
    · exact t.caps.ambient_subset.trans Finset.inter_subset_right
  if fileRefused t.caps image.caps then none
  else some { t with
    uids := { t.uids with effective := euid, saved := euid }
    gids := { t.gids with effective := egid, saved := egid }
    caps :=
      { t.caps with
        permitted, ambient
        effective := if allEffective then permitted else ambient
        effective_subset := by
          split
          · exact Finset.Subset.refl _
          · exact Finset.subset_union_right
        ambient_subset := Finset.subset_inter Finset.subset_union_right hambient } }

/-- What a call makes of its caller. -/
def call (space : Space) (t : Task φ) : Call φ → Option (Task φ)
  | .setuid id => t.setuid space id
  | .setgid id => t.setgid space id
  | .setresuid real effective saved => t.setresuid space real effective saved
  | .setresgid real effective saved => t.setresgid space real effective saved
  | .setgroups ids => t.setgroups space ids
  | .capset permitted effective inheritable =>
    (t.caps.capset permitted effective inheritable).map fun caps ↦ { t with caps }
  | .raiseAmbient cap => (t.caps.raiseAmbient cap).map fun caps ↦ { t with caps }
  | .lowerAmbient caps => some { t with caps := t.caps.lowerAmbient caps }
  | .dropBounding cap => (t.caps.dropBounding cap).map fun caps ↦ { t with caps }
  | .setNoNewPrivs => some { t with noNewPrivs := true }
  | .seccomp filter => t.seccomp filter
  | .execve image shared => t.execve space image shared

end Task

/-! ## What a call does -/

namespace Task

variable {space : Space} {t t' : Task φ} {c : Call φ}

/-- The ids after `execve` are among those before, or the file's, if the task may gain any. -/
theorem execve_ids {image : Image} {shared : Bool} (h : t.execve space image shared = some t')
    (s : Set ℕ) :
    t'.groups = t.groups ∧
      (t.uids.In s → (t.noNewPrivs = true ∨ ∀ kernel, space.uidMap.Maps kernel → kernel ∈ s) →
        t'.uids.In s) ∧
      (t.gids.In s → (t.noNewPrivs = true ∨ ∀ kernel, space.gidMap.Maps kernel → kernel ∈ s) →
        t'.gids.In s) := by
  unfold execve at h
  dsimp only at h
  split at h
  · simp at h
  · obtain rfl := Option.some.inj h
    refine ⟨rfl, fun hs hmay ↦ ⟨hs.1, and_self_iff.mpr ?_⟩, fun hs hmay ↦
      ⟨hs.1, and_self_iff.mpr ?_⟩⟩
    · refine iteInduction (motive := (· ∈ s)) (fun _ ↦ hs.1) fun _ ↦
        iteInduction (motive := (· ∈ s)) (fun hset ↦ ?_) fun _ ↦ hs.2.1
      obtain ⟨hgain, huid, _⟩ := of_decide_eq_true hset.1
      exact hmay.resolve_left hgain _ huid
    · refine iteInduction (motive := (· ∈ s)) (fun _ ↦ hs.1) fun _ ↦
        iteInduction (motive := (· ∈ s)) (fun hset ↦ ?_) fun _ ↦ hs.2.1
      obtain ⟨hgain, _, hgid⟩ := of_decide_eq_true hset.1
      exact hmay.resolve_left hgain _ hgid

/-- `execve` keeps the filters, and with `no_new_privs` it gives no capability. -/
theorem execve_eq_some {image : Image} {shared : Bool} (h : t.execve space image shared = some t') :
    t'.userNs = t.userNs ∧ t'.filters = t.filters ∧ t'.noNewPrivs = t.noNewPrivs ∧
      (t.noNewPrivs = true → t'.caps.permitted ⊆ t.caps.permitted) := by
  unfold execve at h
  dsimp only at h
  split at h
  · simp at h
  · obtain rfl := Option.some.inj h
    have hambient : t.caps.ambient ⊆ t.caps.permitted :=
      t.caps.ambient_subset.trans Finset.inter_subset_left
    refine ⟨rfl, rfl, rfl, fun hnnp ↦ ?_⟩
    simp only [hnnp, not_true_eq_false, false_and, decide_false, Bool.false_eq_true, if_false,
      or_true, and_true]
    refine Finset.union_subset ?_ ?_
    · refine iteInduction (motive := (· ⊆ t.caps.permitted)) (fun _ ↦ Finset.inter_subset_right)
        fun hkept ↦ ?_
      simp only [decide_eq_true_eq, not_or, not_not] at hkept
      exact hkept.2
    · exact iteInduction (motive := (· ⊆ t.caps.permitted)) (fun _ ↦ Finset.empty_subset _)
        fun _ ↦ hambient

/-- Ids that a task has, or that it can choose among those its namespace has names for. -/
def ChosenFrom (s : Set ℕ) (m : IdMap) (privileged : Prop) (ids : Ids) : Prop :=
  ids.In s ∧ (privileged → ∀ kernel, m.Maps kernel → kernel ∈ s)

theorem mem_of_argument {m : IdMap} {id : ℕ} {o o' : Option ℕ} (h : argument m o = some o')
    (hid : id ∈ o'.toList) : m.Maps id := by
  cases o with
  | none =>
    obtain rfl : none = o' := Option.some.inj h
    simp at hid
  | some inside =>
    obtain ⟨kernel, hkernel, rfl⟩ := Option.map_eq_some_iff.mp h
    obtain rfl : id = kernel := by simpa using hid
    exact IdMap.maps_of_kernelId hkernel

theorem in_setRes_of_argument {ids ids' : Ids} {m : IdMap} {privileged : Bool}
    {real effective saved real' effective' saved' : Option ℕ}
    (hreal : argument m real = some real') (heffective : argument m effective = some effective')
    (hsaved : argument m saved = some saved')
    (h : ids.setRes privileged real' effective' saved' = some ids') {s : Set ℕ}
    (hs : ChosenFrom s m (privileged = true) ids) : ids'.In s := by
  refine Ids.in_setRes h hs.1 fun hprivileged id hid ↦ hs.2 hprivileged id ?_
  rcases List.mem_append.mp hid with hid | hid
  · rcases List.mem_append.mp hid with hid | hid
    · exact mem_of_argument hreal hid
    · exact mem_of_argument heffective hid
  · exact mem_of_argument hsaved hid

theorem setuid_eq_some {id : ℕ} (h : t.setuid space id = some t') :
    ∃ uids, t' = t.withUids space uids ∧
      ∀ s, ChosenFrom s space.uidMap (capSetuid ∈ t.caps.effective) t.uids → uids.In s := by
  obtain ⟨kernel, hkernel, h⟩ := Option.bind_eq_some_iff.mp h
  obtain ⟨uids, huids, h⟩ := Option.bind_eq_some_iff.mp h
  exact ⟨uids, (Option.some.inj h).symm, fun s hs ↦ Ids.in_set huids hs.1 fun hprivileged ↦
    hs.2 (of_decide_eq_true hprivileged) kernel (IdMap.maps_of_kernelId hkernel)⟩

theorem setgid_eq_some {id : ℕ} (h : t.setgid space id = some t') :
    ∃ gids, t' = { t with gids } ∧
      ∀ s, ChosenFrom s space.gidMap (capSetgid ∈ t.caps.effective) t.gids → gids.In s := by
  obtain ⟨kernel, hkernel, h⟩ := Option.bind_eq_some_iff.mp h
  obtain ⟨gids, hgids, h⟩ := Option.bind_eq_some_iff.mp h
  exact ⟨gids, (Option.some.inj h).symm, fun s hs ↦ Ids.in_set hgids hs.1 fun hprivileged ↦
    hs.2 (of_decide_eq_true hprivileged) kernel (IdMap.maps_of_kernelId hkernel)⟩

/-- A task that may choose its ids gets what it asks for. -/
theorem setuid_of_capable {id kernel : ℕ} (hcap : capSetuid ∈ t.caps.effective)
    (hid : space.uidMap.kernelId id = some kernel) :
    t.setuid space id = some (t.withUids space ⟨kernel, kernel, kernel⟩) := by
  simp [setuid, Ids.set, hcap, hid]

theorem setgid_of_capable {id kernel : ℕ} (hcap : capSetgid ∈ t.caps.effective)
    (hid : space.gidMap.kernelId id = some kernel) :
    t.setgid space id = some { t with gids := ⟨kernel, kernel, kernel⟩ } := by
  simp [setgid, Ids.set, hcap, hid]

theorem setresuid_eq_some {real effective saved : Option ℕ}
    (h : t.setresuid space real effective saved = some t') :
    ∃ uids, t' = t.withUids space uids ∧
      ∀ s, ChosenFrom s space.uidMap (capSetuid ∈ t.caps.effective) t.uids → uids.In s := by
  obtain ⟨_, hreal, h⟩ := Option.bind_eq_some_iff.mp h
  obtain ⟨_, heffective, h⟩ := Option.bind_eq_some_iff.mp h
  obtain ⟨_, hsaved, h⟩ := Option.bind_eq_some_iff.mp h
  obtain ⟨uids, huids, h⟩ := Option.bind_eq_some_iff.mp h
  exact ⟨uids, (Option.some.inj h).symm, fun s hs ↦
    in_setRes_of_argument hreal heffective hsaved huids ⟨hs.1, hs.2 ∘ of_decide_eq_true⟩⟩

theorem setresgid_eq_some {real effective saved : Option ℕ}
    (h : t.setresgid space real effective saved = some t') :
    ∃ gids, t' = { t with gids } ∧
      ∀ s, ChosenFrom s space.gidMap (capSetgid ∈ t.caps.effective) t.gids → gids.In s := by
  obtain ⟨_, hreal, h⟩ := Option.bind_eq_some_iff.mp h
  obtain ⟨_, heffective, h⟩ := Option.bind_eq_some_iff.mp h
  obtain ⟨_, hsaved, h⟩ := Option.bind_eq_some_iff.mp h
  obtain ⟨gids, hgids, h⟩ := Option.bind_eq_some_iff.mp h
  exact ⟨gids, (Option.some.inj h).symm, fun s hs ↦
    in_setRes_of_argument hreal heffective hsaved hgids ⟨hs.1, hs.2 ∘ of_decide_eq_true⟩⟩

theorem mem_of_mapM_kernelId {m : IdMap} {ids groups : List ℕ}
    (h : ids.mapM m.kernelId = some groups) {gid : ℕ} (hgid : gid ∈ groups) : m.Maps gid := by
  induction ids generalizing groups with
  | nil =>
    obtain rfl : [] = groups := by simpa using h
    simp at hgid
  | cons id ids ih =>
    rw [List.mapM_cons, Option.bind_eq_bind, Option.bind_eq_some_iff] at h
    obtain ⟨kernel, hkernel, h⟩ := h
    rw [Option.bind_eq_bind, Option.bind_eq_some_iff] at h
    obtain ⟨rest, hrest, h⟩ := h
    obtain rfl : kernel :: rest = groups := Option.some.inj h
    rcases List.mem_cons.mp hgid with rfl | hgid
    · exact IdMap.maps_of_kernelId hkernel
    · exact ih hrest hgid

theorem setgroups_eq_some {ids : List ℕ} (h : t.setgroups space ids = some t') :
    capSetgid ∈ t.caps.effective ∧ ∃ groups, t' = { t with groups } ∧
      ids.mapM space.gidMap.kernelId = some groups := by
  unfold setgroups at h
  split at h
  · rename_i hmay
    obtain ⟨groups, hgroups, h⟩ := Option.map_eq_some_iff.mp h
    exact ⟨hmay.1, groups, h.symm, hgroups⟩
  · simp at h

theorem seccomp_eq_some {filter : φ} (h : t.seccomp filter = some t') :
    t' = { t with filters := filter :: t.filters } := by
  unfold seccomp at h
  split at h
  · exact (Option.some.inj h).symm
  · simp at h

/-- No call takes a filter or `no_new_privs` away, and with `no_new_privs` none gives a capability. -/
theorem call_eq_some (h : t.call space c = some t') :
    t'.userNs = t.userNs ∧ t.filters <:+ t'.filters ∧
      (t.noNewPrivs = true → t'.noNewPrivs = true ∧ t'.caps.permitted ⊆ t.caps.permitted) := by
  cases c with
  | setuid id =>
    obtain ⟨uids, rfl, _⟩ := setuid_eq_some h
    exact ⟨rfl, List.suffix_refl _,
      fun hnnp ↦ ⟨hnnp, Caps.changeUids_permitted_subset _ _ _ _ _⟩⟩
  | setgid id =>
    obtain ⟨gids, rfl, _⟩ := setgid_eq_some h
    exact ⟨rfl, List.suffix_refl _, fun hnnp ↦ ⟨hnnp, Finset.Subset.refl _⟩⟩
  | setresuid real effective saved =>
    obtain ⟨uids, rfl, _⟩ := setresuid_eq_some h
    exact ⟨rfl, List.suffix_refl _,
      fun hnnp ↦ ⟨hnnp, Caps.changeUids_permitted_subset _ _ _ _ _⟩⟩
  | setresgid real effective saved =>
    obtain ⟨gids, rfl, _⟩ := setresgid_eq_some h
    exact ⟨rfl, List.suffix_refl _, fun hnnp ↦ ⟨hnnp, Finset.Subset.refl _⟩⟩
  | setgroups ids =>
    obtain ⟨_, groups, rfl, _⟩ := setgroups_eq_some h
    exact ⟨rfl, List.suffix_refl _, fun hnnp ↦ ⟨hnnp, Finset.Subset.refl _⟩⟩
  | capset permitted effective inheritable =>
    obtain ⟨caps, hcaps, rfl⟩ := Option.map_eq_some_iff.mp h
    obtain ⟨hpermitted, _, _, _, hsubset⟩ := Caps.capset_eq_some hcaps
    exact ⟨rfl, List.suffix_refl _, fun hnnp ↦ ⟨hnnp, hpermitted.trans_subset hsubset⟩⟩
  | raiseAmbient cap =>
    obtain ⟨caps, hcaps, rfl⟩ := Option.map_eq_some_iff.mp h
    exact ⟨rfl, List.suffix_refl _,
      fun hnnp ↦ ⟨hnnp, (Caps.raiseAmbient_permitted hcaps).subset⟩⟩
  | lowerAmbient caps =>
    obtain rfl := Option.some.inj h
    exact ⟨rfl, List.suffix_refl _, fun hnnp ↦ ⟨hnnp, Finset.Subset.refl _⟩⟩
  | dropBounding cap =>
    obtain ⟨caps, hcaps, rfl⟩ := Option.map_eq_some_iff.mp h
    exact ⟨rfl, List.suffix_refl _,
      fun hnnp ↦ ⟨hnnp, (Caps.dropBounding_permitted hcaps).subset⟩⟩
  | setNoNewPrivs =>
    obtain rfl := Option.some.inj h
    exact ⟨rfl, List.suffix_refl _, fun _ ↦ ⟨rfl, Finset.Subset.refl _⟩⟩
  | seccomp filter =>
    obtain rfl := seccomp_eq_some h
    exact ⟨rfl, List.suffix_cons _ _, fun hnnp ↦ ⟨hnnp, Finset.Subset.refl _⟩⟩
  | execve image shared =>
    obtain ⟨hns, hfilters, hstill, hcaps⟩ := execve_eq_some h
    exact ⟨hns, hfilters ▸ List.suffix_refl _, fun hnnp ↦ ⟨hstill.trans hnnp, hcaps hnnp⟩⟩

/-- The ids after a call are among those before, or were chosen among those the namespace has names
for, with privilege or by executing a file of theirs; and so are the groups. -/
theorem call_ids (h : t.call space c = some t') (s : Set ℕ) :
    (ChosenFrom s space.uidMap (capSetuid ∈ t.caps.effective) t.uids →
      (t.noNewPrivs = true ∨ ∀ kernel, space.uidMap.Maps kernel → kernel ∈ s) → t'.uids.In s) ∧
    (ChosenFrom s space.gidMap (capSetgid ∈ t.caps.effective) t.gids →
      (t.noNewPrivs = true ∨ ∀ kernel, space.gidMap.Maps kernel → kernel ∈ s) → t'.gids.In s) ∧
    ∀ gid ∈ t'.groups,
      gid ∈ t.groups ∨ (capSetgid ∈ t.caps.effective ∧ space.gidMap.Maps gid) := by
  cases c with
  | setuid id =>
    obtain ⟨uids, rfl, hin⟩ := setuid_eq_some h
    exact ⟨fun hs _ ↦ hin s hs, fun hs _ ↦ hs.1, fun _ ↦ Or.inl⟩
  | setgid id =>
    obtain ⟨gids, rfl, hin⟩ := setgid_eq_some h
    exact ⟨fun hs _ ↦ hs.1, fun hs _ ↦ hin s hs, fun _ ↦ Or.inl⟩
  | setresuid real effective saved =>
    obtain ⟨uids, rfl, hin⟩ := setresuid_eq_some h
    exact ⟨fun hs _ ↦ hin s hs, fun hs _ ↦ hs.1, fun _ ↦ Or.inl⟩
  | setresgid real effective saved =>
    obtain ⟨gids, rfl, hin⟩ := setresgid_eq_some h
    exact ⟨fun hs _ ↦ hs.1, fun hs _ ↦ hin s hs, fun _ ↦ Or.inl⟩
  | setgroups ids =>
    obtain ⟨hmay, groups, rfl, hmapM⟩ := setgroups_eq_some h
    exact ⟨fun hs _ ↦ hs.1, fun hs _ ↦ hs.1, fun gid hgid ↦
      Or.inr ⟨hmay, mem_of_mapM_kernelId hmapM hgid⟩⟩
  | capset permitted effective inheritable =>
    obtain ⟨caps, _, rfl⟩ := Option.map_eq_some_iff.mp h
    exact ⟨fun hs _ ↦ hs.1, fun hs _ ↦ hs.1, fun _ ↦ Or.inl⟩
  | raiseAmbient cap =>
    obtain ⟨caps, _, rfl⟩ := Option.map_eq_some_iff.mp h
    exact ⟨fun hs _ ↦ hs.1, fun hs _ ↦ hs.1, fun _ ↦ Or.inl⟩
  | lowerAmbient caps =>
    obtain rfl := Option.some.inj h
    exact ⟨fun hs _ ↦ hs.1, fun hs _ ↦ hs.1, fun _ ↦ Or.inl⟩
  | dropBounding cap =>
    obtain ⟨caps, _, rfl⟩ := Option.map_eq_some_iff.mp h
    exact ⟨fun hs _ ↦ hs.1, fun hs _ ↦ hs.1, fun _ ↦ Or.inl⟩
  | setNoNewPrivs =>
    obtain rfl := Option.some.inj h
    exact ⟨fun hs _ ↦ hs.1, fun hs _ ↦ hs.1, fun _ ↦ Or.inl⟩
  | seccomp filter =>
    obtain rfl := seccomp_eq_some h
    exact ⟨fun hs _ ↦ hs.1, fun hs _ ↦ hs.1, fun _ ↦ Or.inl⟩
  | execve image shared =>
    obtain ⟨hsame, huids, hgids⟩ := execve_ids h s
    exact ⟨fun hs hmay ↦ huids hs.1 hmay, fun hs hmay ↦ hgids hs.1 hmay, fun gid hgid ↦
      Or.inl (hsame ▸ hgid)⟩

/-- A capability over a namespace is one in it, or the namespace is below the task's own. -/
theorem capable_cases {cap : Cap} {ns : UserNs} (h : t.capable cap ns = true) :
    (t.userNs = ns ∧ cap ∈ t.caps.effective) ∨ ns.Below t.userNs := by
  induction ns with
  | init => exact Or.inl (of_decide_eq_true h)
  | child parent owner index ih =>
    unfold capable at h
    split at h
    · rename_i hns
      exact Or.inl ⟨hns, of_decide_eq_true h⟩
    · rcases Bool.or_eq_true_iff.mp h with howner | hparent
      · exact Or.inr (Or.inl (of_decide_eq_true howner).1.symm)
      · rcases ih hparent with ⟨hns, _⟩ | hbelow
        · exact Or.inr (Or.inl hns.symm)
        · exact Or.inr (Or.inr hbelow)

end Task

end Credentials
