import CrunRs.Lib.Credentials
import CrunRs.Lib.Lts

/-!
# Families of tasks

The tasks of a system and their user namespaces, and every order in which the tasks make calls,
start copies of themselves, make and enter namespaces and write the maps of these.

`withinBounds_of_alone` is the result.  From a task with `no_new_privs`, nothing that the task or a
descendant of it does gets a capability over the task's namespace that it did not have, takes a
filter away, or leaves the namespace; and if it could not choose ids to begin with, no descendant
ever has another one, not even in a namespace of its own.
-/

set_option autoImplicit false

namespace Credentials

variable {φ : Type}

/-! ## All tasks -/

/-- Some tasks, and the user namespaces that exist. -/
structure World (φ : Type) where
  tasks : ℕ → Option (Task φ)
  spaces : UserNs → Option Space

/-- What a task can do.  `clone` starts a copy of it as `child`, in a new user namespace if
`newUser` is one's index. -/
inductive Act (φ : Type)
  | call (c : Call φ)
  | clone (child : ℕ) (newUser : Option ℕ)
  | unshareUser (index : ℕ)
  | setnsUser (ns : UserNs)
  | writeUidMap (ns : UserNs) (lines : IdMap)
  | writeGidMap (ns : UserNs) (lines : IdMap)
  | denySetgroups (ns : UserNs)
  | exit

namespace World

/-- The task takes the place of what was known of `pid`. -/
def put (w : World φ) (pid : ℕ) (t : Task φ) : World φ :=
  { w with tasks := Function.update w.tasks pid (some t) }

def putSpace (w : World φ) (ns : UserNs) (space : Space) : World φ :=
  { w with spaces := Function.update w.spaces ns (some space) }

/-- A task in a new user namespace, with all capabilities there. -/
def enter (t : Task φ) (ns : UserNs) : Task φ := { t with userNs := ns, caps := .full }

/-- The new namespace of a task, which needs names for its ids where it is. -/
def newUserNs (w : World φ) (t : Task φ) (index : ℕ) : Option (World φ × Task φ) := do
  let space ← w.spaces t.userNs
  let ns := UserNs.child t.userNs t.uids.effective index
  if space.uidMap.Maps t.uids.effective ∧ space.gidMap.Maps t.gids.effective ∧
      (w.spaces ns).isNone then
    return (w.putSpace ns { uidMap := [], gidMap := [], setgroups := space.setgroups }, enter t ns)
  else none

/-- The map of one id that a task without privilege in the parent may write: its own. -/
def ownLine (owner : ℕ) (t : Task φ) (id : ℕ) (lines kept : IdMap) : Bool :=
  lines.length = 1 ∧ t.uids.effective = owner ∧ ∀ e ∈ kept, e.kernel = id ∧ e.count = 1

/-- The namespaces a map is written from: the one itself and its parent. -/
def writesFrom (t : Task φ) (ns parent : UserNs) : Bool := t.userNs = ns ∨ t.userNs = parent

/-- Writing `uid_map`, once. -/
def writeUidMap (w : World φ) (t : Task φ) (lines : IdMap) : UserNs → Option (World φ)
  | .init => none
  | .child parent owner index => do
    let ns := UserNs.child parent owner index
    let space ← w.spaces ns
    let above ← w.spaces parent
    let kept ← IdMap.ofParent above.uidMap lines
    if writesFrom t ns parent ∧ t.capable capSysAdmin ns ∧ space.uidMap = [] ∧ lines ≠ [] ∧
        (ownLine owner t t.uids.effective lines kept ∨ t.capable capSetuid parent) then
      return w.putSpace ns { space with uidMap := kept }
    else none

/-- Writing `gid_map`, once; without privilege in the parent only after `setgroups` is denied. -/
def writeGidMap (w : World φ) (t : Task φ) (lines : IdMap) : UserNs → Option (World φ)
  | .init => none
  | .child parent owner index => do
    let ns := UserNs.child parent owner index
    let space ← w.spaces ns
    let above ← w.spaces parent
    let kept ← IdMap.ofParent above.gidMap lines
    if writesFrom t ns parent ∧ t.capable capSysAdmin ns ∧ space.gidMap = [] ∧ lines ≠ [] ∧
        ((ownLine owner t t.gids.effective lines kept ∧ ¬ space.setgroups) ∨
          t.capable capSetgid parent) then
      return w.putSpace ns { space with gidMap := kept }
    else none

/-- Writing `deny` to `setgroups`, before the map. -/
def denySetgroups (w : World φ) (t : Task φ) (ns : UserNs) : Option (World φ) := do
  let space ← w.spaces ns
  if t.capable capSysAdmin ns ∧ space.gidMap = [] then
    return w.putSpace ns { space with setgroups := false }
  else none

/-- `clone`. -/
def clone (w : World φ) (t : Task φ) (child : ℕ) (newUser : Option ℕ) : Option (World φ) :=
  if (w.tasks child).isSome then none
  else match newUser with
    | none => some (w.put child t)
    | some index => (w.newUserNs t index).map fun made ↦ made.1.put child made.2

/-- `setns` with a user namespace. -/
def setnsUser (w : World φ) (pid : ℕ) (t : Task φ) (ns : UserNs) : Option (World φ) :=
  if t.userNs ≠ ns ∧ (w.spaces ns).isSome ∧ t.capable capSysAdmin ns then
    some (w.put pid (enter t ns))
  else none

/-- What a task does. -/
def act (w : World φ) (pid : ℕ) (t : Task φ) : Act φ → Option (World φ)
  | .call c => do
    let space ← w.spaces t.userNs
    let t' ← t.call space c
    return w.put pid t'
  | .clone child newUser => w.clone t child newUser
  | .unshareUser index => (w.newUserNs t index).map fun made ↦ made.1.put pid made.2
  | .setnsUser ns => w.setnsUser pid t ns
  | .writeUidMap ns lines => w.writeUidMap t lines ns
  | .writeGidMap ns lines => w.writeGidMap t lines ns
  | .denySetgroups ns => w.denySetgroups t ns
  | .exit => some { w with tasks := Function.update w.tasks pid none }

/-- One step: a task does something. -/
def step (w : World φ) (a : ℕ × Act φ) : Option (World φ) :=
  (w.tasks a.1).bind fun t ↦ w.act a.1 t a.2

section Maps

variable {w w' : World φ} {t : Task φ} {ns : UserNs} {lines : IdMap}

theorem putSpace_self (w : World φ) (ns : UserNs) (space : Space) :
    (w.putSpace ns space).spaces ns = some space :=
  Function.update_self ..

theorem putSpace_of_ne (w : World φ) {ns other : UserNs} (space : Space) (h : other ≠ ns) :
    (w.putSpace ns space).spaces other = w.spaces other :=
  Function.update_of_ne h ..

theorem writeUidMap_eq_some {parent : UserNs} {owner index : ℕ}
    (h : w.writeUidMap t lines (.child parent owner index) = some w') :
    ∃ space above kept, w.spaces (.child parent owner index) = some space ∧
      w.spaces parent = some above ∧ IdMap.ofParent above.uidMap lines = some kept ∧
      w' = w.putSpace (.child parent owner index) { space with uidMap := kept } ∧
      (ownLine owner t t.uids.effective lines kept = true ∨ t.capable capSetuid parent = true) := by
  obtain ⟨space, hspace, h⟩ := Option.bind_eq_some_iff.mp h
  obtain ⟨above, habove, h⟩ := Option.bind_eq_some_iff.mp h
  obtain ⟨kept, hkept, h⟩ := Option.bind_eq_some_iff.mp h
  split at h
  · rename_i hmay
    exact ⟨space, above, kept, hspace, habove, hkept, (Option.some.inj h).symm, hmay.2.2.2.2⟩
  · simp at h

theorem writeGidMap_eq_some {parent : UserNs} {owner index : ℕ}
    (h : w.writeGidMap t lines (.child parent owner index) = some w') :
    ∃ space above kept, w.spaces (.child parent owner index) = some space ∧
      w.spaces parent = some above ∧ IdMap.ofParent above.gidMap lines = some kept ∧
      w' = w.putSpace (.child parent owner index) { space with gidMap := kept } ∧
      (ownLine owner t t.gids.effective lines kept = true ∨ t.capable capSetgid parent = true) := by
  obtain ⟨space, hspace, h⟩ := Option.bind_eq_some_iff.mp h
  obtain ⟨above, habove, h⟩ := Option.bind_eq_some_iff.mp h
  obtain ⟨kept, hkept, h⟩ := Option.bind_eq_some_iff.mp h
  split at h
  · rename_i hmay
    exact ⟨space, above, kept, hspace, habove, hkept, (Option.some.inj h).symm,
      hmay.2.2.2.2.imp_left And.left⟩
  · simp at h

theorem denySetgroups_eq_some (h : w.denySetgroups t ns = some w') :
    ∃ space, w.spaces ns = some space ∧ w' = w.putSpace ns { space with setgroups := false } := by
  obtain ⟨space, hspace, h⟩ := Option.bind_eq_some_iff.mp h
  split at h
  · exact ⟨space, hspace, (Option.some.inj h).symm⟩
  · simp at h

theorem newUserNs_eq_some {index : ℕ} {made : World φ × Task φ}
    (h : w.newUserNs t index = some made) :
    ∃ space, w.spaces t.userNs = some space ∧
      w.spaces (.child t.userNs t.uids.effective index) = none ∧
      made = (w.putSpace (.child t.userNs t.uids.effective index)
          { uidMap := [], gidMap := [], setgroups := space.setgroups },
        enter t (.child t.userNs t.uids.effective index)) := by
  obtain ⟨space, hspace, h⟩ := Option.bind_eq_some_iff.mp h
  dsimp only at h
  split at h
  · rename_i hmay
    exact ⟨space, hspace, Option.isNone_iff_eq_none.mp hmay.2.2, (Option.some.inj h).symm⟩
  · simp at h

end Maps

end World

/-! ## What a family of tasks keeps -/

/-- Bounds on a family: the namespace it stays in, the ids it has, the filters it has at least and,
if it may not gain any, its capabilities there. -/
structure Bounds (φ : Type) where
  root : UserNs
  noNewPrivs : Bool
  caps : Set Cap
  uids : Set ℕ
  gids : Set ℕ
  groups : Set ℕ
  filters : List φ

structure Task.WithinBounds (b : Bounds φ) (t : Task φ) : Prop where
  filters : b.filters <:+ t.filters
  userNs : t.userNs.Within b.root
  noNewPrivs : b.noNewPrivs = true → t.noNewPrivs = true
  caps : b.noNewPrivs = true → t.userNs = b.root → ∀ cap ∈ t.caps.permitted, cap ∈ b.caps
  uids : t.uids.In b.uids
  gids : t.gids.In b.gids
  groups : ∀ gid ∈ t.groups, gid ∈ b.groups ∨ gid ∈ b.gids

/-- Nobody in the namespace can choose an id outside the set: nobody can choose any, or it has no
names for others. -/
def Kept (b : Bounds φ) (cap : Cap) (s : Set ℕ) (m : IdMap) : Prop :=
  (b.noNewPrivs = true ∧ cap ∉ b.caps) ∨ ∀ kernel, m.Maps kernel → kernel ∈ s

/-- Every task is within the bounds, no id outside them can be chosen in the namespace of the family,
and those below have no names for others. -/
structure World.WithinBounds (b : Bounds φ) (w : World φ) : Prop where
  tasks : ∀ pid t, w.tasks pid = some t → t.WithinBounds b
  root : ∀ space, w.spaces b.root = some space →
    Kept b capSetuid b.uids space.uidMap ∧ Kept b capSetgid b.gids space.gidMap
  below : ∀ ns space, w.spaces ns = some space → ns.Below b.root →
    (∀ kernel, space.uidMap.Maps kernel → kernel ∈ b.uids) ∧
      ∀ kernel, space.gidMap.Maps kernel → kernel ∈ b.gids

variable {b : Bounds φ} {w w' : World φ} {pid : ℕ} {t t' : Task φ} {space : Space}

namespace Task.WithinBounds

/-- What a capability is held over belongs to the family. -/
theorem within_of_capable (h : t.WithinBounds b) {cap : Cap} {ns : UserNs}
    (hcap : t.capable cap ns = true) : ns.Within b.root := by
  rcases Task.capable_cases hcap with ⟨rfl, _⟩ | hbelow
  · exact h.userNs
  · exact Or.inr (hbelow.trans_within h.userNs)

/-- A capability over the root of the family is held in it. -/
theorem mem_of_capable_root (h : t.WithinBounds b) {cap : Cap}
    (hcap : t.capable cap b.root = true) : t.userNs = b.root ∧ cap ∈ t.caps.effective := by
  rcases Task.capable_cases hcap with hown | hbelow
  · exact hown
  · exact absurd h.userNs (UserNs.not_within_of_below hbelow)

/-- **Without the gain of any, a capability over the root or over what is above it is one of the
bounds, and over the root.** -/
theorem mem_of_capable (h : t.WithinBounds b) (hnnp : b.noNewPrivs = true) {cap : Cap} {ns : UserNs}
    (hcap : t.capable cap ns = true) (hns : b.root.Within ns) : ns = b.root ∧ cap ∈ b.caps := by
  obtain rfl : ns = b.root := by
    rcases h.within_of_capable hcap with heq | hbelow
    · exact heq
    · exact absurd hns (UserNs.not_within_of_below hbelow)
  obtain ⟨heq, hmem⟩ := h.mem_of_capable_root hcap
  exact ⟨rfl, h.caps hnnp heq cap (t.caps.effective_subset hmem)⟩

/-- A task may enter a namespace below the root with all capabilities there. -/
theorem enter (h : t.WithinBounds b) {ns : UserNs} (hns : ns.Below b.root) :
    (World.enter t ns).WithinBounds b where
  filters := h.filters
  userNs := Or.inr hns
  noNewPrivs := h.noNewPrivs
  caps := fun _ heq ↦ absurd (heq ▸ UserNs.Within.refl _) (UserNs.not_within_of_below hns)
  uids := h.uids
  gids := h.gids
  groups := h.groups

/-- A task whose namespace keeps its ids, as every namespace of the family does, chooses no other
ones. -/
theorem chosenFrom (h : t.WithinBounds b) {cap : Cap} {s : Set ℕ} {m : IdMap} {ids : Ids}
    (hs : ids.In s) (hroot : t.userNs = b.root → Kept b cap s m)
    (hbelow : t.userNs.Below b.root → ∀ kernel, m.Maps kernel → kernel ∈ s) :
    Task.ChosenFrom s m (cap ∈ t.caps.effective) ids ∧
      (t.noNewPrivs = true ∨ ∀ kernel, m.Maps kernel → kernel ∈ s) := by
  rcases h.userNs with heq | hlow
  · rcases hroot heq with ⟨hnnp, hcap⟩ | hmaps
    · exact ⟨⟨hs, fun hmem ↦ absurd (h.caps hnnp heq cap (t.caps.effective_subset hmem)) hcap⟩,
        Or.inl (h.noNewPrivs hnnp)⟩
    · exact ⟨⟨hs, fun _ ↦ hmaps⟩, Or.inr hmaps⟩
  · exact ⟨⟨hs, fun _ ↦ hbelow hlow⟩, Or.inr (hbelow hlow)⟩

end Task.WithinBounds

namespace World.WithinBounds

/-- No call of a task takes it out of the bounds. -/
theorem call (hw : w.WithinBounds b) (ht : t.WithinBounds b) (hspace : w.spaces t.userNs = some space)
    {c : Call φ} (h : t.call space c = some t') : t'.WithinBounds b := by
  obtain ⟨hns, hfilters, hkeep⟩ := Task.call_eq_some h
  obtain ⟨huids, huidsOf⟩ := ht.chosenFrom ht.uids
    (fun heq ↦ (hw.root space (heq ▸ hspace)).1) fun hlow ↦ (hw.below _ space hspace hlow).1
  obtain ⟨hgids, hgidsOf⟩ := ht.chosenFrom ht.gids
    (fun heq ↦ (hw.root space (heq ▸ hspace)).2) fun hlow ↦ (hw.below _ space hspace hlow).2
  obtain ⟨hnewUids, _, hgroups⟩ := Task.call_ids h b.uids
  obtain ⟨_, hnewGids, _⟩ := Task.call_ids h b.gids
  constructor
  · exact ht.filters.trans hfilters
  · exact hns ▸ ht.userNs
  · exact fun hnnp ↦ (hkeep (ht.noNewPrivs hnnp)).1
  · intro hnnp heq cap hcap
    exact ht.caps hnnp (hns.symm.trans heq) cap ((hkeep (ht.noNewPrivs hnnp)).2 hcap)
  · exact hnewUids huids huidsOf
  · exact hnewGids hgids hgidsOf
  · intro gid hgid
    rcases hgroups gid hgid with hold | ⟨hmay, hmaps⟩
    · exact ht.groups gid hold
    · exact Or.inr (hgids.2 hmay gid hmaps)

theorem put (hw : w.WithinBounds b) (ht : t.WithinBounds b) : (w.put pid t).WithinBounds b where
  tasks := by
    intro other t' h
    by_cases hpid : other = pid
    · subst hpid
      obtain rfl : t = t' := by simpa [World.put] using h
      exact ht
    · exact hw.tasks other t' (by simpa [World.put, Function.update_of_ne hpid] using h)
  root := hw.root
  below := hw.below

theorem putSpace (hw : w.WithinBounds b) {ns : UserNs}
    (hroot : ns = b.root →
      Kept b capSetuid b.uids space.uidMap ∧ Kept b capSetgid b.gids space.gidMap)
    (hbelow : ns.Below b.root →
      (∀ kernel, space.uidMap.Maps kernel → kernel ∈ b.uids) ∧
        ∀ kernel, space.gidMap.Maps kernel → kernel ∈ b.gids) :
    (w.putSpace ns space).WithinBounds b := by
  have hcases : ∀ other found, (w.putSpace ns space).spaces other = some found →
      (other = ns ∧ found = space) ∨ w.spaces other = some found := by
    intro other found h
    by_cases hother : other = ns
    · subst hother
      exact Or.inl ⟨rfl, by simpa [World.putSpace] using h.symm⟩
    · exact Or.inr (by simpa [World.putSpace, Function.update_of_ne hother] using h)
  constructor
  · exact hw.tasks
  · intro found h
    rcases hcases _ found h with ⟨heq, rfl⟩ | h
    · exact hroot heq.symm
    · exact hw.root found h
  · intro other found h hlow
    rcases hcases other found h with ⟨rfl, rfl⟩ | h
    · exact hbelow hlow
    · exact hw.below other found h hlow

/-- A new namespace is below its maker's, and has no maps yet. -/
theorem newUserNs (hw : w.WithinBounds b) (ht : t.WithinBounds b) {index : ℕ}
    {made : World φ × Task φ} (h : w.newUserNs t index = some made) :
    made.1.WithinBounds b ∧ made.2.WithinBounds b := by
  obtain ⟨space, _, _, rfl⟩ := World.newUserNs_eq_some h
  have hlow := (UserNs.below_child t.userNs t.uids.effective index).trans_within ht.userNs
  have hnone : ∀ kernel, ¬ IdMap.Maps [] kernel := by simp [IdMap.Maps]
  refine ⟨hw.putSpace (fun heq ↦ ?_) fun _ ↦ ⟨fun kernel hk ↦ absurd hk (hnone kernel),
    fun kernel hk ↦ absurd hk (hnone kernel)⟩, ht.enter hlow⟩
  exact absurd (heq ▸ UserNs.Within.refl _) (UserNs.not_within_of_below hlow)

/-- What may be written as a map in the family names ids within the bounds only: the parent's, or
the writer's own. -/
theorem maps_of_written (ht : t.WithinBounds b) {parent : UserNs} {cap : Cap} {s : Set ℕ}
    {above lines kept : IdMap} {owner id : ℕ} (hid : id ∈ s)
    (hroot : parent = b.root → Kept b cap s above)
    (hbelow : parent.Below b.root → ∀ kernel, above.Maps kernel → kernel ∈ s)
    (hkept : IdMap.ofParent above lines = some kept)
    (hmay : World.ownLine owner t id lines kept = true ∨ t.capable cap parent = true) {kernel : ℕ}
    (hk : kept.Maps kernel) : kernel ∈ s := by
  rcases hmay with hown | hcap
  · obtain ⟨e, he, hle, hlt⟩ := hk
    obtain ⟨heq, hone⟩ := (of_decide_eq_true hown).2.2 e he
    obtain rfl : kernel = id := by omega
    exact hid
  · have habove := IdMap.maps_of_ofParent hkept hk
    rcases ht.within_of_capable hcap with rfl | hlow
    · rcases hroot rfl with ⟨hnnp, hnot⟩ | hmaps
      · exact absurd (ht.mem_of_capable hnnp hcap (UserNs.Within.refl _)).2 hnot
      · exact hmaps kernel habove
    · exact hbelow hlow kernel habove

theorem writeUidMap (hw : w.WithinBounds b) (ht : t.WithinBounds b) {ns : UserNs} {lines : IdMap}
    (h : w.writeUidMap t lines ns = some w') : w'.WithinBounds b := by
  cases ns with
  | init => simp [World.writeUidMap] at h
  | child parent owner index =>
    obtain ⟨space, above, kept, hspace, habove, hkept, rfl, hmay⟩ := World.writeUidMap_eq_some h
    have hmaps : ∀ kernel, kept.Maps kernel → kernel ∈ b.uids := fun kernel hk ↦
      maps_of_written ht ht.uids.2.1 (fun heq ↦ (hw.root above (heq ▸ habove)).1)
        (fun hlow ↦ (hw.below _ above habove hlow).1) hkept hmay hk
    exact hw.putSpace (fun heq ↦ ⟨Or.inr hmaps, (hw.root space (heq ▸ hspace)).2⟩)
      fun hlow ↦ ⟨hmaps, (hw.below _ space hspace hlow).2⟩

theorem writeGidMap (hw : w.WithinBounds b) (ht : t.WithinBounds b) {ns : UserNs} {lines : IdMap}
    (h : w.writeGidMap t lines ns = some w') : w'.WithinBounds b := by
  cases ns with
  | init => simp [World.writeGidMap] at h
  | child parent owner index =>
    obtain ⟨space, above, kept, hspace, habove, hkept, rfl, hmay⟩ := World.writeGidMap_eq_some h
    have hmaps : ∀ kernel, kept.Maps kernel → kernel ∈ b.gids := fun kernel hk ↦
      maps_of_written ht ht.gids.2.1 (fun heq ↦ (hw.root above (heq ▸ habove)).2)
        (fun hlow ↦ (hw.below _ above habove hlow).2) hkept hmay hk
    exact hw.putSpace (fun heq ↦ ⟨(hw.root space (heq ▸ hspace)).1, Or.inr hmaps⟩)
      fun hlow ↦ ⟨(hw.below _ space hspace hlow).1, hmaps⟩

theorem denySetgroups (hw : w.WithinBounds b) {ns : UserNs} (h : w.denySetgroups t ns = some w') :
    w'.WithinBounds b := by
  obtain ⟨space, hspace, rfl⟩ := World.denySetgroups_eq_some h
  exact hw.putSpace (fun heq ↦ hw.root space (heq ▸ hspace)) fun hlow ↦
    hw.below ns space hspace hlow

/-- Nothing a task within the bounds does leads out of them. -/
theorem act (hw : w.WithinBounds b) (ht : t.WithinBounds b) {a : Act φ}
    (h : w.act pid t a = some w') : w'.WithinBounds b := by
  cases a with
  | call c =>
    obtain ⟨space, hspace, h⟩ := Option.bind_eq_some_iff.mp h
    obtain ⟨t', hcall, h⟩ := Option.bind_eq_some_iff.mp h
    obtain rfl := Option.some.inj h
    exact hw.put (hw.call ht hspace hcall)
  | clone child newUser =>
    change w.clone t child newUser = some w' at h
    unfold World.clone at h
    split at h
    · simp at h
    · cases newUser with
      | none =>
        obtain rfl := Option.some.inj h
        exact hw.put ht
      | some index =>
        obtain ⟨made, hmade, rfl⟩ := Option.map_eq_some_iff.mp h
        obtain ⟨hworld, htask⟩ := hw.newUserNs ht hmade
        exact hworld.put htask
  | unshareUser index =>
    obtain ⟨made, hmade, rfl⟩ := Option.map_eq_some_iff.mp h
    obtain ⟨hworld, htask⟩ := hw.newUserNs ht hmade
    exact hworld.put htask
  | setnsUser ns =>
    change w.setnsUser pid t ns = some w' at h
    unfold World.setnsUser at h
    split at h
    · rename_i hmay
      obtain rfl := Option.some.inj h
      refine hw.put (ht.enter ?_)
      rcases Task.capable_cases hmay.2.2 with ⟨hsame, _⟩ | hbelow
      · exact absurd hsame hmay.1
      · exact hbelow.trans_within ht.userNs
    · simp at h
  | writeUidMap ns lines => exact hw.writeUidMap ht h
  | writeGidMap ns lines => exact hw.writeGidMap ht h
  | denySetgroups ns => exact hw.denySetgroups h
  | exit =>
    obtain rfl := Option.some.inj h
    refine ⟨fun other t' hother ↦ ?_, hw.root, hw.below⟩
    by_cases hpid : other = pid
    · subst hpid
      simp at hother
    · exact hw.tasks other t' (by simpa [Function.update_of_ne hpid] using hother)

end World.WithinBounds

/-- **No step leads out of the bounds.** -/
theorem withinBounds_step {a : ℕ × Act φ} (hw : w.WithinBounds b) (h : w.step a = some w') :
    w'.WithinBounds b := by
  obtain ⟨t, ht, h⟩ := Option.bind_eq_some_iff.mp h
  exact hw.act (hw.tasks _ t ht) h

/-- **No run leads out of the bounds.** -/
theorem withinBounds_of_reachable (hw : w.WithinBounds b) (h : Lts.Reachable World.step w w') :
    w'.WithinBounds b :=
  Lts.invariant (fun _ _ _ hs ha ↦ withinBounds_step hs ha) hw h

/-! ## One task to begin with -/

/-- A world of one task, in which nothing is below its namespace. -/
structure World.Alone (w : World φ) (pid : ℕ) (t : Task φ) : Prop where
  task : w.tasks pid = some t
  only : ∀ other, other ≠ pid → w.tasks other = none
  lowest : ∀ ns space, w.spaces ns = some space → ¬ ns.Below t.userNs

/-- Every namespace is made in one that exists. -/
def World.Closed (w : World φ) : Prop :=
  ∀ parent owner index, (w.spaces (.child parent owner index)).isSome → (w.spaces parent).isSome

theorem World.Closed.isSome_of_below (hw : w.Closed) {ns top : UserNs} (h : ns.Below top)
    (hns : (w.spaces ns).isSome) : (w.spaces top).isSome := by
  induction ns with
  | init => exact h.elim
  | child parent owner index ih =>
    have hparent := hw parent owner index hns
    rcases h with rfl | h
    · exact hparent
    · exact ih h hparent

/-- The bounds that follow from what a task is and what its namespace has names for. -/
theorem withinBounds_of_alone (halone : w.Alone pid t) (ht : t.WithinBounds b) (hroot : b.root = t.userNs)
    (hspace : ∀ space, w.spaces t.userNs = some space →
      Kept b capSetuid b.uids space.uidMap ∧ Kept b capSetgid b.gids space.gidMap)
    (h : Lts.Reachable World.step w w') : w'.WithinBounds b := by
  refine withinBounds_of_reachable ⟨fun other t' hother ↦ ?_, fun space h ↦ hspace space (hroot ▸ h),
    fun ns space h hlow ↦ absurd (hroot ▸ hlow) (halone.lowest ns space h)⟩ h
  by_cases hpid : other = pid
  · subst hpid
    obtain rfl : t = t' := Option.some.inj (halone.task.symm.trans hother)
    exact ht
  · rw [halone.only other hpid] at hother
    simp at hother

/-- **A task with `no_new_privs`**, and its descendants, whatever they do: they have at most its
capabilities over its namespace and at least its filters, and if it cannot choose ids, they have
its ids. -/
theorem withinBounds_of_noNewPrivs (halone : w.Alone pid t) (hnnp : t.noNewPrivs = true)
    {uids gids : Set ℕ} (huids : t.uids.In uids) (hgids : t.gids.In gids)
    (hchoose : (capSetuid ∉ t.caps.permitted ∨ ∀ id, id ∈ uids) ∧
      (capSetgid ∉ t.caps.permitted ∨ ∀ id, id ∈ gids))
    (h : Lts.Reachable World.step w w') :
    w'.WithinBounds
      { root := t.userNs, noNewPrivs := true, caps := {cap | cap ∈ t.caps.permitted}, uids, gids
        groups := {gid | gid ∈ t.groups}, filters := t.filters } :=
  withinBounds_of_alone halone
    { filters := List.suffix_refl _
      userNs := UserNs.Within.refl _
      noNewPrivs := fun _ ↦ hnnp
      caps := fun _ _ _ hcap ↦ hcap
      uids := huids
      gids := hgids
      groups := fun _ hgid ↦ Or.inl hgid }
    rfl (fun _ _ ↦ ⟨hchoose.1.imp (fun h ↦ ⟨rfl, h⟩) fun h id _ ↦ h id,
      hchoose.2.imp (fun h ↦ ⟨rfl, h⟩) fun h id _ ↦ h id⟩) h

/-- **A task in a namespace with few names**, and its descendants, whatever they do: they have at least
its filters, and ids that its namespace has names for, if its own are among these. -/
theorem withinBounds_of_maps (halone : w.Alone pid t) (hspace : w.spaces t.userNs = some space)
    {uids gids : Set ℕ} (huids : t.uids.In uids) (hgids : t.gids.In gids)
    (huidMap : ∀ id, space.uidMap.Maps id → id ∈ uids)
    (hgidMap : ∀ id, space.gidMap.Maps id → id ∈ gids) (h : Lts.Reachable World.step w w') :
    w'.WithinBounds
      { root := t.userNs, noNewPrivs := false, caps := Set.univ, uids, gids
        groups := {gid | gid ∈ t.groups}, filters := t.filters } := by
  refine withinBounds_of_alone halone
    { filters := List.suffix_refl _
      userNs := UserNs.Within.refl _
      noNewPrivs := fun hnnp ↦ by simp at hnnp
      caps := fun hnnp ↦ by simp at hnnp
      uids := huids
      gids := hgids
      groups := fun _ hgid ↦ Or.inl hgid }
    rfl (fun found hfound ↦ ?_) h
  obtain rfl : space = found := Option.some.inj (hspace.symm.trans hfound)
  exact ⟨Or.inr huidMap, Or.inr hgidMap⟩

end Credentials
