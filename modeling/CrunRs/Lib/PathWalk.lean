import Mathlib.Data.List.Infix
import Mathlib.Logic.Function.Basic

/-!
# Walking paths with symbolic links in them

A walk goes from directory to directory, up for a parent part and through the target of a link, which
may begin at the root of everything.  Files that are unpacked one after another make links that later
ones are walked through, so whether a path stays below a directory depends on what was unpacked
before.

It does stay there if neither the paths nor the targets have a parent part, and no target is absolute
(`inside_goes`): nothing then ever leads up, wherever a link leads.  That is so for everyone who gets
at the files by the paths of what he unpacks (`Unpacker.Walks`), whatever he looks at before, and in
whatever order he works; `extract` is one who looks at nothing.
-/

set_option autoImplicit false

namespace PathWalk

universe u

variable {κ : Type u}

inductive PathPart (κ : Type u)
  | name (name : κ)
  | parent
  deriving DecidableEq

/-- What a symbolic link stands for. -/
structure Link (κ : Type u) where
  absolute : Bool
  parts : List (PathPart κ)
  deriving DecidableEq

/-- The links there are, by where they are. -/
abbrev Links (κ : Type u) := List κ → Option (Link κ)

/-- Where a walk is, and what is still to be walked. -/
structure Place (κ : Type u) where
  dir : List κ
  todo : List (PathPart κ)

/-- The next place. -/
def Place.step (links : Links κ) : Place κ → Place κ
  | ⟨dir, []⟩ => ⟨dir, []⟩
  | ⟨dir, .parent :: todo⟩ => ⟨dir.dropLast, todo⟩
  | ⟨dir, .name name :: todo⟩ => match links (dir ++ [name]) with
    | none => ⟨dir ++ [name], todo⟩
    | some link => ⟨if link.absolute then [] else dir, link.parts ++ todo⟩

/-- The place after so many steps. -/
def walk (links : Links κ) : ℕ → Place κ → Place κ
  | 0, p => p
  | n + 1, p => walk links n (p.step links)

/-- Where a path leads from a directory, if so many steps are enough. -/
def follow (links : Links κ) (steps : ℕ) (root : List κ) (path : List (PathPart κ)) : Option (List κ) :=
  if (walk links steps ⟨root, path⟩).todo.isEmpty then some (walk links steps ⟨root, path⟩).dir
  else none

/-- The entry that a path names: what it leads to, except for the last part. -/
def entry (links : Links κ) (steps : ℕ) (root : List κ) (path : List (PathPart κ)) : Option (List κ) :=
  match path.getLast? with
  | some (.name name) => (follow links steps root path.dropLast).map (· ++ [name])
  | _ => none

/-- What some front part of a path names or leads to. -/
def OnTheWay (links : Links κ) (root : List κ) (path : List (PathPart κ)) (place : List κ) : Prop :=
  ∃ front steps, front <+: path ∧
    (follow links steps root front = some place ∨ entry links steps root front = some place)

/-! ## Unpacking -/

inductive Item.Kind (κ : Type u)
  | data
  | symlink (target : Link κ)
  | hardlink (target : List (PathPart κ))

/-- Something to be unpacked. -/
structure Item (κ : Type u) where
  path : List (PathPart κ)
  kind : Item.Kind κ

/-- Its path, and that of what a hard link is to. -/
def Item.paths (item : Item κ) : List (List (PathPart κ)) :=
  match item.kind with
  | .hardlink target => [item.path, target]
  | _ => [item.path]

/-- What is done at a place: it is looked at or made as a directory, or something is put there, which
is a symbolic link or not. -/
inductive Deed (κ : Type u)
  | touch (place : List κ)
  | put (place : List κ) (link : Option (Link κ))
  deriving DecidableEq

def Deed.place : Deed κ → List κ
  | touch place | put place _ => place

variable [DecidableEq κ]

/-- The links after it. -/
def Deed.after (links : Links κ) : Deed κ → Links κ
  | touch _ => links
  | put place link => Function.update links place link

/-- A deed of which the place is on the way of some item, and a link the target of some item or
another of what a hard link is to. -/
structure Deed.Goes (root : List κ) (items : List (Item κ)) (links : Links κ) (deed : Deed κ) : Prop where
  place : ∃ item ∈ items, ∃ path ∈ item.paths, OnTheWay links root path deed.place
  link : ∀ place target, deed = .put place (some target) →
    (∃ item ∈ items, item.kind = .symlink target) ∨
      ∃ item ∈ items, ∃ path source, item.kind = .hardlink path ∧ OnTheWay links root path source ∧
        links source = some target

/-- One deed after another, each by the links there are then. -/
def Goes (root : List κ) (items : List (Item κ)) : Links κ → List (Deed κ) → Prop
  | _, [] => True
  | links, deed :: deeds => deed.Goes root items links ∧ Goes root items (deed.after links) deeds

/-- What an unpacker does, given the items and the links there are. -/
abbrev Unpacker (κ : Type u) := List (Item κ) → Links κ → List (Deed κ)

/-- It goes by the paths of the items, in whatever order, and gives up wherever it likes. -/
def Unpacker.Walks (unpacker : Unpacker κ) (root : List κ) : Prop :=
  ∀ items links, Goes root items links (unpacker items links)

/-! ## Staying below a directory -/

/-- Below the root, with nothing ahead that leads up. -/
structure Inside (root : List κ) (p : Place κ) : Prop where
  dir : root <+: p.dir
  todo : .parent ∉ p.todo

/-- A link that leads neither up nor away. -/
structure Link.Plain (link : Link κ) : Prop where
  relative : link.absolute = false
  parts : .parent ∉ link.parts

/-- The links below the root are plain. -/
def PlainLinks (root : List κ) (links : Links κ) : Prop :=
  ∀ place, root <+: place → ∀ link ∈ links place, link.Plain

/-- An item whose path and target do not lead up, and whose target is not absolute. -/
structure Item.Plain (item : Item κ) : Prop where
  path : .parent ∉ item.path
  symlink : ∀ target, item.kind = .symlink target → target.Plain
  hardlink : ∀ target, item.kind = .hardlink target → .parent ∉ target

variable {root : List κ} {links : Links κ}

omit [DecidableEq κ] in
theorem inside_step {p : Place κ} (hlinks : PlainLinks root links) (hp : Inside root p) :
    Inside root (p.step links) := by
  obtain ⟨dir, todo⟩ := p
  obtain ⟨hdir, htodo⟩ := hp
  cases todo with
  | nil => exact ⟨hdir, htodo⟩
  | cons part todo =>
    have hrest : .parent ∉ todo := fun hmem ↦ htodo (List.mem_cons_of_mem part hmem)
    cases part with
    | parent => exact absurd List.mem_cons_self htodo
    | name name =>
      have hnext : root <+: dir ++ [name] := hdir.trans (List.prefix_append dir [name])
      rw [Place.step]
      cases hlink : links (dir ++ [name]) with
      | none => exact ⟨hnext, hrest⟩
      | some link =>
        obtain ⟨hrelative, hparts⟩ := hlinks _ hnext link hlink
        dsimp only
        rw [hrelative, if_neg (by simp)]
        exact ⟨hdir, fun hmem ↦ (List.mem_append.mp hmem).elim hparts hrest⟩

omit [DecidableEq κ] in
/-- **A walk that does not lead up stays below.** -/
theorem inside_walk {p : Place κ} (hlinks : PlainLinks root links) (hp : Inside root p) (steps : ℕ) :
    Inside root (walk links steps p) := by
  induction steps generalizing p with
  | zero => exact hp
  | succ steps ih => exact ih (inside_step hlinks hp)

omit [DecidableEq κ] in
theorem prefix_of_follow {steps : ℕ} {path : List (PathPart κ)} {place : List κ}
    (hlinks : PlainLinks root links) (hpath : .parent ∉ path)
    (h : follow links steps root path = some place) : root <+: place := by
  unfold follow at h
  split at h
  · obtain rfl := Option.some.inj h
    exact (inside_walk hlinks ⟨List.prefix_refl root, hpath⟩ steps).dir
  · cases h

omit [DecidableEq κ] in
theorem prefix_of_entry {steps : ℕ} {path : List (PathPart κ)} {place : List κ}
    (hlinks : PlainLinks root links) (hpath : .parent ∉ path)
    (h : entry links steps root path = some place) : root <+: place := by
  rw [entry] at h
  split at h
  · obtain ⟨dir, hdir, rfl⟩ := Option.map_eq_some_iff.mp h
    have hbelow := prefix_of_follow hlinks (fun hmem ↦ hpath (List.mem_of_mem_dropLast hmem)) hdir
    exact hbelow.trans (List.prefix_append _ _)
  · cases h

theorem plainLinks_update {place : List κ} {link : Option (Link κ)} (hlinks : PlainLinks root links)
    (hlink : ∀ l ∈ link, l.Plain) : PlainLinks root (Function.update links place link) := by
  intro other hother l hl
  by_cases heq : other = place
  · subst heq
    rw [Function.update_self] at hl
    exact hlink l hl
  · rw [Function.update_of_ne heq] at hl
    exact hlinks other hother l hl

omit [DecidableEq κ] in
theorem prefix_of_onTheWay {path : List (PathPart κ)} {place : List κ} (hlinks : PlainLinks root links)
    (hpath : .parent ∉ path) (h : OnTheWay links root path place) : root <+: place := by
  obtain ⟨front, steps, hfront, hleads | hnames⟩ := h
  · exact prefix_of_follow hlinks (fun hmem ↦ hpath (hfront.subset hmem)) hleads
  · exact prefix_of_entry hlinks (fun hmem ↦ hpath (hfront.subset hmem)) hnames

omit [DecidableEq κ] in
theorem Item.Plain.paths {item : Item κ} (h : item.Plain) : ∀ path ∈ item.paths, .parent ∉ path := by
  intro path hpath
  rw [Item.paths] at hpath
  split at hpath
  · rename_i target hkind
    rcases List.mem_pair.mp hpath with rfl | rfl
    · exact h.path
    · exact h.hardlink _ hkind
  · rw [List.mem_singleton.mp hpath]
    exact h.path

variable {items : List (Item κ)}

/-- **One deed** is done below the root, and leaves plain links. -/
theorem Deed.Goes.inside {deed : Deed κ} (h : deed.Goes root items links)
    (hlinks : PlainLinks root links) (hitems : ∀ item ∈ items, item.Plain) :
    root <+: deed.place ∧ PlainLinks root (deed.after links) := by
  obtain ⟨⟨item, hitem, path, hpath, hway⟩, hlink⟩ := h
  refine ⟨prefix_of_onTheWay hlinks ((hitems item hitem).paths path hpath) hway, ?_⟩
  cases deed with
  | touch place => exact hlinks
  | put place link =>
    refine plainLinks_update hlinks fun target htarget ↦ ?_
    obtain rfl := Option.mem_def.mp htarget
    rcases hlink place target rfl with
      ⟨item, hitem, hkind⟩ | ⟨item, hitem, path, source, hkind, hway, hsource⟩
    · exact (hitems item hitem).symlink target hkind
    · have hbelow := prefix_of_onTheWay hlinks ((hitems item hitem).hardlink path hkind) hway
      exact hlinks source hbelow target hsource

/-- **Everything that is done is done below the root.** -/
theorem inside_goes {deeds : List (Deed κ)} (h : Goes root items links deeds)
    (hlinks : PlainLinks root links) (hitems : ∀ item ∈ items, item.Plain) :
    ∀ deed ∈ deeds, root <+: deed.place := by
  induction deeds generalizing links with
  | nil => simp
  | cons deed deeds ih =>
    obtain ⟨hdeed, hrest⟩ := h
    obtain ⟨hplace, hlinks'⟩ := hdeed.inside hlinks hitems
    exact List.forall_mem_cons.mpr ⟨hplace, ih hrest hlinks'⟩

/-! ## An unpacker that looks at nothing -/

/-- The directories on the way to an item. -/
def Item.dirs (steps : ℕ) (root : List κ) (links : Links κ) (item : Item κ) : List (List κ) :=
  item.path.dropLast.inits.filterMap (follow links steps root)

/-- They are looked at or made, and then the item itself is. -/
def Item.deeds (steps : ℕ) (root : List κ) (links : Links κ) (item : Item κ) : Option (List (Deed κ)) :=
  (entry links steps root item.path).bind fun place ↦ match item.kind with
    | .data => some ((item.dirs steps root links).map .touch ++ [.put place none])
    | .symlink target => some ((item.dirs steps root links).map .touch ++ [.put place (some target)])
    | .hardlink target => (entry links steps root target).map fun source ↦
        (item.dirs steps root links).map .touch ++ [.touch source, .put place (links source)]

/-- One item after another, up to the first that cannot be unpacked. -/
def extract (steps : ℕ) (root : List κ) : Unpacker κ
  | [], _ => []
  | item :: items, links => match item.deeds steps root links with
    | none => []
    | some deeds => deeds ++ extract steps root items (deeds.foldl Deed.after links)

theorem goes_append {deeds more : List (Deed κ)} :
    Goes root items links (deeds ++ more) ↔
      Goes root items links deeds ∧ Goes root items (deeds.foldl Deed.after links) more := by
  induction deeds generalizing links with
  | nil => simp [Goes]
  | cons deed deeds ih => simp only [List.cons_append, Goes, ih, List.foldl_cons, and_assoc]

theorem goes_touch {places : List (List κ)} {path : List (PathPart κ)} {item : Item κ}
    (hitem : item ∈ items) (hpath : path ∈ item.paths)
    (h : ∀ place ∈ places, OnTheWay links root path place) :
    Goes root items links (places.map .touch) ∧ (places.map Deed.touch).foldl Deed.after links = links := by
  induction places with
  | nil => exact ⟨trivial, rfl⟩
  | cons place places ih =>
    obtain ⟨hplace, hrest⟩ := List.forall_mem_cons.mp h
    obtain ⟨hgoes, hafter⟩ := ih hrest
    exact ⟨⟨⟨⟨item, hitem, path, hpath, hplace⟩, by simp⟩, hgoes⟩, hafter⟩

theorem goes_deeds {steps : ℕ} {item : Item κ} {deeds : List (Deed κ)} (hitem : item ∈ items)
    (h : item.deeds steps root links = some deeds) : Goes root items links deeds := by
  have hpath : item.path ∈ item.paths := by
    rw [Item.paths]
    split <;> exact List.mem_cons_self
  have hdirs : ∀ place ∈ item.dirs steps root links, OnTheWay links root item.path place := by
    intro place hplace
    obtain ⟨front, hfront, hfollow⟩ := List.mem_filterMap.mp hplace
    exact ⟨front, steps, ((List.mem_inits _ _).mp hfront).trans (List.dropLast_prefix _),
      Or.inl hfollow⟩
  obtain ⟨hgoes, hafter⟩ := goes_touch hitem hpath hdirs
  obtain ⟨place, hplace, h⟩ := Option.bind_eq_some_iff.mp h
  have hway : OnTheWay links root item.path place := ⟨_, steps, List.prefix_refl _, Or.inr hplace⟩
  split at h
  · obtain rfl := Option.some.inj h
    rw [goes_append, hafter]
    exact ⟨hgoes, ⟨⟨item, hitem, _, hpath, hway⟩, by simp⟩, trivial⟩
  · rename_i target hkind
    obtain rfl := Option.some.inj h
    rw [goes_append, hafter]
    refine ⟨hgoes, ⟨⟨item, hitem, _, hpath, hway⟩, ?_⟩, trivial⟩
    intro place' target' heq
    obtain rfl := Option.some.inj (Deed.put.inj heq).2
    exact Or.inl ⟨item, hitem, hkind⟩
  · rename_i target hkind
    obtain ⟨source, hsource, rfl⟩ := Option.map_eq_some_iff.mp h
    have htarget : target ∈ item.paths := by
      rw [Item.paths, hkind]
      exact List.mem_cons_of_mem _ (List.mem_singleton_self _)
    have hfrom : OnTheWay links root target source := ⟨_, steps, List.prefix_refl _, Or.inr hsource⟩
    rw [goes_append, hafter]
    refine ⟨hgoes, ⟨⟨item, hitem, _, htarget, hfrom⟩, by simp⟩,
      ⟨⟨item, hitem, _, hpath, hway⟩, ?_⟩, trivial⟩
    intro place' target' heq
    exact Or.inr ⟨item, hitem, target, source, hkind, hfrom, (Deed.put.inj heq).2⟩

/-- **It goes by the paths of the items.** -/
theorem walks_extract (steps : ℕ) (root : List κ) : (extract steps root).Walks root := by
  intro items links
  -- the items that are left are some of them
  have hrun : ∀ left : List (Item κ), left ⊆ items → ∀ links,
      Goes root items links (extract steps root left links) := by
    intro left hleft
    induction left with
    | nil => exact fun _ ↦ trivial
    | cons item left ih =>
      intro links
      obtain ⟨hitem, hrest⟩ := List.cons_subset.mp hleft
      rw [extract]
      split
      · trivial
      · rename_i deeds hdeeds
        exact goes_append.mpr ⟨goes_deeds hitem hdeeds, ih hrest _⟩
  exact hrun items (List.Subset.refl items) links

end PathWalk
