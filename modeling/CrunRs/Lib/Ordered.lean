import Mathlib.Data.List.Destutter
import Mathlib.Data.List.Perm.Subperm
import Std.Data.ExtTreeMap
import Std.Data.ExtTreeSet

/-!
# Sorted slices and ordered maps

Three things the standard library of a systems language provides and programs lean on without
saying so.

* `binarySearchBy f l` looks for an element of a slice that the comparison `f` calls equal.  It is
  sound on every slice (`of_binarySearchBy_eq_some`), and complete on one that `f` runs through in
  order (`isSome_binarySearchBy`).
* `sortDedup` sorts a list and drops repetitions, and forgets nothing else (`mem_sortDedup`).
* Folding insertions or entry updates over a map adds the keys of the folded list and no others
  (`mem_foldl_insert`, `mem_foldl_alter`), insertions under different keys keep every entry
  (`toList_foldl_insert_perm`), and folding the entries of one map into another combines their values
  key by key (`getElem?_foldl_alter_toList`).
-/

set_option autoImplicit false

namespace Ordered

universe u v w

/-! ## Binary search -/

section BinarySearch

variable {α : Type u} (f : α → Ordering) (l : List α)

/-- Search the positions `lo ≤ i < hi`, halving the interval at most `fuel` times. -/
def searchLoop : Nat → Nat → Nat → Option Nat
  | 0, _, _ => none
  | fuel + 1, lo, hi =>
    if lo < hi then
      match l[lo + (hi - lo) / 2]? with
      | none => none
      | some x => match f x with
        | .eq => some (lo + (hi - lo) / 2)
        | .lt => searchLoop fuel (lo + (hi - lo) / 2 + 1) hi
        | .gt => searchLoop fuel lo (lo + (hi - lo) / 2)
    else none

/-- A position of `l` that `f` calls equal, if the search finds one. -/
def binarySearchBy : Option Nat := searchLoop f l (l.length + 1) 0 l.length

variable {f l}

theorem of_searchLoop_eq_some {fuel lo hi i : Nat} (h : searchLoop f l fuel lo hi = some i) :
    ∃ x, l[i]? = some x ∧ f x = .eq := by
  induction fuel generalizing lo hi with
  | zero => simp [searchLoop] at h
  | succ fuel ih =>
    rw [searchLoop] at h
    split at h
    · split at h
      · exact absurd h (by simp)
      · rename_i x hx
        split at h
        · rename_i hf; obtain rfl := Option.some.inj h; exact ⟨x, hx, hf⟩
        · exact ih h
        · exact ih h
    · exact absurd h (by simp)

/-- **What the search finds is equal**, whatever the order of the slice. -/
theorem of_binarySearchBy_eq_some {i : Nat} (h : binarySearchBy f l = some i) :
    ∃ x, l[i]? = some x ∧ f x = .eq :=
  of_searchLoop_eq_some h

/-- The invariant is that the equal position lies in the interval.  `hs` says that `f` runs through
the slice in order with at most one equal element: of two positions, the first compares less or the
second compares greater. -/
theorem isSome_searchLoop (hs : l.Pairwise fun x y ↦ f x = .lt ∨ f y = .gt) {fuel lo hi j : Nat}
    {y : α} (hj : l[j]? = some y) (hy : f y = .eq) (hlo : lo ≤ j) (hjhi : j < hi)
    (hhi : hi ≤ l.length) (hfuel : hi - lo < fuel) : (searchLoop f l fuel lo hi).isSome := by
  induction fuel generalizing lo hi with
  | zero => omega
  | succ fuel ih =>
    obtain ⟨hjl, hjy⟩ := List.getElem?_eq_some_iff.mp hj
    have hml : lo + (hi - lo) / 2 < l.length := by omega
    have hpair := List.pairwise_iff_getElem.mp hs
    rw [searchLoop, if_pos (by omega), List.getElem?_eq_getElem hml]
    dsimp only
    -- unless the middle is the equal position, it tells on which side of it that position is
    rcases Nat.lt_trichotomy j (lo + (hi - lo) / 2) with hjm | rfl | hjm
    · have hgt : f l[lo + (hi - lo) / 2] = .gt := by
        refine (hpair j _ hjl hml hjm).resolve_left fun h ↦ ?_
        rw [hjy, hy] at h
        exact absurd h (by decide)
      rw [hgt]
      exact ih hlo hjm (by omega) (by omega)
    · rw [hjy, hy]
      rfl
    · have hlt : f l[lo + (hi - lo) / 2] = .lt := by
        refine (hpair _ j hml hjl hjm).resolve_right fun h ↦ ?_
        rw [hjy, hy] at h
        exact absurd h (by decide)
      rw [hlt]
      exact ih hjm hjhi hhi (by omega)

/-- **The search finds what is there**, in a slice that `f` runs through in order. -/
theorem isSome_binarySearchBy (hs : l.Pairwise fun x y ↦ f x = .lt ∨ f y = .gt) {y : α}
    (hmem : y ∈ l) (hy : f y = .eq) : (binarySearchBy f l).isSome := by
  obtain ⟨j, hj⟩ := List.mem_iff_getElem?.mp hmem
  obtain ⟨hjl, _⟩ := List.getElem?_eq_some_iff.mp hj
  exact isSome_searchLoop hs hj hy (Nat.zero_le _) hjl (Nat.le_refl _) (by omega)

/-- In such a slice at most one element is equal. -/
theorem eq_of_equal (hs : l.Pairwise fun x y ↦ f x = .lt ∨ f y = .gt) {x y : α} (hx : x ∈ l)
    (hy : y ∈ l) (hfx : f x = .eq) (hfy : f y = .eq) : x = y := by
  obtain ⟨i, hi, rfl⟩ := List.mem_iff_getElem.mp hx
  obtain ⟨j, hj, rfl⟩ := List.mem_iff_getElem.mp hy
  have hpair := List.pairwise_iff_getElem.mp hs
  rcases Nat.lt_trichotomy i j with hij | rfl | hij
  · have := hpair i j hi hj hij
    rw [hfx, hfy] at this
    exact absurd this (by decide)
  · rfl
  · have := hpair j i hj hi hij
    rw [hfx, hfy] at this
    exact absurd this (by decide)

/-- The element a search for `f` finds. -/
def lookupBy (f : α → Ordering) (l : List α) : Option α := (binarySearchBy f l).bind (l[·]?)

/-- **Lookup in a sorted slice is membership.** -/
theorem lookupBy_eq_some_iff (hs : l.Pairwise fun x y ↦ f x = .lt ∨ f y = .gt) {y : α} :
    lookupBy f l = some y ↔ y ∈ l ∧ f y = .eq := by
  constructor
  · intro h
    obtain ⟨i, hi, hy⟩ := Option.bind_eq_some_iff.mp h
    obtain ⟨x, hx, hf⟩ := of_binarySearchBy_eq_some hi
    rw [hx] at hy
    obtain rfl := Option.some.inj hy
    exact ⟨List.mem_of_getElem? hx, hf⟩
  · rintro ⟨hmem, hy⟩
    obtain ⟨i, hi⟩ := Option.isSome_iff_exists.mp (isSome_binarySearchBy hs hmem hy)
    obtain ⟨x, hx, hf⟩ := of_binarySearchBy_eq_some hi
    obtain rfl := eq_of_equal hs (List.mem_of_getElem? hx) hmem hf hy
    rw [lookupBy, hi]
    exact hx

end BinarySearch

/-- A slice whose keys increase is run through in order by the comparison with any key. -/
theorem pairwise_compare_key {α : Type u} {κ : Type v} {cmp : κ → κ → Ordering} [Std.TransCmp cmp]
    {g : α → κ} {l : List α} (hs : l.Pairwise fun x y ↦ cmp (g x) (g y) = .lt) (k : κ) :
    l.Pairwise fun x y ↦ cmp (g x) k = .lt ∨ cmp (g y) k = .gt := by
  refine hs.imp fun {x y} hxy ↦ ?_
  by_cases hx : cmp (g x) k = .lt
  · exact Or.inl hx
  · have hkx : (cmp k (g x)).isLE :=
      Std.OrientedCmp.isLE_of_isGE (Ordering.isGE_iff_ne_lt.mpr hx)
    exact Or.inr (Std.OrientedCmp.gt_of_lt (Std.TransCmp.lt_of_isLE_of_lt hkx hxy))

/-! ## Sorting and dropping repetitions -/

section SortDedup

variable {α : Type u} [DecidableEq α]

theorem mem_destutter'_ne {a b : α} {l : List α} :
    b ∈ l.destutter' (· ≠ ·) a ↔ b = a ∨ b ∈ l := by
  induction l generalizing a with
  | nil => simp
  | cons c l ih =>
    rw [List.destutter'_cons]
    split
    · rw [List.mem_cons, ih, List.mem_cons]
    · rename_i h
      obtain rfl : a = c := not_not.mp h
      rw [ih, List.mem_cons]
      tauto

theorem mem_destutter_ne {b : α} {l : List α} : b ∈ l.destutter (· ≠ ·) ↔ b ∈ l := by
  cases l with
  | nil => simp
  | cons a l => rw [List.destutter_cons', mem_destutter'_ne, List.mem_cons]

/-- Sort by `cmp`, then drop every element equal to the one before it. -/
def sortDedup (cmp : α → α → Ordering) (l : List α) : List α :=
  (l.mergeSort fun a b ↦ (cmp a b).isLE).destutter (· ≠ ·)

@[simp] theorem mem_sortDedup {cmp : α → α → Ordering} {b : α} {l : List α} :
    b ∈ sortDedup cmp l ↔ b ∈ l := by
  rw [sortDedup, mem_destutter_ne, List.mem_mergeSort]

/-- **The result increases strictly.**  Sorting makes neighbours not decrease and dropping
repetitions makes them differ. -/
theorem sortDedup_pairwise {cmp : α → α → Ordering} [Std.TransCmp cmp] [Std.LawfulEqCmp cmp]
    (l : List α) : (sortDedup cmp l).Pairwise fun a b ↦ cmp a b = .lt := by
  have hsorted : (l.mergeSort fun a b ↦ (cmp a b).isLE).Pairwise fun a b ↦ (cmp a b).isLE := by
    refine List.pairwise_mergeSort (fun a b c ↦ Std.TransCmp.isLE_trans) (fun a b ↦ ?_) l
    have hswap : cmp b a = (cmp a b).swap := Std.OrientedCmp.eq_swap
    rw [hswap]
    cases cmp a b <;> rfl
  have hle := (hsorted.sublist (List.destutter_sublist (· ≠ ·) _)).isChain
  have hne := List.isChain_destutter (· ≠ ·) (l.mergeSort fun a b ↦ (cmp a b).isLE)
  have htrans : IsTrans α fun a b ↦ cmp a b = .lt := ⟨fun _ _ _ ↦ Std.TransCmp.lt_trans⟩
  refine List.IsChain.pairwise (List.isChain_iff_getElem.mpr fun i hi ↦ ?_)
  have h1 := List.isChain_iff_getElem.mp hle i hi
  have h2 := List.isChain_iff_getElem.mp hne i hi
  exact (Ordering.isLE_iff_eq_lt_or_eq_eq.mp h1).resolve_right
    fun heq ↦ h2 (Std.LawfulEqCmp.compare_eq_iff_eq.mp heq)

theorem sortDedup_nodup {cmp : α → α → Ordering} [Std.TransCmp cmp] [Std.LawfulEqCmp cmp]
    (l : List α) : (sortDedup cmp l).Nodup := by
  refine (sortDedup_pairwise l).imp fun {a b} hlt heq ↦ ?_
  have heq' : cmp a b = .eq := Std.LawfulEqCmp.compare_eq_iff_eq.mpr heq
  exact absurd (hlt.symm.trans heq') (by decide)

/-- Only what is in the list counts. -/
theorem sortDedup_congr {cmp : α → α → Ordering} [Std.TransCmp cmp] [Std.LawfulEqCmp cmp]
    {l l' : List α} (h : ∀ a, a ∈ l ↔ a ∈ l') : sortDedup cmp l = sortDedup cmp l' := by
  have hsub : ∀ {k k' : List α}, (∀ a, a ∈ k ↔ a ∈ k') →
      (sortDedup cmp k).Subperm (sortDedup cmp k') := fun hk ↦
    List.Nodup.subperm (sortDedup_nodup _) fun a ha ↦
      mem_sortDedup.mpr ((hk a).mp (mem_sortDedup.mp ha))
  have hperm := (hsub h).antisymm (hsub fun a ↦ (h a).symm)
  refine hperm.eq_of_pairwise (fun a b _ _ hab hba ↦ ?_) (sortDedup_pairwise l)
    (sortDedup_pairwise l')
  exact absurd (Std.OrientedCmp.gt_of_lt hab) (by rw [hba]; decide)

omit [DecidableEq α] in
/-- Each element is kept where it is first. -/
theorem nodup_eraseDups [BEq α] [LawfulBEq α] (l : List α) : l.eraseDups.Nodup := by
  induction hlength : l.length using Nat.strongRecOn generalizing l with
  | ind length ih =>
    cases l with
    | nil => exact List.nodup_nil
    | cons a l =>
      rw [List.eraseDups_cons, List.nodup_cons, List.mem_eraseDups]
      refine ⟨by simp, ih _ ?_ _ rfl⟩
      rw [← hlength, List.length_cons]
      exact Nat.lt_succ_of_le (List.length_filter_le _ _)

end SortDedup

/-! ## Folding updates over a map -/

section Folds

variable {α : Type u} {κ : Type v} {ν : Type w} {cmp : κ → κ → Ordering} [Std.TransCmp cmp]
  [Std.LawfulEqCmp cmp]

theorem mem_foldl_insert {key : α → κ} {val : α → ν} {m : Std.ExtTreeMap κ ν cmp} {l : List α}
    {k : κ} : k ∈ l.foldl (fun m x ↦ m.insert (key x) (val x)) m ↔ k ∈ m ∨ ∃ x ∈ l, key x = k := by
  induction l generalizing m with
  | nil => simp
  | cons x l ih =>
    rw [List.foldl_cons, ih, Std.ExtTreeMap.mem_insert, Std.LawfulEqCmp.compare_eq_iff_eq]
    simp only [List.mem_cons, exists_eq_or_imp]
    tauto

/-- An entry update that always leaves a value: `alter` with a function into `some`. -/
theorem mem_foldl_alter {key : α → κ} {upd : α → Option ν → ν} {m : Std.ExtTreeMap κ ν cmp}
    {l : List α} {k : κ} :
    k ∈ l.foldl (fun m x ↦ m.alter (key x) fun o ↦ some (upd x o)) m ↔
      k ∈ m ∨ ∃ x ∈ l, key x = k := by
  induction l generalizing m with
  | nil => simp
  | cons x l ih =>
    rw [List.foldl_cons, ih, Std.ExtTreeMap.mem_alter]
    by_cases hx : key x = k
    · rw [if_pos (Std.LawfulEqCmp.compare_eq_iff_eq.mpr hx)]
      simp [hx]
    · rw [if_neg (mt Std.LawfulEqCmp.compare_eq_iff_eq.mp hx)]
      simp [hx]

/-- The keys of a map are the first components of its entries. -/
theorem exists_mem_toList_iff {m : Std.ExtTreeMap κ ν cmp} {k : κ} :
    (∃ entry ∈ m.toList, entry.1 = k) ↔ k ∈ m := by
  constructor
  · rintro ⟨entry, he, rfl⟩
    rw [Std.ExtTreeMap.mem_iff_isSome_getElem?, Std.ExtTreeMap.mem_toList_iff_getElem?_eq_some.mp he]
    rfl
  · intro hk
    exact ⟨(k, m[k]), Std.ExtTreeMap.mem_toList_iff_getElem?_eq_some.mpr
      (Std.ExtTreeMap.getElem?_eq_some_getElem hk), rfl⟩

/-- Entries inserted under a key that is not asked for. -/
theorem getElem?_foldl_insert_of_forall_ne {key : α → κ} {val : α → ν} {m : Std.ExtTreeMap κ ν cmp}
    {l : List α} {k : κ} (h : ∀ x ∈ l, key x ≠ k) :
    (l.foldl (fun m x ↦ m.insert (key x) (val x)) m)[k]? = m[k]? := by
  induction l generalizing m with
  | nil => rfl
  | cons x l ih =>
    rw [List.foldl_cons, ih fun y hy ↦ h y (List.mem_cons_of_mem x hy),
      Std.ExtTreeMap.getElem?_insert,
      if_neg (mt Std.LawfulEqCmp.compare_eq_iff_eq.mp (h x List.mem_cons_self))]

theorem getElem?_foldl_insert_of_mem {key : α → κ} {val : α → ν} {m : Std.ExtTreeMap κ ν cmp}
    {l : List α} (hl : l.Pairwise fun x y ↦ key x ≠ key y) {x : α} (hx : x ∈ l) :
    (l.foldl (fun m x ↦ m.insert (key x) (val x)) m)[key x]? = some (val x) := by
  induction l generalizing m with
  | nil => cases hx
  | cons y l ih =>
    obtain ⟨hy, hl⟩ := List.pairwise_cons.mp hl
    rw [List.foldl_cons]
    rcases List.mem_cons.mp hx with rfl | hx
    · rw [getElem?_foldl_insert_of_forall_ne fun y hmem heq ↦ hy y hmem heq.symm,
        Std.ExtTreeMap.getElem?_insert_self]
    · exact ih hl hx

theorem nodup_toList (m : Std.ExtTreeMap κ ν cmp) : m.toList.Nodup :=
  Std.ExtTreeMap.distinct_keys_toList.imp fun hne heq ↦
    hne (Std.LawfulEqCmp.compare_eq_iff_eq.mpr (congrArg Prod.fst heq))

/-- There is at most one entry with a key. -/
theorem filter_toList_key [DecidableEq κ] (m : Std.ExtTreeMap κ ν cmp) (k : κ) :
    m.toList.filter (fun entry ↦ entry.1 = k) = m[k]?.toList.map fun v ↦ (k, v) := by
  have hmem : ∀ entry, entry ∈ m.toList.filter (fun entry ↦ entry.1 = k) ↔
      entry.1 = k ∧ m[k]? = some entry.2 := by
    rintro ⟨k', v⟩
    rw [List.mem_filter, Std.ExtTreeMap.mem_toList_iff_getElem?_eq_some, decide_eq_true_iff, and_comm]
    exact and_congr_right fun heq : k' = k ↦ by rw [heq]
  cases hget : m[k]? with
  | none =>
    refine List.eq_nil_iff_forall_not_mem.mpr fun entry hentry ↦ ?_
    rw [hmem, hget] at hentry
    exact absurd hentry.2 (Option.some_ne_none _).symm
  | some v =>
    refine List.perm_singleton.mp ((List.perm_ext_iff_of_nodup ((nodup_toList m).filter _)
      (List.nodup_singleton _)).mpr fun entry ↦ ?_)
    rw [hmem, hget, List.mem_singleton, Option.some.injEq, Prod.ext_iff]
    exact and_congr_right fun _ ↦ eq_comm

/-- A map that holds one value for each of a list of keys, and nothing else. -/
theorem toList_perm_map {m : Std.ExtTreeMap κ ν cmp} {ks : List κ} {val : κ → ν} (hks : ks.Nodup)
    (hmem : ∀ k, k ∈ m ↔ k ∈ ks) (hval : ∀ k ∈ ks, m[k]? = some (val k)) :
    m.toList.Perm (ks.map fun k ↦ (k, val k)) := by
  have hnodup : (ks.map fun k ↦ (k, val k)).Nodup :=
    hks.map fun k k' heq ↦ congrArg Prod.fst heq
  rw [List.perm_ext_iff_of_nodup (nodup_toList m) hnodup]
  rintro ⟨k, v⟩
  rw [Std.ExtTreeMap.mem_toList_iff_getElem?_eq_some, List.mem_map]
  constructor
  · intro hget
    have hk : k ∈ ks := (hmem k).mp (Std.ExtTreeMap.mem_iff_isSome_getElem?.mpr (by rw [hget]; rfl))
    rw [hval k hk] at hget
    exact ⟨k, hk, congrArg _ (Option.some.inj hget)⟩
  · rintro ⟨k, hk, heq⟩
    obtain ⟨rfl, rfl⟩ := Prod.mk.inj heq
    exact hval k hk

theorem pairwise_toList_of_injective {m : Std.ExtTreeMap κ ν cmp} {key : κ → α}
    (h : Function.Injective key) : m.toList.Pairwise fun x y ↦ key x.1 ≠ key y.1 :=
  Std.ExtTreeMap.distinct_keys_toList.imp fun hne heq ↦
    hne (Std.LawfulEqCmp.compare_eq_iff_eq.mpr (h heq))

/-- **Entries inserted under different keys** are the entries of the map. -/
theorem toList_foldl_insert_perm {key : α → κ} {val : α → ν} {l : List α}
    (hl : l.Pairwise fun x y ↦ key x ≠ key y) :
    (l.foldl (fun m x ↦ m.insert (key x) (val x)) (∅ : Std.ExtTreeMap κ ν cmp)).toList.Perm
      (l.map fun x ↦ (key x, val x)) := by
  have hnodup : (l.map fun x ↦ (key x, val x)).Nodup :=
    List.pairwise_map.mpr (hl.imp fun hne heq ↦ hne (congrArg Prod.fst heq))
  rw [List.perm_ext_iff_of_nodup (nodup_toList _) hnodup]
  rintro ⟨k, v⟩
  rw [Std.ExtTreeMap.mem_toList_iff_getElem?_eq_some, List.mem_map]
  constructor
  · intro hget
    have hmem : k ∈ l.foldl (fun m x ↦ m.insert (key x) (val x)) (∅ : Std.ExtTreeMap κ ν cmp) :=
      Std.ExtTreeMap.mem_iff_isSome_getElem?.mpr (by rw [hget]; rfl)
    rw [mem_foldl_insert] at hmem
    obtain ⟨x, hx, rfl⟩ := hmem.resolve_left Std.ExtTreeMap.not_mem_empty
    rw [getElem?_foldl_insert_of_mem hl hx] at hget
    exact ⟨x, hx, congrArg _ (Option.some.inj hget)⟩
  · rintro ⟨x, hx, heq⟩
    obtain ⟨rfl, rfl⟩ := Prod.mk.inj heq
    exact getElem?_foldl_insert_of_mem hl hx

/-- An update of a key that is not there yet leaves the others alone. -/
theorem getElem?_foldl_alter_of_forall_ne {g : ν → Option ν → ν} {m : Std.ExtTreeMap κ ν cmp}
    {l : List (κ × ν)} {k : κ} (h : ∀ x ∈ l, x.1 ≠ k) :
    (l.foldl (fun m x ↦ m.alter x.1 fun o ↦ some (g x.2 o)) m)[k]? = m[k]? := by
  induction l generalizing m with
  | nil => rfl
  | cons x l ih =>
    rw [List.foldl_cons, ih fun y hy ↦ h y (List.mem_cons_of_mem x hy),
      Std.ExtTreeMap.getElem?_alter,
      if_neg (mt Std.LawfulEqCmp.compare_eq_iff_eq.mp (h x List.mem_cons_self))]

theorem getElem?_foldl_alter_of_mem {g : ν → Option ν → ν} {m : Std.ExtTreeMap κ ν cmp}
    {l : List (κ × ν)} (hl : l.Pairwise fun x y ↦ ¬ cmp x.1 y.1 = .eq) {k : κ} {v : ν}
    (h : (k, v) ∈ l) :
    (l.foldl (fun m x ↦ m.alter x.1 fun o ↦ some (g x.2 o)) m)[k]? = some (g v m[k]?) := by
  induction l generalizing m with
  | nil => simp at h
  | cons x l ih =>
    obtain ⟨hx, hl⟩ := List.pairwise_cons.mp hl
    rw [List.foldl_cons]
    rcases List.mem_cons.mp h with rfl | h
    · have hne : ∀ y ∈ l, y.1 ≠ k := fun y hy heq ↦
        hx y hy (Std.LawfulEqCmp.compare_eq_iff_eq.mpr heq.symm)
      rw [getElem?_foldl_alter_of_forall_ne hne, Std.ExtTreeMap.getElem?_alter_self]
    · rw [ih hl h, Std.ExtTreeMap.getElem?_alter, if_neg (hx _ h)]

/-- **Folding one map into another** combines the values of each key. -/
theorem getElem?_foldl_alter_toList {f : ν → ν → ν} {g : ν → Option ν → ν}
    (hnone : ∀ v, g v none = v) (hsome : ∀ v w, g v (some w) = f w v)
    (m n : Std.ExtTreeMap κ ν cmp) (k : κ) :
    (n.toList.foldl (fun m x ↦ m.alter x.1 fun o ↦ some (g x.2 o)) m)[k]? =
      Option.merge f m[k]? n[k]? := by
  cases hk : n[k]? with
  | none =>
    rw [getElem?_foldl_alter_of_forall_ne, Option.merge_none_right]
    intro x hx heq
    have hx : n[x.1]? = some x.2 := Std.ExtTreeMap.mem_toList_iff_getElem?_eq_some.mp hx
    rw [heq, hk] at hx
    simp at hx
  | some v =>
    rw [getElem?_foldl_alter_of_mem Std.ExtTreeMap.distinct_keys_toList
      (Std.ExtTreeMap.mem_toList_iff_getElem?_eq_some.mpr hk)]
    cases m[k]? with
    | none => rw [hnone, Option.merge_none_left]
    | some w => rw [hsome, Option.merge_some_some]

/-- A set that contains another is as large only if they are the same. -/
theorem size_eq_iff_of_subset {s t : Std.ExtTreeSet κ cmp} (h : ∀ k ∈ s, k ∈ t) :
    t.size = s.size ↔ ∀ k ∈ t, k ∈ s := by
  have hnodup : ∀ u : Std.ExtTreeSet κ cmp, u.toList.Nodup := fun u ↦
    Std.ExtTreeSet.distinct_toList.imp fun {a b} hne heq ↦
      hne (Std.LawfulEqCmp.compare_eq_iff_eq.mpr heq)
  constructor
  · intro hsize k hk
    have hsub : s.toList ⊆ t.toList := fun a ha ↦
      Std.ExtTreeSet.mem_toList.mpr (h a (Std.ExtTreeSet.mem_toList.mp ha))
    have hlen : t.toList.length ≤ s.toList.length := by
      rw [Std.ExtTreeSet.length_toList, Std.ExtTreeSet.length_toList, hsize]
    have hperm := (List.Nodup.subperm (hnodup s) hsub).perm_of_length_le hlen
    exact Std.ExtTreeSet.mem_toList.mp (hperm.mem_iff.mpr (Std.ExtTreeSet.mem_toList.mpr hk))
  · intro hback
    rw [Std.ExtTreeSet.ext_mem fun k ↦ ⟨hback k, h k⟩]

end Folds

end Ordered
