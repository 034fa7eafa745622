import Mathlib.Data.List.Nodup

/-!
# Forests

A forest is given by what is below each of its elements: no element is below two others or twice below
one, and none is below itself.

What is below an element comes with its depth (`Below`).  In a forest that is unique
(`Below.depth_unique`), and so is the child whose branch an element is in (`Below.branch_unique`).
-/

set_option autoImplicit false

namespace Forest

universe u

variable {α : Type u}

/-- No element has two parents, and every one comes after its parent. -/
structure IsForest (children : α → List α) : Prop where
  nodup : ∀ a, (children a).Nodup
  parent : ∀ {a b c}, c ∈ children a → c ∈ children b → a = b
  acyclic : ∃ rank : α → Nat, ∀ a, ∀ c ∈ children a, rank a < rank c

/-- An element below another one, at some depth. -/
inductive Below (children : α → List α) (root : α) : Nat → α → Prop
  | root : Below children root 0 root
  | child {depth : Nat} {a c : α} :
      Below children root depth a → c ∈ children a → Below children root (depth + 1) c

variable {children : α → List α} {root a b c : α} {depth depth' : Nat}

theorem Below.mono {fewer : α → List α} (h : Below fewer root depth a)
    (hsub : ∀ a, ∀ c ∈ fewer a, c ∈ children a) : Below children root depth a := by
  induction h with
  | root => exact .root
  | child _ hc ih => exact ih.child (hsub _ _ hc)

/-- From a child, everything is one step further. -/
theorem Below.of_child (hc : c ∈ children root) (h : Below children c depth a) :
    Below children root (depth + 1) a := by
  induction h with
  | root => exact Below.root.child hc
  | child _ hmem ih => exact ih.child hmem

theorem Below.exists_child (h : Below children root (depth + 1) a) :
    ∃ c ∈ children root, Below children c depth a := by
  induction depth generalizing a with
  | zero =>
    cases h with
    | child hparent hmem =>
      cases hparent
      exact ⟨_, hmem, .root⟩
  | succ depth ih =>
    cases h with
    | child hparent hmem =>
      obtain ⟨c, hc, hbelow⟩ := ih hparent
      exact ⟨c, hc, hbelow.child hmem⟩

namespace IsForest

variable (h : IsForest children)

include h

/-- Nothing is below itself. -/
theorem not_below_self : ¬ Below children a (depth + 1) a := by
  obtain ⟨rank, hrank⟩ := h.acyclic
  have hle : ∀ {depth b}, Below children a depth b → rank a ≤ rank b := by
    intro depth b hbelow
    induction hbelow with
    | root => exact Nat.le_refl _
    | child _ hc ih => exact Nat.le_trans ih (Nat.le_of_lt (hrank _ _ hc))
  intro hself
  cases hself with
  | child hparent hmem => exact Nat.not_lt.mpr (hle hparent) (hrank _ _ hmem)

/-- **An element is below another one at one depth.** -/
theorem depth_unique (hd : Below children root depth a) (hd' : Below children root depth' a) :
    depth = depth' := by
  induction hd generalizing depth' with
  | root =>
    cases hd' with
    | root => rfl
    | child hparent hmem => exact (h.not_below_self (hparent.child hmem)).elim
  | child hparent hmem ih =>
    cases hd' with
    | root => exact (h.not_below_self (hparent.child hmem)).elim
    | child hparent' hmem' =>
      obtain rfl := h.parent hmem hmem'
      rw [ih hparent']

/-- **An element is in one branch.** -/
theorem branch_unique (hb : b ∈ children root) (hc : c ∈ children root)
    (hd : Below children b depth a) (hd' : Below children c depth' a) : b = c := by
  induction hd generalizing depth' with
  | root =>
    cases hd' with
    | root => rfl
    | child hparent hmem =>
      obtain rfl := h.parent hb hmem
      exact (h.not_below_self (hparent.of_child hc)).elim
  | child hparent hmem ih =>
    cases hd' with
    | root =>
      obtain rfl := h.parent hc hmem
      exact (h.not_below_self (hparent.of_child hb)).elim
    | child hparent' hmem' =>
      obtain rfl := h.parent hmem hmem'
      exact ih hparent'

theorem of_sublist {fewer : α → List α} (hsub : ∀ a, (fewer a).Sublist (children a)) :
    IsForest fewer where
  nodup a := (h.nodup a).sublist (hsub a)
  parent hc hc' := h.parent ((hsub _).subset hc) ((hsub _).subset hc')
  acyclic := by
    obtain ⟨rank, hrank⟩ := h.acyclic
    exact ⟨rank, fun a c hc ↦ hrank a c ((hsub a).subset hc)⟩

end IsForest

end Forest
