import Mathlib.Algebra.Order.BigOperators.Group.List
import Mathlib.Tactic.Linarith

/-!
# Searching a list from its front

A search that compares with the elements of a list one after the other passes over as many as stand
before the one it is for.  If every element is searched for some number of times, its `weight`, then
`passes weight l` is how many elements are passed over in all.

The order of the list decides how many: `passes_append_cons` says what is saved by moving an element
to the front, so no order is better than one with descending weights (`passes_le_of_perm`).
-/

set_option autoImplicit false

namespace LinearSearch

universe u

variable {α : Type u} (weight : α → ℕ)

/-- How many elements are passed over: every element once for each search behind it. -/
def passes : List α → ℕ
  | [] => 0
  | _ :: l => (l.map weight).sum + passes l

/-- **It is the sum of the weighted positions.** -/
theorem passes_eq_sum_idxOf [DecidableEq α] {l : List α} (h : l.Nodup) :
    (l.map fun a ↦ weight a * l.idxOf a).sum = passes weight l := by
  induction l with
  | nil => rfl
  | cons a l ih =>
    obtain ⟨hnew, hnodup⟩ := List.nodup_cons.mp h
    have hbehind : l.map (fun b ↦ weight b * (a :: l).idxOf b) =
        l.map fun b ↦ weight b + weight b * l.idxOf b := by
      refine List.map_congr_left fun b hb ↦ ?_
      have hne : a ≠ b := fun heq ↦ hnew (heq ▸ hb)
      rw [List.idxOf_cons_ne l hne, Nat.mul_succ, Nat.add_comm]
    rw [List.map_cons, List.sum_cons, List.idxOf_cons_self, mul_zero, zero_add, hbehind,
      List.sum_map_add, ih hnodup, passes]

/-- **Moving an element to the front** saves its searches the elements it stood behind, and costs
each of theirs one. -/
theorem passes_append_cons (l₁ l₂ : List α) (a : α) :
    passes weight (l₁ ++ a :: l₂) + (l₁.map weight).sum =
      passes weight (a :: (l₁ ++ l₂)) + l₁.length * weight a := by
  induction l₁ with
  | nil => simp
  | cons b l₁ ih =>
    simp only [List.cons_append, passes, List.map_append, List.map_cons, List.sum_append,
      List.sum_cons, List.length_cons] at ih ⊢
    linarith [add_mul l₁.length 1 (weight a)]

/-- **No order is better than one with descending weights.** -/
theorem passes_le_of_perm {l l' : List α} (hsorted : l.Pairwise fun a b ↦ weight b ≤ weight a)
    (hperm : l'.Perm l) : passes weight l ≤ passes weight l' := by
  induction l generalizing l' with
  | nil => exact Nat.zero_le _
  | cons a l ih =>
    obtain ⟨hfirst, hrest⟩ := List.pairwise_cons.mp hsorted
    obtain ⟨l₁, l₂, rfl⟩ := List.append_of_mem (hperm.mem_iff.mpr List.mem_cons_self)
    have hrest' : (l₁ ++ l₂).Perm l :=
      (List.perm_cons a).mp (List.perm_middle.symm.trans hperm)
    have hmoved := passes_append_cons weight l₁ l₂ a
    -- what is passed over on the way to `a` is searched for no more often than `a`
    have hlight : (l₁.map weight).sum ≤ l₁.length * weight a := by
      refine (List.sum_le_card_nsmul (l₁.map weight) (weight a) fun w hw ↦ ?_).trans_eq (by simp)
      obtain ⟨b, hb, rfl⟩ := List.mem_map.mp hw
      exact hfirst b (hrest'.mem_iff.mp (List.mem_append_left l₂ hb))
    have hsum : (l.map weight).sum = ((l₁ ++ l₂).map weight).sum :=
      ((hrest'.map weight).sum_eq).symm
    calc passes weight (a :: l) = (l.map weight).sum + passes weight l := rfl
      _ ≤ ((l₁ ++ l₂).map weight).sum + passes weight (l₁ ++ l₂) := by
        rw [hsum]
        exact Nat.add_le_add_left (ih hrest hrest') _
      _ = passes weight (a :: (l₁ ++ l₂)) := rfl
      _ ≤ passes weight (l₁ ++ a :: l₂) := by omega

end LinearSearch
