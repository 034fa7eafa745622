import Mathlib.Data.List.Basic
import Mathlib.Order.MinMax

/-!
# Stacks of filters

Several filters judge one call, and the strictest answer counts.  The newest filter is asked first;
an older one replaces its answer only by a strictly stricter one, so between equally strict answers
the newest wins.  An answer's strictness is its `rank`, smaller being stricter, and `top` is the
answer when there is no filter.

So the answer of a stack is at least as lax as a bound exactly if the answer of each filter is
(`le_rank_verdict_iff`).
-/

set_option autoImplicit false

namespace FilterStack

universe u v

variable {ρ : Type u} {ο : Type v} [LinearOrder ο] (rank : ρ → ο)

/-- The stricter of two answers, and the first if they are equally strict. -/
def stricter (a b : ρ) : ρ := if rank b < rank a then b else a

/-- The answer of a stack whose filters, from the newest on, answer `answers`. -/
def verdict (top : ρ) (answers : List ρ) : ρ := answers.foldl (stricter rank) top

theorem rank_stricter (a b : ρ) : rank (stricter rank a b) = min (rank a) (rank b) := by
  rw [stricter]
  split
  · rename_i h
    rw [min_eq_right h.le]
  · rename_i h
    rw [min_eq_left (not_lt.mp h)]

variable {rank} {top : ρ} {answers : List ρ}

@[simp] theorem verdict_nil : verdict rank top [] = top := rfl

/-- **The strictest answer counts**: a bound on the answer of a stack is one on `top` and on all of
its filters. -/
theorem le_rank_verdict_iff {r : ο} :
    r ≤ rank (verdict rank top answers) ↔ r ≤ rank top ∧ ∀ a ∈ answers, r ≤ rank a := by
  induction answers generalizing top with
  | nil => simp
  | cons a answers ih =>
    rw [verdict, List.foldl_cons, ← verdict, ih, rank_stricter rank, le_min_iff,
      List.forall_mem_cons, and_assoc]

end FilterStack
