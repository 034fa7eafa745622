import Mathlib.Logic.Function.Basic
import Mathlib.Tactic.Push

/-!
# A pool of numbered slots

Holders are given slots numbered `lo, …, hi`, at most one each and no slot twice, and always the
least free one.  A `Pool` cannot be built otherwise: that two holders never share a slot and that
slots stay in range are fields of the structure, so an implementation that is shown to follow
`Pool.assign` and `Pool.release` has both without another word.
-/

set_option autoImplicit false

universe u

/-- Who holds which slot. -/
structure Pool (κ : Type u) (lo hi : Nat) where
  slot : κ → Option Nat
  inj : ∀ {k l : κ} {n : Nat}, slot k = some n → slot l = some n → k = l
  bounds : ∀ {k : κ} {n : Nat}, slot k = some n → lo ≤ n ∧ n ≤ hi

namespace Pool

variable {κ : Type u} {lo hi : Nat} (p : Pool κ lo hi)

/-- Nobody holds anything. -/
def empty : Pool κ lo hi where
  slot := fun _ ↦ none
  inj := fun h ↦ absurd h (by simp)
  bounds := fun h ↦ absurd h (by simp)

/-- A slot of the range that nobody holds. -/
def Free (n : Nat) : Prop := lo ≤ n ∧ n ≤ hi ∧ ∀ k, p.slot k ≠ some n

/-- The slot that is handed out next. -/
def IsLeastFree (n : Nat) : Prop := p.Free n ∧ ∀ m, m < n → ¬ p.Free m

/-- Every slot of the range is held. -/
def Exhausted : Prop := ∀ n, ¬ p.Free n

theorem exhausted_iff : p.Exhausted ↔ ∀ n, lo ≤ n → n ≤ hi → ∃ k, p.slot k = some n := by
  refine forall_congr' fun n ↦ ?_
  rw [Free]
  push Not
  rfl

variable [DecidableEq κ]

/-- Hand a free slot to a holder. -/
def assign (k : κ) (n : Nat) (hn : p.Free n) : Pool κ lo hi where
  slot := Function.update p.slot k (some n)
  inj := by
    intro a b m ha hb
    rw [Function.update_apply] at ha hb
    -- a holder other than `k` cannot have the slot `n`, which was free
    split at ha <;> split at hb
    · simp_all
    · exact absurd (ha ▸ hb) (hn.2.2 b)
    · exact absurd (hb ▸ ha) (hn.2.2 a)
    · exact p.inj ha hb
  bounds := by
    intro a m ha
    rw [Function.update_apply] at ha
    split at ha
    · obtain rfl := Option.some.inj ha
      exact ⟨hn.1, hn.2.1⟩
    · exact p.bounds ha

/-- Take a holder's slot back. -/
def release (k : κ) : Pool κ lo hi where
  slot := Function.update p.slot k none
  inj := by
    intro a b m ha hb
    rw [Function.update_apply] at ha hb
    split at ha
    · exact absurd ha (by simp)
    · split at hb
      · exact absurd hb (by simp)
      · exact p.inj ha hb
  bounds := by
    intro a m ha
    rw [Function.update_apply] at ha
    split at ha
    · exact absurd ha (by simp)
    · exact p.bounds ha

theorem assign_slot (k : κ) (n : Nat) (hn : p.Free n) (l : κ) :
    (p.assign k n hn).slot l = if l = k then some n else p.slot l :=
  Function.update_apply ..

theorem release_slot (k l : κ) : (p.release k).slot l = if l = k then none else p.slot l :=
  Function.update_apply ..

end Pool
