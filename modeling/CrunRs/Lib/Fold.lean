import Mathlib.Data.List.Basic
import Mathlib.Data.List.Induction

/-!
# Components of a fold

A loop over a list keeps its variables in one state.  If every step either overwrites a variable or
leaves it alone, then at the end it is what overwrote it last (`get_foldl_of_overwrite`); if every
step puts at most one element behind a list, then at the end these are behind it, in their order
(`get_foldl_of_append`).  What the steps do to the other variables does not matter.
-/

set_option autoImplicit false

namespace Fold

universe u v w

variable {σ : Type u} {ε : Type v} {β : Type w} {step : σ → ε → σ}

/-- What overwrites a variable last, if anything does. -/
def lastWrite (writes : ε → Option β) (events : List ε) : Option β :=
  (events.filterMap writes).getLast?

@[simp] theorem lastWrite_nil (writes : ε → Option β) : lastWrite writes [] = none := rfl

theorem lastWrite_concat (writes : ε → Option β) (events : List ε) (e : ε) :
    lastWrite writes (events ++ [e]) = (writes e).or (lastWrite writes events) := by
  rw [lastWrite, List.filterMap_append, List.getLast?_append]
  cases h : writes e <;> simp [h, lastWrite]

theorem exists_of_lastWrite {writes : ε → Option β} {events : List ε} {b : β}
    (h : lastWrite writes events = some b) : ∃ e ∈ events, writes e = some b :=
  List.mem_filterMap.mp (List.mem_of_getLast? h)

/-- **The last one wins**, whatever is in between. -/
theorem get_foldl_of_overwrite {get : σ → β} {writes : ε → Option β}
    (h : ∀ s e, get (step s e) = (writes e).getD (get s)) (s : σ) (events : List ε) :
    get (events.foldl step s) = (lastWrite writes events).getD (get s) := by
  induction events using List.reverseRecOn with
  | nil => rfl
  | append_singleton events e ih =>
    rw [List.foldl_concat, h, ih, lastWrite_concat]
    cases writes e <;> rfl

/-- The same for a variable that is empty at first. -/
theorem get_foldl_of_or {get : σ → Option β} {writes : ε → Option β}
    (h : ∀ s e, get (step s e) = (writes e).or (get s)) (s : σ) (events : List ε) :
    get (events.foldl step s) = (lastWrite writes events).or (get s) := by
  induction events using List.reverseRecOn with
  | nil => rfl
  | append_singleton events e ih => rw [List.foldl_concat, h, ih, lastWrite_concat, Option.or_assoc]

/-- **Nothing is lost**, and the order is kept. -/
theorem get_foldl_of_append {get : σ → List β} {adds : ε → Option β}
    (h : ∀ s e, get (step s e) = get s ++ (adds e).toList) (s : σ) (events : List ε) :
    get (events.foldl step s) = get s ++ events.filterMap adds := by
  induction events using List.reverseRecOn with
  | nil => simp
  | append_singleton events e ih =>
    rw [List.foldl_concat, h, ih, List.filterMap_append, List.append_assoc]
    cases hadds : adds e <;> simp [hadds]

/-! ## Switches -/

section Switches

variable [DecidableEq ε]

/-- Two events that set and reset a variable: the last of them is the setting one. -/
theorem lastWrite_pair (on off : ε) (events : List ε) :
    lastWrite (fun e ↦ if e = on then some true else if e = off then some false else none) events =
        some true ↔
      (events.filter fun e ↦ e = on ∨ e = off).getLast? = some on := by
  induction events using List.reverseRecOn with
  | nil => simp
  | append_singleton events e ih =>
    rw [lastWrite_concat, List.filter_append, List.getLast?_append]
    by_cases hon : e = on
    · simp [hon]
    · by_cases hoff : e = off
      · subst hoff
        simp [hon]
      · simpa [hon, hoff] using ih

/-- An event that sets a variable, and none that resets it: it is there. -/
theorem lastWrite_present (on : ε) (events : List ε) :
    lastWrite (fun e ↦ if e = on then some true else none) events = some true ↔ on ∈ events := by
  induction events using List.reverseRecOn with
  | nil => simp
  | append_singleton events e ih =>
    rw [lastWrite_concat, List.mem_append, List.mem_singleton]
    by_cases hon : e = on
    · simp [hon]
    · simpa [hon, Ne.symm hon] using ih

end Switches

end Fold
