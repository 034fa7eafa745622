import Mathlib.Data.List.Basic

/-!
# Computations that may fail

Taking a sequence of fallible steps apart: it succeeds exactly if each step does.
-/

set_option autoImplicit false

namespace Fallible

universe u v

variable {ε : Type u} {α β : Type v}

@[simp] theorem ok_bind (a : α) (f : α → Except ε β) : ((.ok a : Except ε α) >>= f) = f a := rfl

theorem bind_eq_ok_iff {x : Except ε α} {f : α → Except ε β} {b : β} :
    (x >>= f) = .ok b ↔ ∃ a, x = .ok a ∧ f a = .ok b := by
  cases x with
  | error e => simp [bind, Except.bind]
  | ok a => simp [bind, Except.bind]

theorem seq_eq_ok_iff {x : Except ε PUnit} {y : Except ε β} {b : β} :
    (x >>= fun _ ↦ y) = .ok b ↔ x = .ok ⟨⟩ ∧ y = .ok b := by
  rw [bind_eq_ok_iff]
  exact ⟨fun ⟨_, hx, hy⟩ ↦ ⟨hx, hy⟩, fun ⟨hx, hy⟩ ↦ ⟨⟨⟩, hx, hy⟩⟩

theorem mapError_eq_ok_iff {ε' : Type u} {g : ε → ε'} {x : Except ε α} {a : α} :
    x.mapError g = .ok a ↔ x = .ok a := by
  cases x <;> simp [Except.mapError]

theorem pure_eq_ok_iff {a b : α} : (pure a : Except ε α) = .ok b ↔ a = b := Except.ok.injEq a b ▸ Iff.rfl

/-- A check: nothing if `c` holds, and an error if not. -/
def ensure (c : Prop) [Decidable c] (e : ε) : Except ε Unit := if c then .ok () else .error e

theorem ensure_eq_ok_iff {c : Prop} [Decidable c] {e : ε} {u : Unit} : ensure c e = .ok u ↔ c := by
  by_cases hc : c <;> simp [ensure, hc]

/-- A loop that checks its elements. -/
theorem forM_eq_ok_iff {f : α → Except ε Unit} {l : List α} :
    l.forM f = .ok () ↔ ∀ a ∈ l, f a = .ok () := by
  induction l with
  | nil => simp [pure, Except.pure]
  | cons a l ih =>
    rw [List.forM_eq_forM] at ih
    rw [List.forM_eq_forM, List.forM_cons, seq_eq_ok_iff, List.forall_mem_cons, ← ih]

/-- A loop with an accumulator, in which what it has accumulated decides about no failure. -/
theorem exists_foldlM_eq_ok_iff {f : β → α → Except ε β} {p : α → Prop}
    (hf : ∀ b a, (∃ b', f b a = .ok b') ↔ p a) {l : List α} {b : β} :
    (∃ b', l.foldlM f b = .ok b') ↔ ∀ a ∈ l, p a := by
  induction l generalizing b with
  | nil => simp [pure, Except.pure]
  | cons a l ih =>
    simp only [List.foldlM_cons, bind_eq_ok_iff, List.forall_mem_cons]
    constructor
    · rintro ⟨b'', b', ha, hl⟩
      exact ⟨(hf b a).mp ⟨b', ha⟩, ih.mp ⟨b'', hl⟩⟩
    · rintro ⟨ha, hl⟩
      obtain ⟨b', ha⟩ := (hf b a).mpr ha
      obtain ⟨b'', hl⟩ := (@ih b').mpr hl
      exact ⟨b'', b', ha, hl⟩

end Fallible
