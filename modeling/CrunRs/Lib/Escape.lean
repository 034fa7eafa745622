import Mathlib.Algebra.Order.BigOperators.Group.List
import Mathlib.Algebra.Order.Ring.Nat

/-!
# Fields with escapes

A list of fields written one after the other with a separator between them, where a character after
an escape stands for itself: `fields` splits at the separators that are not escaped, and `unescape`
drops the escapes of a field.  An escape at the very end has nothing to escape and is dropped, too.

Reading drops the escapes and adds nothing.  So a reader that gets as many characters out of the
fields as there are in the text has met no escape (`length_unescape_lt`, `sum_fields_lt`), and then
the fields are the parts between all separators (`length_fields`).
-/

set_option autoImplicit false

namespace Escape

universe u

variable {α : Type u} [DecidableEq α] (esc sep : α)

/-- The loop of `unescape`; whether the next character is escaped. -/
def unescapeFrom : Bool → List α → List α
  | _, [] => []
  | escaped, c :: s =>
    if !escaped && c = esc then unescapeFrom true s else c :: unescapeFrom false s

/-- The text without its escapes. -/
def unescape (s : List α) : List α := unescapeFrom esc false s

/-- The loop of `fields`; whether the next character is escaped. -/
def fieldsFrom : Bool → List α → List (List α)
  | _, [] => [[]]
  | escaped, c :: s =>
    if !escaped && c = sep then [] :: fieldsFrom false s
    else (fieldsFrom (!escaped && c = esc) s).modifyHead (c :: ·)

/-- The parts between the separators that are not escaped, with their escapes. -/
def fields (s : List α) : List (List α) := fieldsFrom esc sep false s

variable {esc sep} {s : List α}

/-! ## Without escapes -/

theorem unescape_of_notMem (h : esc ∉ s) : unescape esc s = s := by
  induction s with
  | nil => rfl
  | cons c s ih =>
    obtain ⟨hc, hs⟩ := not_or.mp (mt List.mem_cons.mpr h)
    rw [unescape, unescapeFrom, if_neg (by simp [Ne.symm hc])]
    exact congrArg _ (ih hs)

theorem fields_of_notMem (hsep : sep ∉ s) (hesc : esc ∉ s) : fields esc sep s = [s] := by
  induction s with
  | nil => rfl
  | cons c s ih =>
    obtain ⟨hcs, hs⟩ := not_or.mp (mt List.mem_cons.mpr hsep)
    obtain ⟨hce, he⟩ := not_or.mp (mt List.mem_cons.mpr hesc)
    have hnot : (!false && decide (c = esc)) = false := by simp [Ne.symm hce]
    rw [fields, fieldsFrom, if_neg (by simp [Ne.symm hcs]), hnot]
    rw [show fieldsFrom esc sep false s = [s] from ih hs he]
    rfl

/-- A field and the separator after it. -/
theorem fields_append_cons (rest : List α) (hsep : sep ∉ s) (hesc : esc ∉ s) :
    fields esc sep (s ++ sep :: rest) = s :: fields esc sep rest := by
  induction s with
  | nil =>
    rw [List.nil_append, fields, fieldsFrom, if_pos (by simp)]
    rfl
  | cons c s ih =>
    obtain ⟨hcs, hs⟩ := not_or.mp (mt List.mem_cons.mpr hsep)
    obtain ⟨hce, he⟩ := not_or.mp (mt List.mem_cons.mpr hesc)
    have hnot : (!false && decide (c = esc)) = false := by simp [Ne.symm hce]
    rw [List.cons_append, fields, fieldsFrom, if_neg (by simp [Ne.symm hcs]), hnot]
    rw [show fieldsFrom esc sep false (s ++ sep :: rest) = _ from ih hs he]
    rfl

/-- Without escapes every separator separates. -/
theorem length_fields (hesc : esc ∉ s) : (fields esc sep s).length = s.count sep + 1 := by
  induction s with
  | nil => rfl
  | cons c s ih =>
    obtain ⟨hce, he⟩ := not_or.mp (mt List.mem_cons.mpr hesc)
    have hnot : (!false && decide (c = esc)) = false := by simp [Ne.symm hce]
    have ih : (fieldsFrom esc sep false s).length = s.count sep + 1 := ih he
    rw [fields, fieldsFrom]
    split_ifs with hc
    · have hc : c = sep := by simpa using hc
      rw [hc, List.count_cons_self, List.length_cons, ih]
    · rw [hnot, List.length_modifyHead, ih, List.count_cons_of_ne (by simpa using hc)]

/-! ## What escapes cost -/

theorem length_unescapeFrom_le (s : List α) :
    ∀ escaped, (unescapeFrom esc escaped s).length ≤ s.length := by
  induction s with
  | nil => exact fun _ ↦ Nat.le_refl _
  | cons c s ih =>
    intro escaped
    rw [unescapeFrom, List.length_cons]
    split_ifs
    · exact (ih true).trans (Nat.le_succ _)
    · rw [List.length_cons]
      exact Nat.succ_le_succ (ih false)

theorem length_unescape_le (s : List α) : (unescape esc s).length ≤ s.length :=
  length_unescapeFrom_le s false

/-- **An escape costs a character.** -/
theorem length_unescape_lt (h : esc ∈ s) : (unescape esc s).length < s.length := by
  induction s with
  | nil => exact absurd h List.not_mem_nil
  | cons c s ih =>
    rw [unescape, unescapeFrom, List.length_cons]
    split_ifs with hc
    · exact Nat.lt_succ_of_le (length_unescapeFrom_le s true)
    · have hne : esc ≠ c := by simpa [eq_comm] using hc
      rw [List.length_cons]
      exact Nat.succ_lt_succ (ih ((List.mem_cons.mp h).resolve_left hne))

theorem fieldsFrom_ne_nil (s : List α) (escaped : Bool) : fieldsFrom esc sep escaped s ≠ [] := by
  induction s generalizing escaped with
  | nil => exact List.cons_ne_nil _ _
  | cons c s ih =>
    rw [fieldsFrom]
    split_ifs
    · exact List.cons_ne_nil _ _
    · rw [Ne, List.modifyHead_eq_nil_iff]
      exact ih _

/-- The characters of a text are in its fields, up to a separator after each but the last. -/
theorem sum_length_fieldsFrom (s : List α) : ∀ escaped,
    ((fieldsFrom esc sep escaped s).map fun p ↦ p.length + 1).sum = s.length + 1 := by
  induction s with
  | nil => exact fun _ ↦ rfl
  | cons c s ih =>
    intro escaped
    rw [fieldsFrom, List.length_cons]
    split_ifs
    · rw [List.map_cons, List.sum_cons, ih, List.length_nil]
      omega
    · have ih := ih (!escaped && decide (c = esc))
      obtain ⟨p, ps, hfields⟩ := List.exists_cons_of_ne_nil
        (fieldsFrom_ne_nil s (!escaped && decide (c = esc)) : fieldsFrom esc sep _ s ≠ [])
      rw [hfields, List.map_cons, List.sum_cons] at ih
      rw [hfields, List.modifyHead_cons, List.map_cons, List.sum_cons, List.length_cons]
      omega

theorem sum_length_fields (esc sep : α) (s : List α) :
    ((fields esc sep s).map fun p ↦ p.length + 1).sum = s.length + 1 :=
  sum_length_fieldsFrom s false

theorem exists_mem_fieldsFrom {c : α} (hc : c ≠ sep) (h : c ∈ s) :
    ∀ escaped, ∃ p ∈ fieldsFrom esc sep escaped s, c ∈ p := by
  induction s with
  | nil => exact absurd h List.not_mem_nil
  | cons d s ih =>
    intro escaped
    rw [fieldsFrom]
    split_ifs with hsep
    · have hd : d = sep := by simp_all
      obtain ⟨p, hp, hcp⟩ := ih ((List.mem_cons.mp h).resolve_left (hd ▸ hc)) false
      exact ⟨p, List.mem_cons_of_mem _ hp, hcp⟩
    · obtain ⟨first, rest, hfields⟩ := List.exists_cons_of_ne_nil
        (fieldsFrom_ne_nil s (!escaped && decide (d = esc)) : fieldsFrom esc sep _ s ≠ [])
      rw [hfields, List.modifyHead_cons]
      rcases List.mem_cons.mp h with rfl | h
      · exact ⟨_, List.mem_cons_self, List.mem_cons_self⟩
      · obtain ⟨p, hp, hcp⟩ := ih h (!escaped && decide (d = esc))
        rw [hfields] at hp
        rcases List.mem_cons.mp hp with rfl | hp
        · exact ⟨_, List.mem_cons_self, List.mem_cons_of_mem _ hcp⟩
        · exact ⟨p, List.mem_cons_of_mem _ hp, hcp⟩

/-- What is not a separator is in one of the fields. -/
theorem exists_mem_fields (esc : α) {c : α} (hc : c ≠ sep) (h : c ∈ s) :
    ∃ p ∈ fields esc sep s, c ∈ p :=
  exists_mem_fieldsFrom hc h false

/-- A measure that a field bounds is bounded by the text. -/
theorem sum_fields_le {size : List α → ℕ} (hle : ∀ p, size p ≤ p.length + 1) :
    ((fields esc sep s).map size).sum ≤ s.length + 1 := by
  rw [← sum_length_fields esc sep s]
  exact List.sum_le_sum fun p _ ↦ hle p

/-- **What is lost in one field is lost for good.** -/
theorem sum_fields_lt {size : List α → ℕ} (hle : ∀ p, size p ≤ p.length + 1)
    (h : ∃ p ∈ fields esc sep s, size p < p.length + 1) :
    ((fields esc sep s).map size).sum < s.length + 1 := by
  rw [← sum_length_fields esc sep s]
  exact List.sum_lt_sum _ _ (fun p _ ↦ hle p) h

end Escape
