import Mathlib.Data.List.Basic

/-!
# Logs that rotate

A log kept in two generations.  A record goes to the newer one; if it would not fit there any more,
the newer generation becomes the older one, whatever was the older one is lost, and the record starts
a new generation.

Nothing is lost but from the front, so what is kept is a suffix of what was written, and each
generation stays below the limit as long as no single record is above it (`Retains`).
-/

set_option autoImplicit false

namespace Rotation

universe u

variable {α : Type u}

structure Log (α : Type u) where
  older : List α := []
  newer : List α := []

namespace Log

/-- The records that are kept, oldest first. -/
def records (log : Log α) : List α := log.older ++ log.newer

variable (limit : Nat) (size : α → Nat)

/-- What a generation takes. -/
def total (generation : List α) : Nat := generation.foldr (fun x rest ↦ size x + rest) 0

@[simp] theorem total_nil : total size [] = 0 := rfl

@[simp] theorem total_cons (x : α) (l : List α) : total size (x :: l) = size x + total size l := rfl

@[simp] theorem total_append (l m : List α) : total size (l ++ m) = total size l + total size m := by
  induction l with
  | nil => simp
  | cons x l ih => rw [List.cons_append, total_cons, ih, total_cons, Nat.add_assoc]

theorem total_singleton (x : α) : total size [x] = size x := by simp

/-- Write a record. -/
def push (log : Log α) (x : α) : Log α :=
  if total size log.newer + size x ≤ limit then { log with newer := log.newer ++ [x] }
  else { older := log.newer, newer := [x] }

/-- Nothing is kept but what was there before and what is written, in this order. -/
theorem push_suffix (limit : Nat) (size : α → Nat) (log : Log α) (x : α) :
    (log.push limit size x).records <:+ log.records ++ [x] := by
  rw [push]
  split
  · have hrecords : log.older ++ (log.newer ++ [x]) = log.records ++ [x] :=
      (List.append_assoc _ _ _).symm
    exact hrecords ▸ List.suffix_refl _
  · exact ⟨log.older, by simp [records]⟩

/-- Without room the older records are lost, and only then. -/
theorem records_push {limit : Nat} {size : α → Nat} (log : Log α) (x : α) :
    (total size log.newer + size x ≤ limit ∧
        (log.push limit size x).records = log.records ++ [x]) ∨
      (¬ total size log.newer + size x ≤ limit ∧
        (log.push limit size x).records = log.newer ++ [x]) := by
  rw [push]
  split
  · rename_i hfits
    exact Or.inl ⟨hfits, (List.append_assoc ..).symm⟩
  · rename_i hfull
    exact Or.inr ⟨hfull, rfl⟩

/-- The log keeps a suffix of what was written, with the last record among it, and neither
generation is above the limit. -/
structure Retains (written : List α) (log : Log α) : Prop where
  suffix : log.records <:+ written
  last : log.records.getLast? = written.getLast?
  older_le : total size log.older ≤ limit
  newer_le : total size log.newer ≤ limit

theorem retains_empty : Retains limit size [] ({} : Log α) :=
  ⟨List.suffix_refl _, rfl, Nat.zero_le _, Nat.zero_le _⟩

variable {limit size}

/-- **Writing a record that is not above the limit by itself keeps what is to be kept.** -/
theorem Retains.push {written : List α} {log : Log α} {x : α} (h : Retains limit size written log)
    (hx : size x ≤ limit) : Retains limit size (written ++ [x]) (log.push limit size x) := by
  obtain ⟨dropped, hdropped⟩ := h.suffix
  rw [Log.push]
  split
  · rename_i hfits
    refine ⟨⟨dropped, ?_⟩, ?_, h.older_le, ?_⟩
    · rw [records, ← List.append_assoc log.older, ← List.append_assoc dropped]
      exact congrArg (· ++ [x]) hdropped
    · rw [records, ← List.append_assoc, List.getLast?_concat, List.getLast?_concat]
    · rw [total_append, total_singleton]
      exact hfits
  · -- the older generation is lost, and it is a prefix of what was kept
    refine ⟨⟨dropped ++ log.older, ?_⟩, ?_, h.newer_le, ?_⟩
    · rw [records, ← List.append_assoc, List.append_assoc dropped]
      exact congrArg (· ++ [x]) hdropped
    · rw [records, List.getLast?_concat, List.getLast?_concat]
    · rw [total_singleton]
      exact hx

/-! ## The newest records -/

variable (limit size)

/-- The kept records are the longest suffix that is not above the limit. -/
structure IsNewest (kept all : List α) : Prop where
  suffix : kept <:+ all
  fits : total size kept ≤ limit
  longest : ∀ other, other <:+ all → total size other ≤ limit → other <:+ kept

variable {limit size}

theorem total_le_of_suffix {l m : List α} (h : l <:+ m) : total size l ≤ total size m := by
  obtain ⟨dropped, rfl⟩ := h
  rw [total_append]
  exact Nat.le_add_left _ _

/-- If everything fits, everything is kept. -/
theorem isNewest_self {l : List α} (h : total size l ≤ limit) : IsNewest limit size l l :=
  ⟨List.suffix_refl l, h, fun _ hother _ ↦ hother⟩

/-- Otherwise the record before the ones that are kept is the first that does not fit. -/
theorem isNewest_of_cons {dropped kept : List α} {x : α} (hkept : total size kept ≤ limit)
    (hx : limit < total size (x :: kept)) : IsNewest limit size kept (dropped ++ x :: kept) := by
  refine ⟨⟨dropped ++ [x], by simp⟩, hkept, fun other hother hfits ↦ ?_⟩
  have hcons : x :: kept <:+ dropped ++ x :: kept := List.suffix_append dropped (x :: kept)
  rcases List.suffix_or_suffix_of_suffix hother hcons with hle | hge
  · rcases List.suffix_cons_iff.mp hle with rfl | hsuffix
    · exact absurd hfits (Nat.not_le.mpr hx)
    · exact hsuffix
  · exact absurd (Nat.le_trans (total_le_of_suffix hge) hfits) (Nat.not_le.mpr hx)

theorem IsNewest.unique {l m all : List α} (hl : IsNewest limit size l all)
    (hm : IsNewest limit size m all) : l = m :=
  (hm.longest l hl.suffix hl.fits).eq_of_length_le
    (hl.longest m hm.suffix hm.fits).length_le

/-- What does not fit as a whole is split at the first record that has to go. -/
theorem exists_split {l : List α} (h : limit < total size l) :
    ∃ dropped x kept, l = dropped ++ x :: kept ∧ total size kept ≤ limit ∧
      limit < total size (x :: kept) := by
  induction l with
  | nil => exact absurd h (Nat.not_lt.mpr (Nat.zero_le _))
  | cons x l ih =>
    by_cases hl : total size l ≤ limit
    · exact ⟨[], x, l, rfl, hl, h⟩
    · obtain ⟨dropped, y, kept, rfl, hkept, hy⟩ := ih (Nat.not_le.mp hl)
      exact ⟨x :: dropped, y, kept, rfl, hkept, hy⟩

end Log

end Rotation
