import Mathlib.Data.List.Perm.Subperm
import CrunRs.Lib.Ordered
import CrunRs.Seccomp.SyscallsX8664
import CrunRs.Seccomp.SyscallsAarch64

/-!
# Syscall name and number lookup

`seccomp/syscalls.rs`.  Both directions are a binary search in a generated table, so they are
right only if each table is sorted by what it is searched for and the two hold the same entries.
Those facts about the data are checked once per target (`table_isChain`, `tableByNumber_isChain`,
`table_found`), and everything else is derived from them: a lookup is membership in the table
(`number_eq_some_iff`, `name_eq_some_iff`), and the two lookups are inverse to each other
(`name_eq_some_iff_number`).

Names are compared by their bytes, as `str::cmp` does.
-/

set_option autoImplicit false

namespace CrunRs.Seccomp

open Ordered

/-! ## Tables -/

/-- All syscalls this architecture defines, sorted by name. -/
def table : Target → List SyscallEntry
  | .x86_64 => X8664.table
  | .aarch64 => Aarch64.table

/-- All syscalls this architecture defines, sorted by number. -/
def tableByNumber : Target → List SyscallEntry
  | .x86_64 => X8664.byNumber
  | .aarch64 => Aarch64.byNumber

/-- The UTF-8 bytes of a string. -/
def strBytes (s : String) : List UInt8 := s.toByteArray.data.toList

theorem strBytes_injective : Function.Injective strBytes := by
  intro a b h
  exact String.toByteArray_inj.mp (ByteArray.ext (Array.toList_inj.mp h))

theorem strBytes_append (a b : String) : strBytes (a ++ b) = strBytes a ++ strBytes b := by
  simp [strBytes, String.toByteArray_append]

/-- `str::cmp`. -/
def strCmp (a b : String) : Ordering := compare (strBytes a) (strBytes b)

theorem strCmp_eq_iff {a b : String} : strCmp a b = .eq ↔ a = b := by
  rw [strCmp, Std.LawfulEqOrd.compare_eq_iff_eq]
  exact strBytes_injective.eq_iff

instance : Std.TransCmp strCmp where
  eq_swap {a b} := Std.OrientedOrd.eq_swap (a := strBytes a) (b := strBytes b)
  isLE_trans {a b c} := Std.TransOrd.isLE_trans (a := strBytes a) (b := strBytes b)
    (c := strBytes c)

instance : Std.LawfulEqCmp strCmp where
  eq_of_compare := strCmp_eq_iff.mp

/-- `number`: the number of a syscall name. -/
def number (t : Target) (name : String) : Option Int :=
  (lookupBy (fun entry ↦ strCmp entry.name name) (table t)).map SyscallEntry.number

/-- `name`: the name of a syscall number. -/
def name (t : Target) (number : Int) : Option String :=
  (lookupBy (fun entry ↦ compare entry.number number) (tableByNumber t)).map SyscallEntry.name

/-! ## What the generated data has to satisfy -/

section Data

set_option maxRecDepth 10000

theorem table_isChain (t : Target) :
    (table t).IsChain fun x y ↦ strCmp x.name y.name = .lt := by
  cases t <;> decide +kernel

theorem tableByNumber_isChain (t : Target) :
    (tableByNumber t).IsChain fun x y ↦ compare x.number y.number = .lt := by
  cases t <;> decide +kernel

/-- The entries whose number is in a block of 32. -/
def block (k : Nat) (entries : List SyscallEntry) : List SyscallEntry :=
  entries.filter fun e ↦ e.number.toNat / 32 == k

/-- Every entry of the table sorted by name is in the other one.  In the block of its number there
are few entries to compare it with. -/
theorem table_found (t : Target) :
    ∀ k < 16, ((block k (table t)).all fun e ↦ (block k (tableByNumber t)).any fun e' ↦
      e'.number == e.number && strBytes e'.name == strBytes e.name) = true := by
  cases t <;> decide +kernel

theorem length_tableByNumber (t : Target) : (tableByNumber t).length = (table t).length := by
  cases t <;> rfl

/-- Syscall numbers are small: far below the x32 range. -/
theorem table_number_range (t : Target) : ∀ e ∈ table t, 0 ≤ e.number ∧ e.number < 512 := by
  cases t <;> decide +kernel

/-- No syscall is called `unknown_…`, the placeholder a capture uses for a number without a
name. -/
theorem table_not_unknown (t : Target) :
    ∀ e ∈ table t, ¬ (strBytes "unknown_").isPrefixOf (strBytes e.name) := by
  cases t <;> decide +kernel

theorem length_table_le (t : Target) : (table t).length ≤ 512 := by
  cases t <;> decide +kernel

end Data

/-! ## Lookups are membership -/

theorem table_pairwise (t : Target) :
    (table t).Pairwise fun x y ↦ strCmp x.name y.name = .lt := by
  have : IsTrans SyscallEntry fun x y ↦ strCmp x.name y.name = .lt :=
    ⟨fun _ _ _ hxy hyz ↦ Std.TransCmp.lt_trans hxy hyz⟩
  exact (table_isChain t).pairwise

theorem tableByNumber_pairwise (t : Target) :
    (tableByNumber t).Pairwise fun x y ↦ compare x.number y.number = .lt := by
  have : IsTrans SyscallEntry fun x y ↦ compare x.number y.number = .lt :=
    ⟨fun _ _ _ hxy hyz ↦ Std.TransCmp.lt_trans hxy hyz⟩
  exact (tableByNumber_isChain t).pairwise

theorem lookupBy_name_eq_some_iff {t : Target} {s : String} {e : SyscallEntry} :
    lookupBy (fun entry ↦ strCmp entry.name s) (table t) = some e ↔ e ∈ table t ∧ e.name = s := by
  rw [lookupBy_eq_some_iff (pairwise_compare_key (table_pairwise t) s)]
  exact and_congr_right fun _ ↦ strCmp_eq_iff

theorem lookupBy_number_eq_some_iff {t : Target} {n : Int} {e : SyscallEntry} :
    lookupBy (fun entry ↦ compare entry.number n) (tableByNumber t) = some e ↔
      e ∈ tableByNumber t ∧ e.number = n := by
  rw [lookupBy_eq_some_iff (pairwise_compare_key (tableByNumber_pairwise t) n)]
  exact and_congr_right fun _ ↦ Std.LawfulEqOrd.compare_eq_iff_eq

/-- **`number` is membership in the table.** -/
theorem number_eq_some_iff {t : Target} {s : String} {n : Int} :
    number t s = some n ↔ ⟨s, n⟩ ∈ table t := by
  rw [number, Option.map_eq_some_iff]
  constructor
  · rintro ⟨e, he, rfl⟩
    obtain ⟨hmem, rfl⟩ := lookupBy_name_eq_some_iff.mp he
    exact hmem
  · intro h
    exact ⟨_, lookupBy_name_eq_some_iff.mpr ⟨h, rfl⟩, rfl⟩

theorem name_eq_some_iff {t : Target} {s : String} {n : Int} :
    name t n = some s ↔ ⟨s, n⟩ ∈ tableByNumber t := by
  rw [name, Option.map_eq_some_iff]
  constructor
  · rintro ⟨e, he, rfl⟩
    obtain ⟨hmem, rfl⟩ := lookupBy_number_eq_some_iff.mp he
    exact hmem
  · intro h
    exact ⟨_, lookupBy_number_eq_some_iff.mpr ⟨h, rfl⟩, rfl⟩

/-! ## The two tables hold the same entries -/

theorem table_subset (t : Target) : table t ⊆ tableByNumber t := by
  intro e he
  obtain ⟨hlo, hhi⟩ := table_number_range t e he
  have hblock : e.number.toNat / 32 < 16 := by omega
  have hmem : e ∈ block (e.number.toNat / 32) (table t) := by simp [block, he]
  obtain ⟨e', he', hsame⟩ := List.any_eq_true.mp (List.all_eq_true.mp (table_found t _ hblock) e hmem)
  simp only [Bool.and_eq_true, beq_iff_eq] at hsame
  have heq : e' = e := by
    obtain ⟨s', n'⟩ := e'
    obtain ⟨s, n⟩ := e
    rw [SyscallEntry.mk.injEq]
    exact ⟨strBytes_injective hsame.2, hsame.1⟩
  exact heq ▸ List.mem_of_mem_filter he'

theorem table_nodup (t : Target) : (table t).Nodup := by
  refine (table_pairwise t).imp fun {x y} hxy heq ↦ ?_
  rw [heq, strCmp_eq_iff.mpr rfl] at hxy
  exact absurd hxy (by decide)

/-- Of equal length and one contained in the other, the tables are permutations of each other. -/
theorem table_perm (t : Target) : (table t).Perm (tableByNumber t) :=
  ((table_nodup t).subperm (table_subset t)).perm_of_length_le (length_tableByNumber t).le

theorem mem_tableByNumber {t : Target} {e : SyscallEntry} : e ∈ tableByNumber t ↔ e ∈ table t :=
  (table_perm t).mem_iff.symm

/-- **The two lookups are inverse to each other.** -/
theorem name_eq_some_iff_number {t : Target} {s : String} {n : Int} :
    name t n = some s ↔ number t s = some n := by
  rw [name_eq_some_iff, number_eq_some_iff, mem_tableByNumber]

/-- Whether the architecture defines a syscall number. -/
def Defines (t : Target) (n : Int) : Prop := ∃ e ∈ table t, e.number = n

theorem defines_iff {t : Target} {n : Int} : Defines t n ↔ ∃ s, number t s = some n := by
  simp only [number_eq_some_iff]
  constructor
  · rintro ⟨e, he, rfl⟩
    exact ⟨e.name, he⟩
  · rintro ⟨s, hs⟩
    exact ⟨_, hs, rfl⟩

theorem not_defines_iff {t : Target} {n : Int} : ¬ Defines t n ↔ name t n = none := by
  rw [defines_iff, Option.eq_none_iff_forall_not_mem]
  simp only [← name_eq_some_iff_number, Option.mem_def, not_exists]

theorem number_unknown (t : Target) (s : String) : number t ("unknown_" ++ s) = none := by
  rw [Option.eq_none_iff_forall_not_mem]
  intro n hn
  refine table_not_unknown t _ (number_eq_some_iff.mp hn) ?_
  rw [strBytes_append, List.isPrefixOf_iff_prefix]
  exact List.prefix_append _ _

theorem number_range {t : Target} {s : String} {n : Int} (h : number t s = some n) :
    0 ≤ n ∧ n < 512 :=
  table_number_range t _ (number_eq_some_iff.mp h)

/-! ## Resolving a profile's names -/

/-- The loop of `resolve_all`: numbers of the names that have one, and the names that do not. -/
def resolveEach (t : Target) : List String → List Int × List String
  | [] => ([], [])
  | item :: rest => match number t item with
    | some value => (value :: (resolveEach t rest).1, (resolveEach t rest).2)
    | none => ((resolveEach t rest).1, item :: (resolveEach t rest).2)

/-- `resolve_all`: both halves sorted and without repetitions. -/
def resolveAll (t : Target) (names : List String) : List Int × List String :=
  (sortDedup compare (resolveEach t names).1, sortDedup strCmp (resolveEach t names).2)

theorem mem_resolveEach_fst {t : Target} {names : List String} {n : Int} :
    n ∈ (resolveEach t names).1 ↔ ∃ s ∈ names, number t s = some n := by
  induction names with
  | nil => simp [resolveEach]
  | cons item rest ih =>
    rw [resolveEach]
    cases h : number t item with
    | some value => simp [ih, h, eq_comm]
    | none => simp [ih, h]

theorem mem_resolveEach_snd {t : Target} {names : List String} {s : String} :
    s ∈ (resolveEach t names).2 ↔ s ∈ names ∧ number t s = none := by
  induction names with
  | nil => simp [resolveEach]
  | cons item rest ih =>
    rw [resolveEach]
    cases h : number t item with
    | some value =>
      simp only [ih, List.mem_cons]
      refine ⟨fun hs ↦ ⟨Or.inr hs.1, hs.2⟩, ?_⟩
      rintro ⟨rfl | hs, hn⟩
      · exact absurd hn (by simp [h])
      · exact ⟨hs, hn⟩
    | none =>
      simp only [ih, List.mem_cons]
      refine ⟨?_, fun hs ↦ hs.1.imp_right fun hr ↦ ⟨hr, hs.2⟩⟩
      rintro (rfl | hs)
      · exact ⟨Or.inl rfl, h⟩
      · exact ⟨Or.inr hs.1, hs.2⟩

theorem mem_resolveAll_fst {t : Target} {names : List String} {n : Int} :
    n ∈ (resolveAll t names).1 ↔ ∃ s ∈ names, number t s = some n := by
  rw [resolveAll, mem_sortDedup, mem_resolveEach_fst]

theorem mem_resolveAll_snd {t : Target} {names : List String} {s : String} :
    s ∈ (resolveAll t names).2 ↔ s ∈ names ∧ number t s = none := by
  rw [resolveAll, mem_sortDedup, mem_resolveEach_snd]

/-- A name is accounted for by its number, or by itself if there is none. -/
theorem resolveAll_complete {t : Target} {names : List String} {s : String} (h : s ∈ names) :
    (∃ n ∈ (resolveAll t names).1, number t s = some n) ∨ s ∈ (resolveAll t names).2 := by
  cases hnumber : number t s with
  | some n => exact Or.inl ⟨n, mem_resolveAll_fst.mpr ⟨s, h, hnumber⟩, rfl⟩
  | none => exact Or.inr (mem_resolveAll_snd.mpr ⟨h, hnumber⟩)

/-- **Looking up is membership in the table, in both directions, and resolving a list of names leaves
none out.** -/
theorem lookup_correct (t : Target) :
    (∀ s n, number t s = some n ↔ ⟨s, n⟩ ∈ table t) ∧
    (∀ s n, name t n = some s ↔ ⟨s, n⟩ ∈ table t) ∧
    (∀ e, e ∈ table t ↔ e ∈ tableByNumber t) ∧
    (∀ s n, number t s = some n ↔ name t n = some s) ∧
    ∀ names : List String,
      (resolveAll t names).1.Pairwise (· < ·) ∧
      (∀ n, n ∈ (resolveAll t names).1 ↔ ∃ s ∈ names, number t s = some n) ∧
      (resolveAll t names).2.Pairwise (fun a b ↦ strCmp a b = .lt) ∧
      (∀ s, s ∈ (resolveAll t names).2 ↔ s ∈ names ∧ number t s = none) ∧
      ∀ s ∈ names, (∃ n ∈ (resolveAll t names).1, number t s = some n) ∨
        s ∈ (resolveAll t names).2 := by
  refine ⟨fun s n ↦ number_eq_some_iff, fun s n ↦ ?_, fun e ↦ mem_tableByNumber.symm,
    fun s n ↦ name_eq_some_iff_number.symm, fun names ↦ ⟨?_, fun n ↦ mem_resolveAll_fst, ?_,
      fun s ↦ mem_resolveAll_snd, fun s ↦ resolveAll_complete⟩⟩
  · rw [name_eq_some_iff, mem_tableByNumber]
  · exact (sortDedup_pairwise _).imp Int.compare_eq_lt.mp
  · exact sortDedup_pairwise _

end CrunRs.Seccomp
