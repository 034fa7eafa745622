import Mathlib.Data.List.TakeWhile
import Mathlib.Logic.Function.Basic
import Std.Data.String.ToNat

/-!
# Text

The string functions a systems language's standard library has and this development's programs use:
splitting at the first or the last occurrence of a pattern, at white space, at line ends; reading a
number; decoding bytes.  They work on lists of characters, and the lemmas say what they return on
text that was put together in the corresponding way.
-/

set_option autoImplicit false

namespace Text

/-! ## Rendering numbers -/

/-- `{n:08x}`: lower-case hexadecimal, padded with zeros to eight digits. -/
def hex8 (n : UInt32) : String := String.ofList ((Nat.toDigits 16 n.toNat).leftpad 8 '0')

example : hex8 0xc0003e = "00c0003e" := by decide

/-- The decimal digits of an integer, with a sign if it is negative. -/
def decimal : Int → List Char
  | .ofNat n => Nat.toDigits 10 n
  | .negSucc n => '-' :: Nat.toDigits 10 (n + 1)

theorem decimal_ne_nil (n : Int) : decimal n ≠ [] := by
  cases n with
  | ofNat n => exact Nat.toDigits_ne_nil
  | negSucc n => exact List.cons_ne_nil _ _

theorem mem_decimal {n : Int} {c : Char} (h : c ∈ decimal n) : c = '-' ∨ c.isDigit := by
  cases n with
  | ofNat n => exact Or.inr (Nat.isDigit_of_mem_toDigits (by decide) (by decide) h)
  | negSucc n =>
    rcases List.mem_cons.mp h with rfl | h
    · exact Or.inl rfl
    · exact Or.inr (Nat.isDigit_of_mem_toDigits (by decide) (by decide) h)

/-! ## Reading numbers -/

/-- Parse an unsigned 64-bit number: an optional plus sign, then digits and nothing else. -/
def parseU64 (s : List Char) : Option UInt64 :=
  let digits := if s.head? = some '+' then s.tail else s
  if digits ≠ [] ∧ digits.all Char.isDigit ∧ Nat.ofDigitChars 10 digits 0 < UInt64.size then
    some (UInt64.ofNat (Nat.ofDigitChars 10 digits 0))
  else none

theorem parseU64_of_digits {digits : List Char} (hne : digits ≠ [])
    (hdigits : ∀ c ∈ digits, c.isDigit) : parseU64 digits =
      if Nat.ofDigitChars 10 digits 0 < UInt64.size then
        some (UInt64.ofNat (Nat.ofDigitChars 10 digits 0)) else none := by
  have hsign : ¬ digits.head? = some '+' := fun h ↦
    absurd (hdigits '+' (List.mem_of_head? h)) (by decide)
  rw [parseU64, if_neg hsign]
  simp [hne, List.all_eq_true.mpr hdigits]

theorem parseU64_toDigits (n : UInt64) : parseU64 (Nat.toDigits 10 n.toNat) = some n := by
  have hdigit : ∀ c ∈ Nat.toDigits 10 n.toNat, c.isDigit := fun c hc ↦
    Nat.isDigit_of_mem_toDigits (by decide) (by decide) hc
  rw [parseU64_of_digits Nat.toDigits_ne_nil hdigit, Nat.ofDigitChars_ten_toDigits,
    UInt64.ofNat_toNat, if_pos n.toNat_lt]

/-- Parse a signed 32-bit number: an optional sign, then digits and nothing else. -/
def parseI32 (s : List Char) : Option Int :=
  let digits := if s.head? = some '+' ∨ s.head? = some '-' then s.tail else s
  let magnitude := Int.ofNat (Nat.ofDigitChars 10 digits 0)
  let value := if s.head? = some '-' then -magnitude else magnitude
  if digits ≠ [] ∧ digits.all Char.isDigit ∧ -2147483648 ≤ value ∧ value < 2147483648 then some value
  else none

theorem head?_toDigits_ne (c : Char) (hc : c.isDigit = false) (n : Nat) :
    (Nat.toDigits 10 n).head? ≠ some c := by
  intro h
  have hdigit : c.isDigit = true :=
    Nat.isDigit_of_mem_toDigits (by decide) (by decide) (List.mem_of_head? h)
  rw [hc] at hdigit
  cases hdigit

theorem parseI32_decimal {n : Int} (hlo : -2147483648 ≤ n) (hhi : n < 2147483648) :
    parseI32 (decimal n) = some n := by
  have hdigits : ∀ m : Nat, (Nat.toDigits 10 m).all Char.isDigit = true := fun m ↦
    List.all_eq_true.mpr fun c hc ↦ Nat.isDigit_of_mem_toDigits (by decide) (by decide) hc
  cases n with
  | ofNat n =>
    have hplus := head?_toDigits_ne '+' (by decide) n
    have hminus := head?_toDigits_ne '-' (by decide) n
    rw [parseI32, decimal, if_neg (not_or.mpr ⟨hplus, hminus⟩), if_neg hminus,
      Nat.ofDigitChars_ten_toDigits]
    exact if_pos ⟨Nat.toDigits_ne_nil, hdigits n, hlo, hhi⟩
  | negSucc n =>
    have hhead : ('-' :: Nat.toDigits 10 (n + 1)).head? = some '-' := rfl
    rw [parseI32, decimal, if_pos (Or.inr hhead), if_pos hhead, List.tail_cons,
      Nat.ofDigitChars_ten_toDigits]
    exact if_pos ⟨Nat.toDigits_ne_nil, hdigits (n + 1), hlo, hhi⟩

/-! ## Splitting -/

/-- Split at the first occurrence of a pattern. -/
def splitOnce (pat : List Char) : List Char → Option (List Char × List Char)
  | [] => none
  | c :: s =>
    if pat.isPrefixOf (c :: s) then some ([], (c :: s).drop pat.length)
    else (splitOnce pat s).map fun (before, rest) ↦ (c :: before, rest)

/-- The first occurrence is the one before which the first character of the pattern is not seen. -/
theorem splitOnce_append {p : Char} {pat before : List Char} (rest : List Char)
    (h : p ∉ before) : splitOnce (p :: pat) (before ++ p :: pat ++ rest) = some (before, rest) := by
  induction before with
  | nil =>
    rw [List.nil_append, List.cons_append, splitOnce, if_pos (by simp [List.isPrefixOf])]
    simp
  | cons c before ih =>
    obtain ⟨hc, hbefore⟩ := not_or.mp (mt List.mem_cons.mpr h)
    have hprefix : ¬ (p :: pat).isPrefixOf (c :: (before ++ p :: pat ++ rest)) := by
      simp [List.isPrefixOf, hc]
    rw [List.cons_append, List.cons_append, splitOnce, if_neg hprefix, ih hbefore, Option.map_some]

/-- What does not hold the first character of the pattern is passed over. -/
theorem splitOnce_append_of_not_mem {p : Char} {pat front : List Char} (s : List Char)
    (h : p ∉ front) : splitOnce (p :: pat) (front ++ s) =
      (splitOnce (p :: pat) s).map fun (before, rest) ↦ (front ++ before, rest) := by
  induction front with
  | nil => simp
  | cons c front ih =>
    obtain ⟨hc, hfront⟩ := not_or.mp (mt List.mem_cons.mpr h)
    have hprefix : ¬ (p :: pat).isPrefixOf (c :: (front ++ s)) := by simp [List.isPrefixOf, hc]
    rw [List.cons_append, splitOnce, if_neg hprefix, ih hfront, Option.map_map]
    rfl

theorem splitOnce_eq_none_iff {p : Char} {s : List Char} : splitOnce [p] s = none ↔ p ∉ s := by
  induction s with
  | nil => simp [splitOnce]
  | cons c s ih =>
    by_cases hc : p = c
    · simp [splitOnce, List.isPrefixOf, hc]
    · simp [splitOnce, List.isPrefixOf, hc, ih]

/-- Splitting at a character. -/
theorem splitOnce_eq_some_iff {p : Char} {s before rest : List Char} :
    splitOnce [p] s = some (before, rest) ↔ s = before ++ p :: rest ∧ p ∉ before := by
  constructor
  · intro h
    induction s generalizing before with
    | nil => cases h
    | cons c s ih =>
      rw [splitOnce] at h
      split_ifs at h with hc
      · obtain ⟨rfl, rfl⟩ := Prod.mk.inj (Option.some.inj h)
        have hc : p = c := by simpa [List.isPrefixOf] using hc
        simp [hc]
      · obtain ⟨⟨before', rest'⟩, hsplit, heq⟩ := Option.map_eq_some_iff.mp h
        obtain ⟨rfl, rfl⟩ := Prod.mk.inj heq
        obtain ⟨rfl, hnot⟩ := ih hsplit
        have hne : p ≠ c := by simpa [List.isPrefixOf] using hc
        exact ⟨rfl, mt List.mem_cons.mp (not_or.mpr ⟨hne, hnot⟩)⟩
  · rintro ⟨rfl, hnot⟩
    have h := @splitOnce_append p [] before rest hnot
    rwa [List.append_assoc] at h

/-- Fields with a space in front of each but the first. -/
def spaced (first : List Char) (fields : List (List Char)) : List Char :=
  first ++ fields.flatMap fun field ↦ ' ' :: field

/-- A hyphen between spaces ends the fields in front of it, if none of them is a hyphen. -/
theorem splitOnce_spaced {first : List Char} {fields : List (List Char)} (rest : List Char)
    (hfirst : ' ' ∉ first) (hfields : ∀ field ∈ fields, ' ' ∉ field ∧ field ≠ ['-']) :
    splitOnce [' ', '-', ' '] (spaced first fields ++ ' ' :: '-' :: ' ' :: rest) =
      some (spaced first fields, rest) := by
  have hrest : splitOnce [' ', '-', ' ']
      (fields.flatMap (' ' :: ·) ++ ' ' :: '-' :: ' ' :: rest) =
        some (fields.flatMap (' ' :: ·), rest) := by
    induction fields with
    | nil => exact splitOnce_append rest List.not_mem_nil
    | cons field fields ih =>
      obtain ⟨⟨hspace, hhyphen⟩, hfields⟩ := List.forall_mem_cons.mp hfields
      obtain ⟨tail, htail⟩ :
          ∃ tail, fields.flatMap (' ' :: ·) ++ ' ' :: '-' :: ' ' :: rest = ' ' :: tail := by
        cases fields with
        | nil => exact ⟨_, rfl⟩
        | cons field fields => exact ⟨_, rfl⟩
      -- only a field that is a hyphen is one between spaces
      have hprefix : ¬ [' ', '-', ' '].isPrefixOf (' ' :: (field ++ ' ' :: tail)) := by
        rcases field with _ | ⟨c, _ | ⟨d, field⟩⟩
        · simp [List.isPrefixOf]
        · have hc : '-' ≠ c := fun heq ↦ hhyphen (by rw [heq])
          simp [List.isPrefixOf, hc]
        · simp only [List.mem_cons, not_or] at hspace
          simp [List.isPrefixOf, hspace.2.1]
      rw [List.flatMap_cons, List.append_assoc, List.cons_append, htail, splitOnce, if_neg hprefix,
        splitOnce_append_of_not_mem _ hspace, ← htail, ih hfields]
      rfl
  rw [spaced, List.append_assoc, splitOnce_append_of_not_mem _ hfirst, hrest]
  rfl

/-- Split at the last occurrence of a pattern. -/
def rsplitOnce (pat : List Char) : List Char → Option (List Char × List Char)
  | [] => none
  | c :: s => match rsplitOnce pat s with
    | some (before, rest) => some (c :: before, rest)
    | none => if pat.isPrefixOf (c :: s) then some ([], (c :: s).drop pat.length) else none

/-- Without the first character of the pattern there is nowhere to split. -/
theorem rsplitOnce_eq_none {p : Char} {pat s : List Char} (h : p ∉ s) :
    rsplitOnce (p :: pat) s = none := by
  induction s with
  | nil => rfl
  | cons c s ih =>
    obtain ⟨hc, hs⟩ := not_or.mp (mt List.mem_cons.mpr h)
    rw [rsplitOnce, ih hs]
    simp [List.isPrefixOf, hc]

/-- The last occurrence is the one after which the first character of the pattern is not seen. -/
theorem rsplitOnce_append {p : Char} {pat : List Char} (before : List Char) {rest : List Char}
    (h : p ∉ pat ++ rest) :
    rsplitOnce (p :: pat) (before ++ p :: pat ++ rest) = some (before, rest) := by
  induction before with
  | nil =>
    rw [List.nil_append, List.cons_append, rsplitOnce, rsplitOnce_eq_none h]
    simp [List.isPrefixOf]
  | cons c before ih =>
    rw [List.append_assoc] at ih
    rw [List.cons_append, List.cons_append, rsplitOnce, List.append_assoc, ih]

/-- The characters with the Unicode property `White_Space`. -/
def isWhitespace (c : Char) : Bool :=
  (0x09 ≤ c.toNat && c.toNat ≤ 0x0d) || c.toNat == 0x20 || c.toNat == 0x85 || c.toNat == 0xa0 ||
    c.toNat == 0x1680 || (0x2000 ≤ c.toNat && c.toNat ≤ 0x200a) || c.toNat == 0x2028 ||
    c.toNat == 0x2029 || c.toNat == 0x202f || c.toNat == 0x205f || c.toNat == 0x3000

theorem isWhitespace_of_visible {c : Char} (hlo : 0x20 < c.toNat) (hhi : c.toNat < 0x7f) :
    isWhitespace c = false := by
  simp only [isWhitespace, Bool.or_eq_false_iff, Bool.and_eq_false_iff, beq_eq_false_iff_ne,
    decide_eq_false_iff_not]
  omega

theorem isWhitespace_of_isDigit {c : Char} (h : c.isDigit = true) : isWhitespace c = false := by
  obtain ⟨hlo, hhi⟩ : 48 ≤ c.toNat ∧ c.toNat ≤ 57 := Char.isDigit_iff_toNat.mp h
  exact isWhitespace_of_visible (by omega) (by omega)

/-- The text without the white space around it. -/
def trim (s : List Char) : List Char :=
  ((s.dropWhile isWhitespace).reverse.dropWhile isWhitespace).reverse

theorem trim_cons_ne_nil {c : Char} (s : List Char) (hc : isWhitespace c = false) :
    trim (c :: s) ≠ [] := by
  rw [trim, List.dropWhile_cons_of_neg (by simp [hc]), Ne, List.reverse_eq_nil_iff,
    List.dropWhile_eq_nil_iff]
  intro h
  have hspace := h c (by simp)
  rw [hc] at hspace
  cases hspace

/-- What is in front of the first separator. -/
theorem splitOnP_append {p : Char → Bool} {front : List Char} (s : List Char)
    (hfront : ∀ c ∈ front, p c = false) :
    (front ++ s).splitOnP p = (s.splitOnP p).modifyHead (front ++ ·) := by
  induction front with
  | nil => cases h : s.splitOnP p <;> simp [h]
  | cons c front ih =>
    rw [List.forall_mem_cons] at hfront
    rw [List.cons_append, List.splitOnP_cons_eq_if_modifyHead, if_neg (by simp [hfront.1]), ih hfront.2,
      List.modifyHead_modifyHead]
    rfl

/-- What lies between two separators has none. -/
theorem not_of_mem_splitOnP {p : Char → Bool} {s word : List Char} (h : word ∈ s.splitOnP p) :
    ∀ c ∈ word, p c = false := by
  induction s generalizing word with
  | nil =>
    rw [List.splitOnP_nil, List.mem_singleton] at h
    rw [h]
    exact fun c hc ↦ absurd hc List.not_mem_nil
  | cons d s ih =>
    rw [List.splitOnP_cons_eq_if_modifyHead] at h
    split_ifs at h with hd
    · rcases List.mem_cons.mp h with rfl | h
      · exact fun c hc ↦ absurd hc List.not_mem_nil
      · exact ih h
    · cases hs : s.splitOnP p with
      | nil => exact absurd hs (List.splitOnP_ne_nil _ _)
      | cons first words =>
        rw [hs, List.modifyHead_cons] at h
        rcases List.mem_cons.mp h with rfl | h
        · refine List.forall_mem_cons.mpr ⟨by simpa using hd, ih ?_⟩
          rw [hs]
          exact List.mem_cons_self
        · refine ih ?_
          rw [hs]
          exact List.mem_cons_of_mem _ h
/-- The words between runs of white space. -/
def splitWhitespace (s : List Char) : List (List Char) :=
  (s.splitOnP isWhitespace).filter (· ≠ [])

@[simp] theorem splitWhitespace_nil : splitWhitespace [] = [] := rfl

/-- A word and the white space after it. -/
theorem splitWhitespace_append_cons {word : List Char} {sep : Char} (rest : List Char)
    (hne : word ≠ []) (hword : ∀ c ∈ word, isWhitespace c = false) (hsep : isWhitespace sep = true) :
    splitWhitespace (word ++ sep :: rest) = word :: splitWhitespace rest := by
  rw [splitWhitespace, List.splitOnP_append_cons_of_forall_mem hword sep hsep, List.filter_cons,
    if_pos (by simpa using hne), splitWhitespace]

theorem splitWhitespace_word {word : List Char} (hne : word ≠ [])
    (hword : ∀ c ∈ word, isWhitespace c = false) : splitWhitespace word = [word] := by
  rw [splitWhitespace, List.splitOnP_eq_singleton hword, List.filter_cons, if_pos (by simpa using hne),
    List.filter_nil]

theorem splitWhitespace_append_sep {sep : Char} (front rest : List Char)
    (hsep : isWhitespace sep = true) :
    splitWhitespace (front ++ sep :: rest) = splitWhitespace front ++ splitWhitespace rest := by
  rw [splitWhitespace, List.splitOnP_append_cons _ _ hsep, List.filter_append]
  rfl

theorem splitWhitespace_spaced (first : List Char) (fields : List (List Char)) :
    splitWhitespace (spaced first fields) =
      splitWhitespace first ++ fields.flatMap splitWhitespace := by
  induction fields generalizing first with
  | nil => simp [spaced]
  | cons field fields ih =>
    have hspaced : spaced first (field :: fields) = first ++ ' ' :: spaced field fields := by
      simp [spaced]
    rw [hspaced, splitWhitespace_append_sep _ _ (by decide), ih, List.flatMap_cons]

/-- Words with a space between them, and something after the last one. -/
def joinWords (last : List Char) : List (List Char) → List Char
  | [] => []
  | [word] => word ++ last
  | word :: words => word ++ ' ' :: joinWords last words

/-- Words that were joined, with nothing or a line feed at the end, are split again. -/
theorem splitWhitespace_joinWords {last : List Char} (hlast : last = [] ∨ last = ['\n'])
    {words : List (List Char)}
    (hwords : ∀ word ∈ words, word ≠ [] ∧ ∀ c ∈ word, isWhitespace c = false) :
    splitWhitespace (joinWords last words) = words := by
  induction words with
  | nil => rfl
  | cons word words ih =>
    rw [List.forall_mem_cons] at hwords
    obtain ⟨⟨hne, hword⟩, hrest⟩ := hwords
    cases words with
    | nil =>
      rw [joinWords]
      rcases hlast with rfl | rfl
      · rw [List.append_nil, splitWhitespace_word hne hword]
      · rw [splitWhitespace_append_cons [] hne hword (by decide), splitWhitespace_nil]
    | cons next words =>
      rw [joinWords, splitWhitespace_append_cons _ hne hword (by decide), ih hrest]
      simp

/-- The lines of a text, without their ends: a line feed, or a carriage return and a line feed.
What follows the last line feed is a line of its own unless it is empty. -/
def lines (s : List Char) : List (List Char) :=
  let pieces := s.splitOnP (· == '\n')
  pieces.dropLast.map (fun line ↦ if line.getLast? = some '\r' then line.dropLast else line) ++
    (pieces.getLast?.toList.filter (· ≠ []))

/-- What is left of the end of a line. -/
def stripEnd (line : List Char) : List Char :=
  if line.getLast? = some '\r' then line.dropLast else line

theorem stripEnd_append_cons {c : Char} (front : List Char) (hc : c ≠ '\r') (line : List Char) :
    stripEnd (front ++ c :: line) = front ++ c :: stripEnd line := by
  cases line with
  | nil => simp [stripEnd, hc]
  | cons d line =>
    have hlast : (front ++ c :: d :: line).getLast? = (d :: line).getLast? := by
      rw [List.getLast?_append, List.getLast?_cons_cons, List.getLast?_cons, Option.some_or]
    rw [stripEnd, stripEnd, hlast]
    split_ifs
    · rw [List.dropLast_append_of_ne_nil (List.cons_ne_nil _ _), List.dropLast_cons_cons]
    · rfl

theorem lines_append_lf {line : List Char} (rest : List Char) (hline : '\n' ∉ line) :
    lines (line ++ '\n' :: rest) = stripEnd line :: lines rest := by
  have hplain : ∀ c ∈ line, (c == '\n') = false := fun c hc ↦
    beq_eq_false_iff_ne.mpr fun heq ↦ hline (heq ▸ hc)
  have hne : rest.splitOnP (· == '\n') ≠ [] := List.splitOnP_ne_nil _ _
  rw [lines, List.splitOnP_append_cons_of_forall_mem hplain '\n' (by decide)]
  simp only [List.dropLast_cons_of_ne_nil hne, List.map_cons, List.cons_append,
    List.getLast?_cons_of_ne_nil hne]
  rfl

/-- Without a carriage return before its end, a line is read as it was written. -/
theorem lines_append_cons {line : List Char} (rest : List Char) (hline : '\n' ∉ line)
    (hcr : line.getLast? ≠ some '\r') : lines (line ++ '\n' :: rest) = line :: lines rest := by
  rw [lines_append_lf rest hline, stripEnd, if_neg hcr]

/-- A text without a line feed is one line. -/
theorem lines_of_line {line : List Char} (hne : line ≠ []) (hline : '\n' ∉ line) :
    lines line = [line] := by
  have hplain : ∀ c ∈ line, (c == '\n') = false := fun c hc ↦
    beq_eq_false_iff_ne.mpr fun heq ↦ hline (heq ▸ hc)
  rw [lines, List.splitOnP_eq_singleton hplain]
  simp [hne]

/-! ## Replacing -/

/-- Replace a pattern, behind `skip` characters of an occurrence. -/
def replaceFrom (p : Char) (pat new : List Char) : Nat → List Char → List Char
  | _, [] => []
  | skip + 1, _ :: s => replaceFrom p pat new skip s
  | 0, c :: s =>
    if (p :: pat).isPrefixOf (c :: s) then new ++ replaceFrom p pat new pat.length s
    else c :: replaceFrom p pat new 0 s

/-- Replace the occurrences of a pattern, from left to right. -/
def replace (p : Char) (pat new s : List Char) : List Char := replaceFrom p pat new 0 s

section

variable {p : Char} {pat new : List Char}

theorem replaceFrom_append (w s : List Char) :
    replaceFrom p pat new w.length (w ++ s) = replace p pat new s := by
  induction w with
  | nil => rfl
  | cons c w ih => rw [List.length_cons, List.cons_append, replaceFrom, ih]

theorem replace_append (s : List Char) :
    replace p pat new (p :: pat ++ s) = new ++ replace p pat new s := by
  rw [replace, List.cons_append, replaceFrom, if_pos (by simp [List.isPrefixOf]), replaceFrom_append]

theorem replace_cons {c : Char} {s : List Char} (h : ¬ (p :: pat).isPrefixOf (c :: s)) :
    replace p pat new (c :: s) = c :: replace p pat new s := by
  rw [replace, replaceFrom, if_neg h, replace]

/-- A text without the first character of the pattern stays as it is. -/
theorem replace_append_of_not_mem {w : List Char} (s : List Char) (h : p ∉ w) :
    replace p pat new (w ++ s) = w ++ replace p pat new s := by
  induction w with
  | nil => rfl
  | cons c w ih =>
    obtain ⟨hc, hw⟩ := not_or.mp (mt List.mem_cons.mpr h)
    rw [List.cons_append, replace_cons (by simp [List.isPrefixOf, hc]), ih hw, List.cons_append]

/-- A code that has another one's length and is different from it. -/
def Apart (p : Char) (pat code : List Char) : Prop :=
  p ∉ code ∨ code.length = pat.length + 1 ∧ code ≠ p :: pat ∧ p ∉ code.tail

/-- So does a code of the pattern's length that is not the pattern. -/
theorem replace_append_of_apart {code : List Char} (s : List Char) (h : Apart p pat code) :
    replace p pat new (code ++ s) = code ++ replace p pat new s := by
  rcases h with h | ⟨hlength, hne, htail⟩
  · exact replace_append_of_not_mem s h
  cases code with
  | nil => rfl
  | cons c code =>
    rw [List.tail_cons] at htail
    have hprefix : ¬ (p :: pat).isPrefixOf (c :: (code ++ s)) := by
      intro hprefix
      have htake := List.prefix_iff_eq_take.mp (List.isPrefixOf_iff_prefix.mp hprefix)
      rw [List.length_cons, ← hlength, ← List.cons_append, List.take_left] at htake
      exact hne htake.symm
    rw [List.cons_append, replace_cons hprefix, replace_append_of_not_mem s htail, List.cons_append]

/-- **Replacing the code of one character** in a text that was written with codes. -/
theorem replace_flatMap {code : Char → List Char} {a : Char} (ha : code a = p :: pat)
    (hcode : ∀ c, c ≠ a → Apart p pat (code c)) (s : List Char) :
    replace p pat new (s.flatMap code) = s.flatMap (Function.update code a new) := by
  induction s with
  | nil => rfl
  | cons c s ih =>
    rw [List.flatMap_cons, List.flatMap_cons]
    by_cases hc : c = a
    · rw [hc, ha, replace_append, ih, Function.update_self]
    · rw [replace_append_of_apart _ (hcode c hc), ih, Function.update_of_ne hc]

end

/-! ## Decoding -/

/-- Bytes as text, if they are valid UTF-8. -/
def decode (bytes : ByteArray) : Option (List Char) := (String.fromUTF8? bytes).map String.toList

/-- Text as bytes. -/
def encode (s : List Char) : ByteArray := (String.ofList s).toByteArray

theorem encode_append (s t : List Char) : encode (s ++ t) = encode s ++ encode t := by
  rw [encode, String.ofList_append, String.toByteArray_append, encode, encode]

theorem isValidUTF8_encode (s : List Char) : (encode s).IsValidUTF8 := (String.ofList s).isValidUTF8

/-- Valid bytes are the encoding of some text. -/
theorem exists_encode {bytes : ByteArray} (h : bytes.IsValidUTF8) : ∃ s, bytes = encode s := by
  refine ⟨(String.fromUTF8 bytes h).toList, ?_⟩
  rw [encode, String.ofList_toList]
  rfl

theorem decode_encode (s : List Char) : decode (encode s) = some s := by
  rw [decode, String.fromUTF8?, dif_pos (isValidUTF8_encode s), Option.map_some]
  exact congrArg some String.toList_ofList

theorem encode_inj {s t : List Char} (h : encode s = encode t) : s = t := by
  have hdecode := decode_encode s
  rw [h, decode_encode] at hdecode
  exact (Option.some.inj hdecode).symm

theorem decode_nil : decode ⟨[].toArray⟩ = some [] := decode_encode []

theorem decode_eq_none {bytes : ByteArray} (h : ¬ bytes.IsValidUTF8) : decode bytes = none := by
  rw [decode, String.fromUTF8?, dif_neg h, Option.map_none]

/-- Text in front of bytes decides nothing about their validity. -/
theorem isValidUTF8_encode_append_iff (s : List Char) (bytes : ByteArray) :
    (encode s ++ bytes).IsValidUTF8 ↔ bytes.IsValidUTF8 := by
  induction s with
  | nil =>
    rw [show encode [] = ByteArray.empty from rfl, ByteArray.empty_append]
  | cons c s ih =>
    rw [← List.singleton_append, encode_append, ByteArray.append_assoc, ← ih]
    exact ByteArray.isValidUTF8_utf8Encode_singleton_append_iff

theorem encode_of_decode {bytes : ByteArray} {s : List Char} (h : decode bytes = some s) :
    bytes = encode s := by
  by_cases hvalid : bytes.IsValidUTF8
  · obtain ⟨t, rfl⟩ := exists_encode hvalid
    rw [decode_encode] at h
    rw [Option.some.inj h]
  · rw [decode_eq_none hvalid] at h
    cases h

/-- What is text behind a text is text. -/
theorem decode_encode_append (s : List Char) (bytes : ByteArray) :
    decode (encode s ++ bytes) = (decode bytes).map (s ++ ·) := by
  by_cases hvalid : bytes.IsValidUTF8
  · obtain ⟨t, rfl⟩ := exists_encode hvalid
    rw [← encode_append, decode_encode, decode_encode, Option.map_some]
  · rw [decode_eq_none hvalid, decode_eq_none (mt (isValidUTF8_encode_append_iff s bytes).mp hvalid),
      Option.map_none]

/-- The bytes up to the end are all of them. -/
theorem extract_of_size_le {bytes : ByteArray} {n : Nat} (h : bytes.size ≤ n) :
    bytes.extract 0 n = bytes := by
  have hfull : bytes.data.extract 0 n = bytes.data := by
    rw [Array.extract_eq_self_iff]
    exact Or.inr ⟨rfl, h⟩
  exact ByteArray.ext (by rw [ByteArray.data_extract, hfull])

/-- Where the beginning of an encoded text is valid, the text was not cut inside a character. -/
theorem exists_of_extract_encode {t : List Char} {n : Nat}
    (h : ((encode t).extract 0 n).IsValidUTF8) :
    ∃ s r, t = s ++ r ∧ (encode t).extract 0 n = encode s := by
  rcases Nat.le_total (encode t).size n with hall | hn
  · exact ⟨t, [], (List.append_nil t).symm, extract_of_size_le hall⟩
  obtain ⟨s, hs⟩ := exists_encode h
  have hsplit : encode s ++ (encode t).extract n (encode t).size = encode t := by
    rw [← hs, ByteArray.extract_append_extract, Nat.max_eq_right hn, Nat.min_eq_left (Nat.zero_le n),
      ByteArray.extract_zero_size]
  have hrest : ((encode t).extract n (encode t).size).IsValidUTF8 := by
    rw [← isValidUTF8_encode_append_iff s, hsplit]
    exact isValidUTF8_encode t
  obtain ⟨r, hr⟩ := exists_encode hrest
  refine ⟨s, r, encode_inj ?_, hs⟩
  rw [encode_append, ← hr, hsplit]

/-- Nor does text behind them. -/
theorem isValidUTF8_append_encode_iff (bytes : ByteArray) (s : List Char) :
    (bytes ++ encode s).IsValidUTF8 ↔ bytes.IsValidUTF8 := by
  refine ⟨fun h ↦ ?_, fun h ↦ h.append (isValidUTF8_encode s)⟩
  by_cases hs : (encode s).size = 0
  · have hempty : encode s = ByteArray.empty := ByteArray.size_eq_zero_iff.mp hs
    rwa [hempty, ByteArray.append_empty] at h
  -- the end of `bytes` is a position of the whole text, since a character starts there
  · have hpos : (⟨bytes.size⟩ : String.Pos.Raw).IsValid ⟨bytes ++ encode s, h⟩ := by
      refine String.Pos.Raw.isValid_iff_isUTF8FirstByte.mpr (Or.inr ⟨?_, ?_⟩)
      · rw [String.Pos.Raw.lt_iff, String.byteIdx_rawEndPos, ← String.size_toByteArray,
          ByteArray.size_append]
        exact Nat.lt_add_of_pos_right (Nat.pos_of_ne_zero hs)
      · have hfirst := (isValidUTF8_encode s).isUTF8FirstByte_getElem_zero (Nat.pos_of_ne_zero hs)
        simpa [String.getUTF8Byte, ByteArray.getElem_append_right] using hfirst
    have hextract := (String.Pos.Raw.isValid_iff_isValidUTF8_extract_zero.mp hpos).2
    simpa [ByteArray.extract_append_eq_left] using hextract

/-! ## Byte positions -/

/-- The bytes a text takes in UTF-8. -/
def byteLength (s : List Char) : Nat := s.foldr (fun c rest ↦ c.utf8Size + rest) 0

@[simp] theorem byteLength_nil : byteLength [] = 0 := rfl

@[simp] theorem byteLength_cons (c : Char) (s : List Char) :
    byteLength (c :: s) = c.utf8Size + byteLength s := rfl

@[simp] theorem byteLength_append (s t : List Char) :
    byteLength (s ++ t) = byteLength s + byteLength t := by
  induction s with
  | nil => simp
  | cons c s ih => rw [List.cons_append, byteLength_cons, ih, byteLength_cons, Nat.add_assoc]

@[simp] theorem byteLength_replicate (n : Nat) (c : Char) :
    byteLength (List.replicate n c) = n * c.utf8Size := by
  induction n with
  | zero => simp
  | succ n ih => rw [List.replicate_succ, byteLength_cons, ih, Nat.succ_mul, Nat.add_comm]

/-- Every character takes a byte. -/
theorem byteLength_eq_zero_iff {s : List Char} : byteLength s = 0 ↔ s = [] := by
  cases s with
  | nil => simp
  | cons c s =>
    have hpos : 0 < c.utf8Size := c.utf8Size_pos
    simp only [byteLength_cons, reduceCtorEq, iff_false]
    omega

/-- A text of characters of one byte each. -/
theorem byteLength_of_single {s : List Char} (h : ∀ c ∈ s, c.utf8Size = 1) :
    byteLength s = s.length := by
  induction s with
  | nil => rfl
  | cons c s ih =>
    rw [byteLength_cons, h c List.mem_cons_self, ih fun d hd ↦ h d (List.mem_cons_of_mem c hd),
      List.length_cons, Nat.add_comm]

theorem size_encode (s : List Char) : (encode s).size = byteLength s := by
  induction s with
  | nil => rfl
  | cons c s ih =>
    have hsingle : (encode [c]).size = c.utf8Size := by
      rw [encode, String.size_toByteArray, ← String.singleton_eq_ofList, String.utf8ByteSize_singleton]
    rw [← List.singleton_append, encode_append, ByteArray.size_append, hsingle, ih,
      List.singleton_append, byteLength_cons]

/-- What follows a byte position, if a character starts there or the text ends there. -/
def sliceFrom : Nat → List Char → Option (List Char)
  | 0, s => some s
  | _ + 1, [] => none
  | n + 1, c :: s => if c.utf8Size ≤ n + 1 then sliceFrom (n + 1 - c.utf8Size) s else none

theorem sliceFrom_eq_some_iff {n : Nat} {s after : List Char} :
    sliceFrom n s = some after ↔ ∃ before, s = before ++ after ∧ byteLength before = n := by
  induction s generalizing n with
  | nil =>
    cases n with
    | zero =>
      rw [sliceFrom, Option.some.injEq]
      constructor
      · rintro rfl
        exact ⟨[], rfl, rfl⟩
      · rintro ⟨before, h, -⟩
        exact (List.append_eq_nil_iff.mp h.symm).2.symm
    | succ n =>
      refine iff_of_false (by simp [sliceFrom]) ?_
      rintro ⟨before, h, hbytes⟩
      rw [(List.append_eq_nil_iff.mp h.symm).1] at hbytes
      cases hbytes
  | cons c s ih =>
    have hpos : 0 < c.utf8Size := c.utf8Size_pos
    cases n with
    | zero =>
      simp only [sliceFrom, byteLength_eq_zero_iff, exists_eq_right, List.nil_append,
        Option.some.injEq]
    | succ n =>
      rw [sliceFrom]
      constructor
      · intro h
        by_cases hfits : c.utf8Size ≤ n + 1
        · rw [if_pos hfits] at h
          obtain ⟨before, rfl, hbytes⟩ := ih.mp h
          exact ⟨c :: before, rfl, by rw [byteLength_cons]; omega⟩
        · rw [if_neg hfits] at h
          cases h
      · rintro ⟨before, hs, hbytes⟩
        cases before with
        | nil => cases hbytes
        | cons d before =>
          obtain ⟨rfl, rfl⟩ := List.cons.inj hs
          rw [byteLength_cons] at hbytes
          rw [if_pos (by omega)]
          exact ih.mpr ⟨before, rfl, by omega⟩

/-- A position in a text is one in every longer text. -/
theorem sliceFrom_append {n : Nat} {s : List Char} (r : List Char) (h : n ≤ byteLength s) :
    sliceFrom n (s ++ r) = (sliceFrom n s).map (· ++ r) := by
  induction s generalizing n with
  | nil =>
    obtain rfl : n = 0 := Nat.le_zero.mp h
    rw [List.nil_append, sliceFrom, sliceFrom, Option.map_some, List.nil_append]
  | cons c s ih =>
    cases n with
    | zero => rfl
    | succ n =>
      rw [byteLength_cons] at h
      rw [List.cons_append, sliceFrom, sliceFrom]
      split_ifs
      · exact ih (by omega)
      · rfl

theorem sliceFrom_byteLength (s r : List Char) : sliceFrom (byteLength s) (s ++ r) = some r :=
  sliceFrom_eq_some_iff.mpr ⟨s, rfl, rfl⟩

/-- The byte position of the first occurrence of a character. -/
def find (c : Char) : List Char → Option Nat
  | [] => none
  | d :: s => if d = c then some 0 else (find c s).map (d.utf8Size + ·)

theorem find_append_cons {c : Char} {before : List Char} (rest : List Char) (h : c ∉ before) :
    find c (before ++ c :: rest) = some (byteLength before) := by
  induction before with
  | nil => rw [List.nil_append, find, if_pos rfl, byteLength_nil]
  | cons d before ih =>
    obtain ⟨hd, hbefore⟩ := not_or.mp (mt List.mem_cons.mpr h)
    rw [List.cons_append, find, if_neg (Ne.symm hd), ih hbefore, Option.map_some, byteLength_cons]

/-- The byte position of the first character with a property. -/
def findIf (p : Char → Bool) : List Char → Option Nat
  | [] => none
  | c :: s => if p c then some 0 else (findIf p s).map (c.utf8Size + ·)

/-- Split at a byte position.  Without a result it is inside a character or behind the end. -/
def splitAt : Nat → List Char → Option (List Char × List Char)
  | 0, s => some ([], s)
  | _ + 1, [] => none
  | n + 1, c :: s =>
    if c.utf8Size ≤ n + 1 then
      (splitAt (n + 1 - c.utf8Size) s).map fun (before, rest) ↦ (c :: before, rest)
    else none

theorem findIf_eq_none_iff {p : Char → Bool} {s : List Char} :
    findIf p s = none ↔ ∀ c ∈ s, p c = false := by
  induction s with
  | nil => simp [findIf]
  | cons c s ih => cases h : p c <;> simp [findIf, h, ih]

/-- **The position of a character that is found is one to split at.** -/
theorem splitAt_findIf {p : Char → Bool} {s : List Char} {n : Nat} (h : findIf p s = some n) :
    splitAt n s = some (s.takeWhile (! p ·), s.dropWhile (! p ·)) := by
  induction s generalizing n with
  | nil => cases h
  | cons c s ih =>
    rw [findIf] at h
    split_ifs at h with hc
    · obtain rfl := Option.some.inj h
      simp [splitAt, hc]
    · obtain ⟨m, hm, rfl⟩ := Option.map_eq_some_iff.mp h
      obtain ⟨k, hk⟩ : ∃ k, c.utf8Size = k + 1 := ⟨c.utf8Size - 1, by have := c.utf8Size_pos; omega⟩
      have hsum : c.utf8Size + m = (k + m) + 1 := by omega
      rw [hsum, splitAt, if_pos (by omega), show k + m + 1 - c.utf8Size = m by omega, ih hm]
      simp [hc]

/-- Lines, each with a line feed behind it. -/
def unlines (lines : List (List Char)) : List Char := lines.flatMap fun line ↦ line ++ ['\n']

@[simp] theorem unlines_nil : unlines [] = [] := rfl

@[simp] theorem unlines_cons (line : List Char) (lines : List (List Char)) :
    unlines (line :: lines) = line ++ '\n' :: unlines lines := by
  rw [unlines, List.flatMap_cons, ← unlines, List.append_assoc, List.singleton_append]

theorem unlines_append (lines rest : List (List Char)) :
    unlines (lines ++ rest) = unlines lines ++ unlines rest := by
  rw [unlines, List.flatMap_append, ← unlines, ← unlines]

/-! ## The text in bytes -/

/-- The text there is in bytes: the characters that can be read, without the bytes in between. -/
def validText (bytes : ByteArray) : List Char :=
  if bytes.size = 0 then []
  else match bytes.utf8DecodeChar? 0 with
    | some c => c :: validText (bytes.extract c.utf8Size bytes.size)
    | none => validText (bytes.extract 1 bytes.size)
termination_by bytes.size
decreasing_by
  · have hpos : 0 < c.utf8Size := c.utf8Size_pos
    rw [ByteArray.size_extract]
    omega
  · rw [ByteArray.size_extract]
    omega

theorem validText_empty : validText .empty = [] := by
  rw [validText, if_pos ByteArray.size_empty]

/-- Text in front of bytes is read first. -/
theorem validText_encode_append (s : List Char) (bytes : ByteArray) :
    validText (encode s ++ bytes) = s ++ validText bytes := by
  induction s with
  | nil => rw [show encode [] = ByteArray.empty from rfl, ByteArray.empty_append, List.nil_append]
  | cons c s ih =>
    have hsize : (encode [c]).size = c.utf8Size := by
      rw [size_encode, byteLength_cons, byteLength_nil, Nat.add_zero]
    have hpos : 0 < c.utf8Size := c.utf8Size_pos
    have hdecode : ∀ rest : ByteArray, (encode [c] ++ rest).utf8DecodeChar? 0 = some c := fun _ ↦
      List.utf8DecodeChar?_utf8Encode_singleton_append
    rw [← List.singleton_append, encode_append, ByteArray.append_assoc, validText, hdecode,
      if_neg (by rw [ByteArray.size_append, hsize]; omega), ByteArray.size_append, hsize]
    simp only
    rw [ByteArray.extract_append_eq_right hsize.symm (by rw [hsize]), ih]
    rfl

theorem validText_encode (s : List Char) : validText (encode s) = s := by
  have h := validText_encode_append s .empty
  rwa [ByteArray.append_empty, validText_empty, List.append_nil] at h

/-! ## Reading hexadecimal numbers -/

/-- The value of a hexadecimal digit. -/
def hexValue (c : Char) : Nat := if c.isDigit then c.toNat - '0'.toNat else c.toNat - 'a'.toNat + 10

/-- The number some hexadecimal digits stand for, behind those already read. -/
def ofHexDigits (s : List Char) (read : Nat) : Nat := s.foldl (fun n c ↦ 16 * n + hexValue c) read

theorem ofHexDigits_append (s t : List Char) (read : Nat) :
    ofHexDigits (s ++ t) read = ofHexDigits t (ofHexDigits s read) := List.foldl_append

theorem ofHexDigits_digitChar {n : Nat} (hn : n < 16) (read : Nat) :
    ofHexDigits [n.digitChar] read = 16 * read + n := by
  have hvalue : ∀ n < 16, hexValue n.digitChar = n := by decide
  rw [ofHexDigits, List.foldl_cons, List.foldl_nil, hvalue n hn]

theorem ofHexDigits_toDigits (n : Nat) : ofHexDigits (Nat.toDigits 16 n) 0 = n := by
  induction n using Nat.base_induction 16 (by decide) with
  | single m hm => rw [Nat.toDigits_of_lt_base hm, ofHexDigits_digitChar hm, Nat.mul_zero, Nat.zero_add]
  | digit m k hk hm ih =>
    rw [← Nat.toDigits_append_toDigits (by decide) hm hk, ofHexDigits_append, ih,
      Nat.toDigits_of_lt_base hk, ofHexDigits_digitChar hk]

theorem ofHexDigits_leftpad (s : List Char) : ofHexDigits (s.leftpad 8 '0') 0 = ofHexDigits s 0 := by
  have hzeros : ∀ n : Nat, ofHexDigits (List.replicate n '0') 0 = 0 := by
    intro n
    induction n with
    | zero => rfl
    | succ n ih =>
      rw [List.replicate_succ, ← List.singleton_append, ofHexDigits_append]
      exact ih
  rw [List.leftpad, ofHexDigits_append, hzeros]

/-- The number can be read back. -/
theorem hex8_injective : Function.Injective hex8 := by
  intro a b h
  have hdigits := congrArg (ofHexDigits · 0) (String.ofList_injective h)
  simp only [ofHexDigits_leftpad, ofHexDigits_toDigits] at hdigits
  exact UInt32.toNat_inj.mp hdigits

theorem mem_toDigits_hex {n : Nat} {c : Char} (h : c ∈ Nat.toDigits 16 n) :
    ∃ k < 16, c = Nat.digitChar k := by
  induction n using Nat.base_induction 16 (by decide) with
  | single m hm =>
    rw [Nat.toDigits_of_lt_base hm, List.mem_singleton] at h
    exact ⟨m, hm, h⟩
  | digit m k hk hm ih =>
    rw [← Nat.toDigits_append_toDigits (by decide) hm hk, Nat.toDigits_of_lt_base hk] at h
    rcases List.mem_append.mp h with h | h
    · exact ih h
    · exact ⟨k, hk, List.mem_singleton.mp h⟩

/-- Eight digits of one byte each. -/
theorem utf8ByteSize_hex8 (n : UInt32) : (hex8 n).utf8ByteSize = 8 := by
  have hdigits : (Nat.toDigits 16 n.toNat).length ≤ 8 :=
    (Nat.length_toDigits_le_iff (by decide) (by decide)).mpr n.toNat_lt
  have hone : ∀ c ∈ (Nat.toDigits 16 n.toNat).leftpad 8 '0', c.utf8Size = 1 := by
    intro c hc
    rcases List.mem_append.mp hc with hc | hc
    · rw [List.eq_of_mem_replicate hc]
      decide
    · obtain ⟨k, hk, rfl⟩ := mem_toDigits_hex hc
      exact (by decide : ∀ k < 16, (Nat.digitChar k).utf8Size = 1) k hk
  rw [hex8, ← String.size_toByteArray, ← encode, size_encode, byteLength_of_single hone,
    List.length_leftpad, Nat.max_eq_left hdigits]

end Text
