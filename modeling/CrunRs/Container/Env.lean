import CrunRs.Spec.Validate
import Mathlib.Data.List.Nodup

/-!
# The environment of a container

`replace_environment` of `container/env.rs`, which the child runs between the fork and the exec: it
clears what it inherited and sets what the configuration says, entry by entry.

Two calls on the way may panic, and a panic in a child that was forked is the end of the container.
None of them does behind `validate_environment`, and then the environment is what the configuration
says and nothing else (`replaceEnvironment_of_validate`).
-/

set_option autoImplicit false

namespace CrunRs

open Fallible Text

/-! ## The environment of a process -/

/-- A text as the operating system has it. -/
def envBytes (s : List Char) : List UInt8 := s.flatMap String.utf8EncodeChar

/-- The byte of `=`. -/
def equalsByte : UInt8 := 61

/-- The entry of a variable. -/
def envEntry (key value : List UInt8) : List UInt8 := key ++ equalsByte :: value

/-- `setenv`, where a variable that is set already is overwritten. -/
def setenv (key value : List UInt8) : List (List UInt8) → List (List UInt8)
  | [] => [envEntry key value]
  | entry :: environ =>
    if (key ++ [equalsByte]).isPrefixOf entry then envEntry key value :: environ
    else entry :: setenv key value environ

/-- `getenv`. -/
def getenv (environ : List (List UInt8)) (key : List UInt8) : Option (List UInt8) :=
  (environ.find? (key ++ [equalsByte]).isPrefixOf).map (·.drop (key.length + 1))

inductive EnvPanic
  | expect (message : String)
  | setVar (key value : List UInt8)
  deriving DecidableEq, Repr

/-- `set_var`, which panics on what `setenv` or a C string does not take. -/
def setVar (environ : List (List UInt8)) (key value : List UInt8) :
    Except EnvPanic (List (List UInt8)) :=
  if key = [] ∨ equalsByte ∈ key ∨ 0 ∈ key ∨ 0 ∈ value then .error (.setVar key value)
  else .ok (setenv key value environ)

/-- The loop of `replace_environment`. -/
def setAll (environ : List (List UInt8)) : List String → Except EnvPanic (List (List UInt8))
  | [] => .ok environ
  | item :: env => match splitOnce ['='] item.toList with
    | none => .error (.expect "environment was validated before installation")
    | some (key, value) => do
      let environ ← setVar environ (envBytes key) (envBytes value)
      setAll environ env

/-- `replace_environment`: the environment it leaves and what it returns, or the panic it ends in.
`cleared` says whether `clearenv` succeeds. -/
def replaceEnvironment (cleared : Bool) (inherited : List (List UInt8)) (env : List String) :
    Except EnvPanic (List (List UInt8) × Except EnvironmentError Unit) :=
  match validateEnvironment env with
  | .error e => .ok (inherited, .error (.config e))
  | .ok () =>
    if cleared then do
      let environ ← setAll [] env
      return (environ, .ok ())
    else .ok (inherited, .error (.context "failed to clear the inherited environment"))

/-! ## What is accepted -/

/-- The part of an entry in front of the first `=`. -/
def entryKey (item : String) : List Char := item.toList.takeWhile (· ≠ '=')

/-- The rest of it. -/
def entryValue (item : String) : List Char := (item.toList.dropWhile (· ≠ '=')).tail

/-- An entry that passes its checks, apart from those before it. -/
structure ValidEntry (item : String) : Prop where
  nul : '\x00' ∉ item.toList
  equals : '=' ∈ item.toList
  key : entryKey item ≠ []

theorem entry_eq {item : String} (h : '=' ∈ item.toList) :
    item.toList = entryKey item ++ '=' :: entryValue item ∧ '=' ∉ entryKey item := by
  obtain ⟨before, rest, heq, hnot⟩ := List.eq_append_cons_of_mem h
  have hplain : ∀ c ∈ before, decide (c ≠ '=') = true := fun c hc ↦
    decide_eq_true fun hcontra ↦ hnot (hcontra ▸ hc)
  have hkey : entryKey item = before := by
    rw [entryKey, heq, List.takeWhile_append_of_pos hplain, List.takeWhile_cons_of_neg (by simp),
      List.append_nil]
  have hvalue : entryValue item = rest := by
    rw [entryValue, heq, List.dropWhile_append_of_pos hplain, List.dropWhile_cons_of_neg (by simp),
      List.tail_cons]
  rw [hkey, hvalue]
  exact ⟨heq, hnot⟩

theorem splitOnce_entry {item : String} (h : '=' ∈ item.toList) :
    splitOnce ['='] item.toList = some (entryKey item, entryValue item) :=
  splitOnce_eq_some_iff.mpr (entry_eq h)

theorem validateEntry_eq_ok_iff {keys keys' : List String} {index : Nat} {item : String} :
    validateEntry keys index item = .ok keys' ↔
      ValidEntry item ∧ String.ofList (entryKey item) ∉ keys ∧
        keys' = String.ofList (entryKey item) :: keys := by
  rw [validateEntry, seq_eq_ok_iff, ensure_eq_ok_iff]
  by_cases hequals : '=' ∈ item.toList
  · obtain ⟨hitem, hkey⟩ := entry_eq hequals
    rw [splitOnce_entry hequals]
    simp only [seq_eq_ok_iff, ensure_eq_ok_iff, pure_eq_ok_iff]
    constructor
    · rintro ⟨hnul, hne, -, hfresh, rfl⟩
      exact ⟨⟨hnul, hequals, hne⟩, hfresh, rfl⟩
    · rintro ⟨hvalid, hfresh, rfl⟩
      refine ⟨hvalid.nul, hvalid.key, ⟨hkey, fun h ↦ hvalid.nul ?_⟩, hfresh, rfl⟩
      rw [hitem]
      exact List.mem_append_left _ h
  · rw [splitOnce_eq_none_iff.mpr hequals]
    exact iff_of_false (by simp) fun h ↦ hequals h.1.equals

theorem validateEnvironmentFrom_eq_ok_iff {keys : List String} {index : Nat} {env : List String} :
    validateEnvironmentFrom keys index env = .ok () ↔
      (∀ item ∈ env, ValidEntry item ∧ String.ofList (entryKey item) ∉ keys) ∧
        env.Pairwise fun a b ↦ entryKey a ≠ entryKey b := by
  induction env generalizing keys index with
  | nil => simp [validateEnvironmentFrom]
  | cons item env ih =>
    rw [validateEnvironmentFrom, bind_eq_ok_iff, List.pairwise_cons, List.forall_mem_cons]
    simp only [validateEntry_eq_ok_iff, ih]
    constructor
    · rintro ⟨_, ⟨hvalid, hfresh, rfl⟩, hrest, hdistinct⟩
      refine ⟨⟨⟨hvalid, hfresh⟩, fun other hother ↦ ⟨(hrest other hother).1, fun h ↦ ?_⟩⟩,
        fun other hother heq ↦ ?_, hdistinct⟩
      · exact (hrest other hother).2 (List.mem_cons_of_mem _ h)
      · exact (hrest other hother).2 (heq ▸ List.mem_cons_self)
    · rintro ⟨⟨⟨hvalid, hfresh⟩, hrest⟩, hfirst, hdistinct⟩
      refine ⟨_, ⟨hvalid, hfresh, rfl⟩, fun other hother ↦ ⟨(hrest other hother).1, fun h ↦ ?_⟩,
        hdistinct⟩
      rcases List.mem_cons.mp h with h | h
      · exact hfirst other hother (String.ofList_injective h).symm
      · exact (hrest other hother).2 h

theorem validateEnvironment_eq_ok_iff {env : List String} :
    validateEnvironment env = .ok () ↔
      (∀ item ∈ env, ValidEntry item) ∧ env.Pairwise fun a b ↦ entryKey a ≠ entryKey b := by
  rw [validateEnvironment, validateEnvironmentFrom_eq_ok_iff]
  simp

/-! ## Bytes -/

/-- A byte below 128 is a character of its own. -/
theorem toNat_of_mem_utf8EncodeChar {c : Char} {b : UInt8} (hb : b.toNat < 128)
    (h : b ∈ String.utf8EncodeChar c) : c.toNat = b.toNat := by
  have hsmall : ∀ n, 128 ≤ n → n < 256 → b ≠ UInt8.ofNat n := by
    rintro n hlo hhi rfl
    rw [UInt8.toNat_ofNat_of_lt' hhi] at hb
    omega
  rw [String.utf8EncodeChar] at h
  split_ifs at h with h₁ h₂ h₃ <;>
    simp only [List.mem_cons, List.not_mem_nil, or_false] at h
  · rw [h, UInt8.toNat_ofNat_of_lt' (show c.val.toNat < 256 by omega)]
    rfl
  · rcases h with h | h <;> exact absurd h (hsmall _ (by omega) (by omega))
  · rcases h with h | h | h <;> exact absurd h (hsmall _ (by omega) (by omega))
  · rcases h with h | h | h | h <;> exact absurd h (hsmall _ (by omega) (by omega))

theorem envBytes_append (s t : List Char) : envBytes (s ++ t) = envBytes s ++ envBytes t :=
  List.flatMap_append

theorem envBytes_injective : Function.Injective envBytes := by
  intro s t h
  have hencode : ∀ s : List Char, encode s = (envBytes s).toByteArray := fun s ↦ by
    rw [encode, String.toByteArray_ofList]
    rfl
  exact encode_inj (by rw [hencode, hencode, h])

theorem not_mem_envBytes {c : Char} {b : UInt8} (hb : b.toNat < 128) (hc : c.toNat = b.toNat)
    {s : List Char} (h : c ∉ s) : b ∉ envBytes s := by
  rw [envBytes, List.mem_flatMap]
  rintro ⟨d, hd, hmem⟩
  have heq : d = c := Char.toNat_inj.mp ((toNat_of_mem_utf8EncodeChar hb hmem).trans hc.symm)
  exact h (heq ▸ hd)

/-! ## What is set -/

theorem append_equals_inj {key key' rest rest' : List UInt8} (hkey : equalsByte ∉ key)
    (hkey' : equalsByte ∉ key') (h : key ++ equalsByte :: rest = key' ++ equalsByte :: rest') :
    key = key' := by
  induction key generalizing key' with
  | nil =>
    cases key' with
    | nil => rfl
    | cons b key' => exact absurd (List.cons.inj h).1 fun heq ↦ hkey' (heq ▸ List.mem_cons_self)
  | cons b key ih =>
    cases key' with
    | nil => exact absurd (List.cons.inj h).1.symm fun heq ↦ hkey (heq ▸ List.mem_cons_self)
    | cons b' key' =>
      obtain ⟨rfl, htail⟩ := List.cons.inj h
      rw [ih (fun h ↦ hkey (List.mem_cons_of_mem _ h)) (fun h ↦ hkey' (List.mem_cons_of_mem _ h)) htail]

theorem isPrefixOf_envEntry_iff {key key' value : List UInt8} (hkey : equalsByte ∉ key)
    (hkey' : equalsByte ∉ key') :
    (key ++ [equalsByte]).isPrefixOf (envEntry key' value) ↔ key = key' := by
  rw [List.isPrefixOf_iff_prefix, envEntry]
  constructor
  · rintro ⟨rest, h⟩
    rw [List.append_assoc, List.singleton_append] at h
    exact append_equals_inj hkey hkey' h
  · rintro rfl
    exact ⟨value, by simp⟩

/-- A variable that is not set yet comes last. -/
theorem setenv_of_forall {key value : List UInt8} {environ : List (List UInt8)}
    (h : ∀ entry ∈ environ, ¬ (key ++ [equalsByte]).isPrefixOf entry) :
    setenv key value environ = environ ++ [envEntry key value] := by
  induction environ with
  | nil => rfl
  | cons entry environ ih =>
    rw [List.forall_mem_cons] at h
    rw [setenv, if_neg h.1, ih h.2, List.cons_append]

namespace ValidEntry

variable {item : String} (h : ValidEntry item)

include h

theorem toList_eq : item.toList = entryKey item ++ '=' :: entryValue item := (entry_eq h.equals).1

theorem equals_notMem : '=' ∉ entryKey item := (entry_eq h.equals).2

theorem equalsByte_notMem : equalsByte ∉ envBytes (entryKey item) :=
  not_mem_envBytes (by decide) rfl h.equals_notMem

theorem envBytes_eq :
    envBytes item.toList = envEntry (envBytes (entryKey item)) (envBytes (entryValue item)) := by
  rw [h.toList_eq, ← List.singleton_append, envBytes_append, envBytes_append]
  rfl

theorem setVar_eq (environ : List (List UInt8)) :
    setVar environ (envBytes (entryKey item)) (envBytes (entryValue item)) =
      .ok (setenv (envBytes (entryKey item)) (envBytes (entryValue item)) environ) := by
  have hnul : '\x00' ∉ entryKey item ++ '=' :: entryValue item := h.toList_eq ▸ h.nul
  simp only [List.mem_append, List.mem_cons, not_or] at hnul
  have hne : envBytes (entryKey item) ≠ [] := fun hempty ↦ h.key (envBytes_injective hempty)
  rw [setVar, if_neg]
  simp only [not_or]
  exact ⟨hne, h.equalsByte_notMem, not_mem_envBytes (by decide) rfl hnul.1,
    not_mem_envBytes (by decide) rfl hnul.2.2⟩

end ValidEntry

/-- **Every entry is set, and none is overwritten.**  The keys of those to come are not set yet. -/
theorem setAll_eq {environ : List (List UInt8)} {env : List String}
    (hvalid : ∀ item ∈ env, ValidEntry item)
    (hdistinct : env.Pairwise fun a b ↦ entryKey a ≠ entryKey b)
    (hfresh : ∀ item ∈ env, ∀ entry ∈ environ,
      ¬ (envBytes (entryKey item) ++ [equalsByte]).isPrefixOf entry) :
    setAll environ env = .ok (environ ++ env.map fun item ↦ envBytes item.toList) := by
  induction env generalizing environ with
  | nil => simp [setAll]
  | cons item env ih =>
    obtain ⟨hitem, hrest⟩ := List.forall_mem_cons.mp hvalid
    obtain ⟨hfirst, hdistinct⟩ := List.pairwise_cons.mp hdistinct
    rw [setAll, splitOnce_entry hitem.equals]
    simp only
    rw [hitem.setVar_eq, ok_bind, setenv_of_forall (hfresh item List.mem_cons_self),
      ← hitem.envBytes_eq, ih hrest hdistinct, List.map_cons, List.append_assoc,
      List.singleton_append]
    intro other hother entry hentry
    rcases List.mem_append.mp hentry with hentry | hentry
    · exact hfresh other (List.mem_cons_of_mem _ hother) entry hentry
    · rw [List.mem_singleton.mp hentry, hitem.envBytes_eq,
        isPrefixOf_envEntry_iff (hrest other hother).equalsByte_notMem hitem.equalsByte_notMem]
      exact fun heq ↦ hfirst other hother (envBytes_injective heq).symm

theorem drop_envEntry (key value : List UInt8) :
    (envEntry key value).drop (key.length + 1) = value := by
  rw [envEntry, List.drop_append, List.drop_of_length_le (Nat.le_succ _), Nat.add_sub_cancel_left]
  rfl

/-- What is read back is the value of the first entry with the key. -/
theorem getenv_eq {env : List String} (hvalid : ∀ item ∈ env, ValidEntry item) {key : List UInt8}
    (hkey : equalsByte ∉ key) :
    getenv (env.map fun item ↦ envBytes item.toList) key =
      (env.find? fun item ↦ envBytes (entryKey item) = key).map fun item ↦
        envBytes (entryValue item) := by
  induction env with
  | nil => rfl
  | cons item env ih =>
    obtain ⟨hitem, hrest⟩ := List.forall_mem_cons.mp hvalid
    have ih := ih hrest
    rw [getenv] at ih ⊢
    rw [List.map_cons, hitem.envBytes_eq]
    by_cases heq : envBytes (entryKey item) = key
    · rw [List.find?_cons_of_pos
        ((isPrefixOf_envEntry_iff hkey hitem.equalsByte_notMem).mpr heq.symm),
        List.find?_cons_of_pos (by simpa using heq), Option.map_some, Option.map_some, ← heq,
        drop_envEntry]
    · rw [List.find?_cons_of_neg (mt (isPrefixOf_envEntry_iff hkey hitem.equalsByte_notMem).mp
        (Ne.symm heq)), List.find?_cons_of_neg (by simpa using heq)]
      exact ih

theorem getenv_eq_some_iff {env : List String} (hvalid : ∀ item ∈ env, ValidEntry item)
    (hdistinct : env.Pairwise fun a b ↦ entryKey a ≠ entryKey b) {key value : List UInt8}
    (hkey : equalsByte ∉ key) :
    getenv (env.map fun item ↦ envBytes item.toList) key = some value ↔
      ∃ item ∈ env, envBytes (entryKey item) = key ∧ envBytes (entryValue item) = value := by
  rw [getenv_eq hvalid hkey, Option.map_eq_some_iff]
  constructor
  · rintro ⟨item, hfind, hvalue⟩
    exact ⟨item, List.mem_of_find?_eq_some hfind, by simpa using List.find?_some hfind, hvalue⟩
  · rintro ⟨item, hitem, hkey', hvalue⟩
    refine ⟨item, ?_, hvalue⟩
    cases hfind : env.find? (fun item ↦ envBytes (entryKey item) = key) with
    | none => exact absurd hkey' (by simpa using List.find?_eq_none.mp hfind item hitem)
    | some other =>
      have hother : envBytes (entryKey other) = key := by simpa using List.find?_some hfind
      exact congrArg some (List.inj_on_of_nodup_map (List.pairwise_map.mpr hdistinct)
        (List.mem_of_find?_eq_some hfind) hitem (envBytes_injective (hother.trans hkey'.symm)))

/-- **A validated environment is installed, and nothing else is left of the one before.** -/
theorem replaceEnvironment_of_validate (env : List String) :
    (validateEnvironment env = .ok () ↔
      (∀ item ∈ env, '\x00' ∉ item.toList ∧ '=' ∈ item.toList ∧ entryKey item ≠ []) ∧
        env.Pairwise fun a b ↦ entryKey a ≠ entryKey b) ∧
    (validateEnvironment env = .ok () → ∀ inherited cleared, ∃ environ result,
      replaceEnvironment cleared inherited env = .ok (environ, result) ∧
      (result = .ok () ↔ cleared) ∧
      (cleared → environ = env.map (fun item ↦ envBytes item.toList) ∧
        ∀ key value, equalsByte ∉ key → (getenv environ key = some value ↔
          ∃ item ∈ env, envBytes (entryKey item) = key ∧ envBytes (entryValue item) = value))) := by
  refine ⟨?_, fun h inherited cleared ↦ ?_⟩
  · rw [validateEnvironment_eq_ok_iff]
    refine and_congr_left fun _ ↦ forall₂_congr fun item _ ↦ ?_
    exact ⟨fun h ↦ ⟨h.nul, h.equals, h.key⟩, fun h ↦ ⟨h.1, h.2.1, h.2.2⟩⟩
  · obtain ⟨hvalid, hdistinct⟩ := validateEnvironment_eq_ok_iff.mp h
    rw [replaceEnvironment, h]
    cases cleared with
    | false => exact ⟨_, _, rfl, by simp, fun h ↦ absurd h (by decide)⟩
    | true =>
      have hset := @setAll_eq [] env hvalid hdistinct fun _ _ _ h ↦ absurd h List.not_mem_nil
      rw [List.nil_append] at hset
      refine ⟨_, .ok (), by simp only [if_true, hset]; rfl, by simp, fun _ ↦ ⟨rfl, fun key value hkey ↦ ?_⟩⟩
      exact getenv_eq_some_iff hvalid hdistinct hkey

/-- What the child inherits, and what its configuration says. -/
def inheritedEnv : List (List UInt8) :=
  ["PATH=/usr/bin", "TOKEN=secret"].map fun item ↦ envBytes item.toList

def configuredEnv : List String := ["PATH=/bin", "OPTS=--log=debug"]

/-- Two variables, one of them with an `=` in its value: both are set, and nothing is inherited. -/
theorem replaceEnvironment_configured : ∃ environ,
    replaceEnvironment true inheritedEnv configuredEnv = .ok (environ, .ok ()) ∧
      environ = configuredEnv.map (fun item ↦ envBytes item.toList) ∧
      getenv environ (envBytes "OPTS".toList) = some (envBytes "--log=debug".toList) ∧
      getenv environ (envBytes "TOKEN".toList) = none := by
  obtain ⟨environ, result, hreplace, hresult, hcleared⟩ :=
    (replaceEnvironment_of_validate configuredEnv).2 (by decide +kernel) inheritedEnv true
  obtain ⟨henviron, hget⟩ := hcleared rfl
  rw [hresult.mpr rfl] at hreplace
  refine ⟨environ, hreplace, henviron, (hget _ _ (by decide +kernel)).mpr ?_, ?_⟩
  · exact ⟨"OPTS=--log=debug", by decide +kernel, by decide +kernel, by decide +kernel⟩
  · cases hvalue : getenv environ (envBytes "TOKEN".toList) with
    | none => rfl
    | some value =>
      obtain ⟨item, hitem, hkey, -⟩ := (hget _ _ (by decide +kernel)).mp hvalue
      rcases List.mem_pair.mp hitem with rfl | rfl <;> exact absurd hkey (by decide +kernel)

end CrunRs
