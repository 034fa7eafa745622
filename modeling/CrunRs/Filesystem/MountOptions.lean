import CrunRs.Filesystem.Mounts
import CrunRs.Lib.Fold

/-!
# Mount options

`MountOptions::parse` reads the options of a mount from left to right into three variables.  Each
word is about one of them only, and about one flag: of the words that are about the same thing the
last one counts, wherever the others stand (`mem_flags_parse`, `propagation_parse`), and what is no
word of the runtime is passed on to the file system, in its order (`data_parse`).

The words are in a table (`optionArms`), so that a fact about the `match` is one about its lines.
-/

set_option autoImplicit false

namespace CrunRs.Filesystem

open Fold

/-! ## The words -/

/-- The words that the runtime knows, with what they do. -/
def optionArms : List (String × OptionEffect) :=
  [("defaults", .nothing), ("bind", .nothing), ("rbind", .nothing),
    ("ro", .set .rdonly), ("rw", .remove .rdonly),
    ("nosuid", .set .nosuid), ("suid", .remove .nosuid),
    ("nodev", .set .nodev), ("dev", .remove .nodev),
    ("noexec", .set .noexec), ("exec", .remove .noexec),
    ("sync", .set .synchronous), ("dirsync", .set .dirsync), ("remount", .set .remount),
    ("noatime", .set .noatime), ("atime", .remove .noatime), ("nodiratime", .set .nodiratime),
    ("relatime", .set .relatime), ("norelatime", .remove .relatime),
    ("strictatime", .set .strictatime), ("nostrictatime", .remove .strictatime),
    ("private", .propagate {.private_}), ("rprivate", .propagate {.private_, .recursive}),
    ("slave", .propagate {.slave}), ("rslave", .propagate {.slave, .recursive}),
    ("shared", .propagate {.shared}), ("rshared", .propagate {.shared, .recursive}),
    ("unbindable", .propagate {.unbindable}),
    ("runbindable", .propagate {.unbindable, .recursive})]

/-- The recognised words. -/
def recognisedOptions : List String := optionArms.map Prod.fst

/-- What holds of every line of the table, and of every other word as data, holds of all words. -/
theorem optionEffect_induction {P : String → OptionEffect → Prop}
    (harms : ∀ arm ∈ optionArms, P arm.1 arm.2)
    (hdata : ∀ option, option ∉ recognisedOptions → P option .data) (option : String) :
    P option (optionEffect option) := by
  by_cases hmem : option ∈ recognisedOptions
  · obtain ⟨arm, harm, rfl⟩ := List.mem_map.mp hmem
    have heffect : optionArms.map (fun arm ↦ optionEffect arm.1) = optionArms.map Prod.snd := rfl
    rw [List.map_inj_left.mp heffect arm harm]
    exact harms arm harm
  · have heffect : optionEffect option = .data := by
      rw [optionEffect.eq_def]
      split <;> first | rfl | exact absurd (by decide) hmem
    rw [heffect]
    exact hdata option hmem

/-- The pairs of words about a flag: the one that sets it, and the one that resets it. -/
def optionPairs : List (MsFlag × String × String) :=
  [(.rdonly, "ro", "rw"), (.nosuid, "nosuid", "suid"), (.nodev, "nodev", "dev"),
    (.noexec, "noexec", "exec"), (.noatime, "noatime", "atime"),
    (.relatime, "relatime", "norelatime"), (.strictatime, "strictatime", "nostrictatime")]

/-- The words that set a flag that no word resets. -/
def plainOptions : List (MsFlag × String) :=
  [(.synchronous, "sync"), (.dirsync, "dirsync"), (.remount, "remount"),
    (.nodiratime, "nodiratime")]

/-- The types of propagation. -/
def propagationTypes : List (String × MsFlag) :=
  [("private", .private_), ("slave", .slave), ("shared", .shared), ("unbindable", .unbindable)]

/-- The propagation that a word asks for; with an `r` in front it is recursive. -/
def propagationOf (option : String) : Option (Finset MsFlag) :=
  propagationTypes.findSome? fun (type, flag) ↦
    if option = type then some {flag}
    else if option = "r" ++ type then some {flag, .recursive}
    else none

/-! ## What a word does -/

/-- What an effect does to a flag. -/
def OptionEffect.writesFlag (flag : MsFlag) : OptionEffect → Option Bool
  | .set other => if other = flag then some true else none
  | .remove other => if other = flag then some false else none
  | .nothing | .propagate _ | .data => none

/-- The flag that an effect sets. -/
def OptionEffect.flagSet : OptionEffect → Option MsFlag
  | .set flag => some flag
  | .nothing | .remove _ | .propagate _ | .data => none

theorem OptionEffect.flagSet_of_writesFlag {effect : OptionEffect} {flag : MsFlag}
    (h : effect.writesFlag flag = some true) : effect.flagSet = some flag := by
  cases effect with
  | set other => simp_all [writesFlag, flagSet]
  | nothing | remove | propagate | data => simp_all [writesFlag]

/-- What an effect does to the propagation. -/
def OptionEffect.writesPropagation : OptionEffect → Option (Finset MsFlag)
  | .propagate flags => some flags
  | .nothing | .set _ | .remove _ | .data => none

/-- Whether a word is passed on. -/
def OptionEffect.isData : OptionEffect → Bool
  | .data => true
  | .nothing | .set _ | .remove _ | .propagate _ => false

theorem pair_recognised {flag : MsFlag} {on off : String} (h : (flag, on, off) ∈ optionPairs) :
    on ∈ recognisedOptions ∧ off ∈ recognisedOptions := by
  have hall : ∀ pair ∈ optionPairs,
      pair.2.1 ∈ recognisedOptions ∧ pair.2.2 ∈ recognisedOptions := by
    decide
  exact hall _ h

/-- A flag of a pair is written by the two words, and by no other. -/
theorem writesFlag_pair {flag : MsFlag} {on off : String} (h : (flag, on, off) ∈ optionPairs)
    (option : String) :
    (optionEffect option).writesFlag flag =
      if option = on then some true else if option = off then some false else none := by
  induction option using optionEffect_induction with
  | harms arm harm =>
    have hall : ∀ pair ∈ optionPairs, ∀ arm ∈ optionArms, arm.2.writesFlag pair.1 =
        if arm.1 = pair.2.1 then some true else if arm.1 = pair.2.2 then some false else none := by
      decide
    exact hall _ h arm harm
  | hdata option hoption =>
    obtain ⟨hon, hoff⟩ := pair_recognised h
    rw [if_neg (ne_of_mem_of_not_mem hon hoption).symm,
      if_neg (ne_of_mem_of_not_mem hoff hoption).symm]
    rfl

/-- A plain flag is written by its word only. -/
theorem writesFlag_plain {flag : MsFlag} {on : String} (h : (flag, on) ∈ plainOptions)
    (option : String) :
    (optionEffect option).writesFlag flag = if option = on then some true else none := by
  induction option using optionEffect_induction with
  | harms arm harm =>
    have hall : ∀ plain ∈ plainOptions, ∀ arm ∈ optionArms,
        arm.2.writesFlag plain.1 = if arm.1 = plain.2 then some true else none := by
      decide
    exact hall _ h arm harm
  | hdata option hoption =>
    have hall : ∀ plain ∈ plainOptions, plain.2 ∈ recognisedOptions := by decide
    rw [if_neg (ne_of_mem_of_not_mem (hall _ h) hoption).symm]
    rfl

/-- The flags of the two tables. -/
def optionFlags : List MsFlag := optionPairs.map Prod.fst ++ plainOptions.map Prod.fst

/-- No other flag is ever set. -/
theorem writesFlag_ne_true {flag : MsFlag} (h : flag ∉ optionFlags) (option : String) :
    (optionEffect option).writesFlag flag ≠ some true := by
  induction option using optionEffect_induction with
  | harms arm harm =>
    have hall : ∀ other ∈ optionArms.filterMap fun arm ↦ arm.2.flagSet, other ∈ optionFlags := by
      decide
    intro heq
    have hset := OptionEffect.flagSet_of_writesFlag heq
    exact h (hall _ (List.mem_filterMap.mpr ⟨arm, harm, hset⟩))
  | hdata => simp [OptionEffect.writesFlag]

theorem writesPropagation_eq (option : String) :
    (optionEffect option).writesPropagation = propagationOf option := by
  induction option using optionEffect_induction with
  | harms arm harm =>
    have hall : ∀ arm ∈ optionArms, arm.2.writesPropagation = propagationOf arm.1 := by decide
    exact hall arm harm
  | hdata option hoption =>
    have hall : ∀ type ∈ propagationTypes,
        type.1 ∈ recognisedOptions ∧ "r" ++ type.1 ∈ recognisedOptions := by
      decide
    refine (List.findSome?_eq_none_iff.mpr fun (type, flag) hmem ↦ ?_).symm
    obtain ⟨htype, hrec⟩ := hall _ hmem
    show (if option = type then some ({flag} : Finset MsFlag)
      else if option = "r" ++ type then some {flag, .recursive} else none) = none
    rw [if_neg (ne_of_mem_of_not_mem htype hoption).symm,
      if_neg (ne_of_mem_of_not_mem hrec hoption).symm]

theorem isData_eq (option : String) :
    (optionEffect option).isData = decide (option ∉ recognisedOptions) := by
  induction option using optionEffect_induction with
  | harms arm harm =>
    have hall : ∀ arm ∈ optionArms, arm.2.isData = decide (arm.1 ∉ recognisedOptions) := by decide
    exact hall arm harm
  | hdata option hoption => simp [OptionEffect.isData, hoption]

/-! ## What the loop does -/

/-- A flag among the variables of the loop. -/
def ParsedOptions.has (flag : MsFlag) (parsed : ParsedOptions) : Bool := flag ∈ parsed.flags

theorem ParsedOptions.has_add (flag : MsFlag) (parsed : ParsedOptions) (option : String) :
    (parsed.add option).has flag =
      ((optionEffect option).writesFlag flag).getD (parsed.has flag) := by
  rw [add]
  cases optionEffect option with
  | set other | remove other =>
    by_cases hflag : other = flag
    · simp [has, OptionEffect.writesFlag, hflag]
    · simp [has, OptionEffect.writesFlag, hflag, Ne.symm hflag]
  | nothing | propagate | data => rfl

theorem ParsedOptions.propagation_add (parsed : ParsedOptions) (option : String) :
    (parsed.add option).propagation = (propagationOf option).or parsed.propagation := by
  rw [← writesPropagation_eq, add]
  cases optionEffect option <;> rfl

theorem ParsedOptions.data_add (parsed : ParsedOptions) (option : String) :
    (parsed.add option).data =
      parsed.data ++ (Option.guard (fun word ↦ decide (word ∉ recognisedOptions)) option).toList := by
  rw [Option.guard, ← isData_eq, add]
  cases optionEffect option with
  | data => rfl
  | nothing | set | remove | propagate => exact (List.append_nil _).symm

/-! ## What is parsed -/

/-- **A flag is what was last written to it.** -/
theorem mem_flags_parse {flag : MsFlag} {options : List String} :
    flag ∈ (MountOptions.parse options).flags ↔
      lastWrite (fun option ↦ (optionEffect option).writesFlag flag) options = some true := by
  have hlast := get_foldl_of_overwrite (ParsedOptions.has_add flag) {} options
  have hfirst : ParsedOptions.has flag {} = false := rfl
  rw [hfirst] at hlast
  rw [← decide_eq_true_iff (p := flag ∈ _)]
  refine (congrArg (· = true) hlast).to_iff.trans ?_
  cases lastWrite (fun option ↦ (optionEffect option).writesFlag flag) options <;> simp

/-- **The propagation is the last one asked for.** -/
theorem propagation_parse (options : List String) :
    (MountOptions.parse options).propagation = (options.filterMap propagationOf).getLast? := by
  have hlast := get_foldl_of_or ParsedOptions.propagation_add {} options
  exact hlast.trans (Option.or_none ..)

/-- **The data is what was not recognised.** -/
theorem data_parse (options : List String) :
    (MountOptions.parse options).data =
      if options.filter (· ∉ recognisedOptions) = [] then none
      else some (",".intercalate (options.filter (· ∉ recognisedOptions))) := by
  have hdata := get_foldl_of_append ParsedOptions.data_add {} options
  rw [List.filterMap_eq_filter, List.nil_append] at hdata
  simp only [MountOptions.parse, hdata]

/-- Of the two words about a flag the last one decides. -/
theorem mem_flags_parse_pair {flag : MsFlag} {on off : String}
    (h : (flag, on, off) ∈ optionPairs) (options : List String) :
    flag ∈ (MountOptions.parse options).flags ↔
      (options.filter fun option ↦ option = on ∨ option = off).getLast? = some on := by
  rw [mem_flags_parse, funext (writesFlag_pair h), lastWrite_pair]

/-- A plain flag is set where its word is. -/
theorem mem_flags_parse_plain {flag : MsFlag} {on : String} (h : (flag, on) ∈ plainOptions)
    (options : List String) : flag ∈ (MountOptions.parse options).flags ↔ on ∈ options := by
  rw [mem_flags_parse, funext (writesFlag_plain h), lastWrite_present]

/-- Nothing else is set. -/
theorem mem_optionFlags_of_mem_flags {flag : MsFlag} {options : List String}
    (h : flag ∈ (MountOptions.parse options).flags) : flag ∈ optionFlags := by
  obtain ⟨option, -, hwrites⟩ := exists_of_lastWrite (mem_flags_parse.mp h)
  by_contra hflag
  exact writesFlag_ne_true hflag option hwrites

/-- **Parsing mount options**: each word is about one thing, and of the words about the same thing
the last one counts. -/
theorem parse_spec (options : List String) :
    (∀ flag on off, (flag, on, off) ∈ optionPairs →
      (flag ∈ (MountOptions.parse options).flags ↔
        (options.filter fun option ↦ option = on ∨ option = off).getLast? = some on)) ∧
    (∀ flag on, (flag, on) ∈ plainOptions →
      (flag ∈ (MountOptions.parse options).flags ↔ on ∈ options)) ∧
    (MountOptions.parse options).propagation = (options.filterMap propagationOf).getLast? ∧
    (∀ flag ∈ (MountOptions.parse options).flags,
      flag ∉ [MsFlag.private_, .slave, .shared, .unbindable, .recursive]) ∧
    (MountOptions.parse options).data =
      if options.filter (· ∉ recognisedOptions) = [] then none
      else some (",".intercalate (options.filter (· ∉ recognisedOptions))) := by
  refine ⟨fun _ _ _ h ↦ mem_flags_parse_pair h options,
    fun _ _ h ↦ mem_flags_parse_plain h options, propagation_parse options, fun flag h ↦ ?_,
    data_parse options⟩
  have hall : ∀ flag ∈ optionFlags,
      flag ∉ [MsFlag.private_, .slave, .shared, .unbindable, .recursive] := by
    decide
  exact hall flag (mem_optionFlags_of_mem_flags h)

end CrunRs.Filesystem
