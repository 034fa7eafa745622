import CrunRs.Filesystem.MountOptions

/-!
# What the options of a mount come to

`setup_filesystem_mount` and `setup_bind_mount` of `filesystem/mod.rs` are given options in the same
language.  The first one reads them with `MountOptions::parse`, from left to right, so that of two
options about one thing the last one counts.  The second one asks whether `ro` is among them, and
whether `rbind` or `rshared` is.

What a mount is left with is read off the calls that were made for it (`MountSettings.ofEffects`).  A
filesystem has what its options say (`setupFilesystemMount_settings`).  A bind has it exactly if the
options say nothing of `nosuid`, `nodev` and `noexec` or take it back, do not take back `ro`, and say
nothing of the propagation (`setupBindMount_settings_iff`).
-/

set_option autoImplicit false

namespace CrunRs.Filesystem

open Fold

/-! ## The settings of a mount -/

/-- The flags of one mount that restrict what can be done through it. -/
def restrictions : Finset MsFlag := {.rdonly, .nosuid, .nodev, .noexec}

/-- The flags that ask for a type of propagation. -/
def propagations : Finset MsFlag := {.private_, .slave, .shared, .unbindable}

/-- What a mount is left with: its restrictions, and the propagation that was asked for. -/
structure MountSettings where
  restrictions : Finset MsFlag := ∅
  propagation : Option (Finset MsFlag) := none
  deriving DecidableEq

/-- What `mount(2)` does to the settings.  A change of the propagation changes nothing else.  A bind that
is no remount takes no restrictions from its flags: the mount has those of its source, which here
has none.  Any other call replaces the restrictions. -/
def MountSettings.apply (settings : MountSettings) (call : MountCall) : MountSettings :=
  if .bind ∈ call.flags ∧ .remount ∉ call.flags then settings
  else if call.flags ∩ propagations ≠ ∅ then { settings with propagation := some call.flags }
  else { settings with restrictions := call.flags ∩ Filesystem.restrictions }

/-- The settings that come of what was done for a mount. -/
def MountSettings.ofEffects (effects : List MountEffect) : MountSettings :=
  effects.foldl (fun settings effect ↦
    match effect with
    | .mount call => settings.apply call
    | .rollback _ => {}) {}

/-- The settings that `MountOptions::parse` makes of the options. -/
def MountOptions.settings (options : MountOptions) : MountSettings where
  restrictions := options.flags ∩ Filesystem.restrictions
  propagation := options.propagation

/-! ## Options that take each other back -/

/-- An option is given, and after it never the one that takes it back. -/
def SwitchedOn (on off : String) (options : List String) : Prop :=
  ∃ before after, options = before ++ on :: after ∧ off ∉ after

theorem switchedOn_nil (on off : String) : ¬ SwitchedOn on off [] := by
  rintro ⟨before, after, h, -⟩
  exact List.append_ne_nil_of_right_ne_nil before (List.cons_ne_nil on after) h.symm

theorem switchedOn_concat {on off : String} {options : List String} {option : String} :
    SwitchedOn on off (options ++ [option]) ↔
      option = on ∨ (SwitchedOn on off options ∧ option ≠ off) := by
  constructor
  · rintro ⟨before, after, h, hoff⟩
    rcases List.eq_nil_or_concat after with rfl | ⟨init, last, rfl⟩
    · exact .inl (List.cons.inj (List.append_inj' h rfl).2).1
    · rw [List.concat_eq_append] at h hoff
      rw [← List.cons_append, ← List.append_assoc] at h
      obtain ⟨rfl, hlast⟩ := List.append_inj' h rfl
      obtain rfl : option = last := (List.cons.inj hlast).1
      rw [List.mem_append, not_or, List.mem_singleton] at hoff
      exact .inr ⟨⟨before, init, rfl, hoff.1⟩, Ne.symm hoff.2⟩
  · rintro (rfl | ⟨⟨before, after, rfl, hoff⟩, hne⟩)
    · exact ⟨options, [], rfl, List.not_mem_nil⟩
    · refine ⟨before, after ++ [option], by simp, ?_⟩
      rw [List.mem_append, not_or, List.mem_singleton]
      exact ⟨hoff, Ne.symm hne⟩

/-- The restrictions, the options that ask for them, and those that take them back. -/
def switches : List (MsFlag × String × String) :=
  [(.rdonly, "ro", "rw"), (.nosuid, "nosuid", "suid"), (.nodev, "nodev", "dev"),
    (.noexec, "noexec", "exec")]

theorem mem_optionPairs_of_mem_switches {flag : MsFlag} {on off : String}
    (h : (flag, on, off) ∈ switches) : (flag, on, off) ∈ optionPairs := by
  have hall : ∀ switch ∈ switches, switch ∈ optionPairs := by decide
  exact hall _ h

theorem switchedOn_iff_lastWrite {on off : String} {options : List String} :
    SwitchedOn on off options ↔
      lastWrite (fun option ↦ if option = on then some true
        else if option = off then some false else none) options = some true := by
  induction options using List.reverseRecOn with
  | nil => simp [switchedOn_nil]
  | append_singleton options option ih =>
    rw [switchedOn_concat, ih, lastWrite_concat]
    by_cases hon : option = on
    · simp [hon]
    · by_cases hoff : option = off
      · subst hoff
        simp [hon]
      · simp [hon, hoff]

/-- Of a pair of options the last one decides about the flag. -/
theorem mem_flags_parse_iff {flag : MsFlag} {on off : String} (h : (flag, on, off) ∈ switches)
    {options : List String} :
    flag ∈ (MountOptions.parse options).flags ↔ SwitchedOn on off options := by
  rw [mem_flags_parse, switchedOn_iff_lastWrite,
    funext (writesFlag_pair (mem_optionPairs_of_mem_switches h))]

/-- The options that ask for a type of propagation. -/
def propagationOptions : List String :=
  ["private", "rprivate", "slave", "rslave", "shared", "rshared", "unbindable", "runbindable"]

theorem propagationOf_eq_none_iff {option : String} :
    propagationOf option = none ↔ option ∉ propagationOptions := by
  rw [← writesPropagation_eq]
  induction option using optionEffect_induction with
  | harms arm harm =>
    have hall : ∀ arm ∈ optionArms,
        arm.2.writesPropagation = none ↔ arm.1 ∉ propagationOptions := by
      decide
    exact hall arm harm
  | hdata option hoption =>
    have hall : ∀ option ∈ propagationOptions, option ∈ recognisedOptions := by decide
    exact iff_of_true rfl fun hmem ↦ hoption (hall option hmem)

/-- No option is about the propagation exactly if none is asked for. -/
theorem propagation_parse_eq_none_iff {options : List String} :
    (MountOptions.parse options).propagation = none ↔
      ∀ option ∈ options, option ∉ propagationOptions := by
  rw [propagation_parse, List.getLast?_eq_none_iff, List.filterMap_eq_nil_iff]
  simp only [propagationOf_eq_none_iff]

theorem propagationOf_flags {option : String} {flags : Finset MsFlag}
    (h : propagationOf option = some flags) : flags ∩ propagations ≠ ∅ ∧ .bind ∉ flags := by
  rw [← writesPropagation_eq] at h
  induction option using optionEffect_induction with
  | harms arm harm =>
    have hall : ∀ flags ∈ optionArms.filterMap fun arm ↦ arm.2.writesPropagation,
        flags ∩ propagations ≠ ∅ ∧ .bind ∉ flags := by
      decide
    exact hall flags (List.mem_filterMap.mpr ⟨arm, harm, h⟩)
  | hdata => cases h

/-- The loop keeps the types of propagation apart from the other flags. -/
theorem flags_parse (options : List String) :
    (∀ flag ∈ (MountOptions.parse options).flags, flag ∉ propagations ∧ flag ≠ .bind) ∧
      ∀ flags, (MountOptions.parse options).propagation = some flags →
        flags ∩ propagations ≠ ∅ ∧ .bind ∉ flags := by
  constructor
  · intro flag hflag
    have hall : ∀ flag ∈ optionFlags, flag ∉ propagations ∧ flag ≠ .bind := by decide
    exact hall flag (mem_optionFlags_of_mem_flags hflag)
  · intro flags hflags
    rw [propagation_parse] at hflags
    obtain ⟨option, -, hoption⟩ := List.mem_filterMap.mp (List.mem_of_getLast? hflags)
    exact propagationOf_flags hoption

/-! ## What the calls come to -/

variable {lossy : ByteArray → String} {answers : MountAnswers} {rootfs : OsPath} {mount : Mount}
  {effects : List MountEffect}

/-- A mount that succeeds, and the change of its propagation, if there is one. -/
theorem setupFilesystemMount_settings
    (h : setupFilesystemMount lossy answers rootfs mount = (effects, .ok ())) :
    MountSettings.ofEffects effects = (MountOptions.parse mount.options).settings := by
  obtain ⟨hflags, hpropagation⟩ := flags_parse mount.options
  have hbind : .bind ∉ (MountOptions.parse mount.options).flags := fun hbind ↦
    (hflags .bind hbind).2 rfl
  have hnone : (MountOptions.parse mount.options).flags ∩ propagations = ∅ :=
    Finset.eq_empty_iff_forall_notMem.mpr fun flag hflag ↦
      (hflags flag (Finset.mem_inter.mp hflag).1).1 (Finset.mem_inter.mp hflag).2
  rw [setupFilesystemMount] at h
  split at h
  · simp at h
  simp only at h
  split at h
  · simp at h
  split at h
  · rename_i hparse
    obtain ⟨rfl, -⟩ := Prod.mk.inj h
    simp [MountSettings.ofEffects, MountSettings.apply, MountOptions.settings, hbind, hnone, hparse]
  · rename_i flags hparse
    obtain ⟨hsome, hbind'⟩ := hpropagation flags hparse
    split at h
    · simp at h
    · obtain ⟨rfl, -⟩ := Prod.mk.inj h
      simp [MountSettings.ofEffects, MountSettings.apply, MountOptions.settings, hbind, hnone, hparse,
        hbind', hsome]

/-- Of its options a bind takes `ro`. -/
theorem setupBindMount_settings
    (h : setupBindMount lossy answers rootfs mount = (effects, .ok ())) :
    MountSettings.ofEffects effects =
      { restrictions := if "ro" ∈ mount.options then {.rdonly} else ∅ } := by
  rw [setupBindMount] at h
  split at h
  · simp at h
  split at h
  · simp at h
  split at h
  · simp at h
  simp only at h
  split at h
  · simp at h
  split at h
  · rename_i hro
    replace hro : "ro" ∈ mount.options := by simpa using hro
    split at h
    · simp at h
    obtain ⟨rfl, -⟩ := Prod.mk.inj h
    rw [if_pos hro]
    split_ifs
    · rfl
    · rfl
  · rename_i hro
    replace hro : "ro" ∉ mount.options := by simpa using hro
    obtain ⟨rfl, -⟩ := Prod.mk.inj h
    rw [if_neg hro]
    split_ifs
    · rfl
    · rfl

/-- There is a bind that succeeds, whatever its options are. -/
theorem exists_setupBindMount_ok (lossy : ByteArray → String) (options : List String) :
    ∃ answers rootfs mount effects, mount.options = options ∧
      setupBindMount lossy answers rootfs mount = (effects, .ok ()) := by
  obtain ⟨path, hpath⟩ := (@exists_containerMountDestination_iff ⟨[]⟩ "/data").mpr (by decide)
  refine ⟨⟨some true, fun _ _ ↦ .ok 3, true, true⟩, ⟨[]⟩, ⟨"/data", some "/srv", "bind", options⟩, ?_⟩
  have hprepare : prepareMountDestination ⟨some true, fun _ _ ↦ .ok 3, true, true⟩ ⟨[]⟩ "/data" true =
      .ok ⟨path, 3⟩ := by
    rw [prepareMountDestination, hpath]
    rfl
  simp only [setupBindMount, hprepare, Bool.not_true, Bool.false_eq_true, if_false]
  split
  · exact ⟨_, trivial, rfl⟩
  · exact ⟨_, trivial, rfl⟩

/-- The options on which the two agree. -/
structure BindAgrees (options : List String) : Prop where
  ro : "ro" ∈ options → SwitchedOn "ro" "rw" options
  nosuid : ¬ SwitchedOn "nosuid" "suid" options
  nodev : ¬ SwitchedOn "nodev" "dev" options
  noexec : ¬ SwitchedOn "noexec" "exec" options
  propagation : ∀ option ∈ options, option ∉ propagationOptions

theorem SwitchedOn.mem {on off : String} {options : List String} (h : SwitchedOn on off options) :
    on ∈ options := by
  obtain ⟨before, after, rfl, -⟩ := h
  exact List.mem_append_right before List.mem_cons_self

theorem bindAgrees_iff {options : List String} :
    BindAgrees options ↔
      ({ restrictions := if "ro" ∈ options then {.rdonly} else ∅ } : MountSettings) =
        (MountOptions.parse options).settings := by
  have hrdonly := @mem_flags_parse_iff .rdonly "ro" "rw" (by decide) options
  have hnosuid := @mem_flags_parse_iff .nosuid "nosuid" "suid" (by decide) options
  have hnodev := @mem_flags_parse_iff .nodev "nodev" "dev" (by decide) options
  have hnoexec := @mem_flags_parse_iff .noexec "noexec" "exec" (by decide) options
  have hro (flag : MsFlag) :
      flag ∈ (if "ro" ∈ options then {.rdonly} else ∅ : Finset MsFlag) ↔
        "ro" ∈ options ∧ flag = .rdonly := by
    split_ifs with h <;> simp [h]
  rw [MountOptions.settings, MountSettings.mk.injEq, Finset.ext_iff, @eq_comm _ none,
    propagation_parse_eq_none_iff]
  simp only [hro, Finset.mem_inter]
  constructor
  · intro h
    refine ⟨fun flag ↦ ?_, h.propagation⟩
    cases flag with
    | rdonly => simpa [hrdonly, restrictions] using ⟨h.ro, SwitchedOn.mem⟩
    | nosuid => simpa [hnosuid, restrictions] using h.nosuid
    | nodev => simpa [hnodev, restrictions] using h.nodev
    | noexec => simpa [hnoexec, restrictions] using h.noexec
    | _ => simp [restrictions]
  · rintro ⟨hflags, hpropagation⟩
    exact {
      ro := fun hmem ↦ hrdonly.mp ((hflags .rdonly).mp ⟨hmem, rfl⟩).1
      nosuid := fun hon ↦ by simpa using (hflags .nosuid).mpr ⟨hnosuid.mpr hon, by decide⟩
      nodev := fun hon ↦ by simpa using (hflags .nodev).mpr ⟨hnodev.mpr hon, by decide⟩
      noexec := fun hon ↦ by simpa using (hflags .noexec).mpr ⟨hnoexec.mpr hon, by decide⟩
      propagation := hpropagation }

/-- **What the options of a bind come to.**  Whichever of the two sets a mount up, the mount has the
settings its options say exactly if they are among those on which the two agree. -/
theorem setupBindMount_settings_iff (lossy : ByteArray → String) (options : List String) :
    (∀ answers rootfs mount effects, mount.options = options →
        (setupBindMount lossy answers rootfs mount = (effects, .ok ()) ∨
          setupFilesystemMount lossy answers rootfs mount = (effects, .ok ())) →
        MountSettings.ofEffects effects = (MountOptions.parse options).settings) ↔
      BindAgrees options := by
  rw [bindAgrees_iff]
  constructor
  · intro h
    obtain ⟨answers, rootfs, mount, effects, rfl, hbind⟩ := exists_setupBindMount_ok lossy options
    rw [← h answers rootfs mount effects rfl (.inl hbind), setupBindMount_settings hbind]
  · rintro h answers rootfs mount effects rfl (hbind | hfilesystem)
    · rw [setupBindMount_settings hbind, h]
    · exact setupFilesystemMount_settings hfilesystem

/-- A bind with `nosuid` is not one. -/
theorem nosuid_bind_allows_suid :
    (setupBindMount (fun _ ↦ "") ⟨some true, fun _ _ ↦ .ok 3, true, true⟩ (OsPath.ofString "/rootfs")
        ⟨"/data", some "/srv", "bind", ["bind", "nosuid"]⟩).2 = .ok () ∧
      MountSettings.ofEffects (setupBindMount (fun _ ↦ "") ⟨some true, fun _ _ ↦ .ok 3, true, true⟩
        (OsPath.ofString "/rootfs") ⟨"/data", some "/srv", "bind", ["bind", "nosuid"]⟩).1 = {} ∧
      (MountOptions.parse ["bind", "nosuid"]).settings = { restrictions := {.nosuid} } := by
  decide

end CrunRs.Filesystem
