import CrunRs.Error
import CrunRs.Lib.Fallible
import CrunRs.Lib.OsPath
import CrunRs.Lib.PathWalk

/-!
# Archives of a rootfs

`preflight_archive` of `image.rs` goes through an archive before anything is unpacked.  It bounds how
many files there are, how large each of them is and how large they are together, and it refuses
what a rootfs cannot have: paths and targets that lead up, absolute hard links, devices
(`preflightArchive_eq_ok_iff`).

Absolute symbolic links it lets pass, because a rootfs is full of them.  They are followed inside the
container only, but an archive may have them in front of a path that leads through them.  An
accepted archive without any stays below the rootfs whoever unpacks it, as long as he goes by the paths
of the entries (`unpacked_below_rootfs`); with one it is up to the `tar` library to refuse what
follows.
-/

set_option autoImplicit false

namespace CrunRs.Image

open PathWalk

/-! ## Entries -/

/-- `EntryType`. -/
inductive EntryType
  | regular
  | link
  | symlink
  | char
  | block
  | directory
  | fifo
  | continuous
  | other (byte : UInt8)
  deriving DecidableEq, Repr

/-- An entry as the `tar` library reads it; a name that cannot be read is `none`. -/
structure Entry where
  path : Option OsPath
  entryType : EntryType
  size : UInt64
  linkName : Option (Option OsPath)

/-- An archive: its size if it can be asked for, whether it can be opened, and its entries. -/
structure Archive where
  size : Option UInt64
  opens : Bool
  entries : Option (List (Option Entry))

/-! ## The check -/

/-- `MAX_ARCHIVE_BYTES`. -/
def maxArchiveBytes : Nat := 4294967296

/-- `MAX_ARCHIVE_ENTRIES`. -/
def maxArchiveEntries : Nat := 100000

/-- `MAX_ARCHIVE_FILE_BYTES`. -/
def maxArchiveFileBytes : Nat := 536870912

/-- `MAX_ARCHIVE_UNPACKED_BYTES`. -/
def maxArchiveUnpackedBytes : Nat := 4294967296

/-- `u64::saturating_add`. -/
def saturatingAdd (a b : Nat) : Nat := min (a + b) 18446744073709551615

/-- The part `..`. -/
def upwards : List UInt8 := [46, 46]

variable (lossy : ByteArray → String)

/-- `validate_archive_path`. -/
def validateArchivePath (path : OsPath) : Except ImageError Unit :=
  if path.isAbsolute || path.components.contains upwards then
    .error (.archivePathEscapesRootfs (path.display lossy))
  else .ok ()

/-- `validate_link_target`. -/
def validateLinkTarget (path target : OsPath) (allowAbsolute : Bool) : Except ImageError Unit :=
  if (!allowAbsolute && target.isAbsolute) || target.components.contains upwards then
    .error (.archivePathEscapesRootfs (path.display lossy ++ " -> " ++ target.display lossy))
  else .ok ()

/-- `archive_entry_kind`. -/
def archiveEntryKind : EntryType → String
  | .char => "character device"
  | .block => "block device"
  | .fifo => "fifo"
  | _ => "unsupported"

/-- What the loop counts. -/
structure Tally where
  entries : Nat := 0
  unpackedBytes : Nat := 0
  deriving DecidableEq, Repr

/-- A link has a target, and a valid one. -/
def checkLink (path : OsPath) (linkName : Option (Option OsPath)) (kind : String)
    (allowAbsolute : Bool) : Except ImageError Unit :=
  match linkName with
  | none => .error (.context ("failed to read rootfs " ++ kind ++ " target"))
  | some none => .error (.archiveLinkTargetMissing (path.display lossy))
  | some (some target) => validateLinkTarget lossy path target allowAbsolute

/-- The part of the loop that depends on what the entry is. -/
def checkType (unpackedBytes : Nat) (path : OsPath) (entry : Entry) : Except ImageError Nat :=
  match entry.entryType with
  | .regular | .continuous => do
    if entry.size.toNat > maxArchiveFileBytes then
      .error (.archiveFileTooLarge (path.display lossy) entry.size.toNat maxArchiveFileBytes)
    else if saturatingAdd unpackedBytes entry.size.toNat > maxArchiveUnpackedBytes then
      .error (.archiveTooLarge maxArchiveUnpackedBytes)
    else .ok (saturatingAdd unpackedBytes entry.size.toNat)
  | .symlink => do
    checkLink lossy path entry.linkName "symlink" true
    .ok unpackedBytes
  | .link => do
    checkLink lossy path entry.linkName "hardlink" false
    .ok unpackedBytes
  | .directory => .ok unpackedBytes
  | kind => .error (.unsupportedArchiveEntry (path.display lossy) (archiveEntryKind kind))

/-- One round of the loop. -/
def checkEntry (tally : Tally) : Option Entry → Except ImageError Tally
  | none => .error (.context "failed to read rootfs archive entry")
  | some entry =>
    let entries := saturatingAdd tally.entries 1
    if entries > maxArchiveEntries then .error (.archiveTooManyEntries maxArchiveEntries)
    else match entry.path with
    | none => .error (.context "failed to read rootfs archive path")
    | some path => do
      validateArchivePath lossy path
      let unpackedBytes ← checkType lossy tally.unpackedBytes path entry
      .ok { entries, unpackedBytes }

/-- `preflight_archive`. -/
def preflightArchive (name : String) (archive : Archive) : Except ImageError Unit :=
  match archive.size with
  | none => .error (.context ("failed to stat rootfs archive: " ++ name))
  | some size =>
    if size.toNat > maxArchiveBytes then .error (.archiveTooLarge maxArchiveBytes)
    else if !archive.opens then .error (.context ("failed to open rootfs archive: " ++ name))
    else match archive.entries with
    | none => .error (.context "failed to read rootfs archive")
    | some entries => do
      let _ ← entries.foldlM (checkEntry lossy) {}
      .ok ()

/-! ## What is accepted -/

/-- A path that does not lead up. -/
def Level (path : OsPath) : Prop := upwards ∉ path.components

/-- The bytes that an entry takes once it is unpacked. -/
def Entry.bytes (entry : Entry) : Nat :=
  match entry.entryType with
  | .regular | .continuous => entry.size.toNat
  | _ => 0

/-- What may be in an archive: a path that stays in the rootfs, and a file of a bounded size, a
directory, a symbolic link that does not lead up, or a hard link that does not leave. -/
structure Entry.Acceptable (entry : Entry) : Prop where
  path : ∃ path, entry.path = some path ∧ path.isAbsolute = false ∧ Level path
  kind : entry.entryType ∈ [.regular, .continuous, .symlink, .link, .directory]
  bytes : entry.bytes ≤ maxArchiveFileBytes
  symlink : entry.entryType = .symlink → ∃ target, entry.linkName = some (some target) ∧ Level target
  hardlink : entry.entryType = .link → ∃ target, entry.linkName = some (some target) ∧
    target.isAbsolute = false ∧ Level target

theorem validateArchivePath_eq_ok_iff {path : OsPath} :
    validateArchivePath lossy path = .ok () ↔ path.isAbsolute = false ∧ Level path := by
  rw [validateArchivePath]
  split
  · rename_i h
    simp only [reduceCtorEq, false_iff, not_and]
    intro habsolute hlevel
    rcases Bool.or_eq_true_iff.mp h with h | h
    · rw [habsolute] at h
      cases h
    · exact hlevel (List.contains_iff_mem.mp h)
  · rename_i h
    obtain ⟨habsolute, hlevel⟩ := not_or.mp (mt Bool.or_eq_true_iff.mpr h)
    exact iff_of_true rfl
      ⟨Bool.eq_false_iff.mpr habsolute, mt List.contains_iff_mem.mpr hlevel⟩

theorem checkLink_eq_ok_iff {path : OsPath} {linkName : Option (Option OsPath)} {kind : String}
    {allowAbsolute : Bool} :
    checkLink lossy path linkName kind allowAbsolute = .ok () ↔ ∃ target,
      linkName = some (some target) ∧ (allowAbsolute = false → target.isAbsolute = false) ∧
        Level target := by
  cases linkName with
  | none => simp [checkLink]
  | some target =>
    cases target with
    | none => simp [checkLink]
    | some target =>
      rw [checkLink, validateLinkTarget]
      cases allowAbsolute <;> cases habsolute : target.isAbsolute <;> simp [habsolute, Level]

theorem saturatingAdd_le_iff {a b limit : Nat} (hlimit : limit < 18446744073709551615) :
    saturatingAdd a b ≤ limit ↔ a + b ≤ limit := by
  rw [saturatingAdd]
  omega

/-- The part that depends on the type, for a path that is in order. -/
theorem checkType_eq_ok_iff {unpackedBytes unpackedBytes' : Nat} {path : OsPath} {entry : Entry}
    (hunpacked : unpackedBytes ≤ maxArchiveUnpackedBytes) (hpath : entry.path = some path)
    (habsolute : path.isAbsolute = false) (hlevel : Level path) :
    checkType lossy unpackedBytes path entry = .ok unpackedBytes' ↔
      entry.Acceptable ∧ unpackedBytes + entry.bytes ≤ maxArchiveUnpackedBytes ∧
        unpackedBytes' = unpackedBytes + entry.bytes := by
  have hfile : entry.entryType ∈ [.regular, .continuous] →
      (checkType lossy unpackedBytes path entry = .ok unpackedBytes' ↔
        entry.Acceptable ∧ unpackedBytes + entry.bytes ≤ maxArchiveUnpackedBytes ∧
          unpackedBytes' = unpackedBytes + entry.bytes) := by
    intro htype
    have hbytes : entry.bytes = entry.size.toNat := by
      rcases List.mem_pair.mp htype with h | h <;> simp [Entry.bytes, h]
    have hsum := @saturatingAdd_le_iff unpackedBytes entry.size.toNat maxArchiveUnpackedBytes
      (by decide)
    have hcheck : checkType lossy unpackedBytes path entry =
        if entry.size.toNat > maxArchiveFileBytes then
          .error (.archiveFileTooLarge (path.display lossy) entry.size.toNat maxArchiveFileBytes)
        else if saturatingAdd unpackedBytes entry.size.toNat > maxArchiveUnpackedBytes then
          .error (.archiveTooLarge maxArchiveUnpackedBytes)
        else .ok (saturatingAdd unpackedBytes entry.size.toNat) := by
      rcases List.mem_pair.mp htype with h | h <;> simp only [checkType, h]
    have hacceptable : entry.size.toNat ≤ maxArchiveFileBytes → entry.Acceptable := by
      intro hle
      refine ⟨⟨path, hpath, habsolute, hlevel⟩, ?_, hbytes ▸ hle, ?_, ?_⟩
      · rcases List.mem_pair.mp htype with h | h <;> simp [h]
      · rcases List.mem_pair.mp htype with h | h <;> simp [h]
      · rcases List.mem_pair.mp htype with h | h <;> simp [h]
    rw [hcheck, hbytes]
    by_cases hlarge : entry.size.toNat > maxArchiveFileBytes
    · rw [if_pos hlarge]
      refine iff_of_false (by simp) fun h ↦ Nat.not_le.mpr hlarge (hbytes ▸ h.1.bytes)
    rw [if_neg hlarge]
    by_cases htotal : saturatingAdd unpackedBytes entry.size.toNat > maxArchiveUnpackedBytes
    · rw [if_pos htotal]
      exact iff_of_false (by simp) fun h ↦ Nat.not_le.mpr htotal (hsum.mpr h.2.1)
    · have hle := hsum.mp (Nat.not_lt.mp htotal)
      have hexact : saturatingAdd unpackedBytes entry.size.toNat =
          unpackedBytes + entry.size.toNat := by
        have hlimit : maxArchiveUnpackedBytes < 18446744073709551615 := by decide
        rw [saturatingAdd]
        omega
      rw [if_neg htotal, hexact, Except.ok.injEq, and_iff_right (hacceptable (Nat.not_lt.mp hlarge)),
        and_iff_right hle, eq_comm]
  have hother : entry.entryType ∉ [.regular, .continuous] → entry.bytes = 0 := by
    intro htype
    simp only [List.mem_cons, List.not_mem_nil, or_false, not_or] at htype
    rw [Entry.bytes]
    split <;> simp_all
  cases htype : entry.entryType with
  | regular => exact hfile (by simp [htype])
  | continuous => exact hfile (by simp [htype])
  | directory =>
    have hzero := hother (by simp [htype])
    have hacceptable : entry.Acceptable :=
      ⟨⟨path, hpath, habsolute, hlevel⟩, by simp [htype], by simp [hzero], by simp [htype],
        by simp [htype]⟩
    simp only [checkType, htype, hzero, Nat.add_zero, Except.ok.injEq]
    rw [and_iff_right hacceptable, and_iff_right hunpacked, eq_comm]
  | symlink =>
    have hzero := hother (by simp [htype])
    have hacceptable : entry.Acceptable ↔
        checkLink lossy path entry.linkName "symlink" true = .ok () := by
      rw [checkLink_eq_ok_iff]
      constructor
      · intro h
        obtain ⟨target, htarget, hlevel⟩ := h.symlink htype
        exact ⟨target, htarget, by simp, hlevel⟩
      · rintro ⟨target, htarget, -, hlevel'⟩
        exact ⟨⟨path, hpath, habsolute, hlevel⟩, by simp [htype], by simp [hzero],
          fun _ ↦ ⟨target, htarget, hlevel'⟩, by simp [htype]⟩
    simp only [checkType, htype, hzero, Nat.add_zero]
    rw [hacceptable, Fallible.seq_eq_ok_iff, Except.ok.injEq, and_iff_right hunpacked,
      eq_comm (a := unpackedBytes)]
  | link =>
    have hzero := hother (by simp [htype])
    have hacceptable : entry.Acceptable ↔
        checkLink lossy path entry.linkName "hardlink" false = .ok () := by
      rw [checkLink_eq_ok_iff]
      constructor
      · intro h
        obtain ⟨target, htarget, hrelative, hlevel⟩ := h.hardlink htype
        exact ⟨target, htarget, fun _ ↦ hrelative, hlevel⟩
      · rintro ⟨target, htarget, hrelative, hlevel'⟩
        exact ⟨⟨path, hpath, habsolute, hlevel⟩, by simp [htype], by simp [hzero], by simp [htype],
          fun _ ↦ ⟨target, htarget, hrelative rfl, hlevel'⟩⟩
    simp only [checkType, htype, hzero, Nat.add_zero]
    rw [hacceptable, Fallible.seq_eq_ok_iff, Except.ok.injEq, and_iff_right hunpacked,
      eq_comm (a := unpackedBytes)]
  | _ =>
    simp only [checkType, htype]
    refine iff_of_false (by simp) fun h ↦ ?_
    have hkind := h.1.kind
    simp [htype] at hkind

/-- **One round** accepts what is acceptable, and counts it. -/
theorem checkEntry_eq_ok_iff {tally tally' : Tally} {entry : Entry}
    (htally : tally.unpackedBytes ≤ maxArchiveUnpackedBytes) :
    checkEntry lossy tally (some entry) = .ok tally' ↔
      entry.Acceptable ∧ tally.entries + 1 ≤ maxArchiveEntries ∧
        tally.unpackedBytes + entry.bytes ≤ maxArchiveUnpackedBytes ∧
          tally' = ⟨tally.entries + 1, tally.unpackedBytes + entry.bytes⟩ := by
  have hsum := @saturatingAdd_le_iff tally.entries 1 maxArchiveEntries (by decide)
  rw [checkEntry]
  by_cases hmany : saturatingAdd tally.entries 1 > maxArchiveEntries
  · rw [if_pos hmany]
    exact iff_of_false (by simp) fun h ↦ Nat.not_le.mpr hmany (hsum.mpr h.2.1)
  have hle := hsum.mp (Nat.not_lt.mp hmany)
  have hexact : saturatingAdd tally.entries 1 = tally.entries + 1 := by
    have hlimit : maxArchiveEntries < 18446744073709551615 := by decide
    rw [saturatingAdd]
    omega
  rw [if_neg hmany, hexact]
  cases hpath : entry.path with
  | none =>
    refine iff_of_false (by simp) fun h ↦ ?_
    obtain ⟨path, hsome, -⟩ := h.1.path
    rw [hpath] at hsome
    cases hsome
  | some path =>
    dsimp only
    rw [Fallible.seq_eq_ok_iff, validateArchivePath_eq_ok_iff, Fallible.bind_eq_ok_iff]
    constructor
    · rintro ⟨⟨habsolute, hlevel⟩, unpackedBytes, hcheck, htally'⟩
      obtain ⟨hacceptable, htotal, rfl⟩ :=
        (checkType_eq_ok_iff lossy htally hpath habsolute hlevel).mp hcheck
      exact ⟨hacceptable, hle, htotal, (Except.ok.inj htally').symm⟩
    · rintro ⟨hacceptable, -, htotal, rfl⟩
      obtain ⟨path', hsome, habsolute, hlevel⟩ := hacceptable.path
      obtain rfl := Option.some.inj (hpath.symm.trans hsome)
      exact ⟨⟨habsolute, hlevel⟩, _, (checkType_eq_ok_iff lossy htally hpath habsolute hlevel).mpr
        ⟨hacceptable, htotal, rfl⟩, rfl⟩

/-- The bytes that some entries take. -/
def totalBytes (entries : List (Option Entry)) : Nat :=
  entries.foldr (fun entry total ↦ (entry.map Entry.bytes).getD 0 + total) 0

/-- **The whole loop.** -/
theorem exists_foldlM_checkEntry_iff {entries : List (Option Entry)} {tally : Tally}
    (hcount : tally.entries ≤ maxArchiveEntries)
    (htally : tally.unpackedBytes ≤ maxArchiveUnpackedBytes) :
    (∃ tally', entries.foldlM (checkEntry lossy) tally = .ok tally') ↔
      (∀ entry ∈ entries, ∃ e : Entry, entry = some e ∧ e.Acceptable) ∧
        tally.entries + entries.length ≤ maxArchiveEntries ∧
          tally.unpackedBytes + totalBytes entries ≤ maxArchiveUnpackedBytes := by
  induction entries generalizing tally with
  | nil => exact iff_of_true ⟨tally, rfl⟩ ⟨by simp, hcount, htally⟩
  | cons entry entries ih =>
    simp only [List.foldlM_cons, Fallible.bind_eq_ok_iff, List.forall_mem_cons, List.length_cons,
      totalBytes, List.foldr_cons]
    cases entry with
    | none => simp [checkEntry]
    | some entry =>
      simp only [Option.map_some, Option.getD_some, Option.some.injEq, exists_eq_left',
        checkEntry_eq_ok_iff lossy htally]
      constructor
      · rintro ⟨tally'', tally', ⟨hacceptable, hentries, htotal, rfl⟩, hrest⟩
        obtain ⟨hall, hlength, hbytes⟩ := (ih hentries htotal).mp ⟨tally'', hrest⟩
        rw [totalBytes] at hbytes
        dsimp only at hlength hbytes
        exact ⟨⟨hacceptable, hall⟩, by omega, by omega⟩
      · rintro ⟨⟨hacceptable, hall⟩, hlength, hbytes⟩
        have hentries : tally.entries + 1 ≤ maxArchiveEntries := by omega
        have htotal : tally.unpackedBytes + entry.bytes ≤ maxArchiveUnpackedBytes := by omega
        obtain ⟨tally'', hrest⟩ := (@ih ⟨tally.entries + 1, tally.unpackedBytes + entry.bytes⟩
          hentries htotal).mpr ⟨hall, by dsimp only; omega, by rw [totalBytes]; dsimp only; omega⟩
        exact ⟨tally'', _, ⟨hacceptable, hentries, htotal, rfl⟩, hrest⟩

/-- An archive that is accepted. -/
structure Archive.Acceptable (archive : Archive) : Prop where
  size : ∃ size, archive.size = some size ∧ size.toNat ≤ maxArchiveBytes
  opens : archive.opens = true
  entries : ∃ entries, archive.entries = some entries ∧
    (∀ entry ∈ entries, ∃ e : Entry, entry = some e ∧ e.Acceptable) ∧
      entries.length ≤ maxArchiveEntries ∧ totalBytes entries ≤ maxArchiveUnpackedBytes

/-- **Which archives are accepted.** -/
theorem preflightArchive_eq_ok_iff {name : String} {archive : Archive} :
    preflightArchive lossy name archive = .ok () ↔ archive.Acceptable := by
  rw [preflightArchive]
  cases hsize : archive.size with
  | none =>
    refine iff_of_false (by simp) fun h ↦ ?_
    obtain ⟨size, hsome, -⟩ := h.size
    rw [hsize] at hsome
    cases hsome
  | some size =>
    dsimp only
    by_cases hlarge : size.toNat > maxArchiveBytes
    · rw [if_pos hlarge]
      refine iff_of_false (by simp) fun h ↦ ?_
      obtain ⟨size', hsome, hle⟩ := h.size
      rw [hsize, Option.some.injEq] at hsome
      exact Nat.not_le.mpr hlarge (hsome ▸ hle)
    rw [if_neg hlarge]
    cases hopens : archive.opens with
    | false =>
      refine iff_of_false (by simp) fun h ↦ ?_
      rw [h.opens] at hopens
      cases hopens
    | true =>
      rw [if_neg (by simp)]
      cases hentries : archive.entries with
      | none =>
        refine iff_of_false (by simp) fun h ↦ ?_
        obtain ⟨entries, hsome, -⟩ := h.entries
        rw [hentries] at hsome
        cases hsome
      | some entries =>
        dsimp only
        have hfold := @exists_foldlM_checkEntry_iff lossy entries {} (Nat.zero_le _) (Nat.zero_le _)
        simp only [Nat.zero_add] at hfold
        simp only [Fallible.bind_eq_ok_iff, and_true]
        rw [hfold]
        constructor
        · intro h
          exact ⟨⟨size, hsize, Nat.not_lt.mp hlarge⟩, hopens, entries, hentries, h⟩
        · intro h
          obtain ⟨entries', hsome, hall⟩ := h.entries
          rw [hentries, Option.some.injEq] at hsome
          exact hsome ▸ hall

/-! ## Unpacking what is accepted -/

/-- The parts of a path. -/
def pathParts (path : OsPath) : List (PathPart (List UInt8)) :=
  path.components.map fun part ↦ if part = upwards then .parent else .name part

/-- An entry as something to be unpacked. -/
def Entry.item (entry : Entry) : Option (Item (List UInt8)) :=
  entry.path.bind fun path ↦ match entry.entryType, entry.linkName with
    | .symlink, some (some target) =>
      some ⟨pathParts path, .symlink ⟨target.isAbsolute, pathParts target⟩⟩
    | .symlink, _ => none
    | .link, some (some target) => some ⟨pathParts path, .hardlink (pathParts target)⟩
    | .link, _ => none
    | _, _ => some ⟨pathParts path, .data⟩

/-- What there is to unpack. -/
def items (entries : List (Option Entry)) : List (Item (List UInt8)) :=
  entries.filterMap fun entry ↦ entry.bind Entry.item

theorem Level.pathParts {path : OsPath} (h : Level path) : .parent ∉ Image.pathParts path := by
  intro hmem
  obtain ⟨part, hpart, hparent⟩ := List.mem_map.mp hmem
  split at hparent
  · rename_i hupwards
    exact h (hupwards ▸ hpart)
  · cases hparent

/-- An entry that is acceptable, and whose target is relative if it has one, is plain. -/
theorem Entry.Acceptable.plain {entry : Entry} (h : entry.Acceptable)
    (hrelative : entry.entryType = .symlink → ∀ target, entry.linkName = some (some target) →
      target.isAbsolute = false) {item : Item (List UInt8)} (hitem : entry.item = some item) :
    item.Plain := by
  obtain ⟨path, hpath, -, hlevel⟩ := h.path
  rw [Entry.item, hpath, Option.bind_some] at hitem
  split at hitem
  · rename_i target htype hname
    obtain rfl := Option.some.inj hitem
    obtain ⟨target', htarget, hlevel'⟩ := h.symlink htype
    obtain rfl := Option.some.inj (Option.some.inj (hname.symm.trans htarget))
    refine ⟨hlevel.pathParts, ?_, by simp⟩
    rintro link hlink
    rw [← Item.Kind.symlink.inj hlink]
    exact ⟨hrelative htype target hname, hlevel'.pathParts⟩
  · cases hitem
  · rename_i target htype hname
    obtain rfl := Option.some.inj hitem
    obtain ⟨target', htarget, -, hlevel'⟩ := h.hardlink htype
    obtain rfl := Option.some.inj (Option.some.inj (hname.symm.trans htarget))
    refine ⟨hlevel.pathParts, by simp, ?_⟩
    rintro parts hparts
    rw [← Item.Kind.hardlink.inj hparts]
    exact hlevel'.pathParts
  · cases hitem
  · obtain rfl := Option.some.inj hitem
    exact ⟨hlevel.pathParts, by simp, by simp⟩

/-- **An accepted archive stays below the rootfs**, if none of its symbolic links is absolute: whoever
unpacks it by the paths of its entries, and whatever plain links are there already, nothing outside is
touched, neither through an earlier entry of the archive nor by a hard link. -/
theorem unpacked_below_rootfs {name : String} {archive : Archive} {entries : List (Option Entry)}
    {rootfs : List (List UInt8)} {links : Links (List UInt8)} {unpacker : Unpacker (List UInt8)}
    (hwalks : unpacker.Walks rootfs)
    (h : preflightArchive lossy name archive = .ok ()) (hentries : archive.entries = some entries)
    (hrelative : ∀ entry : Entry, some entry ∈ entries → entry.entryType = .symlink →
      ∀ target, entry.linkName = some (some target) → target.isAbsolute = false)
    (hlinks : PlainLinks rootfs links) :
    ∀ deed ∈ unpacker (items entries) links, rootfs <+: deed.place := by
  obtain ⟨entries', hsome, hall, -⟩ := ((preflightArchive_eq_ok_iff lossy).mp h).entries
  obtain rfl := Option.some.inj (hentries.symm.trans hsome)
  refine inside_goes (hwalks (items entries) links) hlinks fun item hitem ↦ ?_
  obtain ⟨entry, hentry, hitem⟩ := List.mem_filterMap.mp hitem
  obtain ⟨entry, rfl, hacceptable⟩ := hall entry hentry
  exact hacceptable.plain (hrelative entry hentry) hitem

/-- A library in a directory, a symbolic link to the directory, another library through that link, and
a hard link to it. -/
def librariesArchive : Archive where
  size := some 4096
  opens := true
  entries := some [some ⟨some (.ofString "usr/lib/ld.so"), .regular, 5, some none⟩,
    some ⟨some (.ofString "lib"), .symlink, 0, some (some (.ofString "usr/lib"))⟩,
    some ⟨some (.ofString "lib/libc.so"), .regular, 5, some none⟩,
    some ⟨some (.ofString "libc.so.6"), .link, 0, some (some (.ofString "lib/libc.so"))⟩]

/-- The rootfs it is unpacked to. -/
def sampleRootfs : List (List UInt8) := (OsPath.ofString "/image").components

theorem preflightArchive_libraries :
    preflightArchive (fun _ ↦ "") "libraries.tar" librariesArchive = .ok () := by
  decide +kernel

/-- What is reached, and how much of it is at another place than the entries are. -/
theorem unpacked_below_rootfs_libraries :
    preflightArchive (fun _ ↦ "") "libraries.tar" librariesArchive = .ok () ∧
      ((extract 9 sampleRootfs (items (librariesArchive.entries.getD [])) fun _ ↦ none).map
          Deed.place = ["/image", "/image/usr", "/image/usr/lib", "/image/usr/lib/ld.so",
        "/image", "/image/lib", "/image", "/image/usr/lib", "/image/usr/lib/libc.so",
        "/image", "/image/usr/lib/libc.so", "/image/libc.so.6"].map
          fun path ↦ (OsPath.ofString path).components) ∧
      ∀ deed ∈ extract 9 sampleRootfs (items (librariesArchive.entries.getD [])) fun _ ↦ none,
        sampleRootfs <+: deed.place := by
  have hrelative : ∀ entry : Entry, some entry ∈ librariesArchive.entries.getD [] →
      entry.entryType = .symlink → ∀ target, entry.linkName = some (some target) →
        target.isAbsolute = false := by
    intro entry hentry htype target htarget
    simp only [librariesArchive, Option.getD_some, List.mem_cons, Option.some.injEq, List.not_mem_nil,
      or_false] at hentry
    rcases hentry with rfl | rfl | rfl | rfl
    · cases htype
    · obtain rfl := Option.some.inj (Option.some.inj htarget)
      decide +kernel
    · cases htype
    · cases htype
  have hlinks : PlainLinks sampleRootfs fun _ ↦ none := by
    intro place _ link hlink
    cases hlink
  exact ⟨preflightArchive_libraries, by decide +kernel,
    @unpacked_below_rootfs (fun _ ↦ "") "libraries.tar" librariesArchive _ sampleRootfs _ _
      (walks_extract 9 sampleRootfs) preflightArchive_libraries rfl hrelative hlinks⟩

/-- A link to a directory of the host, and a file behind it. -/
def escapeArchive : Archive where
  size := some 2048
  opens := true
  entries := some [some ⟨some (.ofString "etc"), .symlink, 0, some (some (.ofString "/etc"))⟩,
    some ⟨some (.ofString "etc/passwd"), .regular, 5, some none⟩]

/-- It is accepted, and leads out of the rootfs. -/
theorem escapeArchive_escapes :
    preflightArchive (fun _ ↦ "") "escape.tar" escapeArchive = .ok () ∧
      (OsPath.ofString "/etc/passwd").components ∈
        (extract 9 sampleRootfs (items (escapeArchive.entries.getD [])) fun _ ↦ none).map
          Deed.place := by
  constructor
  · decide +kernel
  · decide +kernel

end CrunRs.Image
