import CrunRs.AuditLog

/-!
# The tail of a log

`retain_tail` of `audit_log.rs`: what `write_raw` keeps of a history that is longer than a file may
be.  The cut is a byte position, so it can be inside a character, and then the indexing panics; and
what is in front of the first line feed behind the cut is dropped as the end of a line, also where
it is a line of its own.  Everywhere else what is kept are the newest lines that fit
(`retainTail_newest_iff`).
-/

set_option autoImplicit false

namespace CrunRs.AuditLog

open Rotation Text

/-- `retain_tail`; without a result it has panicked, at an index inside a character. -/
def retainTail (content : List Char) : Option (List Char) :=
  if byteLength content ≤ maxRuntimeLogBytes then some content
  else
    let start := byteLength content - maxRuntimeLogBytes
    (sliceFrom start content).bind fun tail ↦
      let boundary := ((find '\n' tail).map fun offset ↦ start + offset + 1).getD start
      sliceFrom boundary content

/-- The bytes a line takes, with its line feed. -/
def lineBytes (line : List Char) : Nat := byteLength line + 1

theorem total_lineBytes (lines : List (List Char)) :
    Log.total lineBytes lines = byteLength (unlines lines) := by
  induction lines with
  | nil => rfl
  | cons line lines ih =>
    have hfeed : '\n'.utf8Size = 1 := by decide
    rw [Log.total_cons, ih, unlines_cons, byteLength_append, byteLength_cons, hfeed, lineBytes,
      Nat.add_assoc]

/-- The cut is at a character, and not at the first one of a line. -/
def CutInsideLine (content : List Char) : Prop :=
  ∃ before after, content = before ++ after ∧ byteLength after = maxRuntimeLogBytes ∧
    before.getLast? ≠ some '\n'

theorem retainTail_of_short {content : List Char} (h : byteLength content ≤ maxRuntimeLogBytes) :
    retainTail content = some content := if_pos h

/-- A cut at a character drops everything up to the next line feed. -/
theorem retainTail_of_cut {before line rest : List Char} (hline : '\n' ∉ line)
    (hbefore : before ≠ []) (hcut : byteLength (line ++ '\n' :: rest) = maxRuntimeLogBytes) :
    retainTail (before ++ (line ++ '\n' :: rest)) = some rest := by
  have hlong : 0 < byteLength before :=
    Nat.pos_of_ne_zero (mt byteLength_eq_zero_iff.mp hbefore)
  have hstart : byteLength (before ++ (line ++ '\n' :: rest)) - maxRuntimeLogBytes =
      byteLength before := by
    rw [byteLength_append, hcut, Nat.add_sub_cancel]
  have htail : sliceFrom (byteLength before) (before ++ (line ++ '\n' :: rest)) =
      some (line ++ '\n' :: rest) := sliceFrom_eq_some_iff.mpr ⟨before, rfl, rfl⟩
  have hboundary : sliceFrom (byteLength before + byteLength line + 1)
      (before ++ (line ++ '\n' :: rest)) = some rest := by
    refine sliceFrom_eq_some_iff.mpr ⟨before ++ (line ++ ['\n']), by simp, ?_⟩
    have hfeed : '\n'.utf8Size = 1 := by decide
    rw [byteLength_append, byteLength_append, byteLength_cons, byteLength_nil, hfeed]
    rfl
  rw [retainTail, if_neg (by rw [byteLength_append, hcut]; omega)]
  simp only [hstart, htail, Option.bind_some, find_append_cons rest hline, Option.map_some,
    Option.getD_some]
  exact hboundary

/-- A cut inside a character is an index out of place. -/
theorem retainTail_eq_none {content : List Char} (hlong : maxRuntimeLogBytes < byteLength content)
    (hcut : ∀ before after, content = before ++ after → byteLength after ≠ maxRuntimeLogBytes) :
    retainTail content = none := by
  have hslice : sliceFrom (byteLength content - maxRuntimeLogBytes) content = none := by
    refine Option.eq_none_iff_forall_ne_some.mpr fun after h ↦ ?_
    obtain ⟨before, rfl, hbefore⟩ := sliceFrom_eq_some_iff.mp h
    rw [byteLength_append] at hbefore hlong
    exact hcut before after rfl (by omega)
  rw [retainTail, if_neg (Nat.not_le.mpr hlong)]
  simp only [hslice, Option.bind_none]

/-- Of two ends of a text the one with fewer bytes is an end of the other. -/
theorem suffix_of_byteLength_lt {s t content : List Char} (hs : s <:+ content) (ht : t <:+ content)
    (h : byteLength s < byteLength t) : s <:+ t := by
  rcases List.suffix_or_suffix_of_suffix hs ht with hst | ⟨more, rfl⟩
  · exact hst
  · rw [byteLength_append] at h
    omega

/-- Where a text is cut so that a given number of bytes is behind the cut. -/
theorem cut_unique {before after before' after' : List Char}
    (h : before ++ after = before' ++ after') (hbytes : byteLength after = byteLength after') :
    before = before' ∧ after = after' := by
  have hslice : sliceFrom (byteLength before) (before ++ after) = some after :=
    sliceFrom_eq_some_iff.mpr ⟨before, rfl, rfl⟩
  have hslice' : sliceFrom (byteLength before) (before ++ after) = some after' := by
    have hsum := congrArg byteLength h
    rw [byteLength_append, byteLength_append] at hsum
    exact sliceFrom_eq_some_iff.mpr ⟨before', h, by omega⟩
  obtain rfl := Option.some.inj (hslice.symm.trans hslice')
  exact ⟨List.append_cancel_right h, rfl⟩

/-- What `retain_tail` is to return: the newest lines that fit, and all of them that do. -/
def RetainsNewest (lines : List (List Char)) : Prop :=
  ∃ kept, Log.IsNewest maxRuntimeLogBytes lineBytes kept lines ∧
    retainTail (unlines lines) = some (unlines kept)

/-- Where the lines that are kept begin, and where the cut is: in the line before them, behind its
first character, or at their own first character. -/
theorem cut_cases {dropped kept : List (List Char)} {line before after : List Char}
    (hkept : byteLength (unlines kept) ≤ maxRuntimeLogBytes)
    (hline : maxRuntimeLogBytes < byteLength (unlines (line :: kept)))
    (hcut : unlines (dropped ++ line :: kept) = before ++ after)
    (hafter : byteLength after = maxRuntimeLogBytes) :
    (∃ p q, p ≠ [] ∧ line = p ++ q ∧ before = unlines dropped ++ p ∧
      after = q ++ '\n' :: unlines kept) ∨
    (before = unlines dropped ++ (line ++ ['\n']) ∧ after = unlines kept) := by
  have hkeptSuffix : unlines kept <:+ before ++ after :=
    ⟨unlines dropped ++ (line ++ ['\n']), by
      rw [← hcut, unlines_append, unlines_cons]
      simp⟩
  have hlineSuffix : unlines (line :: kept) <:+ before ++ after :=
    ⟨unlines dropped, by rw [← hcut, unlines_append]⟩
  rcases Nat.lt_or_eq_of_le hkept with hlt | heq
  · left
    -- the text behind the cut is longer than the lines that are kept, and shorter than one more
    obtain ⟨q, hq⟩ := suffix_of_byteLength_lt hkeptSuffix (List.suffix_append before after)
      (by omega)
    obtain ⟨p, hp⟩ := suffix_of_byteLength_lt (List.suffix_append before after) hlineSuffix
      (by omega)
    have hfeed : p ++ q = line ++ ['\n'] := by
      rw [← hq, ← List.append_assoc, unlines_cons] at hp
      refine List.append_cancel_right (hp.trans ?_)
      simp
    have hq_ne : q ≠ [] := by
      rintro rfl
      rw [List.nil_append] at hq
      rw [hq] at hlt
      omega
    have hp_ne : p ≠ [] := by
      rintro rfl
      rw [List.nil_append] at hp
      rw [← hp] at hline
      omega
    obtain ⟨q, c, rfl⟩ := (List.eq_nil_or_concat q).resolve_left hq_ne
    rw [List.concat_eq_append, ← List.append_assoc] at hfeed
    obtain ⟨hsplit, hc⟩ := List.append_inj' hfeed rfl
    obtain rfl := List.singleton_inj.mp hc
    refine ⟨p, q, hp_ne, hsplit.symm, ?_, ?_⟩
    · have hwhole : before ++ after = (unlines dropped ++ p) ++ after := by
        rw [← hcut, unlines_append, ← hp, List.append_assoc]
      exact (cut_unique hwhole rfl).1
    · rw [← hq]
      simp
  · right
    have hwhole : before ++ after = (unlines dropped ++ (line ++ ['\n'])) ++ unlines kept := by
      rw [← hcut, unlines_append, unlines_cons]
      simp
    exact cut_unique hwhole (hafter.trans heq.symm)

/-- **The tail that is retained.**  Of a text in lines, the newest ones that fit are what `retain_tail`
returns, if and only if everything fits or the cut is inside a line. -/
theorem retainTail_newest_iff {lines : List (List Char)} (hlines : ∀ line ∈ lines, '\n' ∉ line) :
    RetainsNewest lines ↔
      byteLength (unlines lines) ≤ maxRuntimeLogBytes ∨ CutInsideLine (unlines lines) := by
  by_cases hshort : byteLength (unlines lines) ≤ maxRuntimeLogBytes
  · have hall : Log.IsNewest maxRuntimeLogBytes lineBytes lines lines :=
      Log.isNewest_self (by rwa [total_lineBytes])
    exact iff_of_true ⟨lines, hall, retainTail_of_short hshort⟩ (Or.inl hshort)
  rw [or_iff_right hshort]
  have hlong : maxRuntimeLogBytes < Log.total lineBytes lines := by
    rw [total_lineBytes]
    exact Nat.not_le.mp hshort
  obtain ⟨dropped, line, kept, rfl, hkept, hline⟩ := Log.exists_split hlong
  have hnewest : Log.IsNewest maxRuntimeLogBytes lineBytes kept (dropped ++ line :: kept) :=
    Log.isNewest_of_cons hkept hline
  rw [total_lineBytes] at hkept hline hlong
  constructor
  · rintro ⟨kept', hnewest', hretain⟩
    obtain rfl := hnewest.unique hnewest'
    -- the text was cut somewhere, since there is a result
    by_cases hcut : ∃ before after, unlines (dropped ++ line :: kept) = before ++ after ∧
        byteLength after = maxRuntimeLogBytes
    · obtain ⟨before, after, hcut, hafter⟩ := hcut
      rcases cut_cases hkept hline hcut hafter with
        ⟨p, q, hp, hpq, rfl, rfl⟩ | ⟨rfl, rfl⟩
      · refine ⟨_, _, hcut, hafter, ?_⟩
        obtain ⟨p, c, rfl⟩ := (List.eq_nil_or_concat p).resolve_left hp
        have hc : c ≠ '\n' := by
          rintro rfl
          exact hlines line (by simp) (by simp [hpq])
        rw [List.concat_eq_append, ← List.append_assoc, List.getLast?_concat]
        exact fun h ↦ hc (Option.some.inj h)
      · -- the cut is where the kept lines begin, and the first of them is dropped
        cases kept with
        | nil => exact absurd hafter (by decide)
        | cons first rest =>
          rw [unlines_cons] at hafter
          have hfirst : '\n' ∉ first := hlines first (by simp)
          have hdrop := @retainTail_of_cut (unlines dropped ++ (line ++ ['\n'])) first
            (unlines rest) hfirst (by simp) hafter
          rw [hcut, unlines_cons, hdrop] at hretain
          have hlength := congrArg List.length (Option.some.inj hretain)
          rw [List.length_append, List.length_cons] at hlength
          omega
    · have hnone : retainTail (unlines (dropped ++ line :: kept)) = none :=
        retainTail_eq_none (Nat.not_le.mp hshort) fun before after h hafter ↦
          hcut ⟨before, after, h, hafter⟩
      rw [hnone] at hretain
      cases hretain
  · rintro ⟨before, after, hcut, hafter, hinside⟩
    rcases cut_cases hkept hline hcut hafter with
      ⟨p, q, hp, hpq, rfl, rfl⟩ | ⟨rfl, rfl⟩
    · have hq : '\n' ∉ q := fun h ↦ hlines line (by simp) (by simp [hpq, h])
      refine ⟨kept, hnewest, ?_⟩
      rw [hcut]
      exact retainTail_of_cut hq (by simp [hp]) hafter
    · refine absurd ?_ hinside
      rw [← List.append_assoc, List.getLast?_concat]

/-- **What becomes of a text in lines.**  It is kept, or its newest lines are, at least one unless the
last line alone takes all there is, or the cut is inside a character. -/
theorem retainTail_cases {lines : List (List Char)} (hlines : ∀ line ∈ lines, '\n' ∉ line) :
    (byteLength (unlines lines) ≤ maxRuntimeLogBytes ∧
      retainTail (unlines lines) = some (unlines lines)) ∨
    (maxRuntimeLogBytes < byteLength (unlines lines) ∧
      ((∃ dropped line kept, lines = dropped ++ line :: kept ∧
          retainTail (unlines lines) = some (unlines kept) ∧
            (kept = [] → maxRuntimeLogBytes ≤ lineBytes line)) ∨
        retainTail (unlines lines) = none)) := by
  by_cases hshort : byteLength (unlines lines) ≤ maxRuntimeLogBytes
  · exact Or.inl ⟨hshort, retainTail_of_short hshort⟩
  refine Or.inr ⟨Nat.not_le.mp hshort, ?_⟩
  by_cases hcut : ∃ before after, unlines lines = before ++ after ∧
      byteLength after = maxRuntimeLogBytes
  · left
    obtain ⟨before, after, hcut, hafter⟩ := hcut
    have hlong : maxRuntimeLogBytes < Log.total lineBytes lines := by
      rw [total_lineBytes]
      exact Nat.not_le.mp hshort
    obtain ⟨dropped, line, kept, rfl, hkept, hline⟩ := Log.exists_split hlong
    rw [total_lineBytes] at hkept hline
    rcases cut_cases hkept hline hcut hafter with ⟨p, q, hp, hpq, rfl, rfl⟩ | ⟨rfl, rfl⟩
    · have hq : '\n' ∉ q := fun h ↦ hlines line (by simp) (by simp [hpq, h])
      refine ⟨dropped, line, kept, rfl, ?_, ?_⟩
      · rw [hcut]
        exact retainTail_of_cut hq (by simp [hp]) hafter
      · rintro rfl
        rw [← total_lineBytes, Log.total_cons, Log.total_nil] at hline
        omega
    · cases kept with
      | nil => exact absurd hafter (by decide)
      | cons first rest =>
        refine ⟨dropped ++ [line], first, rest, by simp, ?_, ?_⟩
        · rw [hcut, unlines_cons]
          rw [unlines_cons] at hafter
          exact retainTail_of_cut (hlines first (by simp)) (by simp) hafter
        · rintro rfl
          rw [← total_lineBytes, Log.total_cons, Log.total_nil] at hafter
          omega
  · exact Or.inr (retainTail_eq_none (Nat.not_le.mp hshort) fun before after h hafter ↦
      hcut ⟨before, after, h, hafter⟩)

/-- A text of one more line than fits, whose cut is inside the first. -/
def plainLines : List (List Char) := [List.replicate 1048574 'a', ['a']]

/-- Of that text the last line is kept. -/
theorem retainsNewest_plainLines : RetainsNewest plainLines := by
  have hbytes : 'a'.utf8Size = 1 := by decide
  refine (retainTail_newest_iff fun line h ↦ ?_).mpr (Or.inr
    ⟨['a'], List.replicate 1048573 'a' ++ '\n' :: ['a', '\n'], ?_, ?_, by decide⟩)
  · rcases List.mem_cons.mp h with rfl | h
    · intro hfeed
      exact absurd (List.eq_of_mem_replicate hfeed) (by decide)
    · rw [List.mem_singleton.mp h]
      decide
  · rw [plainLines, unlines_cons, List.replicate_succ, List.cons_append, List.singleton_append]
    rfl
  · rw [byteLength_append, byteLength_replicate, hbytes]
    decide

/-- Two lines of which one byte has to go, and the first character has two. -/
def accentedLines : List (List Char) := [List.replicate 524287 'é', ['a']]

theorem accentedLines_ok : (∀ line ∈ accentedLines, '\n' ∉ line) ∧
    (∀ line ∈ accentedLines, lineBytes line ≤ maxRuntimeLogBytes) := by
  have hbytes : 'é'.utf8Size = 2 := by decide
  refine ⟨fun line h ↦ ?_, fun line h ↦ ?_⟩ <;>
    rcases List.mem_cons.mp h with rfl | h
  · intro hfeed
    exact absurd (List.eq_of_mem_replicate hfeed) (by decide)
  · rw [List.mem_singleton.mp h]
    decide
  · rw [lineBytes, byteLength_replicate, hbytes]
    decide
  · rw [List.mem_singleton.mp h]
    decide

/-- `retain_tail` panics on them. -/
theorem retainTail_accentedLines : retainTail (unlines accentedLines) = none := by
  have hbytes : 'é'.utf8Size = 2 := by decide
  have hlength : byteLength (unlines accentedLines) = maxRuntimeLogBytes + 1 := by
    rw [accentedLines, unlines_cons, byteLength_append, byteLength_replicate, hbytes]
    decide
  refine retainTail_eq_none (by omega) fun before after hcut hafter ↦ ?_
  -- only one byte is before the cut, and the first character has two
  have hbefore : byteLength before = 1 := by
    rw [hcut, byteLength_append, hafter] at hlength
    omega
  rw [accentedLines, unlines_cons, List.replicate_succ, List.cons_append] at hcut
  cases before with
  | nil => cases hbefore
  | cons c before =>
    obtain ⟨rfl, -⟩ := List.cons.inj hcut
    rw [byteLength_cons, hbytes] at hbefore
    omega

/-- So it does not keep the newest lines of every text whose lines all fit. -/
theorem not_retainsNewest : ¬ ∀ lines : List (List Char), (∀ line ∈ lines, '\n' ∉ line) →
    (∀ line ∈ lines, lineBytes line ≤ maxRuntimeLogBytes) → RetainsNewest lines := by
  intro h
  obtain ⟨kept, -, hretain⟩ := h accentedLines accentedLines_ok.1 accentedLines_ok.2
  rw [retainTail_accentedLines] at hretain
  cases hretain

/-! ## Writing a history back -/

/-- The system calls of `write_raw`, in the order they are made. -/
inductive WriteFault
  | lock (fault : LockFault)
  | createDir
  | removeRotated
  | create
  /-- The write stops after so many bytes. -/
  | write (written : Nat)
  | sync
  | openDir
  | syncDir
  deriving DecidableEq, Repr

/-- The failure of the lock, if that is what fails. -/
def WriteFault.lockFault : Option WriteFault → Option LockFault
  | some (.lock fault) => some fault
  | _ => none

/-- `write_synced`, in place of the newer file. -/
def writeSynced (fault : Option WriteFault) (path parent : String) (files : Files)
    (content : ByteArray) : Files × Except AuditLogError Unit :=
  let written : Files := { files with current := some content }
  match fault with
  | some .create => (files, .error (.context ("failed to create runtime log: " ++ path)))
  | some (.write n) =>
    ({ files with current := some (content.extract 0 n) },
      .error (.context ("failed to write runtime log: " ++ path)))
  | some .sync => (written, .error (.context ("failed to sync runtime log: " ++ path)))
  | some .openDir =>
    (written, .error (.context ("failed to open runtime log directory: " ++ parent)))
  | some .syncDir =>
    (written, .error (.context ("failed to sync runtime log directory: " ++ parent)))
  | _ => (written, .ok ())

/-- `write_raw`; without a result it has panicked. -/
def writeRaw (fault : Option WriteFault) (path parent : String) (files : Files)
    (content : List Char) : Files × Option (Except AuditLogError Unit) :=
  match acquireLock (WriteFault.lockFault fault) path parent with
  | .error e => (files, some (.error e))
  | .ok () =>
    if fault = some .createDir then
      (files, some (.error (.context ("failed to create runtime log dir: " ++ parent))))
    else if fault = some .removeRotated then
      (files, some (.error (.context ("failed to remove " ++ rotatedPath path))))
    else
      let files := { files with rotated := none }
      match retainTail content with
      | none => (files, none)
      | some retained =>
        let write := writeSynced fault path parent files (Text.encode retained)
        (write.1, some write.2)

/-- A history that is written back is the only thing in the log. -/
theorem writeRaw_of_retain {content retained : List Char} (h : retainTail content = some retained)
    (path parent : String) (files : Files) :
    writeRaw none path parent files content =
      ({ current := some (Text.encode retained), rotated := none }, some (.ok ())) := by
  rw [writeRaw]
  simp only [WriteFault.lockFault, acquireLock, reduceCtorEq, if_false, h, writeSynced]

theorem writeRaw_of_panic {content : List Char} (h : retainTail content = none)
    (fault : Option WriteFault) (path parent : String) (files : Files) :
    (writeRaw fault path parent files content).2 ≠ some (.ok ()) := by
  rw [writeRaw]
  cases acquireLock (WriteFault.lockFault fault) path parent with
  | error e => simp
  | ok =>
    dsimp only
    split_ifs
    · simp
    · simp
    · simp [h]

/-- A call that fails is an error. -/
theorem writeRaw_of_fault (fault : WriteFault) (path parent : String) (files : Files)
    (content : List Char) :
    (writeRaw (some fault) path parent files content).2 ≠ some (.ok ()) := by
  rw [writeRaw]
  cases fault with
  | lock call => cases call <;> simp [WriteFault.lockFault, acquireLock]
  | createDir => simp [WriteFault.lockFault, acquireLock]
  | removeRotated => simp [WriteFault.lockFault, acquireLock]
  | _ => cases hretain : retainTail content <;> simp [WriteFault.lockFault, acquireLock, writeSynced]

end CrunRs.AuditLog
