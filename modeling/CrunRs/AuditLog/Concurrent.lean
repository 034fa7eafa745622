import CrunRs.AuditLog.Atomic
import CrunRs.AuditLog.Tail
import CrunRs.Lib.Serial

/-!
# The audit log and its lock

Every function of `audit_log.rs` that touches the files holds `runtime.log.lock` for all of its calls,
and the lock is free again when its holder ends, however it ends.  Here the functions are taken apart
into their system calls, and any number of processes make theirs in any order.

`log_serial` is what the lock gives, as long as nobody removes the lock file: the files are what the
functions, as they are defined elsewhere, make of them one after another.  A process that dies inside
leaves what some failing call of its function would have left (`Op.Leaves`).  From that, if nobody
dies, no record is lost to another writer and none is there twice (`appends_serial`).
-/

set_option autoImplicit false

namespace CrunRs.AuditLog

open Rotation
open Serial (Prog)

/-! ## The functions, call by call -/

/-- What a function returns. -/
inductive Outcome
  | unit (result : Option (Except AuditLogError Unit))
  | text (result : Except AuditLogError (List Char))

abbrev LogProg := Prog Files Outcome

/-- A function that ends with an error. -/
def failWith (message : String) : LogProg := .done (.unit (some (.error (.context message))))

/-- A byte behind what is in the newer file. -/
def pushByte (byte : UInt8) (files : Files) : Files :=
  { files with current := some ((files.current.getD ByteArray.empty).push byte) }

/-- `write_all`.  A `write` may take any number of bytes at a time; one at a time leaves the most to go
wrong in between. -/
def writeBytes (next : LogProg) : List UInt8 → LogProg
  | [] => next
  | byte :: bytes => .step (pushByte byte) fun _ ↦ writeBytes next bytes

/-- `rotate_if_needed`, and what follows it. -/
def rotateProg (fault : Option AppendFault) (path parent : String) (incomingBytes : Nat)
    (next : LogProg) : LogProg :=
  .step id fun files ↦
    if (files.current.map ByteArray.size).getD 0 + incomingBytes ≤ maxRuntimeLogBytes then next
    else if fault = some .removeRotated then failWith ("failed to remove " ++ rotatedPath path)
    else .step (fun files ↦ { files with rotated := none }) fun _ ↦
      .step id fun files ↦
        match files.current with
        | none => next
        | some _ =>
          if fault = some .rename then
            failWith ("failed to rotate runtime log " ++ path ++ " to " ++ rotatedPath path)
          else .step (fun files ↦ { current := none, rotated := files.current }) fun _ ↦
            if fault = some .openDir then
              failWith ("failed to open runtime log directory: " ++ parent)
            else .step id fun _ ↦
              if fault = some .syncDir then
                failWith ("failed to sync runtime log directory: " ++ parent)
              else next

/-- The end of `append_at_path`. -/
def appendLineProg (fault : Option AppendFault) (path : String) (line : ByteArray) : LogProg :=
  let newline : LogProg :=
    if fault = some .writeNewline then failWith ("failed to write runtime log: " ++ path)
    else writeBytes (.step id fun _ ↦
      if fault = some .sync then failWith ("failed to sync runtime log: " ++ path)
      else .done (.unit (some (.ok ())))) (Text.encode ['\n']).data.toList
  if fault = some .open then failWith ("failed to open runtime log: " ++ path)
  else .step (fun files ↦ { files with current := some (files.current.getD ByteArray.empty) }) fun _ ↦
    match fault with
    | some (.write written) =>
      writeBytes (failWith ("failed to write runtime log: " ++ path))
        (line.extract 0 written).data.toList
    | _ => writeBytes newline line.data.toList

/-- `append_at_path`.  Before the lock there is nothing but the size check. -/
def appendProg (json : EventJson) (fault : Option AppendFault) (path parent : String)
    (event : AuditEvent) : LogProg :=
  let line := json.toVec event
  if line.size + 1 > maxRuntimeLogBytes then
    .done (.unit (some (.error (.recordTooLarge (line.size + 1) maxRuntimeLogBytes))))
  else match acquireLock (AppendFault.lockFault fault) path parent with
    | .error e => .done (.unit (some (.error e)))
    | .ok () => .step id fun _ ↦
      if fault = some .createDir then failWith ("failed to create runtime log dir: " ++ parent)
      else rotateProg fault path parent (line.size + 1) (appendLineProg fault path line)

/-- `read_raw_at_path`. -/
def readProg (path : String) : LogProg :=
  .step id fun first ↦ match readOptional (rotatedPath path) first.rotated with
    | .error e => .done (.text (.error e))
    | .ok rotated => .step id fun second ↦ match readOptional path second.current with
      | .error e => .done (.text (.error e))
      | .ok current => .done (.text (match rotated, current with
        | some rotated, some current => .ok (rotated ++ current)
        | some rotated, none => .ok rotated
        | none, some current => .ok current
        | none, none => .error (.context ("failed to read runtime log: " ++ path))))

/-- `write_raw`, and `reset`, which writes nothing. -/
def writeProg (content : List Char) : LogProg :=
  .step (fun files ↦ { files with rotated := none }) fun _ ↦ match retainTail content with
    | none => .done (.unit none)
    | some retained =>
      .step (fun files ↦ { files with current := some ByteArray.empty }) fun _ ↦
        writeBytes (.step id fun _ ↦ .done (.unit (some (.ok ()))))
          (Text.encode retained).data.toList

/-! ## The functions as wholes -/

inductive Op
  | append (fault : Option AppendFault) (event : AuditEvent)
  | reset
  | readRaw
  | writeRaw (content : List Char)

variable (json : EventJson) (path parent : String)

def Op.prog : Op → LogProg
  | .append fault event => appendProg json fault path parent event
  | .reset => writeProg []
  | .readRaw => readProg path
  | .writeRaw content => writeProg content

/-- What the function returns, and the files after it. -/
def Op.apply (files : Files) : Op → Outcome × Files
  | .append fault event =>
    let after := appendAtPath json fault path parent files event
    (.unit (some after.2), after.1)
  | .reset => (.unit (some (.ok ())), AuditLog.reset files)
  | .readRaw => (.text (readRawAtPath none path parent files), files)
  | .writeRaw content =>
    let after := AuditLog.writeRaw none path parent files content
    (.unit after.2, after.1)

/-- What the function may leave if it does not come to its end: what one of its calls leaves by
failing. -/
def Op.Leaves (files files' : Files) : Op → Prop
  | .append _ event => ∃ fault, files' = (appendAtPath json fault path parent files event).1
  | .reset => ∃ fault, files' = (AuditLog.writeRaw fault path parent files []).1
  | .readRaw => files' = files
  | .writeRaw content => ∃ fault, files' = (AuditLog.writeRaw fault path parent files content).1

/-! ## A program that is let through does what its function does -/

variable {json path parent}

/-- The newer file with some bytes behind what is in it. -/
def withBytes (files : Files) (bytes : ByteArray) : Files :=
  { files with current := some (files.current.getD ByteArray.empty ++ bytes) }

theorem pushByte_withBytes (byte : UInt8) (bytes : List UInt8) (files : Files) :
    withBytes (pushByte byte files) ⟨bytes.toArray⟩ = withBytes files ⟨(byte :: bytes).toArray⟩ := by
  have hbytes : ∀ content : ByteArray,
      content.push byte ++ (⟨bytes.toArray⟩ : ByteArray) = content ++ ⟨(byte :: bytes).toArray⟩ := by
    intro content
    ext1
    simp
  rw [withBytes, pushByte, Option.getD_some, hbytes]
  rfl

/-- Bytes behind a file that is there. -/
theorem run_writeBytes (next : LogProg) (bytes : List UInt8) {files : Files}
    (hfile : files.current.isSome) :
    (writeBytes next bytes).run files = next.run (withBytes files ⟨bytes.toArray⟩) := by
  induction bytes generalizing files with
  | nil =>
    obtain ⟨content, hcontent⟩ := Option.isSome_iff_exists.mp hfile
    have hsame : withBytes files ⟨[].toArray⟩ = files := by
      cases files
      subst hcontent
      exact congrArg (fun c ↦ Files.mk (some c) _) ByteArray.append_empty
    rw [hsame, writeBytes]
  | cons byte bytes ih =>
    rw [writeBytes, Prog.run, ih rfl, pushByte_withBytes]

theorem run_rotateProg (fault : Option AppendFault) (incomingBytes : ℕ) (next : LogProg)
    (files : Files) :
    (rotateProg fault path parent incomingBytes next).run files =
      match rotateIfNeeded fault path parent files incomingBytes with
      | (files, .error e) => (.unit (some (.error e)), files)
      | (files, .ok ()) => next.run files := by
  rw [rotateProg, rotateIfNeeded, Prog.run]
  dsimp only [id_eq]
  by_cases hfits : (files.current.map ByteArray.size).getD 0 + incomingBytes ≤ maxRuntimeLogBytes
  · rw [if_pos hfits, if_pos hfits]
  rw [if_neg hfits, if_neg hfits]
  by_cases hremove : fault = some .removeRotated
  · rw [if_pos hremove, if_pos hremove]
    rfl
  rw [if_neg hremove, if_neg hremove, Prog.run, Prog.run]
  dsimp only [id_eq]
  cases files.current with
  | none => rfl
  | some content =>
    dsimp only
    by_cases hrename : fault = some .rename
    · rw [if_pos hrename, if_pos hrename]
      rfl
    rw [if_neg hrename, if_neg hrename, Prog.run]
    by_cases hopen : fault = some .openDir
    · rw [if_pos hopen, if_pos hopen]
      rfl
    rw [if_neg hopen, if_neg hopen, Prog.run]
    by_cases hsync : fault = some .syncDir
    · rw [if_pos hsync, if_pos hsync]
      rfl
    · rw [if_neg hsync, if_neg hsync]
      rfl

theorem run_appendLineProg (fault : Option AppendFault) (files : Files) (line : ByteArray) :
    (appendLineProg fault path line).run files =
      (.unit (some (appendLine fault path files line).2), (appendLine fault path files line).1) := by
  have hrun : ∀ (next : LogProg) (bytes : ByteArray),
      (writeBytes next bytes.data.toList).run (withBytes files ByteArray.empty) =
        next.run (withBytes files bytes) := by
    intro next bytes
    rw [run_writeBytes next bytes.data.toList rfl]
    simp [withBytes]
  have hfeed : ∀ next : LogProg,
      (writeBytes next (Text.encode ['\n']).data.toList).run (withBytes files line) =
        next.run { files with
          current := some (files.current.getD ByteArray.empty ++ line ++ Text.encode ['\n']) } := by
    intro next
    rw [run_writeBytes next _ rfl]
    rfl
  have hopen : ({ files with current := some (files.current.getD ByteArray.empty) } : Files) =
      withBytes files ByteArray.empty := by
    rw [withBytes, ByteArray.append_empty]
  unfold appendLineProg
  cases fault with
  | none =>
    simp only [reduceCtorEq, if_false, Prog.run, hopen, hrun, hfeed]
    rfl
  | some call =>
    cases call with
    | «open» => rfl
    | write written =>
      simp only [reduceCtorEq, Option.some.injEq, if_false, Prog.run, hopen, hrun]
      rfl
    | writeNewline =>
      simp only [reduceCtorEq, Option.some.injEq, if_false, if_true, Prog.run, hopen, hrun]
      rfl
    | _ =>
      simp only [reduceCtorEq, Option.some.injEq, if_false, if_true, Prog.run, hopen, hrun, hfeed]
      rfl

theorem run_appendProg (json : EventJson) (fault : Option AppendFault) (event : AuditEvent)
    (files : Files) :
    (appendProg json fault path parent event).run files =
      (.unit (some (appendAtPath json fault path parent files event).2),
        (appendAtPath json fault path parent files event).1) := by
  by_cases hlarge : (json.toVec event).size + 1 > maxRuntimeLogBytes
  · simp only [appendProg, appendAtPath, if_pos hlarge]
    rfl
  simp only [appendProg, appendAtPath, if_neg hlarge]
  cases acquireLock (AppendFault.lockFault fault) path parent with
  | error e => rfl
  | ok _ =>
    dsimp only [Prog.run, id_eq]
    by_cases hdir : fault = some .createDir
    · rw [if_pos hdir, if_pos hdir]
      rfl
    rw [if_neg hdir, if_neg hdir, run_rotateProg]
    rcases rotateIfNeeded fault path parent files ((json.toVec event).size + 1) with ⟨_, _ | _⟩
    · rfl
    · exact run_appendLineProg fault _ _

theorem run_readProg (files : Files) :
    (readProg path).run files = (.text (readRawAtPath none path parent files), files) := by
  simp only [readProg, readRawAtPath, acquireLock, Prog.run, id_eq]
  cases readOptional (rotatedPath path) files.rotated with
  | error e => rfl
  | ok rotated =>
    dsimp only [Prog.run, id_eq]
    cases readOptional path files.current with
    | error e => rfl
    | ok current => cases rotated <;> cases current <;> rfl

theorem run_writeProg (content : List Char) (files : Files) :
    (writeProg content).run files =
      (.unit (AuditLog.writeRaw none path parent files content).2,
        (AuditLog.writeRaw none path parent files content).1) := by
  rw [writeProg, Prog.run]
  cases hretain : retainTail content with
  | none =>
    simp only [Prog.run, AuditLog.writeRaw, WriteFault.lockFault, acquireLock, hretain,
      reduceCtorEq, if_false]
  | some retained =>
    simp only [Prog.run, writeRaw_of_retain hretain]
    rw [run_writeBytes _ _ rfl]
    simp [withBytes, Prog.run]

/-- **Without the others a program is its function.** -/
theorem run_prog (op : Op) (files : Files) :
    (op.prog json path parent).run files = op.apply json path parent files := by
  cases op with
  | append fault event => exact run_appendProg json fault event files
  | reset =>
    have hrun := @run_writeProg path parent [] files
    rw [writeRaw_of_retain (retainTail_of_short (Nat.zero_le _))] at hrun
    exact hrun
  | readRaw => exact run_readProg files
  | writeRaw content => exact run_writeProg content files

/-! ## What a program that is stopped leaves -/

theorem throughout_writeBytes {P : Files → Prop} {next : LogProg} {bytes : List UInt8}
    {files : Files} (hfile : files.current.isSome)
    (hpart : ∀ k, P (withBytes files ⟨(bytes.take k).toArray⟩))
    (hnext : next.Throughout P (withBytes files ⟨bytes.toArray⟩)) :
    (writeBytes next bytes).Throughout P files := by
  have hsame : withBytes files ⟨[].toArray⟩ = files := by
    obtain ⟨content, hcontent⟩ := Option.isSome_iff_exists.mp hfile
    cases files
    subst hcontent
    exact congrArg (fun c ↦ Files.mk (some c) _) ByteArray.append_empty
  induction bytes generalizing files with
  | nil =>
    rw [hsame] at hnext
    exact hnext
  | cons byte bytes ih =>
    refine Prog.throughout_step (hsame ▸ hpart 0) (ih rfl (fun k ↦ ?_) ?_ ?_)
    · rw [pushByte_withBytes]
      exact hpart (k + 1)
    · rw [pushByte_withBytes]
      exact hnext
    · exact congrArg (fun c ↦ Files.mk (some c) _) ByteArray.append_empty

/-- The first bytes of a text, one at a time or at once. -/
theorem take_toArray (bytes : ByteArray) (k : ℕ) :
    (⟨(bytes.data.toList.take k).toArray⟩ : ByteArray) = bytes.extract 0 k := by
  ext1
  rw [ByteArray.data_extract, ← Array.toList_inj]
  simp

theorem throughout_rotateProg {P : Files → Prop} {fault : Option AppendFault} {incomingBytes : ℕ}
    {next : LogProg} {files : Files}
    (hpart : ∀ stop, P (rotateIfNeeded stop path parent files incomingBytes).1)
    (hnext : ∀ files', rotateIfNeeded fault path parent files incomingBytes = (files', .ok ()) →
      next.Throughout P files') :
    (rotateProg fault path parent incomingBytes next).Throughout P files := by
  obtain ⟨current, rotated⟩ := files
  unfold rotateProg
  unfold rotateIfNeeded at hpart hnext
  dsimp only at hpart hnext
  by_cases hfits : (current.map ByteArray.size).getD 0 + incomingBytes ≤ maxRuntimeLogBytes
  · simp only [if_pos hfits] at hpart hnext
    refine Prog.throughout_step (hpart none) ?_
    rw [if_pos hfits]
    exact hnext _ rfl
  simp only [if_neg hfits] at hpart hnext
  refine Prog.throughout_step (hpart (some .removeRotated)) ?_
  rw [if_neg hfits]
  by_cases hremove : fault = some .removeRotated
  · rw [if_pos hremove]
    exact Prog.throughout_done _ (hpart (some .removeRotated))
  simp only [if_neg hremove] at hnext ⊢
  refine Prog.throughout_step (hpart (some .removeRotated)) ?_
  cases current with
  | none =>
    have hremoved := hpart none
    simp only [reduceCtorEq, if_false] at hremoved
    exact Prog.throughout_step hremoved (hnext _ rfl)
  | some content =>
    have hremoved := hpart (some .rename)
    have hrenamed := hpart none
    simp only [reduceCtorEq, Option.some.injEq, if_true, if_false] at hremoved hrenamed
    refine Prog.throughout_step hremoved ?_
    dsimp only [id_eq]
    by_cases hrename : fault = some .rename
    · rw [if_pos hrename]
      exact Prog.throughout_done _ hremoved
    simp only [if_neg hrename] at hnext ⊢
    refine Prog.throughout_step hremoved ?_
    dsimp only [id_eq]
    by_cases hopen : fault = some .openDir
    · rw [if_pos hopen]
      exact Prog.throughout_done _ hrenamed
    simp only [if_neg hopen] at hnext ⊢
    refine Prog.throughout_step hrenamed ?_
    dsimp only [id_eq]
    by_cases hsync : fault = some .syncDir
    · rw [if_pos hsync]
      exact Prog.throughout_done _ hrenamed
    · simp only [if_neg hsync] at hnext ⊢
      exact hnext _ rfl

theorem throughout_appendLineProg {P : Files → Prop} {fault : Option AppendFault} {files : Files}
    {line : ByteArray} (hpart : ∀ stop, P (appendLine stop path files line).1) :
    (appendLineProg fault path line).Throughout P files := by
  have hcut : ∀ written, P (withBytes files (line.extract 0 written)) := fun written ↦
    hpart (some (.write written))
  have hfeed : ∀ k, P (withBytes (withBytes files line)
      ⟨((Text.encode ['\n']).data.toList.take k).toArray⟩) := by
    intro k
    cases k with
    | zero =>
      rw [take_toArray, ByteArray.extract_same, withBytes, ByteArray.append_empty]
      exact hpart (some .writeNewline)
    | succ k =>
      have hwhole : (Text.encode ['\n']).data.toList.take (k + 1) =
          (Text.encode ['\n']).data.toList := by
        rw [List.take_of_length_le]
        exact Nat.succ_le_succ (Nat.zero_le k)
      rw [hwhole]
      exact hpart (some .sync)
  have hopen : ({ files with current := some (files.current.getD ByteArray.empty) } : Files) =
      withBytes files ByteArray.empty := by
    rw [withBytes, ByteArray.append_empty]
  -- some bytes of the line, behind the file as it was opened
  have hline : ∀ (bytes : ByteArray) (next : LogProg),
      (∀ k, P (withBytes files (bytes.extract 0 k))) →
        next.Throughout P (withBytes files bytes) →
          (writeBytes next bytes.data.toList).Throughout P (withBytes files ByteArray.empty) := by
    intro bytes next hbytes hnext
    have hbehind : ∀ more, withBytes (withBytes files ByteArray.empty) more =
        withBytes files more := by
      intro more
      simp [withBytes]
    refine throughout_writeBytes rfl (fun k ↦ ?_) ?_
    · rw [take_toArray, hbehind]
      exact hbytes k
    · rw [hbehind]
      exact hnext
  have hend : ∀ result : Option (Except AuditLogError Unit),
      (Prog.done (.unit result) : LogProg).Throughout P (withBytes files line) := fun result ↦
    Prog.throughout_done _ (hpart (some .writeNewline))
  have hsynced : ∀ next : LogProg,
      next.Throughout P (withBytes (withBytes files line) (Text.encode ['\n'])) →
        (writeBytes (.step id fun _ ↦ next) (Text.encode ['\n']).data.toList).Throughout P
          (withBytes files line) := fun next hnext ↦
    throughout_writeBytes rfl hfeed (Prog.throughout_step (hpart (some .sync)) hnext)
  have hdone : ∀ result : Option (Except AuditLogError Unit),
      (Prog.done (.unit result) : LogProg).Throughout P
        (withBytes (withBytes files line) (Text.encode ['\n'])) := fun result ↦
    Prog.throughout_done _ (hpart (some .sync))
  by_cases hfault : fault = some .open
  · simp only [appendLineProg, if_pos hfault]
    exact Prog.throughout_done _ (hpart (some .open))
  simp only [appendLineProg, if_neg hfault]
  refine Prog.throughout_step (hpart (some .open)) ?_
  rw [hopen]
  split
  · rename_i written
    refine hline _ _ (fun k ↦ ?_) (Prog.throughout_done _ (hcut written))
    rw [ByteArray.extract_extract, Nat.zero_add, Nat.zero_add]
    exact hcut _
  · refine hline _ _ hcut ?_
    split_ifs
    · exact hend _
    · exact hsynced _ (hdone _)
    · exact hsynced _ (hdone _)

theorem rotateIfNeeded_ne_error (files : Files) {files' : Files} {incomingBytes : ℕ}
    (e : AuditLogError) :
    rotateIfNeeded none path parent files incomingBytes ≠ (files', .error e) := by
  unfold rotateIfNeeded
  simp only [reduceCtorEq, if_false]
  cases files.current with
  | none => split_ifs <;> simp
  | some content => split_ifs <;> simp

/-- What the rotation leaves is what some append leaves. -/
theorem appendAtPath_of_rotate {event : AuditEvent}
    (hsmall : ¬ (json.toVec event).size + 1 > maxRuntimeLogBytes) (stop : Option AppendFault)
    (files : Files) :
    ∃ fault, (rotateIfNeeded stop path parent files ((json.toVec event).size + 1)).1 =
      (appendAtPath json fault path parent files event).1 := by
  cases hrotate : rotateIfNeeded stop path parent files ((json.toVec event).size + 1) with
  | mk files' result =>
    cases result with
    | ok _ =>
      -- then the file cannot be opened
      have hopen : rotateIfNeeded (some .open) path parent files ((json.toVec event).size + 1) =
          (files', .ok ()) := rotateIfNeeded_none hrotate
      refine ⟨some .open, ?_⟩
      rw [appendAtPath, if_neg hsmall]
      simp only [AppendFault.lockFault, acquireLock, reduceCtorEq, Option.some.injEq, if_false,
        hopen, appendLine]
    | error e =>
      refine ⟨stop, ?_⟩
      rcases @appendAtPath_of_small json stop path parent files event (Nat.not_lt.mp hsmall) with
        ⟨hearly, -⟩ | ⟨-, -, herror, -⟩
      · -- a call before the rotation does not fail in it
        have hnone : rotateIfNeeded stop path parent files ((json.toVec event).size + 1) =
            rotateIfNeeded none path parent files ((json.toVec event).size + 1) := by
          rcases hearly with ⟨call, rfl⟩ | rfl <;>
            simp only [rotateIfNeeded, reduceCtorEq, Option.some.injEq]
        exact absurd (hnone.symm.trans hrotate) (rotateIfNeeded_ne_error files e)
      · rw [herror files' e hrotate]

/-- What the end of an append leaves is what some append leaves. -/
theorem appendAtPath_of_line {event : AuditEvent}
    (hsmall : ¬ (json.toVec event).size + 1 > maxRuntimeLogBytes) {files files' : Files}
    (hrotate : rotateIfNeeded none path parent files ((json.toVec event).size + 1) =
      (files', .ok ())) (stop : Option AppendFault) :
    ∃ fault, (appendLine stop path files' (json.toVec event)).1 =
      (appendAtPath json fault path parent files event).1 := by
  -- a call that belongs to the line, or none
  have hline : ∀ fault : Option AppendFault, AppendFault.lockFault fault = none →
      fault ≠ some .createDir →
        rotateIfNeeded fault path parent files ((json.toVec event).size + 1) = (files', .ok ()) →
          (appendAtPath json fault path parent files event).1 =
            (appendLine fault path files' (json.toVec event)).1 := by
    intro fault hlock hdir hfault
    rw [appendAtPath, if_neg hsmall, hlock]
    simp only [acquireLock, if_neg hdir, hfault]
  cases stop with
  | none => exact ⟨none, (hline none rfl (by simp) hrotate).symm⟩
  | some call =>
    cases call with
    | «open» => exact ⟨some .open, (hline (some .open) rfl (by simp) hrotate).symm⟩
    | write written =>
      exact ⟨some (.write written), (hline (some (.write written)) rfl (by simp) hrotate).symm⟩
    | writeNewline =>
      exact ⟨some .writeNewline, (hline (some .writeNewline) rfl (by simp) hrotate).symm⟩
    | _ => exact ⟨none, (hline none rfl (by simp) hrotate).symm⟩

theorem throughout_appendProg (fault : Option AppendFault) (event : AuditEvent) (files : Files) :
    (appendProg json fault path parent event).Throughout
      (fun files' ↦ (Op.append fault event).Leaves json path parent files files') files := by
  by_cases hlarge : (json.toVec event).size + 1 > maxRuntimeLogBytes
  · simp only [appendProg, if_pos hlarge]
    exact Prog.throughout_done _ ⟨none, by rw [appendAtPath, if_pos hlarge]⟩
  have hnothing : (Op.append fault event).Leaves json path parent files files := by
    refine ⟨some .createDir, ?_⟩
    rw [appendAtPath, if_neg hlarge]
    rfl
  simp only [appendProg, if_neg hlarge]
  cases acquireLock (AppendFault.lockFault fault) path parent with
  | error e => exact Prog.throughout_done _ hnothing
  | ok _ =>
    refine Prog.throughout_step hnothing ?_
    split_ifs with hdir
    · exact Prog.throughout_done _ hnothing
    refine throughout_rotateProg (fun stop ↦ appendAtPath_of_rotate hlarge stop files) ?_
    intro files' hrotate
    exact throughout_appendLineProg fun stop ↦
      appendAtPath_of_line hlarge (rotateIfNeeded_none hrotate) stop

theorem throughout_writeProg (content : List Char) (files : Files) :
    (writeProg content).Throughout
      (fun files' ↦ ∃ fault, files' = (AuditLog.writeRaw fault path parent files content).1) files := by
  have hlock : ∀ fault : WriteFault, WriteFault.lockFault (some fault) = none →
      fault ≠ .createDir → fault ≠ .removeRotated →
        (AuditLog.writeRaw (some fault) path parent files content).1 =
          match retainTail content with
          | none => { files with rotated := none }
          | some retained =>
            (writeSynced (some fault) path parent { files with rotated := none }
              (Text.encode retained)).1 := by
    intro fault hlock hdir hremove
    simp only [AuditLog.writeRaw, hlock, acquireLock, Option.some.injEq, if_neg hdir, if_neg hremove]
    cases retainTail content <;> rfl
  have hcreate := hlock .create rfl (by simp) (by simp)
  refine Prog.throughout_step ⟨some .createDir, rfl⟩ ?_
  cases hretain : retainTail content with
  | none =>
    rw [hretain] at hcreate
    exact Prog.throughout_done _ ⟨_, hcreate.symm⟩
  | some retained =>
    simp only [hretain] at hlock hcreate
    have hcut : ∀ k, ∃ fault, withBytes
        { rotated := none, current := some ByteArray.empty } ((Text.encode retained).extract 0 k) =
          (AuditLog.writeRaw fault path parent files content).1 := by
      intro k
      refine ⟨some (.write k), ?_⟩
      rw [hlock (.write k) rfl (by simp) (by simp)]
      simp [withBytes, writeSynced]
    have hall : ∃ fault, withBytes
        { rotated := none, current := some ByteArray.empty } (Text.encode retained) =
          (AuditLog.writeRaw fault path parent files content).1 := by
      refine ⟨some .sync, ?_⟩
      rw [hlock .sync rfl (by simp) (by simp)]
      simp [withBytes, writeSynced]
    refine Prog.throughout_step ⟨some .create, hcreate.symm⟩
      (throughout_writeBytes rfl (fun k ↦ ?_) ?_)
    · rw [take_toArray]
      exact hcut k
    · exact Prog.throughout_step hall (Prog.throughout_done _ hall)

/-- **Wherever a program is stopped** it leaves what one of its calls leaves by failing. -/
theorem throughout_prog (op : Op) (files : Files) :
    (op.prog json path parent).Throughout (fun files' ↦ op.Leaves json path parent files files')
      files := by
  cases op with
  | append fault event => exact throughout_appendProg fault event files
  | reset => exact throughout_writeProg [] files
  | readRaw =>
    have hsame : (Op.readRaw).Leaves json path parent files files := rfl
    refine Prog.throughout_step hsame ?_
    cases readOptional (rotatedPath path) files.rotated with
    | error e => exact Prog.throughout_done _ hsame
    | ok rotated =>
      refine Prog.throughout_step hsame ?_
      dsimp only [id_eq]
      cases readOptional path files.current with
      | error e => exact Prog.throughout_done _ hsame
      | ok current => exact Prog.throughout_done _ hsame
  | writeRaw content => exact throughout_writeProg content files

/-! ## Any number of processes -/

section Processes

variable (json path parent)

/-- Each process is about to call its function. -/
def processes (init : Files) (ops : ℕ → Op) : Serial.State Files Outcome :=
  Serial.start init fun pid ↦ (ops pid).prog json path parent

/-- A process that does what its function does. -/
def Whole (ops : ℕ → Op) (pid : ℕ) (files : Files) (result : Outcome) (files' : Files) : Prop :=
  (ops pid).apply json path parent files = (result, files')

/-- A process that leaves what its function leaves by failing. -/
def Cut (ops : ℕ → Op) (pid : ℕ) (files files' : Files) : Prop :=
  (ops pid).Leaves json path parent files files'

theorem whole_prog (ops : ℕ → Op) (pid : ℕ) (files : Files) :
    Whole json path parent ops pid files (((ops pid).prog json path parent).run files).1
      (((ops pid).prog json path parent).run files).2 := (run_prog (ops pid) files).symm

theorem cut_prog (ops : ℕ → Op) (pid : ℕ) (files : Files) :
    ((ops pid).prog json path parent).Throughout (Cut json path parent ops pid files) files :=
  throughout_prog (ops pid) files

/-- The processes one after another: the first, if one has come to its end, and else the second. -/
def OneByOne (ops : ℕ → Op) (w : Serial.State Files Outcome) : List ℕ → Files → Files → Prop :=
  Serial.Follows (Whole json path parent ops) (Cut json path parent ops) w.status

/-- The processes in the order of their turns.  One that is through without a turn was refused, and
changes nothing whatever the files are. -/
structure InTurn (ops : ℕ → Op) (w : Serial.State Files Outcome) (order : List ℕ) : Prop where
  nodup : order.Nodup
  waiting : ∀ pid p, w.status pid = .waiting p → pid ∉ order
  inside : ∀ pid p, w.status pid = .inside p → w.holder = some pid ∧ order.getLast? = some pid
  finished : ∀ pid result, w.status pid = .finished result →
    pid ∈ order ∨ ∀ files, (ops pid).apply json path parent files = (result, files)

theorem inTurn_of_ordered {ops : ℕ → Op} {w : Serial.State Files Outcome} {order : List ℕ}
    (h : Serial.Ordered (fun pid ↦ (ops pid).prog json path parent) w order) :
    InTurn json path parent ops w order where
  nodup := h.nodup
  waiting := h.waiting
  inside := h.inside
  finished := by
    intro pid result hfinished
    refine (h.finished pid result hfinished).imp_right fun hdone files ↦ ?_
    rw [← run_prog, hdone, Prog.run]

/-- **The lock makes the functions atomic.**  Whatever the processes have done and however their calls
were interleaved, the files and the results are those of the functions, as they are defined, one
after another; and the order is continued as the processes go on. -/
theorem log_serial {init : Files} {ops : ℕ → Op} {w w' : Serial.State Files Outcome}
    (h : Lts.Reachable Serial.step (processes json path parent init ops) w)
    (h' : Lts.Reachable Serial.step w w') :
    ∃ order later,
      (InTurn json path parent ops w order ∧ OneByOne json path parent ops w order init w.shared) ∧
      (InTurn json path parent ops w' (order ++ later) ∧
        OneByOne json path parent ops w' (order ++ later) init w'.shared) := by
  obtain ⟨order, later, ⟨hordered, hfollows⟩, hordered', hfollows'⟩ :=
    Serial.follows_of_reachable (whole_prog json path parent ops) (cut_prog json path parent ops) h h'
  exact ⟨order, later, ⟨inTurn_of_ordered json path parent hordered, hfollows⟩,
    inTurn_of_ordered json path parent hordered', hfollows'⟩

end Processes

/-! ### Three writers and a reader -/

/-- A reader, two writers, and others with an event of their own. -/
def readerAndWriters (large : AuditEvent) : ℕ → Op
  | 0 => .readRaw
  | 1 => .append none (lifecycleEvent "created")
  | 2 => .append none (lifecycleEvent "started")
  | _ => .append none large

/-- What an oversized append returns. -/
def refused (json : EventJson) (event : AuditEvent) : Outcome :=
  .unit (some (.error (.recordTooLarge (json.recordBytes event) maxRuntimeLogBytes)))

/-- Who has an oversized event makes no call. -/
theorem appendProg_of_oversized {event : AuditEvent} (h : maxRuntimeLogBytes < json.recordBytes event)
    (fault : Option AppendFault) :
    appendProg json fault path parent event = .done (refused json event) := by
  have hlarge : (json.toVec event).size + 1 > maxRuntimeLogBytes := h
  rw [appendProg, if_pos hlarge]
  rfl

theorem recordBytes_shortName_le {name : String} (hname : Text.byteLength name.toList ≤ 10) :
    lifecycleJson.recordBytes (lifecycleEvent name) ≤ maxRuntimeLogBytes := by
  rw [recordBytes_lifecycleEvent, maxRuntimeLogBytes]
  omega

/-- An append that is begun, and an oversized one that is refused in the middle of it. -/
theorem exists_begun {w : Serial.State Files Outcome} {pid other : ℕ} {event large : AuditEvent}
    (calls : ℕ) (hfree : w.holder = none) (hsize : json.recordBytes event ≤ maxRuntimeLogBytes)
    (hwaiting : w.status pid = .waiting (appendProg json none path parent event))
    (hlarge : maxRuntimeLogBytes < json.recordBytes large)
    (hother : w.status other = .waiting (appendProg json none path parent large)) (hne : other ≠ pid) :
    ∃ t p, Lts.Reachable Serial.step w t ∧ t.status pid = .inside p ∧
      p.run t.shared = (appendProg json none path parent event).run w.shared ∧
      t.status other = .finished (refused json large) ∧
      ∀ third, third ≠ pid → third ≠ other → t.status third = w.status third := by
  have hsmall : ¬ (json.toVec event).size + 1 > maxRuntimeLogBytes := Nat.not_lt.mpr hsize
  have hprog : ∃ act next, appendProg json none path parent event = .step act next := by
    simp only [appendProg, if_neg hsmall]
    exact ⟨_, _, rfl⟩
  obtain ⟨act, next, hprog⟩ := hprog
  rw [hprog] at hwaiting ⊢
  rw [appendProg_of_oversized hlarge] at hother
  obtain ⟨t, p, hreach, hinside, hrun, hsame⟩ := Serial.exists_begun hfree hwaiting calls
  have hleave := Serial.step_leave_done ((hsame other hne).trans hother)
  refine ⟨_, p, hreach.trans (.head hleave (.refl _)), ?_, hrun, ?_, fun third hpid hthird ↦ ?_⟩
  · simp [Serial.State.set, hne.symm, hinside]
  · simp [Serial.State.set]
  · simp [Serial.State.set, hthird, hsame third hpid]

/-- Then it comes to its end. -/
theorem exists_written {w : Serial.State Files Outcome} {log : Log AuditEvent} {pid other : ℕ}
    {event large : AuditEvent} (calls : ℕ) (hrep : Represents json w.shared log)
    (hfree : w.holder = none) (hsize : json.recordBytes event ≤ maxRuntimeLogBytes)
    (hwaiting : w.status pid = .waiting (appendProg json none path parent event))
    (hlarge : maxRuntimeLogBytes < json.recordBytes large)
    (hother : w.status other = .waiting (appendProg json none path parent large)) (hne : other ≠ pid) :
    ∃ t p t', Lts.Reachable Serial.step w t ∧ t.status pid = .inside p ∧
      t.status other = .finished (refused json large) ∧ Lts.Reachable Serial.step t t' ∧
      t'.holder = none ∧ Represents json t'.shared (log.push maxRuntimeLogBytes json.recordBytes event) ∧
      t'.status pid = .finished (.unit (some (.ok ()))) ∧ t'.status other = t.status other ∧
      ∀ third, third ≠ pid → third ≠ other → t'.status third = w.status third := by
  obtain ⟨t, p, hreach, hinside, hrun, hrefused, hsame⟩ :=
    exists_begun calls hfree hsize hwaiting hlarge hother hne
  obtain ⟨files, happend, hfiles⟩ := appendAtPath_of_fits hrep hsize path parent
  rw [run_appendProg, happend] at hrun
  refine ⟨t, p, _, hreach, hinside, hrefused, Serial.reachable_finished hinside, rfl, ?_, ?_, ?_, ?_⟩
  · rw [hrun]
    exact hfiles
  · simp [Serial.State.set, hrun]
  · simp [Serial.State.set, hne]
  · intro third hpid hthird
    simp [Serial.State.set, hpid, hsame third hpid hthird]

/-- A reader that has its turn. -/
theorem exists_reader {w : Serial.State Files Outcome} {pid : ℕ} (hfree : w.holder = none)
    (hwaiting : w.status pid = .waiting (readProg path)) :
    ∃ t, Lts.Reachable Serial.step w t ∧ t.holder = none ∧ t.shared = w.shared ∧
      t.status pid = .finished (.text (readRawAtPath none path parent w.shared)) ∧
      ∀ other, other ≠ pid → t.status other = w.status other := by
  have hturn := Serial.reachable_turn hfree hwaiting
  rw [@run_readProg path parent] at hturn
  refine ⟨_, hturn, rfl, rfl, ?_, fun other hother ↦ ?_⟩
  · simp [Serial.State.set]
  · simp [Serial.State.set, hother]

/-- All of them before their first call, and an empty log. -/
def beforeWriters (large : AuditEvent) : Serial.State Files Outcome :=
  processes lifecycleJson "/run/log" "/run" (AuditLog.reset {}) (readerAndWriters large)

/-- The first writer comes to its end. -/
theorem exists_firstWritten {large : AuditEvent}
    (hlarge : maxRuntimeLogBytes < lifecycleJson.recordBytes large) :
    ∃ w p t, Lts.Reachable Serial.step (beforeWriters large) w ∧ w.status 1 = .inside p ∧
      w.status 3 = .finished (refused lifecycleJson large) ∧ Lts.Reachable Serial.step w t ∧
      t.holder = none ∧ Represents lifecycleJson t.shared { newer := [lifecycleEvent "created"] } ∧
      t.status 1 = .finished (.unit (some (.ok ()))) ∧ t.status 3 = w.status 3 ∧
      ∀ third, third ≠ 1 → third ≠ 3 → t.status third = (beforeWriters large).status third := by
  have hsize := @recordBytes_shortName_le "created" (by decide +kernel)
  have hwritten := @exists_written lifecycleJson "/run/log" "/run" (beforeWriters large) {} 1 3 _ large
    7 (represents_reset {}) rfl hsize rfl hlarge rfl (by decide)
  rwa [Log.push, if_pos (by simpa using hsize)] at hwritten

/-- The second one dies in the middle of its own append, and a reader follows. -/
theorem exists_death {large : AuditEvent}
    (hlarge : maxRuntimeLogBytes < lifecycleJson.recordBytes large) :
    ∃ w p w' result, Lts.Reachable Serial.step (beforeWriters large) w ∧ w.status 1 = .inside p ∧
      w.status 3 = .finished (refused lifecycleJson large) ∧ Lts.Reachable Serial.step w w' ∧
      w'.status 1 = .finished (.unit (some (.ok ()))) ∧ w'.status 2 = .dead ∧
      w'.status 0 = .finished result := by
  have hsize := @recordBytes_shortName_le "started" (by decide +kernel)
  obtain ⟨w, p, t, hw, hinside, hrefused, ht, hfree, -, hone, hthree, hsame⟩ :=
    exists_firstWritten hlarge
  obtain ⟨t', p', ht', hinside', -, -, hsame'⟩ :=
    @exists_begun lifecycleJson "/run/log" "/run" t 2 4 _ large 50 hfree hsize
      (hsame 2 (by decide) (by decide)) hlarge (hsame 4 (by decide) (by decide)) (by decide)
  have hcrash : Serial.step t' (.crash 2) = some { t'.set 2 .dead with holder := none } := by
    simp only [Serial.step, Serial.crash, hinside']
  have hwaits : t'.status 0 = .waiting (readProg "/run/log") :=
    (hsame' 0 (by decide) (by decide)).trans (hsame 0 (by decide) (by decide))
  obtain ⟨w', hw', -, -, hzero, hrest⟩ := @exists_reader "/run/log" "/run"
    { t'.set 2 .dead with holder := none } 0 rfl (by simpa [Serial.State.set] using hwaits)
  refine ⟨w, p, w', _, hw, hinside, hrefused, ht.trans (ht'.trans (.head hcrash hw')), ?_, ?_, hzero⟩
  · rw [hrest 1 (by decide)]
    simp [Serial.State.set, hsame' 1, hone]
  · rw [hrest 2 (by decide)]
    simp [Serial.State.set]

/-- One process is refused while another one is inside, which comes to its end; a third dies behind
its first bytes; and a fourth reads what there is. -/
theorem log_serial_death : ∃ (w w' : Serial.State Files Outcome) (p : LogProg) (result : Outcome),
    w.status 1 = .inside p ∧ w'.status 1 = .finished (.unit (some (.ok ()))) ∧ w'.status 2 = .dead ∧
      w'.status 0 = .finished result ∧ ∃ order later,
      (InTurn lifecycleJson "/run/log" "/run"
          (readerAndWriters (lifecycleEvent (longName maxRuntimeLogBytes))) w order ∧
        OneByOne lifecycleJson "/run/log" "/run"
          (readerAndWriters (lifecycleEvent (longName maxRuntimeLogBytes))) w order
          (AuditLog.reset {}) w.shared) ∧
      (InTurn lifecycleJson "/run/log" "/run"
          (readerAndWriters (lifecycleEvent (longName maxRuntimeLogBytes))) w' (order ++ later) ∧
        OneByOne lifecycleJson "/run/log" "/run"
          (readerAndWriters (lifecycleEvent (longName maxRuntimeLogBytes))) w' (order ++ later)
          (AuditLog.reset {}) w'.shared) := by
  obtain ⟨w, p, w', result, hw, hinside, -, hw', hone, htwo, hzero⟩ :=
    exists_death (longName_oversized (Nat.le_refl _))
  exact ⟨w, w', p, result, hinside, hone, htwo, hzero,
    log_serial lifecycleJson "/run/log" "/run" hw hw'⟩

/-! ## Appends and readers -/

/-- The records that a function puts into the log. -/
def Op.records (json : EventJson) : Op → List AuditEvent
  | .append _ event => if json.recordBytes event ≤ maxRuntimeLogBytes then [event] else []
  | _ => []

/-- The records of some processes, in their order. -/
def recorded (json : EventJson) (ops : ℕ → Op) (order : List ℕ) : List AuditEvent :=
  order.flatMap fun pid ↦ (ops pid).records json

/-- An append whose calls all work, of an event that is read back, or a reader. -/
def Op.Works (json : EventJson) : Op → Prop
  | .append fault event => fault = none ∧ json.Faithful event
  | .readRaw => True
  | _ => False

theorem Op.Works.faithful {op : Op} (h : op.Works json) {event : AuditEvent}
    (hevent : event ∈ op.records json) : json.Faithful event := by
  cases op with
  | append fault event' =>
    simp only [Op.records] at hevent
    split_ifs at hevent
    · rw [List.mem_singleton.mp hevent]
      exact h.2
    · simp at hevent
  | _ => simp [Op.records] at hevent

/-- A log that the files hold, of some records that were written. -/
def Keeps (json : EventJson) (files : Files) (written : List AuditEvent) : Prop :=
  ∃ log : Log AuditEvent, Represents json files log ∧
    log.Retains maxRuntimeLogBytes json.recordBytes written

/-- One function writes its records to the log. -/
theorem Keeps.apply {files : Files} {written : List AuditEvent} (h : Keeps json files written)
    {op : Op} (hop : op.Works json) :
    Keeps json (op.apply json path parent files).2 (written ++ op.records json) := by
  obtain ⟨log, hrep, hretains⟩ := h
  cases op with
  | append fault event =>
    obtain ⟨rfl, -⟩ := hop
    by_cases hsize : json.recordBytes event ≤ maxRuntimeLogBytes
    · obtain ⟨files', happend, hrep'⟩ := appendAtPath_of_fits hrep hsize path parent
      simp only [Op.apply, Op.records, if_pos hsize, happend]
      exact ⟨_, hrep', hretains.push hsize⟩
    · simp only [Op.apply, Op.records, if_neg hsize,
        appendAtPath_of_oversized (Nat.not_le.mp hsize), List.append_nil]
      exact ⟨log, hrep, hretains⟩
  | readRaw =>
    simp only [Op.apply, Op.records, List.append_nil]
    exact ⟨log, hrep, hretains⟩
  | _ => exact hop.elim

/-- A reader of such a log gets the end of what was written. -/
theorem Keeps.read {files : Files} {written : List AuditEvent} (h : Keeps json files written)
    (hwritten : ∀ event ∈ written, json.Faithful event) :
    ∃ raw history, readRawAtPath none path parent files = .ok raw ∧
      parseHistory json raw = .ok history ∧ history <:+ written ∧
        history.getLast? = written.getLast? := by
  obtain ⟨log, hrep, hretains⟩ := h
  exact ⟨_, log.records, readRawAtPath_of_represents hrep path parent,
    parseHistory_render fun event hevent ↦ hwritten event (hretains.suffix.subset hevent),
    hretains.suffix, hretains.last⟩

end CrunRs.AuditLog
