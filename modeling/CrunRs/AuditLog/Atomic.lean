import CrunRs.AuditLog

/-!
# What a failed append leaves behind

`append_at_path` of `audit_log.rs` rotates, writes the line and writes its line feed, and each of
that can fail on its own.  What a reader gets afterwards is what `read_raw_at_path` and
`parse_history` make of the two files as they were left.

Texts with something torn at their end are texts like any other here: `Texts` says which text each
of the two files has, and `Holds` that they are those of a log.  A line without its line feed is a
record, or an error, for the next reader (`readHistory_torn`), and becomes one line with the next
record that is written (`parseHistory_glued`).
-/

set_option autoImplicit false

namespace CrunRs.AuditLog

open Rotation

/-- What is relied on besides: an encoded event that was cut short is not JSON, nor is one with another
one behind it. -/
structure EventJson.Strict (json : EventJson) (event : AuditEvent) : Prop where
  truncated : ∀ s r, r ≠ [] → json.toText event = s ++ r → json.fromStr s = none
  trailing : json.fromStr (json.toText event ++ json.toText event) = none

/-- `read_history`. -/
def readHistory (json : EventJson) (path parent : String) (files : Files) :
    Except AuditLogError (List AuditEvent) := do
  let raw ← readRawAtPath none path parent files
  parseHistory json raw

/-! ## Lines that were not written as a whole -/

variable {json : EventJson}

/-- What is behind the lines of some events is read on its own. -/
theorem parseHistory_append {events : List AuditEvent} (h : ∀ event ∈ events, json.Faithful event)
    (rest : List Char) :
    parseHistory json (render json events ++ rest) =
      (parseHistory json rest).map fun more ↦ events ++ more := by
  induction events with
  | nil =>
    rw [render, List.flatMap_nil, List.nil_append]
    cases parseHistory json rest <;> rfl
  | cons event events ih =>
    have hevent : json.Faithful event := h event List.mem_cons_self
    have hrest := ih fun e he ↦ h e (List.mem_cons_of_mem _ he)
    obtain ⟨hblank, hreturn⟩ := hevent.not_blank
    rw [parseHistory] at hrest
    rw [render_cons, List.append_assoc, List.cons_append, parseHistory,
      Text.lines_append_cons _ hevent.no_newline hreturn,
      List.filter_cons_of_pos (by simpa using hblank), List.mapM_cons, hrest, hevent.round_trip]
    cases parseHistory json rest <;> rfl

/-- A beginning of an encoded event has no line feed in it and is not blank. -/
theorem EventJson.Faithful.beginning {event : AuditEvent} (h : json.Faithful event)
    {s r : List Char} (hs : s ≠ []) (htext : json.toText event = s ++ r) :
    '\n' ∉ s ∧ Text.trim s ≠ [] := by
  constructor
  · intro hfeed
    exact h.no_newline (by rw [htext]; exact List.mem_append_left r hfeed)
  · obtain ⟨members, hmembers⟩ := h.object
    cases s with
    | nil => exact absurd rfl hs
    | cons c s =>
      rw [hmembers, List.cons_append, List.cons_append] at htext
      rw [← (List.cons.inj htext).1]
      exact Text.trim_cons_ne_nil s (by decide)

/-- A line without a line feed behind it is read, if it is one. -/
theorem parseHistory_line {line : List Char} (hblank : Text.trim line ≠ []) (hline : '\n' ∉ line) :
    parseHistory json line = (json.fromStr line).elim
      (.error (.context "failed to parse runtime log event")) (fun event ↦ .ok [event]) := by
  have hne : line ≠ [] := by
    rintro rfl
    exact hblank rfl
  rw [parseHistory, Text.lines_of_line hne hline, List.filter_cons_of_pos (by simpa using hblank),
    List.filter_nil, List.mapM_cons, List.mapM_nil]
  cases json.fromStr line <;> rfl

/-- A line that is none is an error, whatever is behind it. -/
theorem parseHistory_bad {line : List Char} (rest : List Char) (hblank : Text.trim line ≠ [])
    (hline : '\n' ∉ line) (hreturn : line.getLast? ≠ some '\r') (hbad : json.fromStr line = none) :
    parseHistory json (line ++ '\n' :: rest) =
      .error (.context "failed to parse runtime log event") := by
  rw [parseHistory, Text.lines_append_cons _ hline hreturn,
    List.filter_cons_of_pos (by simpa using hblank), List.mapM_cons, hbad]
  rfl

/-- Two records on one line. -/
theorem parseHistory_glued {event : AuditEvent} (hevent : json.Faithful event)
    (hstrict : json.Strict event) :
    ∃ e, parseHistory json (json.toText event ++ (json.toText event ++ ['\n'])) = .error e := by
  obtain ⟨members, hmembers⟩ := hevent.object
  have hblank : Text.trim (json.toText event ++ json.toText event) ≠ [] := by
    rw [hmembers, List.cons_append, List.cons_append]
    exact Text.trim_cons_ne_nil _ (by decide)
  have hline : '\n' ∉ json.toText event ++ json.toText event := fun h ↦
    (List.mem_append.mp h).elim hevent.no_newline hevent.no_newline
  have hreturn : (json.toText event ++ json.toText event).getLast? ≠ some '\r' := by
    rw [hmembers, ← List.append_assoc, List.getLast?_concat]
    decide
  rw [← List.append_assoc]
  exact ⟨_, parseHistory_bad [] hblank hline hreturn hstrict.trailing⟩

/-! ## The texts of the files -/

/-- The texts of the two files, a file that is not there being empty. -/
structure Texts (files : Files) (rotated current : List Char) : Prop where
  rotated : files.rotated.getD ByteArray.empty = Text.encode rotated
  current : files.current.getD ByteArray.empty = Text.encode current

/-- The texts of the two files, one of which is there. -/
structure HoldsText (files : Files) (rotated current : List Char) : Prop extends
    Texts files rotated current where
  there : files.rotated ≠ none ∨ files.current ≠ none

/-- The files hold the two generations of a log. -/
def Holds (json : EventJson) (files : Files) (log : Log AuditEvent) : Prop :=
  HoldsText files (render json log.older) (render json log.newer)

theorem Represents.holds {files : Files} {log : Log AuditEvent} (h : Represents json files log) :
    Holds json files log :=
  ⟨⟨h.rotated, by rw [h.current, Option.getD_some]⟩, Or.inr (by simp [h.current])⟩

/-- A file that is not there reads as an empty one. -/
theorem readOptional_of_text {path : String} {file : Option ByteArray} {text : List Char}
    (h : file.getD ByteArray.empty = Text.encode text) :
    readOptional path file = .ok (file.map fun _ ↦ text) ∧ (file = none → text = []) := by
  cases file with
  | none =>
    refine ⟨rfl, fun _ ↦ Text.encode_inj ?_⟩
    exact h.symm
  | some content =>
    rw [Option.getD_some] at h
    rw [h, readOptional, Text.decode_encode]
    exact ⟨rfl, fun hnone ↦ absurd hnone (Option.some_ne_none _)⟩

theorem HoldsText.readRawAtPath {files : Files} {rotated current : List Char}
    (h : HoldsText files rotated current) (path parent : String) :
    readRawAtPath none path parent files = .ok (rotated ++ current) := by
  obtain ⟨hrotated, hrotatedNone⟩ := @readOptional_of_text (rotatedPath path) _ _ h.rotated
  obtain ⟨hcurrent, hcurrentNone⟩ := @readOptional_of_text path _ _ h.current
  rw [AuditLog.readRawAtPath, acquireLock, hrotated, hcurrent]
  cases hr : files.rotated with
  | none =>
    cases hc : files.current with
    | none => exact absurd h.there (by simp [hr, hc])
    | some content =>
      rw [hrotatedNone hr]
      rfl
  | some content =>
    cases hc : files.current with
    | none =>
      rw [hcurrentNone hc, List.append_nil]
      rfl
    | some content => rfl

theorem HoldsText.readHistory {files : Files} {rotated current : List Char}
    (h : HoldsText files rotated current) (path parent : String) :
    readHistory json path parent files = parseHistory json (rotated ++ current) := by
  rw [AuditLog.readHistory, h.readRawAtPath]
  rfl

/-- The history of files that hold a log. -/
theorem Holds.readHistory {files : Files} {log : Log AuditEvent} (h : Holds json files log)
    (hlog : ∀ event ∈ log.records, json.Faithful event) (path parent : String) :
    readHistory json path parent files = .ok log.records := by
  rw [HoldsText.readHistory h, ← render_append, ← Log.records, parseHistory_render hlog]

theorem Texts.fileSize {files : Files} {rotated current : List Char}
    (h : Texts files rotated current) : fileSize files.current = Text.byteLength current := by
  rw [← Text.size_encode, ← h.current, AuditLog.fileSize]
  cases files.current <;> rfl

/-! ## The calls of an append -/

theorem rotateIfNeeded_of_fits {fault : Option AppendFault} {path parent : String} {files : Files}
    {incomingBytes : Nat} (h : fileSize files.current + incomingBytes ≤ maxRuntimeLogBytes) :
    rotateIfNeeded fault path parent files incomingBytes = (files, .ok ()) := if_pos h

/-- Where there is no room, the newer file becomes the older one, if no call fails on the way. -/
theorem rotateIfNeeded_cases {fault : Option AppendFault} {path parent : String} {files : Files}
    {rotated current : List Char} {incomingBytes : Nat} (h : Texts files rotated current)
    (hincoming : incomingBytes ≤ maxRuntimeLogBytes)
    (hfull : maxRuntimeLogBytes < Text.byteLength current + incomingBytes) :
    (fault = some .removeRotated ∧
      ∃ e, rotateIfNeeded fault path parent files incomingBytes = (files, .error e)) ∨
    (fault = some .rename ∧ ∃ files' e,
      rotateIfNeeded fault path parent files incomingBytes = (files', .error e) ∧
        HoldsText files' [] current) ∨
    ((fault = some .openDir ∨ fault = some .syncDir) ∧ ∃ files' e,
      rotateIfNeeded fault path parent files incomingBytes = (files', .error e) ∧
        HoldsText files' current []) ∨
    ((∀ call ∈ fault, call ∉ [.removeRotated, .rename, .openDir, .syncDir]) ∧ ∃ files',
      rotateIfNeeded fault path parent files incomingBytes = (files', .ok ()) ∧
        HoldsText files' current []) := by
  have hsize : ¬ (files.current.map ByteArray.size).getD 0 + incomingBytes ≤ maxRuntimeLogBytes := by
    have hfile := h.fileSize
    rw [fileSize] at hfile
    omega
  rw [rotateIfNeeded]
  simp only [if_neg hsize]
  have hcurrent := h.current
  cases hfile : files.current with
  | none =>
    -- nothing is there to rotate, and then everything fits
    rw [hfile, Option.map_none, Option.getD_none] at hsize
    omega
  | some content =>
    dsimp only
    rw [hfile, Option.getD_some] at hcurrent
    have hkept : HoldsText { current := some content, rotated := none } [] current :=
      ⟨⟨rfl, hcurrent⟩, Or.inr (by simp)⟩
    have hmoved : HoldsText { current := none, rotated := some content } current [] :=
      ⟨⟨hcurrent, rfl⟩, Or.inl (by simp)⟩
    by_cases hremove : fault = some .removeRotated
    · rw [if_pos hremove]
      exact Or.inl ⟨hremove, _, rfl⟩
    by_cases hrename : fault = some .rename
    · rw [if_neg hremove, if_pos hrename]
      exact Or.inr (Or.inl ⟨hrename, _, _, rfl, hkept⟩)
    by_cases hopen : fault = some .openDir
    · rw [if_neg hremove, if_neg hrename, if_pos hopen]
      exact Or.inr (Or.inr (Or.inl ⟨Or.inl hopen, _, _, rfl, hmoved⟩))
    by_cases hsync : fault = some .syncDir
    · rw [if_neg hremove, if_neg hrename, if_neg hopen, if_pos hsync]
      exact Or.inr (Or.inr (Or.inl ⟨Or.inr hsync, _, _, rfl, hmoved⟩))
    · rw [if_neg hremove, if_neg hrename, if_neg hopen, if_neg hsync]
      refine Or.inr (Or.inr (Or.inr ⟨fun call hcall hmem ↦ ?_, _, rfl, hmoved⟩))
      rw [Option.mem_def] at hcall
      simp only [List.mem_cons, List.not_mem_nil, or_false] at hmem
      rcases hmem with rfl | rfl | rfl | rfl
      · exact hremove hcall
      · exact hrename hcall
      · exact hopen hcall
      · exact hsync hcall

/-- What is written behind the text of a file. -/
theorem Texts.write {files : Files} {rotated current : List Char}
    (h : Texts files rotated current) (more : List Char) :
    HoldsText
      { files with current := some (files.current.getD ByteArray.empty ++ Text.encode more) }
      rotated (current ++ more) := by
  refine ⟨⟨h.rotated, ?_⟩, Or.inr (by simp)⟩
  rw [Option.getD_some, h.current, Text.encode_append]

/-- A line that was written with its line feed. -/
theorem Texts.writeLine {files : Files} {rotated current : List Char}
    (h : Texts files rotated current) (event : AuditEvent) :
    HoldsText
      { files with
        current := some (files.current.getD ByteArray.empty ++ json.toVec event ++
          Text.encode ['\n']) }
      rotated (current ++ (json.toText event ++ ['\n'])) := by
  rw [EventJson.toVec, ByteArray.append_assoc, ← Text.encode_append]
  exact h.write _

/-- The append of an event that is not too large, up to the rotation. -/
theorem appendAtPath_of_small {fault : Option AppendFault} {path parent : String} {files : Files}
    {event : AuditEvent} (hsmall : json.recordBytes event ≤ maxRuntimeLogBytes) :
    ((∃ call, fault = some (.lock call)) ∨ fault = some .createDir) ∧
      (∃ e, appendAtPath json fault path parent files event = (files, .error e)) ∨
    (∀ call, fault ≠ some (.lock call)) ∧ fault ≠ some .createDir ∧
      (∀ files' e, rotateIfNeeded fault path parent files (json.recordBytes event) =
          (files', .error e) →
        appendAtPath json fault path parent files event = (files', .error e)) ∧
      ∀ files', rotateIfNeeded fault path parent files (json.recordBytes event) = (files', .ok ()) →
        appendAtPath json fault path parent files event =
          appendLine fault path files' (json.toVec event) := by
  have hline : ¬ (json.toVec event).size + 1 > maxRuntimeLogBytes := Nat.not_lt.mpr hsmall
  rw [appendAtPath]
  simp only [if_neg hline]
  by_cases hlock : ∃ call, fault = some (.lock call)
  · obtain ⟨call, rfl⟩ := hlock
    left
    refine ⟨Or.inl ⟨call, rfl⟩, ?_⟩
    cases call <;> exact ⟨_, rfl⟩
  · have hnone : AppendFault.lockFault fault = none := by
      cases fault with
      | none => rfl
      | some call =>
        cases call with
        | lock call => exact absurd ⟨call, rfl⟩ hlock
        | _ => rfl
    simp only [hnone, acquireLock]
    by_cases hdir : fault = some .createDir
    · left
      exact ⟨Or.inr hdir, by rw [if_pos hdir]; exact ⟨_, rfl⟩⟩
    · right
      refine ⟨fun call hcall ↦ hlock ⟨call, hcall⟩, hdir, fun files' e hrotate ↦ ?_,
        fun files' hrotate ↦ ?_⟩
      · rw [EventJson.recordBytes] at hrotate
        rw [if_neg hdir, hrotate]
      · rw [EventJson.recordBytes] at hrotate
        rw [if_neg hdir, hrotate]

/-- **An append with every call working** puts the line behind the text of the newer file, or of a
fresh one. -/
theorem Texts.append {files : Files} {rotated current : List Char}
    (h : Texts files rotated current) {event : AuditEvent}
    (hsmall : json.recordBytes event ≤ maxRuntimeLogBytes) (path parent : String) :
    ∃ files', appendAtPath json none path parent files event = (files', .ok ()) ∧
      (Text.byteLength current + json.recordBytes event ≤ maxRuntimeLogBytes ∧
          HoldsText files' rotated (current ++ (json.toText event ++ ['\n'])) ∨
        maxRuntimeLogBytes < Text.byteLength current + json.recordBytes event ∧
          HoldsText files' current (json.toText event ++ ['\n'])) := by
  rcases @appendAtPath_of_small json none path parent files event hsmall with
    ⟨hfault, -⟩ | ⟨-, -, -, happend⟩
  · rcases hfault with ⟨call, hcall⟩ | hdir
    · cases hcall
    · cases hdir
  · rcases Nat.lt_or_ge maxRuntimeLogBytes
      (Text.byteLength current + json.recordBytes event) with hfull | hfits
    · rcases @rotateIfNeeded_cases none path parent files rotated current _ h hsmall hfull with
        ⟨hcall, -⟩ | ⟨hcall, -⟩ | ⟨hcall | hcall, -⟩ | ⟨-, files', hrotate, hmoved⟩
      · cases hcall
      · cases hcall
      · cases hcall
      · cases hcall
      · exact ⟨_, happend files' hrotate, Or.inr ⟨hfull, hmoved.writeLine event⟩⟩
    · have hrotate : rotateIfNeeded none path parent files (json.recordBytes event) =
          (files, .ok ()) := if_pos (by rw [← h.fileSize] at hfits; exact hfits)
      exact ⟨_, happend files hrotate, Or.inl ⟨hfits, h.writeLine event⟩⟩

/-- An append that returns is of an event that is not too large. -/
theorem recordBytes_le_of_appendAtPath {fault : Option AppendFault} {path parent : String}
    {files files' : Files} {event : AuditEvent}
    (h : appendAtPath json fault path parent files event = (files', .ok ())) :
    json.recordBytes event ≤ maxRuntimeLogBytes :=
  (appendAtPath_eq_ok_iff.mp (congrArg Prod.snd h)).1

theorem rotateIfNeeded_none {fault : Option AppendFault} {path parent : String}
    {files files' : Files} {incomingBytes : Nat}
    (h : rotateIfNeeded fault path parent files incomingBytes = (files', .ok ())) :
    rotateIfNeeded none path parent files incomingBytes = (files', .ok ()) := by
  by_cases hfits : fileSize files.current + incomingBytes ≤ maxRuntimeLogBytes
  · rw [rotateIfNeeded_of_fits hfits] at h ⊢
    exact h
  · rw [fileSize] at hfits
    simp only [rotateIfNeeded, if_neg hfits, reduceCtorEq, if_false] at h ⊢
    by_cases hremove : fault = some .removeRotated
    · rw [if_pos hremove] at h
      cases h
    rw [if_neg hremove] at h
    cases hfile : files.current with
    | none =>
      simp only [hfile] at h ⊢
      exact h
    | some content =>
      simp only [hfile] at h ⊢
      by_cases hrename : fault = some .rename
      · rw [if_pos hrename] at h
        cases h
      rw [if_neg hrename] at h
      by_cases hopen : fault = some .openDir
      · rw [if_pos hopen] at h
        cases h
      rw [if_neg hopen] at h
      by_cases hsync : fault = some .syncDir
      · rw [if_pos hsync] at h
        cases h
      rw [if_neg hsync] at h
      exact h

theorem appendLine_none {fault : Option AppendFault} {path : String} {files files' : Files}
    {line : ByteArray} (h : appendLine fault path files line = (files', .ok ())) :
    appendLine none path files line = (files', .ok ()) := by
  cases fault with
  | none => exact h
  | some call => cases call <;> first | exact h | cases h

/-- An append that succeeds does what it does with every call working. -/
theorem appendAtPath_none {fault : Option AppendFault} {path parent : String} {files files' : Files}
    {event : AuditEvent} (h : appendAtPath json fault path parent files event = (files', .ok ())) :
    appendAtPath json none path parent files event = (files', .ok ()) := by
  have hsmall := recordBytes_le_of_appendAtPath h
  rcases @appendAtPath_of_small json fault path parent files event hsmall with
    ⟨-, e, herror⟩ | ⟨-, -, herror, hok⟩
  · rw [h] at herror
    cases herror
  · cases hrotate : rotateIfNeeded fault path parent files (json.recordBytes event) with
    | mk rotated result =>
      cases result with
      | error e =>
        rw [herror rotated e hrotate] at h
        cases h
      | ok =>
        rw [hok rotated hrotate] at h
        rcases @appendAtPath_of_small json none path parent files event hsmall with
          ⟨hfault, -⟩ | ⟨-, -, -, hok'⟩
        · rcases hfault with ⟨call, hcall⟩ | hdir
          · cases hcall
          · cases hdir
        · rw [hok' rotated (rotateIfNeeded_none hrotate)]
          exact appendLine_none h

/-- **An append that succeeds** writes to the log that the files hold. -/
theorem holds_push {fault : Option AppendFault} {path parent : String} {files files' : Files}
    {log : Log AuditEvent} {event : AuditEvent}
    (h : Texts files (render json log.older) (render json log.newer))
    (happend : appendAtPath json fault path parent files event = (files', .ok ())) :
    Holds json files' (log.push maxRuntimeLogBytes json.recordBytes event) := by
  have hline : json.toText event ++ ['\n'] = render json [event] := (render_cons event []).symm
  have hsize : Text.byteLength (render json log.newer) = Log.total json.recordBytes log.newer := by
    rw [← Text.size_encode, size_encode_render]
  obtain ⟨files'', happend', htext⟩ :=
    h.append (recordBytes_le_of_appendAtPath happend) path parent
  rw [appendAtPath_none happend] at happend'
  obtain ⟨rfl, -⟩ := Prod.mk.inj happend'
  rw [hline, hsize] at htext
  rcases htext with ⟨hfits, htext⟩ | ⟨hfull, htext⟩
  · rw [Log.push, if_pos hfits, Holds, render_append]
    exact htext
  · rw [Log.push, if_neg (Nat.not_le.mpr hfull)]
    exact htext

/-! ## Readers of a log that an append has failed on -/

/-- Whatever is appended next, the history can be read. -/
def StaysReadable (json : EventJson) (path parent : String) (files : Files) : Prop :=
  ∀ later, json.Faithful later → ∀ files',
    appendAtPath json none path parent files later = (files', .ok ()) →
      ∃ history, readHistory json path parent files' = .ok history

/-- An append that fails changes nothing for the readers. -/
def Atomic (json : EventJson) (fault : Option AppendFault) (path parent : String) (files : Files)
    (event : AuditEvent) : Prop :=
  ∀ files' e, appendAtPath json fault path parent files event = (files', .error e) →
    ∃ history, readHistory json path parent files = .ok history ∧
      readHistory json path parent files' = .ok history ∧ StaysReadable json path parent files'

/-- There is room for an event in the newer generation. -/
def HasRoom (json : EventJson) (log : Log AuditEvent) (event : AuditEvent) : Prop :=
  Log.total json.recordBytes log.newer + json.recordBytes event ≤ maxRuntimeLogBytes

instance (log : Log AuditEvent) (event : AuditEvent) : Decidable (HasRoom json log event) :=
  inferInstanceAs (Decidable (_ ≤ _))

/-- The calls whose failure no reader sees.  Those before the first effect are harmless, and so are
those before the line is written, if no older generation is lost on the way.  A line that was written
in part is there for good; one that was written as a whole is a record, and if the failure is behind
it, the history is the same only where a rotation has lost the record that it has won. -/
def Harmless (json : EventJson) (log : Log AuditEvent) (event : AuditEvent) : AppendFault → Prop
  | .lock _ | .createDir | .removeRotated => True
  | .rename | .openDir | .syncDir | .open | .write 0 => HasRoom json log event ∨ log.older = []
  | .write (_ + 1) | .writeNewline => False
  | .sync => ¬ HasRoom json log event ∧ log.newer ++ [event] = log.records

/-- What is kept of a log and of what is appended to it can be read. -/
theorem faithful_push {log : Log AuditEvent} {event : AuditEvent}
    (hlog : ∀ event ∈ log.records, json.Faithful event) (hevent : json.Faithful event) :
    ∀ kept ∈ (log.push maxRuntimeLogBytes json.recordBytes event).records, json.Faithful kept := by
  intro kept hkept
  rcases List.mem_append.mp ((Log.push_suffix _ _ log event).subset hkept) with hold | hnew
  · exact hlog kept hold
  · rw [List.mem_singleton.mp hnew]
    exact hevent

theorem Holds.staysReadable {files : Files} {log : Log AuditEvent} (h : Holds json files log)
    (hlog : ∀ event ∈ log.records, json.Faithful event) (path parent : String) :
    StaysReadable json path parent files := fun _ hlater _ happend ↦
  ⟨_, (holds_push h.toTexts happend).readHistory (faithful_push hlog hlater) path parent⟩

/-- If what is left is a log, its records decide. -/
theorem atomic_iff_of_holds {fault : Option AppendFault} {path parent : String}
    {files files' : Files} {log log' : Log AuditEvent} {event : AuditEvent} {e : AuditLogError}
    (happend : appendAtPath json fault path parent files event = (files', .error e))
    (h : Holds json files log) (hlog : ∀ event ∈ log.records, json.Faithful event)
    (h' : Holds json files' log') (hlog' : ∀ event ∈ log'.records, json.Faithful event) :
    Atomic json fault path parent files event ↔ log'.records = log.records := by
  have hread := h.readHistory hlog path parent
  have hread' := h'.readHistory hlog' path parent
  constructor
  · intro hatomic
    obtain ⟨history, hbefore, hafter, -⟩ := hatomic files' e happend
    rw [hread] at hbefore
    rw [hread'] at hafter
    exact (Except.ok.inj hafter).trans (Except.ok.inj hbefore).symm
  · intro hrecords files'' e' happend'
    rw [happend] at happend'
    obtain ⟨rfl, -⟩ := Prod.mk.inj happend'
    exact ⟨log.records, hread, hrecords ▸ hread', h'.staysReadable hlog' path parent⟩

/-- **A line without its line feed** is seen by every reader: cut short it is not JSON, and as a whole
it becomes one line with the next. -/
theorem not_atomic_of_torn {fault : Option AppendFault} {path parent : String}
    {files files' : Files} {log' : Log AuditEvent} {event : AuditEvent} {e : AuditLogError}
    {s r : List Char}
    (happend : appendAtPath json fault path parent files event = (files', .error e))
    (hsmall : json.recordBytes event ≤ maxRuntimeLogBytes)
    (h' : HoldsText files' (render json log'.older) (render json log'.newer ++ s))
    (hlog' : ∀ event ∈ log'.records, json.Faithful event) (hevent : json.Faithful event)
    (hstrict : json.Strict event) (hs : s ≠ []) (htext : json.toText event = s ++ r) :
    ¬ Atomic json fault path parent files event := by
  intro hatomic
  obtain ⟨history, -, hafter, hreadable⟩ := hatomic files' e happend
  obtain ⟨hfeed, hblank⟩ := hevent.beginning hs htext
  cases r with
  | nil =>
    rw [List.append_nil] at htext
    obtain ⟨files'', hlater, hglued⟩ := h'.toTexts.append hsmall path parent
    obtain ⟨history', hhistory⟩ := hreadable event hevent files'' hlater
    obtain ⟨e', hbad⟩ := parseHistory_glued hevent hstrict
    rw [← htext] at hglued
    rcases hglued with ⟨-, hglued⟩ | ⟨-, hglued⟩
    · rw [hglued.readHistory, List.append_assoc, ← List.append_assoc, ← render_append,
        ← Log.records, parseHistory_append hlog', hbad] at hhistory
      cases hhistory
    · rw [hglued.readHistory, List.append_assoc, parseHistory_append fun event hmem ↦
        hlog' event (List.mem_append_right _ hmem), hbad] at hhistory
      cases hhistory
  | cons c r =>
    have hnone : json.fromStr s = none := hstrict.truncated s (c :: r) (by simp) htext
    rw [h'.readHistory, ← List.append_assoc, ← render_append, ← Log.records,
      parseHistory_append hlog', parseHistory_line hblank hfeed, hnone] at hafter
    cases hafter

/-- A write that stopped behind the first byte. -/
theorem not_atomic_of_write {fault : Option AppendFault} {path parent : String}
    {files files' : Files} {log' : Log AuditEvent} {event : AuditEvent} {e : AuditLogError}
    {written : Nat}
    (happend : appendAtPath json fault path parent files event = (
      { files' with current := some (files'.current.getD ByteArray.empty ++
        (json.toVec event).extract 0 (written + 1)) }, .error e))
    (hsmall : json.recordBytes event ≤ maxRuntimeLogBytes) (h' : Holds json files' log')
    (hlog' : ∀ event ∈ log'.records, json.Faithful event) (hevent : json.Faithful event)
    (hstrict : json.Strict event) : ¬ Atomic json fault path parent files event := by
  have hpos : 0 < (json.toVec event).size := by
    obtain ⟨members, hmembers⟩ := hevent.object
    rw [EventJson.toVec, Text.size_encode, hmembers, List.cons_append, Text.byteLength_cons]
    exact Nat.lt_of_lt_of_le (Char.utf8Size_pos _) (Nat.le_add_right _ _)
  by_cases hvalid : ((json.toVec event).extract 0 (written + 1)).IsValidUTF8
  · obtain ⟨s, r, htext, hextract⟩ := Text.exists_of_extract_encode hvalid
    rw [EventJson.toVec, hextract] at happend
    refine not_atomic_of_torn happend hsmall (Texts.write h'.toTexts s) hlog' hevent hstrict ?_ htext
    rintro rfl
    -- something was written, so what was written is not empty
    have hsize := congrArg ByteArray.size hextract
    rw [ByteArray.size_extract, Text.size_encode [], Text.byteLength_nil] at hsize
    rw [EventJson.toVec] at hpos
    omega
  · intro hatomic
    obtain ⟨history, -, hafter, -⟩ := hatomic _ e happend
    have hcurrent : readOptional path (some (files'.current.getD ByteArray.empty ++
        (json.toVec event).extract 0 (written + 1))) =
          .error (.context ("failed to read runtime log: " ++ path)) := by
      rw [h'.current, readOptional,
        Text.decode_eq_none (mt (Text.isValidUTF8_encode_append_iff _ _).mp hvalid)]
    obtain ⟨hrotated, -⟩ := @readOptional_of_text (rotatedPath path) _ _ h'.rotated
    rw [readHistory, readRawAtPath, acquireLock] at hafter
    dsimp only at hafter
    rw [hrotated, hcurrent] at hafter
    cases hafter

/-- The write of the line and what is behind it, on files that hold a log. -/
theorem atomic_appendLine_iff {fault : Option AppendFault} {path parent : String}
    {files files' : Files} {log log' : Log AuditEvent} {event : AuditEvent}
    (happend : appendAtPath json fault path parent files event =
      appendLine fault path files' (json.toVec event))
    (hsmall : json.recordBytes event ≤ maxRuntimeLogBytes) (hholds : Holds json files log)
    (hlog : ∀ event ∈ log.records, json.Faithful event) (h' : Holds json files' log')
    (hlog' : log'.records ⊆ log.records) (hevent : json.Faithful event)
    (hstrict : json.Strict event) :
    Atomic json fault path parent files event ↔
      ∀ call ∈ fault, (call = .open ∨ call = .write 0 → log'.records = log.records) ∧
        (∀ written, call ≠ .write (written + 1)) ∧ call ≠ .writeNewline ∧
        (call = .sync → log'.records ++ [event] = log.records) := by
  have hfaithful : ∀ event ∈ log'.records, json.Faithful event := fun event hmem ↦
    hlog event (hlog' hmem)
  have hdone : ∀ files'', appendAtPath json fault path parent files event = (files'', .ok ()) →
      Atomic json fault path parent files event := by
    intro files'' hok files₃ e herror
    rw [hok] at herror
    cases herror
  cases fault with
  | none => exact iff_of_true (hdone _ happend) (by simp)
  | some call =>
    simp only [Option.mem_some_iff, forall_eq']
    cases call with
    | «open» =>
      rw [atomic_iff_of_holds happend hholds hlog h' hfaithful]
      simp
    | write written =>
      cases written with
      | zero =>
        rw [appendLine, show (json.toVec event).extract 0 0 = ByteArray.empty by simp,
          ByteArray.append_empty] at happend
        have hsame : Holds json
            { files' with current := some (files'.current.getD ByteArray.empty) } log' :=
          ⟨⟨h'.rotated, h'.current⟩, Or.inr (by simp)⟩
        rw [atomic_iff_of_holds happend hholds hlog hsame hfaithful]
        simp
      | succ written =>
        refine iff_of_false ?_ fun h ↦ h.2.1 written rfl
        exact not_atomic_of_write happend hsmall h' hfaithful hevent hstrict
    | writeNewline =>
      refine iff_of_false ?_ fun h ↦ h.2.2.1 rfl
      have htext : json.toText event = json.toText event ++ [] := (List.append_nil _).symm
      refine not_atomic_of_torn happend hsmall (Texts.write h'.toTexts _) hfaithful hevent hstrict ?_ htext
      intro hnil
      exact hevent.not_blank.1 (by rw [hnil]; rfl)
    | sync =>
      have hwritten : Holds json
          { files' with
            current := some (files'.current.getD ByteArray.empty ++ json.toVec event ++
              Text.encode ['\n']) }
          { log' with newer := log'.newer ++ [event] } := by
        have hline : render json [event] = json.toText event ++ ['\n'] := render_cons event []
        rw [Holds, render_append, hline]
        exact Texts.writeLine h'.toTexts event
      have hrecords : ({ log' with newer := log'.newer ++ [event] } : Log AuditEvent).records =
          log'.records ++ [event] := (List.append_assoc ..).symm
      rw [atomic_iff_of_holds happend hholds hlog hwritten, hrecords]
      · simp
      · rw [hrecords]
        intro later hmem
        rcases List.mem_append.mp hmem with hmem | hmem
        · exact hfaithful later hmem
        · rw [List.mem_singleton.mp hmem]
          exact hevent
    | _ => exact iff_of_true (hdone _ happend) (by simp)

/-- **What a failed append leaves to its readers.**  The history is what it was, and can be appended
to, if and only if the event is too large or the call that failed is a harmless one. -/
theorem appendAtPath_atomic_iff {fault : Option AppendFault} {files : Files}
    {log : Log AuditEvent} {event : AuditEvent} (path parent : String) (hholds : Holds json files log)
    (hlog : ∀ event ∈ log.records, json.Faithful event) (hevent : json.Faithful event)
    (hstrict : json.Strict event) :
    Atomic json fault path parent files event ↔
      maxRuntimeLogBytes < json.recordBytes event ∨
        ∀ call ∈ fault, Harmless json log event call := by
  by_cases hlarge : maxRuntimeLogBytes < json.recordBytes event
  · have happend := appendAtPath_of_oversized hlarge fault path parent files
    refine iff_of_true ?_ (Or.inl hlarge)
    exact (atomic_iff_of_holds happend hholds hlog hholds hlog).mpr rfl
  rw [or_iff_right hlarge]
  have hsmall : json.recordBytes event ≤ maxRuntimeLogBytes := Nat.not_lt.mp hlarge
  have hsize : Text.byteLength (render json log.newer) = Log.total json.recordBytes log.newer := by
    rw [← Text.size_encode, size_encode_render]
  have hnewer : ∀ event ∈ log.newer, json.Faithful event := fun event hmem ↦
    hlog event (List.mem_append_right _ hmem)
  rcases @appendAtPath_of_small json fault path parent files event hsmall with
    ⟨hfault, e, happend⟩ | ⟨hlock, hdir, herror, hok⟩
  · -- nothing has happened yet
    refine iff_of_true ((atomic_iff_of_holds happend hholds hlog hholds hlog).mpr rfl) ?_
    rintro call hcall
    rcases hfault with ⟨lock, rfl⟩ | rfl
    · rw [← Option.mem_some_iff.mp hcall]
      trivial
    · rw [← Option.mem_some_iff.mp hcall]
      trivial
  by_cases hroom : HasRoom json log event
  · have hrotate : rotateIfNeeded fault path parent files (json.recordBytes event) =
        (files, .ok ()) := rotateIfNeeded_of_fits (by
      rw [Texts.fileSize hholds.toTexts, hsize]
      exact hroom)
    rw [atomic_appendLine_iff (hok files hrotate) hsmall hholds hlog hholds (List.Subset.refl _) hevent
      hstrict]
    refine forall₂_congr fun call _ ↦ ?_
    cases call with
    | write written => cases written <;> simp [Harmless, hroom]
    | _ => simp [Harmless, hroom]
  · have hfull : maxRuntimeLogBytes <
        Text.byteLength (render json log.newer) + json.recordBytes event := by
      rw [hsize]
      exact Nat.not_le.mp hroom
    rcases @rotateIfNeeded_cases fault path parent files _ _ _ hholds.toTexts hsmall hfull with
      ⟨rfl, e, hrotate⟩ | ⟨rfl, files', e, hrotate, hkept⟩ | ⟨hcall, files', e, hrotate, hmoved⟩ |
        ⟨hcalls, files', hrotate, hmoved⟩
    · have hatomic := (atomic_iff_of_holds (herror files e hrotate) hholds hlog hholds hlog).mpr rfl
      exact iff_of_true hatomic (by simp [Harmless])
    · have hkept : Holds json files' { newer := log.newer } := hkept
      rw [atomic_iff_of_holds (herror files' e hrotate) hholds hlog hkept hnewer]
      simp [Harmless, hroom, Log.records]
    · have hmoved : Holds json files' { older := log.newer } := hmoved
      rw [atomic_iff_of_holds (herror files' e hrotate) hholds hlog hmoved
        (by simpa [Log.records] using hnewer)]
      rcases hcall with rfl | rfl <;> simp [Harmless, hroom, Log.records]
    · have hmoved : Holds json files' { older := log.newer } := hmoved
      have hsubset : ({ older := log.newer } : Log AuditEvent).records ⊆ log.records := by
        simp [Log.records]
      rw [atomic_appendLine_iff (hok files' hrotate) hsmall hholds hlog hmoved hsubset hevent hstrict]
      refine forall₂_congr fun call hcall ↦ ?_
      have hother := hcalls call hcall
      cases call with
      | write written => cases written <;> simp [Harmless, hroom, Log.records]
      | _ => simp_all [Harmless, Log.records]

/-- What appends have produced is such a log. -/
theorem appendAll_holds (path parent : String) (files : Files) (events : List AuditEvent)
    (hjson : ∀ event ∈ events, json.Faithful event) :
    ∃ log : Log AuditEvent, Holds json (appendAll json path parent files events).files log ∧
      ∀ event ∈ log.records, json.Faithful event := by
  obtain ⟨log, hrep, hretains⟩ := @appendAll_retains json path parent files events
  rw [accepted_appendAll] at hretains
  exact ⟨log, hrep.holds, fun event hmem ↦
    hjson event (accepted_subset events (hretains.suffix.subset hmem))⟩

theorem createdJson_strict : createdJson.Strict createdEvent where
  truncated := by
    intro s r hr htext
    have hshort : s ≠ createdJson.toText createdEvent := by
      intro h
      have hlength := congrArg List.length htext
      rw [← h, List.length_append] at hlength
      have hpos := List.length_pos_of_ne_nil hr
      omega
    exact if_neg hshort
  trailing := by
    have hlong : createdJson.toText createdEvent ++ createdJson.toText createdEvent ≠
        createdJson.toText createdEvent := by
      intro h
      have hlength := congrArg List.length h
      simp [createdJson, lifecycleText] at hlength
    exact @if_neg _ _ hlong _ (some createdEvent) none

/-- A log with one event in it, and an append that cannot open the file. -/
theorem created_atomic :
    Atomic createdJson (some .open) "/run/crun-rs/demo/runtime.log" "/run/crun-rs/demo"
      (appendAll createdJson "/run/crun-rs/demo/runtime.log" "/run/crun-rs/demo" {}
        [createdEvent]).files createdEvent := by
  have hjson : ∀ event ∈ ({ newer := [createdEvent] } : Log AuditEvent).records,
      createdJson.Faithful event := by
    intro event hmem
    rw [List.mem_singleton.mp hmem]
    exact createdJson_faithful
  refine (appendAtPath_atomic_iff "/run/crun-rs/demo/runtime.log" "/run/crun-rs/demo"
    (represents_created ..).holds hjson createdJson_faithful createdJson_strict).mpr
      (Or.inr fun call hcall ↦ ?_)
  rw [← Option.mem_some_iff.mp hcall]
  exact Or.inr rfl

/-- After one event that was written, an append that stops behind the first byte of its line. -/
theorem not_created_atomic : ¬ ∀ (fault : Option AppendFault) (events : List AuditEvent)
    (event : AuditEvent), (∀ event ∈ events, createdJson.Faithful event) →
      createdJson.Faithful event → createdJson.Strict event →
        Atomic createdJson fault "/run/crun-rs/demo/runtime.log" "/run/crun-rs/demo"
          (appendAll createdJson "/run/crun-rs/demo/runtime.log" "/run/crun-rs/demo" {} events).files
          event := by
  intro h
  have hjson : ∀ event ∈ [createdEvent], createdJson.Faithful event := by
    intro event hmem
    rw [List.mem_singleton.mp hmem]
    exact createdJson_faithful
  have hatomic := h (some (.write 1)) [createdEvent] createdEvent hjson createdJson_faithful
    createdJson_strict
  have hrep := represents_created "/run/crun-rs/demo/runtime.log" "/run/crun-rs/demo"
  have hbytes := recordBytes_createdEvent_le
  have hsmall : createdJson.recordBytes createdEvent ≤ maxRuntimeLogBytes :=
    Nat.le_trans hbytes (by decide)
  have hroom : rotateIfNeeded (some (.write 1)) "/run/crun-rs/demo/runtime.log" "/run/crun-rs/demo"
      (appendAll createdJson "/run/crun-rs/demo/runtime.log" "/run/crun-rs/demo" {}
        [createdEvent]).files (createdJson.recordBytes createdEvent) =
      ((appendAll createdJson "/run/crun-rs/demo/runtime.log" "/run/crun-rs/demo" {}
        [createdEvent]).files, .ok ()) := by
    have hfile := Texts.fileSize hrep.holds.toTexts
    rw [← Text.size_encode, size_encode_render] at hfile
    refine rotateIfNeeded_of_fits ?_
    rw [hfile, Log.total_cons, Log.total_nil, maxRuntimeLogBytes]
    omega
  rcases @appendAtPath_of_small createdJson (some (.write 1)) "/run/crun-rs/demo/runtime.log"
    "/run/crun-rs/demo" _ createdEvent hsmall with ⟨hfault, -⟩ | ⟨-, -, -, hok⟩
  · simp at hfault
  · refine not_atomic_of_write (hok _ hroom) hsmall hrep.holds ?_ createdJson_faithful
      createdJson_strict hatomic
    exact hjson

end CrunRs.AuditLog
