import CrunRs.Lib.Rotation
import CrunRs.Lib.Text
import CrunRs.Error
import Std.Data.ExtTreeMap

/-!
# The audit log

`audit_log.rs`: one JSON object per line in `runtime.log`, and the generation before it in
`runtime.log.1`.  An append that would push the file over a megabyte first renames it over the older
one.

The files implement a `Rotation.Log` of events (`Represents`): the text of a generation is the events'
lines put together (`render`), and it is read back line by line (`parseHistory_render`), because the
compact encoding of an event has no line feed in it.  Everything up to the write leaves that
intact, so what a reader gets is a suffix of the accepted events (`history_is_suffix`).
-/

set_option autoImplicit false

namespace CrunRs.AuditLog

open Rotation

/-! ## Events and their encoding -/

structure AuditEvent where
  timestampUnix : UInt64
  id : String
  source : String
  name : String
  value : Option UInt64
  delta : Option UInt64
  fields : Option (Std.ExtTreeMap String UInt64)
  status : Option String

/-- The JSON library, as far as it is used: the compact encoding of an event, which is UTF-8 and does
not fail for a record with string keys, and the decoding of a line. -/
structure EventJson where
  toText : AuditEvent → List Char
  fromStr : List Char → Option AuditEvent

/-- What is relied on: an event is encoded as an object, on one line, and is read back. -/
structure EventJson.Faithful (json : EventJson) (event : AuditEvent) : Prop where
  no_newline : '\n' ∉ json.toText event
  object : ∃ members, json.toText event = '{' :: members ++ ['}']
  round_trip : json.fromStr (json.toText event) = some event

/-- `serde_json::to_vec`. -/
def EventJson.toVec (json : EventJson) (event : AuditEvent) : ByteArray :=
  Text.encode (json.toText event)

/-- The bytes an event takes in the log. -/
def EventJson.recordBytes (json : EventJson) (event : AuditEvent) : Nat := (json.toVec event).size + 1

/-! ## The files -/

/-- `MAX_RUNTIME_LOG_BYTES`. -/
def maxRuntimeLogBytes : Nat := 1048576

/-- `runtime.log` and `runtime.log.1`. -/
structure Files where
  current : Option ByteArray := none
  rotated : Option ByteArray := none

/-- `rotated_path`. -/
def rotatedPath (path : String) : String := path ++ ".1"

/-- `lock_path`. -/
def lockPath (path : String) : String := path ++ ".lock"

/-- The system calls of `acquire_lock`. -/
inductive LockFault
  | createDir
  | open
  | flock
  deriving DecidableEq, Repr

/-- The system calls of `append_at_path`, in the order they are made.  A call that fails ends the
append, so at most one of them does. -/
inductive AppendFault
  | lock (fault : LockFault)
  | createDir
  | removeRotated
  | rename
  | openDir
  | syncDir
  | open
  /-- The write of the line stops after so many bytes. -/
  | write (written : Nat)
  | writeNewline
  | sync
  deriving DecidableEq, Repr

/-- The failure of the lock, if that is what fails. -/
def AppendFault.lockFault : Option AppendFault → Option LockFault
  | some (.lock fault) => some fault
  | _ => none

/-- `acquire_lock`; `parent` is the directory of the log. -/
def acquireLock (fault : Option LockFault) (path parent : String) : Except AuditLogError Unit :=
  match fault with
  | none => .ok ()
  | some .createDir => .error (.context ("failed to create runtime log dir: " ++ parent))
  | some .open => .error (.context ("failed to open runtime log lock: " ++ lockPath path))
  | some .flock => .error (.context ("failed to lock runtime log: " ++ lockPath path))

/-- `reset`, when its system calls succeed: no older generation and an empty newer one. -/
def reset (_files : Files) : Files := { current := some ByteArray.empty, rotated := none }

/-- `rotate_if_needed`. -/
def rotateIfNeeded (fault : Option AppendFault) (path parent : String) (files : Files)
    (incomingBytes : Nat) : Files × Except AuditLogError Unit :=
  let currentSize := (files.current.map ByteArray.size).getD 0
  if currentSize + incomingBytes ≤ maxRuntimeLogBytes then (files, .ok ())
  else if fault = some .removeRotated then
    (files, .error (.context ("failed to remove " ++ rotatedPath path)))
  else
    let files := { files with rotated := none }
    match files.current with
    | none => (files, .ok ())
    | some content =>
      if fault = some .rename then
        (files, .error (.context
          ("failed to rotate runtime log " ++ path ++ " to " ++ rotatedPath path)))
      else
        let files : Files := { current := none, rotated := some content }
        if fault = some .openDir then
          (files, .error (.context ("failed to open runtime log directory: " ++ parent)))
        else if fault = some .syncDir then
          (files, .error (.context ("failed to sync runtime log directory: " ++ parent)))
        else (files, .ok ())

/-- The end of `append_at_path`: the line is appended to what is there, and then its line feed. -/
def appendLine (fault : Option AppendFault) (path : String) (files : Files) (line : ByteArray) :
    Files × Except AuditLogError Unit :=
  let before := files.current.getD ByteArray.empty
  let write := AuditLogError.context ("failed to write runtime log: " ++ path)
  match fault with
  | some .open => (files, .error (.context ("failed to open runtime log: " ++ path)))
  | some (.write written) =>
    ({ files with current := some (before ++ line.extract 0 written) }, .error write)
  | some .writeNewline => ({ files with current := some (before ++ line) }, .error write)
  | some .sync =>
    ({ files with current := some (before ++ line ++ Text.encode ['\n']) },
      .error (.context ("failed to sync runtime log: " ++ path)))
  | _ => ({ files with current := some (before ++ line ++ Text.encode ['\n']) }, .ok ())

/-- `append_at_path`. -/
def appendAtPath (json : EventJson) (fault : Option AppendFault) (path parent : String)
    (files : Files) (event : AuditEvent) : Files × Except AuditLogError Unit :=
  let line := json.toVec event
  if line.size + 1 > maxRuntimeLogBytes then
    (files, .error (.recordTooLarge (line.size + 1) maxRuntimeLogBytes))
  else match acquireLock (AppendFault.lockFault fault) path parent with
    | .error e => (files, .error e)
    | .ok () =>
      if fault = some .createDir then
        (files, .error (.context ("failed to create runtime log dir: " ++ parent)))
      else match rotateIfNeeded fault path parent files (line.size + 1) with
        | (files, .error e) => (files, .error e)
        | (files, .ok ()) => appendLine fault path files line

/-! ## Reading -/

/-- `read_optional`: a file that is there has to be UTF-8. -/
def readOptional (path : String) : Option ByteArray → Except AuditLogError (Option (List Char))
  | none => .ok none
  | some content => match Text.decode content with
    | some text => .ok (some text)
    | none => .error (.context ("failed to read runtime log: " ++ path))

/-- `read_raw_at_path`. -/
def readRawAtPath (fault : Option LockFault) (path parent : String) (files : Files) :
    Except AuditLogError (List Char) := do
  acquireLock fault path parent
  let rotated ← readOptional (rotatedPath path) files.rotated
  let current ← readOptional path files.current
  match rotated, current with
  | some rotated, some current => .ok (rotated ++ current)
  | some rotated, none => .ok rotated
  | none, some current => .ok current
  | none, none => .error (.context ("failed to read runtime log: " ++ path))

/-- `parse_history`. -/
def parseHistory (json : EventJson) (raw : List Char) : Except AuditLogError (List AuditEvent) :=
  ((Text.lines raw).filter fun line ↦ Text.trim line ≠ []).mapM fun line ↦
    match json.fromStr line with
    | some event => .ok event
    | none => .error (.context "failed to parse runtime log event")

/-! ## The text of a generation -/

/-- The lines of some events. -/
def render (json : EventJson) (events : List AuditEvent) : List Char :=
  events.flatMap fun event ↦ json.toText event ++ ['\n']

variable {json : EventJson}

theorem render_cons (event : AuditEvent) (events : List AuditEvent) :
    render json (event :: events) = json.toText event ++ '\n' :: render json events := by
  rw [render, List.flatMap_cons, ← render, List.append_assoc, List.singleton_append]

theorem render_append (l m : List AuditEvent) :
    render json (l ++ m) = render json l ++ render json m := by
  rw [render, List.flatMap_append, ← render, ← render]

theorem size_encode_line (event : AuditEvent) :
    (Text.encode (json.toText event ++ ['\n'])).size = json.recordBytes event := by
  rw [Text.encode_append, ByteArray.size_append]
  rfl

/-- The bytes of a generation are those of its events. -/
theorem size_encode_render (events : List AuditEvent) :
    (Text.encode (render json events)).size = Log.total json.recordBytes events := by
  induction events with
  | nil => rfl
  | cons event events ih =>
    have hcons : render json (event :: events) =
        (json.toText event ++ ['\n']) ++ render json events := by
      rw [render_cons, List.append_assoc, List.singleton_append]
    rw [hcons, Text.encode_append, ByteArray.size_append, ih, size_encode_line]
    rfl

/-- An object has something to read, and does not end in a carriage return. -/
theorem EventJson.Faithful.not_blank {event : AuditEvent} (h : json.Faithful event) :
    Text.trim (json.toText event) ≠ [] ∧ (json.toText event).getLast? ≠ some '\r' := by
  obtain ⟨members, htext⟩ := h.object
  have hbrace : Text.isWhitespace '{' = false := by decide
  have hclose : Text.isWhitespace '}' = false := by decide
  constructor
  · rw [Text.trim, htext, List.cons_append, List.dropWhile_cons_of_neg (by simp [hbrace]),
      ← List.cons_append, List.reverse_append, List.reverse_singleton, List.singleton_append,
      List.dropWhile_cons_of_neg (by simp [hclose])]
    simp
  · rw [htext, List.getLast?_concat]
    decide

/-- **What was written line by line is read line by line.** -/
theorem parseHistory_render {events : List AuditEvent}
    (h : ∀ event ∈ events, json.Faithful event) :
    parseHistory json (render json events) = .ok events := by
  induction events with
  | nil => rfl
  | cons event events ih =>
    have hevent : json.Faithful event := h event List.mem_cons_self
    have hrest := ih fun e he ↦ h e (List.mem_cons_of_mem _ he)
    obtain ⟨hblank, hreturn⟩ := hevent.not_blank
    rw [parseHistory] at hrest ⊢
    rw [render_cons, Text.lines_append_cons _ hevent.no_newline hreturn,
      List.filter_cons_of_pos (by simpa using hblank), List.mapM_cons, hrest, hevent.round_trip]
    rfl

/-! ## The files implement a rotating log -/

/-- The files hold the two generations of the log. -/
structure Represents (json : EventJson) (files : Files) (log : Log AuditEvent) : Prop where
  current : files.current = some (Text.encode (render json log.newer))
  rotated : files.rotated.getD ByteArray.empty = Text.encode (render json log.older)

theorem represents_reset (files : Files) : Represents json (reset files) {} := ⟨rfl, rfl⟩

/-- An oversized event is refused, and nothing changes. -/
theorem appendAtPath_of_oversized {event : AuditEvent}
    (h : maxRuntimeLogBytes < json.recordBytes event) (fault : Option AppendFault)
    (path parent : String) (files : Files) :
    appendAtPath json fault path parent files event =
      (files, .error (.recordTooLarge (json.recordBytes event) maxRuntimeLogBytes)) := by
  have hcond : (json.toVec event).size + 1 > maxRuntimeLogBytes := h
  rw [appendAtPath, if_pos hcond]
  rfl

/-- The line of an event, written behind a generation. -/
theorem encode_render_append (events : List AuditEvent) (event : AuditEvent) :
    Text.encode (render json events) ++ json.toVec event ++ Text.encode ['\n'] =
      Text.encode (render json (events ++ [event])) := by
  have hline : render json [event] = json.toText event ++ ['\n'] := by
    rw [render_cons]
    rfl
  rw [render_append, hline, Text.encode_append, Text.encode_append, ByteArray.append_assoc]
  rfl

/-- **An append that fits writes the event to the log.** -/
theorem appendAtPath_of_fits {files : Files} {log : Log AuditEvent} {event : AuditEvent}
    (hrep : Represents json files log) (h : json.recordBytes event ≤ maxRuntimeLogBytes)
    (path parent : String) :
    ∃ files', appendAtPath json none path parent files event = (files', .ok ()) ∧
      Represents json files' (log.push maxRuntimeLogBytes json.recordBytes event) := by
  have hsize : (files.current.map ByteArray.size).getD 0 =
      Log.total json.recordBytes log.newer := by
    rw [hrep.current, Option.map_some, Option.getD_some, size_encode_render]
  have hsmall : ¬ (json.toVec event).size + 1 > maxRuntimeLogBytes := Nat.not_lt.mpr h
  rw [appendAtPath, if_neg hsmall]
  simp only [AppendFault.lockFault, acquireLock, reduceCtorEq, if_false, rotateIfNeeded, hsize]
  by_cases hfits : Log.total json.recordBytes log.newer + json.recordBytes event ≤
      maxRuntimeLogBytes
  · have hcond : Log.total json.recordBytes log.newer + ((json.toVec event).size + 1) ≤
        maxRuntimeLogBytes := hfits
    rw [if_pos hcond, Log.push, if_pos hfits]
    refine ⟨_, rfl, ?_, hrep.rotated⟩
    simp only [hrep.current, Option.getD_some, encode_render_append]
  · -- the current file becomes the older generation, and the line starts a new one
    have hcond : ¬ Log.total json.recordBytes log.newer + ((json.toVec event).size + 1) ≤
        maxRuntimeLogBytes := hfits
    rw [if_neg hcond, Log.push, if_neg hfits]
    simp only [hrep.current]
    refine ⟨_, rfl, ?_, rfl⟩
    have hline := @encode_render_append json [] event
    exact congrArg some hline

/-- Reading gives the text of both generations. -/
theorem readRawAtPath_of_represents {files : Files} {log : Log AuditEvent}
    (hrep : Represents json files log) (path parent : String) :
    readRawAtPath none path parent files = .ok (render json log.records) := by
  have hcurrent : readOptional path files.current = .ok (some (render json log.newer)) := by
    rw [hrep.current, readOptional, Text.decode_encode]
  have hrotated := hrep.rotated
  rw [readRawAtPath, hcurrent, Log.records, render_append]
  cases hfile : files.rotated with
  | none =>
    rw [hfile, Option.getD_none] at hrotated
    have hempty : render json log.older = [] := by
      have hdecode := Text.decode_encode (render json log.older)
      rw [← hrotated] at hdecode
      exact (Option.some.inj (Text.decode_nil.symm.trans hdecode)).symm
    rw [hempty]
    rfl
  | some content =>
    rw [hfile, Option.getD_some] at hrotated
    simp only [readOptional, hrotated, Text.decode_encode, acquireLock]
    rfl

/-! ## Sequences of appends -/

/-- The files, and the events whose append returned without an error. -/
structure Session where
  files : Files
  accepted : List AuditEvent

/-- One call of `append_at_path`, with the files working. -/
def Session.append (json : EventJson) (path parent : String) (s : Session) (event : AuditEvent) :
    Session :=
  match appendAtPath json none path parent s.files event with
  | (files, .ok ()) => ⟨files, s.accepted ++ [event]⟩
  | (files, .error _) => ⟨files, s.accepted⟩

/-- A log that was reset and then appended to. -/
def appendAll (json : EventJson) (path parent : String) (files : Files)
    (events : List AuditEvent) : Session :=
  events.foldl (Session.append json path parent) ⟨reset files, []⟩

/-- The files of a session hold a log that retains the accepted events. -/
def Session.Retains (json : EventJson) (s : Session) : Prop :=
  ∃ log : Log AuditEvent, Represents json s.files log ∧
    log.Retains maxRuntimeLogBytes json.recordBytes s.accepted

theorem Session.Retains.append {s : Session} (h : s.Retains json) (path parent : String)
    (event : AuditEvent) : (s.append json path parent event).Retains json := by
  obtain ⟨log, hrep, hretains⟩ := h
  by_cases hsize : json.recordBytes event ≤ maxRuntimeLogBytes
  · obtain ⟨files', happend, hrep'⟩ := appendAtPath_of_fits hrep hsize path parent
    rw [Session.append, happend]
    exact ⟨_, hrep', hretains.push hsize⟩
  · rw [Session.append, appendAtPath_of_oversized (Nat.not_le.mp hsize)]
    exact ⟨log, hrep, hretains⟩

theorem appendAll_retains (path parent : String) (files : Files) (events : List AuditEvent) :
    (appendAll json path parent files events).Retains json := by
  have hrun : ∀ s : Session, s.Retains json →
      (events.foldl (Session.append json path parent) s).Retains json := by
    induction events with
    | nil => exact fun s h ↦ h
    | cons event events ih => exact fun s h ↦ ih _ (h.append path parent event)
  exact hrun _ ⟨{}, represents_reset files, Log.retains_empty ..⟩

/-- The events whose records are small enough, in order. -/
def accepted (json : EventJson) (events : List AuditEvent) : List AuditEvent :=
  events.filter fun event ↦ json.recordBytes event ≤ maxRuntimeLogBytes

/-- The appends that return without an error are those of the events that are small enough. -/
theorem accepted_appendAll (path parent : String) (files : Files) (events : List AuditEvent) :
    (appendAll json path parent files events).accepted = accepted json events := by
  have hrun : ∀ s : Session, s.Retains json →
      (events.foldl (Session.append json path parent) s).accepted =
        s.accepted ++ accepted json events := by
    induction events with
    | nil => exact fun s _ ↦ (List.append_nil _).symm
    | cons event events ih =>
      intro s hretains
      rw [List.foldl_cons, ih _ (hretains.append path parent event)]
      obtain ⟨log, hrep, -⟩ := hretains
      by_cases hsize : json.recordBytes event ≤ maxRuntimeLogBytes
      · obtain ⟨files', happend, -⟩ := appendAtPath_of_fits hrep hsize path parent
        rw [Session.append, happend, accepted, accepted, List.filter_cons_of_pos (by simpa using hsize),
          List.append_assoc, List.singleton_append]
      · rw [Session.append, appendAtPath_of_oversized (Nat.not_le.mp hsize), accepted, accepted,
          List.filter_cons_of_neg (by simpa using hsize)]
  exact hrun _ ⟨{}, represents_reset files, Log.retains_empty ..⟩

theorem accepted_subset (events : List AuditEvent) : accepted json events ⊆ events :=
  fun _ h ↦ List.mem_of_mem_filter h

/-- The size of a file, which is 0 if it is not there. -/
def fileSize (file : Option ByteArray) : Nat := (file.map ByteArray.size).getD 0

/-- The call that fails is one an append of so many bytes makes: the file is only rotated if they do
not fit. -/
def AppendFault.Hits (files : Files) (incomingBytes : Nat) : AppendFault → Prop
  | .removeRotated | .rename | .openDir | .syncDir =>
    maxRuntimeLogBytes < fileSize files.current + incomingBytes
  | _ => True

/-- The record of an event is not too large, and no call of its append fails. -/
def Appends (json : EventJson) (fault : Option AppendFault) (files : Files) (event : AuditEvent) :
    Prop :=
  json.recordBytes event ≤ maxRuntimeLogBytes ∧
    ∀ call ∈ fault, ¬ call.Hits files (json.recordBytes event)

theorem appendAtPath_eq_ok_iff {fault : Option AppendFault} {path parent : String} {files : Files}
    {event : AuditEvent} :
    (appendAtPath json fault path parent files event).2 = .ok () ↔
      Appends json fault files event := by
  rw [appendAtPath, Appends]
  by_cases hlarge : (json.toVec event).size + 1 > maxRuntimeLogBytes
  · rw [if_pos hlarge]
    exact iff_of_false (by simp) fun h ↦ Nat.not_le.mpr hlarge h.1
  · have hbytes : json.recordBytes event ≤ maxRuntimeLogBytes := Nat.not_lt.mp hlarge
    rw [if_neg hlarge, and_iff_right hbytes]
    by_cases hfits : fileSize files.current + json.recordBytes event ≤ maxRuntimeLogBytes
    · have hrotate : ∀ call, rotateIfNeeded call path parent files ((json.toVec event).size + 1) =
          (files, .ok ()) := fun call ↦ if_pos hfits
      simp only [hrotate]
      cases fault with
      | none => simp [AppendFault.lockFault, acquireLock, appendLine]
      | some call =>
        cases call with
        | lock call => cases call <;> simp [AppendFault.lockFault, acquireLock, AppendFault.Hits]
        | _ => simp [AppendFault.lockFault, acquireLock, appendLine, AppendFault.Hits, hfits]
    · have hhits : maxRuntimeLogBytes < fileSize files.current + json.recordBytes event :=
        Nat.not_le.mp hfits
      have hthere : ∃ content, files.current = some content := by
        cases hcurrent : files.current with
        | none => simp [fileSize, hcurrent, hbytes] at hfits
        | some content => exact ⟨content, rfl⟩
      obtain ⟨content, hcontent⟩ := hthere
      have hsize : ¬ content.size + ((json.toVec event).size + 1) ≤ maxRuntimeLogBytes := by
        simpa [fileSize, hcontent, EventJson.recordBytes] using hfits
      simp only [rotateIfNeeded, hcontent, Option.map_some, Option.getD_some, if_neg hsize]
      cases fault with
      | none => simp [AppendFault.lockFault, acquireLock, appendLine]
      | some call =>
        cases call with
        | lock call => cases call <;> simp [AppendFault.lockFault, acquireLock, AppendFault.Hits]
        | _ => simp [AppendFault.lockFault, acquireLock, appendLine, AppendFault.Hits, hhits]

/-- **Audit log retention.**  After a reset and any sequence of appends, exactly the events that are not
oversized have been accepted, neither file is above the limit, and a reader gets a suffix of the
accepted events that has the last of them in it.  An oversized event is refused and changes nothing. -/
theorem history_is_suffix (json : EventJson) (path parent : String) (files : Files)
    (events : List AuditEvent) (hjson : ∀ event ∈ events, json.Faithful event) :
    let session := appendAll json path parent files events
    session.accepted = accepted json events ∧
      fileSize session.files.current ≤ maxRuntimeLogBytes ∧
      fileSize session.files.rotated ≤ maxRuntimeLogBytes ∧
      (∃ raw history, readRawAtPath none path parent session.files = .ok raw ∧
        parseHistory json raw = .ok history ∧ history <:+ accepted json events ∧
        history.getLast? = (accepted json events).getLast?) ∧
      ∀ event, maxRuntimeLogBytes < json.recordBytes event →
        appendAtPath json none path parent session.files event =
          (session.files, .error (.recordTooLarge (json.recordBytes event) maxRuntimeLogBytes)) := by
  intro session
  have haccepted : session.accepted = accepted json events := accepted_appendAll path parent files events
  obtain ⟨log, hrep, hretains⟩ := @appendAll_retains json path parent files events
  rw [accepted_appendAll] at hretains
  have hcurrent : fileSize session.files.current = Log.total json.recordBytes log.newer := by
    rw [fileSize, hrep.current, Option.map_some, Option.getD_some, size_encode_render]
  have hrotated : fileSize session.files.rotated = Log.total json.recordBytes log.older := by
    rw [← size_encode_render, ← hrep.rotated, fileSize]
    cases session.files.rotated <;> rfl
  have hknown : ∀ event ∈ log.records, json.Faithful event := fun event he ↦
    hjson event (accepted_subset events (hretains.suffix.subset he))
  refine ⟨haccepted, hcurrent ▸ hretains.newer_le, hrotated ▸ hretains.older_le, ?_, fun event he ↦ ?_⟩
  · exact ⟨_, log.records, readRawAtPath_of_represents hrep path parent,
      parseHistory_render hknown, hretains.suffix, hretains.last⟩
  · exact appendAtPath_of_oversized he none path parent session.files

/-- An event of the lifecycle. -/
def lifecycleEvent (name : String) : AuditEvent where
  timestampUnix := 1000
  id := "demo"
  source := "lifecycle"
  name := name
  value := none
  delta := none
  fields := none
  status := some "created"

/-- The encoding of such an event up to its name. -/
def textBeforeName : List Char :=
  ["\"timestamp_unix\":", "1000", ",\"id\":", "\"demo\"", ",\"source\":", "\"lifecycle\"",
    ",\"name\":\""].flatMap String.toList

/-- The encoding behind the name. -/
def textAfterName : List Char :=
  ["\",\"value\":", "null", ",\"delta\":", "null", ",\"fields\":", "null", ",\"status\":",
    "\"created\""].flatMap String.toList

def lifecycleText (name : List Char) : List Char :=
  '{' :: (textBeforeName ++ name ++ textAfterName) ++ ['}']

/-- A JSON library for these events, whose names need no escaping. -/
def lifecycleJson : EventJson where
  toText := fun event ↦ lifecycleText event.name.toList
  fromStr := fun line ↦
    let name := (line.drop (textBeforeName.length + 1)).take
      (line.length - (textBeforeName.length + textAfterName.length + 2))
    if line = lifecycleText name then some (lifecycleEvent (String.ofList name)) else none

theorem lifecycleJson_faithful {name : String} (hname : '\n' ∉ name.toList) :
    lifecycleJson.Faithful (lifecycleEvent name) where
  no_newline := by
    have hbefore : '\n' ∉ textBeforeName := by decide +kernel
    have hafter : '\n' ∉ textAfterName := by decide +kernel
    have hname : '\n' ∉ (lifecycleEvent name).name.toList := hname
    simp [lifecycleJson, lifecycleText, hbefore, hafter, hname]
  object := ⟨_, rfl⟩
  round_trip := by
    have htaken : ((lifecycleText name.toList).drop (textBeforeName.length + 1)).take
        ((lifecycleText name.toList).length - (textBeforeName.length + textAfterName.length + 2)) =
          name.toList := by
      have hlength : (lifecycleText name.toList).length -
          (textBeforeName.length + textAfterName.length + 2) = name.toList.length := by
        simp only [lifecycleText, List.length_append, List.length_cons, List.length_nil]
        omega
      rw [hlength, lifecycleText, List.cons_append, List.drop_succ_cons, List.append_assoc,
        List.append_assoc, List.drop_left, List.take_left]
    simp only [lifecycleJson, lifecycleEvent, htaken, if_true, String.ofList_toList]

theorem recordBytes_lifecycleEvent (name : String) :
    lifecycleJson.recordBytes (lifecycleEvent name) = Text.byteLength name.toList + 126 := by
  have hbefore : Text.byteLength textBeforeName = 63 := by decide +kernel
  have hafter : Text.byteLength textAfterName = 60 := by decide +kernel
  have hopen : '{'.utf8Size = 1 := by decide
  have hclose : '}'.utf8Size = 1 := by decide
  have htext : lifecycleJson.toText (lifecycleEvent name) = lifecycleText name.toList := rfl
  rw [EventJson.recordBytes, EventJson.toVec, Text.size_encode, htext, lifecycleText]
  simp only [List.cons_append, Text.byteLength_cons, Text.byteLength_append, Text.byteLength_nil, hbefore,
    hafter, hopen, hclose]
  omega

/-- Three events, of which the second one may be any. -/
def threeEvents (name : String) : List AuditEvent :=
  [lifecycleEvent "created", lifecycleEvent name, lifecycleEvent "started"]

theorem threeEvents_faithful {name : String} (hname : '\n' ∉ name.toList) :
    ∀ event ∈ threeEvents name, lifecycleJson.Faithful event := by
  refine List.forall_mem_cons.mpr ⟨lifecycleJson_faithful (by decide +kernel),
    List.forall_mem_cons.mpr ⟨lifecycleJson_faithful hname, fun event he ↦ ?_⟩⟩
  rw [List.mem_singleton.mp he]
  exact lifecycleJson_faithful (by decide +kernel)

/-- If it is oversized, the other two are accepted. -/
theorem accepted_threeEvents {name : String}
    (hname : maxRuntimeLogBytes < lifecycleJson.recordBytes (lifecycleEvent name)) :
    accepted lifecycleJson (threeEvents name) =
      [lifecycleEvent "created", lifecycleEvent "started"] := by
  have hcreated : lifecycleJson.recordBytes (lifecycleEvent "created") ≤ maxRuntimeLogBytes := by
    rw [recordBytes_lifecycleEvent]
    decide +kernel
  have hstarted : lifecycleJson.recordBytes (lifecycleEvent "started") ≤ maxRuntimeLogBytes := by
    rw [recordBytes_lifecycleEvent]
    decide +kernel
  rw [accepted, threeEvents, List.filter_cons_of_pos (by simpa using hcreated),
    List.filter_cons_of_neg (by simpa using hname), List.filter_cons_of_pos (by simpa using hstarted),
    List.filter_nil]

/-- A name of so many bytes. -/
def longName (n : Nat) : String := String.ofList (List.replicate n 'x')

theorem newline_notMem_longName (n : Nat) : '\n' ∉ (longName n).toList := by
  rw [longName, String.toList_ofList]
  intro hmem
  have heq : '\n' = 'x' := List.eq_of_mem_replicate hmem
  simp at heq

/-- A name can take all of the log by itself. -/
theorem longName_oversized {n : Nat} (hn : maxRuntimeLogBytes ≤ n) :
    maxRuntimeLogBytes < lifecycleJson.recordBytes (lifecycleEvent (longName n)) := by
  have hx : 'x'.utf8Size = 1 := by decide
  rw [recordBytes_lifecycleEvent, longName, String.toList_ofList, Text.byteLength_replicate, hx]
  omega

/-- Three appends of which the second is refused: the last one is read, behind the first or alone. -/
theorem history_of_threeEvents :
    (appendAll lifecycleJson "/run/crun-rs/demo/runtime.log" "/run/crun-rs/demo" {}
        (threeEvents (longName maxRuntimeLogBytes))).accepted =
        [lifecycleEvent "created", lifecycleEvent "started"] ∧
      ∃ raw history, readRawAtPath none "/run/crun-rs/demo/runtime.log" "/run/crun-rs/demo"
          (appendAll lifecycleJson "/run/crun-rs/demo/runtime.log" "/run/crun-rs/demo" {}
            (threeEvents (longName maxRuntimeLogBytes))).files = .ok raw ∧
        parseHistory lifecycleJson raw = .ok history ∧
        history <:+ [lifecycleEvent "created", lifecycleEvent "started"] ∧
        history.getLast? = some (lifecycleEvent "started") := by
  obtain ⟨hall, _, _, ⟨raw, history, hraw, hparse, hsuffix, hlast⟩, _⟩ :=
    history_is_suffix lifecycleJson "/run/crun-rs/demo/runtime.log" "/run/crun-rs/demo" {}
      (threeEvents (longName maxRuntimeLogBytes)) (threeEvents_faithful (newline_notMem_longName _))
  rw [accepted_threeEvents (longName_oversized (Nat.le_refl _))] at hall hsuffix hlast
  exact ⟨hall, raw, history, hraw, hparse, hsuffix, hlast⟩

/-- The event `create` and `run` log first. -/
def createdEvent : AuditEvent := lifecycleEvent "created"

/-- A JSON library that knows that event only. -/
def createdJson : EventJson where
  toText := fun _ ↦ lifecycleText "created".toList
  fromStr := fun line ↦ if line = lifecycleText "created".toList then some createdEvent else none

theorem createdJson_faithful : createdJson.Faithful createdEvent where
  no_newline := by
    rw [createdJson]
    decide +kernel
  object := ⟨_, rfl⟩
  round_trip := by simp only [createdJson, if_true]

theorem recordBytes_createdEvent_le : createdJson.recordBytes createdEvent ≤ 1000 := by
  rw [EventJson.recordBytes, EventJson.toVec, Text.size_encode]
  decide +kernel

/-- A log with that event in it. -/
theorem represents_created (path parent : String) :
    Represents createdJson (appendAll createdJson path parent {} [createdEvent]).files
      { newer := [createdEvent] } := by
  have hsmall : createdJson.recordBytes createdEvent ≤ maxRuntimeLogBytes :=
    Nat.le_trans recordBytes_createdEvent_le (by decide)
  obtain ⟨files, happend, hrep⟩ := appendAtPath_of_fits (represents_reset {}) hsmall path parent
  rw [Log.push, if_pos (by simpa using hsmall)] at hrep
  rwa [appendAll, List.foldl_cons, List.foldl_nil, Session.append, happend]

end CrunRs.AuditLog
