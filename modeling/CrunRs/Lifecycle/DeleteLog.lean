import CrunRs.AuditLog.Atomic
import CrunRs.AuditLog.Tail
import CrunRs.Lifecycle.Delete
import CrunRs.Lifecycle.StateRoot
import Mathlib.Data.Finset.Basic

/-!
# The audit log of a container that is deleted

`lifecycle::delete` logs that the container was deleted, reads the log into memory, deletes the
container with everything in its directory, and writes the log back.

A delete that fails has been logged as one that was done, and has made a directory for a container
that there never was.  A delete that is done keeps the history, if it could be read and its newest
record is not what `retain_tail` drops (`delete_logged_iff`).
-/

set_option autoImplicit false

namespace CrunRs.Lifecycle

open AuditLog Rotation State

/-! ## The directory of a container -/

/-- The directory of a container: its state, its audit log, and the names of the other files. -/
structure ContainerDir where
  state : StateFile := .missing
  log : AuditLog.Files := {}
  others : Finset String := ∅

/-- The same files are there. -/
structure ContainerDir.SameFiles (dir dir' : ContainerDir) : Prop where
  state : dir'.state = .missing ↔ dir.state = .missing
  current : dir'.log.current = none ↔ dir.log.current = none
  rotated : dir'.log.rotated = none ↔ dir.log.rotated = none
  others : dir'.others = dir.others

/-- What can go wrong in a delete.  A removal that fails does so before anything is removed. -/
structure DeleteFaults where
  append : Option AppendFault := none
  read : Option LockFault := none
  store : StoreFaults := {}
  removal : Option StateError := none
  write : Option WriteFault := none

/-- `runtime_log_file`. -/
def runtimeLogFile (id : String) : String := "/run/crun-rs/" ++ id ++ "/runtime.log"

/-- Its directory. -/
def runtimeLogDir (id : String) : String := "/run/crun-rs/" ++ id

/-- The event of a delete. -/
def deletedEvent (now : UInt64) (id : String) : AuditEvent where
  timestampUnix := now
  id := id
  source := "lifecycle"
  name := "deleted"
  value := none
  delta := none
  fields := none
  status := some "deleted"

/-- The files a load leaves besides the state: the lock, and where the state of a stale container
cannot be written, the temporary one. -/
def loadLeaves (pid : UInt32) (host : Host) (faults : StoreFaults) (id : String) (file : StateFile) :
    Finset String :=
  match lockState faults id with
  | .error _ => ∅
  | .ok () => insert ContainerFile.stateLock.name (match loadFrom id file with
    | .error _ => ∅
    | .ok state => match (refreshLiveness host state).result, faults.write with
      | .ok true, some _ => {(ContainerFile.stateTmp pid).name}
      | _, _ => ∅)

/-- `state::delete`. -/
def stateDelete (pid : UInt32) (host : Host) (faults : DeleteFaults) (id : String)
    (dir : ContainerDir) : ContainerDir × Except StateError Unit :=
  match deleteFrom host faults.store faults.removal id dir.state with
  | (file, .error e) =>
    ({ dir with
        state := file
        others := dir.others ∪ loadLeaves pid host faults.store id dir.state }, .error e)
  | (_, .ok ()) => ({}, .ok ())

/-- The lock file of the log is there, whether it could be locked or not. -/
def lockLeaves : Option LockFault → Finset String
  | some .createDir | some .open => ∅
  | some .flock | none => {ContainerFile.runtimeLogLock.name}

/-- `delete`; without a result it has panicked. -/
def delete (json : EventJson) (now : UInt64) (pid : UInt32) (host : Host) (faults : DeleteFaults)
    (id : String) (dir : ContainerDir) : ContainerDir × Option (Except LifecycleError Unit) :=
  match validateId id with
  | .error e => (dir, some (.error (.state e)))
  | .ok () =>
    let event := deletedEvent now id
    match appendAtPath json faults.append (runtimeLogFile id) (runtimeLogDir id) dir.log event with
    | (log, .error e) =>
      let locked := if json.recordBytes event ≤ maxRuntimeLogBytes then
        lockLeaves (AppendFault.lockFault faults.append) else ∅
      ({ dir with log := log, others := dir.others ∪ locked }, some (.error (.auditLog e)))
    | (log, .ok ()) =>
      let appended := { dir with log := log, others := dir.others ∪ lockLeaves none }
      let runtimeLog :=
        (readRawAtPath faults.read (runtimeLogFile id) (runtimeLogDir id) log).toOption
      match stateDelete pid host faults id appended with
      | (dir, .error e) => (dir, some (.error (.state e)))
      | (dir, .ok ()) => match runtimeLog with
        | none => (dir, some (.ok ()))
        | some content =>
          let written := writeRaw faults.write (runtimeLogFile id) (runtimeLogDir id) dir.log content
          ({ dir with
              log := written.1
              others := dir.others ∪ lockLeaves (WriteFault.lockFault faults.write) },
            written.2.map (Except.mapError .auditLog))

/-! ## When the state is deleted -/

/-- The state can be loaded, is not that of a running container, its network can be released, and the
directory removed. -/
def Deletes (host : Host) (faults : DeleteFaults) (id : String) (file : StateFile) : Prop :=
  ∃ state, (loadCurrentFrom host faults.store id file).result = .ok state ∧
    state.status ≠ .running ∧ releaseStateNetworkAllocation host state = none ∧
    faults.removal = none

theorem deleteFrom_eq_ok_iff {host : Host} {faults : DeleteFaults} {id : String}
    {file : StateFile} :
    (deleteFrom host faults.store faults.removal id file).2 = .ok () ↔
      Deletes host faults id file := by
  simp only [deleteFrom, Deletes]
  cases hload : (loadCurrentFrom host faults.store id file).result with
  | error e => simp
  | ok state =>
    simp only [Except.ok.injEq, exists_eq_left']
    by_cases hrunning : state.status = .running
    · rw [if_pos hrunning]
      simp [hrunning]
    · rw [if_neg hrunning]
      cases releaseStateNetworkAllocation host state with
      | some e => simp
      | none => cases faults.removal <;> simp [hrunning]

/-- A delete that fails does not take the state file away, and does not make one. -/
theorem deleteFrom_file {host : Host} {faults : StoreFaults} {removal : Option StateError}
    {id : String} {file file' : StateFile} {e : StateError}
    (h : deleteFrom host faults removal id file = (file', .error e)) :
    file' = .missing ↔ file = .missing := by
  have hfile : file' = (loadCurrentFrom host faults id file).file := by
    have hfst := congrArg Prod.fst h
    have hsnd := congrArg Prod.snd h
    simp only [deleteFrom] at hfst hsnd
    cases hload : (loadCurrentFrom host faults id file).result with
    | error e => simpa [hload] using hfst.symm
    | ok state =>
      simp only [hload] at hfst hsnd
      split_ifs at hfst hsnd with hrunning
      · exact hfst.symm
      · cases hrelease : releaseStateNetworkAllocation host state with
        | some e => simpa [hrelease] using hfst.symm
        | none => cases removal <;> simp_all
  rw [hfile]
  rcases loadCurrentFrom_cases host faults id file with ⟨hsame, -⟩ | ⟨old, new, hold, -, -, hnew, -⟩
  · rw [hsame]
  · rw [hnew, hold]
    simp

theorem stateDelete_of_deletes {host : Host} {faults : DeleteFaults} {id : String}
    {dir : ContainerDir} (h : Deletes host faults id dir.state) (pid : UInt32) :
    stateDelete pid host faults id dir = ({}, .ok ()) := by
  have hok := deleteFrom_eq_ok_iff.mpr h
  rw [stateDelete]
  cases hdelete : deleteFrom host faults.store faults.removal id dir.state with
  | mk file result =>
    rw [hdelete] at hok
    dsimp only at hok
    rw [hok]

theorem stateDelete_of_not_deletes {host : Host} {faults : DeleteFaults} {id : String}
    {dir : ContainerDir} (h : ¬ Deletes host faults id dir.state) (pid : UInt32) :
    ∃ file e, (file = .missing ↔ dir.state = .missing) ∧
      stateDelete pid host faults id dir =
        (⟨file, dir.log, dir.others ∪ loadLeaves pid host faults.store id dir.state⟩, .error e) := by
  have hfail := mt deleteFrom_eq_ok_iff.mp h
  rw [stateDelete]
  cases hdelete : deleteFrom host faults.store faults.removal id dir.state with
  | mk file result =>
    rw [hdelete] at hfail
    cases result with
    | ok => exact absurd rfl hfail
    | error e => exact ⟨file, e, deleteFrom_file hdelete, rfl⟩

/-! ## What is in the log afterwards -/

variable {json : EventJson}

/-- A delete of which the log says what has happened: where the state is not deleted, nothing; where
it is, what was in the log before and was kept, and last that the container was deleted. -/
structure LogsDelete (json : EventJson) (now : UInt64) (pid : UInt32) (host : Host)
    (faults : DeleteFaults) (id : String) (dir : ContainerDir) (before : List AuditEvent) :
    Prop where
  failed : ∀ dir' e, delete json now pid host faults id dir = (dir', some (.error (.state e))) →
    readHistory json (runtimeLogFile id) (runtimeLogDir id) dir'.log =
        readHistory json (runtimeLogFile id) (runtimeLogDir id) dir.log ∧
      dir.SameFiles dir'
  done : ∀ dir', delete json now pid host faults id dir = (dir', some (.ok ())) →
    ∃ history, readHistory json (runtimeLogFile id) (runtimeLogDir id) dir'.log = .ok history ∧
      history <:+ before ++ [deletedEvent now id] ∧ history.getLast? = some (deletedEvent now id)

/-- A delete that was logged and failed, and nothing of it is to be seen: the log has lost one record,
to a rotation, and won an equal one, and the locks were there. -/
def Unseen (json : EventJson) (now : UInt64) (pid : UInt32) (host : Host) (faults : DeleteFaults)
    (id : String) (dir : ContainerDir) (log : Log AuditEvent) : Prop :=
  ¬ HasRoom json log (deletedEvent now id) ∧ log.newer ++ [deletedEvent now id] = log.records ∧
    lockLeaves none ∪ loadLeaves pid host faults.store id dir.state ⊆ dir.others

/-- The history that is read, and is kept by `retain_tail`: not if the record takes a whole file, and
another one is before it. -/
def Kept (json : EventJson) (now : UInt64) (faults : DeleteFaults) (id : String)
    (log : Log AuditEvent) : Prop :=
  faults.read = none ∧
    (json.recordBytes (deletedEvent now id) = maxRuntimeLogBytes →
      (log.push maxRuntimeLogBytes json.recordBytes (deletedEvent now id)).records =
          [deletedEvent now id] ∨
        faults.write ≠ none)

theorem render_eq_unlines (events : List AuditEvent) :
    render json events = Text.unlines (events.map json.toText) := by
  rw [render, Text.unlines, List.flatMap_map]

/-- A record that takes a whole file is dropped, if it is behind another one. -/
theorem retainTail_render_full {events : List AuditEvent} {event : AuditEvent}
    (hevent : json.Faithful event) (hfull : json.recordBytes event = maxRuntimeLogBytes)
    (hne : events ≠ []) : retainTail (render json (events ++ [event])) = some [] := by
  have hbefore : render json events ≠ [] := by
    obtain ⟨first, rest, rfl⟩ := List.exists_cons_of_ne_nil hne
    rw [render_cons]
    simp
  have hcut : Text.byteLength (json.toText event ++ '\n' :: []) = maxRuntimeLogBytes := by
    rw [← hfull, ← size_encode_line, Text.size_encode]
  rw [render_append, render_cons]
  exact retainTail_of_cut hevent.no_newline hbefore hcut

/-- What is retained of a log's history, if it is not cut inside a character: a suffix of it, with its
last record, unless that takes all there is. -/
theorem retainTail_render {events : List AuditEvent} {event : AuditEvent} {retained : List Char}
    (hjson : ∀ e ∈ events ++ [event], json.Faithful e)
    (hsmall : json.recordBytes event ≤ maxRuntimeLogBytes)
    (h : retainTail (render json (events ++ [event])) = some retained) :
    ∃ kept, retained = render json kept ∧ kept <:+ events ++ [event] ∧
      (kept = [] ↔ json.recordBytes event = maxRuntimeLogBytes ∧ events ≠ []) := by
  have hbytes : ∀ e, lineBytes (json.toText e) = json.recordBytes e := fun e ↦ by
    rw [lineBytes, EventJson.recordBytes, EventJson.toVec, Text.size_encode]
  have hlines : ∀ line ∈ (events ++ [event]).map json.toText, '\n' ∉ line := by
    intro line hline
    obtain ⟨e, he, rfl⟩ := List.mem_map.mp hline
    exact (hjson e he).no_newline
  have hfull : json.recordBytes event = maxRuntimeLogBytes → events ≠ [] → retained = [] := by
    intro hfull hne
    rw [retainTail_render_full (hjson event (by simp)) hfull hne] at h
    exact (Option.some.inj h).symm
  have hnil : ∀ l : List AuditEvent, render json l = [] → l = [] := by
    intro l hl
    cases l with
    | nil => rfl
    | cons e l =>
      rw [render_cons] at hl
      simp at hl
  rw [render_eq_unlines] at h
  rcases retainTail_cases hlines with
    ⟨-, hall⟩ | ⟨hlong, ⟨dropped, line, kept, hsplit, hretain, hlast⟩ | hnone⟩
  · rw [hall] at h
    obtain rfl := Option.some.inj h
    refine ⟨events ++ [event], (render_eq_unlines _).symm, List.suffix_refl _, by simp, ?_⟩
    rintro ⟨hrecord, hne⟩
    exact hnil _ ((render_eq_unlines _).trans (hfull hrecord hne))
  · rw [hretain] at h
    obtain rfl := Option.some.inj h
    obtain ⟨front, back, hevents, rfl, hback⟩ := List.map_eq_append_iff.mp hsplit
    obtain ⟨e, rest, rfl, rfl, rfl⟩ := List.map_eq_cons_iff.mp hback
    refine ⟨rest, (render_eq_unlines _).symm, ⟨front ++ [e], by rw [hevents]; simp⟩, ?_, ?_⟩
    · rintro rfl
      obtain ⟨rfl, hsame⟩ := List.append_inj' hevents rfl
      obtain rfl := List.singleton_inj.mp hsame
      have hmax := hlast rfl
      rw [hbytes] at hmax
      refine ⟨Nat.le_antisymm hsmall hmax, ?_⟩
      rintro rfl
      rw [← render_eq_unlines, ← Text.size_encode, size_encode_render, List.nil_append,
        Log.total_singleton] at hlong
      omega
    · rintro ⟨hrecord, hne⟩
      exact hnil _ ((render_eq_unlines _).trans (hfull hrecord hne))
  · rw [hnone] at h
    cases h

/-- The context of an error does not make it a success. -/
theorem eq_ok_of_mapError {result : Option (Except AuditLogError Unit)}
    (h : result.map (Except.mapError LifecycleError.auditLog) = some (.ok ())) :
    result = some (.ok ()) := by
  obtain ⟨inner, rfl, hok⟩ := Option.map_eq_some_iff.mp h
  cases inner with
  | error e => cases hok
  | ok => rfl

theorem ne_none_of_render {file : Option ByteArray} {events : List AuditEvent}
    (h : file.getD ByteArray.empty = Text.encode (render json events)) (hne : events ≠ []) :
    file ≠ none := by
  rintro rfl
  have hempty : render json events = [] := (@Text.encode_inj [] _ h).symm
  obtain ⟨e, rest, rfl⟩ := List.exists_cons_of_ne_nil hne
  rw [render_cons] at hempty
  simp at hempty

section

variable {now : UInt64} {pid : UInt32} {host : Host} {faults : DeleteFaults} {id : String}
  {dir : ContainerDir} {log : Log AuditEvent} {files : AuditLog.Files}
  (htexts : Texts dir.log (render json log.older) (render json log.newer))
  (hlog : ∀ event ∈ log.records, json.Faithful event)
  (hevent : json.Faithful (deletedEvent now id))
  (happend : appendAtPath json faults.append (runtimeLogFile id) (runtimeLogDir id) dir.log
    (deletedEvent now id) = (files, .ok ()))

include htexts hlog hevent happend

/-- **A delete that was logged and has failed** is not to be seen in one case only. -/
theorem unchanged_iff_unseen {file : StateFile} (hfile : file = .missing ↔ dir.state = .missing) :
    (readHistory json (runtimeLogFile id) (runtimeLogDir id) files =
        readHistory json (runtimeLogFile id) (runtimeLogDir id) dir.log ∧
      dir.SameFiles ⟨file, files,
        dir.others ∪ lockLeaves none ∪ loadLeaves pid host faults.store id dir.state⟩) ↔
      Unseen json now pid host faults id dir log := by
  have hsmall := recordBytes_le_of_appendAtPath happend
  have hpush := holds_push htexts happend
  have hafter := hpush.readHistory (faithful_push hlog hevent) (runtimeLogFile id) (runtimeLogDir id)
  rw [hafter]
  constructor
  · rintro ⟨hhistory, hsame⟩
    have hbefore : readHistory json (runtimeLogFile id) (runtimeLogDir id) dir.log =
        .ok log.records := by
      by_cases hthere : dir.log.rotated ≠ none ∨ dir.log.current ≠ none
      · exact Holds.readHistory ⟨htexts, hthere⟩ hlog _ _
      · -- without a log there is an error to read, and not a history
        obtain ⟨hrotated, hcurrent⟩ := not_or.mp hthere
        rw [readHistory, readRawAtPath, not_not.mp hrotated, not_not.mp hcurrent] at hhistory
        cases hhistory
    rw [hbefore] at hhistory
    have hrecords := Except.ok.inj hhistory
    have hothers := hsame.others
    rcases Log.records_push log (deletedEvent now id) with ⟨-, hkept⟩ | ⟨hfull, hkept⟩
    · rw [hkept] at hrecords
      have hlength := congrArg List.length hrecords
      rw [List.length_append, List.length_singleton] at hlength
      omega
    · refine ⟨hfull, hkept.symm.trans hrecords, ?_⟩
      rw [Finset.union_assoc] at hothers
      exact Finset.union_eq_left.mp hothers
  · rintro ⟨hfull, hrecords, hothers⟩
    have hnewer : log.newer ≠ [] := by
      intro hnil
      rw [HasRoom, hnil, Log.total_nil, Nat.zero_add] at hfull
      exact hfull hsmall
    have holder : log.older ≠ [] := by
      intro hnil
      have hlength := congrArg List.length hrecords
      rw [Log.records, hnil, List.length_append, List.nil_append, List.length_singleton] at hlength
      omega
    have hbefore := Holds.readHistory
      (⟨htexts, Or.inr (ne_none_of_render htexts.current hnewer)⟩ : Holds json dir.log log) hlog
      (runtimeLogFile id) (runtimeLogDir id)
    have hpushed : log.push maxRuntimeLogBytes json.recordBytes (deletedEvent now id) =
        { older := log.newer, newer := [deletedEvent now id] } := if_neg hfull
    rw [hpushed] at hpush ⊢
    rw [hbefore]
    refine ⟨congrArg Except.ok hrecords, hfile, ?_, ?_, ?_⟩
    · exact iff_of_false (ne_none_of_render hpush.current (by simp))
        (ne_none_of_render htexts.current hnewer)
    · exact iff_of_false (ne_none_of_render hpush.rotated hnewer)
        (ne_none_of_render htexts.rotated holder)
    · rw [Finset.union_assoc]
      exact Finset.union_eq_left.mpr hothers

/-- **A delete that was logged and is done** keeps the history, or not. -/
theorem done_iff_kept (hid : validateId id = .ok ()) (hdeletes : Deletes host faults id dir.state) :
    (∀ dir', delete json now pid host faults id dir = (dir', some (.ok ())) →
      ∃ history, readHistory json (runtimeLogFile id) (runtimeLogDir id) dir'.log = .ok history ∧
        history <:+ log.records ++ [deletedEvent now id] ∧
        history.getLast? = some (deletedEvent now id)) ↔
      Kept json now faults id log := by
  have hsmall := recordBytes_le_of_appendAtPath happend
  have hpush := holds_push htexts happend
  have hfaithful := faithful_push hlog hevent
  have hstate : stateDelete pid host faults id
      { dir with log := files, others := dir.others ∪ lockLeaves none } = ({}, .ok ()) :=
    @stateDelete_of_deletes host faults id
      { dir with log := files, others := dir.others ∪ lockLeaves none } hdeletes pid
  -- the records in the log are some that were there before, and the new one
  obtain ⟨events, hevents, hsuffix⟩ : ∃ events,
      (log.push maxRuntimeLogBytes json.recordBytes (deletedEvent now id)).records =
        events ++ [deletedEvent now id] ∧ events <:+ log.records := by
    rcases Log.records_push log (deletedEvent now id) with ⟨-, hkept⟩ | ⟨-, hkept⟩
    · exact ⟨_, hkept, List.suffix_refl _⟩
    · exact ⟨_, hkept, List.suffix_append _ _⟩
  rw [hevents] at hfaithful
  have hsingle : events ++ [deletedEvent now id] = [deletedEvent now id] ↔ events = [] := by simp
  rw [Kept, hevents, hsingle, delete, hid]
  simp only [happend, hstate]
  cases hread : faults.read with
  | some call =>
    have hnone : (readRawAtPath (some call) (runtimeLogFile id) (runtimeLogDir id) files).toOption =
        none := by cases call <;> rfl
    simp only [hnone]
    refine iff_of_false (fun h ↦ ?_) (by simp)
    obtain ⟨history, hhistory, -⟩ := h _ rfl
    cases hhistory
  | none =>
    have hraw : (readRawAtPath none (runtimeLogFile id) (runtimeLogDir id) files).toOption =
        some (render json (events ++ [deletedEvent now id])) := by
      rw [HoldsText.readRawAtPath hpush, ← render_append, ← Log.records, hevents]
      rfl
    simp only [hraw, Prod.mk.injEq, and_imp]
    by_cases hwrite : faults.write = none
    · rw [hwrite]
      cases hretain : retainTail (render json (events ++ [deletedEvent now id])) with
      | none =>
        have hpanic := writeRaw_of_panic hretain none (runtimeLogFile id) (runtimeLogDir id) {}
        refine iff_of_true (fun dir' _ hresult ↦ absurd (eq_ok_of_mapError hresult) hpanic)
          ⟨trivial, fun hfull ↦ Or.inl ?_⟩
        by_contra hne
        rw [retainTail_render_full hevent hfull hne] at hretain
        cases hretain
      | some retained =>
        obtain ⟨kept, rfl, hkept, hnil⟩ := retainTail_render hfaithful hsmall hretain
        have hhistory : readHistory json (runtimeLogFile id) (runtimeLogDir id)
            { current := some (Text.encode (render json kept)), rotated := none } = .ok kept :=
          Holds.readHistory (⟨⟨rfl, rfl⟩, Or.inr (by simp)⟩ : Holds json _ { newer := kept })
            (fun e he ↦ hfaithful e (hkept.subset he)) _ _
        rw [writeRaw_of_retain hretain]
        simp only [ne_eq, not_true_eq_false, or_false, true_and]
        constructor
        · intro h hfull
          obtain ⟨history, hread', -, hlast⟩ := h _ rfl rfl
          rw [hhistory] at hread'
          obtain rfl := Except.ok.inj hread'
          by_contra hne
          rw [hnil.mpr ⟨hfull, hne⟩] at hlast
          cases hlast
        · rintro h dir' rfl -
          have hne : kept ≠ [] := fun heq ↦ (hnil.mp heq).2 (h (hnil.mp heq).1)
          refine ⟨kept, hhistory, hkept.trans ?_, ?_⟩
          · obtain ⟨dropped, hdropped⟩ := hsuffix
            exact ⟨dropped, by rw [← List.append_assoc, hdropped]⟩
          · obtain ⟨dropped, hdropped⟩ := hkept
            have hlast := congrArg List.getLast? hdropped
            rwa [List.getLast?_append_of_ne_nil _ hne, List.getLast?_concat] at hlast
    · obtain ⟨call, hcall⟩ := Option.ne_none_iff_exists'.mp hwrite
      rw [hcall]
      have hfault := writeRaw_of_fault call (runtimeLogFile id) (runtimeLogDir id) {}
        (render json (events ++ [deletedEvent now id]))
      exact iff_of_true (fun dir' _ hresult ↦ absurd (eq_ok_of_mapError hresult) hfault)
        ⟨trivial, fun _ ↦ Or.inr (by simp)⟩

end

section

variable {now : UInt64} {pid : UInt32} {host : Host} {faults : DeleteFaults} {id : String}
  {dir : ContainerDir} {log : Log AuditEvent} {files : AuditLog.Files}
  (htexts : Texts dir.log (render json log.older) (render json log.newer))
  (hlog : ∀ event ∈ log.records, json.Faithful event)
  (hevent : json.Faithful (deletedEvent now id)) (hid : validateId id = .ok ())
  (happend : appendAtPath json faults.append (runtimeLogFile id) (runtimeLogDir id) dir.log
    (deletedEvent now id) = (files, .ok ()))

include htexts hlog hevent hid happend

theorem logsDelete_iff_kept (hdeletes : Deletes host faults id dir.state) :
    LogsDelete json now pid host faults id dir log.records ↔ Kept json now faults id log := by
  rw [← @done_iff_kept json now pid host faults id dir log files htexts hlog hevent happend hid
    hdeletes]
  refine ⟨fun h ↦ h.done, fun h ↦ ⟨fun dir' e hdelete ↦ ?_, h⟩⟩
  -- what fails behind the removal of the state is the log
  have hstate : stateDelete pid host faults id
      { dir with log := files, others := dir.others ∪ lockLeaves none } = ({}, .ok ()) :=
    @stateDelete_of_deletes host faults id
      { dir with log := files, others := dir.others ∪ lockLeaves none } hdeletes pid
  rw [delete, hid] at hdelete
  simp only [happend, hstate] at hdelete
  split at hdelete
  · simp at hdelete
  · obtain ⟨result, -, hresult⟩ := Option.map_eq_some_iff.mp (Prod.mk.inj hdelete).2
    cases result <;> cases hresult

theorem logsDelete_iff_unseen (hdeletes : ¬ Deletes host faults id dir.state) :
    LogsDelete json now pid host faults id dir log.records ↔
      Unseen json now pid host faults id dir log := by
  obtain ⟨file, e, hfile, hstate⟩ := @stateDelete_of_not_deletes host faults id
    { dir with log := files, others := dir.others ∪ lockLeaves none } hdeletes pid
  have hdelete : delete json now pid host faults id dir =
      (⟨file, files, dir.others ∪ lockLeaves none ∪
        loadLeaves pid host faults.store id dir.state⟩, some (.error (.state e))) := by
    rw [delete, hid]
    simp only [happend, hstate]
  rw [← unchanged_iff_unseen htexts hlog hevent happend hfile]
  constructor
  · exact fun h ↦ h.failed _ e hdelete
  · intro h
    refine ⟨fun dir' e' hresult ↦ ?_, fun dir' hresult ↦ ?_⟩
    · rw [hdelete] at hresult
      obtain ⟨rfl, -⟩ := Prod.mk.inj hresult
      exact h
    · rw [hdelete] at hresult
      cases hresult

end

/-- **A delete and the audit log.**  The log says what has happened, if and only if the delete is not
logged at all, or it is done and its history is kept, or it has failed and nothing of it is to be
seen. -/
theorem delete_logged_iff {now : UInt64} {pid : UInt32} {host : Host} {faults : DeleteFaults}
    {id : String} {dir : ContainerDir} {log : Log AuditEvent}
    (htexts : Texts dir.log (render json log.older) (render json log.newer))
    (hlog : ∀ event ∈ log.records, json.Faithful event)
    (hevent : json.Faithful (deletedEvent now id)) :
    LogsDelete json now pid host faults id dir log.records ↔
      (validateId id = .ok () → Appends json faults.append dir.log (deletedEvent now id) →
        (Deletes host faults id dir.state → Kept json now faults id log) ∧
        (¬ Deletes host faults id dir.state → Unseen json now pid host faults id dir log)) := by
  cases hid : validateId id with
  | error e =>
    have hdelete : delete json now pid host faults id dir = (dir, some (.error (.state e))) := by
      rw [delete, hid]
    refine iff_of_true ⟨fun dir' e' h ↦ ?_, fun dir' h ↦ ?_⟩ (fun h ↦ by cases h)
    · rw [hdelete] at h
      obtain ⟨rfl, -⟩ := Prod.mk.inj h
      exact ⟨rfl, Iff.rfl, Iff.rfl, Iff.rfl, rfl⟩
    · rw [hdelete] at h
      cases h
  | ok =>
    cases happend : appendAtPath json faults.append (runtimeLogFile id) (runtimeLogDir id) dir.log
        (deletedEvent now id) with
    | mk files result =>
      have hresult := congrArg Prod.snd happend
      cases result with
      | error e =>
        refine iff_of_true ⟨fun dir' e' h ↦ ?_, fun dir' h ↦ ?_⟩ fun _ hok ↦ ?_
        · simp [delete, hid, happend] at h
        · simp [delete, hid, happend] at h
        · rw [appendAtPath_eq_ok_iff.mpr hok] at hresult
          cases hresult
      | ok =>
        have happends := appendAtPath_eq_ok_iff.mp hresult
        simp only [true_implies, happends]
        by_cases hdeletes : Deletes host faults id dir.state
        · simp only [hdeletes, true_implies, not_true_eq_false, false_implies, and_true]
          exact logsDelete_iff_kept htexts hlog hevent hid happend hdeletes
        · simp only [hdeletes, not_false_eq_true, true_implies, false_implies, true_and]
          exact logsDelete_iff_unseen htexts hlog hevent hid happend hdeletes

/-- The members of the encoding of a delete. -/
def deletedMembers : List Char :=
  ["\"timestamp_unix\":", "1000", ",\"id\":", "\"demo\"", ",\"source\":", "\"lifecycle\"", ",\"name\":",
    "\"deleted\"", ",\"value\":", "null", ",\"delta\":", "null", ",\"fields\":", "null", ",\"status\":",
    "\"deleted\""].flatMap String.toList

/-- A JSON library that knows that event. -/
def deletedJson : EventJson where
  toText := fun _ ↦ '{' :: deletedMembers ++ ['}']
  fromStr := fun line ↦
    if line = '{' :: deletedMembers ++ ['}'] then some (deletedEvent 1000 "demo") else none

theorem deletedJson_faithful : deletedJson.Faithful (deletedEvent 1000 "demo") where
  no_newline := by
    rw [deletedJson]
    decide +kernel
  object := ⟨deletedMembers, by rw [deletedJson]⟩
  round_trip := by simp only [deletedJson, if_true]

theorem recordBytes_deleted :
    deletedJson.recordBytes (deletedEvent 1000 "demo") ≤ 1000 := by
  rw [EventJson.recordBytes, EventJson.toVec, Text.size_encode]
  decide +kernel

/-- A stopped container, whose log was reset. -/
def stoppedDir : ContainerDir where
  state := .stored (stoppedSample "demo")
  log := AuditLog.reset {}

/-- It is deleted, and the log says so. -/
theorem logsDelete_stopped :
    LogsDelete deletedJson 1000 1 bareHost {} "demo" stoppedDir [] := by
  refine (@delete_logged_iff deletedJson 1000 1 bareHost {} "demo" stoppedDir {} ⟨rfl, rfl⟩
    (fun _ h ↦ nomatch h) deletedJson_faithful).mpr fun hid _ ↦ ⟨fun _ ↦ ⟨rfl, ?_⟩, fun h ↦ ?_⟩
  · intro hfull
    have hsmall := recordBytes_deleted
    rw [hfull, maxRuntimeLogBytes] at hsmall
    omega
  · refine absurd ⟨stoppedSample "demo", ?_, by decide, ?_, rfl⟩ h
    · simp only [loadCurrentFrom, lockState, hid, Option.elim_none, stoppedDir, loadFrom]
      rfl
    · rfl

/-- No container at all: afterwards there is a log that says it was deleted. -/
theorem not_logsDelete_missing : ¬ ∀ (host : Host) (faults : DeleteFaults) (dir : ContainerDir)
    (log : Log AuditEvent),
    Texts dir.log (render deletedJson log.older) (render deletedJson log.newer) →
      (∀ event ∈ log.records, deletedJson.Faithful event) →
        LogsDelete deletedJson 1000 1 host faults "demo" dir log.records := by
  intro h
  have hlogs := h bareHost {} {} {} ⟨rfl, rfl⟩ fun _ hmem ↦ nomatch hmem
  have hid : validateId "demo" = .ok () := by decide +kernel
  have hsmall : deletedJson.recordBytes (deletedEvent 1000 "demo") ≤ maxRuntimeLogBytes :=
    Nat.le_trans recordBytes_deleted (by decide)
  obtain ⟨files, happend, -⟩ := @Texts.append deletedJson {} [] [] ⟨rfl, rfl⟩
    (deletedEvent 1000 "demo") hsmall (runtimeLogFile "demo") (runtimeLogDir "demo")
  have hmissing : ¬ Deletes bareHost {} "demo" .missing := by
    rintro ⟨state, hload, -⟩
    simp [loadCurrentFrom, lockState, hid, loadFrom] at hload
  have hunseen := (@logsDelete_iff_unseen deletedJson 1000 1 bareHost {} "demo" {} {} files ⟨rfl, rfl⟩
    (fun _ hmem ↦ nomatch hmem) deletedJson_faithful hid happend hmissing).mp hlogs
  refine hunseen.1 ?_
  rw [HasRoom, Log.total_nil, Nat.zero_add]
  exact hsmall

end CrunRs.Lifecycle
