import CrunRs.State.Liveness

/-!
# The state file

How `state/mod.rs` reads and writes `/run/crun-rs/<id>/state.json`.  A save writes a temporary file
and renames it into place, so that the file changes in one step or not at all (`saveTo_cases`), and
whoever reads it without the lock reads one version of it.

The lock of a container is taken inside each of these functions and dropped when it returns.  It
makes `load_current` — read, recover, write — a single step for everybody else who takes it.  It does
not reach from the load of one call to the save of the next.

The record that a recovery writes no longer names any resource, so it is the last chance to take them
down.  `tokens_survive_iff` says when it is used.
-/

set_option autoImplicit false

namespace CrunRs.State

/-! ## One file -/

/-- The state file of a container: not there, there but not a state, or a state. -/
inductive StateFile
  | missing
  | malformed
  | stored (state : ContainerState)
  deriving DecidableEq, Repr

namespace StateFile

/-- The persisted status, if there is one. -/
def status : StateFile → Option ContainerStatus
  | stored state => some state.status
  | _ => none

@[simp] theorem status_stored (state : ContainerState) :
    (stored state).status = some state.status := rfl

end StateFile

/-- What goes wrong around the file: taking the lock, and writing. -/
structure StoreFaults where
  lock : Option StateError := none
  write : Option StateError := none

/-- `state_file`, as text. -/
def stateFile (id : String) : String := "/run/crun-rs/" ++ id ++ "/state.json"

/-- `lock_state`. -/
def lockState (faults : StoreFaults) (id : String) : Except StateError Unit :=
  match validateId id with
  | .error e => .error e
  | .ok () => faults.lock.elim (.ok ()) .error

/-- `write_state_atomic`. -/
def writeStateAtomic (faults : StoreFaults) (file : StateFile) (state : ContainerState) :
    StateFile × Except StateError Unit :=
  match validateId state.id with
  | .error e => (file, .error e)
  | .ok () => match faults.write with
    | some e => (file, .error e)
    | none => (.stored state, .ok ())

/-- `save_to`. -/
def saveTo (faults : StoreFaults) (file : StateFile) (state : ContainerState) :
    StateFile × Except StateError Unit :=
  match lockState faults state.id with
  | .error e => (file, .error e)
  | .ok () => writeStateAtomic faults file state

/-- `load_from`. -/
def loadFrom (id : String) (file : StateFile) : Except StateError ContainerState :=
  match validateId id with
  | .error e => .error e
  | .ok () => match file with
    | .missing => .error (.context ("failed to read state file: " ++ stateFile id))
    | .malformed => .error (.context "failed to parse state file")
    | .stored state => .ok state

/-- What `load_current_from` leaves: the file, its result, and the cleanup steps taken. -/
structure Load where
  file : StateFile
  result : Except StateError ContainerState
  cleanups : List Cleanup

/-- The end of `load_current_from`: a refresh that changed the state is written. -/
def persistRefresh (faults : StoreFaults) (file : StateFile) (refresh : Refresh) : Load :=
  match refresh.result with
  | .error e => ⟨file, .error e, refresh.cleanups⟩
  | .ok false => ⟨file, .ok refresh.state, refresh.cleanups⟩
  | .ok true => match writeStateAtomic faults file refresh.state with
    | (file, .error e) => ⟨file, .error e, refresh.cleanups⟩
    | (file, .ok ()) => ⟨file, .ok refresh.state, refresh.cleanups⟩

/-- `load_current_from`. -/
def loadCurrentFrom (host : Host) (faults : StoreFaults) (id : String) (file : StateFile) : Load :=
  match lockState faults id with
  | .error e => ⟨file, .error e, []⟩
  | .ok () => match loadFrom id file with
    | .error e => ⟨file, .error e, []⟩
    | .ok state => persistRefresh faults file (refreshLiveness host state)

/-! ## What they do to the file -/

theorem writeStateAtomic_cases (faults : StoreFaults) (file : StateFile) (state : ContainerState) :
    writeStateAtomic faults file state = (.stored state, .ok ()) ∨
      ∃ e, writeStateAtomic faults file state = (file, .error e) := by
  rw [writeStateAtomic]
  split
  · exact Or.inr ⟨_, rfl⟩
  · split
    · exact Or.inr ⟨_, rfl⟩
    · exact Or.inl rfl

/-- A save writes the whole state or leaves the file as it was. -/
theorem saveTo_cases (faults : StoreFaults) (file : StateFile) (state : ContainerState) :
    saveTo faults file state = (.stored state, .ok ()) ∨
      ∃ e, saveTo faults file state = (file, .error e) := by
  rw [saveTo]
  split
  · exact Or.inr ⟨_, rfl⟩
  · exact writeStateAtomic_cases faults file state

/-- A state with a valid id is saved exactly if the lock is had and the write succeeds. -/
theorem saveTo_eq_ok_iff {faults : StoreFaults} {file : StateFile} {state : ContainerState}
    (hid : validateId state.id = .ok ()) :
    (saveTo faults file state).2 = .ok () ↔ faults.lock = none ∧ faults.write = none := by
  rw [saveTo, lockState, hid]
  cases faults.lock with
  | some e => simp
  | none =>
    rw [writeStateAtomic]
    simp only [Option.elim_none, hid, true_and]
    cases faults.write with
    | some e => simp
    | none => simp

theorem validateId_of_saveTo {faults : StoreFaults} {file : StateFile} {state : ContainerState}
    (h : (saveTo faults file state).2 = .ok ()) : validateId state.id = .ok () := by
  cases hid : validateId state.id with
  | error e => simp [saveTo, lockState, hid] at h
  | ok => rfl

/-- A refresh that says it changed nothing has not, and one that says it did has stopped a running
state. -/
theorem refreshLiveness_result (host : Host) (state : ContainerState) :
    ((refreshLiveness host state).result = .ok false ∧ (refreshLiveness host state).state = state) ∨
      (state.status = .running ∧ (refreshLiveness host state).state.status = .stopped ∧
        (refreshLiveness host state).result ≠ .ok false) := by
  rcases refreshLiveness_cases host state with hkeep | ⟨hrunning, owned, base, hrecover⟩
  · rw [hkeep]
    exact Or.inl ⟨rfl, rfl⟩
  · rw [hrecover]
    refine Or.inr ⟨hrunning, recoverStale_status .., fun hfalse ↦ ?_⟩
    exact absurd (recoverStale_eq_ok hfalse).1 Bool.false_ne_true

theorem loadFrom_eq_ok {id : String} {file : StateFile} {state : ContainerState}
    (h : loadFrom id file = .ok state) : file = .stored state := by
  unfold loadFrom at h
  split at h
  · simp at h
  · split at h
    · simp at h
    · simp at h
    · exact congrArg _ (Except.ok.inj h)

/-- Persisting a refresh: the file stays as it is, unless the refresh changed the state. -/
theorem persistRefresh_cases (faults : StoreFaults) (file : StateFile) (refresh : Refresh) :
    ((persistRefresh faults file refresh).file = file ∧
      ∀ state, (persistRefresh faults file refresh).result = .ok state →
        refresh.result = .ok false ∧ state = refresh.state) ∨
    ((persistRefresh faults file refresh).file = .stored refresh.state ∧
      (persistRefresh faults file refresh).result = .ok refresh.state ∧
      refresh.result = .ok true) := by
  unfold persistRefresh
  split
  · exact Or.inl ⟨rfl, fun state h ↦ by cases h⟩
  · rename_i hresult
    exact Or.inl ⟨rfl, fun state h ↦ ⟨hresult, (Except.ok.inj h).symm⟩⟩
  · rename_i hresult
    rcases writeStateAtomic_cases faults file refresh.state with hwrite | ⟨e, hwrite⟩
    · rw [hwrite]
      exact Or.inr ⟨rfl, rfl, hresult⟩
    · rw [hwrite]
      exact Or.inl ⟨rfl, fun state h ↦ by cases h⟩

/-- **What loading does to the file**: nothing, and a state it returns is the one there; or it
replaces a running state by a stopped one, which is the one it returns. -/
theorem loadCurrentFrom_cases (host : Host) (faults : StoreFaults) (id : String)
    (file : StateFile) :
    ((loadCurrentFrom host faults id file).file = file ∧
      ∀ state, (loadCurrentFrom host faults id file).result = .ok state → file = .stored state) ∨
    ∃ old new, file = .stored old ∧ old.status = .running ∧ new.status = .stopped ∧
      (loadCurrentFrom host faults id file).file = .stored new ∧
      (loadCurrentFrom host faults id file).result = .ok new := by
  unfold loadCurrentFrom
  split
  · exact Or.inl ⟨rfl, fun state h ↦ by cases h⟩
  · split
    · exact Or.inl ⟨rfl, fun state h ↦ by cases h⟩
    · rename_i old hold
      have hfile : file = .stored old := loadFrom_eq_ok hold
      have hrefresh := refreshLiveness_result host old
      rcases persistRefresh_cases faults file (refreshLiveness host old) with
        ⟨hkeep, hstate⟩ | ⟨hwritten, hresult, htrue⟩
      · refine Or.inl ⟨hkeep, fun state h ↦ ?_⟩
        obtain ⟨hfalse, rfl⟩ := hstate state h
        rcases hrefresh with ⟨_, hsame⟩ | ⟨_, _, hne⟩
        · rw [hsame]
          exact hfile
        · exact absurd hfalse hne
      · rcases hrefresh with ⟨hfalse, _⟩ | ⟨hrunning, hstopped, _⟩
        · rw [htrue] at hfalse
          simp at hfalse
        · exact Or.inr ⟨old, _, hfile, hrunning, hstopped, hwritten, hresult⟩

/-- What the file says after a load is what it said before, or the refresh of that. -/
theorem loadCurrentFrom_stored {host : Host} {faults : StoreFaults} {id : String} {file : StateFile}
    {new : ContainerState} (h : (loadCurrentFrom host faults id file).file = .stored new) :
    file = .stored new ∨ ∃ old, file = .stored old ∧ (refreshLiveness host old).result = .ok true ∧
      new = (refreshLiveness host old).state := by
  unfold loadCurrentFrom at h
  split at h
  · exact Or.inl h
  · split at h
    · exact Or.inl h
    · rename_i old hold
      rcases persistRefresh_cases faults file (refreshLiveness host old) with
        ⟨hkeep, _⟩ | ⟨hwritten, _, htrue⟩
      · exact Or.inl (hkeep.symm.trans h)
      · rw [hwritten] at h
        exact Or.inr ⟨old, loadFrom_eq_ok hold, htrue, (StateFile.stored.inj h).symm⟩

/-- What is loaded is what the file then says. -/
theorem loadCurrentFrom_eq_ok {host : Host} {faults : StoreFaults} {id : String} {file : StateFile}
    {state : ContainerState} (h : (loadCurrentFrom host faults id file).result = .ok state) :
    (loadCurrentFrom host faults id file).file = .stored state := by
  rcases loadCurrentFrom_cases host faults id file with ⟨hfile, hstate⟩ |
    ⟨old, new, _, _, _, hnew, hresult⟩
  · rw [hfile]
    exact hstate state h
  · rw [hnew, Except.ok.inj (hresult.symm.trans h)]

/-- Loading from a file that is about its own container stays with that container. -/
theorem loadCurrentFrom_id {host : Host} {faults : StoreFaults} {id : String} {file : StateFile}
    (hfile : ∀ state, file = .stored state → state.id = id) :
    (∀ state, (loadCurrentFrom host faults id file).file = .stored state → state.id = id) ∧
      ∀ released, .bridgeAllocation released ∈ (loadCurrentFrom host faults id file).cleanups →
        released = id := by
  unfold loadCurrentFrom
  split
  · exact ⟨hfile, fun released h ↦ by simp at h⟩
  · split
    · exact ⟨hfile, fun released h ↦ by simp at h⟩
    · rename_i old hold
      have hid : old.id = id := hfile old (loadFrom_eq_ok hold)
      obtain ⟨hnew, hreleased⟩ := refreshLiveness_id host old
      have hcleanups : (persistRefresh faults file (refreshLiveness host old)).cleanups =
          (refreshLiveness host old).cleanups := by
        unfold persistRefresh
        split
        · rfl
        · rfl
        · split <;> rfl
      refine ⟨fun state hstate ↦ ?_, fun released h ↦ ?_⟩
      · rcases persistRefresh_cases faults file (refreshLiveness host old) with
          ⟨hkeep, _⟩ | ⟨hwritten, _, _⟩
        · exact hfile state (hkeep.symm.trans hstate)
        · rw [← StateFile.stored.inj (hwritten.symm.trans hstate), hnew, hid]
      · rw [hcleanups] at h
        exact (hreleased released h).trans hid

/-! ## Recovery tokens

The record of a running container names the resources that have to be taken down when it is found
stale.  Recovery tries all of them, and then forgets all of them, whether they could be taken down
or not. -/

/-- The process of the state is gone, or not the one the state was saved for. -/
def IsStale (host : Host) (state : ContainerState) : Prop :=
  ∃ pid, state.pid = some pid ∧ ¬ (pidIsAlive host.proc pid = true ∧
    ∃ expected, state.processStarttime = some expected ∧
      (processStarttime host.proc pid).toOption = some expected)

theorem refreshLiveness_of_isStale {host : Host} {state : ContainerState}
    (hrunning : state.status = .running) (hstale : IsStale host state) :
    ∃ owned base, refreshLiveness host state = recoverStale host state owned base := by
  obtain ⟨pid, hpid, hgone⟩ := hstale
  rw [refreshLiveness, if_neg (not_not.mpr hrunning), hpid]
  dsimp only
  split
  · rename_i halive
    split
    · rename_i expected hexpected
      rw [if_neg fun hsame ↦ hgone ⟨halive, expected, hexpected, hsame⟩]
      exact ⟨_, _, rfl⟩
    · exact ⟨_, _, rfl⟩
  · exact ⟨_, _, rfl⟩

/-- The cleanup step was taken, and succeeded. -/
def Released (host : Host) (steps : List Cleanup) (step : Cleanup) : Prop :=
  step ∈ steps ∧ host.fails step = none

/-- Every token of the old record is in the new one, unless its resource was released. -/
structure TokensAccounted (host : Host) (steps : List Cleanup) (old new : ContainerState) : Prop where
  cgroup : ∀ path, old.cgroupPath = some path →
    new.cgroupPath = some path ∨ Released host steps (.cgroup path)
  nat : ∀ lease, old.natLease = some lease →
    new.natLease = some lease ∨ Released host steps (.nat lease)
  overlay : ∀ ownership, old.overlayOwnership = some ownership →
    new.overlayOwnership = some ownership ∨ Released host steps (.overlay ownership)

theorem TokensAccounted.refl (host : Host) (steps : List Cleanup) (state : ContainerState) :
    TokensAccounted host steps state state :=
  ⟨fun _ h ↦ Or.inl h, fun _ h ↦ Or.inl h, fun _ h ↦ Or.inl h⟩

/-- The cleanup of every resource the record names succeeds.  The rules of a lease are deleted for a
bridge container only. -/
structure CleansTokens (host : Host) (state : ContainerState) : Prop where
  cgroup : ∀ path, state.cgroupPath = some path → host.fails (.cgroup path) = none
  nat : ∀ lease, state.natLease = some lease →
    state.networkMode = "bridge" ∧ host.fails (.nat lease) = none
  overlay : ∀ ownership, state.overlayOwnership = some ownership →
    host.fails (.overlay ownership) = none

/-- A record of the container that is changed while it is loaded is written. -/
structure Persists (host : Host) (faults : StoreFaults) (id : String) (state : ContainerState) :
    Prop where
  id : validateId id = .ok ()
  stateId : validateId state.id = .ok ()
  lock : faults.lock = none
  write : faults.write = none
  clock : host.now.isSome

/-- The steps of a recovery that have a token. -/
theorem mem_recoverySteps {state : ContainerState} {owned : Bool} :
    (∀ path, .cgroup path ∈ recoverySteps state owned ↔ state.cgroupPath = some path) ∧
    (∀ lease, .nat lease ∈ recoverySteps state owned ↔
      state.networkMode = "bridge" ∧ state.natLease = some lease) ∧
    (∀ ownership, .overlay ownership ∈ recoverySteps state owned ↔
      state.overlayOwnership = some ownership) := by
  by_cases hbridge : state.networkMode = "bridge"
  · cases owned <;> simp [recoverySteps, staleCleanups, hbridge]
  · cases owned <;> simp [recoverySteps, staleCleanups, hbridge]

/-- A recovery that forgets every token accounts for them exactly if all cleanups succeed. -/
theorem tokensAccounted_iff {host : Host} {state new : ContainerState} {owned : Bool}
    (hcgroup : new.cgroupPath = none) (hnat : new.natLease = none)
    (hoverlay : new.overlayOwnership = none) :
    TokensAccounted host (recoverySteps state owned) state new ↔ CleansTokens host state := by
  obtain ⟨hcgroups, hnats, hoverlays⟩ := @mem_recoverySteps state owned
  constructor
  · intro h
    refine ⟨fun path hpath ↦ ?_, fun lease hlease ↦ ?_, fun ownership hownership ↦ ?_⟩
    · exact ((h.cgroup path hpath).resolve_left (by simp [hcgroup])).2
    · obtain ⟨hmem, hok⟩ := (h.nat lease hlease).resolve_left (by simp [hnat])
      exact ⟨((hnats lease).mp hmem).1, hok⟩
    · exact ((h.overlay ownership hownership).resolve_left (by simp [hoverlay])).2
  · intro h
    refine ⟨fun path hpath ↦ Or.inr ⟨(hcgroups path).mpr hpath, h.cgroup path hpath⟩,
      fun lease hlease ↦ ?_,
      fun ownership hownership ↦
        Or.inr ⟨(hoverlays ownership).mpr hownership, h.overlay ownership hownership⟩⟩
    obtain ⟨hbridge, hok⟩ := h.nat lease hlease
    exact Or.inr ⟨(hnats lease).mpr ⟨hbridge, hlease⟩, hok⟩

/-- Loading a stale record writes it without its tokens, or not at all. -/
theorem loadCurrentFrom_stale {host : Host} {faults : StoreFaults} {id : String}
    {state : ContainerState} (hrunning : state.status = .running) (hstale : IsStale host state) :
    (Persists host faults id state → ∃ owned new,
      (loadCurrentFrom host faults id (.stored state)).file = .stored new ∧
      (loadCurrentFrom host faults id (.stored state)).cleanups = recoverySteps state owned ∧
      new.cgroupPath = none ∧ new.natLease = none ∧ new.overlayOwnership = none) ∧
    (¬ Persists host faults id state →
      (loadCurrentFrom host faults id (.stored state)).file = .stored state) := by
  obtain ⟨owned, base, hrefresh⟩ := refreshLiveness_of_isStale hrunning hstale
  constructor
  · rintro ⟨hid, hstateId, hlock, hwrite, hclock⟩
    obtain ⟨secs, hsecs⟩ := Option.isSome_iff_exists.mp hclock
    refine ⟨owned, (recoverStale host state owned base).state, ?_, ?_, ?_⟩
    · simp only [loadCurrentFrom, lockState, hid, hlock, Option.elim_none, loadFrom, hrefresh,
        persistRefresh, recoverStale, hsecs, ContainerState.markStopped, unixTimestamp, Except.map,
        writeStateAtomic, hstateId, hwrite]
    · simp only [loadCurrentFrom, lockState, hid, hlock, Option.elim_none, loadFrom, hrefresh,
        persistRefresh, recoverStale, hsecs, ContainerState.markStopped, unixTimestamp, Except.map,
        writeStateAtomic, hstateId, hwrite]
    · simp [recoverStale, hsecs, ContainerState.markStopped, unixTimestamp]
  · intro hnot
    rw [loadCurrentFrom, lockState]
    cases hid : validateId id with
    | error e => rfl
    | ok u =>
      cases hlock : faults.lock with
      | some e => rfl
      | none =>
        simp only [Option.elim_none, loadFrom, hid, hrefresh, persistRefresh, recoverStale]
        cases hnow : host.now with
        | none => rfl
        | some secs =>
          simp only [ContainerState.markStopped, unixTimestamp, Except.map, writeStateAtomic]
          cases hstate : validateId state.id with
          | error e => rfl
          | ok u =>
            cases hwrite : faults.write with
            | some e => rfl
            | none => exact absurd ⟨hid, hstate, hlock, hwrite, by rw [hnow]; rfl⟩ hnot

/-- **When recovery tokens survive.**  After a stale running state was loaded, the file holds every
token whose resource was not released — exactly if every cleanup that has a token succeeds, or the
recovered state is not written. -/
theorem tokens_survive_iff (host : Host) (faults : StoreFaults) (id : String)
    (state : ContainerState) (hrunning : state.status = .running) (hstale : IsStale host state) :
    (∃ new, (loadCurrentFrom host faults id (.stored state)).file = .stored new ∧
      TokensAccounted host (loadCurrentFrom host faults id (.stored state)).cleanups state new) ↔
    (Persists host faults id state → CleansTokens host state) := by
  obtain ⟨hwritten, hkept⟩ := @loadCurrentFrom_stale host faults id state hrunning hstale
  by_cases hpersists : Persists host faults id state
  · obtain ⟨owned, new, hfile, hcleanups, hcgroup, hnat, hoverlay⟩ := hwritten hpersists
    rw [hfile, hcleanups, ← tokensAccounted_iff hcgroup hnat hoverlay]
    constructor
    · rintro ⟨found, hfound, htokens⟩ _
      rwa [StateFile.stored.inj hfound]
    · intro h
      exact ⟨new, rfl, h hpersists⟩
  · rw [hkept hpersists]
    exact ⟨fun _ h ↦ absurd h hpersists, fun _ ↦ ⟨state, rfl, .refl ..⟩⟩

/-- A machine on which no process is left, and the steps in the list fail. -/
def emptyHost (failing : List Cleanup) : Host where
  proc := fun _ ↦ .absent
  now := some 2000
  fails := fun step ↦ if step ∈ failing then some "permission denied" else none

/-- The container had a cgroup of its own. -/
def sampleCgroupState : ContainerState :=
  { sampleState "demo" 42 7 with cgroupPath := some "/sys/fs/cgroup/container-runtime/crun-42" }

theorem isStale_emptyHost (failing : List Cleanup) : IsStale (emptyHost failing) sampleCgroupState :=
  ⟨42, rfl, fun h ↦ absurd h.1 (by simp [emptyHost, pidIsAlive])⟩

/-- The cgroup is removed, and its path is forgotten. -/
theorem tokens_survive_iff_cleaned :
    ∃ new, (loadCurrentFrom (emptyHost []) {} "demo" (.stored sampleCgroupState)).file =
        .stored new ∧
      TokensAccounted (emptyHost [])
        (loadCurrentFrom (emptyHost []) {} "demo" (.stored sampleCgroupState)).cleanups
        sampleCgroupState new :=
  (tokens_survive_iff (emptyHost []) {} "demo" sampleCgroupState rfl (isStale_emptyHost [])).mpr
    fun _ ↦ ⟨fun _ _ ↦ rfl, fun _ h ↦ (Option.some_ne_none _ h.symm).elim,
      fun _ h ↦ (Option.some_ne_none _ h.symm).elim⟩

/-- The cgroup cannot be removed, and its path is forgotten all the same. -/
theorem failed_cleanup_forgets_cgroup :
    IsStale (emptyHost [.cgroup "/sys/fs/cgroup/container-runtime/crun-42"]) sampleCgroupState ∧
    ∃ new, (loadCurrentFrom (emptyHost [.cgroup "/sys/fs/cgroup/container-runtime/crun-42"]) {}
        "demo" (.stored sampleCgroupState)).file = .stored new ∧
      new.status = .stopped ∧ new.cgroupPath = none ∧
      new.signal = some "STALE_CLEANUP_FAILED: cgroup cleanup failed: permission denied" ∧
      (emptyHost [.cgroup "/sys/fs/cgroup/container-runtime/crun-42"]).fails
        (.cgroup "/sys/fs/cgroup/container-runtime/crun-42") ≠ none :=
  ⟨isStale_emptyHost _, _, rfl, rfl, rfl, by decide +kernel, by decide⟩

end CrunRs.State
