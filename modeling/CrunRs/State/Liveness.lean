import CrunRs.Lib.Text
import CrunRs.State.Basic

/-!
# Is the container still there?

The recovery half of `state/mod.rs`.  A state that says `running` is checked against
`/proc/<pid>/stat` whenever it is loaded: the process has to be there, not be a zombie, and have
started when the state says it did.  If not, the resources of the container are taken down and the
state is marked stopped.

The stat line quotes the name of the process, which the process chooses itself.  Splitting at the
*last* `") "` is right for every name (`rsplitOnce_render`): what follows the name is letters, digits
and spaces.  But the line is read as UTF-8, and a name need not be UTF-8.  A line that cannot be read
counts as a process that is alive, and as a start time that differs — which is the case of a reused
pid.  `recovery_exact` is the resulting condition.
-/

set_option autoImplicit false

namespace CrunRs.State

open Network

/-! ## Reading `/proc` -/

/-- `/proc/<pid>`: not there, there with a `stat` file that cannot be read, or with its content. -/
inductive ProcEntry
  | absent
  | unreadable
  | stat (content : ByteArray)

abbrev Proc := Int → ProcEntry

/-- `fs::read_to_string` of the `stat` file. -/
def ProcEntry.readToString : ProcEntry → Option (List Char)
  | .absent | .unreadable => none
  | .stat content => Text.decode content

/-- `pid_is_alive`. -/
def pidIsAlive (proc : Proc) (pid : Int) : Bool :=
  match proc pid with
  | .absent => false
  | entry => match entry.readToString with
    | none => true
    | some stat => match Text.rsplitOnce [')', ' '] stat with
      | none => true
      | some (_, afterComm) => afterComm.head? ≠ some 'Z'

/-- `process_starttime`: field 22 of the stat line. -/
def processStarttime (proc : Proc) (pid : Int) : Except StateError UInt64 :=
  match (proc pid).readToString with
  | none => .error (.context ("failed to read process identity: /proc/" ++ toString pid ++ "/stat"))
  | some stat => match Text.rsplitOnce [')', ' '] stat with
    | none => .error (.context "malformed /proc/<pid>/stat process identity")
    | some (_, afterComm) => match (Text.splitWhitespace afterComm)[19]? with
      | none => .error (.context "missing process starttime in /proc/<pid>/stat")
      | some word => match Text.parseU64 word with
        | none => .error (.context "invalid process starttime in /proc/<pid>/stat")
        | some ticks => .ok ticks

/-! ## Recovery -/

/-- A step of the cleanup of a stale container. -/
inductive Cleanup
  | cgroup (path : String)
  | nat (lease : NatLease)
  | overlay (ownership : OverlayOwnership)
  | veth (hostName : String)
  | bridgeAllocation (id : String)
  deriving DecidableEq, Repr

/-- What the recovery code sees of the machine: `/proc`, the clock, and for every cleanup step the
error it ends with, if any. -/
structure Host where
  proc : Proc
  now : Option UInt64
  fails : Cleanup → Option String

/-- The steps of `cleanup_stale_resources`, in order, each with the prefix of its error message.
All of them are tried, whatever happens to the others. -/
def staleCleanups (state : ContainerState) (pidIdentityOwned : Bool) : List (Cleanup × String) :=
  (state.cgroupPath.toList.map fun path ↦ (.cgroup path, "cgroup cleanup failed: ")) ++
  (if state.networkMode = "bridge" then
    state.natLease.toList.map fun lease ↦ (.nat lease, "NAT cleanup failed: ") else []) ++
  (state.overlayOwnership.toList.map fun o ↦ (.overlay o, "overlay cleanup failed: ")) ++
  if pidIdentityOwned then
    let stableVeth := (VethPair.forContainerId state.id).hostName
    let legacyVeths := (state.pid.toList.map fun pid ↦ (VethPair.forPid pid).hostName).filter
      (· ≠ stableVeth)
    (stableVeth :: legacyVeths).map fun veth ↦ (.veth veth, "veth " ++ veth ++ " cleanup failed: ")
  else []

/-- `cleanup_stale_resources`: the error it ends with, if any. -/
def cleanupStaleResources (host : Host) (state : ContainerState) (pidIdentityOwned : Bool) :
    Option String :=
  let errors := (staleCleanups state pidIdentityOwned).filterMap fun (step, label) ↦
    (host.fails step).map (label ++ ·)
  if errors = [] then none else some ("; ".intercalate errors)

/-- `release_state_network_allocation`; the error is the context it is given here. -/
def releaseStateNetworkAllocation (host : Host) (state : ContainerState) : Option String :=
  if state.networkMode ≠ "bridge" then none
  else (host.fails (.bridgeAllocation state.id)).map fun _ ↦
    "failed to release bridge subnet for stale container " ++ state.id

/-- `format_stale_signal`. -/
def formatStaleSignal (baseSignal : String) (errors : List String) : String :=
  if errors = [] then baseSignal
  else baseSignal ++ "_CLEANUP_FAILED: " ++ "; ".intercalate errors

/-- `stale_recovery_signal`. -/
def staleRecoverySignal (host : Host) (state : ContainerState) (pidIdentityOwned : Bool)
    (baseSignal : String) : String :=
  formatStaleSignal baseSignal
    ((cleanupStaleResources host state pidIdentityOwned).toList ++
      ((releaseStateNetworkAllocation host state).map
        ("bridge allocation cleanup failed: " ++ ·)).toList)

/-- The cleanup steps `stale_recovery_signal` takes. -/
def recoverySteps (state : ContainerState) (pidIdentityOwned : Bool) : List Cleanup :=
  (staleCleanups state pidIdentityOwned).map Prod.fst ++
    if state.networkMode = "bridge" then [.bridgeAllocation state.id] else []

/-- What `refresh_liveness` leaves: the record, its result, and the cleanup steps taken. -/
structure Refresh where
  state : ContainerState
  result : Except StateError Bool
  cleanups : List Cleanup

/-- Clean up and mark stopped, as the three branches of `refresh_liveness` do. -/
def recoverStale (host : Host) (state : ContainerState) (pidIdentityOwned : Bool)
    (baseSignal : String) : Refresh :=
  let signal := staleRecoverySignal host state pidIdentityOwned baseSignal
  let (stopped, result) := state.markStopped host.now none (some signal)
  { state := stopped
    result := result.map fun _ ↦ true
    cleanups := recoverySteps state pidIdentityOwned }

/-- `refresh_liveness`. -/
def refreshLiveness (host : Host) (state : ContainerState) : Refresh :=
  if state.status ≠ .running then ⟨state, .ok false, []⟩
  else match state.pid with
    | none => ⟨state, .ok false, []⟩
    | some pid =>
      if pidIsAlive host.proc pid then
        match state.processStarttime with
        | some expected =>
          if (processStarttime host.proc pid).toOption = some expected then ⟨state, .ok false, []⟩
          else recoverStale host state false "STALE_PID_REUSED"
        | none => recoverStale host state false "STALE_IDENTITY_MISSING"
      else recoverStale host state true "STALE"

theorem recoverStale_status (host : Host) (state : ContainerState) (owned : Bool) (base : String) :
    (recoverStale host state owned base).state.status = .stopped :=
  (state.markStopped_status host.now _ _).1

theorem recoverStale_id (host : Host) (state : ContainerState) (owned : Bool) (base : String) :
    (recoverStale host state owned base).state.id = state.id := by
  rw [recoverStale, ContainerState.markStopped]
  cases host.now <;> rfl

/-- **A refresh leaves the state alone, or recovers a running one.** -/
theorem refreshLiveness_cases (host : Host) (state : ContainerState) :
    refreshLiveness host state = ⟨state, .ok false, []⟩ ∨
      state.status = .running ∧
        ∃ owned base, refreshLiveness host state = recoverStale host state owned base := by
  rw [refreshLiveness]
  split
  · exact Or.inl rfl
  · rename_i hrunning
    have hrunning : state.status = .running := not_not.mp hrunning
    split
    · exact Or.inl rfl
    · split
      · split
        · split
          · exact Or.inl rfl
          · exact Or.inr ⟨hrunning, _, _, rfl⟩
        · exact Or.inr ⟨hrunning, _, _, rfl⟩
      · exact Or.inr ⟨hrunning, _, _, rfl⟩

/-- A recovery without an error has marked the state, and says so. -/
theorem recoverStale_eq_ok {host : Host} {state : ContainerState} {owned changed : Bool}
    {base : String} (h : (recoverStale host state owned base).result = .ok changed) :
    changed = true ∧ ∃ signal, state.markStopped host.now none (some signal) =
      ((recoverStale host state owned base).state, .ok ()) := by
  rw [recoverStale] at h
  cases hmark : (state.markStopped host.now none
      (some (staleRecoverySignal host state owned base))).2 with
  | error e => simp [hmark, Except.map] at h
  | ok u =>
    simp only [hmark, Except.map] at h
    exact ⟨(Except.ok.inj h).symm, _, Prod.ext rfl hmark⟩

/-- A recovery releases no allocation but that of its own state. -/
theorem eq_id_of_mem_recoverySteps {state : ContainerState} {owned : Bool} {id : String}
    (h : .bridgeAllocation id ∈ recoverySteps state owned) : id = state.id := by
  have hstale : Cleanup.bridgeAllocation id ∉ (staleCleanups state owned).map Prod.fst := by
    unfold staleCleanups
    split <;> split <;> simp
  rw [recoverySteps, List.mem_append] at h
  have h := h.resolve_left hstale
  split at h
  · exact Cleanup.bridgeAllocation.inj (List.mem_singleton.mp h)
  · simp at h

/-- Whatever a refresh does, it does to the container of the state. -/
theorem refreshLiveness_id (host : Host) (state : ContainerState) :
    (refreshLiveness host state).state.id = state.id ∧
      ∀ id, .bridgeAllocation id ∈ (refreshLiveness host state).cleanups → id = state.id := by
  rcases refreshLiveness_cases host state with hkeep | ⟨_, owned, base, hrecover⟩
  · rw [hkeep]
    exact ⟨rfl, fun id h ↦ by simp at h⟩
  · rw [hrecover]
    exact ⟨recoverStale_id .., fun id h ↦ eq_id_of_mem_recoverySteps h⟩

/-! ## The stat line the kernel writes -/

/-- How the kernel writes a process name: newline and backslash are escaped, everything else is
raw. -/
def escapeComm (comm : List UInt8) : List UInt8 :=
  comm.flatMap fun byte ↦
    if byte = 10 then [92, 110] else if byte = 92 then [92, 92] else [byte]

/-- What a stat line says: `pid (comm) state …`, with the start time as field 22. -/
structure StatLine where
  pid : Int
  comm : List UInt8
  state : Char
  state_letter : 'A'.toNat ≤ state.toNat ∧ state.toNat ≤ 'z'.toNat
  /-- Fields 4 to 21. -/
  fields : List Int
  fields_length : fields.length = 18
  starttime : UInt64
  /-- Field 23 and what follows. -/
  rest : List Int

namespace StatLine

variable (line : StatLine)

/-- The words after the state letter. -/
def words : List (List Char) :=
  line.fields.map Text.decimal ++ Nat.toDigits 10 line.starttime.toNat ::
    line.rest.map Text.decimal

/-- Words with a space before each, and a newline. -/
def joinWords : List (List Char) → List Char
  | [] => ['\n']
  | word :: words => ' ' :: (word ++ joinWords words)

/-- Everything after the process name. -/
def afterComm : List Char := line.state :: joinWords line.words

/-- The content of `/proc/<pid>/stat`. -/
def render : ByteArray :=
  Text.encode (Text.decimal line.pid ++ [' ', '(']) ++
    (⟨(escapeComm line.comm).toArray⟩ ++ Text.encode ([')', ' '] ++ line.afterComm))

/-- The process name, as the kernel writes it, is UTF-8. -/
def CommIsUtf8 : Prop := ByteArray.IsValidUTF8 ⟨(escapeComm line.comm).toArray⟩

instance : Decidable line.CommIsUtf8 := inferInstanceAs (Decidable (ByteArray.IsValidUTF8 _))

/-! ## Parsing it -/

/-- A word of the line: nonempty, and neither white space nor a parenthesis in it. -/
def IsWord (word : List Char) : Prop :=
  word ≠ [] ∧ ∀ c ∈ word, Text.isWhitespace c = false ∧ c ≠ ')'

theorem plain_of_isDigit {c : Char} (h : c.isDigit) : Text.isWhitespace c = false ∧ c ≠ ')' := by
  refine ⟨Text.isWhitespace_of_isDigit h, fun heq ↦ ?_⟩
  rw [heq] at h
  exact absurd h (by decide)

theorem isWord_decimal (n : Int) : IsWord (Text.decimal n) := by
  refine ⟨Text.decimal_ne_nil n, fun c hc ↦ ?_⟩
  rcases Text.mem_decimal hc with rfl | hdigit
  · decide
  · exact plain_of_isDigit hdigit

theorem isWord_toDigits (n : Nat) : IsWord (Nat.toDigits 10 n) := isWord_decimal n

theorem isWord_of_mem_words {word : List Char} (h : word ∈ line.words) : IsWord word := by
  rw [words, List.mem_append, List.mem_cons] at h
  rcases h with h | rfl | h
  · obtain ⟨n, _, rfl⟩ := List.mem_map.mp h
    exact isWord_decimal n
  · exact isWord_toDigits _
  · obtain ⟨n, _, rfl⟩ := List.mem_map.mp h
    exact isWord_decimal n

theorem isWord_state : IsWord [line.state] := by
  obtain ⟨hlo, hhi⟩ : 65 ≤ line.state.toNat ∧ line.state.toNat ≤ 122 := line.state_letter
  refine ⟨List.cons_ne_nil _ _, fun c hc ↦ ?_⟩
  obtain rfl := List.mem_singleton.mp hc
  refine ⟨Text.isWhitespace_of_visible (by omega) (by omega), fun heq ↦ ?_⟩
  rw [heq] at hlo
  exact absurd hlo (by decide)

theorem splitWhitespace_joinWords {word : List Char} {words : List (List Char)}
    (hword : IsWord word) (hwords : ∀ w ∈ words, IsWord w) :
    Text.splitWhitespace (word ++ joinWords words) = word :: words := by
  induction words generalizing word with
  | nil =>
    rw [joinWords, Text.splitWhitespace_append_cons [] hword.1 (fun c hc ↦ (hword.2 c hc).1)
      (by decide), Text.splitWhitespace_nil]
  | cons w words ih =>
    rw [joinWords, Text.splitWhitespace_append_cons _ hword.1 (fun c hc ↦ (hword.2 c hc).1)
      (by decide), ih (hwords w (by simp)) fun v hv ↦ hwords v (List.mem_cons_of_mem _ hv)]

theorem not_mem_joinWords {words : List (List Char)} (hwords : ∀ w ∈ words, IsWord w) :
    ')' ∉ joinWords words := by
  induction words with
  | nil => decide
  | cons w words ih =>
    rw [joinWords, List.mem_cons, List.mem_append]
    rintro (h | h | h)
    · exact absurd h (by decide)
    · exact ((hwords w (by simp)).2 _ h).2 rfl
    · exact ih (fun v hv ↦ hwords v (List.mem_cons_of_mem _ hv)) h

/-- After the name there is no parenthesis any more. -/
theorem not_mem_afterComm : ')' ∉ line.afterComm := by
  rw [afterComm, List.mem_cons]
  rintro (h | h)
  · exact (line.isWord_state.2 _ (List.mem_singleton.mpr h)).2 rfl
  · exact not_mem_joinWords (fun w hw ↦ line.isWord_of_mem_words hw) h

theorem splitWhitespace_afterComm :
    Text.splitWhitespace line.afterComm = [line.state] :: line.words :=
  splitWhitespace_joinWords line.isWord_state fun _ hw ↦ line.isWord_of_mem_words hw

/-- The start time is the twentieth word after the name. -/
theorem getElem?_afterComm :
    (Text.splitWhitespace line.afterComm)[19]? =
      some (Nat.toDigits 10 line.starttime.toNat) := by
  have hfields : (line.fields.map Text.decimal).length = 18 := by
    rw [List.length_map, line.fields_length]
  rw [splitWhitespace_afterComm, List.getElem?_cons_succ, words,
    List.getElem?_append_right (Nat.le_of_eq hfields), hfields]
  rfl

/-- The line can be read exactly if the name is UTF-8. -/
theorem isValidUTF8_render : line.render.IsValidUTF8 ↔ line.CommIsUtf8 := by
  rw [render, Text.isValidUTF8_encode_append_iff, Text.isValidUTF8_append_encode_iff, CommIsUtf8]

/-- **Whatever the name is, the last `") "` is the one after it.** -/
theorem rsplitOnce_render (h : line.CommIsUtf8) :
    ∃ before text, Text.decode line.render = some text ∧
      Text.rsplitOnce [')', ' '] text = some (before, line.afterComm) := by
  obtain ⟨comm, hcomm⟩ := Text.exists_encode h
  have hparen : ')' ∉ [' '] ++ line.afterComm := by
    rw [List.singleton_append, List.mem_cons]
    rintro (h | h)
    · exact absurd h (by decide)
    · exact line.not_mem_afterComm h
  refine ⟨Text.decimal line.pid ++ [' ', '('] ++ comm, _, ?_, Text.rsplitOnce_append _ hparen⟩
  rw [render, hcomm, ← Text.encode_append, ← Text.encode_append, Text.decode_encode]
  simp

variable {line} {proc : Proc}

theorem processStarttime_of_utf8 (hproc : proc line.pid = .stat line.render)
    (h : line.CommIsUtf8) : processStarttime proc line.pid = .ok line.starttime := by
  obtain ⟨before, text, hdecode, hsplit⟩ := line.rsplitOnce_render h
  rw [processStarttime, hproc, ProcEntry.readToString, hdecode]
  simp only [hsplit, getElem?_afterComm, Text.parseU64_toDigits]

theorem pidIsAlive_of_utf8 (hproc : proc line.pid = .stat line.render) (h : line.CommIsUtf8) :
    pidIsAlive proc line.pid = decide (line.state ≠ 'Z') := by
  obtain ⟨before, text, hdecode, hsplit⟩ := line.rsplitOnce_render h
  rw [pidIsAlive, hproc]
  simp only [ProcEntry.readToString, hdecode, hsplit, afterComm, List.head?_cons, ne_eq,
    Option.some.injEq]

/-- A line that is not UTF-8 is a process that is alive and has no start time. -/
theorem processStarttime_of_not_utf8 (hproc : proc line.pid = .stat line.render)
    (h : ¬ line.CommIsUtf8) : (processStarttime proc line.pid).toOption = none := by
  rw [processStarttime, hproc, ProcEntry.readToString,
    Text.decode_eq_none (mt line.isValidUTF8_render.mp h)]
  rfl

theorem pidIsAlive_of_not_utf8 (hproc : proc line.pid = .stat line.render)
    (h : ¬ line.CommIsUtf8) : pidIsAlive proc line.pid = true := by
  rw [pidIsAlive, hproc]
  simp only [ProcEntry.readToString, Text.decode_eq_none (mt line.isValidUTF8_render.mp h)]

end StatLine

/-! ## When recovery is right -/

/-- A running state, checked against the line of its own pid. -/
theorem refreshLiveness_running {host : Host} {state : ContainerState} {pid : Int}
    {expected : UInt64} (hstatus : state.status = .running) (hpid : state.pid = some pid)
    (hstart : state.processStarttime = some expected) :
    refreshLiveness host state =
      if pidIsAlive host.proc pid then
        if (processStarttime host.proc pid).toOption = some expected then ⟨state, .ok false, []⟩
        else recoverStale host state false "STALE_PID_REUSED"
      else recoverStale host state true "STALE" := by
  rw [refreshLiveness, if_neg (not_not.mpr hstatus), hpid, hstart]

/-- **Recovery against an arbitrary process name.**  A running state whose process is there, is not
a zombie and started when the state says keeps its start time and is left alone, and any other one
is marked stopped — exactly if the name is UTF-8, or the process is a zombie or another one. -/
theorem recovery_exact (host : Host) (state : ContainerState) (line : StatLine) (s : UInt64)
    (hstatus : state.status = .running) (hpid : state.pid = some line.pid)
    (hstart : state.processStarttime = some s) (hproc : host.proc line.pid = .stat line.render) :
    (line.state ≠ 'Z' ∧ line.starttime = s →
        processStarttime host.proc line.pid = .ok s ∧
        refreshLiveness host state = ⟨state, .ok false, []⟩) ∧
      (line.state = 'Z' ∨ line.starttime ≠ s →
        (refreshLiveness host state).state.status = .stopped) ↔
    line.CommIsUtf8 ∨ line.state = 'Z' ∨ line.starttime ≠ s := by
  rw [refreshLiveness_running hstatus hpid hstart]
  by_cases hutf8 : line.CommIsUtf8
  · rw [StatLine.processStarttime_of_utf8 hproc hutf8, StatLine.pidIsAlive_of_utf8 hproc hutf8]
    refine ⟨fun _ ↦ Or.inl hutf8, fun _ ↦ ⟨?_, ?_⟩⟩
    · rintro ⟨hstate, rfl⟩
      refine ⟨rfl, ?_⟩
      rw [if_pos (decide_eq_true hstate)]
      exact if_pos rfl
    · intro hstale
      split
      · rename_i halive
        have hdiff : line.starttime ≠ s := hstale.resolve_left (of_decide_eq_true halive)
        have hne : (Except.ok line.starttime : Except StateError UInt64).toOption ≠ some s :=
          fun heq ↦ hdiff (Option.some.inj heq)
        rw [if_neg hne]
        exact recoverStale_status ..
      · exact recoverStale_status ..
  · -- the line cannot be read, so whoever it is is taken for another process
    have hnone := StatLine.processStarttime_of_not_utf8 hproc hutf8
    rw [StatLine.pidIsAlive_of_not_utf8 hproc hutf8, if_pos rfl, hnone, if_neg (by simp)]
    refine ⟨fun h ↦ Or.inr ?_, fun h ↦ ⟨?_, fun _ ↦ recoverStale_status ..⟩⟩
    · by_contra hlive
      push Not at hlive
      have hstarttime := (h.1 hlive).1
      rw [hstarttime] at hnone
      exact absurd hnone (by simp [Except.toOption])
    · rintro ⟨hstate, heq⟩
      exact absurd (h.resolve_left hutf8) (not_or.mpr ⟨hstate, not_not.mpr heq⟩)

theorem zombie_letter : 'A'.toNat ≤ 'Z'.toNat ∧ 'Z'.toNat ≤ 'z'.toNat := by decide

/-- The stat line of a sleeping process 42 that started at tick 7. -/
def sampleLine (comm : List UInt8) : StatLine where
  pid := 42
  comm := comm
  state := 'S'
  state_letter := by decide
  fields := List.replicate 18 0
  fields_length := rfl
  starttime := 7
  rest := List.replicate 30 0

/-- A machine on which every pid shows that line and every cleanup works. -/
def sampleHost (comm : List UInt8) : Host where
  proc := fun _ ↦ .stat (sampleLine comm).render
  now := some 2000
  fails := fun _ ↦ none

/-- Process `42 (a) Z)`: a name that looks like the end of the name of a zombie. -/
theorem recovery_exact_parenthesis :
    refreshLiveness (sampleHost [97, 41, 32, 90]) (sampleState "demo" 42 7) =
      ⟨sampleState "demo" 42 7, .ok false, []⟩ :=
  (((recovery_exact (sampleHost [97, 41, 32, 90]) (sampleState "demo" 42 7)
    (sampleLine [97, 41, 32, 90]) 7 rfl rfl rfl rfl).mpr (Or.inl (by decide +kernel))).1
      ⟨by decide, rfl⟩).2

/-- A live process that named itself with the byte 255: its start time is not found, and its
container is torn down and recorded as stopped. -/
theorem recovery_kills_live :
    (sampleLine [255]).state ≠ 'Z' ∧ (sampleLine [255]).starttime = 7 ∧
      (processStarttime (sampleHost [255]).proc 42).toOption = none ∧
      (refreshLiveness (sampleHost [255]) (sampleState "demo" 42 7)).state.status = .stopped ∧
      (refreshLiveness (sampleHost [255]) (sampleState "demo" 42 7)).state.signal =
        some "STALE_PID_REUSED" := by
  have hname : ¬ (sampleLine [255]).CommIsUtf8 := by decide +kernel
  have hnone : (processStarttime (sampleHost [255]).proc 42).toOption = none :=
    @StatLine.processStarttime_of_not_utf8 (sampleLine [255]) _ rfl hname
  have halive : pidIsAlive (sampleHost [255]).proc 42 = true :=
    @StatLine.pidIsAlive_of_not_utf8 (sampleLine [255]) _ rfl hname
  refine ⟨by decide, rfl, hnone, ?_⟩
  rw [refreshLiveness_running rfl rfl rfl, if_pos halive, hnone, if_neg (by simp)]
  exact ⟨recoverStale_status .., by decide +kernel⟩

end CrunRs.State
