import CrunRs.AuditLog
import CrunRs.Lib.Fold
import CrunRs.Lib.Ordered
import CrunRs.State.Basic
import Mathlib.Algebra.BigOperators.Group.List.Basic
import Mathlib.Algebra.GroupWithZero.Nat

/-!
# Counter events

`events.rs`: the counters of a cgroup are read over and over, and an event is emitted for each one that
has risen since the last time.

What the events of one round say about a counter is how much it has risen (`total_collect`), so over a
whole run the deltas add up to what it has risen in all — except that a cpu counter that was not there
in the last round is passed over, where one of memory or pids counts as zero.  So the deltas add up
exactly if no cpu counter is positive when it is first seen after the start (`conserved_iff`).
-/

set_option autoImplicit false

namespace CrunRs.Events

open AuditLog Ordered State

/-! ## Snapshots and their events -/

structure EventSnapshot where
  memoryEvents : Std.ExtTreeMap String UInt64
  pidsEvents : Std.ExtTreeMap String UInt64
  cpuNrThrottled : Option UInt64
  cpuThrottledUsec : Option UInt64

/-- `EventSnapshot::fields`. -/
def EventSnapshot.fields (snapshot : EventSnapshot) : Std.ExtTreeMap String UInt64 :=
  let fields := snapshot.memoryEvents.toList.foldl
    (fun fields entry ↦ fields.insert ("memory." ++ entry.1) entry.2) ∅
  let fields := snapshot.pidsEvents.toList.foldl
    (fun fields entry ↦ fields.insert ("pids." ++ entry.1) entry.2) fields
  let fields := snapshot.cpuNrThrottled.toList.foldl
    (fun fields value ↦ fields.insert "cpu.nr_throttled" value) fields
  snapshot.cpuThrottledUsec.toList.foldl
    (fun fields value ↦ fields.insert "cpu.throttled_usec" value) fields

/-- `AuditEvent::new`, at the time `now`. -/
def newEvent (now : UInt64) (id source name : String) : AuditEvent where
  timestampUnix := now
  id := id
  source := source
  name := name
  value := none
  delta := none
  fields := none
  status := none

/-- `snapshot_event`. -/
def snapshotEvent (now : UInt64) (id : String) (snapshot : EventSnapshot) : AuditEvent :=
  { newEvent now id "cgroup" "snapshot" with fields := some snapshot.fields }

/-- `counter_event`. -/
def counterEvent (now : UInt64) (id source name : String) (value delta : UInt64) : AuditEvent :=
  { newEvent now id source name with value := some value, delta := some delta }

/-- `append_counter_events`.  A counter that was not there before has risen from zero. -/
def appendCounterEvents (now : UInt64) (id source : String)
    (previous current : Std.ExtTreeMap String UInt64) (events : List AuditEvent) : List AuditEvent :=
  current.toList.foldl (fun events entry ↦
    let previousValue := previous[entry.1]?.getD 0
    if entry.2 > previousValue then
      events ++ [counterEvent now id source entry.1 entry.2 (entry.2 - previousValue)]
    else events) events

/-- What `collect_counter_events` does for a cpu counter.  One that was not there before is passed
over. -/
def appendCpuEvent (now : UInt64) (id name : String) (previous current : Option UInt64)
    (events : List AuditEvent) : List AuditEvent :=
  match previous, current with
  | some previous, some current =>
    if current > previous then
      events ++ [counterEvent now id "cpu" name current (current - previous)]
    else events
  | _, _ => events

/-- `collect_counter_events`, at the time `now`. -/
def collectCounterEvents (now : UInt64) (id : String) (previous current : EventSnapshot) :
    List AuditEvent :=
  let events := appendCounterEvents now id "memory" previous.memoryEvents current.memoryEvents []
  let events := appendCounterEvents now id "pids" previous.pidsEvents current.pidsEvents events
  let events :=
    appendCpuEvent now id "nr_throttled" previous.cpuNrThrottled current.cpuNrThrottled events
  appendCpuEvent now id "throttled_usec" previous.cpuThrottledUsec current.cpuThrottledUsec events

/-- The events of a run: the snapshots that follow the first one, with the times they are taken at. -/
def counterEvents (id : String) (previous : EventSnapshot) :
    List (UInt64 × EventSnapshot) → List AuditEvent
  | [] => []
  | (now, current) :: rest =>
    collectCounterEvents now id previous current ++ counterEvents id current rest

/-! ## Counters -/

/-- A counter of a cgroup. -/
inductive Counter
  | memory (name : String)
  | pids (name : String)
  | cpuNrThrottled
  | cpuThrottledUsec
  deriving DecidableEq

namespace Counter

def read : Counter → EventSnapshot → Option UInt64
  | memory name, snapshot => snapshot.memoryEvents[name]?
  | pids name, snapshot => snapshot.pidsEvents[name]?
  | cpuNrThrottled, snapshot => snapshot.cpuNrThrottled
  | cpuThrottledUsec, snapshot => snapshot.cpuThrottledUsec

/-- The value of a counter.  One that is absent counts as zero. -/
def value (counter : Counter) (snapshot : EventSnapshot) : UInt64 := (counter.read snapshot).getD 0

def source : Counter → String
  | memory _ => "memory"
  | pids _ => "pids"
  | cpuNrThrottled | cpuThrottledUsec => "cpu"

def name : Counter → String
  | memory name | pids name => name
  | cpuNrThrottled => "nr_throttled"
  | cpuThrottledUsec => "throttled_usec"

def isCpu : Counter → Bool
  | memory _ | pids _ => false
  | cpuNrThrottled | cpuThrottledUsec => true

/-- An event is about a counter. -/
def names (counter : Counter) (event : AuditEvent) : Bool :=
  event.source = counter.source ∧ event.name = counter.name

/-- The sum of the deltas of the events about a counter. -/
def total (counter : Counter) (events : List AuditEvent) : ℕ :=
  ((events.filter counter.names).map fun event ↦ (event.delta.getD 0).toNat).sum

@[simp] theorem total_nil (counter : Counter) : counter.total [] = 0 := rfl

@[simp] theorem total_singleton (counter : Counter) (event : AuditEvent) :
    counter.total [event] = if counter.names event then (event.delta.getD 0).toNat else 0 := by
  rw [total, List.filter_singleton]
  cases counter.names event <;> rfl

@[simp] theorem total_append (counter : Counter) (events events' : List AuditEvent) :
    counter.total (events ++ events') = counter.total events + counter.total events' := by
  rw [total, List.filter_append, List.map_append, List.sum_append]
  rfl

end Counter

/-! ## One round -/

section Round

variable {now : UInt64} {id source name : String}

/-- The event an entry of the current counters makes, if it has risen. -/
def rise (now : UInt64) (id source : String) (previous : Std.ExtTreeMap String UInt64)
    (entry : String × UInt64) : Option AuditEvent :=
  if entry.2 > previous[entry.1]?.getD 0 then
    some (counterEvent now id source entry.1 entry.2 (entry.2 - previous[entry.1]?.getD 0))
  else none

theorem appendCounterEvents_eq (previous current : Std.ExtTreeMap String UInt64)
    (events : List AuditEvent) : appendCounterEvents now id source previous current events =
      events ++ current.toList.filterMap (rise now id source previous) := by
  refine @Fold.get_foldl_of_append _ _ _ _ (fun events ↦ events) _ (fun events entry ↦ ?_) events _
  rw [rise]
  dsimp only
  split_ifs
  · rfl
  · exact (List.append_nil _).symm

/-- Whether a counter is meant can be told from the name of its entry. -/
theorem names_of_rise {counter : Counter} {previous : Std.ExtTreeMap String UInt64}
    {entry : String × UInt64} {event : AuditEvent} (h : rise now id source previous entry = some event) :
    counter.names event = decide (source = counter.source ∧ entry.1 = counter.name) := by
  rw [rise] at h
  split_ifs at h
  obtain rfl := Option.some.inj h
  rfl

/-- How much two values differ, as the delta of an event that is only there if the second one is
greater. -/
theorem sum_rise (previous : Std.ExtTreeMap String UInt64) (entry : String × UInt64) :
    ((rise now id source previous entry).toList.map fun event ↦ (event.delta.getD 0).toNat).sum =
      entry.2.toNat - (previous[entry.1]?.getD 0 : UInt64).toNat := by
  rw [rise]
  split_ifs with hrises
  · exact UInt64.toNat_sub_of_le _ _ (UInt64.le_of_lt hrises)
  · exact (Nat.sub_eq_zero_of_le (UInt64.le_iff_toNat_le.mp (UInt64.not_lt.mp hrises))).symm

theorem total_rises (counter : Counter) (previous current : Std.ExtTreeMap String UInt64) :
    counter.total (current.toList.filterMap (rise now id source previous)) =
      if source = counter.source then (current[counter.name]?.getD 0 : UInt64).toNat -
        (previous[counter.name]?.getD 0 : UInt64).toNat
      else 0 := by
  have hfilter : (current.toList.filterMap (rise now id source previous)).filter counter.names =
      (current.toList.filter fun entry ↦ source = counter.source ∧ entry.1 = counter.name).filterMap
        (rise now id source previous) := by
    rw [List.filter_filterMap, List.filterMap_filter]
    refine List.filterMap_congr fun entry _ ↦ ?_
    cases hrise : rise now id source previous entry with
    | none => simp
    | some event => rw [Option.filter_some, names_of_rise hrise]
  rw [Counter.total, hfilter]
  split_ifs with hsource
  · subst hsource
    simp only [true_and, filter_toList_key]
    cases current[counter.name]? with
    | none => simp
    | some value =>
      have hsum := @sum_rise now id counter.source previous (counter.name, value)
      rw [Option.getD_some, ← hsum]
      cases hrise : rise now id counter.source previous (counter.name, value) <;> simp [hrise]
  · simp [hsource]

/-- What a cpu counter adds. -/
theorem total_appendCpuEvent (counter : Counter) (previous current : Option UInt64)
    (events : List AuditEvent) : counter.total (appendCpuEvent now id name previous current events) =
      counter.total events +
        if counter.source = "cpu" ∧ counter.name = name ∧ previous ≠ none then
          (current.getD 0).toNat - (previous.getD 0).toNat
        else 0 := by
  cases previous with
  | none => simp [appendCpuEvent]
  | some previous =>
    cases current with
    | none => simp [appendCpuEvent]
    | some current =>
      simp only [appendCpuEvent, Option.getD_some]
      have hnames : ∀ value delta, counter.names (counterEvent now id "cpu" name value delta) =
          decide (counter.source = "cpu" ∧ counter.name = name) := by
        intro value delta
        exact decide_eq_decide.mpr (and_congr eq_comm eq_comm)
      split_ifs with hrises hcounter hcounter
      · rw [Counter.total_append, Counter.total_singleton, hnames,
          decide_eq_true ⟨hcounter.1, hcounter.2.1⟩]
        exact congrArg _ (UInt64.toNat_sub_of_le _ _ (UInt64.le_of_lt hrises))
      · rw [Counter.total_append, Counter.total_singleton, hnames,
          decide_eq_false (by simpa using hcounter)]
        rfl
      · rw [Nat.sub_eq_zero_of_le (UInt64.le_iff_toNat_le.mp (UInt64.not_lt.mp hrises)), Nat.add_zero]
      · rfl

/-- A counter that is passed over in a round. -/
def Counter.Missed (counter : Counter) (previous : EventSnapshot) : Prop :=
  counter.isCpu ∧ counter.read previous = none

instance (counter : Counter) (previous : EventSnapshot) : Decidable (counter.Missed previous) :=
  inferInstanceAs (Decidable (_ ∧ _))

/-- **The events of a round say how much a counter has risen**, unless it is passed over. -/
theorem total_collect (now : UInt64) (id : String) (counter : Counter)
    (previous current : EventSnapshot) :
    counter.total (collectCounterEvents now id previous current) =
      if counter.Missed previous then 0
      else (counter.value current).toNat - (counter.value previous).toNat := by
  simp only [collectCounterEvents, total_appendCpuEvent, appendCounterEvents_eq,
    Counter.total_append, Counter.total_nil, total_rises]
  cases counter <;> simp [Counter.source, Counter.name, Counter.Missed, Counter.isCpu, Counter.value,
    Counter.read]

/-- An event that says what a counter has come to, and that it has risen. -/
def Tells (current : EventSnapshot) (event : AuditEvent) : Prop :=
  ∃ counter : Counter, counter.names event ∧ event.value = some (counter.value current) ∧
    ∃ delta, event.delta = some delta ∧ delta ≠ 0

theorem sub_ne_zero_of_rises {previous current : UInt64} (h : current > previous) :
    current - previous ≠ 0 := by
  intro hzero
  have hnat := congrArg UInt64.toNat hzero
  rw [UInt64.toNat_sub_of_le _ _ (UInt64.le_of_lt h)] at hnat
  exact Nat.sub_ne_zero_of_lt (UInt64.lt_iff_toNat_lt.mp h) hnat

/-- The events of one family of counters. -/
theorem tells_of_mem_rises (counter : String → Counter) {current : EventSnapshot}
    {previous counters : Std.ExtTreeMap String UInt64} {event : AuditEvent}
    (hsource : ∀ name, (counter name).source = source) (hname : ∀ name, (counter name).name = name)
    (hread : ∀ name, (counter name).read current = counters[name]?)
    (h : event ∈ counters.toList.filterMap (rise now id source previous)) : Tells current event := by
  obtain ⟨⟨name, value⟩, hmem, hrise⟩ := List.mem_filterMap.mp h
  have hget : counters[name]? = some value := Std.ExtTreeMap.mem_toList_iff_getElem?_eq_some.mp hmem
  rw [rise] at hrise
  split_ifs at hrise with hrises
  obtain rfl := Option.some.inj hrise
  refine ⟨counter name, ?_, ?_, _, rfl, sub_ne_zero_of_rises hrises⟩
  · rw [Counter.names, hsource, hname]
    exact decide_eq_true ⟨rfl, rfl⟩
  · rw [Counter.value, hread, hget]
    rfl

theorem mem_appendCpuEvent (counter : Counter) {previous : Option UInt64} {current : EventSnapshot}
    {events : List AuditEvent} {event : AuditEvent} (hsource : counter.source = "cpu")
    (hname : counter.name = name)
    (h : event ∈ appendCpuEvent now id name previous (counter.read current) events) :
    event ∈ events ∨ Tells current event := by
  cases previous with
  | none => exact Or.inl h
  | some previous =>
    cases hread : counter.read current with
    | none =>
      rw [hread] at h
      exact Or.inl h
    | some value =>
      rw [hread, appendCpuEvent] at h
      split_ifs at h with hrises
      · refine (List.mem_append.mp h).imp_right fun hnew ↦ ?_
        obtain rfl := List.mem_singleton.mp hnew
        refine ⟨counter, ?_, ?_, _, rfl, sub_ne_zero_of_rises hrises⟩
        · rw [Counter.names, hsource, hname]
          exact decide_eq_true ⟨rfl, rfl⟩
        · rw [Counter.value, hread]
          rfl
      · exact Or.inl h

/-- **Every event of a round** says what a counter has come to, and that it has risen. -/
theorem tells_of_mem_collect {previous current : EventSnapshot} {event : AuditEvent}
    (h : event ∈ collectCounterEvents now id previous current) : Tells current event := by
  rcases mem_appendCpuEvent .cpuThrottledUsec rfl rfl h with h | h
  · rcases mem_appendCpuEvent .cpuNrThrottled rfl rfl h with h | h
    · rw [appendCounterEvents_eq, appendCounterEvents_eq, List.nil_append, List.mem_append] at h
      rcases h with h | h
      · exact tells_of_mem_rises .memory (fun _ ↦ rfl) (fun _ ↦ rfl) (fun _ ↦ rfl) h
      · exact tells_of_mem_rises .pids (fun _ ↦ rfl) (fun _ ↦ rfl) (fun _ ↦ rfl) h
    · exact h
  · exact h

end Round

/-! ## A whole run -/

/-- The last snapshot of a run. -/
def lastSnapshot (previous : EventSnapshot) : List (UInt64 × EventSnapshot) → EventSnapshot
  | [] => previous
  | (_, current) :: rest => lastSnapshot current rest

/-- Something holds between every snapshot of a run and the next one. -/
def Rounds (p : EventSnapshot → EventSnapshot → Prop) (previous : EventSnapshot) :
    List (UInt64 × EventSnapshot) → Prop
  | [] => True
  | (_, current) :: rest => p previous current ∧ Rounds p current rest

/-- No counter falls. -/
def NonDecreasing : EventSnapshot → List (UInt64 × EventSnapshot) → Prop :=
  Rounds fun previous current ↦
    ∀ counter : Counter, counter.value previous ≤ counter.value current

/-- No cpu counter is positive in a snapshot right behind one that does not have it. -/
def NoneAppears : EventSnapshot → List (UInt64 × EventSnapshot) → Prop :=
  Rounds fun previous current ↦
    ∀ counter : Counter, counter.Missed previous → counter.value current = 0

/-- What the events of a run promise: the deltas add up, and every event says what a counter has come
to, and that it has risen. -/
structure Conserved (id : String) (first : EventSnapshot) (rest : List (UInt64 × EventSnapshot)) :
    Prop where
  deltas : ∀ counter : Counter,
    counter.total (counterEvents id first rest) =
      (counter.value (lastSnapshot first rest)).toNat - (counter.value first).toNat
  events : Rounds (fun previous current ↦ ∀ now, ∀ event ∈ collectCounterEvents now id previous current,
    Tells current event) first rest

/-- What is passed over of a counter. -/
def Counter.missing (counter : Counter) (previous : EventSnapshot) :
    List (UInt64 × EventSnapshot) → ℕ
  | [] => 0
  | (_, current) :: rest =>
    (if counter.Missed previous then (counter.value current).toNat else 0) +
      counter.missing current rest

/-- **The deltas telescope**, up to what is passed over. -/
theorem add_total_counterEvents (id : String) (counter : Counter) {previous : EventSnapshot}
    {rest : List (UInt64 × EventSnapshot)} (h : NonDecreasing previous rest) :
    (counter.value previous).toNat +
        (counter.total (counterEvents id previous rest) + counter.missing previous rest) =
      (counter.value (lastSnapshot previous rest)).toNat := by
  induction rest generalizing previous with
  | nil => rfl
  | cons round rest ih =>
    obtain ⟨now, current⟩ := round
    obtain ⟨hround, hrest⟩ := h
    have hle : (counter.value previous).toNat ≤ (counter.value current).toNat :=
      UInt64.le_iff_toNat_le.mp (hround counter)
    rw [lastSnapshot, ← ih hrest, counterEvents, Counter.missing, Counter.total_append, total_collect]
    split_ifs with hmissed
    · have hzero : counter.value previous = 0 := by
        rw [Counter.value, hmissed.2]
        rfl
      rw [hzero, UInt64.toNat_zero]
      omega
    · omega

theorem missing_eq_zero_iff {previous : EventSnapshot} {rest : List (UInt64 × EventSnapshot)} :
    (∀ counter : Counter, counter.missing previous rest = 0) ↔ NoneAppears previous rest := by
  induction rest generalizing previous with
  | nil => exact iff_of_true (fun _ ↦ rfl) trivial
  | cons round rest ih =>
    obtain ⟨now, current⟩ := round
    rw [NoneAppears, Rounds, ← NoneAppears, ← ih, ← forall_and]
    refine forall_congr' fun counter ↦ ?_
    rw [Counter.missing, Nat.add_eq_zero_iff]
    refine and_congr_left fun _ ↦ ?_
    split_ifs with hmissed
    · rw [← UInt64.toNat_inj, UInt64.toNat_zero]
      exact ⟨fun h _ ↦ h, fun h ↦ h hmissed⟩
    · exact iff_of_true rfl fun h ↦ absurd h hmissed

theorem rounds_of_forall {p : EventSnapshot → EventSnapshot → Prop} (h : ∀ s s', p s s')
    (previous : EventSnapshot) (rest : List (UInt64 × EventSnapshot)) : Rounds p previous rest := by
  induction rest generalizing previous with
  | nil => trivial
  | cons round rest ih => exact ⟨h _ _, ih _⟩

/-- **When counter events conserve.**  In every run in which no counter falls, the deltas of the events
about a counter add up to what it has risen, and every event says what its counter has come to and
that it has risen — exactly if no cpu counter is positive when it appears in the middle of the
run. -/
theorem conserved_iff (id : String) (first : EventSnapshot) (rest : List (UInt64 × EventSnapshot))
    (h : NonDecreasing first rest) : Conserved id first rest ↔ NoneAppears first rest := by
  rw [← missing_eq_zero_iff]
  constructor
  · intro hconserved counter
    have htotal := add_total_counterEvents id counter h
    have hdeltas := hconserved.deltas counter
    omega
  · intro hmissing
    refine ⟨fun counter ↦ ?_, rounds_of_forall (fun _ _ _ _ hmem ↦ tells_of_mem_collect hmem) _ _⟩
    have htotal := add_total_counterEvents id counter h
    have hzero := hmissing counter
    omega

/-- Counters of a container without limits, with a count of what was throttled. -/
def sampleSnapshot (throttled : Option UInt64) : EventSnapshot where
  memoryEvents := (∅ : Std.ExtTreeMap String UInt64).insert "oom_kill" 1
  pidsEvents := ∅
  cpuNrThrottled := throttled
  cpuThrottledUsec := none

/-- Only the throttling changes. -/
theorem nonDecreasing_sample {throttled throttled' : Option UInt64}
    (h : throttled.getD 0 ≤ throttled'.getD 0) :
    NonDecreasing (sampleSnapshot throttled) [(1000, sampleSnapshot throttled')] := by
  refine ⟨fun counter ↦ ?_, trivial⟩
  cases counter with
  | cpuNrThrottled => exact h
  | memory name => exact UInt64.le_refl ((Counter.memory name).value (sampleSnapshot throttled))
  | pids name => exact UInt64.le_refl ((Counter.pids name).value (sampleSnapshot throttled))
  | cpuThrottledUsec => exact UInt64.le_refl (Counter.cpuThrottledUsec.value (sampleSnapshot throttled))

/-- The counter is there from the start. -/
theorem conserved_iff_throttled :
    Conserved "demo" (sampleSnapshot (some 2)) [(1000, sampleSnapshot (some 5))] := by
  refine (conserved_iff "demo" (sampleSnapshot (some 2)) [(1000, sampleSnapshot (some 5))]
    (nonDecreasing_sample (by decide))).mpr ⟨fun counter hmissed ↦ ?_, trivial⟩
  cases counter with
  | memory | pids => cases hmissed.1
  | cpuNrThrottled => exact absurd hmissed.2 (Option.some_ne_none 2)
  | cpuThrottledUsec => rfl

/-- The cpu controller is enabled in the middle of a run, and the container is throttled before the
next snapshot: no event says so. -/
theorem throttling_without_event :
    NonDecreasing (sampleSnapshot none) [(1000, sampleSnapshot (some 5))] ∧
      ¬ Conserved "demo" (sampleSnapshot none) [(1000, sampleSnapshot (some 5))] := by
  refine ⟨nonDecreasing_sample (by decide), fun hconserved ↦ ?_⟩
  have hdeltas := hconserved.deltas .cpuNrThrottled
  rw [counterEvents, Counter.total_append, total_collect, if_pos ⟨rfl, rfl⟩] at hdeltas
  exact absurd hdeltas (by decide)

/-! ## The stream -/

/-- What is found of a container at one time: its status and its counters, if they can be read. -/
structure Tick where
  now : UInt64
  status : Option ContainerStatus
  stats : Option EventSnapshot

/-- What a stream comes to: more rounds, the end of the container, or an error. -/
inductive StreamEnd
  | running
  | stopped
  | failed
  deriving DecidableEq, Repr

/-- `container_status_name`. -/
def containerStatusName : ContainerStatus → String
  | .created => "created"
  | .running => "running"
  | .stopped => "stopped"

/-- The last event of a stream. -/
def stoppedEvent (now : UInt64) (id : String) (status : ContainerStatus) : AuditEvent :=
  { newEvent now id "lifecycle" "stopped" with status := some (containerStatusName status) }

/-- The loop of `stream_counter_events`, with what it finds in each round. -/
def streamRounds (id : String) (previous : EventSnapshot) : List Tick → List AuditEvent × StreamEnd
  | [] => ([], .running)
  | tick :: ticks =>
    match tick.status with
    | none => ([], .failed)
    | some .running =>
      match tick.stats with
      | none => ([], .failed)
      | some current =>
        let rest := streamRounds id current ticks
        (collectCounterEvents tick.now id previous current ++ rest.1, rest.2)
    | some status => ([stoppedEvent tick.now id status], .stopped)

/-- `stream_counter_events`: the events it emits, and what it comes to.  Emitting works. -/
def streamCounterEvents (id : String) (snapshot once : Bool) (interval : ℕ) (start : Tick)
    (ticks : List Tick) : Except EventError (List AuditEvent × StreamEnd) :=
  if interval = 0 then .error .invalidInterval
  else if start.status ≠ some .running then .ok ([], .failed)
  else match start.stats with
    | none => .ok ([], .failed)
    | some previous =>
      let first := if snapshot then [snapshotEvent start.now id previous] else []
      if once then .ok (first, .stopped)
      else
        let rest := streamRounds id previous ticks
        .ok (first ++ rest.1, rest.2)

/-- The snapshots a stream gets to. -/
def seen : List Tick → List (UInt64 × EventSnapshot)
  | [] => []
  | tick :: ticks =>
    match tick.status, tick.stats with
    | some .running, some current => (tick.now, current) :: seen ticks
    | _, _ => []

theorem total_streamRounds (id : String) (counter : Counter) (previous : EventSnapshot)
    (ticks : List Tick) : counter.total (streamRounds id previous ticks).1 =
      counter.total (counterEvents id previous (seen ticks)) := by
  have hstopped : ∀ now status, counter.total [stoppedEvent now id status] = 0 := by
    intro now status
    rw [Counter.total_singleton, if_neg]
    cases counter <;> simp [Counter.names, Counter.source, stoppedEvent, newEvent]
  induction ticks generalizing previous with
  | nil => rfl
  | cons tick ticks ih =>
    obtain ⟨now, status, stats⟩ := tick
    cases status with
    | none => rfl
    | some status =>
      cases status with
      | running =>
        cases stats with
        | none => rfl
        | some current =>
          rw [streamRounds, seen, counterEvents]
          simp only [Counter.total_append, ih]
      | created => exact hstopped now .created
      | stopped => exact hstopped now .stopped

/-- **What a stream says of a counter** is what the rounds over the snapshots it gets to say: the event
of the first snapshot and the one at the end are not about a counter. -/
theorem total_streamCounterEvents {id : String} {snapshot : Bool} {interval : ℕ} {start : Tick}
    {first : EventSnapshot} {ticks : List Tick} {events : List AuditEvent} {result : StreamEnd}
    (hstart : start.stats = some first) (hstatus : start.status = some .running)
    (h : streamCounterEvents id snapshot false interval start ticks = .ok (events, result))
    (counter : Counter) :
    counter.total events = counter.total (counterEvents id first (seen ticks)) := by
  have hfirst : counter.total (if snapshot then [snapshotEvent start.now id first] else []) = 0 := by
    cases snapshot with
    | false => rfl
    | true =>
      rw [if_pos rfl, Counter.total_singleton, if_neg]
      cases counter <;> simp [Counter.names, Counter.source, snapshotEvent, newEvent]
  by_cases hzero : interval = 0
  · rw [streamCounterEvents, if_pos hzero] at h
    cases h
  · rw [streamCounterEvents, if_neg hzero, if_neg (not_not.mpr hstatus), hstart] at h
    simp only [Bool.false_eq_true, if_false, Except.ok.injEq, Prod.mk.injEq] at h
    rw [← h.1, Counter.total_append, hfirst, Nat.zero_add, total_streamRounds]

end CrunRs.Events
