import CrunRs.Seccomp.Collector

/-!
# The signals of a traced process

A stop is reported when a traced process is about to get a signal, when its thread group is stopped,
and once when it is attached; the tracer resumes it with the signal it is to get.  For the container
not to notice, this has to be the signal of a signal-delivery stop, and none otherwise (`due`).

`waitpid` says only which process stopped, and for which signal.  The collector asks
`PTRACE_GETSIGINFO` whether it is a group stop, but looks for the wrong error, so that it takes none
for one.  The attach stop of a child it knows by its being the first `SIGSTOP` of a process it has not
heard of — but if the event of the parent is reported first, it has heard of it, and the child is sent
a `SIGSTOP`.  And the kernel reports a signal by its number, for which the library may have no name:
then `waitpid` fails, and the run with it, and a process that has stopped for a real-time signal is not
resumed at all.  `transparent_iff` says when a run resumes everything as it should.
-/

set_option autoImplicit false

namespace CrunRs.Seccomp

open Lifecycle

/-! ## What a stop is -/

inductive StopKind
  | attach
  | group
  | delivery
  deriving DecidableEq, Repr

/-- `PTRACE_GETSIGINFO` in a stop, as `ptrace(2)` has it. -/
def StopKind.siginfo : StopKind → Except Errno Unit
  | .group => .error (.other "EINVAL")
  | .attach | .delivery => .ok ()

/-- `is_group_stop`. -/
def isGroupStop : Except Errno Unit → Bool
  | .error .esrch => true
  | _ => false

/-- What the kernel answers to `waitpid`; a signal is a number. -/
inductive KernelWait
  | exited (pid : Int) (code : Int)
  | signaled (pid : Int) (signo : Signo) (coreDumped : Bool)
  | stopped (pid : Int) (signo : Signo)
  | ptraceEvent (pid : Int) (signo : Signo) (event : Int)
  | ptraceSyscall (pid : Int)
  | continued (pid : Int)
  | stillAlive
  | echild
  | eintr
  | error (name : String)

namespace KernelWait

/-- A status with a signal in it, if the signal has a name. -/
def decodeSignal (signo : Signo) (status : Signal → WaitStatus) : Wait :=
  match signalOf signo with
  | some signal => .status (status signal)
  | none => .error "EINVAL"

/-- `WaitStatus::from_raw`. -/
def decoded : KernelWait → Wait
  | exited pid code => .status (.exited pid code)
  | signaled pid signo core => decodeSignal signo (.signaled pid · core)
  | stopped pid signo => decodeSignal signo (.stopped pid)
  | ptraceEvent pid signo event => decodeSignal signo (.ptraceEvent pid · event)
  | ptraceSyscall pid => .status (.ptraceSyscall pid)
  | continued pid => .status (.continued pid)
  | stillAlive => .status .stillAlive
  | echild => .echild
  | eintr => .eintr
  | error name => .error name

variable {wait : KernelWait} {pid event : Int} {signo : Signo} {signal : Signal}

theorem decodeSignal_eq_status_iff {status : Signal → WaitStatus} {status' : WaitStatus} :
    decodeSignal signo status = .status status' ↔ ∃ signal, signo = signal.signo ∧
      status signal = status' := by
  rw [decodeSignal]
  cases hsignal : signalOf signo with
  | some signal =>
    rw [signalOf_eq_some_iff] at hsignal
    subst hsignal
    simp only [Wait.status.injEq]
    constructor
    · exact fun h ↦ ⟨signal, rfl, h⟩
    · rintro ⟨signal', hsame, rfl⟩
      rw [Signal.signo_injective hsame]
  | none =>
    simp only [reduceCtorEq, false_iff]
    rintro ⟨signal, rfl, -⟩
    rw [signalOf_eq_some_iff.mpr rfl] at hsignal
    cases hsignal

theorem decodeSignal_eq_error (h : 31 < signo.number) (status : Signal → WaitStatus) :
    decodeSignal signo status = .error "EINVAL" := by
  rw [decodeSignal, signalOf_eq_none_iff.mpr h]

/-- A stop is seen as one exactly if its signal has a name. -/
theorem decoded_eq_stopped_iff :
    wait.decoded = .status (.stopped pid signal) ↔ wait = .stopped pid signal.signo := by
  cases wait with
  | stopped pid' signo =>
    rw [decoded, decodeSignal_eq_status_iff]
    constructor
    · rintro ⟨signal', rfl, hstatus⟩
      obtain ⟨rfl, rfl⟩ := WaitStatus.stopped.inj hstatus
      rfl
    · intro h
      obtain ⟨rfl, rfl⟩ := KernelWait.stopped.inj h
      exact ⟨signal, rfl, rfl⟩
  | signaled | ptraceEvent => simp [decoded, decodeSignal_eq_status_iff]
  | exited | ptraceSyscall | continued | stillAlive | echild | eintr | error => simp [decoded]

theorem decoded_eq_ptraceEvent_iff :
    wait.decoded = .status (.ptraceEvent pid signal event) ↔
      wait = .ptraceEvent pid signal.signo event := by
  cases wait with
  | ptraceEvent pid' signo event' =>
    rw [decoded, decodeSignal_eq_status_iff]
    constructor
    · rintro ⟨signal', rfl, hstatus⟩
      obtain ⟨rfl, rfl, rfl⟩ := WaitStatus.ptraceEvent.inj hstatus
      rfl
    · intro h
      obtain ⟨rfl, rfl, rfl⟩ := KernelWait.ptraceEvent.inj h
      exact ⟨signal, rfl, rfl⟩
  | signaled | stopped => simp [decoded, decodeSignal_eq_status_iff]
  | exited | ptraceSyscall | continued | stillAlive | echild | eintr | error => simp [decoded]

end KernelWait

/-- An observation, with what the kernel has reported, and what the stop really is if it is one for a
signal. -/
structure TracedObservation extends Observation where
  reported : KernelWait
  kind : StopKind := .delivery
  wait := reported.decoded
  wait_eq : wait = reported.decoded := by rfl
  isGroupStop_eq : isGroupStop = CrunRs.Seccomp.isGroupStop kind.siginfo := by rfl

theorem StopKind.isGroupStop_siginfo (kind : StopKind) : Seccomp.isGroupStop kind.siginfo = false := by
  cases kind <;> rfl

namespace TracedObservation

/-- A process of the container has stopped for a signal. -/
def StopOf (options : CollectorOptions) (o : TracedObservation) (pid : Int) (signal : Signal) :
    Prop :=
  o.wait = .status (.stopped pid signal) ∧ pid ∉ options.excludePids

/-- How a stop of a process of the container is to be resumed. -/
def due (options : CollectorOptions) (o : TracedObservation) : Option (Int × Option Signo) :=
  match o.reported with
  | .ptraceEvent pid _ _ => if pid ∈ options.excludePids then none else some (pid, none)
  | .stopped pid signo =>
    if pid ∈ options.excludePids then none
    else some (pid, if o.kind = .delivery then some signo else none)
  | _ => none

/-- A process of the container is stopped, for a signal or by an event. -/
def Pending (options : CollectorOptions) (o : TracedObservation) (signo : Signo) : Prop :=
  ∃ pid, pid ∉ options.excludePids ∧
    (o.reported = .stopped pid signo ∨ ∃ event, o.reported = .ptraceEvent pid signo event)

/-- A process has ended. -/
def Ends (o : TracedObservation) (pid : Int) : Prop := ∃ status, EndOf pid status o.toObservation

/-- The observation tells the collector of a process: its own `SIGSTOP`, the event of the process that
made it, or, for the container's first process, its first stop. -/
def Introduces (options : CollectorOptions) (before : List TracedObservation)
    (o : TracedObservation) (pid : Int) : Prop :=
  o.StopOf options pid .stop ∨
    (pid = options.rootPid ∧ (∃ signal, o.StopOf options pid signal) ∧
      ∀ o' ∈ before, ∀ signal, ¬ o'.StopOf options pid signal) ∨
    ∃ parent signal event, o.wait = .status (.ptraceEvent parent signal event) ∧
      parent ∉ options.excludePids ∧ event ∈ newChildEvents ∧ o.eventMessage = .ok pid

/-- The collector has been told of a process, and not of its end since. -/
def Known (options : CollectorOptions) (before : List TracedObservation) (pid : Int) : Prop :=
  ∃ earlier o later, before = earlier ++ o :: later ∧ o.Introduces options earlier pid ∧
    ∀ o' ∈ later, ¬ o'.Ends pid

/-- The stops that look like one that attaches a process. -/
def LooksAttached (options : CollectorOptions) (before : List TracedObservation) (pid : Int)
    (signal : Signal) : Prop :=
  pid = options.rootPid ∧ (∀ o ∈ before, ∀ signal', ¬ o.StopOf options pid signal') ∨
    signal = .stop ∧ ¬ Known options before pid

/-- A stop that the collector resumes as it should: it is for no real-time signal, it is a signal
delivery exactly if it does not look like a stop that attaches a process, and the calls that come before
its resumption do not fail. -/
structure Orderly (options : CollectorOptions) (before : List TracedObservation)
    (o : TracedObservation) : Prop where
  named : ∀ signo, o.Pending options signo → signo.number ≤ 31
  kind : ∀ pid signal, o.StopOf options pid signal →
    (o.kind = .delivery ↔ ¬ LooksAttached options before pid signal)
  setOptions : ∀ signal, o.StopOf options options.rootPid signal →
    (∀ o' ∈ before, ∀ signal', ¬ o'.StopOf options options.rootPid signal') → o.setOptions = .ok ()
  registers : ∀ pid signal, o.wait = .status (.ptraceEvent pid signal ptraceEventSeccomp) →
    pid ∉ options.excludePids → ∀ name, o.registers ≠ .error (.other name)
  eventMessage : ∀ pid signal event, o.wait = .status (.ptraceEvent pid signal event) →
    pid ∉ options.excludePids → event ∈ newChildEvents → ∀ name, o.eventMessage ≠ .error (.other name)

end TracedObservation

open TracedObservation

/-! ## A run -/

/-- The loop of `run`, with what it has looked at: the collector it ends with, or the one it had before
the round that failed. -/
def supervise (t : Target) (options : CollectorOptions) :
    Collector → List TracedObservation → Collector × List TracedObservation
  | c, [] => (c, [])
  | c, o :: rest => match c.round t options o.toObservation with
    | .next c' => ((supervise t options c' rest).1, o :: (supervise t options c' rest).2)
    | .done c' => (c', [o])
    | .failed _ => (c, [o])

/-- It is the loop of `run`. -/
theorem supervise_of_collect {t : Target} {options : CollectorOptions} {c c' : Collector}
    {observations : List TracedObservation} {rest : List Observation}
    (h : collect t options c (observations.map (·.toObservation)) = .ok (c', rest)) :
    (supervise t options c observations).1 = c' ∧
      observations.map (·.toObservation) =
        (supervise t options c observations).2.map (·.toObservation) ++ rest := by
  induction observations generalizing c with
  | nil =>
    obtain ⟨rfl, rfl⟩ := Prod.mk.inj (Except.ok.inj h)
    exact ⟨rfl, rfl⟩
  | cons o observations ih =>
    rw [List.map_cons, collect] at h
    rw [supervise]
    cases hround : c.round t options o.toObservation with
    | next c₁ =>
      rw [hround] at h
      obtain ⟨hc, hseen⟩ := ih h
      exact ⟨hc, by rw [List.map_cons, List.map_cons, List.cons_append, ← hseen]⟩
    | done c₁ =>
      rw [hround] at h
      obtain ⟨rfl, rfl⟩ := Prod.mk.inj (Except.ok.inj h)
      exact ⟨rfl, rfl⟩
    | failed e =>
      rw [hround] at h
      cases h

/-! ## What the collector knows -/

/-- What the collector remembers of the observations. -/
structure Tracks (options : CollectorOptions) (before : List TracedObservation) (c : Collector) :
    Prop where
  tracees : ∀ pid, pid ∉ options.excludePids → (pid ∈ c.tracees ↔ Known options before pid)
  optionsSet : c.optionsSet = true ↔
    ∃ o ∈ before, ∃ signal, o.StopOf options options.rootPid signal

section

variable {t : Target} {options : CollectorOptions} {c c' : Collector}
variable {before : List TracedObservation} {o : TracedObservation}

theorem known_concat {pid : Int} :
    Known options (before ++ [o]) pid ↔
      o.Introduces options before pid ∨ Known options before pid ∧ ¬ o.Ends pid := by
  constructor
  · rintro ⟨earlier, o', later, heq, hintro, hlater⟩
    rcases List.eq_nil_or_concat later with rfl | ⟨later, last, rfl⟩
    · obtain ⟨rfl, hlast⟩ := List.append_inj' heq rfl
      obtain rfl := (List.cons.inj hlast).1
      exact Or.inl hintro
    · rw [List.concat_eq_append] at heq hlater
      rw [← List.cons_append, ← List.append_assoc] at heq
      obtain ⟨rfl, hlast⟩ := List.append_inj' heq rfl
      obtain rfl := (List.cons.inj hlast).1
      exact Or.inr ⟨⟨earlier, o', later, rfl, hintro,
        fun o'' h ↦ hlater o'' (List.mem_append_left _ h)⟩, hlater _ (by simp)⟩
  · rintro (hintro | ⟨⟨earlier, o', later, rfl, hintro, hlater⟩, hends⟩)
    · exact ⟨before, o, [], rfl, hintro, fun o' h ↦ absurd h List.not_mem_nil⟩
    · refine ⟨earlier, o', later ++ [o], by simp, hintro, fun o'' h ↦ ?_⟩
      rcases List.mem_append.mp h with h | h
      · exact hlater o'' h
      · exact List.mem_singleton.mp h ▸ hends

theorem reported_of_stop {pid : Int} {signal : Signal}
    (hwait : o.wait = .status (.stopped pid signal)) : o.reported = .stopped pid signal.signo :=
  KernelWait.decoded_eq_stopped_iff.mp (o.wait_eq ▸ hwait)

theorem reported_of_event {pid event : Int} {signal : Signal}
    (hwait : o.wait = .status (.ptraceEvent pid signal event)) :
    o.reported = .ptraceEvent pid signal.signo event :=
  KernelWait.decoded_eq_ptraceEvent_iff.mp (o.wait_eq ▸ hwait)

/-- An observation that is no stop of a process of the container. -/
def Quiet (options : CollectorOptions) (o : TracedObservation) : Prop :=
  ∀ signo, ¬ o.Pending options signo

theorem Quiet.not_stop (h : Quiet options o) (pid : Int) (signal : Signal) :
    ¬ o.StopOf options pid signal := fun hstop ↦
  h signal.signo ⟨pid, hstop.2, Or.inl (reported_of_stop hstop.1)⟩

theorem Quiet.excluded (h : Quiet options o) {pid event : Int} {signal : Signal}
    (hwait : o.wait = .status (.ptraceEvent pid signal event)) : pid ∈ options.excludePids := by
  by_contra hpid
  exact h signal.signo ⟨pid, hpid, Or.inr ⟨event, reported_of_event hwait⟩⟩

theorem Quiet.due_eq (h : Quiet options o) : o.due options = none := by
  rw [due]
  split
  · rename_i pid signo event hreported
    refine if_pos (not_not.mp fun hpid ↦ h signo ⟨pid, hpid, Or.inr ⟨event, hreported⟩⟩)
  · rename_i pid signo hreported
    refine if_pos (not_not.mp fun hpid ↦ h signo ⟨pid, hpid, Or.inl hreported⟩)
  · rfl

theorem Quiet.orderly (h : Quiet options o) : Orderly options before o where
  named := fun signo hpending ↦ absurd hpending (h signo)
  kind := fun pid signal hstop ↦ absurd hstop (h.not_stop pid signal)
  setOptions := fun signal hstop ↦ absurd hstop (h.not_stop _ signal)
  registers := fun _ _ hwait hpid ↦ absurd (h.excluded hwait) hpid
  eventMessage := fun _ _ _ hwait hpid ↦ absurd (h.excluded hwait) hpid

theorem Quiet.not_introduces (h : Quiet options o) (pid : Int) :
    ¬ o.Introduces options before pid := by
  rintro (hstop | ⟨_, ⟨signal, hstop⟩, _⟩ | ⟨parent, signal, event, hwait, hparent, _⟩)
  · exact h.not_stop _ _ hstop
  · exact h.not_stop _ _ hstop
  · exact hparent (h.excluded hwait)

theorem ends_iff {status : WaitStatus} (hwait : o.wait = .status status) {pid : Int} :
    o.Ends pid ↔ statusPid status = some pid ∧ isTerminal status := by
  constructor
  · rintro ⟨status', hwait', hpid, hterminal⟩
    obtain rfl := Wait.status.inj (hwait.symm.trans hwait')
    exact ⟨hpid, hterminal⟩
  · rintro ⟨hpid, hterminal⟩
    exact ⟨status, hwait, hpid, hterminal⟩

theorem not_ends_of_wait_ne (hwait : ∀ status, o.wait ≠ .status status) (pid : Int) :
    ¬ o.Ends pid := by
  rintro ⟨status, hstatus, _⟩
  exact hwait status hstatus

/-- A quiet round resumes nothing, and forgets a process that has ended. -/
theorem Quiet.round (h : Quiet options o)
    (hround : (c.round t options o.toObservation).collector = some c') :
    c'.resumed = c.resumed ∧ c'.optionsSet = c.optionsSet ∧
      ∀ pid, pid ∉ options.excludePids → (pid ∈ c'.tracees ↔ pid ∈ c.tracees ∧ ¬ o.Ends pid) := by
  have hkeep : (∀ pid, pid ∉ options.excludePids → ¬ o.Ends pid) →
      c'.resumed = c.resumed ∧ c'.optionsSet = c.optionsSet ∧ c'.tracees = c.tracees →
      c'.resumed = c.resumed ∧ c'.optionsSet = c.optionsSet ∧
        ∀ pid, pid ∉ options.excludePids → (pid ∈ c'.tracees ↔ pid ∈ c.tracees ∧ ¬ o.Ends pid) := by
    rintro hends ⟨hresumed, hset, htracees⟩
    refine ⟨hresumed, hset, fun pid hpid ↦ ?_⟩
    rw [htracees]
    exact ⟨fun hmem ↦ ⟨hmem, hends pid hpid⟩, fun hmem ↦ hmem.1⟩
  rcases Collector.round_cases hround with ⟨hwait, -, rfl⟩ |
    ⟨hwait | ⟨status, hwait, hpid⟩, -, rfl⟩ | ⟨status, pid, others, hwait, hpid, hexcluded, -, rfl⟩ |
    ⟨status, pid, hwait, hpid, hincluded, heq⟩
  · exact hkeep (fun pid _ ↦ not_ends_of_wait_ne (by simp [hwait]) pid) ⟨rfl, rfl, rfl⟩
  · exact hkeep (fun pid _ ↦ not_ends_of_wait_ne (by simp [hwait]) pid) ⟨rfl, rfl, rfl⟩
  · exact hkeep (fun pid _ ↦ by simp [ends_iff hwait, hpid]) ⟨rfl, rfl, rfl⟩
  · refine hkeep (fun pid' hpid' hend ↦ hpid' ?_) ⟨rfl, rfl, rfl⟩
    rw [ends_iff hwait, hpid, Option.some.injEq] at hend
    rwa [← hend.1]
  · rw [heq] at hround
    have hends : ∀ pid', o.Ends pid' ↔ pid = pid' ∧ isTerminal status := fun pid' ↦ by
      rw [ends_iff hwait, hpid, Option.some.injEq]
    by_cases hterminal : isTerminal status
    · obtain ⟨⟨rootStatus, rootExited, rfl⟩, -, -⟩ := Collector.dispatch_end hterminal hround
      refine ⟨rfl, rfl, fun pid' _ ↦ ?_⟩
      rw [Std.ExtTreeSet.mem_erase, hends, and_comm]
      simp [hterminal, Std.LawfulEqCmp.compare_eq_iff_eq]
    · refine hkeep (fun pid' _ hend ↦ hterminal ((hends pid').mp hend).2) ?_
      obtain ⟨-, ⟨signal, event, -, rfl, -⟩ | ⟨signal, rfl, -⟩ | ⟨-, -, rfl⟩⟩ :=
        Collector.dispatch_cases hpid (Bool.eq_false_iff.mpr hterminal) hround
      · exact absurd (h.excluded hwait) hincluded
      · exact absurd ⟨hwait, hincluded⟩ (h.not_stop _ signal)
      · exact ⟨rfl, rfl, rfl⟩

/-- An event that is not handled is one of which the collector cannot read what it needs. -/
theorem handleEvent_eq_error_iff {event : Int} {o : Observation} :
    (∃ context, c.handleEvent t event o = .error context) ↔
      event = ptraceEventSeccomp ∧ (∃ name, o.registers = .error (.other name)) ∨
        event ∈ newChildEvents ∧ ∃ name, o.eventMessage = .error (.other name) := by
  rw [Collector.handleEvent]
  by_cases hevent : event = ptraceEventSeccomp
  · subst hevent
    have hchild : ptraceEventSeccomp ∉ newChildEvents := by decide
    rw [if_pos rfl]
    split <;> simp [*]
  · rw [if_neg hevent]
    by_cases hchild : event ∈ newChildEvents
    · rw [if_pos hchild]
      split <;> simp [*]
    · simp [hevent, hchild]

theorem round_of_included {pid : Int} {status : WaitStatus} (hwait : o.wait = .status status)
    (hstatus : statusPid status = some pid) (hpid : pid ∉ options.excludePids) :
    c.round t options o.toObservation = c.dispatch t options o.toObservation pid status := by
  simp only [Collector.round, hwait, hstatus, if_neg hpid]

/-- The signal of a status has a name. -/
theorem named_of_status {status : WaitStatus} (hwait : o.wait = .status status) {signo : Signo}
    (hpending : o.Pending options signo) : signo.number ≤ 31 := by
  by_contra hlarge
  obtain ⟨pid, _, hreported | ⟨event, hreported⟩⟩ := hpending
  · rw [o.wait_eq, hreported, KernelWait.decoded,
      KernelWait.decodeSignal_eq_error (not_le.mp hlarge)] at hwait
    cases hwait
  · rw [o.wait_eq, hreported, KernelWait.decoded,
      KernelWait.decodeSignal_eq_error (not_le.mp hlarge)] at hwait
    cases hwait

theorem orderly_event_iff {pid event : Int} {signal : Signal}
    (hwait : o.wait = .status (.ptraceEvent pid signal event)) (hpid : pid ∉ options.excludePids) :
    Orderly options before o ↔ ¬ (event = ptraceEventSeccomp ∧
        (∃ name, o.registers = .error (.other name)) ∨
      event ∈ newChildEvents ∧ ∃ name, o.eventMessage = .error (.other name)) := by
  have hstop : ∀ pid' signal', ¬ o.StopOf options pid' signal' := by
    rintro pid' signal' ⟨hwait', _⟩
    rw [hwait] at hwait'
    cases hwait'
  constructor
  · rintro h (⟨rfl, name, hname⟩ | ⟨hchild, name, hname⟩)
    · exact h.registers pid signal hwait hpid name hname
    · exact h.eventMessage pid signal event hwait hpid hchild name hname
  · intro h
    refine ⟨fun _ ↦ named_of_status hwait, fun _ _ hs ↦ absurd hs (hstop _ _),
      fun _ hs ↦ absurd hs (hstop _ _), ?_, ?_⟩
    · intro pid' signal' hwait' _ name hname
      obtain ⟨_, _, hevent⟩ := WaitStatus.ptraceEvent.inj (Wait.status.inj (hwait.symm.trans hwait'))
      exact h (Or.inl ⟨hevent, name, hname⟩)
    · intro pid' signal' event' hwait' _ hchild name hname
      obtain ⟨_, _, rfl⟩ := WaitStatus.ptraceEvent.inj (Wait.status.inj (hwait.symm.trans hwait'))
      exact h (Or.inr ⟨hchild, name, hname⟩)

theorem Tracks.optionsSet_iff (h : Tracks options before c) :
    c.optionsSet = false ↔ ∀ o ∈ before, ∀ signal, ¬ o.StopOf options options.rootPid signal := by
  rw [← Bool.not_eq_true, h.optionsSet]
  simp only [not_exists, not_and]

theorem looksAttached_iff (h : Tracks options before c) {pid : Int} {signal : Signal}
    (hpid : pid ∉ options.excludePids) :
    LooksAttached options before pid signal ↔
      pid = options.rootPid ∧ c.optionsSet = false ∨ signal = .stop ∧ pid ∉ c.tracees := by
  rw [LooksAttached, h.tracees pid hpid, h.optionsSet_iff]
  constructor
  · rintro (⟨rfl, hfirst⟩ | hnew)
    · exact Or.inl ⟨rfl, hfirst⟩
    · exact Or.inr hnew
  · rintro (⟨rfl, hfirst⟩ | hnew)
    · exact Or.inl ⟨rfl, hfirst⟩
    · exact Or.inr hnew

theorem orderly_stop_iff (h : Tracks options before c) {pid : Int} {signal : Signal}
    (hstop : o.StopOf options pid signal) :
    Orderly options before o ↔
      (o.kind = .delivery ↔ ¬ LooksAttached options before pid signal) ∧
        (pid = options.rootPid → c.optionsSet = false → o.setOptions = .ok ()) := by
  have hsame : ∀ {pid' : Int} {signal' : Signal}, o.StopOf options pid' signal' →
      pid = pid' ∧ signal = signal' := fun hstop' ↦
    WaitStatus.stopped.inj (Wait.status.inj (hstop.1.symm.trans hstop'.1))
  have hevent : ∀ {pid' event : Int} {signal' : Signal},
      o.wait ≠ .status (.ptraceEvent pid' signal' event) := by
    intro pid' event signal' hwait
    rw [hstop.1] at hwait
    cases hwait
  rw [h.optionsSet_iff]
  constructor
  · intro horderly
    refine ⟨horderly.kind pid signal hstop, ?_⟩
    rintro rfl hfirst
    exact horderly.setOptions signal hstop hfirst
  · rintro ⟨hkind, hset⟩
    refine ⟨fun _ ↦ named_of_status hstop.1, ?_, ?_, fun _ _ hwait ↦ absurd hwait hevent,
      fun _ _ _ hwait ↦ absurd hwait hevent⟩
    · intro pid' signal' hstop'
      obtain ⟨rfl, rfl⟩ := hsame hstop'
      exact hkind
    · intro signal' hstop' hfirst
      exact hset (hsame hstop').1 hfirst

/-- **The round of an event.** -/
theorem Tracks.round_event (h : Tracks options before c) {pid event : Int} {signal : Signal}
    (hwait : o.wait = .status (.ptraceEvent pid signal event)) (hpid : pid ∉ options.excludePids)
    (hround : (c.round t options o.toObservation).collector = some c') :
    Tracks options (before ++ [o]) c' ∧ c'.resumed = c.resumed ++ [(pid, none)] ∧
      Orderly options before o := by
  rw [round_of_included hwait rfl hpid] at hround
  have hstop : ∀ pid' signal', ¬ o.StopOf options pid' signal' := by
    rintro pid' signal' ⟨hwait', _⟩
    rw [hwait] at hwait'
    cases hwait'
  obtain ⟨-, ⟨_, _, c₁, heq, hevent, rfl⟩ | ⟨_, heq, -⟩ | ⟨hnot, -, -⟩⟩ :=
    Collector.dispatch_cases rfl rfl hround
  · obtain ⟨-, rfl, rfl⟩ := WaitStatus.ptraceEvent.inj heq
    have htracees := Collector.handleEvent_tracees hevent
    have hhandled := hevent
    obtain ⟨tracees, capture, rfl⟩ := Collector.handleEvent_eq hevent
    obtain ⟨capture', hlimit, -⟩ := Collector.checkLimit_eq options { c with tracees, capture }
    rw [Collector.resume, hlimit]
    refine ⟨⟨fun pid' hpid' ↦ ?_, ?_⟩, rfl, ?_⟩
    · have hintro : o.Introduces options before pid' ↔
          event ∈ newChildEvents ∧ o.eventMessage = .ok pid' := by
        constructor
        · rintro (hs | ⟨_, ⟨_, hs⟩, _⟩ | ⟨parent, signal', event', hwait', _, hchild, hmessage⟩)
          · exact absurd hs (hstop _ _)
          · exact absurd hs (hstop _ _)
          · obtain ⟨_, _, rfl⟩ :=
              WaitStatus.ptraceEvent.inj (Wait.status.inj (hwait.symm.trans hwait'))
            exact ⟨hchild, hmessage⟩
        · rintro ⟨hchild, hmessage⟩
          exact Or.inr (Or.inr ⟨pid, signal, event, hwait, hpid, hchild, hmessage⟩)
      have hends : ¬ o.Ends pid' := by
        rw [ends_iff hwait]
        simp [isTerminal]
      rw [known_concat, hintro, ← h.tracees pid' hpid', and_iff_left hends]
      exact htracees pid'
    · rw [h.optionsSet]
      simp [hstop]
    · rw [orderly_event_iff hwait hpid, ← handleEvent_eq_error_iff]
      rintro ⟨context, herror⟩
      rw [hhandled] at herror
      cases herror
  · cases heq
  · exact absurd rfl (hnot signal event)

theorem introduces_stop_iff (h : Tracks options before c) {pid pid' : Int} {signal : Signal}
    (hstop : o.StopOf options pid signal) :
    o.Introduces options before pid' ↔
      pid' = pid ∧ (signal = .stop ∨ pid = options.rootPid ∧ c.optionsSet = false) := by
  have hsame : ∀ {pid' : Int} {signal' : Signal}, o.StopOf options pid' signal' →
      pid = pid' ∧ signal = signal' := fun hstop' ↦
    WaitStatus.stopped.inj (Wait.status.inj (hstop.1.symm.trans hstop'.1))
  rw [h.optionsSet_iff]
  constructor
  · rintro (hs | ⟨rfl, ⟨signal', hs⟩, hfirst⟩ | ⟨_, _, _, hwait, _⟩)
    · obtain ⟨rfl, rfl⟩ := hsame hs
      exact ⟨rfl, Or.inl rfl⟩
    · obtain ⟨rfl, rfl⟩ := hsame hs
      exact ⟨rfl, Or.inr ⟨rfl, hfirst⟩⟩
    · rw [hstop.1] at hwait
      cases hwait
  · rintro ⟨rfl, rfl | ⟨rfl, hfirst⟩⟩
    · exact Or.inl hstop
    · exact Or.inr (Or.inl ⟨rfl, ⟨signal, hstop⟩, hfirst⟩)

/-- What the collector remembers after a stop: the process, if it looked as if it was attached. -/
theorem Tracks.stop (h : Tracks options before c) {pid : Int} {signal : Signal}
    (hstop : o.StopOf options pid signal)
    (htracees : ∀ pid', pid' ∈ c'.tracees ↔
      pid' ∈ c.tracees ∨ pid' = pid ∧ LooksAttached options before pid signal)
    (hset : c'.optionsSet = true ↔ c.optionsSet = true ∨ pid = options.rootPid) :
    Tracks options (before ++ [o]) c' := by
  have hsame : ∀ {pid' : Int} {signal' : Signal}, o.StopOf options pid' signal' →
      pid = pid' ∧ signal = signal' := fun hstop' ↦
    WaitStatus.stopped.inj (Wait.status.inj (hstop.1.symm.trans hstop'.1))
  refine ⟨fun pid' hpid' ↦ ?_, ?_⟩
  · have hends : ¬ o.Ends pid' := by
      rw [ends_iff hstop.1]
      simp [isTerminal]
    rw [known_concat, introduces_stop_iff h hstop, and_iff_left hends, ← h.tracees pid' hpid',
      htracees, looksAttached_iff h hstop.2]
    constructor
    · rintro (hmem | ⟨rfl, hfirst | ⟨hsignal, _⟩⟩)
      · exact Or.inr hmem
      · exact Or.inl ⟨rfl, Or.inr hfirst⟩
      · exact Or.inl ⟨rfl, Or.inl hsignal⟩
    · rintro (⟨rfl, hsignal | hfirst⟩ | hmem)
      · by_cases hmem : pid' ∈ c.tracees
        · exact Or.inl hmem
        · exact Or.inr ⟨rfl, Or.inr ⟨hsignal, hmem⟩⟩
      · exact Or.inr ⟨rfl, Or.inl hfirst⟩
      · exact Or.inl hmem
  · rw [hset, h.optionsSet]
    constructor
    · rintro (⟨o', hmem, hroot⟩ | rfl)
      · exact ⟨o', List.mem_append_left _ hmem, hroot⟩
      · exact ⟨o, by simp, signal, hstop⟩
    · rintro ⟨o', hmem, signal', hroot⟩
      rcases List.mem_append.mp hmem with hmem | hmem
      · exact Or.inl ⟨o', hmem, signal', hroot⟩
      · obtain rfl := List.mem_singleton.mp hmem
        exact Or.inr (hsame hroot).1

/-- **The round of a stop for a signal.** -/
theorem Tracks.round_stop (h : Tracks options before c) {pid : Int} {signal : Signal}
    (hstop : o.StopOf options pid signal)
    (hround : (c.round t options o.toObservation).collector = some c') :
    Tracks options (before ++ [o]) c' ∧ ∃ given : Option Signal,
      c'.resumed = c.resumed ++ [(pid, given)] ∧
        (given = (if o.kind = .delivery then some signal else none) ↔ Orderly options before o) := by
  rw [round_of_included hstop.1 rfl hstop.2] at hround
  have hattached := @looksAttached_iff _ _ _ h pid signal hstop.2
  have horderly := orderly_stop_iff h hstop
  -- what holds once the root is traced
  have hlater : ¬ (pid = options.rootPid ∧ c.optionsSet = false) →
      (c.optionsSet = true ↔ c.optionsSet = true ∨ pid = options.rootPid) ∧
        (pid = options.rootPid → c.optionsSet = false → o.setOptions = .ok ()) := by
    intro hfirst
    refine ⟨⟨Or.inl, fun hor ↦ hor.elim (fun h ↦ h) fun hroot ↦ ?_⟩,
      fun hroot hfalse ↦ absurd ⟨hroot, hfalse⟩ hfirst⟩
    by_contra hfalse
    exact hfirst ⟨hroot, Bool.eq_false_iff.mpr hfalse⟩
  obtain ⟨-, ⟨_, _, _, heq, -⟩ | ⟨_, heq, hcases⟩ | ⟨-, hnot, -⟩⟩ :=
    Collector.dispatch_cases rfl rfl hround
  · cases heq
  · obtain ⟨-, rfl⟩ := WaitStatus.stopped.inj heq
    rcases hcases with ⟨hfirst, hset, rfl⟩ | ⟨hfirst, hnew, rfl⟩ | ⟨hfirst, hknown, rfl⟩
    · have hlooks := hattached.mpr (Or.inl hfirst)
      refine ⟨h.stop hstop (fun pid' ↦ ?_) (by simp [Collector.resume, hfirst.1]), none, rfl, ?_⟩
      · rw [and_iff_left hlooks, or_comm]
        exact Collector.mem_insert_tracees
      · rw [horderly, hset]
        cases o.kind <;> simp [hlooks]
    · have hlooks := hattached.mpr (Or.inr hnew)
      obtain ⟨hset, hcall⟩ := hlater hfirst
      obtain ⟨tracees, capture, heq, -, hmem⟩ := Collector.addTracee_eq c pid
      rw [Collector.resume, heq]
      refine ⟨h.stop hstop (fun pid' ↦ ?_) hset, none, rfl, ?_⟩
      · rw [and_iff_left hlooks, or_comm]
        exact hmem pid'
      · rw [horderly, and_iff_left hcall]
        cases o.kind <;> simp [hlooks]
    · have hlooks : ¬ LooksAttached options before pid signal :=
        fun hlooks ↦ (hattached.mp hlooks).elim hfirst hknown
      obtain ⟨hset, hcall⟩ := hlater hfirst
      have hgroup : ¬ o.isGroupStop = true := by
        rw [o.isGroupStop_eq, o.kind.isGroupStop_siginfo]
        exact Bool.false_ne_true
      rw [if_neg hgroup]
      refine ⟨h.stop hstop (fun pid' ↦ ?_) hset, some signal, rfl, ?_⟩
      · simp [Collector.resume, hlooks]
      · rw [horderly, and_iff_left hcall]
        cases o.kind <;> simp [hlooks]
  · exact absurd rfl (hnot signal)

/-! ## Every round -/

/-- A real-time signal, nothing, an event or a signal with a name. -/
theorem observation_cases (options : CollectorOptions) (o : TracedObservation) :
    (∃ signo, o.Pending options signo ∧ 31 < signo.number) ∨ Quiet options o ∨
      (∃ pid signal event, o.wait = .status (.ptraceEvent pid signal event) ∧
        pid ∉ options.excludePids) ∨ ∃ pid signal, o.StopOf options pid signal := by
  by_cases hquiet : Quiet options o
  · exact Or.inr (Or.inl hquiet)
  · simp only [Quiet, not_forall, not_not] at hquiet
    obtain ⟨signo, hpending⟩ := hquiet
    cases hsignal : signalOf signo with
    | none => exact Or.inl ⟨signo, hpending, signalOf_eq_none_iff.mp hsignal⟩
    | some signal =>
      rw [signalOf_eq_some_iff] at hsignal
      subst hsignal
      obtain ⟨pid, hpid, hreported | ⟨event, hreported⟩⟩ := hpending
      · refine Or.inr (Or.inr (Or.inr ⟨pid, signal, ?_, hpid⟩))
        rw [o.wait_eq]
        exact KernelWait.decoded_eq_stopped_iff.mpr hreported
      · refine Or.inr (Or.inr (Or.inl ⟨pid, signal, event, ?_, hpid⟩))
        rw [o.wait_eq]
        exact KernelWait.decoded_eq_ptraceEvent_iff.mpr hreported

/-- How the tracer has resumed a process, by the number of the signal. -/
def numbered (resumed : Int × Option Signal) : Int × Option Signo :=
  (resumed.1, resumed.2.map Signal.signo)

theorem due_event {pid event : Int} {signal : Signal}
    (hwait : o.wait = .status (.ptraceEvent pid signal event)) (hpid : pid ∉ options.excludePids) :
    o.due options = some (numbered (pid, none)) := by
  rw [due, reported_of_event hwait]
  exact if_neg hpid

theorem due_stop {pid : Int} {signal : Signal} (hstop : o.StopOf options pid signal) :
    o.due options = some (numbered (pid, if o.kind = .delivery then some signal else none)) := by
  rw [due, reported_of_stop hstop.1]
  refine (if_neg hstop.2).trans ?_
  cases o.kind <;> rfl

/-- The wait for a real-time signal fails. -/
theorem wait_of_realTime {signo : Signo} (hpending : o.Pending options signo)
    (hlarge : 31 < signo.number) : o.wait = .error "EINVAL" := by
  obtain ⟨pid, _, hreported | ⟨event, hreported⟩⟩ := hpending
  · rw [o.wait_eq, hreported, KernelWait.decoded, KernelWait.decodeSignal_eq_error hlarge]
  · rw [o.wait_eq, hreported, KernelWait.decoded, KernelWait.decodeSignal_eq_error hlarge]

theorem due_isSome_of_pending {signo : Signo} (hpending : o.Pending options signo) :
    (o.due options).isSome := by
  obtain ⟨pid, hpid, hreported | ⟨event, hreported⟩⟩ := hpending
  · simp [due, hreported, hpid]
  · simp [due, hreported, hpid]

theorem numbered_injective : Function.Injective numbered := by
  rintro ⟨pid, signal⟩ ⟨pid', signal'⟩ h
  obtain ⟨hpid, hsignal⟩ := Prod.mk.inj h
  exact Prod.ext hpid (Option.map_injective Signal.signo_injective hsignal)

/-- A round that does not fail resumes one process or none, and the one it should, as it should,
exactly if the observation is orderly. -/
theorem Tracks.round (h : Tracks options before c)
    (hround : (c.round t options o.toObservation).collector = some c') :
    Tracks options (before ++ [o]) c' ∧ ∃ given : Option (Int × Option Signal),
      c'.resumed = c.resumed ++ given.toList ∧ given.isSome = (o.due options).isSome ∧
        (given.map numbered = o.due options ↔ Orderly options before o) := by
  rcases observation_cases options o with ⟨signo, hpending, hlarge⟩ | hquiet |
    ⟨pid, signal, event, hwait, hpid⟩ | ⟨pid, signal, hstop⟩
  · rw [Collector.round, wait_of_realTime hpending hlarge] at hround
    cases hround
  · obtain ⟨hresumed, hset, htracees⟩ := hquiet.round hround
    refine ⟨⟨fun pid hpid ↦ ?_, ?_⟩, none, by simp [hresumed], by rw [hquiet.due_eq]; rfl,
      by simp [hquiet.due_eq, hquiet.orderly]⟩
    · rw [htracees pid hpid, known_concat, h.tracees pid hpid,
        or_iff_right (hquiet.not_introduces pid)]
    · rw [hset, h.optionsSet]
      simp [hquiet.not_stop]
  · obtain ⟨htracks, hresumed, horderly⟩ := h.round_event hwait hpid hround
    have hdue := @due_event options o _ _ _ hwait hpid
    exact ⟨htracks, some (pid, none), hresumed, by rw [hdue]; rfl, by simp [hdue, horderly]⟩
  · obtain ⟨htracks, given, hresumed, horderly⟩ := h.round_stop hstop hround
    have hdue := due_stop hstop
    refine ⟨htracks, some (pid, given), hresumed, by rw [hdue]; rfl, ?_⟩
    rw [hdue, ← horderly, Option.map_some, Option.some.injEq, numbered_injective.eq_iff,
      Prod.mk.injEq, eq_self, true_and]

/-- A round that fails resumes nothing, which is wrong exactly if it has a process to resume. -/
theorem Tracks.failed (h : Tracks options before c) {context : String}
    (hround : c.round t options o.toObservation = .failed context) :
    o.due options = none ↔ Orderly options before o := by
  rcases observation_cases options o with ⟨signo, hpending, hlarge⟩ | hquiet |
    ⟨pid, signal, event, hwait, hpid⟩ | ⟨pid, signal, hstop⟩
  · have hdue := due_isSome_of_pending hpending
    constructor
    · intro hnone
      simp [hnone] at hdue
    · intro horderly
      exact absurd (horderly.named signo hpending) (not_le.mpr hlarge)
  · simp [hquiet.due_eq, hquiet.orderly]
  · rw [due_event hwait hpid, orderly_event_iff hwait hpid, ← @handleEvent_eq_error_iff t c]
    rw [round_of_included hwait rfl hpid, Collector.dispatch] at hround
    split at hround
    · cases hround
    · rename_i herror
      simp [herror]
  · rw [due_stop hstop, orderly_stop_iff h hstop]
    rw [round_of_included hstop.1 rfl hstop.2, Collector.dispatch] at hround
    split at hround
    · rename_i hfirst
      rw [Bool.not_eq_true'] at hfirst
      split at hround
      · cases hround
      · rename_i hset
        simp [hfirst, hset]
    · split at hround
      · cases hround
      · split at hround <;> cases hround

end

/-! ## Every run -/

/-- A statement about every element of a list and what is before it. -/
theorem forall_split_cons_iff {α : Type} {p : List α → α → Prop} {a : α} {l : List α} :
    (∀ before b after, a :: l = before ++ b :: after → p before b) ↔
      p [] a ∧ ∀ before b after, l = before ++ b :: after → p (a :: before) b := by
  constructor
  · intro h
    exact ⟨h [] a l rfl, fun before b after heq ↦ h (a :: before) b after (by rw [heq]; rfl)⟩
  · rintro ⟨hhead, htail⟩ (_ | ⟨a', before⟩) b after heq
    · obtain ⟨rfl, -⟩ := List.cons.inj heq
      exact hhead
    · obtain ⟨rfl, hl⟩ := List.cons.inj heq
      exact htail before b after hl

theorem resumed_prefix_supervise {t : Target} {options : CollectorOptions}
    {before : List TracedObservation} {c : Collector} (h : Tracks options before c)
    (observations : List TracedObservation) :
    ∃ given, (supervise t options c observations).1.resumed = c.resumed ++ given := by
  induction observations generalizing before c with
  | nil => exact ⟨[], (List.append_nil _).symm⟩
  | cons o observations ih =>
    rw [supervise]
    split
    · rename_i c₁ hround
      obtain ⟨htracks, given, hresumed, _⟩ := h.round (by rw [hround]; rfl)
      obtain ⟨rest, hrest⟩ := ih htracks
      exact ⟨given.toList ++ rest, by rw [hrest, hresumed, List.append_assoc]⟩
    · rename_i c₁ hround
      obtain ⟨_, given, hresumed, _⟩ := h.round (by rw [hround]; rfl)
      exact ⟨given.toList, hresumed⟩
    · exact ⟨[], (List.append_nil _).symm⟩

theorem supervise_resumed_iff {t : Target} {options : CollectorOptions}
    {before : List TracedObservation} {c : Collector} (h : Tracks options before c)
    (observations : List TracedObservation) :
    (supervise t options c observations).1.resumed.map numbered =
        c.resumed.map numbered ++ (supervise t options c observations).2.filterMap (due options) ↔
      ∀ earlier o later, (supervise t options c observations).2 = earlier ++ o :: later →
        Orderly options (before ++ earlier) o := by
  induction observations generalizing before c with
  | nil => simp [supervise]
  | cons o observations ih =>
    have hone : ∀ {given : Option (Int × Option Signal)},
        (c.resumed ++ given.toList).map numbered =
            c.resumed.map numbered ++ [o].filterMap (due options) ↔
          given.map numbered = o.due options := by
      intro given
      rw [List.map_append, List.append_cancel_left_eq]
      cases given <;> cases hdue : o.due options <;> simp [hdue]
    have hcons : ∀ seen : List TracedObservation,
        (o :: seen).filterMap (due options) =
          (o.due options).toList ++ seen.filterMap (due options) := by
      intro seen
      cases hdue : o.due options <;> simp [hdue]
    rw [supervise]
    split
    · rename_i c₁ hround
      obtain ⟨htracks, given, hresumed, hsome, horderly⟩ := h.round (by rw [hround]; rfl)
      have hlength : given.toList.length = (o.due options).toList.length := by
        cases given <;> cases hdue : o.due options <;> simp [hdue] at hsome ⊢
      dsimp only
      rw [forall_split_cons_iff, List.append_nil, ← horderly, hcons]
      have ih := ih htracks
      rw [hresumed] at ih
      simp only [List.append_assoc, List.singleton_append] at ih
      rw [← ih]
      obtain ⟨rest, hrest⟩ := @resumed_prefix_supervise t _ _ _ htracks observations
      rw [hresumed, List.append_assoc] at hrest
      simp only [hrest, List.map_append, List.append_assoc, List.append_cancel_left_eq]
      constructor
      · intro heq
        obtain ⟨hgiven, hdue⟩ := List.append_inj heq (by simpa using hlength)
        rw [hdue]
        refine ⟨?_, rfl⟩
        cases given <;> cases hdue : o.due options <;> simp [hdue] at hgiven ⊢
        exact hgiven
      · rintro ⟨hgiven, hdue⟩
        rw [hdue, ← hgiven]
        cases given <;> rfl
    · rename_i c₁ hround
      obtain ⟨_, given, hresumed, _, horderly⟩ := h.round (by rw [hround]; rfl)
      dsimp only
      rw [forall_split_cons_iff, List.append_nil, hresumed, hone, horderly]
      simp
    · rename_i context hround
      have horderly := h.failed hround
      dsimp only
      rw [forall_split_cons_iff, List.append_nil, ← horderly]
      have hnone := @hone none
      rw [Option.toList_none, List.append_nil] at hnone
      rw [hnone, eq_comm]
      simp

theorem tracks_nil (options : CollectorOptions) (capture : Capture) :
    Tracks options [] { capture } where
  tracees := fun pid _ ↦ by
    refine ⟨fun hmem ↦ absurd hmem Std.ExtTreeSet.not_mem_empty, ?_⟩
    rintro ⟨earlier, o, later, heq, _⟩
    simp at heq
  optionsSet := by simp

/-- **Learn mode is transparent to signals**: in every run, every stop of a process of the container
that the collector looks at is resumed once, with the signal it is to be resumed with, exactly if
every observation it looks at is orderly. -/
theorem transparent_iff (t : Target) (options : CollectorOptions) (startedAtUnix : UInt64)
    (observations : List TracedObservation) :
    (supervise t options { capture := newCapture t startedAtUnix } observations).1.resumed.map
          numbered =
        (supervise t options { capture := newCapture t startedAtUnix } observations).2.filterMap
          (due options) ↔
      ∀ before o after,
        (supervise t options { capture := newCapture t startedAtUnix } observations).2 =
          before ++ o :: after → Orderly options before o :=
  supervise_resumed_iff (tracks_nil options _) observations

/-- Process 42 makes process 43, and its event is reported before the child's attach stop.  Then a
`SIGTSTP` stops the group of 42. -/
def eventFirst : List TracedObservation :=
  [{ reported := .stopped 42 Signal.stop.signo, kind := .attach },
    { reported := .ptraceEvent 42 Signal.trap.signo 1, eventMessage := .ok 43 },
    { reported := .stopped 43 Signal.stop.signo, kind := .attach },
    { reported := .stopped 42 Signal.tstp.signo },
    { reported := .stopped 42 Signal.tstp.signo, kind := .group }]

/-- The collector after that, and what it has looked at. -/
def eventFirstEnd : Collector × List TracedObservation :=
  supervise .x86_64 { rootPid := 42 } { capture := newCapture .x86_64 1000 } eventFirst

/-- The child is sent a `SIGSTOP`, and the group stop is resumed with the signal that caused it. -/
theorem attach_stop_is_delivered :
    eventFirstEnd.1.resumed =
        [(42, none), (42, none), (43, some .stop), (42, some .tstp), (42, some .tstp)] ∧
      eventFirstEnd.2.filterMap (due { rootPid := 42 }) =
        [(42, none), (42, none), (43, none), (42, some Signal.tstp.signo), (42, none)] ∧
      eventFirstEnd.1.resumed.map numbered ≠ eventFirstEnd.2.filterMap (due { rootPid := 42 }) := by
  have hresumed : eventFirstEnd.1.resumed =
      [(42, none), (42, none), (43, some .stop), (42, some .tstp), (42, some .tstp)] := rfl
  have hdue : eventFirstEnd.2.filterMap (due { rootPid := 42 }) =
      [(42, none), (42, none), (43, none), (42, some Signal.tstp.signo), (42, none)] := rfl
  refine ⟨hresumed, hdue, ?_⟩
  rw [hresumed, hdue]
  decide

end CrunRs.Seccomp
