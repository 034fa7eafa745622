import CrunRs.Seccomp.Termination
import Mathlib.Data.Finset.Card
import Mathlib.Data.Nat.ModEq

/-!
# The processes a capture has seen

`seccomp/collector.rs`: `processes_seen`.  A process that is made is noticed up to three times: at the
seccomp stop of the call that makes it, at the fork event of its parent, and at its own attach stop.
The collector counts the first always, and of the other two the one that comes first: it tells them
apart by `tracees`, from which a process is taken out when it ends.  The root is not counted, only
made up for if nothing is (`max(1)`).

`children` are the processes of the container that the observations show, whether the collector takes
notice of them or not.  `processesSeen_exact_iff` says when they and the root are what it reports.
-/

set_option autoImplicit false

namespace CrunRs.Seccomp

open Lifecycle

/-! ## What a run shows of its processes -/

/-- The process of the container that an observation is of. -/
def subject (options : CollectorOptions) (o : Observation) : Option Int :=
  match o.wait with
  | .status status => (statusPid status).filter fun pid ↦ pid ∉ options.excludePids
  | _ => none

/-- The processes below the root that are shown: those with a status, and those announced. -/
def children (options : CollectorOptions) (observations : List Observation) : Finset Int :=
  (observations.flatMap fun o ↦
    (subject options o).toList ++ (announced options o).toList).toFinset.erase options.rootPid

/-- A call that makes a process is trapped. -/
def creates (t : Target) (options : CollectorOptions) (o : Observation) : Bool :=
  (trappedCall options o).any fun registers ↦ processCreationSyscall t (syscallNumber registers)

/-- A process of the container is stopped by `SIGSTOP`. -/
def sigstopOf (options : CollectorOptions) (o : Observation) : Option Int :=
  match o.wait with
  | .status (.stopped pid .stop) => if pid ∈ options.excludePids then none else some pid
  | _ => none

/-- The root is stopped by a signal. -/
def stopsRoot (options : CollectorOptions) (o : Observation) : Bool :=
  match o.wait with
  | .status (.stopped pid _) => pid = options.rootPid ∧ pid ∉ options.excludePids
  | _ => false

/-- The first stop of the root, at which it is waiting for its tracer.  What was observed before is
listed with the last first, here and below. -/
def attachesRoot (options : CollectorOptions) (history : List Observation) (o : Observation) :
    Bool :=
  stopsRoot options o && !history.any (stopsRoot options)

/-- The process is the root at its first stop, or it is announced, or stopped by `SIGSTOP`. -/
def tells (options : CollectorOptions) (history : List Observation) (o : Observation) (pid : Int) :
    Bool :=
  if attachesRoot options history o then pid = options.rootPid
  else announced options o = some pid ∨ sigstopOf options o = some pid

/-- What was observed has told of a process, and not shown its end since. -/
def knows (options : CollectorOptions) : List Observation → Int → Bool
  | [], _ => false
  | o :: history, pid =>
    tells options history o pid || knows options history pid && endOf options o ≠ some pid

/-- The process that an observation tells of, unless it is known or the root at its first stop. -/
def newcomer (options : CollectorOptions) (history : List Observation) (o : Observation) :
    Option Int :=
  if attachesRoot options history o then none
  else ((announced options o).or (sigstopOf options o)).filter fun pid ↦ !knows options history pid

/-- The newcomers, with the last first. -/
def newcomers (options : CollectorOptions) : List Observation → List Int
  | [] => []
  | o :: history => (newcomer options history o).toList ++ newcomers options history

/-- The children among the newcomers. -/
def introduced (options : CollectorOptions) (observations : List Observation) : Finset Int :=
  (newcomers options observations.reverse).toFinset.erase options.rootPid

/-- How many calls that make a process were trapped. -/
def creations (t : Target) (options : CollectorOptions) (observations : List Observation) : ℕ :=
  observations.countP (creates t options)

/-- How often a process was a newcomer that had been one before, or is the root. -/
def returns (options : CollectorOptions) (observations : List Observation) : ℕ :=
  (newcomers options observations.reverse).length - (introduced options observations).card

/-- How many children never were newcomers. -/
def missed (options : CollectorOptions) (observations : List Observation) : ℕ :=
  (children options observations \ introduced options observations).card

/-! ## One round -/

/-- An observation that is neither an event nor a stop of a process of the container. -/
structure Silent (options : CollectorOptions) (o : Observation) : Prop where
  announced : announced options o = none
  sigstopOf : sigstopOf options o = none
  stopsRoot : stopsRoot options o = false
  trappedCall : trappedCall options o = none

section

variable {t : Target} {options : CollectorOptions} {o : Observation} {history : List Observation}

theorem Silent.of_wait (h : ∀ status, o.wait ≠ .status status) : Silent options o := by
  refine ⟨(Collector.nothing_seen (Or.inl h)).2, ?_, ?_, ?_⟩
  · rw [Seccomp.sigstopOf]
    split
    · rename_i hwait
      exact absurd hwait (h _)
    · rfl
  · rw [Seccomp.stopsRoot]
    split
    · rename_i hwait
      exact absurd hwait (h _)
    · rfl
  · rw [Seccomp.trappedCall]
    split
    · rename_i hwait _
      exact absurd hwait (h _)
    · rfl

theorem Silent.of_status {status : WaitStatus} (hwait : o.wait = .status status)
    (hevent : ∀ pid signal event, status = .ptraceEvent pid signal event → pid ∈ options.excludePids)
    (hstop : ∀ pid signal, status = .stopped pid signal → pid ∈ options.excludePids) :
    Silent options o := by
  refine ⟨?_, ?_, ?_, ?_⟩
  · rw [Seccomp.announced, hwait]
    split
    · rename_i heq hmessage
      exact if_neg fun hcond ↦ hcond.1 (hevent _ _ _ (Wait.status.inj heq))
    · rfl
  · rw [Seccomp.sigstopOf, hwait]
    split
    · rename_i heq
      exact if_pos (hstop _ _ (Wait.status.inj heq))
    · rfl
  · rw [Seccomp.stopsRoot, hwait]
    split
    · rename_i heq
      exact decide_eq_false fun hcond ↦ hcond.2 (hstop _ _ (Wait.status.inj heq))
    · rfl
  · rw [Seccomp.trappedCall, hwait]
    split
    · rename_i heq _
      exact if_neg fun hcond ↦ hcond.2 (hevent _ _ _ (Wait.status.inj heq))
    · rfl

theorem Silent.tells (h : Silent options o) (pid : Int) : tells options history o pid = false := by
  simp [Seccomp.tells, attachesRoot, h.stopsRoot, h.announced, h.sigstopOf]

theorem Silent.newcomer (h : Silent options o) : newcomer options history o = none := by
  simp [Seccomp.newcomer, attachesRoot, h.stopsRoot, h.announced, h.sigstopOf]

theorem Silent.creates (h : Silent options o) : creates t options o = false := by
  rw [Seccomp.creates, h.trappedCall]
  rfl

end

namespace Collector

variable {t : Target} {options : CollectorOptions} {c c' : Collector} {o : Observation}
  {history : List Observation}

theorem addTracee_processesSeen (c : Collector) (pid : Int) :
    (c.addTracee pid).capture.processesSeen =
      c.capture.processesSeen + UInt64.ofNat (if pid ∈ c.tracees then 0 else 1) := by
  rw [addTracee]
  split
  · exact (UInt64.add_zero _).symm
  · rfl

theorem checkLimit_processesSeen (options : CollectorOptions) (c : Collector) :
    (c.checkLimit options).capture.processesSeen = c.capture.processesSeen := by
  rw [checkLimit]
  split <;> rfl

/-- What the collector knows of the processes, and how many it has counted. -/
structure Census (t : Target) (options : CollectorOptions) (history : List Observation)
    (c : Collector) : Prop where
  tracees : ∀ pid, pid ∈ c.tracees ↔ knows options history pid = true
  optionsSet : c.optionsSet = history.any (stopsRoot options)
  processesSeen : c.capture.processesSeen =
    UInt64.ofNat (history.countP (creates t options) + (newcomers options history).length)

/-- What an observation adds to it. -/
structure Counts (t : Target) (options : CollectorOptions) (history : List Observation)
    (c : Collector) (o : Observation) (c' : Collector) : Prop where
  tracees : ∀ pid, pid ∈ c'.tracees ↔
    tells options history o pid = true ∨ pid ∈ c.tracees ∧ endOf options o ≠ some pid
  optionsSet : c'.optionsSet = (stopsRoot options o || c.optionsSet)
  processesSeen : c'.capture.processesSeen = c.capture.processesSeen +
    UInt64.ofNat ((creates t options o).toNat + (newcomer options history o).toList.length)

theorem Counts.of_silent (h : Silent options o)
    (htracees : ∀ pid, pid ∈ c'.tracees ↔ pid ∈ c.tracees ∧ endOf options o ≠ some pid)
    (hset : c'.optionsSet = c.optionsSet) (hcapture : c'.capture = c.capture) :
    Counts t options history c o c' := by
  refine ⟨fun pid ↦ ?_, ?_, ?_⟩
  · rw [htracees, h.tells]
    simp
  · rw [hset, h.stopsRoot, Bool.false_or]
  · rw [hcapture, h.creates, h.newcomer]
    exact (UInt64.add_zero _).symm

/-- A child is added with the event that announces it, and a created one counted with the call. -/
theorem handleEvent_processesSeen {event : Int} (h : c.handleEvent t event o = .ok c') :
    c'.capture.processesSeen = c.capture.processesSeen + UInt64.ofNat (
      (event == ptraceEventSeccomp && o.registers.toOption.any fun registers ↦
        processCreationSyscall t (syscallNumber registers)).toNat +
      ((if event ∈ newChildEvents then o.eventMessage.toOption else none).filter fun child ↦
        !decide (child ∈ c.tracees)).toList.length) := by
  unfold handleEvent at h
  split at h
  · rename_i hevent
    rw [if_neg fun hchild ↦ ne_seccomp_of_newChild hchild hevent]
    split at h
    · rename_i registers hregisters
      obtain rfl := Except.ok.inj h
      rw [hregisters, beq_iff_eq.mpr hevent]
      cases hcreates : processCreationSyscall t (syscallNumber registers) with
      | true => simp [hcreates, Except.toOption, Capture.record]
      | false => simp [hcreates, Except.toOption, Capture.record]
    · rename_i hregisters
      obtain rfl := Except.ok.inj h
      simp [hregisters, Except.toOption]
    · cases h
  · rename_i hevent
    rw [beq_eq_false_iff_ne.mpr hevent, Bool.false_and]
    split at h
    · rename_i hchild
      split at h
      · rename_i child hmessage
        obtain rfl := Except.ok.inj h
        rw [addTracee_processesSeen, hmessage, Except.toOption]
        by_cases hknown : child ∈ c.tracees
        · rw [if_pos hknown, if_pos hchild, Option.filter_some_neg (by simpa using hknown)]
          rfl
        · rw [if_neg hknown, if_pos hchild, Option.filter_some_pos (by simpa using hknown)]
          rfl
      · rename_i hmessage
        obtain rfl := Except.ok.inj h
        simp [hmessage, hchild, Except.toOption]
      · cases h
    · rename_i hchild
      obtain rfl := Except.ok.inj h
      simp [hchild]

theorem Counts.of_event {pid event : Int} {signal : Signal} {c₁ : Collector}
    (hcensus : Census t options history c) (hwait : o.wait = .status (.ptraceEvent pid signal event))
    (hincluded : pid ∉ options.excludePids) (h : c.handleEvent t event o = .ok c₁) :
    Counts t options history c o ((c₁.checkLimit options).resume pid none) := by
  have hattach : attachesRoot options history o = false := by
    rw [attachesRoot, stopsRoot, hwait]
    rfl
  have hsigstop : sigstopOf options o = none := by rw [sigstopOf, hwait]
  have hend : endOf options o = none := endOf_of_status hwait rfl hincluded
  have hcall : creates t options o =
      (event == ptraceEventSeccomp && o.registers.toOption.any fun registers ↦
        processCreationSyscall t (syscallNumber registers)) := by
    rw [creates, trappedCall, hwait]
    cases o.registers with
    | error e => simp [Except.toOption]
    | ok registers => by_cases hevent : event = ptraceEventSeccomp <;>
        simp [hevent, hincluded, Except.toOption]
  have hannounced : announced options o =
      if event ∈ newChildEvents then o.eventMessage.toOption else none := by
    rw [announced, hwait]
    cases o.eventMessage with
    | error e => simp [Except.toOption]
    | ok child => simp [hincluded, Except.toOption]
  obtain ⟨capture, hlimit, -⟩ := checkLimit_eq options c₁
  refine ⟨fun k ↦ ?_, ?_, ?_⟩
  · have htracees : ((c₁.checkLimit options).resume pid none).tracees = c₁.tracees := by
      rw [resume, hlimit]
    rw [htracees, handleEvent_tracees h, tells, hattach, hsigstop, hend,
      ← announced_of_event hwait hincluded]
    simp
  · obtain ⟨tracees, capture', rfl⟩ := handleEvent_eq h
    rw [resume, hlimit, stopsRoot, hwait]
    rfl
  · have hseen : ((c₁.checkLimit options).resume pid none).capture.processesSeen =
        c₁.capture.processesSeen := checkLimit_processesSeen options c₁
    rw [hseen, handleEvent_processesSeen h, hcall, newcomer, hattach, hannounced, hsigstop,
      Option.or_none]
    simp [hcensus.tracees]

/-- What is seen of a stop: it may be the one that attaches the root, or the first sign of a process
that nobody has announced. -/
theorem seen_of_stop {pid : Int} {signal : Signal} (hcensus : Census t options history c)
    (hwait : o.wait = .status (.stopped pid signal)) (hincluded : pid ∉ options.excludePids) :
    announced options o = none ∧ endOf options o = none ∧ creates t options o = false ∧
      stopsRoot options o = decide (pid = options.rootPid) ∧
      attachesRoot options history o = decide (pid = options.rootPid ∧ c.optionsSet = false) ∧
      sigstopOf options o = if signal = .stop then some pid else none := by
  have hstops : stopsRoot options o = decide (pid = options.rootPid) := by
    rw [stopsRoot, hwait]
    simp [hincluded]
  have hannounced : announced options o = none :=
    announced_eq_none hwait rfl fun _ _ heq ↦ by cases heq
  have hend : endOf options o = none := endOf_of_status hwait rfl hincluded
  refine ⟨hannounced, hend, ?_, hstops, ?_, ?_⟩
  · rw [creates, trappedCall, hwait]
    rfl
  · rw [attachesRoot, hstops, ← hcensus.optionsSet]
    simp
  · rw [sigstopOf, hwait]
    cases signal <;> simp [hincluded]

/-- Once the root is attached, its stops change nothing about that. -/
theorem optionsSet_of_not_first {pid : Int}
    (hstops : stopsRoot options o = decide (pid = options.rootPid))
    (hfirst : ¬ (pid = options.rootPid ∧ c.optionsSet = false)) :
    c.optionsSet = (stopsRoot options o || c.optionsSet) := by
  cases hset : c.optionsSet with
  | true => rw [Bool.or_true]
  | false =>
    have hother : pid ≠ options.rootPid := fun heq ↦ hfirst ⟨heq, hset⟩
    rw [hstops, decide_eq_false hother, Bool.or_false]

/-- The root is attached. -/
theorem Counts.of_attach {pid : Int} {signal : Signal} (hcensus : Census t options history c)
    (hwait : o.wait = .status (.stopped pid signal)) (hincluded : pid ∉ options.excludePids)
    (hfirst : pid = options.rootPid ∧ c.optionsSet = false) :
    Counts t options history c o
      ({ c with
          optionsSet := true
          tracees := c.tracees.insert pid }.resume pid none) := by
  obtain ⟨-, hend, hcreates, hstops, hattach, -⟩ := seen_of_stop hcensus hwait hincluded
  rw [decide_eq_true hfirst] at hattach
  refine ⟨fun k ↦ ?_, ?_, ?_⟩
  · rw [tells, hattach, if_pos rfl, hend, resume, mem_insert_tracees, hfirst.1, decide_eq_true_iff]
    simp
  · rw [hstops, decide_eq_true hfirst.1, Bool.true_or]
    rfl
  · rw [newcomer, hattach, if_pos rfl, hcreates]
    exact (UInt64.add_zero _).symm

/-- A process stops before its creator has announced it. -/
theorem Counts.of_new_stop {pid : Int} (hcensus : Census t options history c)
    (hwait : o.wait = .status (.stopped pid .stop)) (hincluded : pid ∉ options.excludePids)
    (hfirst : ¬ (pid = options.rootPid ∧ c.optionsSet = false)) (hnew : pid ∉ c.tracees) :
    Counts t options history c o ((c.addTracee pid).resume pid none) := by
  obtain ⟨hannounced, hend, hcreates, hstops, hattach, hsigstop⟩ :=
    seen_of_stop hcensus hwait hincluded
  rw [decide_eq_false hfirst] at hattach
  rw [if_pos rfl] at hsigstop
  obtain ⟨tracees, capture, heq, -, hmem⟩ := addTracee_eq c pid
  refine ⟨fun k ↦ ?_, ?_, ?_⟩
  · rw [resume, heq, tells, hattach, hend, hannounced, hsigstop]
    simpa [eq_comm] using hmem k
  · rw [resume, heq]
    exact optionsSet_of_not_first hstops hfirst
  · have hseen : ((c.addTracee pid).resume pid none).capture.processesSeen =
        (c.addTracee pid).capture.processesSeen := rfl
    have hunknown : knows options history pid = false := by
      simpa using (hcensus.tracees pid).not.mp hnew
    rw [hseen, addTracee_processesSeen, if_neg hnew, newcomer, hattach, hannounced, hsigstop,
      hcreates, Option.none_or, if_neg Bool.false_ne_true,
      Option.filter_some_pos (by simpa using hunknown)]
    rfl

/-- Any other stop changes nothing: the process is known, or the signal is not the one that says
hello. -/
theorem Counts.of_known_stop {pid : Int} {signal : Signal} {deliver : Option Signal}
    (hcensus : Census t options history c)
    (hwait : o.wait = .status (.stopped pid signal)) (hincluded : pid ∉ options.excludePids)
    (hfirst : ¬ (pid = options.rootPid ∧ c.optionsSet = false))
    (hold : ¬ (signal = .stop ∧ pid ∉ c.tracees)) :
    Counts t options history c o (c.resume pid deliver) := by
  obtain ⟨hannounced, hend, hcreates, hstops, hattach, hsigstop⟩ :=
    seen_of_stop hcensus hwait hincluded
  rw [decide_eq_false hfirst] at hattach
  have hknown : signal = .stop → pid ∈ c.tracees := by
    intro hsignal
    by_contra hnew
    exact hold ⟨hsignal, hnew⟩
  refine ⟨fun k ↦ ?_, ?_, ?_⟩
  · have htells : tells options history o k = true → k ∈ c.tracees := by
      rw [tells, hattach, hannounced, hsigstop]
      intro h
      by_cases hsignal : signal = .stop
      · have heq : pid = k := by simpa [hsignal] using h
        exact heq ▸ hknown hsignal
      · simp [hsignal] at h
    rw [hend]
    simpa [resume] using htells
  · exact optionsSet_of_not_first hstops hfirst
  · have hnone : newcomer options history o = none := by
      rw [newcomer, hattach, hannounced, hsigstop]
      by_cases hsignal : signal = .stop
      · have hknows : knows options history pid = true := (hcensus.tracees pid).mp (hknown hsignal)
        rw [if_pos hsignal, Option.none_or, if_neg Bool.false_ne_true,
          Option.filter_some_neg (by simpa using hknows)]
      · simp [hsignal]
    rw [hnone, hcreates]
    exact (UInt64.add_zero _).symm

theorem Counts.of_stop {pid : Int} {signal : Signal} (hcensus : Census t options history c)
    (hwait : o.wait = .status (.stopped pid signal)) (hincluded : pid ∉ options.excludePids)
    (h : (pid = options.rootPid ∧ c.optionsSet = false) ∧ o.setOptions = .ok () ∧
        c' = { c with
          optionsSet := true
          tracees := c.tracees.insert pid }.resume pid none ∨
      ¬ (pid = options.rootPid ∧ c.optionsSet = false) ∧
        (signal = .stop ∧ pid ∉ c.tracees) ∧ c' = (c.addTracee pid).resume pid none ∨
      ¬ (pid = options.rootPid ∧ c.optionsSet = false) ∧
        ¬ (signal = .stop ∧ pid ∉ c.tracees) ∧
        c' = c.resume pid (if o.isGroupStop then none else some signal)) :
    Counts t options history c o c' := by
  rcases h with ⟨hfirst, -, rfl⟩ | ⟨hfirst, ⟨rfl, hnew⟩, rfl⟩ | ⟨hfirst, hold, rfl⟩
  · exact .of_attach hcensus hwait hincluded hfirst
  · exact .of_new_stop hcensus hwait hincluded hfirst hnew
  · exact .of_known_stop hcensus hwait hincluded hfirst hold

/-- **What a round adds** to what is known of the processes. -/
theorem round_counts (hcensus : Census t options history c)
    (h : (c.round t options o).collector = some c') : Counts t options history c o c' := by
  have hkept : ∀ {c' : Collector}, endOf options o = none → c'.tracees = c.tracees →
      ∀ pid, pid ∈ c'.tracees ↔ pid ∈ c.tracees ∧ endOf options o ≠ some pid := by
    intro c' hend heq pid
    rw [hend, heq]
    exact (and_iff_left nofun).symm
  rcases round_cases h with ⟨hwait, -, rfl⟩ | ⟨hwait | ⟨status, hwait, hpid⟩, -, rfl⟩ |
    ⟨status, pid, others, hwait, hpid, hexcluded, -, rfl⟩ |
    ⟨status, pid, hwait, hpid, hincluded, hround⟩
  · have hstatus : ∀ status, o.wait ≠ .status status := by simp [hwait]
    exact .of_silent (.of_wait hstatus) (hkept (nothing_seen (Or.inl hstatus)).1 rfl) rfl rfl
  · have hstatus : ∀ status, o.wait ≠ .status status := by simp [hwait]
    exact .of_silent (.of_wait hstatus) (hkept (nothing_seen (Or.inl hstatus)).1 rfl) rfl rfl
  · refine .of_silent (.of_status hwait ?_ ?_) (hkept ?_ rfl) rfl rfl
    · rintro pid signal event rfl
      cases hpid
    · rintro pid signal rfl
      cases hpid
    · exact (nothing_seen (Or.inr ⟨status, hwait, by simp [hpid]⟩)).1
  · have hof : ∀ {pid'}, statusPid status = some pid' → pid' ∈ options.excludePids := by
      intro pid' hpid'
      rwa [← Option.some.inj (hpid.symm.trans hpid')]
    refine .of_silent (.of_status hwait ?_ ?_) (hkept ?_ rfl) rfl rfl
    · rintro pid' signal event rfl
      exact hof rfl
    · rintro pid' signal rfl
      exact hof rfl
    · exact (nothing_seen (Or.inr ⟨status, hwait, fun pid' ↦ hof⟩)).1
  · rw [hround] at h
    have hend := endOf_of_status hwait hpid hincluded
    cases hterminal : isTerminal status with
    | true =>
      rw [hterminal, if_pos rfl] at hend
      obtain ⟨⟨rootStatus, rootExited, rfl⟩, -, -⟩ := dispatch_end hterminal h
      refine .of_silent (.of_status hwait ?_ ?_) (fun k ↦ ?_) rfl rfl
      · rintro pid' signal event rfl
        cases hterminal
      · rintro pid' signal rfl
        cases hterminal
      · rw [hend, Std.ExtTreeSet.mem_erase, ne_eq, Std.LawfulEqCmp.compare_eq_iff_eq, ne_eq,
          Option.some.injEq, and_comm]
    | false =>
      rw [hterminal, if_neg Bool.false_ne_true] at hend
      obtain ⟨-, ⟨signal, event, c₁, rfl, hevent, rfl⟩ | ⟨signal, rfl, hstop⟩ | ⟨hevent, hstop, rfl⟩⟩ :=
        dispatch_cases hpid hterminal h
      · exact .of_event hcensus hwait hincluded hevent
      · exact .of_stop hcensus hwait hincluded hstop
      · refine .of_silent (.of_status hwait ?_ ?_) (hkept hend rfl) rfl rfl
        · rintro pid' signal event rfl
          obtain rfl : pid' = pid := Option.some.inj hpid
          exact absurd rfl (hevent signal event)
        · rintro pid' signal rfl
          obtain rfl : pid' = pid := Option.some.inj hpid
          exact absurd rfl (hstop signal)

/-- **A round keeps the census.** -/
theorem Census.round (hcensus : Census t options history c)
    (h : (c.round t options o).collector = some c') : Census t options (o :: history) c' := by
  obtain ⟨htracees, hset, hseen⟩ := round_counts hcensus h
  refine ⟨fun pid ↦ ?_, ?_, ?_⟩
  · rw [htracees, hcensus.tracees, knows]
    simp
  · rw [hset, hcensus.optionsSet, List.any_cons]
  · rw [hseen, hcensus.processesSeen, ← UInt64.ofNat_add, List.countP_cons, newcomers,
      List.length_append]
    refine congrArg UInt64.ofNat ?_
    cases creates t options o <;> simp <;> omega

end Collector

/-! ## A whole run -/

variable {t : Target} {options : CollectorOptions} {startedAtUnix durationMs : UInt64}
  {consumed observations rest : List Observation} {c : Collector}

/-- **What the collector reports**: as many processes as calls that make one were trapped and
newcomers were told of, and one if there was neither. -/
theorem collectorRun_processesSeen
    (h : collectorRun t options startedAtUnix durationMs observations = .ok (c, rest)) :
    ∃ consumed, observations = consumed ++ rest ∧ c.capture.processesSeen.toNat =
      max 1 ((creations t options consumed + (newcomers options consumed.reverse).length) % 2 ^ 64) := by
  have hstart : Collector.Census t options ([] : List Observation).reverse
      { capture := newCapture t startedAtUnix } := ⟨fun pid ↦ by simp [knows], rfl, rfl⟩
  obtain ⟨consumed, c', hconsumed, hcensus, rfl⟩ := collectorRun_invariant
    (P := fun consumed ↦ Collector.Census t options consumed.reverse)
    (fun before c o c' hcensus hround ↦ by
      rw [List.reverse_append]
      exact hcensus.round hround) hstart h
  refine ⟨consumed, hconsumed, ?_⟩
  have hseen := hcensus.processesSeen
  rw [List.countP_reverse] at hseen
  have hfinish : (finishCapture c'.capture durationMs).processesSeen.toNat =
      max 1 c'.capture.processesSeen.toNat := by
    rw [finishCapture]
    split
    · rename_i hle
      have hle' : c'.capture.processesSeen.toNat ≤ 1 := hle
      exact (max_eq_left hle').symm
    · rename_i hlt
      have hlt' : ¬ c'.capture.processesSeen.toNat ≤ 1 := hlt
      exact (max_eq_right (le_of_lt (not_le.mp hlt'))).symm
  rw [hfinish, hseen, UInt64.toNat_ofNat', creations]

/-! ### When that is right -/

/-- What is counted beside the children is the root, as far as the counter goes: calls and returns
make up for the missed ones and one more.  Or there are no children, and nothing is counted. -/
def CountedOnce (t : Target) (options : CollectorOptions) (observations : List Observation) : Prop :=
  (1 + (children options observations).card < 2 ^ 64 ∧
    creations t options observations + returns options observations ≡
      1 + missed options observations [MOD 2 ^ 64]) ∨
  ((children options observations).card = 0 ∧
    creations t options observations + returns options observations ≡ 0 [MOD 2 ^ 64])

/-- A process the collector is told of is one that is shown. -/
theorem shown_of_newcomer {o : Observation} {history : List Observation} {pid : Int}
    (h : newcomer options history o = some pid) :
    subject options o = some pid ∨ announced options o = some pid := by
  rw [newcomer] at h
  split at h
  · cases h
  · obtain ⟨hor, -⟩ := Option.filter_eq_some_iff.mp h
    rcases Option.or_eq_some_iff.mp hor with hannounced | ⟨-, hstop⟩
    · exact Or.inr hannounced
    · refine Or.inl ?_
      rw [sigstopOf] at hstop
      split at hstop
      · rename_i pid' hwait
        split at hstop
        · cases hstop
        · rename_i hincluded
          obtain rfl := Option.some.inj hstop
          rw [subject, hwait]
          exact Option.filter_some_pos (decide_eq_true hincluded)
      · cases hstop

theorem introduced_subset (options : CollectorOptions) (observations : List Observation) :
    introduced options observations ⊆ children options observations := by
  refine Finset.erase_subset_erase _ fun pid hpid ↦ ?_
  rw [List.mem_toFinset] at hpid ⊢
  have hshown : ∀ history : List Observation, pid ∈ newcomers options history →
      ∃ o ∈ history, subject options o = some pid ∨ announced options o = some pid := by
    intro history
    induction history with
    | nil => exact fun h ↦ absurd h List.not_mem_nil
    | cons o history ih =>
      intro h
      rcases List.mem_append.mp h with hnew | hold
      · exact ⟨o, List.mem_cons_self, shown_of_newcomer (Option.mem_toList.mp hnew)⟩
      · obtain ⟨o', hmem, hshown⟩ := ih hold
        exact ⟨o', List.mem_cons_of_mem o hmem, hshown⟩
  obtain ⟨o, hmem, hshown⟩ := hshown _ hpid
  refine List.mem_flatMap.mpr ⟨o, List.mem_reverse.mp hmem, List.mem_append.mpr ?_⟩
  exact hshown.imp Option.mem_toList.mpr Option.mem_toList.mpr

/-- The newcomers are the children that are not missed, and the returns. -/
theorem length_newcomers (options : CollectorOptions) (observations : List Observation) :
    (newcomers options observations.reverse).length + missed options observations =
      (children options observations).card + returns options observations := by
  have hsub := introduced_subset options observations
  have hcard : (introduced options observations).card ≤
      (newcomers options observations.reverse).length :=
    (Finset.card_le_card (Finset.erase_subset _ _)).trans (List.toFinset_card_le _)
  have hchildren := Finset.card_le_card hsub
  rw [returns, missed, Finset.card_sdiff_of_subset hsub]
  omega

/-- **`processes_seen` is the root and the children** exactly if the calls that make processes and
the returns exceed the missed children by one. -/
theorem processesSeen_exact_iff (t : Target) (options : CollectorOptions)
    (startedAtUnix durationMs : UInt64) (observations rest : List Observation) (c : Collector)
    (h : collectorRun t options startedAtUnix durationMs observations = .ok (c, rest)) :
    ∃ consumed, observations = consumed ++ rest ∧
      (c.capture.processesSeen.toNat = 1 + (children options consumed).card ↔
        CountedOnce t options consumed) := by
  obtain ⟨consumed, hconsumed, hseen⟩ := collectorRun_processesSeen h
  have hlength := length_newcomers options consumed
  have hmissed : missed options consumed ≤ (children options consumed).card :=
    Finset.card_le_card Finset.sdiff_subset
  refine ⟨consumed, hconsumed, ?_⟩
  rw [hseen, CountedOnce, Nat.ModEq, Nat.ModEq]
  omega

/-- Process 42 forks 43, which is reported in all three ways, and both end. -/
def oneFork : List Observation :=
  [attachRoot,
    { wait := .status (.ptraceEvent 42 .trap ptraceEventSeccomp), registers := .ok ⟨0xc000003e, 57⟩ },
    forkEvent, attachChild, exitOf 43, exitOf 42]

/-- The root forks 43, and then 44. -/
def twoForks : List Observation :=
  [attachRoot,
    { wait := .status (.ptraceEvent 42 .trap ptraceEventSeccomp), registers := .ok ⟨0xc000003e, 57⟩ },
    forkEvent, attachChild, exitOf 43,
    { wait := .status (.ptraceEvent 42 .trap ptraceEventSeccomp), registers := .ok ⟨0xc000003e, 57⟩ },
    { wait := .status (.stopped 44 .stop) },
    { wait := .status (.ptraceEvent 42 .trap 1), eventMessage := .ok 44 }, exitOf 44, exitOf 42]

def oneForkEnd : Collector :=
  ((collectorRun .x86_64 withHelper 1000 5 oneFork).toOption.map Prod.fst).getD { capture := {} }

/-- With one child the call that made it makes up for the root. -/
theorem oneFork_exact : ∃ consumed, oneFork = consumed ++ [] ∧
    (oneForkEnd.capture.processesSeen.toNat = 1 + (children withHelper consumed).card ↔
      CountedOnce .x86_64 withHelper consumed) :=
  processesSeen_exact_iff .x86_64 withHelper 1000 5 oneFork [] oneForkEnd rfl

def twoForksEnd : Collector :=
  ((collectorRun .x86_64 withHelper 1000 5 twoForks).toOption.map Prod.fst).getD { capture := {} }

/-- **Two children and the root are four processes.** -/
theorem twoForks_counts_four :
    collectorRun .x86_64 withHelper 1000 5 twoForks = .ok (twoForksEnd, []) ∧
      twoForksEnd.capture.processesSeen = 4 ∧ children withHelper twoForks = {43, 44} ∧
      twoForksEnd.capture.processesSeen.toNat ≠ 1 + (children withHelper twoForks).card :=
  ⟨rfl, by decide +kernel, by decide, by decide +kernel⟩

end CrunRs.Seccomp
