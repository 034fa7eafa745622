import CrunRs.Lib.Lts
import CrunRs.Seccomp.Lossless

/-!
# The collector's bookkeeping

`seccomp/collector.rs`: what `run` keeps of the wait statuses it has consumed.

A status belongs to a process of the container or to an excluded helper.  The functions `rootEnd`,
`otherEnd`, `trappedCall` and `stopOf` say of one observation what has to be kept of it, and `Books`
that a collector has kept it of all it was shown.  One round keeps the books (`Books.round`), so
every run does, at every `waitpid` (`waits_books`) and at its end (`collectorRun_bookkeeping`).
-/

set_option autoImplicit false

namespace CrunRs.Seccomp

open Lifecycle Lts

/-! ## What has to be kept -/

/-- The end of the container's process, unless it is taken for a helper. -/
def rootEnd (options : CollectorOptions) (o : Observation) : Option WaitStatus :=
  match o.wait with
  | .status status =>
    if statusPid status = some options.rootPid ∧ isTerminal status then some status else none
  | _ => none

/-- The end of an excluded process. -/
def otherEnd (options : CollectorOptions) (o : Observation) : Option (Int × WaitStatus) :=
  match o.wait with
  | .status status => match statusPid status with
    | some pid =>
      if pid ∈ options.excludePids ∧ isTerminal status then some (pid, status) else none
    | none => none
  | _ => none

/-- The process of the container that is stopped, by an event of the tracer's or by a signal. -/
def stopOf (options : CollectorOptions) (o : Observation) : Option Int :=
  match o.wait with
  | .status (.stopped pid _) | .status (.ptraceEvent pid _ _) =>
    if pid ∈ options.excludePids then none else some pid
  | _ => none

/-- The observation is one of an excluded process. -/
def OfExcluded (options : CollectorOptions) (o : Observation) : Prop :=
  ∃ status pid, o.wait = .status status ∧ statusPid status = some pid ∧ pid ∈ options.excludePids

/-- A round after which the loop goes on. -/
def Collector.step (t : Target) (options : CollectorOptions) (c : Collector) (o : Observation) :
    Option Collector :=
  match c.round t options o with
  | .next c => some c
  | _ => none

/-- The variables `run` starts with. -/
def startCollector (t : Target) (startedAtUnix : UInt64) : Collector :=
  { capture := newCapture t startedAtUnix }

/-- The collector that has consumed exactly these observations and waits for the next. -/
def waits (t : Target) (options : CollectorOptions) (startedAtUnix : UInt64)
    (observations : List Observation) : Option Collector :=
  exec (Collector.step t options) (startCollector t startedAtUnix) observations

/-! ## One round -/

namespace Collector

variable {t : Target} {options : CollectorOptions} {c c' : Collector} {o : Observation}

/-- Only a stop of the container is resumed. -/
theorem stopOf_eq_none {pid : Int} {status : WaitStatus} (hwait : o.wait = .status status)
    (hpid : statusPid status = some pid)
    (hevent : ∀ signal event, status ≠ .ptraceEvent pid signal event)
    (hstop : ∀ signal, status ≠ .stopped pid signal) : stopOf options o = none := by
  rw [stopOf, hwait]
  cases status with
  | ptraceEvent pid' signal event =>
    obtain rfl : pid' = pid := Option.some.inj hpid
    exact absurd rfl (hevent signal event)
  | stopped pid' signal =>
    obtain rfl : pid' = pid := Option.some.inj hpid
    exact absurd rfl (hstop signal)
  | _ => rfl

/-- **A stop of the container is resumed once**, and a process of the container is no helper. -/
theorem dispatch_lists {pid : Int} {status : WaitStatus} (hwait : o.wait = .status status)
    (hpid : statusPid status = some pid) (hincluded : pid ∉ options.excludePids)
    (h : (c.dispatch t options o pid status).collector = some c') :
    c'.reapedOthers = c.reapedOthers ∧
      c'.resumed.map Prod.fst = c.resumed.map Prod.fst ++ (stopOf options o).toList := by
  cases hterminal : isTerminal status with
  | true =>
    obtain ⟨⟨rootStatus, rootExited, rfl⟩, -, -⟩ := dispatch_end hterminal h
    rw [stopOf_eq_none hwait hpid (fun _ _ heq ↦ by simp [heq, isTerminal] at hterminal)
      (fun _ heq ↦ by simp [heq, isTerminal] at hterminal)]
    exact ⟨rfl, (List.append_nil _).symm⟩
  | false =>
    obtain ⟨-, ⟨signal, event, c₁, rfl, hevent, rfl⟩ | ⟨signal, rfl, hstop⟩ | ⟨hevent, hstop, rfl⟩⟩ :=
      dispatch_cases hpid hterminal h
    · have hpid : stopOf options o = some pid := by
        rw [stopOf, hwait]
        exact if_neg hincluded
      obtain ⟨tracees, capture, rfl⟩ := handleEvent_eq hevent
      obtain ⟨capture', hlimit, -⟩ := checkLimit_eq options { c with tracees, capture }
      rw [hpid, resume, hlimit]
      exact ⟨rfl, List.map_append⟩
    · have hpid : stopOf options o = some pid := by
        rw [stopOf, hwait]
        exact if_neg hincluded
      rw [hpid]
      rcases hstop with ⟨-, -, rfl⟩ | ⟨-, -, rfl⟩ | ⟨-, -, rfl⟩
      · exact ⟨rfl, List.map_append⟩
      · obtain ⟨tracees, capture, heq, -, -⟩ := addTracee_eq c pid
        rw [resume, heq]
        exact ⟨rfl, List.map_append⟩
      · exact ⟨rfl, List.map_append⟩
    · rw [stopOf_eq_none hwait hpid hevent hstop]
      exact ⟨rfl, (List.append_nil _).symm⟩

/-- **A status of an excluded process** changes nothing, but that its end is handed back. -/
theorem round_excluded (h : OfExcluded options o) :
    c.round t options o =
      .next { c with reapedOthers := c.reapedOthers ++ (otherEnd options o).toList } := by
  obtain ⟨status, pid, hwait, hpid, hexcluded⟩ := h
  simp only [round, otherEnd, hwait, hpid, hexcluded, true_and, if_true]
  cases isTerminal status with
  | true => rfl
  | false => rw [if_neg Bool.false_ne_true, if_neg Bool.false_ne_true, Option.toList_none,
      List.append_nil]

/-- A round resumes the process that is stopped, and hands back the helper that ended. -/
theorem round_lists (h : (c.round t options o).collector = some c') :
    c'.reapedOthers = c.reapedOthers ++ (otherEnd options o).toList ∧
      c'.resumed.map Prod.fst = c.resumed.map Prod.fst ++ (stopOf options o).toList := by
  have hnothing : ∀ {status}, o.wait = .status status → statusPid status = none →
      otherEnd options o = none ∧ stopOf options o = none := by
    intro status hwait hpid
    cases status with
    | stillAlive => simp [otherEnd, stopOf, hwait, statusPid]
    | _ => cases hpid
  rcases round_cases h with ⟨hwait, -, rfl⟩ | ⟨hwait | ⟨status, hwait, hpid⟩, -, rfl⟩ |
    ⟨status, pid, others, hwait, hpid, hexcluded, hround, rfl⟩ |
    ⟨status, pid, hwait, hpid, hincluded, hround⟩
  · simp [otherEnd, stopOf, hwait]
  · simp [otherEnd, stopOf, hwait]
  · simp [hnothing hwait hpid]
  · have hstop : stopOf options o = none := by
      rw [stopOf, hwait]
      cases status with
      | stopped pid' | ptraceEvent pid' =>
        obtain rfl : pid' = pid := Option.some.inj hpid
        exact if_pos hexcluded
      | _ => rfl
    rw [round_excluded ⟨status, pid, hwait, hpid, hexcluded⟩, Round.next.injEq] at hround
    rw [← hround, hstop]
    exact ⟨rfl, by simp⟩
  · rw [hround] at h
    obtain ⟨hothers, hresumed⟩ := dispatch_lists hwait hpid hincluded h
    have hother : otherEnd options o = none := by
      simp only [otherEnd, hwait, hpid, hincluded, false_and, if_false]
    rw [hothers, hother]
    exact ⟨(List.append_nil _).symm, hresumed⟩

theorem endOf_iff_rootEnd {status : WaitStatus} :
    EndOf options.rootPid status o ↔ rootEnd options o = some status := by
  rw [EndOf, rootEnd]
  cases hwait : o.wait with
  | status status' =>
    simp only [Wait.status.injEq, Option.ite_none_right_eq_some, Option.some.injEq]
    constructor
    · rintro ⟨rfl, hpid, hterminal⟩
      exact ⟨⟨hpid, hterminal⟩, rfl⟩
    · rintro ⟨⟨hpid, hterminal⟩, rfl⟩
      exact ⟨rfl, hpid, hterminal⟩
  | echild | eintr | error => simp

end Collector

/-! ## The books -/

/-- The call of `record` that an observation leads to. -/
def capturedCall (options : CollectorOptions) (o : Observation) : Option CaptureCall :=
  (trappedCall options o).map fun registers ↦ .record (syscallNumber registers) o.elapsedMs

/-- The collector has kept what it had to of everything it was shown. -/
structure Books (options : CollectorOptions) (consumed : List Observation) (c : Collector) :
    Prop where
  root : options.rootPid ∉ options.excludePids →
    c.rootStatus = (consumed.filterMap (rootEnd options)).getLast?.getD .stillAlive
  reaped : c.reapedOthers = consumed.filterMap (otherEnd options)
  accounts : Accounts (consumed.filterMap (capturedCall options)) c.capture
  resumed : c.resumed.map Prod.fst = consumed.filterMap (stopOf options)

theorem Accounts.of_sameCalls {calls : List CaptureCall} {c c' : Capture} (h : Accounts calls c)
    (hsame : SameCalls c c') : Accounts calls c' := by
  obtain ⟨_, _, rfl⟩ := hsame
  exact ⟨h.counts, h.foreign, h.events⟩

theorem Accounts.recorded {calls : List CaptureCall} {c : Capture} (h : Accounts calls c)
    (options : CollectorOptions) (o : Observation) :
    Accounts (calls ++ (capturedCall options o).toList) (recorded options c o) := by
  rw [Seccomp.recorded, capturedCall]
  cases trappedCall options o with
  | some registers => exact h.record (syscallNumber registers) o.elapsedMs
  | none =>
    rw [Option.map_none, Option.toList_none, List.append_nil]
    exact h

theorem filterMap_concat {α β : Type} (f : α → Option β) (l : List α) (x : α) :
    (l ++ [x]).filterMap f = l.filterMap f ++ (f x).toList := by
  rw [List.filterMap_append]
  cases hx : f x <;> simp [hx]

variable {t : Target} {options : CollectorOptions} {startedAtUnix : UInt64}
  {consumed : List Observation} {c c' : Collector} {o : Observation}

/-- **A round keeps the books.** -/
theorem Books.round (h : Books options consumed c)
    (hround : (c.round t options o).collector = some c') :
    Books options (consumed ++ [o]) c' := by
  obtain ⟨hothers, hresumed⟩ := Collector.round_lists hround
  refine ⟨fun hroot ↦ ?_, ?_, ?_, ?_⟩
  · rw [filterMap_concat]
    rcases (Collector.round_root hroot hround).1 with ⟨status, hend, hstatus, -⟩ | ⟨hnot, hstatus, -⟩
    · rw [hstatus, Collector.endOf_iff_rootEnd.mp hend, Option.toList_some,
        List.getLast?_append_of_ne_nil _ (List.cons_ne_nil _ _)]
      rfl
    · have hnone : rootEnd options o = none :=
        Option.eq_none_iff_forall_not_mem.mpr fun status hmem ↦
          hnot status (Collector.endOf_iff_rootEnd.mpr hmem)
      rw [hnone, Option.toList_none, List.append_nil, hstatus, h.root hroot]
  · rw [filterMap_concat, hothers, h.reaped]
  · rw [filterMap_concat]
    exact (h.accounts.recorded options o).of_sameCalls (Collector.round_sameCalls hround)
  · rw [filterMap_concat, hresumed, h.resumed]

theorem startCollector_books (t : Target) (options : CollectorOptions) (startedAtUnix : UInt64) :
    Books options [] (startCollector t startedAtUnix) :=
  ⟨fun _ ↦ rfl, rfl,
    ⟨fun _ ↦ Std.ExtTreeMap.getElem?_empty, fun _ ↦ Std.ExtTreeMap.getElem?_empty, rfl⟩, rfl⟩

theorem Collector.step_eq_some_iff :
    c.step t options o = some c' ↔ c.round t options o = .next c' := by
  rw [step]
  cases c.round t options o <;> simp

/-- **At every wait the books are kept.** -/
theorem waits_books (h : waits t options startedAtUnix consumed = some c) :
    Books options consumed c := by
  refine history_invariant (P := Books options) (fun before c₁ o c₂ hbooks hstep ↦ ?_)
    (startCollector_books t options startedAtUnix) h
  exact hbooks.round (by rw [Collector.step_eq_some_iff.mp hstep]; rfl)

/-- **How a run is made up**: rounds after which it waits again, and at most one that ends it. -/
theorem collect_cases {observations rest : List Observation}
    (h : collect t options c observations = .ok (c', rest)) :
    (rest = [] ∧ exec (Collector.step t options) c observations = some c') ∨
      ∃ before o c₁, observations = before ++ o :: rest ∧
        exec (Collector.step t options) c before = some c₁ ∧ c₁.round t options o = .done c' := by
  induction observations generalizing c with
  | nil =>
    obtain ⟨rfl, rfl⟩ := Prod.mk.inj (Except.ok.inj h)
    exact Or.inl ⟨rfl, rfl⟩
  | cons o later ih =>
    rw [collect] at h
    split at h
    · rename_i c₁ hnext
      have hstep : c.step t options o = some c₁ := Collector.step_eq_some_iff.mpr hnext
      rcases ih h with ⟨hrest, hexec⟩ | ⟨before, last, c₂, rfl, hexec, hdone⟩
      · exact Or.inl ⟨hrest, exec_cons_eq_some_iff.mpr ⟨c₁, hstep, hexec⟩⟩
      · exact Or.inr ⟨o :: before, last, c₂, rfl, exec_cons_eq_some_iff.mpr ⟨c₁, hstep, hexec⟩,
          hdone⟩
    · rename_i c₁ hdone
      obtain ⟨rfl, rfl⟩ := Prod.mk.inj (Except.ok.inj h)
      exact Or.inr ⟨[], o, c, rfl, rfl, hdone⟩
    · cases h

/-! ## A whole run -/

/-- **What `run` returns**, and what it has done by every wait. -/
structure Bookkeeping (t : Target) (options : CollectorOptions) (startedAtUnix : UInt64)
    (consumed : List Observation) (c : Collector) : Prop where
  /-- The root's status is the one that was reported of it, if one was. -/
  root : options.rootPid ∉ options.excludePids →
    c.rootStatus = (consumed.filterMap (rootEnd options)).getLast?.getD .stillAlive
  /-- The ends of the helpers that were seen are handed back, in their order. -/
  reaped : c.reapedOthers = consumed.filterMap (otherEnd options)
  /-- A status of a helper changes nothing else. -/
  excluded : ∀ before o after, consumed = before ++ o :: after → OfExcluded options o →
    ∃ c₁, waits t options startedAtUnix before = some c₁ ∧
      waits t options startedAtUnix (before ++ [o]) =
        some { c₁ with reapedOthers := c₁.reapedOthers ++ (otherEnd options o).toList }
  events : c.capture.events = UInt64.ofNat (trappedCalls options consumed).length
  counts : c.capture.events =
    UInt64.ofNat (c.capture.counts.toList.map fun entry ↦ entry.2.count.toNat).sum
  /-- The counts add up as numbers, as long as no counter can have wrapped. -/
  exact : (trappedCalls options consumed).length < 2 ^ 64 → c.capture.events.toNat =
    (c.capture.counts.toList.map fun entry ↦ entry.2.count.toNat).sum
  /-- At every wait, every stop of the container so far has been resumed, once. -/
  resumed : ∀ before o after, consumed = before ++ o :: after →
    ∃ c₁, waits t options startedAtUnix before = some c₁ ∧
      c₁.resumed.map Prod.fst = before.filterMap (stopOf options)
  resumedAll : c.resumed.map Prod.fst = consumed.filterMap (stopOf options)

theorem length_capturedCalls (options : CollectorOptions) (consumed : List Observation) :
    (consumed.filterMap (capturedCall options)).length = (trappedCalls options consumed).length := by
  have hmap : consumed.filterMap (capturedCall options) =
      consumed.filterMap fun o ↦ (trappedCall options o).map fun registers ↦
        .record (syscallNumber registers) o.elapsedMs := rfl
  rw [hmap, trappedCalls]
  induction consumed with
  | nil => rfl
  | cons o consumed ih =>
    rw [List.filterMap_cons, List.filterMap_cons]
    cases trappedCall options o with
    | none => exact ih rfl
    | some registers => exact congrArg Nat.succ (ih rfl)

/-- No call is recorded as foreign. -/
theorem length_recordedNumbers (options : CollectorOptions) (consumed : List Observation) :
    (recordedNumbers (consumed.filterMap (capturedCall options))).length =
      (trappedCalls options consumed).length := by
  have hforeign : foreignArchs (consumed.filterMap (capturedCall options)) = [] := by
    rw [foreignArchs, List.filterMap_filterMap, List.filterMap_eq_nil_iff]
    intro o _
    rw [capturedCall]
    cases trappedCall options o <;> rfl
  have hlength := length_recordedNumbers_add (consumed.filterMap (capturedCall options))
  rwa [hforeign, List.length_nil, Nat.add_zero, length_capturedCalls] at hlength

/-- The capture's counters, from the books. -/
theorem Books.counters (h : Books options consumed c) :
    c.capture.events = UInt64.ofNat (trappedCalls options consumed).length ∧
      c.capture.events =
        UInt64.ofNat (c.capture.counts.toList.map fun entry ↦ entry.2.count.toNat).sum ∧
      ((trappedCalls options consumed).length < 2 ^ 64 → c.capture.events.toNat =
        (c.capture.counts.toList.map fun entry ↦ entry.2.count.toNat).sum) := by
  have hevents : c.capture.events = UInt64.ofNat (trappedCalls options consumed).length := by
    rw [h.accounts.events, length_capturedCalls]
  have hlength := length_recordedNumbers options consumed
  refine ⟨hevents, ?_, fun hfew ↦ ?_⟩
  · rw [hevents, h.accounts.sum_counts, ← UInt64.toNat_inj, UInt64.toNat_ofNat',
      UInt64.toNat_ofNat', sum_count_mod, hlength]
  · rw [hevents, h.accounts.sum_counts, sum_count (by omega), hlength,
      UInt64.toNat_ofNat_of_lt' hfew]

/-- The loop has waited before everything it has consumed. -/
theorem waits_of_append {before after : List Observation}
    (h : waits t options startedAtUnix (before ++ after) = some c) :
    ∃ c₁, waits t options startedAtUnix before = some c₁ := by
  rw [waits, exec_append] at h
  obtain ⟨c₁, hbefore, -⟩ := Option.bind_eq_some_iff.mp h
  exact ⟨c₁, hbefore⟩

/-- **The collector keeps its books**, of everything it consumes until it ends. -/
theorem collectorRun_bookkeeping (t : Target) (options : CollectorOptions)
    (startedAtUnix durationMs : UInt64) (observations rest : List Observation) (c : Collector)
    (h : collectorRun t options startedAtUnix durationMs observations = .ok (c, rest)) :
    ∃ consumed, observations = consumed ++ rest ∧
      Bookkeeping t options startedAtUnix consumed c := by
  obtain ⟨c', hcollect, rfl⟩ := collect_of_collectorRun h
  -- what was consumed, the books at the end of it, and that the loop waited before all of it
  obtain ⟨consumed, hconsumed, hbooks, hwaited⟩ : ∃ consumed, observations = consumed ++ rest ∧
      Books options consumed c' ∧ ∀ before o after, consumed = before ++ o :: after →
        ∃ c₁, waits t options startedAtUnix before = some c₁ := by
    rcases collect_cases hcollect with ⟨rfl, hexec⟩ | ⟨before, o, c₁, rfl, hexec, hdone⟩
    · refine ⟨observations, (List.append_nil _).symm, waits_books hexec, ?_⟩
      rintro before o after rfl
      exact waits_of_append hexec
    · have hround : (c₁.round t options o).collector = some c' := by rw [hdone]; rfl
      refine ⟨before ++ [o], by simp, (waits_books hexec).round hround, ?_⟩
      intro earlier o' after heq
      rcases List.eq_nil_or_concat after with rfl | ⟨after, last, rfl⟩
      · obtain ⟨rfl, -⟩ := List.append_inj' heq rfl
        exact ⟨c₁, hexec⟩
      · rw [List.concat_eq_append, ← List.cons_append, ← List.append_assoc] at heq
        obtain ⟨rfl, -⟩ := List.append_inj' heq rfl
        exact waits_of_append hexec
  refine ⟨consumed, hconsumed, ?_⟩
  obtain ⟨hevents, hcounts, hexact⟩ := hbooks.counters
  refine ⟨hbooks.root, hbooks.reaped, fun before o after heq hexcluded ↦ ?_, hevents, hcounts,
    hexact, fun before o after heq ↦ ?_, hbooks.resumed⟩
  · obtain ⟨c₁, hbefore⟩ := hwaited before o after heq
    refine ⟨c₁, hbefore, exec_concat_eq_some_iff.mpr ⟨c₁, hbefore, ?_⟩⟩
    exact Collector.step_eq_some_iff.mpr (Collector.round_excluded hexcluded)
  · obtain ⟨c₁, hbefore⟩ := hwaited before o after heq
    exact ⟨c₁, hbefore, (waits_books hbefore).resumed⟩

/-- A helper ends while the container makes a call; then the container ends. -/
def helperRun : List Observation :=
  [{ wait := .status (.stopped 42 .stop) },
    { wait := .status (.ptraceEvent 42 .trap ptraceEventSeccomp)
      registers := .ok ⟨0xc000003e, 0⟩
      elapsedMs := 3 },
    { wait := .status (.exited 50 0) },
    { wait := .status (.stopped 42 .term) },
    { wait := .status (.exited 42 7) }]

def helperRunEnd : Collector :=
  ((collectorRun .x86_64 { rootPid := 42, excludePids := [50] } 1000 5 helperRun).toOption.map
    Prod.fst).getD { capture := {} }

theorem helperRun_bookkeeping : ∃ consumed, helperRun = consumed ++ [] ∧
    Bookkeeping .x86_64 { rootPid := 42, excludePids := [50] } 1000 consumed helperRunEnd :=
  collectorRun_bookkeeping .x86_64 { rootPid := 42, excludePids := [50] } 1000 5 helperRun []
    helperRunEnd rfl

/-- With the root among the excluded processes, its end is handed back as a helper's, and its status
stays `StillAlive`. -/
theorem excludedRoot_stillAlive :
    (collectorRun .x86_64 { rootPid := 42, excludePids := [42] } 1000 5
        [{ wait := .status (.exited 42 7) }, { wait := .echild }]).toOption.map
          (fun ended ↦ (ended.1.rootStatus, ended.1.reapedOthers)) =
        some (.stillAlive, [(42, .exited 42 7)]) ∧
      rootEnd { rootPid := 42, excludePids := [42] } { wait := .status (.exited 42 7) } =
        some (.exited 42 7) :=
  ⟨rfl, rfl⟩

end CrunRs.Seccomp
