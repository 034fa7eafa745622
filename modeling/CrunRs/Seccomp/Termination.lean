import CrunRs.Seccomp.Bookkeeping

/-!
# When the collector leaves its loop

`seccomp/collector.rs`: the loop of `run` is left once the root has ended and `tracees` is empty.
`tracees` grows with every stop of a new process and with every fork event, and shrinks with the end
of a process (`Collector.round_tracees`).  A process can be known from its own stop before the fork
event of its parent is consumed, and it can have ended by then as well: the fork event puts it back,
and nothing takes it out again.

So the collector ends with the container if no fork event is consumed after the end of the process
it announces, and otherwise goes on to wait for a helper (`run_ends_with_container`).
-/

set_option autoImplicit false

namespace CrunRs.Seccomp

open Lifecycle Lts

/-! ## Ends and announcements -/

/-- The process whose end is observed. -/
def endedPid (o : Observation) : Option Int :=
  match o.wait with
  | .status status => if isTerminal status then statusPid status else none
  | _ => none

/-- The process of the container whose end is observed. -/
def endOf (options : CollectorOptions) (o : Observation) : Option Int :=
  (endedPid o).filter fun pid ↦ pid ∉ options.excludePids

/-- The process a fork event of the container announces. -/
def announced (options : CollectorOptions) (o : Observation) : Option Int :=
  match o.wait, o.eventMessage with
  | .status (.ptraceEvent pid _ event), .ok child =>
    if pid ∉ options.excludePids ∧ event ∈ newChildEvents then some child else none
  | _, _ => none

/-- A fork event is consumed, and the process it announces is not seen to end any more. -/
def LateAnnouncement (options : CollectorOptions) (o : Observation) (after : List Observation) :
    Prop :=
  ∃ child, announced options o = some child ∧ ∀ o' ∈ after, endOf options o' ≠ some child

/-- Nothing is left of the container: the root has ended, every process that was announced has, and
so has every process that was stopped. -/
structure NothingLeft (options : CollectorOptions) (observations : List Observation) : Prop where
  root : ∃ o ∈ observations, endedPid o = some options.rootPid
  announced : ∀ o ∈ observations, ∀ child, announced options o = some child →
    ∃ o' ∈ observations, endedPid o' = some child
  stopped : ∀ before o after pid, observations = before ++ o :: after →
    stopOf options o = some pid → ∃ o' ∈ after, endedPid o' = some pid

theorem endOf_eq_some_iff {options : CollectorOptions} {o : Observation} {pid : Int} :
    endOf options o = some pid ↔ endedPid o = some pid ∧ pid ∉ options.excludePids := by
  rw [endOf, Option.filter_eq_some_iff, decide_eq_true_iff]

/-! ## What a round does to the tracees -/

namespace Collector

variable {t : Target} {options : CollectorOptions} {c c' : Collector} {o : Observation}

/-- An event announces the child it is about. -/
theorem announced_of_event {pid event : Int} {signal : Signal}
    (hwait : o.wait = .status (.ptraceEvent pid signal event)) (hincluded : pid ∉ options.excludePids)
    (k : Int) :
    announced options o = some k ↔ event ∈ newChildEvents ∧ o.eventMessage = .ok k := by
  simp only [announced, hwait]
  cases hmessage : o.eventMessage with
  | error e => simp
  | ok child => simp [hincluded]

theorem announced_eq_none {pid : Int} {status : WaitStatus} (hwait : o.wait = .status status)
    (hpid : statusPid status = some pid)
    (hevent : ∀ signal event, status ≠ .ptraceEvent pid signal event) :
    announced options o = none := by
  rw [announced, hwait]
  split
  · rename_i pid' signal event child heq hmessage
    obtain rfl := Wait.status.inj heq
    obtain rfl : pid' = pid := Option.some.inj hpid
    exact absurd rfl (hevent signal event)
  · rfl

/-- A process of the container that has not ended: what it does to the tracees. -/
theorem dispatch_tracees {pid : Int} {status : WaitStatus} (hwait : o.wait = .status status)
    (hpid : statusPid status = some pid) (hincluded : pid ∉ options.excludePids)
    (hterminal : isTerminal status = false)
    (h : (c.dispatch t options o pid status).collector = some c') (k : Int) :
    (k ∈ c.tracees ∨ announced options o = some k → k ∈ c'.tracees) ∧
      (k ∈ c'.tracees → k ∈ c.tracees ∨ announced options o = some k ∨
        stopOf options o = some k) := by
  have hkept : announced options o = none → c'.tracees = c.tracees →
      (k ∈ c.tracees ∨ announced options o = some k → k ∈ c'.tracees) ∧
        (k ∈ c'.tracees → k ∈ c.tracees ∨ announced options o = some k ∨
          stopOf options o = some k) := by
    intro hnone heq
    rw [hnone, heq]
    exact ⟨fun hk ↦ hk.elim id (nomatch ·), Or.inl⟩
  obtain ⟨-, ⟨signal, event, c₁, rfl, hevent, rfl⟩ | ⟨signal, rfl, hstop⟩ | ⟨hevent, -, rfl⟩⟩ :=
    dispatch_cases hpid hterminal h
  · obtain ⟨capture, hlimit, -⟩ := checkLimit_eq options c₁
    have hmem : k ∈ ((c₁.checkLimit options).resume pid none).tracees ↔
        announced options o = some k ∨ k ∈ c.tracees := by
      rw [resume, hlimit, announced_of_event hwait hincluded, ← handleEvent_tracees hevent]
    rw [hmem]
    exact ⟨Or.symm, fun hk ↦ hk.elim (fun ha ↦ Or.inr (Or.inl ha)) Or.inl⟩
  · have hnone : announced options o = none :=
      announced_eq_none hwait hpid fun _ _ heq ↦ by cases heq
    have hadded : (∀ k, k ∈ c'.tracees ↔ k = pid ∨ k ∈ c.tracees) →
        (k ∈ c.tracees ∨ announced options o = some k → k ∈ c'.tracees) ∧
          (k ∈ c'.tracees → k ∈ c.tracees ∨ announced options o = some k ∨
            stopOf options o = some k) := by
      intro hmem
      have hpid : stopOf options o = some pid := by
        rw [stopOf, hwait]
        exact if_neg hincluded
      rw [hmem, hnone, hpid]
      refine ⟨fun hk ↦ hk.elim Or.inr (nomatch ·), fun hk ↦ ?_⟩
      exact hk.elim (fun heq ↦ Or.inr (Or.inr (congrArg some heq.symm))) Or.inl
    rcases hstop with ⟨-, -, rfl⟩ | ⟨-, -, rfl⟩ | ⟨-, -, rfl⟩
    · exact hadded fun k ↦ mem_insert_tracees
    · obtain ⟨tracees, capture, heq, -, hmem⟩ := addTracee_eq c pid
      exact hadded (by rwa [resume, heq])
    · exact hkept hnone rfl
  · exact hkept (announced_eq_none hwait hpid hevent) rfl

/-- Where no process of the container is seen, none ends and none is announced. -/
theorem nothing_seen (h : (∀ status, o.wait ≠ .status status) ∨ ∃ status, o.wait = .status status ∧
    ∀ pid, statusPid status = some pid → pid ∈ options.excludePids) :
    endOf options o = none ∧ announced options o = none := by
  constructor
  · rw [Option.eq_none_iff_forall_ne_some]
    intro pid hend
    obtain ⟨hended, hincluded⟩ := endOf_eq_some_iff.mp hend
    rw [endedPid] at hended
    split at hended
    · rename_i status hwait
      rcases h with h | ⟨status', hwait', hexcluded⟩
      · exact h status hwait
      · obtain rfl := Wait.status.inj (hwait.symm.trans hwait')
        split at hended
        · exact hincluded (hexcluded pid hended)
        · cases hended
    · cases hended
  · rw [announced]
    split
    · rename_i pid signal event child hwait hmessage
      rcases h with h | ⟨status', hwait', hexcluded⟩
      · exact absurd hwait (h _)
      · obtain rfl := Wait.status.inj (hwait.symm.trans hwait')
        exact if_neg fun hcond ↦ hcond.1 (hexcluded pid rfl)
    · rfl

theorem endOf_of_status {status : WaitStatus} {pid : Int} (hwait : o.wait = .status status)
    (hpid : statusPid status = some pid) (hincluded : pid ∉ options.excludePids) :
    endOf options o = if isTerminal status then some pid else none := by
  simp only [endOf, endedPid, hwait, hpid]
  cases isTerminal status with
  | true => exact Option.filter_some_pos (decide_eq_true hincluded)
  | false => rfl

/-- What is left of the tracees after an observation, and what can be new in them. -/
structure TraceesAfter (options : CollectorOptions) (c : Collector) (o : Observation)
    (c' : Collector) : Prop where
  keeps : ∀ k, (k ∈ c.tracees ∧ endOf options o ≠ some k) ∨ announced options o = some k →
    k ∈ c'.tracees
  gains : ∀ k ∈ c'.tracees, (k ∈ c.tracees ∧ endOf options o ≠ some k) ∨
    announced options o = some k ∨ stopOf options o = some k

theorem TraceesAfter.of_nothing (h : endOf options o = none ∧ announced options o = none)
    (heq : c'.tracees = c.tracees) : TraceesAfter options c o c' := by
  obtain ⟨hend, hannounced⟩ := h
  refine ⟨fun k hk ↦ ?_, fun k hk ↦ Or.inl ⟨heq ▸ hk, ?_⟩⟩
  · rw [heq]
    rw [hannounced] at hk
    exact hk.elim And.left (nomatch ·)
  · rw [hend]
    exact nofun

/-- **What a round does to the tracees**: they keep what has not ended and gain what is announced,
and gain nothing but what is announced or stopped. -/
theorem round_tracees (h : (c.round t options o).collector = some c') :
    TraceesAfter options c o c' := by
  rcases round_cases h with ⟨hwait, -, rfl⟩ | ⟨hwait | ⟨status, hwait, hpid⟩, -, rfl⟩ |
    ⟨status, pid, others, hwait, hpid, hexcluded, hround, rfl⟩ |
    ⟨status, pid, hwait, hpid, hincluded, hround⟩
  · exact .of_nothing (nothing_seen (Or.inl fun status ↦ by simp [hwait])) rfl
  · exact .of_nothing (nothing_seen (Or.inl fun status ↦ by simp [hwait])) rfl
  · exact .of_nothing (nothing_seen (Or.inr ⟨status, hwait, by simp [hpid]⟩)) rfl
  · refine .of_nothing (nothing_seen (Or.inr ⟨status, hwait, fun pid' hpid' ↦ ?_⟩)) rfl
    rwa [← Option.some.inj (hpid.symm.trans hpid')]
  · rw [hround] at h
    have hend := endOf_of_status hwait hpid hincluded
    cases hterminal : isTerminal status with
    | true =>
      rw [hterminal, if_pos rfl] at hend
      obtain ⟨⟨rootStatus, rootExited, rfl⟩, -, -⟩ := dispatch_end hterminal h
      have hannounced : announced options o = none :=
        announced_eq_none hwait hpid fun _ _ heq ↦ by simp [heq, isTerminal] at hterminal
      have hmem : ∀ k, k ∈ c.tracees.erase pid ↔ k ∈ c.tracees ∧ endOf options o ≠ some k := by
        intro k
        rw [hend, Std.ExtTreeSet.mem_erase, ne_eq,
          Std.LawfulEqCmp.compare_eq_iff_eq, ne_eq, Option.some.injEq, and_comm]
      refine ⟨fun k hk ↦ (hmem k).mpr ?_, fun k hk ↦ Or.inl ((hmem k).mp hk)⟩
      rw [hannounced] at hk
      exact hk.elim id fun hnone ↦ absurd hnone (Option.some_ne_none k).symm
    | false =>
      rw [hterminal, if_neg Bool.false_ne_true] at hend
      have hdispatch := dispatch_tracees hwait hpid hincluded hterminal h
      refine ⟨fun k hk ↦ (hdispatch k).1 (hk.imp And.left id), fun k hk ↦ ?_⟩
      rw [hend]
      exact ((hdispatch k).2 hk).imp (fun hk ↦ ⟨hk, (Option.some_ne_none k).symm⟩) id

/-- The loop is left when there is nothing to wait for, or at the end of the last process. -/
theorem round_done (h : c.round t options o = .done c') :
    o.wait = .echild ∨ (∃ pid, endOf options o = some pid) ∧ c'.tracees.isEmpty = true := by
  have hcollector : (c.round t options o).collector = some c' := by rw [h]; rfl
  rcases round_cases hcollector with ⟨hwait, -, -⟩ | ⟨-, hround, -⟩ |
    ⟨status, pid, others, hwait, hpid, hexcluded, hround, -⟩ |
    ⟨status, pid, hwait, hpid, hincluded, hround⟩
  · exact Or.inl hwait
  · rw [h] at hround
    cases hround
  · rw [h] at hround
    cases hround
  · rw [h] at hround
    have hend := endOf_of_status hwait hpid hincluded
    have hdispatch : (c.dispatch t options o pid status).collector = some c' := by
      rw [← hround]
      rfl
    cases hterminal : isTerminal status with
    | true =>
      rw [hterminal, if_pos rfl] at hend
      rw [(dispatch_end hterminal hdispatch).2.2] at hround
      split at hround
      · rename_i hempty
        exact Or.inr ⟨⟨pid, hend⟩, (Bool.and_eq_true_iff.mp hempty).2⟩
      · cases hround
    | false =>
      have hnext := (dispatch_root hpid hterminal hdispatch).2.2
      rw [← hround] at hnext
      cases hnext

/-- After a round that goes on, something of the container is left, or it was not looked at. -/
theorem round_next (hroot : options.rootPid ∉ options.excludePids)
    (h : c.round t options o = .next c') :
    (c'.rootExited && c'.tracees.isEmpty) = false ∨
      endOf options o = none ∧ c'.rootExited = c.rootExited := by
  have hcollector : (c.round t options o).collector = some c' := by rw [h]; rfl
  cases hend : endOf options o with
  | none =>
    refine Or.inr ⟨rfl, ?_⟩
    rcases (round_root hroot hcollector).1 with ⟨status, ⟨hwait, hpid, hterminal⟩, -⟩ | ⟨-, -, hexited⟩
    · rw [endOf_of_status hwait hpid hroot, if_pos hterminal] at hend
      cases hend
    · exact hexited
  | some pid =>
    rcases round_cases hcollector with ⟨hwait, -, -⟩ | ⟨hwait | ⟨status, hwait, hpid⟩, -, -⟩ |
      ⟨status, pid', others, hwait, hpid, hexcluded, hround, -⟩ |
      ⟨status, pid', hwait, hpid, hincluded, hround⟩
    · rw [(nothing_seen (Or.inl fun status ↦ by simp [hwait])).1] at hend
      cases hend
    · rw [(nothing_seen (Or.inl fun status ↦ by simp [hwait])).1] at hend
      cases hend
    · rw [(nothing_seen (Or.inr ⟨status, hwait, by simp [hpid]⟩)).1] at hend
      cases hend
    · rw [(nothing_seen (Or.inr ⟨status, hwait, fun pid hpid' ↦ ?_⟩)).1] at hend
      · cases hend
      · rwa [← Option.some.inj (hpid.symm.trans hpid')]
    · rw [endOf_of_status hwait hpid hincluded] at hend
      split at hend
      · rename_i hterminal
        rw [hround] at hcollector
        rw [h, (dispatch_end hterminal hcollector).2.2] at hround
        split at hround
        · cases hround
        · rename_i hleft
          exact Or.inl (Bool.eq_false_iff.mpr hleft)
      · cases hend

end Collector

/-! ## Runs -/

variable {t : Target} {options : CollectorOptions} {startedAtUnix : UInt64}
  {consumed observations : List Observation} {c c' : Collector}

/-- A process is known to a collector, and not seen to end since. -/
def Introduced (options : CollectorOptions) (consumed : List Observation) (pid : Int) : Prop :=
  ∃ before o after, consumed = before ++ o :: after ∧
    (announced options o = some pid ∨ stopOf options o = some pid) ∧
    ∀ o' ∈ after, endOf options o' ≠ some pid

/-- What a collector that still waits knows: the tracees are processes that were introduced, a
process that was announced is one until it ends, the end of the root is known, and something is
left. -/
structure Waiting (options : CollectorOptions) (consumed : List Observation) (c : Collector) :
    Prop where
  introduced : ∀ pid ∈ c.tracees, Introduced options consumed pid
  announced : ∀ before o after pid, consumed = before ++ o :: after →
    announced options o = some pid → (∀ o' ∈ after, endOf options o' ≠ some pid) → pid ∈ c.tracees
  root : (∃ o ∈ consumed, endOf options o = some options.rootPid) → c.rootExited = true
  left : (c.rootExited && c.tracees.isEmpty) = false

theorem Introduced.concat {pid : Int} {o : Observation} (h : Introduced options consumed pid)
    (hend : endOf options o ≠ some pid) : Introduced options (consumed ++ [o]) pid := by
  obtain ⟨before, o₁, after, rfl, hintro, hafter⟩ := h
  refine ⟨before, o₁, after ++ [o], by simp, hintro, fun o' hmem ↦ ?_⟩
  rcases List.mem_append.mp hmem with hmem | hmem
  · exact hafter o' hmem
  · rwa [List.mem_singleton.mp hmem]

/-- A split of a list with one more element is a split of the list, or at that element. -/
theorem concat_eq_append_cons {α : Type} {l before after : List α} {x y : α}
    (h : l ++ [x] = before ++ y :: after) :
    (after = [] ∧ y = x ∧ l = before) ∨ ∃ after', after = after' ++ [x] ∧ l = before ++ y :: after' := by
  rcases List.eq_nil_or_concat after with rfl | ⟨after', last, rfl⟩
  · obtain ⟨rfl, heq⟩ := List.append_inj' h rfl
    exact Or.inl ⟨rfl, (List.singleton_inj.mp heq).symm, rfl⟩
  · rw [List.concat_eq_append, ← List.cons_append, ← List.append_assoc] at h
    obtain ⟨rfl, heq⟩ := List.append_inj' h rfl
    rw [List.singleton_inj.mp heq]
    exact Or.inr ⟨after', List.concat_eq_append, rfl⟩

theorem isEmpty_eq_false_of_mem {tracees : Std.ExtTreeSet Int} {pid : Int} (h : pid ∈ tracees) :
    tracees.isEmpty = false :=
  Std.ExtTreeSet.isEmpty_eq_false_iff.mpr fun hempty ↦
    Std.ExtTreeSet.eq_empty_iff_forall_not_mem.mp hempty pid h

theorem exists_mem_of_isEmpty_eq_false {tracees : Std.ExtTreeSet Int}
    (h : tracees.isEmpty = false) : ∃ pid, pid ∈ tracees := by
  by_contra hnone
  refine Std.ExtTreeSet.isEmpty_eq_false_iff.mp h ?_
  exact Std.ExtTreeSet.eq_empty_iff_forall_not_mem.mpr (not_exists.mp hnone)

/-- **A round after which the loop goes on.** -/
theorem Waiting.step {o : Observation} (hroot : options.rootPid ∉ options.excludePids)
    (h : Waiting options consumed c) (hstep : c.step t options o = some c') :
    Waiting options (consumed ++ [o]) c' := by
  have hnext := Collector.step_eq_some_iff.mp hstep
  have hcollector : (c.round t options o).collector = some c' := by rw [hnext]; rfl
  have htracees := Collector.round_tracees hcollector
  refine ⟨fun pid hpid ↦ ?_, fun before o₁ after pid heq hannounced hafter ↦ ?_, ?_, ?_⟩
  · rcases htracees.gains pid hpid with ⟨hknown, hend⟩ | hnew
    · exact (h.introduced pid hknown).concat hend
    · exact ⟨consumed, o, [], rfl, hnew, by simp⟩
  · rcases concat_eq_append_cons heq with ⟨rfl, rfl, rfl⟩ | ⟨after', rfl, hconsumed⟩
    · exact htracees.keeps pid (Or.inr hannounced)
    · refine htracees.keeps pid (Or.inl ⟨?_, hafter o (by simp)⟩)
      exact h.announced before o₁ after' pid hconsumed hannounced fun o' hmem ↦
        hafter o' (List.mem_append_left _ hmem)
  · rintro ⟨o₁, hmem, hend⟩
    rcases (Collector.round_root hroot hcollector).1 with ⟨status, -, -, hexited⟩ |
      ⟨hnot, -, hexited⟩
    · exact hexited
    · rw [hexited]
      refine h.root ⟨o₁, ?_, hend⟩
      rcases List.mem_append.mp hmem with hmem | hmem
      · exact hmem
      · -- the last observation is not the end of the root
        obtain rfl := List.mem_singleton.mp hmem
        obtain ⟨hended, -⟩ := endOf_eq_some_iff.mp hend
        rw [endedPid] at hended
        split at hended
        · rename_i status hwait
          split at hended
          · rename_i hterminal
            exact absurd ⟨hwait, hended, hterminal⟩ (hnot status)
          · cases hended
        · cases hended
  · rcases Collector.round_next hroot hnext with hleft | ⟨hend, hexited⟩
    · exact hleft
    · -- nothing has ended, so nothing is missing from the tracees
      rw [hexited, Bool.and_eq_false_iff]
      refine (Bool.and_eq_false_iff.mp h.left).imp id fun hsome ↦ ?_
      obtain ⟨pid, hpid⟩ := exists_mem_of_isEmpty_eq_false hsome
      exact isEmpty_eq_false_of_mem (htracees.keeps pid (Or.inl ⟨hpid, by rw [hend]; nofun⟩))

theorem waits_waiting (hroot : options.rootPid ∉ options.excludePids)
    (h : waits t options startedAtUnix consumed = some c) : Waiting options consumed c := by
  refine history_invariant (P := Waiting options) (fun before c₁ o c₂ hwaiting hstep ↦ ?_) ?_ h
  · exact hwaiting.step hroot hstep
  · refine ⟨fun pid hpid ↦ absurd hpid Std.ExtTreeSet.not_mem_empty, fun before o after pid heq ↦ ?_,
      ?_, rfl⟩
    · simp at heq
    · rintro ⟨o, hmem, -⟩
      cases hmem

/-- A process that has stopped is none of the excluded ones. -/
theorem not_excluded_of_stopOf {o : Observation} {pid : Int} (h : stopOf options o = some pid) :
    pid ∉ options.excludePids := by
  rw [stopOf] at h
  split at h
  · split at h
    · cases h
    · rename_i hincluded
      exact Option.some.inj h ▸ hincluded
  · split at h
    · cases h
    · rename_i hincluded
      exact Option.some.inj h ▸ hincluded
  · cases h

/-- A collector that still waits although nothing is left of the container has consumed a late
announcement. -/
theorem exists_late_of_waits (hroot : options.rootPid ∉ options.excludePids)
    (hnothing : NothingLeft options observations)
    (h : waits t options startedAtUnix observations = some c) :
    ∃ before o after, observations = before ++ o :: after ∧ LateAnnouncement options o after := by
  have hwaiting := waits_waiting hroot h
  have hexited : c.rootExited = true := by
    obtain ⟨o, hmem, hended⟩ := hnothing.root
    exact hwaiting.root ⟨o, hmem, endOf_eq_some_iff.mpr ⟨hended, hroot⟩⟩
  have hleft : c.tracees.isEmpty = false := by
    have hleft := hwaiting.left
    rwa [hexited, Bool.true_and] at hleft
  obtain ⟨pid, hpid⟩ := exists_mem_of_isEmpty_eq_false hleft
  obtain ⟨before, o, after, heq, hannounced | hstopped, hafter⟩ := hwaiting.introduced pid hpid
  · exact ⟨before, o, after, heq, pid, hannounced, hafter⟩
  · obtain ⟨o', hmem, hended⟩ := hnothing.stopped before o after pid heq hstopped
    exact absurd (endOf_eq_some_iff.mpr ⟨hended, not_excluded_of_stopOf hstopped⟩) (hafter o' hmem)

/-- A fork event ends no loop. -/
theorem endOf_of_announced {o : Observation} {child : Int}
    (h : announced options o = some child) : endOf options o = none ∧ o.wait ≠ .echild := by
  rw [announced] at h
  split at h
  · rename_i pid signal event child' hwait hmessage
    have hend : endedPid o = none := by
      rw [endedPid, hwait]
      rfl
    rw [endOf, hend, hwait]
    exact ⟨rfl, nofun⟩
  · cases h

/-- A collector that has consumed a late announcement goes on to wait, as long as there is anything
to wait for. -/
theorem waits_of_late {before after : List Observation} {o : Observation}
    {ended : Collector × List Observation} (hroot : options.rootPid ∉ options.excludePids)
    (hbefore : waits t options startedAtUnix before = some c)
    (hlate : LateAnnouncement options o after) (hechild : ∀ o' ∈ after, o'.wait ≠ .echild)
    (hok : collect t options (startCollector t startedAtUnix) (before ++ o :: after) = .ok ended) :
    ∃ c', waits t options startedAtUnix (before ++ o :: after) = some c' := by
  obtain ⟨child, hannounced, hafter⟩ := hlate
  obtain ⟨c', rest⟩ := ended
  rcases collect_cases hok with ⟨-, hexec⟩ | ⟨consumed, last, c₁, heq, hexec, hdone⟩
  · exact ⟨c', hexec⟩
  · exfalso
    -- the loop is left at `last`, which is not before the announcement
    obtain ⟨later, hconsumed⟩ : ∃ later, consumed = before ++ later := by
      rcases List.append_eq_append_iff.mp heq with ⟨later, hconsumed, -⟩ | ⟨later, hbefore', hlast⟩
      · exact ⟨later, hconsumed⟩
      · cases later with
        | nil => exact ⟨[], by rw [hbefore', List.append_nil, List.append_nil]⟩
        | cons first later =>
          obtain ⟨rfl, -⟩ := List.cons.inj hlast
          rw [hbefore', List.append_cons] at hbefore
          obtain ⟨c₂, hstep⟩ := waits_of_append hbefore
          obtain ⟨c₃, hexec', hstep'⟩ := exec_concat_eq_some_iff.mp hstep
          obtain rfl := Option.some.inj (hexec.symm.trans hexec')
          rw [Collector.step_eq_some_iff, hdone] at hstep'
          cases hstep'
    subst hconsumed
    have htail : o :: after = later ++ last :: rest := by
      rw [List.append_assoc] at heq
      exact List.append_cancel_left heq
    have hround : (c₁.round t options last).collector = some c' := by rw [hdone]; rfl
    cases later with
    | nil =>
      obtain ⟨rfl, -⟩ := List.cons.inj htail
      obtain ⟨hend, hwait⟩ := endOf_of_announced hannounced
      rcases Collector.round_done hdone with hechild' | ⟨⟨pid, hend'⟩, -⟩
      · exact hwait hechild'
      · rw [hend] at hend'
        cases hend'
    | cons first later =>
      obtain ⟨rfl, rfl⟩ := List.cons.inj htail
      have hknown : child ∈ c₁.tracees :=
        (waits_waiting hroot hexec).announced before o later child rfl hannounced fun o' hmem ↦
          hafter o' (List.mem_append_left _ hmem)
      rcases Collector.round_done hdone with hechild' | ⟨-, hempty⟩
      · exact hechild last (by simp) hechild'
      · have hmem : child ∈ c'.tracees :=
          (Collector.round_tracees hround).keeps child (Or.inl ⟨hknown, hafter last (by simp)⟩)
        rw [isEmpty_eq_false_of_mem hmem] at hempty
        cases hempty

/-- **The collector ends with the container**, if every fork event it consumes comes before the end
of the process it announces; and if one does not, it goes on to wait for whatever else there is. -/
theorem run_ends_with_container (t : Target) (options : CollectorOptions) (startedAtUnix : UInt64)
    (observations : List Observation) (hroot : options.rootPid ∉ options.excludePids)
    (hnothing : NothingLeft options observations) :
    ((∀ before o after, observations = before ++ o :: after →
        ¬ LateAnnouncement options o after) →
      waits t options startedAtUnix observations = none) ∧
    ∀ before o after c ended, observations = before ++ o :: after →
      waits t options startedAtUnix before = some c → LateAnnouncement options o after →
      (∀ o' ∈ after, o'.wait ≠ .echild) →
      collect t options (startCollector t startedAtUnix) observations = .ok ended →
      ∃ c', waits t options startedAtUnix observations = some c' := by
  refine ⟨fun hearly ↦ ?_, ?_⟩
  · rw [Option.eq_none_iff_forall_ne_some]
    intro c hwaits
    obtain ⟨before, o, after, heq, hlate⟩ := exists_late_of_waits hroot hnothing hwaits
    exact hearly before o after heq hlate
  · rintro before o after c ended rfl hbefore hlate hechild hok
    exact waits_of_late hroot hbefore hlate hechild hok

/-! ## Two orders of the same events -/

/-- What holds of every element of a list and of what comes after it. -/
theorem forall_split_cons {α : Type} {P : α → List α → Prop} {x : α} {l : List α} :
    (∀ before y after, x :: l = before ++ y :: after → P y after) ↔
      P x l ∧ ∀ before y after, l = before ++ y :: after → P y after := by
  constructor
  · intro h
    exact ⟨h [] x l rfl, fun before y after heq ↦ h (x :: before) y after (by rw [heq]; rfl)⟩
  · rintro ⟨hx, hl⟩ before y after heq
    cases before with
    | nil =>
      obtain ⟨rfl, rfl⟩ := List.cons.inj heq
      exact hx
    | cons z before => exact hl before y after (List.cons.inj heq).2

theorem forall_split_nil {α : Type} {P : α → List α → Prop} :
    ∀ before y after, ([] : List α) = before ++ y :: after → P y after :=
  fun _ _ _ heq ↦ absurd heq.symm (List.append_ne_nil_of_right_ne_nil _ (List.cons_ne_nil _ _))

/-- Process 42 is the root, 50 a helper. -/
def withHelper : CollectorOptions := { rootPid := 42, excludePids := [50] }

def attachRoot : Observation := { wait := .status (.stopped 42 .stop) }

def attachChild : Observation := { wait := .status (.stopped 43 .stop) }

/-- The root has forked process 43. -/
def forkEvent : Observation :=
  { wait := .status (.ptraceEvent 42 .trap 1), eventMessage := .ok 43 }

def exitOf (pid : Int) : Observation := { wait := .status (.exited pid 0) }

/-- The child is announced before it ends. -/
def earlyRun : List Observation := [attachRoot, attachChild, forkEvent, exitOf 43, exitOf 42]

/-- The child has run and ended before its parent is stopped by the fork event. -/
def lateRun : List Observation := [attachRoot, attachChild, exitOf 43, forkEvent, exitOf 42]

theorem ended_of_stop {o : Observation} {after : List Observation} {p : Int}
    (hstop : stopOf withHelper o = some p) (hmem : exitOf p ∈ after) :
    ∀ pid, stopOf withHelper o = some pid → ∃ o' ∈ after, endedPid o' = some pid := by
  intro pid h
  obtain rfl := Option.some.inj (hstop.symm.trans h)
  exact ⟨exitOf p, hmem, rfl⟩

theorem ended_of_exit (p : Int) (after : List Observation) :
    ∀ pid, stopOf withHelper (exitOf p) = some pid → ∃ o' ∈ after, endedPid o' = some pid :=
  nofun

/-- A run in which only process 43 is announced, and both processes end. -/
theorem nothingLeft_of_stops {observations : List Observation}
    (hroot : exitOf 42 ∈ observations) (hchild : exitOf 43 ∈ observations)
    (hannounced : ∀ o ∈ observations, announced withHelper o = none ∨
      announced withHelper o = some 43)
    (hstopped : ∀ before o after, observations = before ++ o :: after →
      ∀ pid, stopOf withHelper o = some pid → ∃ o' ∈ after, endedPid o' = some pid) :
    NothingLeft withHelper observations := by
  refine ⟨⟨exitOf 42, hroot, rfl⟩, fun o hmem child hchild' ↦ ?_, fun before o after pid heq ↦
    hstopped before o after heq pid⟩
  rcases hannounced o hmem with hnone | hsome
  · rw [hnone] at hchild'
    cases hchild'
  · obtain rfl := Option.some.inj (hsome.symm.trans hchild')
    exact ⟨exitOf 43, hchild, rfl⟩

theorem earlyRun_nothingLeft : NothingLeft withHelper earlyRun := by
  refine nothingLeft_of_stops (by simp [earlyRun]) (by simp [earlyRun]) (by decide) ?_
  exact forall_split_cons.mpr ⟨ended_of_stop rfl (by simp), forall_split_cons.mpr
    ⟨ended_of_stop rfl (by simp), forall_split_cons.mpr ⟨ended_of_stop rfl (by simp),
      forall_split_cons.mpr ⟨ended_of_exit 43 _, forall_split_cons.mpr
        ⟨ended_of_exit 42 _, forall_split_nil⟩⟩⟩⟩⟩

theorem lateRun_nothingLeft : NothingLeft withHelper lateRun := by
  refine nothingLeft_of_stops (by simp [lateRun]) (by simp [lateRun]) (by decide) ?_
  exact forall_split_cons.mpr ⟨ended_of_stop rfl (by simp), forall_split_cons.mpr
    ⟨ended_of_stop rfl (by simp), forall_split_cons.mpr ⟨ended_of_exit 43 _,
      forall_split_cons.mpr ⟨ended_of_stop rfl (by simp), forall_split_cons.mpr
        ⟨ended_of_exit 42 _, forall_split_nil⟩⟩⟩⟩⟩

/-- Every fork event of the orderly run comes before the end of the child. -/
theorem earlyRun_early : ∀ before o after, earlyRun = before ++ o :: after →
    ¬ LateAnnouncement withHelper o after := by
  have hnone : ∀ {o : Observation} {after : List Observation}, announced withHelper o = none →
      ¬ LateAnnouncement withHelper o after := by
    rintro o after hnone ⟨child, hannounced, -⟩
    rw [hnone] at hannounced
    cases hannounced
  have hfork : ¬ LateAnnouncement withHelper forkEvent [exitOf 43, exitOf 42] := by
    rintro ⟨child, hannounced, hafter⟩
    obtain rfl := Option.some.inj hannounced
    exact hafter (exitOf 43) List.mem_cons_self rfl
  exact forall_split_cons.mpr ⟨hnone rfl, forall_split_cons.mpr ⟨hnone rfl, forall_split_cons.mpr
    ⟨hfork, forall_split_cons.mpr ⟨hnone rfl, forall_split_cons.mpr ⟨hnone rfl,
      forall_split_nil⟩⟩⟩⟩⟩

theorem earlyRun_ends : waits .x86_64 withHelper 1000 earlyRun = none :=
  (run_ends_with_container .x86_64 withHelper 1000 earlyRun (by decide) earlyRun_nothingLeft).1
    earlyRun_early

/-- **The late order**: everything of the container has ended, and the collector goes on to wait for
the helper, and does not end when that does. -/
theorem lateRun_waits : NothingLeft withHelper lateRun ∧
    (waits .x86_64 withHelper 1000 lateRun).map (fun c ↦ (c.rootExited, c.tracees.toList)) =
      some (true, [43]) ∧
    (waits .x86_64 withHelper 1000 (lateRun ++ [exitOf 50])).isSome = true :=
  ⟨lateRun_nothingLeft, rfl, rfl⟩

end CrunRs.Seccomp
