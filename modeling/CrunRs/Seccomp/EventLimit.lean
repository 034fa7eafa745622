import CrunRs.Seccomp.Bookkeeping

/-!
# The event limit

`seccomp/collector.rs`: `max_events`.  After every event of a process of the container the number of
recorded calls is compared with the limit; from the limit on, the capture is marked truncated, and
the collector goes on to record.  A call is left out of the capture for another reason: its process
can be gone before its number is read.

So with the limit reached the capture says that calls are missing although none is, and it holds more
calls than the limit allows; `limit_honoured_iff` says when it is as it should be.
-/

set_option autoImplicit false

namespace CrunRs.Seccomp

open Lifecycle

/-! ## What is trapped -/

/-- A process of the container is stopped by an event. -/
def isEvent (options : CollectorOptions) (o : Observation) : Bool :=
  match o.wait with
  | .status (.ptraceEvent pid _ _) => pid ∉ options.excludePids
  | _ => false

/-- A call of the container is trapped. -/
def trapsCall (options : CollectorOptions) (o : Observation) : Bool :=
  match o.wait with
  | .status (.ptraceEvent pid _ event) => event = ptraceEventSeccomp ∧ pid ∉ options.excludePids
  | _ => false

/-- A call of the container is trapped, and its number cannot be read. -/
def losesCall (options : CollectorOptions) (o : Observation) : Bool :=
  trapsCall options o && (trappedCall options o).isNone

/-- What `max_events` promises of a capture: it has no more calls than the limit, and is marked
exactly if a call is missing from it. -/
structure LimitHonoured (options : CollectorOptions) (limit : UInt64)
    (observations : List Observation) (capture : Capture) : Prop where
  events : capture.events ≤ limit
  truncated : capture.truncated = true ↔ ∃ o ∈ observations, losesCall options o = true

/-- The limit is not reached and no call is lost, or it is not passed (as a `u64`) and one is. -/
def WithinLimit (options : CollectorOptions) (limit : UInt64) (observations : List Observation) :
    Prop :=
  ((trappedCalls options observations).length < limit.toNat ∧
    ∀ o ∈ observations, losesCall options o = false) ∨
  limit.toNat ≤ (trappedCalls options observations).length ∧
    (trappedCalls options observations).length % 2 ^ 64 ≤ limit.toNat ∧
    ((∃ o ∈ observations, isEvent options o = true) → ∃ o ∈ observations, losesCall options o = true)

/-! ## One round -/

namespace Collector

variable {t : Target} {options : CollectorOptions} {c c' : Collector} {o : Observation}

theorem handleEvent_truncated {event : Int} (h : c.handleEvent t event o = .ok c') :
    c'.capture.truncated = c.capture.truncated := by
  unfold handleEvent at h
  split at h
  · split at h
    · obtain rfl := Except.ok.inj h
      split <;> rfl
    · obtain rfl := Except.ok.inj h
      rfl
    · cases h
  · split at h
    · split at h
      · obtain rfl := Except.ok.inj h
        rw [addTracee]
        split <;> rfl
      · obtain rfl := Except.ok.inj h
        rfl
      · cases h
    · obtain rfl := Except.ok.inj h
      rfl

theorem checkLimit_capture (options : CollectorOptions) (c : Collector) :
    (c.checkLimit options).capture.events = c.capture.events ∧
      (c.checkLimit options).capture.truncated =
        (c.capture.truncated || options.maxEvents.any fun limit ↦ limit ≤ c.capture.events) := by
  rw [checkLimit]
  split
  · rename_i hreached
    exact ⟨rfl, by rw [hreached, Bool.or_true]⟩
  · rename_i hnot
    exact ⟨rfl, by rw [Bool.eq_false_iff.mpr hnot, Bool.or_false]⟩

/-- **The limit is looked at after every event**, and after nothing else. -/
theorem round_truncated (h : (c.round t options o).collector = some c') :
    c'.capture.truncated = (c.capture.truncated ||
      isEvent options o && options.maxEvents.any fun limit ↦ limit ≤ c'.capture.events) := by
  have hquiet : isEvent options o = false → c'.capture.truncated = c.capture.truncated →
      c'.capture.truncated = (c.capture.truncated ||
        isEvent options o && options.maxEvents.any fun limit ↦ limit ≤ c'.capture.events) := by
    intro hevent heq
    rw [hevent, Bool.false_and, Bool.or_false, heq]
  have hother : ∀ {status}, o.wait = .status status →
      (∀ pid signal event, status = .ptraceEvent pid signal event → pid ∈ options.excludePids) →
      isEvent options o = false := by
    intro status hwait hevent
    rw [isEvent, hwait]
    split
    · rename_i heq
      exact decide_eq_false fun hincluded ↦ hincluded (hevent _ _ _ (Wait.status.inj heq))
    · rfl
  rcases round_cases h with ⟨hwait, -, rfl⟩ | ⟨hwait | ⟨status, hwait, hpid⟩, -, rfl⟩ |
    ⟨status, pid, others, hwait, hpid, hexcluded, -, rfl⟩ |
    ⟨status, pid, hwait, hpid, hincluded, hround⟩
  · exact hquiet (by rw [isEvent, hwait]) rfl
  · exact hquiet (by rw [isEvent, hwait]) rfl
  · refine hquiet (hother hwait ?_) rfl
    rintro pid signal event rfl
    cases hpid
  · refine hquiet (hother hwait ?_) rfl
    rintro pid' signal event rfl
    rwa [Option.some.inj hpid]
  · rw [hround] at h
    cases hterminal : isTerminal status with
    | true =>
      obtain ⟨⟨rootStatus, rootExited, rfl⟩, -, -⟩ := dispatch_end hterminal h
      refine hquiet (hother hwait ?_) rfl
      rintro pid' signal event rfl
      cases hterminal
    | false =>
      obtain ⟨-, ⟨signal, event, c₁, rfl, hevent, rfl⟩ | ⟨signal, rfl, hstop⟩ | ⟨hnot, -, rfl⟩⟩ :=
        dispatch_cases hpid hterminal h
      · have hisEvent : isEvent options o = true := by
          rw [isEvent, hwait]
          exact decide_eq_true hincluded
        obtain ⟨hevents, htruncated⟩ := checkLimit_capture options c₁
        rw [resume, hisEvent, Bool.true_and, htruncated, hevents, handleEvent_truncated hevent]
      · have hstopped : isEvent options o = false := by
          refine hother hwait ?_
          intro pid' signal' event heq
          cases heq
        refine hquiet hstopped ?_
        rcases hstop with ⟨-, -, rfl⟩ | ⟨-, -, rfl⟩ | ⟨-, -, rfl⟩
        · rfl
        · rw [resume, addTracee]
          split <;> rfl
        · rfl
      · refine hquiet (hother hwait ?_) rfl
        rintro pid' signal event rfl
        obtain rfl : pid' = pid := Option.some.inj hpid
        exact absurd rfl (hnot signal event)

end Collector

/-! ## A whole run -/

section

variable {options : CollectorOptions} {o : Observation}

theorem isEvent_of_trapsCall (h : trapsCall options o = true) : isEvent options o = true := by
  rw [trapsCall] at h
  split at h
  · rename_i hwait
    rw [isEvent, hwait]
    exact decide_eq_true (of_decide_eq_true h).2
  · cases h

/-- A call that is recorded was trapped. -/
theorem trapsCall_of_trappedCall {registers : Registers}
    (h : trappedCall options o = some registers) : trapsCall options o = true := by
  rw [trappedCall] at h
  split at h
  · rename_i hwait _
    rw [trapsCall, hwait]
    exact decide_eq_true (Option.ite_none_right_eq_some.mp h).1
  · cases h

/-- Without an event, no call is recorded. -/
theorem trappedCalls_eq_nil {observations : List Observation}
    (h : observations.any (isEvent options) = false) : trappedCalls options observations = [] := by
  rw [trappedCalls, List.filterMap_eq_nil_iff]
  intro o hmem
  rw [Option.eq_none_iff_forall_ne_some]
  intro registers hcall
  have hevent := isEvent_of_trapsCall (trapsCall_of_trappedCall hcall)
  exact List.any_eq_false.mp h o hmem hevent

theorem losesCall_iff : losesCall options o = true ↔
    trapsCall options o = true ∧ trappedCall options o = none := by
  rw [losesCall, Bool.and_eq_true, Option.isNone_iff_eq_none]

end

/-- What the collector knows of the limit. -/
structure Limited (options : CollectorOptions) (limit : UInt64) (consumed : List Observation)
    (c : Collector) : Prop where
  events : c.capture.events = UInt64.ofNat (trappedCalls options consumed).length
  truncated : c.capture.truncated = true ↔ consumed.any (isEvent options) = true ∧
    limit.toNat ≤ (trappedCalls options consumed).length

variable {t : Target} {options : CollectorOptions} {limit : UInt64}
  {consumed observations rest : List Observation} {c c' : Collector} {o : Observation}

/-- **A round keeps to that.**  The limit is reached at an event, and once it is it stays so. -/
theorem Limited.round (hlimit : options.maxEvents = some limit) (h : Limited options limit consumed c)
    (hround : (c.round t options o).collector = some c') :
    Limited options limit (consumed ++ [o]) c' := by
  have hcalls : trappedCalls options (consumed ++ [o]) =
      trappedCalls options consumed ++ (trappedCall options o).toList :=
    filterMap_concat (trappedCall options) consumed o
  have hevents : c'.capture.events =
      UInt64.ofNat (trappedCalls options (consumed ++ [o])).length := by
    obtain ⟨processesSeen, truncated, heq⟩ := Collector.round_sameCalls hround
    rw [hcalls, List.length_append, UInt64.ofNat_add, ← h.events, heq, recorded]
    cases trappedCall options o with
    | none => exact (UInt64.add_zero _).symm
    | some registers => rfl
  refine ⟨hevents, ?_⟩
  rw [Collector.round_truncated hround, Bool.or_eq_true, Bool.and_eq_true, hlimit, Option.any_some,
    decide_eq_true_iff, UInt64.le_iff_toNat_le, hevents, UInt64.toNat_ofNat', h.truncated,
    List.any_append, Bool.or_eq_true, List.any_cons, List.any_nil, Bool.or_false, hcalls,
    List.length_append]
  cases hcall : trappedCall options o with
  | none =>
    have hmod := Nat.mod_le (trappedCalls options consumed).length (2 ^ 64)
    simp only [Option.toList_none, List.length_nil, Nat.add_zero]
    constructor
    · rintro (⟨hany, hle⟩ | ⟨hevent, hle⟩)
      · exact ⟨Or.inl hany, hle⟩
      · exact ⟨Or.inr hevent, hle.trans hmod⟩
    · rintro ⟨hevent, hle⟩
      cases hany : consumed.any (isEvent options) with
      | true => exact Or.inl ⟨rfl, hle⟩
      | false =>
        -- nothing is recorded before the first event, so the limit is 0
        rw [trappedCalls_eq_nil hany] at hle
        refine Or.inr ⟨hevent.resolve_left ?_, hle.trans (Nat.zero_le _)⟩
        rw [hany]
        exact Bool.false_ne_true
  | some registers =>
    have hevent := isEvent_of_trapsCall (trapsCall_of_trappedCall hcall)
    have hsmall := limit.toNat_lt
    simp only [Option.toList_some, List.length_singleton, hevent, or_true, true_and]
    constructor
    · rintro (⟨-, hle⟩ | hle)
      · exact hle.trans (Nat.le_succ _)
      · exact hle.trans (Nat.mod_le _ _)
    · intro hle
      by_cases hbefore : limit.toNat ≤ (trappedCalls options consumed).length
      · cases hany : consumed.any (isEvent options) with
        | true => exact Or.inl ⟨rfl, hbefore⟩
        | false =>
          rw [trappedCalls_eq_nil hany] at hbefore
          exact Or.inr (hbefore.trans (Nat.zero_le _))
      · -- this call is the one that reaches the limit
        rw [Nat.mod_eq_of_lt (by omega)]
        exact Or.inr hle

/-- **The capture has every call whose number could be read, and is marked from the limit on.** -/
theorem collectorRun_limited {startedAtUnix durationMs : UInt64}
    (hlimit : options.maxEvents = some limit)
    (h : collectorRun t options startedAtUnix durationMs observations = .ok (c, rest)) :
    ∃ consumed, observations = consumed ++ rest ∧ Limited options limit consumed c := by
  have hstart : Limited options limit [] { capture := newCapture t startedAtUnix } :=
    ⟨rfl, by simp [newCapture]⟩
  obtain ⟨consumed, c', hconsumed, hlimited, rfl⟩ := collectorRun_invariant
    (P := Limited options limit)
    (fun before c o c' hlimited hround ↦ hlimited.round hlimit hround) hstart h
  exact ⟨consumed, hconsumed, hlimited.events, hlimited.truncated⟩

/-- **The limit is honoured** exactly if fewer calls than that are recorded and none is lost, or no
more than that and one is. -/
theorem limit_honoured_iff (t : Target) (options : CollectorOptions) (limit : UInt64)
    (startedAtUnix durationMs : UInt64) (observations rest : List Observation) (c : Collector)
    (hlimit : options.maxEvents = some limit)
    (h : collectorRun t options startedAtUnix durationMs observations = .ok (c, rest)) :
    ∃ consumed, observations = consumed ++ rest ∧
      (LimitHonoured options limit consumed c.capture ↔ WithinLimit options limit consumed) := by
  obtain ⟨consumed, hconsumed, hevents, htruncated⟩ := collectorRun_limited hlimit h
  refine ⟨consumed, hconsumed, ?_⟩
  have hlost : (∃ o ∈ consumed, losesCall options o = true) →
      ∃ o ∈ consumed, isEvent options o = true := by
    rintro ⟨o, hmem, hloses⟩
    exact ⟨o, hmem, isEvent_of_trapsCall (losesCall_iff.mp hloses).1⟩
  have hnone : (∀ o ∈ consumed, losesCall options o = false) ↔
      ¬ ∃ o ∈ consumed, losesCall options o = true := by
    simp
  have hmod := Nat.mod_le (trappedCalls options consumed).length (2 ^ 64)
  rw [List.any_eq_true] at htruncated
  rw [WithinLimit, hnone]
  constructor
  · rintro ⟨hle, hmarked⟩
    rw [hevents, UInt64.le_iff_toNat_le, UInt64.toNat_ofNat'] at hle
    rw [htruncated] at hmarked
    by_cases hreached : limit.toNat ≤ (trappedCalls options consumed).length
    · exact Or.inr ⟨hreached, hle, fun hevent ↦ hmarked.mp ⟨hevent, hreached⟩⟩
    · exact Or.inl ⟨not_le.mp hreached, fun hloses ↦ hreached (hmarked.mpr hloses).2⟩
  · rintro (⟨hfew, hkept⟩ | ⟨hreached, hle, hloses⟩)
    · refine ⟨?_, ?_⟩
      · rw [hevents, UInt64.le_iff_toNat_le, UInt64.toNat_ofNat']
        omega
      · rw [htruncated]
        exact iff_of_false (fun hmarked ↦ absurd hmarked.2 (not_le.mpr hfew)) hkept
    · refine ⟨?_, ?_⟩
      · rwa [hevents, UInt64.le_iff_toNat_le, UInt64.toNat_ofNat']
      · rw [htruncated]
        exact ⟨fun hmarked ↦ hloses hmarked.1, fun hlost' ↦ ⟨hlost hlost', hreached⟩⟩

/-- Process 42 is traced with a limit. -/
def limitedTo (limit : UInt64) : CollectorOptions := { rootPid := 42, maxEvents := some limit }

def limitedEnd (limit : UInt64) : Collector :=
  ((collectorRun .x86_64 (limitedTo limit) 1000 5 (oneCall ⟨0xc000003e, 0⟩)).toOption.map
    Prod.fst).getD { capture := {} }

/-- A run that looks at all of the observations ends with the collector it is left with. -/
theorem eq_ok_of_isEmpty {run : Except String (Collector × List Observation)}
    (h : (run.toOption.map fun ended ↦ ended.2.isEmpty) = some true) :
    run = .ok ((run.toOption.map Prod.fst).getD { capture := {} }, []) := by
  cases run with
  | error e => cases h
  | ok ended => rw [← List.isEmpty_iff.mp (Option.some.inj h)]; rfl

theorem limitedTo_two_honoured : ∃ consumed, oneCall ⟨0xc000003e, 0⟩ = consumed ++ [] ∧
    (LimitHonoured (limitedTo 2) 2 consumed (limitedEnd 2).capture ↔
      WithinLimit (limitedTo 2) 2 consumed) :=
  limit_honoured_iff .x86_64 (limitedTo 2) 2 1000 5 (oneCall ⟨0xc000003e, 0⟩) [] (limitedEnd 2)
    rfl (eq_ok_of_isEmpty (by decide +kernel))

/-- **With a limit of one, the one call that is made marks the capture**; and with a limit of none,
it is recorded all the same. -/
theorem limit_not_honoured :
    (collectorRun .x86_64 (limitedTo 1) 1000 5 (oneCall ⟨0xc000003e, 0⟩) = .ok (limitedEnd 1, []) ∧
      (limitedEnd 1).capture.truncated = true ∧
      (∀ o ∈ oneCall ⟨0xc000003e, 0⟩, losesCall (limitedTo 1) o = false) ∧
      ¬ LimitHonoured (limitedTo 1) 1 (oneCall ⟨0xc000003e, 0⟩) (limitedEnd 1).capture) ∧
    collectorRun .x86_64 (limitedTo 0) 1000 5 (oneCall ⟨0xc000003e, 0⟩) = .ok (limitedEnd 0, []) ∧
      (limitedEnd 0).capture.events = 1 ∧
      ¬ LimitHonoured (limitedTo 0) 0 (oneCall ⟨0xc000003e, 0⟩) (limitedEnd 0).capture := by
  have hkept : ∀ o ∈ oneCall ⟨0xc000003e, 0⟩, losesCall (limitedTo 1) o = false := by
    decide +kernel
  have hmarked : (limitedEnd 1).capture.truncated = true := by decide +kernel
  refine ⟨⟨eq_ok_of_isEmpty (by decide +kernel), hmarked, hkept, fun h ↦ ?_⟩,
    eq_ok_of_isEmpty (by decide +kernel), by decide +kernel,
    fun h ↦ absurd h.events (by decide +kernel)⟩
  obtain ⟨o, hmem, hloses⟩ := h.truncated.mp hmarked
  rw [hkept o hmem] at hloses
  cases hloses

end CrunRs.Seccomp
