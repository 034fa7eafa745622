import CrunRs.Spec
import CrunRs.State.Store

/-!
# Health checks

`health.rs`: run the configured command inside the container until it succeeds or the attempts are
used up, and write the outcome into the container's state.

`run_once` loads the state before the first attempt and saves it, with the outcome added, after the
last one (`record`).  Nothing is read again in between, however long the attempts take.

The time limits of a check are read with a parser of their own.  It splits a text at a byte position
(`durationFromConfigAt`), where always a character starts, and takes exactly the digits and units that
give a positive number of nanoseconds below 2^64 (`durationFromConfigAt_some`).
-/

set_option autoImplicit false

namespace CrunRs.Health

open State

/-! ## The configured check -/

/-- `command_args`. -/
def commandArgs (healthcheck : Healthcheck) : Except HealthcheckError (List String) :=
  match healthcheck.test with
  | [] => .error .emptyTest
  | kind :: rest =>
    if kind = "NONE" then .error .disabled
    else if kind = "CMD" then
      if rest = [] then .error (.missingCommand "CMD") else .ok rest
    else if kind = "CMD-SHELL" then
      if rest = [] then .error (.missingCommand "CMD-SHELL")
      else .ok ["/bin/sh", "-c", " ".intercalate rest]
    else .ok healthcheck.test

/-- `attempts`: the addition saturates. -/
def attempts (healthcheck : Healthcheck) : Nat :=
  min ((healthcheck.retries.getD 0).toNat + 1) 4294967295

/-! ## Durations -/

/-- The nanoseconds in a unit of time. -/
def unitNanos (unit : String) : Option Nat :=
  if unit = "ns" then some 1
  else if unit = "us" ∨ unit = "µs" then some 1000
  else if unit = "ms" then some 1000000
  else if unit = "s" then some 1000000000
  else if unit = "m" then some (60 * 1000000000)
  else if unit = "h" then some (60 * 60 * 1000000000)
  else none

/-- `duration_from_config`, in nanoseconds. -/
def durationFromConfig (raw : Option String) : Except HealthcheckError Nat :=
  match raw with
  | none => .ok (30 * 1000000000)
  | some raw =>
    let raw := Text.trim raw.toList
    let invalid := .error (.invalidTimeout (String.ofList raw))
    -- a value without a unit has nowhere to split
    if raw.all Char.isDigit then invalid
    else match Text.parseU64 (raw.takeWhile Char.isDigit),
        unitNanos (String.ofList (raw.dropWhile Char.isDigit)) with
      | some number, some multiplier =>
        let nanos := number.toNat * multiplier
        -- `checked_mul`, and not zero
        if nanos < UInt64.size ∧ 0 < nanos then .ok nanos else invalid
      | _, _ => invalid

/-- `duration_from_config`, at the byte positions it splits at.  Without a result `split_at` panics. -/
def durationFromConfigAt (raw : Option String) : Option (Except HealthcheckError Nat) :=
  match raw with
  | none => some (.ok (30 * 1000000000))
  | some raw =>
    let raw := Text.trim raw.toList
    let invalid := .error (.invalidTimeout (String.ofList raw))
    match Text.findIf (! Char.isDigit ·) raw with
    | none => some invalid
    | some splitAt => match Text.splitAt splitAt raw with
      | none => none
      | some (number, unit) =>
        some <| match Text.parseU64 number, unitNanos (String.ofList unit) with
          | some number, some multiplier =>
            let nanos := number.toNat * multiplier
            if nanos < UInt64.size ∧ 0 < nanos then .ok nanos else invalid
          | _, _ => invalid

/-- **It splits where a character starts**, also where that is one of several bytes. -/
theorem durationFromConfigAt_eq (raw : Option String) :
    durationFromConfigAt raw = some (durationFromConfig raw) := by
  cases raw with
  | none => rfl
  | some raw =>
    rw [durationFromConfigAt, durationFromConfig]
    cases hfind : Text.findIf (! Char.isDigit ·) (Text.trim raw.toList) with
    | none =>
      have hall : (Text.trim raw.toList).all Char.isDigit = true := List.all_eq_true.mpr fun c hc ↦ by
        simpa using Text.findIf_eq_none_iff.mp hfind c hc
      simp only [hall, if_true]
    | some splitAt =>
      have hall : ¬ (Text.trim raw.toList).all Char.isDigit = true := by
        intro hall
        have hnone : Text.findIf (! Char.isDigit ·) (Text.trim raw.toList) = none :=
          Text.findIf_eq_none_iff.mpr fun c hc ↦ by simpa using List.all_eq_true.mp hall c hc
        rw [hfind] at hnone
        cases hnone
      simp only [Text.splitAt_findIf hfind, Bool.not_not, hall, if_false, Bool.false_eq_true]

/-- The units of a duration, and the nanoseconds in each. -/
def units : List (List Char × Nat) :=
  [(['n', 's'], 1), (['u', 's'], 1000), (['µ', 's'], 1000), (['m', 's'], 1000000),
    (['s'], 1000000000), (['m'], 60000000000), (['h'], 3600000000000)]

theorem unitNanos_eq_some_iff {unit : List Char} {k : Nat} :
    unitNanos (String.ofList unit) = some k ↔ (unit, k) ∈ units := by
  constructor
  · intro h
    have hunit : ∀ s : String, String.ofList unit = s → unit = s.toList := fun s hs ↦ by
      rw [← hs, String.toList_ofList]
    rw [unitNanos] at h
    split_ifs at h with h₁ h₂ h₃ h₄ h₅ h₆
    · rw [hunit _ h₁, ← Option.some.inj h]
      decide
    · rcases h₂ with h₂ | h₂ <;> rw [hunit _ h₂, ← Option.some.inj h] <;> decide
    · rw [hunit _ h₃, ← Option.some.inj h]
      decide
    · rw [hunit _ h₄, ← Option.some.inj h]
      decide
    · rw [hunit _ h₅, ← Option.some.inj h]
      decide
    · rw [hunit _ h₆, ← Option.some.inj h]
      decide
  · intro h
    simp only [units, List.mem_cons, Prod.mk.injEq, List.not_mem_nil, or_false] at h
    rcases h with ⟨rfl, rfl⟩ | ⟨rfl, rfl⟩ | ⟨rfl, rfl⟩ | ⟨rfl, rfl⟩ | ⟨rfl, rfl⟩ | ⟨rfl, rfl⟩ |
      ⟨rfl, rfl⟩ <;>
    decide

/-- A unit does not begin with a digit. -/
theorem exists_cons_of_mem_units {unit : List Char} {k : Nat} (h : (unit, k) ∈ units) :
    ∃ c rest, unit = c :: rest ∧ c.isDigit = false := by
  simp only [units, List.mem_cons, Prod.mk.injEq, List.not_mem_nil, or_false] at h
  rcases h with ⟨rfl, -⟩ | ⟨rfl, -⟩ | ⟨rfl, -⟩ | ⟨rfl, -⟩ | ⟨rfl, -⟩ | ⟨rfl, -⟩ | ⟨rfl, -⟩ <;>
  exact ⟨_, _, rfl, by decide⟩

/-- **Exactly the durations are accepted.** -/
theorem durationFromConfigAt_some (raw : String) :
    ∃ result, durationFromConfigAt (some raw) = some result ∧
      ∀ nanos, result = .ok nanos ↔ ∃ digits unit k,
        Text.trim raw.toList = digits ++ unit ∧ digits ≠ [] ∧ (∀ c ∈ digits, c.isDigit) ∧
        Nat.ofDigitChars 10 digits 0 < UInt64.size ∧ (unit, k) ∈ units ∧
        nanos = Nat.ofDigitChars 10 digits 0 * k ∧ 0 < nanos ∧ nanos < UInt64.size := by
  refine ⟨_, durationFromConfigAt_eq (some raw), fun nanos ↦ ?_⟩
  rw [durationFromConfig]
  generalize Text.trim raw.toList = s
  simp only
  constructor
  · intro h
    split_ifs at h with hall
    have hdigits : ∀ c ∈ s.takeWhile Char.isDigit, c.isDigit := fun c hc ↦ List.mem_takeWhile_imp hc
    have hne : s.takeWhile Char.isDigit ≠ [] := by
      intro hnil
      simp [hnil, show Text.parseU64 [] = none from rfl] at h
    rw [Text.parseU64_of_digits hne hdigits] at h
    split_ifs at h with hnumber
    cases hunit : unitNanos (String.ofList (s.dropWhile Char.isDigit)) with
    | none => simp [hunit] at h
    | some k =>
      simp only [hunit, UInt64.toNat_ofNat_of_lt' hnumber] at h
      split_ifs at h with hbounds
      obtain rfl := Except.ok.inj h
      exact ⟨_, _, k, List.takeWhile_append_dropWhile.symm, hne, hdigits, hnumber,
        unitNanos_eq_some_iff.mp hunit, rfl, hbounds.2, hbounds.1⟩
  · rintro ⟨digits, unit, k, rfl, hne, hdigits, hnumber, hunit, rfl, hpos, hlt⟩
    obtain ⟨c, rest, hcons, hc⟩ := exists_cons_of_mem_units hunit
    have htake : (digits ++ unit).takeWhile Char.isDigit = digits := by
      rw [List.takeWhile_append_of_pos hdigits, hcons, List.takeWhile_cons_of_neg (by simp [hc]),
        List.append_nil]
    have hdrop : (digits ++ unit).dropWhile Char.isDigit = unit := by
      rw [List.dropWhile_append_of_pos hdigits, hcons, List.dropWhile_cons_of_neg (by simp [hc])]
    have hall : ¬ (digits ++ unit).all Char.isDigit = true := by
      simp [hcons, hc]
    rw [if_neg hall, htake, hdrop, Text.parseU64_of_digits hne hdigits, if_pos hnumber,
      unitNanos_eq_some_iff.mpr hunit]
    simp only [UInt64.toNat_ofNat_of_lt' hnumber]
    rw [if_pos ⟨hlt, hpos⟩]

/-! ## One check -/

/-- `parse_security_profile`, as far as it can fail. -/
def checkSecurityProfile (value : String) : Except HealthRunError Unit :=
  if value = "denylist" ∨ value = "default" ∨ value = "unconfined" then .ok ()
  else .error (.invalidSecurityProfile value)

/-- `ExecExit`, and `ExecReport` too. -/
structure ExecExit where
  code : Option Int
  signal : Option String
  deriving DecidableEq, Repr

def ExecExit.healthy (exit : ExecExit) : Bool := exit.code = some 0 && exit.signal.isNone

/-- What `run_once` meets between the load and the save. -/
structure Probe where
  /-- The `healthcheck` entry of the bundle's configuration. -/
  healthcheck : Except HealthRunError (Option Healthcheck)
  /-- How the exec session number `n` ends. -/
  exec : Nat → Except HealthRunError ExecExit
  /-- The clock when the attempts are over, for the check and for the state. -/
  checkedAtUnix : UInt64
  now : Option UInt64

/-- The loop of `run_once`: at most so many more attempts after `made`, up to the first that is
healthy. -/
def runAttempts (exec : Nat → Except HealthRunError ExecExit) :
    Nat → Nat → Option ExecExit → Except HealthRunError (Nat × Option ExecExit)
  | 0, made, exit => .ok (made, exit)
  | left + 1, made, _ => match exec made with
    | .error e => .error e
    | .ok current =>
      if current.healthy then .ok (made + 1, some current)
      else runAttempts exec left (made + 1) (some current)

/-- The beginning of `run_once`: the state has to be running and have a pid. -/
def target (id : String) (state : ContainerState) : Except HealthRunError Int :=
  if state.status ≠ .running then .error (.containerNotRunning id)
  else match state.pid with
    | none => .error (.containerHasNoPid id)
    | some pid => .ok pid

/-- The middle of `run_once`: the number of attempts and the outcome. -/
def probe (p : Probe) (state : ContainerState) : Except HealthRunError (Nat × HealthState) :=
  match p.healthcheck with
  | .error e => .error e
  | .ok none => .error .noHealthcheckConfigured
  | .ok (some healthcheck) => do
    let args ← (commandArgs healthcheck).mapError .healthcheck
    checkSecurityProfile state.securityProfile
    let _ ← (durationFromConfig healthcheck.timeout).mapError .healthcheck
    match ← runAttempts p.exec (attempts healthcheck) 0 none with
    | (_, none) => .error .healthcheckDidNotRun
    | (made, some exit) =>
      .ok (made,
        { status := if exit.healthy then "healthy" else "unhealthy"
          exitCode := exit.code
          signal := exit.signal
          command := args
          checkedAtUnix := p.checkedAtUnix })

/-- The end of `run_once`, up to the save: the loaded state with the outcome in it. -/
def record (p : Probe) (state : ContainerState) :
    Except HealthRunError (ContainerState × Nat × HealthState) :=
  match probe p state with
  | .error e => .error e
  | .ok (made, health) => match state.markHealth p.now health with
    | (_, .error e) => .error (.state e)
    | (state, .ok ()) => .ok (state, made, health)

/-- `run_once`: the file it leaves, and the attempts and the outcome it returns. -/
def runOnce (host : Host) (faults : StoreFaults) (id : String) (p : Probe) (file : StateFile) :
    StateFile × Except HealthRunError (Nat × HealthState) :=
  let load := loadCurrentFrom host faults id file
  match load.result with
  | .error e => (load.file, .error (.state e))
  | .ok state => match target id state with
    | .error e => (load.file, .error e)
    | .ok _ => match record p state with
      | .error e => (load.file, .error e)
      | .ok (state, outcome) => match saveTo faults load.file state with
        | (file, .error e) => (file, .error (.state e))
        | (file, .ok ()) => (file, .ok outcome)

/-! ## What it leaves alone -/

theorem target_eq_ok {id : String} {state : ContainerState} {pid : Int}
    (h : target id state = .ok pid) : state.status = .running ∧ state.pid = some pid := by
  unfold target at h
  split at h
  · simp at h
  · rename_i hstatus
    refine ⟨not_not.mp hstatus, ?_⟩
    split at h
    · simp at h
    · rename_i hpid
      rw [hpid]
      exact congrArg some (Except.ok.inj h)

/-- The record that is saved is the one that was loaded, with the outcome in it. -/
theorem record_eq_ok {p : Probe} {state new : ContainerState} {outcome : Nat × HealthState}
    (h : record p state = .ok (new, outcome)) :
    ∃ health, state.markHealth p.now health = (new, .ok ()) := by
  unfold record at h
  split at h
  · simp at h
  · split at h
    · simp at h
    · rename_i hmark
      cases h
      exact ⟨_, hmark⟩

theorem record_status {p : Probe} {state new : ContainerState} {outcome : Nat × HealthState}
    (h : record p state = .ok (new, outcome)) : new.status = state.status := by
  obtain ⟨health, hmark⟩ := record_eq_ok h
  exact (ContainerState.markHealth_eq hmark).1

end CrunRs.Health
