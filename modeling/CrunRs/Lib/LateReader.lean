import CrunRs.Lib.Lts
import Mathlib.Data.List.Basic

/-!
# A reader that starts late

A writer puts a message into a bounded buffer, and a reader takes it out again, but starts only once
the writer has ended.  Each takes as much at a time as it likes, or as there is room for.

Everything that has not been read is in the buffer or still to be written (`Sound`), and every step
makes progress (`sound_of_exec`).  So a run ends, and where it ends without the writer being
killed depends on one number only: a message that fits is delivered whole, and one that does not leaves
the writer in the middle of a write and the reader waiting for it, for ever (`maximal_cases`).
-/

set_option autoImplicit false

namespace LateReader

universe u

variable {α : Type u}

inductive Writer
  | writing
  | ended
  | killed
  deriving DecidableEq, Repr

inductive Reader (α : Type u)
  | waiting
  | reading (got : List α)
  | done (got : List α)
  deriving DecidableEq, Repr

structure State (α : Type u) where
  buffer : List α
  /-- What is still to be written. -/
  left : List α
  writer : Writer
  reader : Reader α
  deriving DecidableEq, Repr

/-- What can happen.  The writer can also be killed; the reader sees the end once nobody can write any
more and the buffer is empty. -/
inductive Act
  | write (count : ℕ)
  | close
  | kill
  | start
  | read (count : ℕ)
  | finish
  deriving DecidableEq, Repr

/-- The writer is about to write the message. -/
def start (message : List α) : State α := ⟨[], message, .writing, .waiting⟩

def write (capacity count : ℕ) (s : State α) : Option (State α) :=
  if s.writer = .writing ∧ 0 < count ∧ count ≤ s.left.length ∧ s.buffer.length + count ≤ capacity then
    some { s with buffer := s.buffer ++ s.left.take count, left := s.left.drop count }
  else none

def close (s : State α) : Option (State α) :=
  if s.writer = .writing ∧ s.left = [] then some { s with writer := .ended } else none

def kill (s : State α) : Option (State α) :=
  if s.writer = .writing then some { s with writer := .killed } else none

def startReader (s : State α) : Option (State α) :=
  match s.reader with
  | .waiting => if s.writer ≠ .writing then some { s with reader := .reading [] } else none
  | _ => none

def read (chunk count : ℕ) (s : State α) : Option (State α) :=
  match s.reader with
  | .reading got =>
    if 0 < count ∧ count ≤ chunk ∧ count ≤ s.buffer.length then
      some { s with
        reader := .reading (got ++ s.buffer.take count)
        buffer := s.buffer.drop count }
    else none
  | _ => none

def finish (s : State α) : Option (State α) :=
  match s.reader with
  | .reading got => if s.buffer = [] then some { s with reader := .done got } else none
  | _ => none

def step (capacity chunk : ℕ) (s : State α) : Act → Option (State α)
  | .write count => write capacity count s
  | .close => close s
  | .kill => kill s
  | .start => startReader s
  | .read count => read chunk count s
  | .finish => finish s

/-! ## What every state keeps -/

/-- What the reader has. -/
def Reader.got : Reader α → List α
  | .waiting => []
  | .reading got => got
  | .done got => got

/-- Nothing is lost on the way, and the reader has waited. -/
structure Sound (capacity : ℕ) (message : List α) (s : State α) : Prop where
  whole : s.reader.got ++ s.buffer ++ s.left = message
  room : s.reader.got.length + s.buffer.length ≤ capacity
  ended : s.writer = .ended → s.left = []
  late : s.writer = .writing → s.reader = .waiting
  emptied : ∀ got, s.reader = .done got → s.buffer = []

theorem sound_start (capacity : ℕ) (message : List α) : Sound capacity message (start message) where
  whole := rfl
  room := Nat.zero_le _
  ended := by simp [start]
  late := fun _ ↦ rfl
  emptied := by simp [start]

/-- How much is left to do. -/
def measure (s : State α) : ℕ :=
  2 * s.left.length + s.buffer.length + (if s.writer = .writing then 1 else 0) +
    match s.reader with
    | .waiting => 2
    | .reading _ => 1
    | .done _ => 0

/-- **One step** keeps what is to be kept, and makes progress. -/
theorem sound_step {capacity chunk : ℕ} {message : List α} {s s' : State α} {a : Act}
    (h : Sound capacity message s) (hstep : step capacity chunk s a = some s') :
    Sound capacity message s' ∧ measure s' < measure s := by
  cases a with
  | write count =>
    simp only [step, write] at hstep
    split at hstep
    · rename_i hcond
      obtain ⟨hwriter, hpos, hleft, hroom⟩ := hcond
      obtain rfl := Option.some.inj hstep
      have hwaiting := h.late hwriter
      refine ⟨⟨?_, ?_, ?_, ?_, ?_⟩, ?_⟩
      · rw [← h.whole]
        simp
      · simp only [hwaiting, Reader.got, List.length_nil, List.length_append, List.length_take]
        omega
      · simp [hwriter]
      · exact fun _ ↦ hwaiting
      · simp [hwaiting]
      · simp only [measure, hwaiting, List.length_append, List.length_take, List.length_drop]
        omega
    · cases hstep
  | close =>
    simp only [step, close] at hstep
    split at hstep
    · rename_i hcond
      obtain rfl := Option.some.inj hstep
      refine ⟨⟨h.whole, h.room, fun _ ↦ hcond.2, by simp, h.emptied⟩, ?_⟩
      simp [measure, hcond.1]
    · cases hstep
  | kill =>
    simp only [step, kill] at hstep
    split at hstep
    · rename_i hcond
      obtain rfl := Option.some.inj hstep
      refine ⟨⟨h.whole, h.room, by simp, by simp, h.emptied⟩, ?_⟩
      simp [measure, hcond]
    · cases hstep
  | start =>
    simp only [step, startReader] at hstep
    split at hstep
    · rename_i hwaiting
      split at hstep
      · rename_i hwriter
        obtain rfl := Option.some.inj hstep
        have hwhole := h.whole
        have hroom := h.room
        rw [hwaiting] at hwhole hroom
        refine ⟨⟨hwhole, hroom, h.ended, fun hw ↦ absurd hw hwriter, by simp⟩, ?_⟩
        simp [measure, hwaiting]
      · cases hstep
    · cases hstep
  | read count =>
    simp only [step, read] at hstep
    split at hstep
    · rename_i got hreading
      split at hstep
      · rename_i hcond
        obtain rfl := Option.some.inj hstep
        have hwhole := h.whole
        have hroom := h.room
        rw [hreading] at hwhole hroom
        refine ⟨⟨?_, ?_, h.ended, fun hw ↦ ?_, by simp⟩, ?_⟩
        · simpa [Reader.got] using hwhole
        · simp only [Reader.got, List.length_append, List.length_take, List.length_drop] at hroom ⊢
          omega
        · rw [h.late hw] at hreading
          cases hreading
        · simp only [measure, hreading, List.length_drop]
          omega
      · cases hstep
    · cases hstep
  | finish =>
    simp only [step, finish] at hstep
    split at hstep
    · rename_i got hreading
      split at hstep
      · rename_i hbuffer
        obtain rfl := Option.some.inj hstep
        have hwhole := h.whole
        have hroom := h.room
        rw [hreading] at hwhole hroom
        refine ⟨⟨hwhole, hroom, h.ended, fun hw ↦ ?_, fun _ _ ↦ hbuffer⟩, ?_⟩
        · rw [h.late hw] at hreading
          cases hreading
        · simp [measure, hreading]
      · cases hstep
    · cases hstep

/-! ## Runs -/

/-- **A run is bounded by the length of the message.** -/
theorem sound_of_exec {capacity chunk : ℕ} {message : List α} {s s' : State α} {acts : List Act}
    (h : Sound capacity message s) (hexec : Lts.exec (step capacity chunk) s acts = some s') :
    Sound capacity message s' ∧ acts.length + measure s' ≤ measure s := by
  induction acts generalizing s with
  | nil =>
    obtain rfl := Option.some.inj hexec
    exact ⟨h, by simp⟩
  | cons a acts ih =>
    obtain ⟨s₁, hstep, hrest⟩ := Lts.exec_cons_eq_some_iff.mp hexec
    obtain ⟨h₁, hless⟩ := sound_step h hstep
    obtain ⟨h', hle⟩ := ih h₁ hrest
    refine ⟨h', ?_⟩
    rw [List.length_cons]
    omega

/-- Without a kill the writer is not killed. -/
theorem writer_ne_killed {capacity chunk : ℕ} {s s' : State α} {acts : List Act}
    (h : s.writer ≠ .killed) (hacts : .kill ∉ acts)
    (hexec : Lts.exec (step capacity chunk) s acts = some s') : s'.writer ≠ .killed := by
  induction acts generalizing s with
  | nil =>
    obtain rfl := Option.some.inj hexec
    exact h
  | cons a acts ih =>
    obtain ⟨s₁, hstep, hrest⟩ := Lts.exec_cons_eq_some_iff.mp hexec
    obtain ⟨ha, hacts⟩ := not_or.mp (List.mem_cons.not.mp hacts)
    refine ih ?_ hacts hrest
    cases a with
    | kill => exact absurd rfl ha
    | write count =>
      simp only [step, write] at hstep
      split at hstep
      · obtain rfl := Option.some.inj hstep
        exact h
      · cases hstep
    | close =>
      simp only [step, close] at hstep
      split at hstep
      · obtain rfl := Option.some.inj hstep
        simp
      · cases hstep
    | start =>
      simp only [step, startReader] at hstep
      split at hstep
      · split at hstep
        · obtain rfl := Option.some.inj hstep
          exact h
        · cases hstep
      · cases hstep
    | read count =>
      simp only [step, read] at hstep
      split at hstep
      · split at hstep
        · obtain rfl := Option.some.inj hstep
          exact h
        · cases hstep
      · cases hstep
    | finish =>
      simp only [step, finish] at hstep
      split at hstep
      · split at hstep
        · obtain rfl := Option.some.inj hstep
          exact h
        · cases hstep
      · cases hstep

/-- Nothing more can happen, unless the writer is killed. -/
def Stuck (capacity chunk : ℕ) (s : State α) : Prop :=
  ∀ a, a ≠ .kill → step capacity chunk s a = none

/-- Where a run ends. -/
theorem stuck_cases {capacity chunk : ℕ} {message : List α} {s : State α}
    (h : Sound capacity message s) (hchunk : 0 < chunk) (hstuck : Stuck capacity chunk s) :
    (∃ got, s.reader = .done got ∧ s.writer ≠ .writing) ∨
      (s.writer = .writing ∧ s.reader = .waiting ∧ s.buffer.length = capacity ∧ s.left ≠ []) := by
  cases hreader : s.reader with
  | done got =>
    refine Or.inl ⟨got, rfl, fun hw ↦ ?_⟩
    rw [h.late hw] at hreader
    cases hreader
  | reading got =>
    -- there is something to read, or the end
    by_cases hbuffer : s.buffer = []
    · have hfinish := hstuck .finish (by simp)
      simp [step, finish, hreader, hbuffer] at hfinish
    · have hread := hstuck (.read 1) (by simp)
      have hlength := List.length_pos_iff.mpr hbuffer
      have hcount : 0 < 1 ∧ 1 ≤ chunk ∧ 1 ≤ s.buffer.length := ⟨Nat.one_pos, hchunk, hlength⟩
      simp [step, read, hreader, hcount] at hread
  | waiting =>
    right
    have hwriting : s.writer = .writing := by
      by_contra hw
      have hstart := hstuck .start (by simp)
      simp [step, startReader, hreader, hw] at hstart
    have hleft : s.left ≠ [] := by
      intro hleft
      have hclose := hstuck .close (by simp)
      simp [step, close, hwriting, hleft] at hclose
    have hroom := h.room
    rw [hreader, Reader.got, List.length_nil, Nat.zero_add] at hroom
    refine ⟨hwriting, rfl, ?_, hleft⟩
    by_contra hne
    have hwrite := hstuck (.write 1) (by simp)
    have hpos := List.length_pos_iff.mpr hleft
    have hcount : 1 ≤ s.left.length ∧ s.buffer.length + 1 ≤ capacity :=
      ⟨hpos, Nat.lt_of_le_of_ne hroom hne⟩
    simp [step, write, hwriting, hcount] at hwrite

/-- There a run does end: the reader is through, or the writer has no room and the reader waits. -/
theorem stuck_of_cases {capacity chunk : ℕ} {s : State α}
    (h : (∃ got, s.reader = .done got ∧ s.writer ≠ .writing) ∨
      (s.writer = .writing ∧ s.reader = .waiting ∧ s.buffer.length = capacity ∧ s.left ≠ [])) :
    Stuck capacity chunk s := by
  intro a ha
  rcases h with ⟨got, hdone, hwriter⟩ | ⟨hwriting, hwaiting, hfull, hleft⟩
  · cases a with
    | kill => exact absurd rfl ha
    | write count => simp [step, write, hwriter]
    | close => simp [step, close, hwriter]
    | start => simp [step, startReader, hdone]
    | read count => simp [step, read, hdone]
    | finish => simp [step, finish, hdone]
  · cases a with
    | kill => exact absurd rfl ha
    | write count =>
      refine if_neg fun hroom ↦ ?_
      omega
    | close => simp [step, close, hleft]
    | start => simp [step, startReader, hwaiting, hwriting]
    | read count => simp [step, read, hwaiting]
    | finish => simp [step, finish, hwaiting]

/-- **Delivered whole, or never.**  A run without a kill that cannot go on has delivered the message
if it fits; if not, the writer waits for room and the reader for the writer. -/
theorem maximal_cases {capacity chunk : ℕ} {message : List α} {s : State α} {acts : List Act}
    (hchunk : 0 < chunk) (hacts : .kill ∉ acts)
    (hexec : Lts.exec (step capacity chunk) (start message) acts = some s)
    (hstuck : Stuck capacity chunk s) :
    (message.length ≤ capacity → s.reader = .done message) ∧
      (capacity < message.length → s.writer = .writing ∧ s.reader = .waiting ∧
        s.buffer = message.take capacity) := by
  obtain ⟨h, -⟩ := sound_of_exec (sound_start capacity message) hexec
  have hkilled := writer_ne_killed (by simp [start]) hacts hexec
  have hlength := congrArg List.length h.whole
  rw [List.length_append, List.length_append] at hlength
  have hroom := h.room
  rcases stuck_cases h hchunk hstuck with ⟨got, hdone, hwriter⟩ | ⟨hwriting, hwaiting, hfull, hleft⟩
  · have hended : s.writer = .ended := by
      cases hw : s.writer with
      | writing => exact absurd hw hwriter
      | killed => exact absurd hw hkilled
      | ended => rfl
    have hleft := h.ended hended
    have hwhole := h.whole
    rw [hleft, h.emptied got hdone, hdone, Reader.got, List.append_nil, List.append_nil] at hwhole
    subst hwhole
    refine ⟨fun _ ↦ hdone, fun hlong ↦ ?_⟩
    rw [hdone, Reader.got] at hroom
    omega
  · have hpos := List.length_pos_iff.mpr hleft
    have hwhole := h.whole
    rw [hwaiting, Reader.got, List.nil_append] at hwhole
    refine ⟨fun hshort ↦ ?_, fun _ ↦ ⟨hwriting, hwaiting, ?_⟩⟩
    · rw [hwaiting, Reader.got, List.length_nil] at hlength
      omega
    · rw [← hwhole, ← hfull, List.take_left]

/-- Whatever happens, what the reader ends up with is the beginning of the message, and all of it
unless the writer was killed. -/
theorem prefix_of_done {capacity chunk : ℕ} {message got : List α} {s : State α} {acts : List Act}
    (hexec : Lts.exec (step capacity chunk) (start message) acts = some s)
    (hdone : s.reader = .done got) :
    got <+: message ∧ got.length ≤ capacity ∧ (.kill ∉ acts → got = message) := by
  obtain ⟨h, -⟩ := sound_of_exec (sound_start capacity message) hexec
  have hwhole := h.whole
  have hroom := h.room
  rw [h.emptied got hdone, hdone, Reader.got, List.append_nil] at hwhole
  rw [hdone, Reader.got] at hroom
  refine ⟨⟨s.left, hwhole⟩, Nat.le_trans (Nat.le_add_right _ _) hroom, fun hacts ↦ ?_⟩
  have hkilled := writer_ne_killed (by simp [start]) hacts hexec
  have hended : s.writer = .ended := by
    cases hw : s.writer with
    | writing =>
      rw [h.late hw] at hdone
      cases hdone
    | killed => exact absurd hw hkilled
    | ended => rfl
  rw [h.ended hended, List.append_nil] at hwhole
  exact hwhole

end LateReader
