import CrunRs.Lib.LateReader
import CrunRs.Lifecycle.Finish

/-!
# The error of a child

A child of `run_process` that fails writes its error into a pipe and exits (`write_child_error`), and
the parent reads it (`read_child_error`) — but after `waitpid`, so nobody empties the pipe while the
child writes.  The parent is a reader that starts late.

An error that fits into the pipe is reported, without the white space around it; one that does not
stops the child in its `write` and the parent in its `waitpid` (`child_error_cases`).  The errors quote
what the bundle says, such as the working directory, and that may be of any length.
-/

set_option autoImplicit false

namespace CrunRs.Container

open Lifecycle LateReader

/-- The bytes `write_child_error` writes. -/
def errorBytes (error : String) : List UInt8 := error.toByteArray.data.toList

/-- `read_fd_to_string` reads so many bytes at a time. -/
def readChunk : ℕ := 64

/-- A child with an error, and its parent in front of `waitpid`.  The child closes the pipe when it
exits; the parent reads from when it has been reaped until the end of the file. -/
def errorPipe (error : String) : State UInt8 := LateReader.start (errorBytes error)

/-- What the parent makes of the bytes it has read. -/
def reported (bytes : List UInt8) : Except LifecycleError (Option String) :=
  readChildError (some ⟨bytes.toArray⟩)

/-- The error without the white space around it. -/
def trimmed (error : String) : Option String :=
  if Text.trim error.toList = [] then none else some (String.ofList (Text.trim error.toList))

theorem reported_errorBytes (error : String) : reported (errorBytes error) = .ok (trimmed error) := by
  have hbytes : (⟨(errorBytes error).toArray⟩ : ByteArray) = Text.encode error.toList := by
    rw [errorBytes, Array.toArray_toList, Text.encode, String.ofList_toList]
  rw [reported, hbytes, readChildError, Option.bind_some, Text.decode_encode]
  rfl

/-- **An error is reported whole, or never.**  However the two take their turns: every run is bounded;
one that cannot go on, and in which the child was not killed, has reported the error if it fits into
the pipe, and else the child still writes and the parent still waits for it.  If the child was killed,
the parent has read a beginning of the error. -/
theorem child_error_cases {capacity : ℕ} {error : String} {s : State UInt8} {acts : List Act}
    (hexec : Lts.exec (step capacity readChunk) (errorPipe error) acts = some s) :
    acts.length ≤ 2 * (errorBytes error).length + 3 ∧
      (∀ got, s.reader = .done got → got <+: errorBytes error) ∧
      (.kill ∉ acts → Stuck capacity readChunk s →
        ((errorBytes error).length ≤ capacity →
          ∃ got, s.reader = .done got ∧ reported got = .ok (trimmed error)) ∧
        (capacity < (errorBytes error).length →
          s.writer = .writing ∧ s.left ≠ [] ∧ s.reader = .waiting)) := by
  obtain ⟨hsound, hle⟩ := sound_of_exec (sound_start capacity (errorBytes error)) hexec
  refine ⟨?_, fun got hdone ↦ (prefix_of_done hexec hdone).1, fun hacts hstuck ↦ ?_⟩
  · have hmeasure : measure (errorPipe error) = 2 * (errorBytes error).length + 3 := rfl
    rw [errorPipe] at hmeasure
    omega
  · obtain ⟨hfits, hlong⟩ := maximal_cases (by decide) hacts hexec hstuck
    refine ⟨fun h ↦ ⟨_, hfits h, reported_errorBytes error⟩, fun h ↦ ?_⟩
    obtain ⟨hwriting, hwaiting, hbuffer⟩ := hlong h
    refine ⟨hwriting, fun hleft ↦ ?_, hwaiting⟩
    have hlength := congrArg List.length hsound.whole
    rw [hleft, hwaiting, hbuffer, Reader.got, List.nil_append, List.append_nil, List.length_take]
      at hlength
    omega

/-- An error of five bytes with a line feed at its end: in a pipe for five it is reported without it, and
in one for three both wait. -/
theorem child_error_of_five :
    (∃ s got, Lts.exec (step 5 readChunk) (errorPipe "oops\n")
      [.write 3, .write 2, .close, .start, .read 4, .read 1, .finish] = some s ∧
        Stuck 5 readChunk s ∧ s.reader = .done got ∧ reported got = .ok (trimmed "oops\n") ∧
        trimmed "oops\n" = some "oops") ∧
    ∃ s, Lts.exec (step 3 readChunk) (errorPipe "oops\n") [.write 3] = some s ∧
      Stuck 3 readChunk s ∧ s.writer = .writing ∧ s.left ≠ [] ∧ s.reader = .waiting := by
  have hfive : Lts.exec (step 5 readChunk) (errorPipe "oops\n")
      [.write 3, .write 2, .close, .start, .read 4, .read 1, .finish] =
        some ⟨[], [], .ended, .done [111, 111, 112, 115, 10]⟩ := by decide +kernel
  have hthree : Lts.exec (step 3 readChunk) (errorPipe "oops\n") [.write 3] =
      some ⟨[111, 111, 112], [115, 10], .writing, .waiting⟩ := by decide +kernel
  have hended : Stuck 5 readChunk (⟨[], [], .ended, .done [111, 111, 112, 115, 10]⟩ : State UInt8) :=
    stuck_of_cases (Or.inl ⟨_, rfl, by simp⟩)
  have hfull : Stuck 3 readChunk (⟨[111, 111, 112], [115, 10], .writing, .waiting⟩ : State UInt8) :=
    stuck_of_cases (Or.inr ⟨rfl, rfl, rfl, by simp⟩)
  obtain ⟨got, hgot, hreported⟩ :=
    ((child_error_cases hfive).2.2 (by simp) hended).1 (by decide +kernel)
  exact ⟨⟨_, got, hfive, hended, hgot, hreported, by decide +kernel⟩, _, hthree, hfull,
    ((child_error_cases hthree).2.2 (by simp) hfull).2 (by decide +kernel)⟩

end CrunRs.Container
