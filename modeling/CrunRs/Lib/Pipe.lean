import Mathlib.Data.List.Basic

/-!
# Pipes

A pipe between two processes, each of which holds one end: the bytes in it, and which of the ends are
open.  A read waits as long as the pipe is empty and the other end is open; once that is closed, it
returns the end of the file.  So a reader that takes everything up to the end of the file cannot tell
a writer that said nothing and closed from one that went away before it could say anything.
-/

set_option autoImplicit false

structure Pipe where
  buffer : List UInt8 := []
  /-- Is the write end open? -/
  writer : Bool := true
  /-- Is the read end open? -/
  reader : Bool := true

namespace Pipe

/-- How a read turns out. -/
inductive ReadResult
  | blocked
  | eof
  | data (bytes : List UInt8) (rest : Pipe)

/-- Read at most `count` bytes. -/
def read (p : Pipe) (count : Nat) : ReadResult :=
  if p.buffer = [] then if p.writer then .blocked else .eof
  else .data (p.buffer.take count) { p with buffer := p.buffer.drop count }

/-- Write all of some bytes, which fails if nobody can read them.  Writing nothing always works. -/
def write (p : Pipe) (bytes : List UInt8) : Option Pipe :=
  if bytes = [] ∨ p.reader then some { p with buffer := p.buffer ++ bytes } else none

def closeWriter (p : Pipe) : Pipe := { p with writer := false }

def closeReader (p : Pipe) : Pipe := { p with reader := false }

/-- The end of the file is an empty pipe without a writer. -/
theorem read_eq_eof_iff {p : Pipe} {count : Nat} :
    p.read count = .eof ↔ p.buffer = [] ∧ p.writer = false := by
  unfold read
  split
  · split <;> simp_all
  · simp_all

/-- Data comes from a pipe that is not empty, and the ends stay as they are. -/
theorem read_eq_data {p rest : Pipe} {count : Nat} {bytes : List UInt8}
    (h : p.read count = .data bytes rest) : p.buffer ≠ [] ∧ rest.writer = p.writer := by
  unfold read at h
  split at h
  · split at h <;> cases h
  · rename_i hbuffer
    cases h
    exact ⟨hbuffer, rfl⟩

end Pipe
