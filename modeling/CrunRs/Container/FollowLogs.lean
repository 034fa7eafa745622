import CrunRs.Lib.Text

/-!
# Following a log

`follow_logs` of `cli_runtime.rs` reads the log of a container over and over, and prints what is behind
the position up to which it has printed.  The log is written by `pump_logs` of
`container/log_helper.rs`, which begins it anew each time the container is started.

While one log grows, nothing is lost and nothing is printed twice: what is printed is what a single
look at its last content that is text would have printed (`follow_contents`).  But the position stays
when the log begins anew.  Then it is a position in another text, where it is behind the end, or hides
what is in front of it, or is inside a character, which panics.  And text that has bytes behind it that
are no text is not printed.  So nothing is lost exactly if only one of the logs has text, and what text
there is has once been all that there was (`follow_loses_nothing_iff`).
-/

set_option autoImplicit false

namespace CrunRs.Container

open Text

/-! ## The follower -/

/-- The position of `follow_logs`, and what it has printed. -/
structure Follower where
  position : ℕ := 0
  printed : List Char := []
  deriving DecidableEq

/-- Print what is behind the position.  Without a result, indexing inside a character has panicked. -/
def Follower.print (f : Follower) (text : List Char) : Option Follower :=
  if byteLength text > f.position then
    (sliceFrom f.position text).map fun tail ↦
      { position := byteLength text, printed := f.printed ++ tail }
  else some f

/-- One round of the loop.  A log that cannot be read as text is passed over. -/
def Follower.round (f : Follower) (content : ByteArray) : Option Follower :=
  match decode content with
  | some text => f.print text
  | none => some f

/-- `follow_logs`, with the contents it finds. -/
def follow (f : Follower) (contents : List ByteArray) : Option Follower :=
  contents.foldlM Follower.round f

/-! ## The log -/

/-- A log, as what has been written to it between one look at it and the next. -/
abbrev Log := List ByteArray

/-- The contents that are found in a log; each extends the one before. -/
def contentsFrom (content : ByteArray) : Log → List ByteArray
  | [] => []
  | chunk :: log => (content ++ chunk) :: contentsFrom (content ++ chunk) log

/-- What is there in the end. -/
def lastContent (content : ByteArray) : Log → ByteArray
  | [] => content
  | chunk :: log => lastContent (content ++ chunk) log

/-- The text of the last content that is text. -/
def seenFrom (seen : List Char) (content : ByteArray) : Log → List Char
  | [] => seen
  | chunk :: log => seenFrom ((decode (content ++ chunk)).getD seen) (content ++ chunk) log

namespace Log

def contents (log : Log) : List ByteArray := contentsFrom .empty log

/-- The text that has been written to a log. -/
def text (log : Log) : List Char := validText (lastContent .empty log)

def seen (log : Log) : List Char := seenFrom [] .empty log

/-- All the text of a log has once been all that was found in it. -/
def Settled (log : Log) : Prop := log.text = [] ∨ encode log.text ∈ log.contents

end Log

/-! ## Printing -/

section Print

variable {f f' : Follower} {s t r : List Char}

@[simp] theorem Follower.print_nil (f : Follower) : f.print [] = some f := by
  rw [print, if_neg (by simp)]

/-- A text that is no longer than the position is not printed. -/
theorem Follower.print_of_le (h : byteLength s ≤ f.position) : f.print s = some f := by
  rw [print, if_neg (Nat.not_lt.mpr h)]

/-- **Printing a text and then more of it** is printing all of it. -/
theorem Follower.print_append (f : Follower) (s r : List Char) :
    (f.print s).bind (Follower.print · (s ++ r)) = f.print (s ++ r) := by
  by_cases hs : byteLength s > f.position
  · have hlong : byteLength (s ++ r) > f.position := by
      rw [byteLength_append]
      omega
    rw [print, if_pos hs, print, if_pos hlong, sliceFrom_append r hs.le]
    cases sliceFrom f.position s with
    | none => rfl
    | some tail =>
      rw [Option.map_some, Option.bind_some, print, sliceFrom_byteLength, Option.map_some,
        Option.map_some, Option.map_some]
      split_ifs with hmore
      · rw [List.append_assoc]
      · have hr : byteLength r = 0 := by
          simp only [byteLength_append] at hmore
          omega
        rw [byteLength_eq_zero_iff.mp hr, List.append_nil, List.append_nil]
  · rw [print_of_le (Nat.not_lt.mp hs), Option.bind_some]

theorem Follower.print_eq_some (h : f.print s = some f') :
    byteLength s ≤ f.position ∧ f' = f ∨
      ∃ before tail, s = before ++ tail ∧ byteLength before = f.position ∧
        f' = { position := byteLength s, printed := f.printed ++ tail } := by
  rw [print] at h
  split_ifs at h with hs
  · obtain ⟨tail, htail, rfl⟩ := Option.map_eq_some_iff.mp h
    obtain ⟨before, hsplit, hbefore⟩ := sliceFrom_eq_some_iff.mp htail
    exact Or.inr ⟨before, tail, hsplit, hbefore, rfl⟩
  · exact Or.inl ⟨Nat.not_lt.mp hs, (Option.some.inj h).symm⟩

theorem Follower.position_print (h : f.print s = some f') :
    f'.position = max f.position (byteLength s) := by
  rcases print_eq_some h with ⟨hle, rfl⟩ | ⟨before, tail, rfl, hbefore, rfl⟩
  · exact (Nat.max_eq_left hle).symm
  · rw [← hbefore, Nat.max_eq_right (by simp)]

/-- As many bytes are printed as the position moves. -/
theorem Follower.printed_print (h : f.print s = some f')
    (hf : byteLength f.printed = f.position) : byteLength f'.printed = f'.position := by
  rcases print_eq_some h with ⟨hle, rfl⟩ | ⟨before, tail, rfl, hbefore, rfl⟩
  · exact hf
  · show byteLength (f.printed ++ tail) = byteLength (before ++ tail)
    rw [byteLength_append, byteLength_append, hf, hbefore]

end Print

/-! ## One log -/

section OneLog

variable {seen : List Char} {content : ByteArray}

/-- What has been seen is in front of what is there. -/
def Begins (seen : List Char) (content : ByteArray) : Prop := ∃ rest, content = encode seen ++ rest

theorem begins_empty : Begins [] .empty := ⟨.empty, rfl⟩

/-- The next look finds more of the same. -/
theorem Begins.next (h : Begins seen content) (chunk : ByteArray) :
    ∃ r, (decode (content ++ chunk)).getD seen = seen ++ r ∧
      Begins (seen ++ r) (content ++ chunk) := by
  obtain ⟨rest, rfl⟩ := h
  rw [ByteArray.append_assoc, decode_encode_append]
  cases hdecode : decode (rest ++ chunk) with
  | none =>
    refine ⟨[], ?_, rest ++ chunk, ?_⟩
    · rw [List.append_nil]
      rfl
    · rw [List.append_nil]
  | some r =>
    refine ⟨r, rfl, .empty, ?_⟩
    rw [encode_of_decode hdecode, encode_append, ByteArray.append_empty]

theorem follow_cons (f : Follower) (content : ByteArray) (contents : List ByteArray) :
    follow f (content :: contents) = (f.round content).bind (follow · contents) := rfl

/-- **While a log grows**, the follower prints what a single look at its last text would have
printed. -/
theorem follow_contentsFrom (f : Follower) (log : Log) (h : Begins seen content) :
    (f.print seen).bind (follow · (contentsFrom content log)) =
      f.print (seenFrom seen content log) := by
  induction log generalizing seen content with
  | nil => exact Option.bind_fun_some _
  | cons chunk log ih =>
    obtain ⟨r, hseen, hbegins⟩ := h.next chunk
    have hround : (f.print seen).bind (Follower.round · (content ++ chunk)) =
        f.print (seen ++ r) := by
      cases hdecode : decode (content ++ chunk) with
      | some text =>
        rw [hdecode, Option.getD_some] at hseen
        simp only [Follower.round, hdecode, hseen, Follower.print_append]
      | none =>
        rw [hdecode, Option.getD_none] at hseen
        simp only [Follower.round, hdecode, ← hseen]
        exact Option.bind_fun_some _
    rw [seenFrom, hseen, ← ih hbegins, ← hround, Option.bind_assoc]
    rfl

theorem follow_contents (f : Follower) (log : Log) : follow f log.contents = f.print log.seen := by
  rw [Log.seen, ← follow_contentsFrom f log begins_empty, Follower.print_nil]
  rfl

/-- What has been seen stays. -/
theorem prefix_seenFrom (log : Log) (h : Begins seen content) :
    seen <+: seenFrom seen content log := by
  induction log generalizing seen content with
  | nil => exact List.prefix_rfl
  | cons chunk log ih =>
    obtain ⟨r, hseen, hbegins⟩ := h.next chunk
    rw [seenFrom, hseen]
    exact (List.prefix_append seen r).trans (ih hbegins)

theorem begins_lastContent (log : Log) (h : Begins seen content) :
    Begins (seenFrom seen content log) (lastContent content log) := by
  induction log generalizing seen content with
  | nil => exact h
  | cons chunk log ih =>
    obtain ⟨r, hseen, hbegins⟩ := h.next chunk
    rw [seenFrom, lastContent, hseen]
    exact ih hbegins

/-- A content that is text has been seen. -/
theorem prefix_seenFrom_of_mem {text : List Char} (log : Log) (h : Begins seen content)
    (hmem : encode text ∈ contentsFrom content log) : text <+: seenFrom seen content log := by
  induction log generalizing seen content with
  | nil => exact absurd hmem List.not_mem_nil
  | cons chunk log ih =>
    obtain ⟨r, hseen, hbegins⟩ := h.next chunk
    rw [seenFrom, hseen]
    rcases List.mem_cons.mp hmem with heq | hmem
    · rw [← heq, decode_encode, Option.getD_some] at hseen
      rw [hseen]
      exact prefix_seenFrom log hbegins
    · exact ih hbegins hmem

/-- What is seen has been found, unless it is what there was before. -/
theorem encode_seenFrom_mem (seen : List Char) (content : ByteArray) (log : Log) :
    seenFrom seen content log = seen ∨
      encode (seenFrom seen content log) ∈ contentsFrom content log := by
  induction log generalizing seen content with
  | nil => exact Or.inl rfl
  | cons chunk log ih =>
    rw [seenFrom, contentsFrom]
    rcases ih ((decode (content ++ chunk)).getD seen) (content ++ chunk) with heq | hmem
    · rw [heq]
      cases hdecode : decode (content ++ chunk) with
      | none => exact Or.inl rfl
      | some text =>
        rw [Option.getD_some, ← encode_of_decode hdecode]
        exact Or.inr List.mem_cons_self
    · exact Or.inr (List.mem_cons_of_mem _ hmem)

theorem Log.seen_prefix_text (log : Log) : log.seen <+: log.text := by
  obtain ⟨rest, hrest⟩ := begins_lastContent log begins_empty
  rw [text, hrest, validText_encode_append]
  exact List.prefix_append _ _

/-- **All the text has been seen** exactly if it has once been all that was found. -/
theorem Log.settled_iff (log : Log) : log.Settled ↔ log.seen = log.text := by
  constructor
  · rintro (hempty | hmem)
    · have hfront := log.seen_prefix_text
      rw [hempty, List.prefix_nil] at hfront
      rw [hfront, hempty]
    · have hback := prefix_seenFrom_of_mem log begins_empty hmem
      exact log.seen_prefix_text.eq_of_length_le hback.length_le
  · intro h
    rcases encode_seenFrom_mem [] .empty log with heq | hmem
    · exact Or.inl (h.symm.trans heq)
    · exact Or.inr (h ▸ hmem)

end OneLog

/-! ## Many logs -/

/-- The follower prints the texts one after the other. -/
def printAll (f : Follower) (texts : List (List Char)) : Option Follower :=
  texts.foldlM Follower.print f

theorem printAll_cons (f : Follower) (text : List Char) (texts : List (List Char)) :
    printAll f (text :: texts) = (f.print text).bind (printAll · texts) := rfl

theorem follow_append (f : Follower) (front back : List ByteArray) :
    follow f (front ++ back) = (follow f front).bind (follow · back) :=
  List.foldlM_append

/-- The looks at one log after the other. -/
theorem follow_flatMap (f : Follower) (logs : List Log) :
    follow f (logs.flatMap Log.contents) = printAll f (logs.map Log.seen) := by
  induction logs generalizing f with
  | nil => rfl
  | cons log logs ih =>
    rw [List.flatMap_cons, List.map_cons, follow_append, follow_contents, printAll_cons, funext ih]

section PrintAll

variable {f f' : Follower} {texts : List (List Char)}

/-- Where there is no text, nothing happens. -/
theorem printAll_of_nil (f : Follower) (h : ∀ text ∈ texts, text = []) :
    printAll f texts = some f := by
  induction texts with
  | nil => rfl
  | cons text texts ih =>
    rw [printAll_cons, h text List.mem_cons_self, Follower.print_nil, Option.bind_some,
      ih fun other hother ↦ h other (List.mem_cons_of_mem _ hother)]

/-- As many bytes have been printed as the position has moved, which ends where a text does. -/
theorem printAll_spec (h : printAll f texts = some f') (hf : byteLength f.printed = f.position) :
    byteLength f'.printed = f'.position ∧
      (f'.position = f.position ∨ ∃ text ∈ texts, f'.position = byteLength text) := by
  induction texts generalizing f with
  | nil =>
    obtain rfl : f = f' := Option.some.inj h
    exact ⟨hf, Or.inl rfl⟩
  | cons text texts ih =>
    obtain ⟨g, hg, hrest⟩ := Option.bind_eq_some_iff.mp h
    obtain ⟨hprinted, hposition⟩ := ih hrest (Follower.printed_print hg hf)
    refine ⟨hprinted, ?_⟩
    rcases hposition with hposition | ⟨other, hother, hposition⟩
    · rw [hposition, Follower.position_print hg]
      rcases Nat.le_total (byteLength text) f.position with hle | hle
      · exact Or.inl (Nat.max_eq_left hle)
      · exact Or.inr ⟨text, List.mem_cons_self, Nat.max_eq_right hle⟩
    · exact Or.inr ⟨other, List.mem_cons_of_mem _ hother, hposition⟩

example : printAll {} ["hello\n".toList, "bye\n".toList] =
    some { position := 6, printed := "hello\n".toList } := by decide

/-- If there is only one text, it is printed. -/
theorem printAll_of_pairwise (h : texts.Pairwise fun s t ↦ s = [] ∨ t = []) :
    ∃ f, printAll {} texts = some f ∧ f.printed = texts.flatten := by
  induction texts with
  | nil => exact ⟨{}, rfl, rfl⟩
  | cons text texts ih =>
    obtain ⟨hhead, htail⟩ := List.pairwise_cons.mp h
    by_cases htext : text = []
    · obtain ⟨f, hf, hprinted⟩ := ih htail
      rw [htext, printAll_cons, Follower.print_nil, Option.bind_some]
      exact ⟨f, hf, hprinted⟩
    · have hrest : ∀ other ∈ texts, other = [] := fun other hother ↦
        (hhead other hother).resolve_left htext
      refine ⟨{ position := byteLength text, printed := text }, ?_, ?_⟩
      · have hpos : 0 < byteLength text := Nat.pos_of_ne_zero (mt byteLength_eq_zero_iff.mp htext)
        have hprint : Follower.print {} text =
            some { position := byteLength text, printed := text } := by
          rw [Follower.print, if_pos hpos, sliceFrom, Option.map_some, List.nil_append]
        rw [printAll_cons, hprint, Option.bind_some, printAll_of_nil _ hrest]
      · rw [List.flatten_cons, List.flatten_eq_nil_iff.mpr hrest, List.append_nil]

end PrintAll

/-! ## Nothing is lost -/

/-- All text has been seen, and only one of the logs has any. -/
def OneText (logs : List Log) : Prop :=
  (∀ log ∈ logs, log.Settled) ∧ logs.Pairwise fun a b ↦ a.text = [] ∨ b.text = []

theorem oneText_of_empty {logs : List Log} (h : ∀ log ∈ logs, log.text = []) : OneText logs :=
  ⟨fun log hlog ↦ Or.inl (h log hlog),
    List.pairwise_of_forall_mem_list fun a ha _ _ ↦ Or.inl (h a ha)⟩

/-- As many bytes as are seen of one log are all there are. -/
theorem oneText_of_bytes {front back : List Log} {log : Log}
    (h : byteLength (front.flatMap Log.text) +
      (byteLength log.text + byteLength (back.flatMap Log.text)) = byteLength log.seen) :
    OneText (front ++ log :: back) := by
  obtain ⟨r, hr⟩ := log.seen_prefix_text
  have hlog : byteLength log.text = byteLength log.seen + byteLength r := by
    rw [← hr, byteLength_append]
  have hempty : ∀ logs : List Log, byteLength (logs.flatMap Log.text) = 0 →
      ∀ other ∈ logs, other.text = [] := fun logs hzero ↦
    List.flatMap_eq_nil_iff.mp (byteLength_eq_zero_iff.mp hzero)
  have hfront := hempty front (by omega)
  have hback := hempty back (by omega)
  have hseen : log.seen = log.text := by
    rw [← hr, byteLength_eq_zero_iff.mp (by omega : byteLength r = 0), List.append_nil]
  constructor
  · intro other hother
    rcases List.mem_append.mp hother with hother | hother
    · exact Or.inl (hfront other hother)
    · rcases List.mem_cons.mp hother with rfl | hother
      · exact other.settled_iff.mpr hseen
      · exact Or.inl (hback other hother)
  · rw [List.pairwise_append, List.pairwise_cons]
    refine ⟨(oneText_of_empty hfront).2, ⟨fun other hother ↦ Or.inr (hback other hother),
      (oneText_of_empty hback).2⟩, fun other hother _ _ ↦ Or.inl (hfront other hother)⟩

/-- **Following logs loses nothing** exactly if all the text of each log has once been all that was
found in it, and only one of them has text. -/
theorem follow_loses_nothing_iff (logs : List Log) :
    (∃ f, follow {} (logs.flatMap Log.contents) = some f ∧ f.printed = logs.flatMap Log.text) ↔
      OneText logs := by
  rw [follow_flatMap]
  constructor
  · rintro ⟨f, hf, hprinted⟩
    obtain ⟨hbytes, hposition⟩ := printAll_spec hf rfl
    rw [hprinted] at hbytes
    rcases hposition with hzero | ⟨text, htext, hposition⟩
    · have hempty := byteLength_eq_zero_iff.mp (hbytes.trans hzero)
      exact oneText_of_empty fun log hlog ↦ List.flatMap_eq_nil_iff.mp hempty log hlog
    · obtain ⟨log, hlog, rfl⟩ := List.mem_map.mp htext
      obtain ⟨front, back, rfl⟩ := List.append_of_mem hlog
      refine oneText_of_bytes ?_
      rw [← hposition, ← hbytes, List.flatMap_append, List.flatMap_cons, byteLength_append,
        byteLength_append]
  · rintro ⟨hsettled, hpairwise⟩
    have htexts : logs.map Log.seen = logs.map Log.text :=
      List.map_congr_left fun log hlog ↦ log.settled_iff.mp (hsettled log hlog)
    rw [htexts, List.flatMap_def]
    exact printAll_of_pairwise (List.pairwise_map.mpr hpairwise)

theorem Log.contents_singleton (text : List Char) : contents [encode text] = [encode text] := by
  rw [contents, contentsFrom, contentsFrom, ByteArray.empty_append]

/-- A container says `ab`, and when it is started again, `aé`.  The position is inside the `é`. -/
theorem restarted_log_panics :
    ¬ ∃ f, follow {} ([[encode ['a', 'b']], [encode ['a', 'é']]].flatMap Log.contents) = some f ∧
      f.printed = [[encode ['a', 'b']], [encode ['a', 'é']]].flatMap Log.text := by
  rintro ⟨f, hf, -⟩
  have hpanic : printAll {} [['a', 'b'], ['a', 'é']] = none := by decide
  rw [List.flatMap_cons, List.flatMap_singleton, Log.contents_singleton,
    Log.contents_singleton] at hf
  simp only [List.singleton_append, follow_cons, Follower.round, decode_encode] at hf
  exact absurd (hpanic.symm.trans hf) (by simp)

/-! ## The helper and the follower -/

/-- What happens: `pump_logs` begins a log, or writes a chunk to it; `follow_logs` looks at it. -/
inductive LogEvent
  | create
  | write (chunk : ByteArray)
  | look

/-- The log file, and the follower.  A file that is not there yet is like an empty one. -/
structure LogSystem where
  content : ByteArray := .empty
  follower : Follower := {}

def LogSystem.step (system : LogSystem) : LogEvent → Option LogSystem
  | .create => some { system with content := .empty }
  | .write chunk => some { system with content := system.content ++ chunk }
  | .look => (system.follower.round system.content).map fun f ↦ { system with follower := f }

def LogSystem.run (system : LogSystem) (events : List LogEvent) : Option LogSystem :=
  events.foldlM LogSystem.step system

/-- The logs as they are found: what is written to the last one, but not yet looked at, is pending. -/
def logsFrom (pending : ByteArray) (log : Log) : List LogEvent → List Log
  | [] => [log]
  | .create :: events => log :: logsFrom .empty [] events
  | .write chunk :: events => logsFrom (pending ++ chunk) log events
  | .look :: events => logsFrom .empty (log ++ [pending]) events

theorem contentsFrom_concat (content chunk : ByteArray) (log : Log) :
    contentsFrom content (log ++ [chunk]) =
      contentsFrom content log ++ [lastContent content log ++ chunk] := by
  induction log generalizing content with
  | nil => rfl
  | cons first log ih => exact congrArg _ (ih _)

theorem lastContent_concat (content chunk : ByteArray) (log : Log) :
    lastContent content (log ++ [chunk]) = lastContent content log ++ chunk := by
  induction log generalizing content with
  | nil => rfl
  | cons first log ih => exact ih _

theorem follow_logsFrom (f : Follower) (pending : ByteArray) (log : Log) (events : List LogEvent) :
    follow f ((logsFrom pending log events).flatMap Log.contents) =
      (follow f log.contents).bind fun g ↦
        (LogSystem.run ⟨lastContent .empty log ++ pending, g⟩ events).map LogSystem.follower := by
  induction events generalizing f pending log with
  | nil =>
    rw [logsFrom, List.flatMap_singleton]
    exact (Option.bind_fun_some _).symm
  | cons event events ih =>
    cases event with
    | create =>
      rw [logsFrom, List.flatMap_cons, follow_append]
      congr 1
      funext g
      rw [ih]
      rfl
    | write chunk =>
      rw [logsFrom, ih]
      congr 1
      funext g
      rw [← ByteArray.append_assoc]
      rfl
    | look =>
      rw [logsFrom, ih, Log.contents, contentsFrom_concat, follow_append, Option.bind_assoc]
      congr 1
      funext g
      rw [lastContent_concat, ByteArray.append_empty, follow_cons, Option.bind_assoc]
      show _ = (((g.round _).map fun f ↦ LogSystem.mk _ f).bind (LogSystem.run · events)).map
        LogSystem.follower
      cases g.round (lastContent .empty log ++ pending) <;> rfl

/-- **Any run of the helper and the follower** is one over a list of logs. -/
theorem follower_run (events : List LogEvent) :
    (LogSystem.run {} events).map LogSystem.follower =
      follow {} ((logsFrom .empty [] events).flatMap Log.contents) :=
  (follow_logsFrom {} .empty [] events).symm

end CrunRs.Container
