import CrunRs.Lib.Lts
import Mathlib.Data.List.Nodup
import Mathlib.Logic.Function.Basic

/-!
# Critical sections

Processes that share a state, each of which runs a program of atomic calls while it holds one
exclusive lock.  What a call does next may depend on the state it finds.  A process may die between
any two calls; the lock is then free again, as a file lock is when its holder ends.

However the calls of the processes interleave, the state is what the programs make of it one after
another, in the order in which the lock was taken, and every process that came to its end got the
result its program has at its turn (`follows_of_reachable`).  Only those that died, and the one that
is inside, contribute less than their whole program.
-/

set_option autoImplicit false

namespace Serial

variable {σ ρ : Type}

/-! ## Programs -/

/-- A program of atomic calls: a call changes the state, and what follows depends on the state it
found. -/
inductive Prog (σ ρ : Type)
  | done (result : ρ)
  | step (act : σ → σ) (next : σ → Prog σ ρ)

namespace Prog

/-- What is left of a program after at most so many calls, and the state then. -/
def steps : ℕ → Prog σ ρ → σ → Prog σ ρ × σ
  | 0, p, s => (p, s)
  | _ + 1, .done result, s => (.done result, s)
  | n + 1, .step act next, s => (next s).steps n (act s)

/-- The whole program. -/
def run : Prog σ ρ → σ → ρ × σ
  | .done result, s => (result, s)
  | .step act next, s => (next s).run (act s)

@[simp] theorem steps_done (n : ℕ) (result : ρ) (s : σ) :
    (done result : Prog σ ρ).steps n s = (.done result, s) := by
  cases n <;> rfl

theorem steps_succ {n : ℕ} {p : Prog σ ρ} {s s' : σ} {act : σ → σ} {next : σ → Prog σ ρ}
    (h : p.steps n s = (.step act next, s')) : p.steps (n + 1) s = (next s', act s') := by
  induction n generalizing p s with
  | zero =>
    obtain ⟨rfl, rfl⟩ := Prod.mk.inj h
    rfl
  | succ n ih =>
    cases p with
    | done result => simp at h
    | step act' next' => exact ih h

/-- A program that has come to its end has run as a whole. -/
theorem run_of_steps {n : ℕ} {p : Prog σ ρ} {s s' : σ} {result : ρ}
    (h : p.steps n s = (.done result, s')) : p.run s = (result, s') := by
  induction n generalizing p s with
  | zero =>
    obtain ⟨rfl, rfl⟩ := Prod.mk.inj h
    rfl
  | succ n ih =>
    cases p with
    | done result' =>
      obtain ⟨hresult, rfl⟩ := Prod.mk.inj h
      rw [done.inj hresult, run]
    | step act next => exact @ih (next s) (act s) h

/-- What is left of a program does what is left to do. -/
theorem run_steps (n : ℕ) (p : Prog σ ρ) (s : σ) : (p.steps n s).1.run (p.steps n s).2 = p.run s := by
  induction n generalizing p s with
  | zero => rfl
  | succ n ih =>
    cases p with
    | done result => rfl
    | step act next => exact ih (next s) (act s)

/-- Every program comes to its end. -/
theorem exists_steps (p : Prog σ ρ) (s : σ) : ∃ n, p.steps n s = (.done (p.run s).1, (p.run s).2) := by
  induction p generalizing s with
  | done result => exact ⟨0, rfl⟩
  | step act next ih =>
    obtain ⟨n, hn⟩ := ih s (act s)
    exact ⟨n + 1, hn⟩

/-- A property of the state wherever the program is stopped. -/
def Throughout (P : σ → Prop) (p : Prog σ ρ) (s : σ) : Prop := ∀ n, P (p.steps n s).2

theorem throughout_done {P : σ → Prop} {s : σ} (result : ρ) (h : P s) :
    (done result : Prog σ ρ).Throughout P s := by
  intro n
  rw [steps_done]
  exact h

theorem throughout_step {P : σ → Prop} {s : σ} {act : σ → σ} {next : σ → Prog σ ρ} (h : P s)
    (hnext : (next s).Throughout P (act s)) : (step act next).Throughout P s := by
  intro n
  cases n with
  | zero => exact h
  | succ n => exact hnext n

end Prog

/-! ## Processes -/

inductive Status (σ ρ : Type)
  | waiting (p : Prog σ ρ)
  | inside (p : Prog σ ρ)
  | finished (result : ρ)
  | dead

structure State (σ ρ : Type) where
  shared : σ
  holder : Option ℕ
  status : ℕ → Status σ ρ

/-- What a process does: take the lock, make its next call, release the lock at the end of its
program — or end without it, if it makes no call — and die. -/
inductive Act
  | acquire (pid : ℕ)
  | call (pid : ℕ)
  | leave (pid : ℕ)
  | crash (pid : ℕ)

def State.set (w : State σ ρ) (pid : ℕ) (status : Status σ ρ) : State σ ρ :=
  { w with status := Function.update w.status pid status }

def acquire (w : State σ ρ) (pid : ℕ) : Option (State σ ρ) :=
  match w.holder, w.status pid with
  | none, .waiting (.step act next) =>
    some { w.set pid (.inside (.step act next)) with holder := some pid }
  | _, _ => none

def call (w : State σ ρ) (pid : ℕ) : Option (State σ ρ) :=
  match w.status pid with
  | .inside (.step act next) =>
    some { w.set pid (.inside (next w.shared)) with shared := act w.shared }
  | _ => none

def leave (w : State σ ρ) (pid : ℕ) : Option (State σ ρ) :=
  match w.status pid with
  | .inside (.done result) => some { w.set pid (.finished result) with holder := none }
  | .waiting (.done result) => some (w.set pid (.finished result))
  | _ => none

def crash (w : State σ ρ) (pid : ℕ) : Option (State σ ρ) :=
  match w.status pid with
  | .inside _ => some { w.set pid .dead with holder := none }
  | .waiting _ => some (w.set pid .dead)
  | _ => none

def step (w : State σ ρ) : Act → Option (State σ ρ)
  | .acquire pid => acquire w pid
  | .call pid => call w pid
  | .leave pid => leave w pid
  | .crash pid => crash w pid

/-- Every process is about to run its program. -/
def start (init : σ) (prog : ℕ → Prog σ ρ) : State σ ρ where
  shared := init
  holder := none
  status := fun pid ↦ .waiting (prog pid)

/-! ## A process that is let alone -/

/-- Some calls of the process inside. -/
theorem reachable_calls {w : State σ ρ} {pid : ℕ} {p : Prog σ ρ} (h : w.status pid = .inside p)
    (n : ℕ) : Lts.Reachable step w { w.set pid (.inside (p.steps n w.shared).1) with
      shared := (p.steps n w.shared).2 } := by
  induction n generalizing w p with
  | zero =>
    have hsame : w.set pid (.inside p) = w := by rw [State.set, ← h, Function.update_eq_self]
    rw [Prog.steps, hsame]
    exact .refl w
  | succ n ih =>
    cases p with
    | done result =>
      have hsame : w.set pid (.inside (.done result)) = w := by
        rw [State.set, ← h, Function.update_eq_self]
      rw [Prog.steps_done, hsame]
      exact .refl w
    | step act next =>
      have hcall : step w (.call pid) =
          some { w.set pid (.inside (next w.shared)) with shared := act w.shared } := by
        simp only [step, call, h]
      refine .head hcall ?_
      have hrest := @ih { w.set pid (.inside (next w.shared)) with shared := act w.shared }
        (next w.shared) (by simp [State.set])
      simpa only [State.set, Function.update_idem, Prog.steps] using hrest

/-- All calls that are left, and the release of the lock. -/
theorem reachable_finished {w : State σ ρ} {pid : ℕ} {p : Prog σ ρ} (h : w.status pid = .inside p) :
    Lts.Reachable step w { w.set pid (.finished (p.run w.shared).1) with
      shared := (p.run w.shared).2, holder := none } := by
  obtain ⟨n, hn⟩ := p.exists_steps w.shared
  have hcalls := reachable_calls h n
  rw [hn] at hcalls
  refine hcalls.trans (.head (a := .leave pid) ?_ (.refl _))
  simp [step, leave, State.set]

/-- A turn that is begun: the process is inside, and has the rest of its program before it. -/
theorem exists_begun {w : State σ ρ} {pid : ℕ} {act : σ → σ} {next : σ → Prog σ ρ}
    (hfree : w.holder = none) (h : w.status pid = .waiting (.step act next)) (n : ℕ) :
    ∃ t p, Lts.Reachable step w t ∧ t.status pid = .inside p ∧
      p.run t.shared = (Prog.step act next).run w.shared ∧
      ∀ other, other ≠ pid → t.status other = w.status other := by
  have hacquire : step w (.acquire pid) =
      some { w.set pid (.inside (.step act next)) with holder := some pid } := by
    simp only [step, acquire, hfree, h]
  refine ⟨_, _, .head hacquire (@reachable_calls _ _
    { w.set pid (.inside (.step act next)) with holder := some pid } pid (.step act next)
    (by simp [State.set]) n), ?_, Prog.run_steps n _ _, fun other hother ↦ ?_⟩
  · simp [State.set]
  · simp [State.set, hother]

/-- Who makes no call does not wait for the lock. -/
theorem step_leave_done {w : State σ ρ} {pid : ℕ} {result : ρ}
    (h : w.status pid = .waiting (.done result)) :
    step w (.leave pid) = some (w.set pid (.finished result)) := by
  simp only [step, leave, h]

/-- A whole turn. -/
theorem reachable_turn {w : State σ ρ} {pid : ℕ} {p : Prog σ ρ} (hfree : w.holder = none)
    (h : w.status pid = .waiting p) :
    Lts.Reachable step w { w.set pid (.finished (p.run w.shared).1) with
      shared := (p.run w.shared).2, holder := none } := by
  cases p with
  | done result =>
    refine .head (a := .leave pid) ?_ (.refl _)
    simp [step, leave, h, State.set, Prog.run, hfree]
  | step act next =>
    have hacquire : step w (.acquire pid) =
        some { w.set pid (.inside (.step act next)) with holder := some pid } := by
      simp only [step, acquire, hfree, h]
    have hend := @reachable_finished _ _
      { w.set pid (.inside (.step act next)) with holder := some pid } pid (.step act next)
      (by simp [State.set])
    refine .head hacquire ?_
    simpa only [State.set, Function.update_idem] using hend

/-! ## Turns -/

/-- A process that held the lock, and how many calls it made. -/
structure Turn where
  pid : ℕ
  calls : ℕ

variable (prog : ℕ → Prog σ ρ)

/-- The state after a turn. -/
def Turn.after (t : Turn) (s : σ) : σ := ((prog t.pid).steps t.calls s).2

/-- The turns one after another. -/
def replay (turns : List Turn) (s : σ) : σ := turns.foldl (fun s t ↦ t.after prog s) s

@[simp] theorem replay_nil (s : σ) : replay prog [] s = s := rfl

theorem replay_concat (turns : List Turn) (t : Turn) (s : σ) :
    replay prog (turns ++ [t]) s = t.after prog (replay prog turns s) := by
  rw [replay, List.foldl_append]
  rfl

/-- The turns, in the order in which the lock was taken, account for the state and for what has become
of each process. -/
structure Explained (init : σ) (w : State σ ρ) (turns : List Turn) : Prop where
  nodup : (turns.map Turn.pid).Nodup
  shared : w.shared = replay prog turns init
  waiting : ∀ pid p, w.status pid = .waiting p → p = prog pid ∧ pid ∉ turns.map Turn.pid
  inside : ∀ pid p, w.status pid = .inside p → w.holder = some pid ∧
    ∃ before calls, turns = before ++ [⟨pid, calls⟩] ∧
      (prog pid).steps calls (replay prog before init) = (p, w.shared)
  finished : ∀ pid result, w.status pid = .finished result →
    prog pid = .done result ∨ ∃ before calls after, turns = before ++ ⟨pid, calls⟩ :: after ∧
      ((prog pid).steps calls (replay prog before init)).1 = .done result

variable {prog} {init : σ} {w w' : State σ ρ} {turns : List Turn} {pid : ℕ}

theorem explained_start : Explained prog init (start init prog) [] where
  nodup := List.nodup_nil
  shared := rfl
  waiting := by
    intro pid p h
    exact ⟨(Status.waiting.inj h).symm, by simp⟩
  inside := by
    intro pid p h
    simp [start] at h
  finished := by
    intro pid result h
    simp [start] at h

/-- A process whose status is set, or another one. -/
theorem set_cases {status : Status σ ρ} {other : ℕ} {found : Status σ ρ}
    (h : (w.set pid status).status other = found) :
    (other = pid ∧ found = status) ∨ (other ≠ pid ∧ w.status other = found) := by
  by_cases hpid : other = pid
  · subst hpid
    exact Or.inl ⟨rfl, by simpa [State.set] using h.symm⟩
  · exact Or.inr ⟨hpid, by simpa [State.set, Function.update_of_ne hpid] using h⟩

/-! ## What a step does to the turns -/

/-- Nobody is inside unless he holds the lock. -/
theorem Explained.not_inside (h : Explained prog init w turns) (hfree : w.holder = none) (other : ℕ)
    (p : Prog σ ρ) : w.status other ≠ .inside p := by
  intro hinside
  have hholder := (h.inside other p hinside).1
  rw [hfree] at hholder
  simp at hholder

/-- Only the holder is inside. -/
theorem Explained.only_inside (h : Explained prog init w turns) {p : Prog σ ρ}
    (hinside : w.status pid = .inside p) {other : ℕ} {p' : Prog σ ρ}
    (hother : w.status other = .inside p') : other = pid :=
  Option.some.inj ((h.inside other p' hother).1.symm.trans (h.inside pid p hinside).1)

/-- A process that waits has had no turn, and so has all of its program before it. -/
theorem Explained.acquire (h : Explained prog init w turns) (hstep : Serial.acquire w pid = some w') :
    Explained prog init w' (turns ++ [⟨pid, 0⟩]) := by
  unfold Serial.acquire at hstep
  split at hstep
  · rename_i act next hfree hwaiting
    obtain rfl := Option.some.inj hstep
    obtain ⟨hprog, hnew⟩ := h.waiting pid _ hwaiting
    constructor
    · rw [List.map_append, List.nodup_append]
      refine ⟨h.nodup, List.nodup_singleton _, ?_⟩
      rintro a ha b hb rfl
      obtain rfl : a = pid := List.mem_singleton.mp hb
      exact hnew ha
    · rw [replay_concat]
      exact h.shared
    · intro other p hother
      rcases set_cases hother with ⟨_, hfound⟩ | ⟨hne, hother⟩
      · simp at hfound
      · obtain ⟨hp, hnot⟩ := h.waiting other p hother
        refine ⟨hp, ?_⟩
        rw [List.map_append, List.mem_append, not_or]
        exact ⟨hnot, fun hmem ↦ hne (List.mem_singleton.mp hmem)⟩
    · intro other p hother
      rcases set_cases hother with ⟨rfl, hfound⟩ | ⟨_, hother⟩
      · obtain rfl := Status.inside.inj hfound
        exact ⟨rfl, turns, 0, rfl, by rw [← hprog, Prog.steps, ← h.shared]; rfl⟩
      · exact absurd hother (h.not_inside hfree other p)
    · intro other result hother
      rcases set_cases hother with ⟨_, hfound⟩ | ⟨_, hother⟩
      · simp at hfound
      · refine (h.finished other result hother).imp_right ?_
        rintro ⟨before, calls, after, rfl, hsteps⟩
        exact ⟨before, calls, after ++ [⟨pid, 0⟩], by simp, hsteps⟩
  · simp at hstep

/-- The process inside had the last turn, which becomes longer by one call. -/
theorem Explained.call (h : Explained prog init w turns) (hstep : Serial.call w pid = some w') :
    ∃ turns', Explained prog init w' turns' ∧ turns'.map Turn.pid = turns.map Turn.pid := by
  unfold Serial.call at hstep
  split at hstep
  · rename_i act next hinside
    obtain rfl := Option.some.inj hstep
    obtain ⟨hholder, before, calls, rfl, hsteps⟩ := h.inside pid _ hinside
    have hlonger := Prog.steps_succ hsteps
    refine ⟨before ++ [⟨pid, calls + 1⟩], ?_, by simp⟩
    constructor
    · simpa using h.nodup
    · rw [replay_concat, Turn.after, hlonger]
    · intro other p hother
      rcases set_cases hother with ⟨_, hfound⟩ | ⟨hne, hother⟩
      · simp at hfound
      · simpa using h.waiting other p hother
    · intro other p hother
      rcases set_cases hother with ⟨rfl, hfound⟩ | ⟨hne, hother⟩
      · obtain rfl := Status.inside.inj hfound
        exact ⟨hholder, before, calls + 1, rfl, hlonger⟩
      · exact absurd (h.only_inside hinside hother) hne
    · intro other result hother
      rcases set_cases hother with ⟨_, hfound⟩ | ⟨hne, hother⟩
      · simp at hfound
      · refine (h.finished other result hother).imp_right ?_
        rintro ⟨before', calls', after, heq, hother⟩
        -- the turn of another process is not the last one
        rcases List.eq_nil_or_concat after with rfl | ⟨after, last, rfl⟩
        · have hlast := (List.append_inj' heq rfl).2
          exact absurd (Turn.mk.inj (List.cons.inj hlast).1).1.symm hne
        · rw [List.concat_eq_append, ← List.cons_append, ← List.append_assoc] at heq
          obtain ⟨rfl, hlast⟩ := List.append_inj' heq rfl
          exact ⟨before', calls', after ++ [⟨pid, calls + 1⟩], by simp, hother⟩
  · simp at hstep

/-- A process that leaves or dies takes nothing back. -/
theorem Explained.set (h : Explained prog init w turns) {status : Status σ ρ} {holder : Option ℕ}
    (hquiet : (∀ p, status ≠ .waiting p) ∧ ∀ p, status ≠ .inside p)
    (hholder : ∀ other p, other ≠ pid → w.status other = .inside p → holder = some other)
    (hfinished : ∀ result, status = .finished result →
      prog pid = .done result ∨ ∃ before calls after, turns = before ++ ⟨pid, calls⟩ :: after ∧
        ((prog pid).steps calls (replay prog before init)).1 = .done result) :
    Explained prog init { w.set pid status with holder } turns where
  nodup := h.nodup
  shared := h.shared
  waiting := by
    intro other p hother
    rcases set_cases hother with ⟨_, hfound⟩ | ⟨_, hother⟩
    · exact absurd hfound.symm (hquiet.1 p)
    · exact h.waiting other p hother
  inside := by
    intro other p hother
    rcases set_cases hother with ⟨_, hfound⟩ | ⟨hne, hother⟩
    · exact absurd hfound.symm (hquiet.2 p)
    · exact ⟨hholder other p hne hother, (h.inside other p hother).2⟩
  finished := by
    intro other result hother
    rcases set_cases hother with ⟨rfl, hfound⟩ | ⟨_, hother⟩
    · exact hfinished result hfound.symm
    · exact h.finished other result hother

theorem Explained.leave (h : Explained prog init w turns) (hstep : Serial.leave w pid = some w') :
    Explained prog init w' turns := by
  unfold Serial.leave at hstep
  split at hstep
  · rename_i result hinside
    obtain rfl := Option.some.inj hstep
    refine h.set (by simp) (fun other p hne hother ↦ absurd (h.only_inside hinside hother) hne) ?_
    intro result' heq
    obtain rfl := Status.finished.inj heq
    obtain ⟨_, before, calls, rfl, hsteps⟩ := h.inside pid _ hinside
    exact Or.inr ⟨before, calls, [], rfl, by rw [hsteps]⟩
  · rename_i result hwaiting
    obtain rfl := Option.some.inj hstep
    refine h.set (by simp) (fun other p _ hother ↦ (h.inside other p hother).1) ?_
    intro result' heq
    obtain rfl := Status.finished.inj heq
    exact Or.inl (h.waiting pid _ hwaiting).1.symm
  · simp at hstep

theorem Explained.crash (h : Explained prog init w turns) (hstep : Serial.crash w pid = some w') :
    Explained prog init w' turns := by
  unfold Serial.crash at hstep
  split at hstep
  · rename_i p hinside
    obtain rfl := Option.some.inj hstep
    exact h.set (by simp) (fun other p hne hother ↦ absurd (h.only_inside hinside hother) hne)
      (by simp)
  · rename_i p hwaiting
    obtain rfl := Option.some.inj hstep
    exact h.set (by simp) (fun other p _ hother ↦ (h.inside other p hother).1) (by simp)
  · simp at hstep

/-- However it goes on, the turns are continued. -/
theorem Explained.continued (h : Explained prog init w turns) (hreach : Lts.Reachable step w w') :
    ∃ turns', Explained prog init w' turns' ∧ turns.map Turn.pid <+: turns'.map Turn.pid := by
  refine Lts.invariant (P := fun w' ↦ ∃ turns', Explained prog init w' turns' ∧
    turns.map Turn.pid <+: turns'.map Turn.pid) ?_ ⟨turns, h, List.prefix_refl _⟩ hreach
  rintro w a w' ⟨turns', hexplained, hprefix⟩ hstep
  cases a with
  | acquire pid =>
    refine ⟨_, hexplained.acquire hstep, hprefix.trans ?_⟩
    rw [List.map_append]
    exact List.prefix_append _ _
  | call pid =>
    obtain ⟨turns'', hexplained', hpids⟩ := hexplained.call hstep
    exact ⟨turns'', hexplained', hpids ▸ hprefix⟩
  | leave pid => exact ⟨turns', hexplained.leave hstep, hprefix⟩
  | crash pid => exact ⟨turns', hexplained.crash hstep, hprefix⟩

/-! ## The order of the turns -/

/-- From one state to another through the turns of some processes, one after another: `whole` says
what a process that came to its end does, and `cut` what one that did not may do. -/
inductive Follows (whole : ℕ → σ → ρ → σ → Prop) (cut : ℕ → σ → σ → Prop) (status : ℕ → Status σ ρ) :
    List ℕ → σ → σ → Prop
  | nil (s : σ) : Follows whole cut status [] s s
  | whole {pid : ℕ} {order : List ℕ} {s s' s'' : σ} {result : ρ} (hstatus : status pid = .finished result)
      (hturn : whole pid s result s') (hrest : Follows whole cut status order s' s'') :
      Follows whole cut status (pid :: order) s s''
  | cut {pid : ℕ} {order : List ℕ} {s s' s'' : σ} (hstatus : ∀ result, status pid ≠ .finished result)
      (hturn : cut pid s s') (hrest : Follows whole cut status order s' s'') :
      Follows whole cut status (pid :: order) s s''

variable {whole : ℕ → σ → ρ → σ → Prop} {cut : ℕ → σ → σ → Prop} {status : ℕ → Status σ ρ}

/-- The turn of a process that has finished is its whole program. -/
theorem Explained.run_of_turn (h : Explained prog init w turns) {before after : List Turn} {t : Turn}
    {result : ρ} (hturns : turns = before ++ t :: after)
    (hfinished : w.status t.pid = .finished result) :
    (prog t.pid).run (replay prog before init) =
      (result, t.after prog (replay prog before init)) := by
  rcases h.finished t.pid result hfinished with hdone | ⟨before', calls, after', hturns', hsteps⟩
  · rw [Turn.after, hdone, Prog.steps_done, Prog.run]
  · -- a process has one turn
    have hnodup := h.nodup
    rw [hturns, List.map_append, List.map_cons, List.nodup_middle, List.nodup_cons,
      ← List.map_append] at hnodup
    have hother : ∀ l, l ⊆ before ++ after → (⟨t.pid, calls⟩ : Turn) ∉ l := fun l hl hmem ↦
      hnodup.1 (List.mem_map.mpr ⟨_, hl hmem, rfl⟩)
    obtain ⟨rfl, ht, -⟩ := (List.append_cons_inj_of_notMem
      (hother before (List.subset_append_left _ _))
      (hother after (List.subset_append_right _ _))).mp (hturns.symm.trans hturns')
    obtain rfl : t.calls = calls := congrArg Turn.calls ht
    exact Prog.run_of_steps (Prod.ext hsteps rfl)

/-- The turns follow each other. -/
theorem Explained.follows (h : Explained prog init w turns)
    (hwhole : ∀ pid s, whole pid s ((prog pid).run s).1 ((prog pid).run s).2)
    (hcut : ∀ pid s, (prog pid).Throughout (cut pid s) s) {before after : List Turn}
    (hturns : turns = before ++ after) :
    Follows whole cut w.status (after.map Turn.pid) (replay prog before init) w.shared := by
  induction after generalizing before with
  | nil =>
    rw [h.shared, hturns, List.append_nil]
    exact .nil _
  | cons t after ih =>
    have hrest := ih (hturns.trans (List.append_cons before t after))
    rw [replay_concat] at hrest
    by_cases hfinished : ∃ result, w.status t.pid = .finished result
    · obtain ⟨result, hfinished⟩ := hfinished
      have hturn := hwhole t.pid (replay prog before init)
      rw [h.run_of_turn hturns hfinished] at hturn
      exact .whole hfinished hturn hrest
    · exact .cut (not_exists.mp hfinished) (hcut t.pid _ t.calls) hrest

/-- A state in terms of the order in which its processes had their turns.  A process that has finished
without one makes no call. -/
structure Ordered (prog : ℕ → Prog σ ρ) (w : State σ ρ) (order : List ℕ) : Prop where
  nodup : order.Nodup
  waiting : ∀ pid p, w.status pid = .waiting p → pid ∉ order
  inside : ∀ pid p, w.status pid = .inside p → w.holder = some pid ∧ order.getLast? = some pid
  finished : ∀ pid result, w.status pid = .finished result → pid ∈ order ∨ prog pid = .done result

theorem Explained.ordered (h : Explained prog init w turns) : Ordered prog w (turns.map Turn.pid) where
  nodup := h.nodup
  waiting := fun pid p hwaiting ↦ (h.waiting pid p hwaiting).2
  inside := by
    intro pid p hinside
    obtain ⟨hholder, before, calls, rfl, -⟩ := h.inside pid p hinside
    exact ⟨hholder, by simp⟩
  finished := by
    intro pid result hfinished
    rcases h.finished pid result hfinished with hdone | ⟨before, calls, after, rfl, -⟩
    · exact Or.inr hdone
    · exact Or.inl (by simp)

/-- **Critical sections are serial.**  There is an order of turns that accounts for a reachable state,
and it is continued by one that accounts for a later state: who comes to his end before another
begins has his turn before him. -/
theorem follows_of_reachable
    (hwhole : ∀ pid s, whole pid s ((prog pid).run s).1 ((prog pid).run s).2)
    (hcut : ∀ pid s, (prog pid).Throughout (cut pid s) s)
    (h : Lts.Reachable step (start init prog) w) (h' : Lts.Reachable step w w') :
    ∃ order later,
      (Ordered prog w order ∧ Follows whole cut w.status order init w.shared) ∧
      (Ordered prog w' (order ++ later) ∧
        Follows whole cut w'.status (order ++ later) init w'.shared) := by
  obtain ⟨turns, hexplained, -⟩ := explained_start.continued h
  obtain ⟨turns', hexplained', later, hlater⟩ := hexplained.continued h'
  refine ⟨turns.map Turn.pid, later, ⟨hexplained.ordered, ?_⟩, ?_⟩
  · exact hexplained.follows hwhole hcut (List.nil_append turns).symm
  · rw [hlater]
    exact ⟨hexplained'.ordered, hexplained'.follows hwhole hcut (List.nil_append turns').symm⟩

end Serial
