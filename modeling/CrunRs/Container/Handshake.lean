import CrunRs.Lib.Lts
import CrunRs.Lib.Pipe
import CrunRs.Lib.Text
import CrunRs.Namespace

/-!
# The start handshake

`run_process` forks.  The parent sets up what the container needs from outside — cgroup, network, uid
and gid maps — and records the container as running; the child sets up its inside and executes the
command.  They are joined by three pipes.  On the *sync* pipe the parent says that the container is
recorded: with the network configuration in bridge mode, and by closing the pipe otherwise.  On the
*ready* pipe the child says that it has a user namespace, and on the *mapped* pipe the parent says
that it has written the maps.

Any step of the parent may fail, and a parent that fails closes its ends.  For the mapped pipe that
is an error of the child (`wait_for_userns_mapped`).  For the sync pipe it is the same empty message
that the parent sends in the other network modes.  In bridge mode an empty message is not a network
configuration and the child stops there.  In the other modes it goes on, and unless it still has to
wait for its maps, it executes the command of a container that was never recorded
(`child_outlives_failed_start`).  `handshake_safe_iff` says that these are the only configurations in
which that can happen.
-/

set_option autoImplicit false

namespace CrunRs.Container

open Lts Network

/-! ## The two parties -/

/-- What the handshake depends on. -/
structure Config where
  isRoot : Bool
  networkMode : NetworkMode
  usernsMode : UserNamespaceMode
  /-- Is there a cgroup to set up? -/
  cgroup : Bool
  namespaces : List String
  flags : CloneFlags
  /-- The flags `run_container_process` computes. -/
  flags_eq :
    effectiveNamespaceFlags namespaces (networkMode.toEffective isRoot) usernsMode = .ok flags

namespace Config

variable (config : Config)

/-- The network mode `run_process` goes by. -/
def network : NetworkMode := config.networkMode.toEffective config.isRoot

/-- The flags the child unshares itself. -/
def childFlags : CloneFlags := { config.flags with newpid := false, newuser := false }

def isPrivate : Bool := config.usernsMode.isPrivate

end Config

/-- Reading and writing a network configuration as JSON. -/
structure Json where
  encode : BridgeNetwork → List Char
  decode : List Char → Option BridgeNetwork

/-- Where the parent is: about to do what the name says. -/
inductive ParentPc
  | setupCgroup
  | allocateNetwork
  | setupVeth (network : BridgeNetwork)
  | setupNat (network : BridgeNetwork)
  | callOnStarted (network : Option BridgeNetwork)
  | writeSignal (network : Option BridgeNetwork)
  | waitUsernsReady
  | writeMaps
  | writeMapped
  | waitChild
  | failed
  deriving DecidableEq

/-- Has `on_started` returned `Ok`? -/
def ParentPc.isRecorded : ParentPc → Bool
  | writeSignal _ | waitUsernsReady | writeMaps | writeMapped | waitChild => true
  | setupCgroup | allocateNetwork | setupVeth _ | setupNat _ | callOnStarted _ | failed => false

/-- Where the child is: about to do what the name says.  The handshake about the user namespace comes
before everything else if the runtime is rootless (`first`), and near the end otherwise. -/
inductive ChildPc
  | unshareUser (first : Bool)
  | notifyReady (first : Bool)
  | waitMapped (first : Bool)
  | unshareFlags
  /-- Reading the sync pipe, with what it has read so far. -/
  | readSignal (bytes : List UInt8)
  | setupNetwork (signal : List Char)
  | setupRootfs
  | applySecurity
  | execed
  | exited
  deriving DecidableEq

/-- Is the handshake about the user namespace over, if there is one? -/
def ChildPc.pastMapped (isRoot : Bool) : ChildPc → Bool
  | applySecurity | execed => true
  | unshareFlags | readSignal _ | setupNetwork _ | setupRootfs => !isRoot
  | unshareUser first | notifyReady first | waitMapped first => !isRoot && !first
  | exited => false

/-- The child has not got past the network, and has not been told anything. -/
def ChildPc.Untold : ChildPc → Prop
  | unshareFlags | exited => True
  | unshareUser first | notifyReady first | waitMapped first => first = true
  | readSignal bytes => bytes = []
  | setupNetwork signal => signal = []
  | setupRootfs | applySecurity | execed => False

structure Handshake where
  parent : ParentPc
  child : ChildPc
  sync : Pipe := {}
  ready : Pipe := {}
  mapped : Pipe := {}
  /-- `on_started` has returned `Ok`. -/
  started : Bool := false
  /-- The uid and gid maps have been written. -/
  maps : Bool := false

/-- Who does its next step, and whether that succeeds. -/
inductive HandshakeAct
  | parent
  | allocate (network : BridgeNetwork)
  /-- Setting up the cgroup fails, which kills the child. -/
  | cgroupFails
  /-- Any other failure of the parent, its death included. -/
  | parentFails
  | child
  | childFails

namespace Handshake

/-- The parent returns an error or dies: its ends are closed. -/
def failParent (s : Handshake) : Handshake :=
  { s with
    parent := .failed
    sync := s.sync.closeWriter
    ready := s.ready.closeReader
    mapped := s.mapped.closeWriter }

/-- The child ends, or executes the command: its ends are closed. -/
def leaveChild (s : Handshake) (child : ChildPc) : Handshake :=
  { s with
    child
    sync := s.sync.closeReader
    ready := s.ready.closeWriter
    mapped := s.mapped.closeReader }

/-- The child is done with the user namespace: its ends of those two pipes are closed. -/
def leaveUserns (s : Handshake) : Handshake :=
  { s with
    child := .applySecurity
    ready := s.ready.closeWriter
    mapped := s.mapped.closeReader }

/-- What the parent writes to the sync pipe. -/
def signal (json : Json) : Option BridgeNetwork → List UInt8
  | none => []
  | some network => (Text.encode (json.encode network)).data.toList

/-- The next step of the parent, if it succeeds. -/
def stepParent (config : Config) (json : Json) (s : Handshake) : Option Handshake :=
  match s.parent with
  | .setupCgroup =>
    some { s with
      parent := if config.network = .bridge then .allocateNetwork else .callOnStarted none }
  | .setupVeth network => some { s with parent := .setupNat network }
  | .setupNat network => some { s with parent := .callOnStarted (some network) }
  | .callOnStarted network => some { s with parent := .writeSignal network, started := true }
  | .writeSignal network => match s.sync.write (signal json network) with
    | none => some s.failParent
    | some sync =>
      let s := { s with sync := sync.closeWriter }
      if config.isPrivate then some { s with parent := .waitUsernsReady }
      else some { s with
        parent := .waitChild
        ready := s.ready.closeReader
        mapped := s.mapped.closeWriter }
  | .waitUsernsReady => match s.ready.read 1 with
    | .blocked => none
    -- `ChildExitedBeforeUsernsReady`
    | .eof => some s.failParent
    | .data _ ready => some { s with parent := .writeMaps, ready := ready.closeReader }
  | .writeMaps => some { s with parent := .writeMapped, maps := true }
  | .writeMapped => match s.mapped.write [49] with
    | none => some s.failParent
    | some mapped => some { s with parent := .waitChild, mapped := mapped.closeWriter }
  | .allocateNetwork | .waitChild | .failed => none

/-- The next step of the child, if its own calls succeed. -/
def stepChild (config : Config) (json : Json) (s : Handshake) : Option Handshake :=
  match s.child with
  | .unshareUser first => some { s with child := .notifyReady first }
  | .notifyReady first => match s.ready.write [49] with
    | none => some (s.leaveChild .exited)
    | some ready => some { s with child := .waitMapped first, ready }
  | .waitMapped first => match s.mapped.read 1 with
    | .blocked => none
    -- `ParentExitedBeforeUsernsMapped`
    | .eof => some (s.leaveChild .exited)
    | .data _ mapped =>
      if first then some { s with child := .unshareFlags, mapped }
      else some { s with mapped }.leaveUserns
  | .unshareFlags => some { s with child := .readSignal [] }
  | .readSignal bytes => match s.sync.read 64 with
    | .blocked => none
    | .eof => match Text.decode ⟨bytes.toArray⟩ with
      | none => some (s.leaveChild .exited)
      | some signal => some { s with child := .setupNetwork signal, sync := s.sync.closeReader }
    | .data more sync => some { s with child := .readSignal (bytes ++ more), sync }
  | .setupNetwork signal =>
    if config.childFlags.newnet ∧ config.network = .bridge then match json.decode signal with
      | none => some (s.leaveChild .exited)
      | some _ => some { s with child := .setupRootfs }
    else some { s with child := .setupRootfs }
  | .setupRootfs =>
    if config.isRoot ∧ config.isPrivate then some { s with child := .unshareUser false }
    else some s.leaveUserns
  | .applySecurity => some (s.leaveChild .execed)
  | .execed | .exited => none

/-- One step of one of them. -/
def step (config : Config) (json : Json) (s : Handshake) : HandshakeAct → Option Handshake
  | .parent => s.stepParent config json
  | .allocate network =>
    if s.parent = .allocateNetwork then some { s with parent := .setupVeth network } else none
  | .cgroupFails =>
    if config.cgroup ∧ s.parent = .setupCgroup then some (s.leaveChild .exited).failParent else none
  | .parentFails => some s.failParent
  | .child => s.stepChild config json
  | .childFails =>
    if s.child = .execed then none else some (s.leaveChild .exited)

/-- After the fork. -/
def start (config : Config) : Handshake where
  parent := .setupCgroup
  child := if !config.isRoot ∧ config.isPrivate then .unshareUser true else .unshareFlags

/-- The child has executed the command only if the container is recorded and, with a user namespace
of its own, the maps are written. -/
def Safe (config : Config) (s : Handshake) : Prop :=
  s.child = .execed → s.started ∧ (config.isPrivate → s.maps)

/-! ## The invariant -/

structure Inv (config : Config) (s : Handshake) : Prop where
  recorded : s.parent.isRecorded → s.started
  maps : s.maps → s.started
  /-- The parent says that the maps are there when they are. -/
  mapped : s.parent = .writeMapped ∨ s.mapped.buffer ≠ [] → s.maps
  /-- The child goes on when it has been told so. -/
  pastMapped : config.isPrivate → s.child.pastMapped config.isRoot → s.maps
  /-- Before the container is recorded nothing is written to the sync pipe. -/
  silent : s.started = false → s.sync.buffer = []
  /-- In bridge mode that keeps the child from going on. -/
  untold : config.network = .bridge → s.started = false → s.child.Untold

variable {config : Config} {json : Json} {s t : Handshake}

theorem Inv.start (config : Config) : Inv config (Handshake.start config) where
  recorded h := by cases h
  maps h := by cases h
  mapped h := by
    rcases h with h | h
    · cases h
    · exact absurd rfl h
  pastMapped hprivate hpast := by
    simp only [Handshake.start, hprivate, and_true] at hpast
    split at hpast
    · simp [ChildPc.pastMapped] at hpast
    · rename_i hroot
      rw [ChildPc.pastMapped] at hpast
      exact absurd hpast hroot
  silent _ := rfl
  untold _ _ := by
    show ChildPc.Untold (if _ then _ else _)
    split
    · rfl
    · trivial

/-- Once the container is recorded, the sync pipe and the network do not matter any more. -/
theorem Inv.of_started (hstarted : t.started)
    (hmapped : t.parent = .writeMapped ∨ t.mapped.buffer ≠ [] → t.maps)
    (hpast : config.isPrivate → t.child.pastMapped config.isRoot → t.maps) : Inv config t where
  recorded _ := hstarted
  maps _ := hstarted
  mapped := hmapped
  pastMapped := hpast
  silent hnot := absurd hstarted (Bool.eq_false_iff.mp hnot)
  untold _ hnot := absurd hstarted (Bool.eq_false_iff.mp hnot)

theorem Inv.mapped_of_ne (h : Inv config s) {pc : ParentPc} (hpc : pc ≠ .writeMapped)
    (hmapped : pc = .writeMapped ∨ s.mapped.buffer ≠ []) : s.maps :=
  h.mapped (Or.inr (hmapped.resolve_left hpc))

/-- A parent that fails takes nothing back. -/
theorem Inv.failParent (h : Inv config s) : Inv config s.failParent :=
  { h with
    recorded := fun hrec ↦ by cases hrec
    mapped := h.mapped_of_ne nofun }

theorem Inv.setParent (h : Inv config s) {pc : ParentPc} (hrec : pc.isRecorded = false) :
    Inv config { s with parent := pc } :=
  { h with
    recorded := fun hpc ↦ absurd hpc (Bool.eq_false_iff.mp hrec)
    mapped := h.mapped_of_ne fun heq ↦ by
      rw [show pc = .writeMapped from heq] at hrec
      cases hrec }

theorem Inv.stepParent (h : Inv config s) (hstep : s.stepParent config json = some t) :
    Inv config t := by
  unfold Handshake.stepParent at hstep
  split at hstep
  · -- set up the cgroup
    cases hstep
    refine h.setParent ?_
    split <;> rfl
  · cases hstep
    exact h.setParent rfl
  · cases hstep
    exact h.setParent rfl
  · -- `on_started` returns
    rename_i hpc
    cases hstep
    exact .of_started rfl (h.mapped_of_ne nofun) h.pastMapped
  · -- write the signal
    rename_i hpc
    have hstarted : s.started := h.recorded (by rw [hpc]; rfl)
    split at hstep
    · cases hstep
      exact h.failParent
    · dsimp only at hstep
      split at hstep
      · cases hstep
        exact .of_started hstarted (h.mapped_of_ne nofun) h.pastMapped
      · cases hstep
        exact .of_started hstarted (h.mapped_of_ne nofun) h.pastMapped
  · -- wait for the user namespace
    rename_i hpc
    have hstarted : s.started := h.recorded (by rw [hpc]; rfl)
    split at hstep
    · simp at hstep
    · cases hstep
      exact h.failParent
    · cases hstep
      exact .of_started hstarted (h.mapped_of_ne nofun) h.pastMapped
  · -- write the maps
    rename_i hpc
    have hstarted : s.started := h.recorded (by rw [hpc]; rfl)
    cases hstep
    exact .of_started hstarted (fun _ ↦ rfl) (fun _ _ ↦ rfl)
  · -- say that they are written
    rename_i hpc
    have hstarted : s.started := h.recorded (by rw [hpc]; rfl)
    have hmaps : s.maps := h.mapped (Or.inl hpc)
    split at hstep
    · cases hstep
      exact h.failParent
    · cases hstep
      exact .of_started hstarted (fun _ ↦ hmaps) (fun _ _ ↦ hmaps)
  · simp at hstep
  · simp at hstep
  · simp at hstep

theorem Inv.leaveChild_exited (h : Inv config s) : Inv config (s.leaveChild .exited) :=
  { h with
    pastMapped := fun _ hpast ↦ by cases hpast
    untold := fun _ _ ↦ trivial }

theorem Inv.setChild (h : Inv config s) {pc : ChildPc}
    (hpast : pc.pastMapped config.isRoot = s.child.pastMapped config.isRoot)
    (huntold : config.network = .bridge → s.started = false → s.child.Untold → pc.Untold) :
    Inv config { s with child := pc } :=
  { h with
    pastMapped := fun hprivate hpc ↦ h.pastMapped hprivate (hpast.symm.trans hpc)
    untold := fun hbridge hnot ↦ huntold hbridge hnot (h.untold hbridge hnot) }

/-- A child that is past its network has been told, in bridge mode. -/
theorem Inv.started_of_told (h : Inv config s) (htold : ¬ s.child.Untold)
    (hbridge : config.network = .bridge) : s.started := by
  by_contra hnot
  exact htold (h.untold hbridge (Bool.eq_false_iff.mpr hnot))

theorem Inv.leaveUserns (h : Inv config s) (hmaps : config.isPrivate → s.maps)
    (hstarted : config.network = .bridge → s.started) : Inv config s.leaveUserns :=
  { h with
    pastMapped := fun hprivate _ ↦ hmaps hprivate
    untold := fun hbridge hnot ↦ absurd (hstarted hbridge) (Bool.eq_false_iff.mp hnot) }

theorem childFlags_newnet (config : Config) :
    config.childFlags.newnet = decide (config.network ≠ .host) := by
  show config.flags.newnet = _
  exact effectiveNamespaceFlags_newnet config.flags_eq

theorem Inv.notifyReady (h : Inv config s) {first : Bool} (hpc : s.child = .notifyReady first)
    (hstep : s.stepChild config json = some t) : Inv config t := by
  simp only [Handshake.stepChild, hpc] at hstep
  split at hstep
  · cases hstep
    exact h.leaveChild_exited
  · cases hstep
    have hnext : Inv config { s with child := .waitMapped first } :=
      h.setChild (by rw [hpc]; rfl) (fun _ _ hc ↦ by rw [hpc] at hc; exact hc)
    exact { hnext with }

/-- What the child reads here the parent has written after the maps. -/
theorem Inv.waitMapped (h : Inv config s) {first : Bool} (hpc : s.child = .waitMapped first)
    (hstep : s.stepChild config json = some t) : Inv config t := by
  simp only [Handshake.stepChild, hpc] at hstep
  split at hstep
  · simp at hstep
  · cases hstep
    exact h.leaveChild_exited
  · rename_i bytes mapped hread
    have hmaps : s.maps := h.mapped (Or.inr (Pipe.read_eq_data hread).1)
    have hnext : ∀ child, Inv config { s with child, mapped } := fun child ↦
      .of_started (h.maps hmaps) (fun _ ↦ hmaps) (fun _ _ ↦ hmaps)
    split at hstep
    · cases hstep
      exact hnext _
    · cases hstep
      have hself : Inv config { s with mapped } := hnext s.child
      exact hself.leaveUserns (fun _ ↦ hmaps) (fun _ ↦ h.maps hmaps)

/-- The sync pipe ends without a word unless the container has been recorded. -/
theorem Inv.readSignal (h : Inv config s) {bytes : List UInt8} (hpc : s.child = .readSignal bytes)
    (hstep : s.stepChild config json = some t) : Inv config t := by
  simp only [Handshake.stepChild, hpc] at hstep
  split at hstep
  · simp at hstep
  · split at hstep
    · cases hstep
      exact h.leaveChild_exited
    · rename_i signal hdecode
      cases hstep
      have hnext : Inv config { s with child := .setupNetwork signal } := by
        refine h.setChild (by rw [hpc]; rfl) (fun _ _ hc ↦ ?_)
        rw [hpc] at hc
        obtain rfl : bytes = [] := hc
        exact (Option.some.inj (Text.decode_nil.symm.trans hdecode)).symm
      exact { hnext with }
  · rename_i more sync hread
    cases hstep
    have hne : s.sync.buffer ≠ [] := (Pipe.read_eq_data hread).1
    have hstarted : s.started := by
      by_contra hnot
      exact hne (h.silent (Bool.eq_false_iff.mpr hnot))
    refine .of_started hstarted h.mapped fun hprivate hpast ↦ h.pastMapped hprivate ?_
    rw [hpc]
    exact hpast

/-- Without a word there is no network to set up, so the child ends. -/
theorem Inv.setupNetwork (hempty : json.decode [] = none) (h : Inv config s) {signal : List Char}
    (hpc : s.child = .setupNetwork signal) (hstep : s.stepChild config json = some t) :
    Inv config t := by
  have hpast :
      ChildPc.setupRootfs.pastMapped config.isRoot = s.child.pastMapped config.isRoot := by
    rw [hpc]
    rfl
  simp only [Handshake.stepChild, hpc] at hstep
  split at hstep
  · split at hstep
    · cases hstep
      exact h.leaveChild_exited
    · rename_i network hdecode
      cases hstep
      refine h.setChild hpast fun _ _ hc ↦ ?_
      rw [hpc] at hc
      obtain rfl : signal = [] := hc
      rw [hempty] at hdecode
      simp at hdecode
  · rename_i hnet
    cases hstep
    refine h.setChild hpast fun hbridge _ _ ↦ absurd ⟨?_, hbridge⟩ hnet
    rw [childFlags_newnet, hbridge]
    decide

theorem Inv.setupRootfs (h : Inv config s) (hpc : s.child = .setupRootfs)
    (hstep : s.stepChild config json = some t) : Inv config t := by
  have htold : config.network = .bridge → s.started := h.started_of_told (by rw [hpc]; exact id)
  simp only [Handshake.stepChild, hpc] at hstep
  split at hstep
  · rename_i hroot
    cases hstep
    refine { h with pastMapped := fun _ hpast ↦ ?_, untold := fun hbridge hnot ↦ ?_ }
    · simp [ChildPc.pastMapped, hroot.1] at hpast
    · exact absurd (htold hbridge) (Bool.eq_false_iff.mp hnot)
  · rename_i hroot
    cases hstep
    refine h.leaveUserns (fun hprivate ↦ h.pastMapped hprivate ?_) htold
    rw [hpc, ChildPc.pastMapped, Bool.not_eq_true']
    exact Bool.eq_false_iff.mpr fun hisRoot ↦ hroot ⟨hisRoot, hprivate⟩

theorem Inv.stepChild (hempty : json.decode [] = none) (h : Inv config s)
    (hstep : s.stepChild config json = some t) : Inv config t := by
  cases hpc : s.child with
  | unshareUser first =>
    simp only [Handshake.stepChild, hpc] at hstep
    cases hstep
    exact h.setChild (by rw [hpc]; rfl) (fun _ _ hc ↦ by rw [hpc] at hc; exact hc)
  | notifyReady first => exact h.notifyReady hpc hstep
  | waitMapped first => exact h.waitMapped hpc hstep
  | unshareFlags =>
    simp only [Handshake.stepChild, hpc] at hstep
    cases hstep
    exact h.setChild (by rw [hpc]; rfl) (fun _ _ _ ↦ rfl)
  | readSignal bytes => exact h.readSignal hpc hstep
  | setupNetwork signal => exact h.setupNetwork hempty hpc hstep
  | setupRootfs => exact h.setupRootfs hpc hstep
  | applySecurity =>
    simp only [Handshake.stepChild, hpc] at hstep
    cases hstep
    refine { h with pastMapped := fun hprivate _ ↦ ?_, untold := fun hbridge hnot ↦ ?_ }
    · exact h.pastMapped hprivate (by rw [hpc]; rfl)
    · exact absurd (h.started_of_told (by rw [hpc]; exact id) hbridge) (Bool.eq_false_iff.mp hnot)
  | execed | exited => simp [Handshake.stepChild, hpc] at hstep

theorem Inv.step (hempty : json.decode [] = none) (h : Inv config s) {a : HandshakeAct}
    (hstep : s.step config json a = some t) : Inv config t := by
  cases a with
  | parent => exact h.stepParent hstep
  | child => exact h.stepChild hempty hstep
  | allocate network =>
    simp only [Handshake.step] at hstep
    split at hstep
    · cases hstep
      exact h.setParent rfl
    · simp at hstep
  | cgroupFails =>
    simp only [Handshake.step] at hstep
    split at hstep
    · cases hstep
      exact h.leaveChild_exited.failParent
    · simp at hstep
  | parentFails =>
    cases hstep
    exact h.failParent
  | childFails =>
    simp only [Handshake.step] at hstep
    split at hstep
    · simp at hstep
    · cases hstep
      exact h.leaveChild_exited

/-! ## A parent that does not fail too early -/

/-- Has the child not come to the end of the sync pipe yet? -/
def unread : ChildPc → Bool
  | .unshareUser first | .notifyReady first | .waitMapped first => first
  | .unshareFlags | .readSignal _ => true
  | .setupNetwork _ | .setupRootfs | .applySecurity | .execed | .exited => false

/-- Until the container is recorded, the open sync pipe holds the child. -/
def Held (s : Handshake) : Prop :=
  s.started = false → s.child = .exited ∨ s.sync.writer ∧ unread s.child

/-- The condition: the parent fails only after `on_started` has returned `Ok`. -/
def RecordsFirst (s : Handshake) : HandshakeAct → Prop
  | .parentFails => s.started
  | _ => True

theorem Held.start (config : Config) : (Handshake.start config).Held := by
  intro _
  refine Or.inr ⟨rfl, ?_⟩
  show unread (if _ then _ else _)
  split <;> rfl

theorem Held.of_started (h : s.started) : s.Held := fun hnot ↦
  absurd h (Bool.eq_false_iff.mp hnot)

theorem started_of_stepParent (hstarted : s.started) (hstep : s.stepParent config json = some t) :
    t.started := by
  unfold Handshake.stepParent at hstep
  split at hstep
  case h_4 => exact Option.some.inj hstep ▸ rfl
  case h_1 | h_2 | h_3 | h_7 => exact Option.some.inj hstep ▸ hstarted
  case h_5 =>
    split at hstep
    · exact Option.some.inj hstep ▸ hstarted
    · dsimp only at hstep
      split at hstep <;> exact Option.some.inj hstep ▸ hstarted
  case h_6 | h_8 =>
    split at hstep
    all_goals first
      | exact Option.some.inj hstep ▸ hstarted
      | exact absurd hstep (Option.some_ne_none _).symm
  all_goals exact absurd hstep (Option.some_ne_none _).symm

/-- Before it has recorded the container, the parent does not touch the sync pipe. -/
theorem started_or_same_of_stepParent (hinv : Inv config s)
    (hstep : s.stepParent config json = some t) :
    t.started ∨ t.child = s.child ∧ t.sync = s.sync ∧ t.started = s.started := by
  by_cases hrec : s.parent.isRecorded
  · exact Or.inl (started_of_stepParent (hinv.recorded hrec) hstep)
  · unfold Handshake.stepParent at hstep
    split at hstep
    case h_4 => exact Or.inl (Option.some.inj hstep ▸ rfl)
    case h_1 | h_2 | h_3 => exact Or.inr (Option.some.inj hstep ▸ ⟨rfl, rfl, rfl⟩)
    case h_9 | h_10 | h_11 => exact absurd hstep (Option.some_ne_none _).symm
    all_goals
      rename_i hpc
      exact absurd (by rw [hpc]; rfl) hrec

/-- While the sync pipe is open, the child reads it or is on its way there. -/
theorem stepChild_unread (hwriter : s.sync.writer) (hunread : unread s.child)
    (hstep : s.stepChild config json = some t) :
    t.child = .exited ∨ t.sync.writer ∧ unread t.child := by
  unfold Handshake.stepChild at hstep
  split at hstep
  case h_1 first hpc =>
    rw [hpc] at hunread
    cases hstep
    exact Or.inr ⟨hwriter, hunread⟩
  case h_2 first hpc =>
    rw [hpc] at hunread
    split at hstep
    · cases hstep
      exact Or.inl rfl
    · cases hstep
      exact Or.inr ⟨hwriter, hunread⟩
  case h_3 first hpc =>
    rw [hpc] at hunread
    split at hstep
    · simp at hstep
    · cases hstep
      exact Or.inl rfl
    · rw [if_pos (show first = true from hunread)] at hstep
      cases hstep
      exact Or.inr ⟨hwriter, rfl⟩
  case h_4 =>
    cases hstep
    exact Or.inr ⟨hwriter, rfl⟩
  case h_5 bytes hpc =>
    split at hstep
    · simp at hstep
    · -- there is no end of the file while the other end is open
      rename_i heof
      have hclosed : s.sync.writer = false := (Pipe.read_eq_eof_iff.mp heof).2
      exact absurd hwriter (Bool.eq_false_iff.mp hclosed)
    · rename_i hread
      cases hstep
      exact Or.inr ⟨(Pipe.read_eq_data hread).2.trans hwriter, rfl⟩
  all_goals
    rename_i hpc
    rw [hpc] at hunread
    cases hunread

theorem started_of_stepChild (hstep : s.stepChild config json = some t) :
    t.started = s.started := by
  unfold Handshake.stepChild at hstep
  repeat' split at hstep
  all_goals first
    | exact Option.some.inj hstep ▸ rfl
    | exact absurd hstep (Option.some_ne_none _).symm

theorem Held.step (h : s.Held) (hinv : Inv config s) {a : HandshakeAct} (hcond : s.RecordsFirst a)
    (hstep : s.step config json a = some t) : t.Held := by
  cases a with
  | parent =>
    rcases started_or_same_of_stepParent hinv hstep with hstarted | ⟨hchild, hsync, hsame⟩
    · exact .of_started hstarted
    · rw [Held, hchild, hsync, hsame]
      exact h
  | parentFails =>
    cases hstep
    exact .of_started hcond
  | child =>
    intro hnot
    rw [started_of_stepChild hstep] at hnot
    rcases h hnot with hexited | ⟨hwriter, hunread⟩
    · simp only [Handshake.step, Handshake.stepChild, hexited] at hstep
      simp at hstep
    · exact stepChild_unread hwriter hunread hstep
  | allocate network =>
    simp only [Handshake.step] at hstep
    split at hstep
    · cases hstep
      exact h
    · simp at hstep
  | cgroupFails =>
    simp only [Handshake.step] at hstep
    split at hstep
    · cases hstep
      exact fun _ ↦ Or.inl rfl
    · simp at hstep
  | childFails =>
    simp only [Handshake.step] at hstep
    split at hstep
    · simp at hstep
    · cases hstep
      exact fun _ ↦ Or.inl rfl

/-! ## Runs -/

theorem Inv.safe (h : Inv config s) (hconfig : config.network = .bridge ∨ config.isPrivate) :
    s.Safe config := by
  intro hexec
  have hmaps : config.isPrivate → s.maps := fun hprivate ↦
    h.pastMapped hprivate (by rw [hexec]; rfl)
  refine ⟨?_, hmaps⟩
  rcases hconfig with hbridge | hprivate
  · exact h.started_of_told (by rw [hexec]; exact id) hbridge
  · exact h.maps (hmaps hprivate)

/-- The parent fails, and then the child goes all the way. -/
def orphanSchedule : List HandshakeAct :=
  [.parentFails, .child, .child, .child, .child, .child]

/-- Without a bridge and without a user namespace, nothing stops the child. -/
theorem exec_orphanSchedule (hbridge : config.network ≠ .bridge)
    (hprivate : config.isPrivate = false) :
    ∃ t, exec (Handshake.step config json) (Handshake.start config) orphanSchedule = some t ∧
      t.child = .execed ∧ t.started = false := by
  have hstart : Handshake.start config = { parent := .setupCgroup, child := .unshareFlags } := by
    simp [Handshake.start, hprivate]
  have hnetwork : ¬ (config.childFlags.newnet ∧ config.network = .bridge) := fun h ↦ hbridge h.2
  have hroot : ¬ (config.isRoot ∧ config.isPrivate) := by
    rw [hprivate]
    exact fun h ↦ Bool.false_ne_true h.2
  let t : Handshake :=
    { parent := .failed
      child := .execed
      sync := { writer := false, reader := false }
      ready := { writer := false, reader := false }
      mapped := { writer := false, reader := false } }
  refine ⟨t, ?_, rfl, rfl⟩
  simp only [hstart, orphanSchedule, exec, Handshake.step, Handshake.failParent,
    Handshake.stepChild, Option.bind_some, Pipe.closeWriter, Pipe.closeReader, Pipe.read, if_true,
    Bool.false_eq_true, if_false, Text.decode_nil, if_neg hnetwork, if_neg hroot,
    Handshake.leaveUserns, Handshake.leaveChild]
  rfl

end Handshake

open Handshake

/-- **When the handshake is safe.**  In every state of every run of the two parties — any of their
steps may fail, and the parent may die at any point — the child has executed the command only if
`on_started` has returned `Ok` and, with a private user namespace, the maps are written: exactly if
the network is a bridge or the user namespace is private.  What is relied on of the JSON library is
that the empty text is not a network configuration. -/
theorem handshake_safe_iff (config : Config) (json : Json) (hempty : json.decode [] = none) :
    (∀ t, Reachable (Handshake.step config json) (start config) t → t.Safe config) ↔
      config.network = .bridge ∨ config.isPrivate := by
  constructor
  · intro hsafe
    by_contra hconfig
    obtain ⟨hbridge, hprivate⟩ := not_or.mp hconfig
    obtain ⟨t, hexec, hchild, hstarted⟩ :=
      @exec_orphanSchedule config json hbridge (Bool.eq_false_iff.mpr hprivate)
    have hsound := (hsafe t ⟨_, hexec⟩ hchild).1
    rw [hstarted] at hsound
    simp at hsound
  · intro hconfig t hreach
    have hinv : Inv config t :=
      invariant (fun _ _ _ h hstep ↦ h.step hempty hstep) (Inv.start config) hreach
    exact hinv.safe hconfig

/-- **No failure, no harm.**  Whatever the configuration, the child is safe in every run in which the
parent does not fail before `on_started` has returned `Ok`. -/
theorem safe_of_records_first (config : Config) (json : Json) (hempty : json.decode [] = none)
    (as : List HandshakeAct) (t : Handshake)
    (hcond : Along (Handshake.step config json) RecordsFirst (start config) as)
    (hrun : exec (Handshake.step config json) (start config) as = some t) : t.Safe config := by
  obtain ⟨hinv, hheld⟩ := invariant_along (P := fun s ↦ Inv config s ∧ s.Held)
    (fun s a s' h hc hstep ↦ ⟨h.1.step hempty hstep, Held.step h.2 h.1 hc hstep⟩)
    ⟨Inv.start config, Held.start config⟩ hcond hrun
  intro hexec
  refine ⟨?_, fun hprivate ↦ hinv.pastMapped hprivate (by rw [hexec]; rfl)⟩
  by_contra hnot
  rcases hheld (Bool.eq_false_iff.mpr hnot) with hexited | ⟨_, hunread⟩
  · rw [hexec] at hexited
    simp at hexited
  · rw [hexec] at hunread
    cases hunread

/-- A root runtime, a user namespace shared with the host, and the usual other namespaces. -/
def sampleConfig (networkMode : NetworkMode) (h : networkMode ≠ .host) : Config where
  isRoot := true
  networkMode := networkMode
  usernsMode := .host
  cgroup := false
  namespaces := ["pid", "mount", "uts", "ipc"]
  flags := { newpid := true, newns := true, newuts := true, newipc := true, newnet := true }
  flags_eq := by
    cases networkMode with
    | host => exact absurd rfl h
    | none | bridge => decide

/-- The network of octet 20. -/
def sampleNetwork : BridgeNetwork := .forContainerId "demo" 20

/-- The JSON text of a network whose names need no escaping, and a reader that knows the one of
`sampleNetwork`. -/
def sampleJson : Json where
  encode network := jsonText network
  decode text := match text with
    | [] => none
    | text => if text = jsonText sampleNetwork then some sampleNetwork else none
where
  jsonText (network : BridgeNetwork) : List Char :=
    (r#"{"veth":{"host_name":""# ++ network.veth.hostName ++ r#"","peer_name":""# ++
      network.veth.peerName ++ r#""},"subnet":""# ++ network.subnet ++ r#"","host_cidr":""# ++
      network.hostCidr ++ r#"","container_cidr":""# ++ network.containerCidr ++
      r#"","gateway":""# ++ network.gateway ++ r#""}"#).toList

/-- In bridge mode the empty text stops the child. -/
theorem handshake_safe_iff_bridge :
    sampleJson.decode [] = none ∧
      ∀ t, Reachable (Handshake.step (sampleConfig .bridge (by decide)) sampleJson)
        (start (sampleConfig .bridge (by decide))) t → t.Safe (sampleConfig .bridge (by decide)) :=
  ⟨rfl, (handshake_safe_iff (sampleConfig .bridge (by decide)) sampleJson rfl).mpr (Or.inl rfl)⟩

/-- Without a network: `on_started` fails, the parent returns the error, and the child executes the
command. -/
theorem child_outlives_failed_start :
    ∃ t, exec (Handshake.step (sampleConfig .none (by decide)) sampleJson)
        (start (sampleConfig .none (by decide)))
        [.child, .parent, .parentFails, .child, .child, .child, .child] = some t ∧
      t.parent = .failed ∧ t.child = .execed ∧ t.started = false := by
  have hend : (exec (Handshake.step (sampleConfig .none (by decide)) sampleJson)
      (start (sampleConfig .none (by decide)))
      [.child, .parent, .parentFails, .child, .child, .child, .child]).map
      (fun t ↦ (t.parent, t.child, t.started)) = some (.failed, .execed, false) := by
    decide +kernel
  obtain ⟨t, hexec, htuple⟩ := Option.map_eq_some_iff.mp hend
  obtain ⟨hparent, hrest⟩ := Prod.mk.inj htuple
  obtain ⟨hchild, hstarted⟩ := Prod.mk.inj hrest
  exact ⟨t, hexec, hparent, hchild, hstarted⟩

end CrunRs.Container
