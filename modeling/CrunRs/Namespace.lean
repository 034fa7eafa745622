import CrunRs.Lib.Fallible
import CrunRs.State.Basic

/-!
# User namespaces and clone flags

`namespace/mod.rs`, which combines the namespaces a bundle asks for with the network mode and the
user namespace mode of `userns/mod.rs` into those a container process is given.
-/

set_option autoImplicit false

namespace CrunRs

open Network State

inductive UserNamespaceMode
  | host
  | private_ (map : UserNamespaceMap)
  deriving DecidableEq, Repr

/-- `UserNamespaceMode::is_private`. -/
def UserNamespaceMode.isPrivate : UserNamespaceMode → Bool
  | host => false
  | private_ _ => true

/-- `CloneFlags`, as far as the runtime uses them. -/
structure CloneFlags where
  newpid : Bool := false
  newns : Bool := false
  newuts : Bool := false
  newipc : Bool := false
  newnet : Bool := false
  newuser : Bool := false
  deriving DecidableEq, Repr

/-- One round of the loop of `namespace_flags`. -/
def CloneFlags.insertNamed (flags : CloneFlags) (name : String) : Except String CloneFlags :=
  if name = "pid" then .ok { flags with newpid := true }
  else if name = "mount" then .ok { flags with newns := true }
  else if name = "uts" then .ok { flags with newuts := true }
  else if name = "ipc" then .ok { flags with newipc := true }
  else if name = "network" then .ok { flags with newnet := true }
  else if name = "user" then .ok { flags with newuser := true }
  else .error ("unsupported OCI Linux namespace type: " ++ name)

/-- `namespace_flags`. -/
def namespaceFlags (namespaces : List String) : Except String CloneFlags :=
  namespaces.foldlM CloneFlags.insertNamed {}

theorem exists_insertNamed_iff (flags : CloneFlags) (name : String) :
    (∃ flags', flags.insertNamed name = .ok flags') ↔
      name ∈ ["pid", "mount", "uts", "ipc", "network", "user"] := by
  simp only [CloneFlags.insertNamed]
  split_ifs <;> simp [*]

/-- The namespaces a bundle may ask for. -/
theorem exists_namespaceFlags_iff {namespaces : List String} :
    (∃ flags, namespaceFlags namespaces = .ok flags) ↔
      ∀ name ∈ namespaces, name ∈ ["pid", "mount", "uts", "ipc", "network", "user"] :=
  Fallible.exists_foldlM_eq_ok_iff exists_insertNamed_iff

/-- `apply_network_mode`. -/
def applyNetworkMode (flags : CloneFlags) : NetworkMode → CloneFlags
  | .host => { flags with newnet := false }
  | .none | .bridge => { flags with newnet := true }

/-- `apply_userns_mode`. -/
def applyUsernsMode (flags : CloneFlags) (mode : UserNamespaceMode) : CloneFlags :=
  { flags with newuser := mode.isPrivate }

/-- `effective_namespace_flags`. -/
def effectiveNamespaceFlags (namespaces : List String) (network : NetworkMode)
    (userns : UserNamespaceMode) : Except String CloneFlags :=
  (namespaceFlags namespaces).map fun flags ↦ applyUsernsMode (applyNetworkMode flags network) userns

/-- Whatever the bundle asks for, the network mode decides about the network namespace. -/
theorem effectiveNamespaceFlags_newnet {namespaces : List String} {network : NetworkMode}
    {userns : UserNamespaceMode} {flags : CloneFlags}
    (h : effectiveNamespaceFlags namespaces network userns = .ok flags) :
    flags.newnet = decide (network ≠ .host) := by
  unfold effectiveNamespaceFlags at h
  cases hflags : namespaceFlags namespaces with
  | error e =>
    rw [hflags] at h
    cases h
  | ok base =>
    rw [hflags] at h
    cases h
    cases network <;> rfl

end CrunRs
