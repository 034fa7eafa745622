import Mathlib.Data.List.Basic

/-!
# The runtime's typed errors

The variants of `error.rs` that a modelled function returns, each with the data it carries and, for
the ones whose text ends up in a persisted state or a report, that text.
-/

set_option autoImplicit false

namespace CrunRs

/-- `SeccompError`. -/
inductive SeccompError
  | emptyProgram
  | programTooLong (length limit : Nat)
  | programDoesNotEndInReturn
  | jumpOutOfRange (index target : Nat)
  | unsupportedArchitecture
  | invalidSyscallNumber (number : Int)
  | noCaptures
  | archMismatch (expected found : UInt32)
  | missingProfilePath
  | profileWithoutEnforce
  | captureWithoutLearn
  | invalidMode (value : String)
  | invalidAction (value : String)
  | invalidOrder (value : String)
  | unsupportedConditionalRule (syscalls : String)
  deriving DecidableEq, Repr

/-- `NetworkError`, and the failures of the outside that the network code passes on with a context
of its own. -/
inductive NetworkError
  | noBridgeSubnetsAvailable (start stop : UInt8)
  | commandFailed (program args : String)
  | commandTimedOut (program args : String) (timeoutMs : Nat)
  | lockTimeout
  | context (message : String)
  deriving DecidableEq, Repr

/-- What a `NetworkError` is shown as. -/
def NetworkError.display : NetworkError → String
  | .noBridgeSubnetsAvailable start stop =>
    "no bridge subnets available in 10.88." ++ toString start.toNat ++ ".0/24..10.88." ++
      toString stop.toNat ++ ".0/24"
  | .commandFailed program args => program ++ " command failed: " ++ args
  | .commandTimedOut program args timeoutMs =>
    program ++ " command timed out after " ++ toString timeoutMs ++ "ms: " ++ args
  | .lockTimeout => "timed out waiting for network allocation lock"
  | .context message => message

/-- `OciConfigError`. -/
inductive OciConfigError
  | emptyProcessArgs
  | invalidEnvironmentEntry (index : Nat)
  | emptyEnvironmentKey (index : Nat)
  | environmentContainsNul (index : Nat)
  | duplicateEnvironmentKey (key : String)
  | unsupportedCapabilities
  | emptyRootPath
  | emptyMountDestination
  | unsupportedMountType (mountType : String)
  | emptyBindMountSource
  | emptyHealthcheckTest
  | rlimitSoftExceedsHard (rlimitType : String)
  | unsupportedRlimit (rlimitType : String)
  | emptyOverlayPath (field : String)
  | unsupportedCrunProfile (profile : String)
  | linuxPathNotAbsolute (path : String)
  | linuxPathEscapesRoot (path : String)
  | unsupportedNamespace (namespaceType : String)
  deriving DecidableEq, Repr

/-- `FilesystemError`, and other failures with the context the file-system code gives them. -/
inductive FilesystemError
  | mountDestinationNotAbsolute (path : String)
  | mountDestinationEscapesRootfs (path : String)
  | mountDestinationIsContainerRoot
  | missingBindMountSource
  | bindDestinationIsDirectory (path : String)
  | ociConfig (error : OciConfigError)
  | overlayLowerdirDoesNotExist (path : String)
  | overlayMergeddirAlreadyExists (path : String)
  | context (message : String)
  deriving DecidableEq, Repr

/-- `StateError`, and other failures with the context the state code gives them. -/
inductive StateError
  | emptyContainerId
  | invalidContainerId
  | containerIsRunning (id : String)
  | lockFailed (id errno : String)
  | context (message : String)
  deriving DecidableEq, Repr

/-- `CgroupError`, and what else the cgroup code passes on. -/
inductive CgroupError
  | invalidMemoryLimit (value : Int)
  | invalidPidsLimit (value : Int)
  | invalidCpuQuota (value : Int)
  | invalidCpuPeriod (value : UInt64)
  | cgroupV2Unavailable
  | controllerUnavailable (controller : String)
  | state (error : StateError)
  | context (message : String)
  deriving DecidableEq, Repr

/-- `ImageError`, and other failures with the context the image code gives them. -/
inductive ImageError
  | emptyImageName
  | invalidImageName
  | imageNotFound (name : String)
  | imageRootfsNotFound (path : String)
  | rootfsTarDoesNotExist (path : String)
  | imageAlreadyExists (name : String)
  | archivePathEscapesRootfs (path : String)
  | archiveLinkTargetMissing (path : String)
  | unsupportedArchiveEntry (path kind : String)
  | archiveTooManyEntries (limit : Nat)
  | archiveTooLarge (limit : Nat)
  | archiveFileTooLarge (path : String) (size limit : Nat)
  | context (message : String)
  deriving DecidableEq, Repr

/-- `AuditLogError`, and the failures of file operations with the context they are given. -/
inductive AuditLogError
  | recordTooLarge (size limit : Nat)
  | context (message : String)
  deriving DecidableEq, Repr

/-- `EventError`. -/
inductive EventError
  | invalidInterval
  deriving DecidableEq, Repr

/-- `ModeError`. -/
inductive ModeError
  | invalidNetworkMode (value : String)
  | invalidSecurityProfile (value : String)
  | invalidLogMode (value : String)
  deriving DecidableEq, Repr

/-- `PolicyError`. -/
inductive PolicyError
  | unsupportedProfile (value : String)
  deriving DecidableEq, Repr

/-- `ContainerError`. -/
inductive ContainerError
  | emptyExecArgs
  | logHelperExited (code : Int)
  | logHelperKilled (signal : String)
  | logHelperStatus (status : String)
  | childExitedBeforeUsernsReady
  deriving DecidableEq, Repr

/-- `LifecycleError`, and what else the commands pass on. -/
inductive LifecycleError
  | containerAlreadyExists (id : String)
  | containerNotCreated (id : String)
  | containerNotRunning (id : String)
  | containerHasNoPid (id : String)
  | state (error : StateError)
  | seccomp (error : SeccompError)
  | mode (error : ModeError)
  | policy (error : PolicyError)
  | container (error : ContainerError)
  | network (error : NetworkError)
  | auditLog (error : AuditLogError)
  | context (message : String)
  deriving DecidableEq, Repr

/-- `HealthcheckError`. -/
inductive HealthcheckError
  | emptyTest
  | disabled
  | missingCommand (kind : String)
  | invalidTimeout (value : String)
  deriving DecidableEq, Repr

/-- `HealthRunError`, and what else `health::run_once` passes on. -/
inductive HealthRunError
  | containerNotRunning (id : String)
  | containerHasNoPid (id : String)
  | noHealthcheckConfigured
  | healthcheckDidNotRun
  | healthcheck (error : HealthcheckError)
  | invalidSecurityProfile (value : String)
  | state (error : StateError)
  | context (message : String)
  deriving DecidableEq, Repr

/-- What `replace_environment` passes on. -/
inductive EnvironmentError
  | config (error : OciConfigError)
  | context (message : String)
  deriving DecidableEq, Repr

/-- The failures to read a process, with the context they are given. -/
inductive TraceError
  | context (message : String)
  deriving DecidableEq, Repr

end CrunRs
