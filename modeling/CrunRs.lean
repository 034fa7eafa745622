import CrunRs.Seccomp.Generate
import CrunRs.Security
import CrunRs.Network.Lock
import CrunRs.Lifecycle.Outcome
import CrunRs.Lifecycle.Delete
import CrunRs.Container.Handshake
import CrunRs.AuditLog
import CrunRs.Seccomp.Collector
import CrunRs.Seccomp.Meaning
import CrunRs.Policy
import CrunRs.Lib.OsPath
import CrunRs.Lifecycle.Launch
import CrunRs.Seccomp.Options
import CrunRs.Lifecycle.Exec
import CrunRs.Lifecycle.StateRoot
import CrunRs.Network.Nat
import CrunRs.Lifecycle.Teardown
import CrunRs.Lifecycle.Finish
import CrunRs.Lifecycle.Unique
import CrunRs.Seccomp.Growth
import CrunRs.Lifecycle.Lineage
import CrunRs.Filesystem.Overlay
import CrunRs.State.LockFile
import CrunRs.Network.Leases
import CrunRs.Lifecycle.Bridge
import CrunRs.Spec.Validate
import CrunRs.Filesystem.Mounts
import CrunRs.Cgroup
import CrunRs.Bundle
import CrunRs.Seccomp.Signals
import CrunRs.Filesystem.Rootfs
import CrunRs.Filesystem.Settings
import CrunRs.Lifecycle.ExecOutcome
import CrunRs.Filesystem.Destination
import CrunRs.Filesystem.Prepare
import CrunRs.RootfsDiff.Faithful
import CrunRs.AuditLog.Tail
import CrunRs.AuditLog.Atomic
import CrunRs.Lifecycle.DeleteLog
import CrunRs.Network.Names
import CrunRs.Network.Rollback
import CrunRs.Seccomp.Lossless
import CrunRs.Seccomp.Bookkeeping
import CrunRs.Seccomp.Termination
import CrunRs.Lifecycle.Stop
import CrunRs.Filesystem.OverlayTree
import CrunRs.Seccomp.Processes
import CrunRs.Seccomp.EventLimit
import CrunRs.Seccomp.Order
import CrunRs.Lib.LinearSearch
import CrunRs.Seccomp.Cost
import CrunRs.Seccomp.Coverage
import CrunRs.Seccomp.Baseline
import CrunRs.Filesystem.OverlayData
import CrunRs.Filesystem.MountOptions
import CrunRs.Container.FollowLogs
import CrunRs.Events
import CrunRs.Cgroup.Mountinfo
import CrunRs.Seccomp.Validate
import CrunRs.Container.Env
import CrunRs.Seccomp.Overflow
import CrunRs.Lib.Forest
import CrunRs.Trace
import CrunRs.Lib.CredentialRuns
import CrunRs.Lib.FilterStack
import CrunRs.Security.Apply
import CrunRs.Security.Confinement
import CrunRs.AuditLog.Concurrent
import CrunRs.Filesystem.LinuxPaths
import CrunRs.Container.ErrorPipe
import CrunRs.Image
import CrunRs.Image.Import
import CrunRs.Doctor.Repair
