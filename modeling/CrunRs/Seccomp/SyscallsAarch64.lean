import CrunRs.Seccomp.Arch

/-!
# The aarch64 syscall table

`seccomp/syscalls_aarch64.rs`, generated from libc: the same entries twice, once sorted by name and
once sorted by number.
-/

set_option autoImplicit false

namespace CrunRs.Seccomp.Aarch64

/-- Sorted by name. -/
def table : List SyscallEntry := [
  ⟨"accept", 202⟩, ⟨"accept4", 242⟩, ⟨"acct", 89⟩, ⟨"add_key", 217⟩, ⟨"adjtimex", 171⟩,
  ⟨"bind", 200⟩, ⟨"bpf", 280⟩, ⟨"brk", 214⟩, ⟨"capget", 90⟩, ⟨"capset", 91⟩, ⟨"chdir", 49⟩,
  ⟨"chroot", 51⟩, ⟨"clock_adjtime", 266⟩, ⟨"clock_getres", 114⟩, ⟨"clock_gettime", 113⟩,
  ⟨"clock_nanosleep", 115⟩, ⟨"clock_settime", 112⟩, ⟨"clone", 220⟩, ⟨"clone3", 435⟩, ⟨"close", 57⟩,
  ⟨"close_range", 436⟩, ⟨"connect", 203⟩, ⟨"copy_file_range", 285⟩, ⟨"delete_module", 106⟩,
  ⟨"dup", 23⟩, ⟨"dup3", 24⟩, ⟨"epoll_create1", 20⟩, ⟨"epoll_ctl", 21⟩, ⟨"epoll_pwait", 22⟩,
  ⟨"epoll_pwait2", 441⟩, ⟨"eventfd2", 19⟩, ⟨"execve", 221⟩, ⟨"execveat", 281⟩, ⟨"exit", 93⟩,
  ⟨"exit_group", 94⟩, ⟨"faccessat", 48⟩, ⟨"faccessat2", 439⟩, ⟨"fallocate", 47⟩,
  ⟨"fanotify_init", 262⟩, ⟨"fanotify_mark", 263⟩, ⟨"fchdir", 50⟩, ⟨"fchmod", 52⟩, ⟨"fchmodat", 53⟩,
  ⟨"fchown", 55⟩, ⟨"fchownat", 54⟩, ⟨"fcntl", 25⟩, ⟨"fdatasync", 83⟩, ⟨"fgetxattr", 10⟩,
  ⟨"finit_module", 273⟩, ⟨"flistxattr", 13⟩, ⟨"flock", 32⟩, ⟨"fremovexattr", 16⟩,
  ⟨"fsconfig", 431⟩, ⟨"fsetxattr", 7⟩, ⟨"fsmount", 432⟩, ⟨"fsopen", 430⟩, ⟨"fspick", 433⟩,
  ⟨"fstat", 80⟩, ⟨"fstatfs", 44⟩, ⟨"fsync", 82⟩, ⟨"ftruncate", 46⟩, ⟨"futex", 98⟩,
  ⟨"futex_waitv", 449⟩, ⟨"get_mempolicy", 236⟩, ⟨"get_robust_list", 100⟩, ⟨"getcpu", 168⟩,
  ⟨"getcwd", 17⟩, ⟨"getdents64", 61⟩, ⟨"getegid", 177⟩, ⟨"geteuid", 175⟩, ⟨"getgid", 176⟩,
  ⟨"getgroups", 158⟩, ⟨"getitimer", 102⟩, ⟨"getpeername", 205⟩, ⟨"getpgid", 155⟩, ⟨"getpid", 172⟩,
  ⟨"getppid", 173⟩, ⟨"getpriority", 141⟩, ⟨"getrandom", 278⟩, ⟨"getresgid", 150⟩,
  ⟨"getresuid", 148⟩, ⟨"getrusage", 165⟩, ⟨"getsid", 156⟩, ⟨"getsockname", 204⟩,
  ⟨"getsockopt", 209⟩, ⟨"gettid", 178⟩, ⟨"gettimeofday", 169⟩, ⟨"getuid", 174⟩, ⟨"getxattr", 8⟩,
  ⟨"init_module", 105⟩, ⟨"inotify_add_watch", 27⟩, ⟨"inotify_init1", 26⟩, ⟨"inotify_rm_watch", 28⟩,
  ⟨"io_cancel", 3⟩, ⟨"io_destroy", 1⟩, ⟨"io_getevents", 4⟩, ⟨"io_setup", 0⟩, ⟨"io_submit", 2⟩,
  ⟨"io_uring_enter", 426⟩, ⟨"io_uring_register", 427⟩, ⟨"io_uring_setup", 425⟩, ⟨"ioctl", 29⟩,
  ⟨"ioprio_get", 31⟩, ⟨"ioprio_set", 30⟩, ⟨"kcmp", 272⟩, ⟨"kexec_file_load", 294⟩,
  ⟨"kexec_load", 104⟩, ⟨"keyctl", 219⟩, ⟨"kill", 129⟩, ⟨"landlock_add_rule", 445⟩,
  ⟨"landlock_create_ruleset", 444⟩, ⟨"landlock_restrict_self", 446⟩, ⟨"lgetxattr", 9⟩,
  ⟨"linkat", 37⟩, ⟨"listen", 201⟩, ⟨"listxattr", 11⟩, ⟨"llistxattr", 12⟩, ⟨"lookup_dcookie", 18⟩,
  ⟨"lremovexattr", 15⟩, ⟨"lseek", 62⟩, ⟨"lsetxattr", 6⟩, ⟨"madvise", 233⟩, ⟨"mbind", 235⟩,
  ⟨"membarrier", 283⟩, ⟨"memfd_create", 279⟩, ⟨"memfd_secret", 447⟩, ⟨"migrate_pages", 238⟩,
  ⟨"mincore", 232⟩, ⟨"mkdirat", 34⟩, ⟨"mknodat", 33⟩, ⟨"mlock", 228⟩, ⟨"mlock2", 284⟩,
  ⟨"mlockall", 230⟩, ⟨"mmap", 222⟩, ⟨"mount", 40⟩, ⟨"mount_setattr", 442⟩, ⟨"move_mount", 429⟩,
  ⟨"move_pages", 239⟩, ⟨"mprotect", 226⟩, ⟨"mq_getsetattr", 185⟩, ⟨"mq_notify", 184⟩,
  ⟨"mq_open", 180⟩, ⟨"mq_timedreceive", 183⟩, ⟨"mq_timedsend", 182⟩, ⟨"mq_unlink", 181⟩,
  ⟨"mremap", 216⟩, ⟨"mseal", 462⟩, ⟨"msgctl", 187⟩, ⟨"msgget", 186⟩, ⟨"msgrcv", 188⟩,
  ⟨"msgsnd", 189⟩, ⟨"msync", 227⟩, ⟨"munlock", 229⟩, ⟨"munlockall", 231⟩, ⟨"munmap", 215⟩,
  ⟨"name_to_handle_at", 264⟩, ⟨"nanosleep", 101⟩, ⟨"newfstatat", 79⟩, ⟨"nfsservctl", 42⟩,
  ⟨"open_by_handle_at", 265⟩, ⟨"open_tree", 428⟩, ⟨"openat", 56⟩, ⟨"openat2", 437⟩,
  ⟨"perf_event_open", 241⟩, ⟨"personality", 92⟩, ⟨"pidfd_getfd", 438⟩, ⟨"pidfd_open", 434⟩,
  ⟨"pidfd_send_signal", 424⟩, ⟨"pipe2", 59⟩, ⟨"pivot_root", 41⟩, ⟨"pkey_alloc", 289⟩,
  ⟨"pkey_free", 290⟩, ⟨"pkey_mprotect", 288⟩, ⟨"ppoll", 73⟩, ⟨"prctl", 167⟩, ⟨"pread64", 67⟩,
  ⟨"preadv", 69⟩, ⟨"preadv2", 286⟩, ⟨"prlimit64", 261⟩, ⟨"process_madvise", 440⟩,
  ⟨"process_mrelease", 448⟩, ⟨"process_vm_readv", 270⟩, ⟨"process_vm_writev", 271⟩,
  ⟨"pselect6", 72⟩, ⟨"ptrace", 117⟩, ⟨"pwrite64", 68⟩, ⟨"pwritev", 70⟩, ⟨"pwritev2", 287⟩,
  ⟨"quotactl", 60⟩, ⟨"quotactl_fd", 443⟩, ⟨"read", 63⟩, ⟨"readahead", 213⟩, ⟨"readlinkat", 78⟩,
  ⟨"readv", 65⟩, ⟨"reboot", 142⟩, ⟨"recvfrom", 207⟩, ⟨"recvmmsg", 243⟩, ⟨"recvmsg", 212⟩,
  ⟨"remap_file_pages", 234⟩, ⟨"removexattr", 14⟩, ⟨"renameat2", 276⟩, ⟨"request_key", 218⟩,
  ⟨"restart_syscall", 128⟩, ⟨"rseq", 293⟩, ⟨"rt_sigaction", 134⟩, ⟨"rt_sigpending", 136⟩,
  ⟨"rt_sigprocmask", 135⟩, ⟨"rt_sigqueueinfo", 138⟩, ⟨"rt_sigreturn", 139⟩, ⟨"rt_sigsuspend", 133⟩,
  ⟨"rt_sigtimedwait", 137⟩, ⟨"rt_tgsigqueueinfo", 240⟩, ⟨"sched_get_priority_max", 125⟩,
  ⟨"sched_get_priority_min", 126⟩, ⟨"sched_getaffinity", 123⟩, ⟨"sched_getattr", 275⟩,
  ⟨"sched_getparam", 121⟩, ⟨"sched_getscheduler", 120⟩, ⟨"sched_rr_get_interval", 127⟩,
  ⟨"sched_setaffinity", 122⟩, ⟨"sched_setattr", 274⟩, ⟨"sched_setparam", 118⟩,
  ⟨"sched_setscheduler", 119⟩, ⟨"sched_yield", 124⟩, ⟨"seccomp", 277⟩, ⟨"semctl", 191⟩,
  ⟨"semget", 190⟩, ⟨"semop", 193⟩, ⟨"semtimedop", 192⟩, ⟨"sendmmsg", 269⟩, ⟨"sendmsg", 211⟩,
  ⟨"sendto", 206⟩, ⟨"set_mempolicy", 237⟩, ⟨"set_mempolicy_home_node", 450⟩,
  ⟨"set_robust_list", 99⟩, ⟨"set_tid_address", 96⟩, ⟨"setdomainname", 162⟩, ⟨"setfsgid", 152⟩,
  ⟨"setfsuid", 151⟩, ⟨"setgid", 144⟩, ⟨"setgroups", 159⟩, ⟨"sethostname", 161⟩, ⟨"setitimer", 103⟩,
  ⟨"setns", 268⟩, ⟨"setpgid", 154⟩, ⟨"setpriority", 140⟩, ⟨"setregid", 143⟩, ⟨"setresgid", 149⟩,
  ⟨"setresuid", 147⟩, ⟨"setreuid", 145⟩, ⟨"setsid", 157⟩, ⟨"setsockopt", 208⟩,
  ⟨"settimeofday", 170⟩, ⟨"setuid", 146⟩, ⟨"setxattr", 5⟩, ⟨"shmat", 196⟩, ⟨"shmctl", 195⟩,
  ⟨"shmdt", 197⟩, ⟨"shmget", 194⟩, ⟨"shutdown", 210⟩, ⟨"sigaltstack", 132⟩, ⟨"signalfd4", 74⟩,
  ⟨"socket", 198⟩, ⟨"socketpair", 199⟩, ⟨"splice", 76⟩, ⟨"statfs", 43⟩, ⟨"statx", 291⟩,
  ⟨"swapoff", 225⟩, ⟨"swapon", 224⟩, ⟨"symlinkat", 36⟩, ⟨"sync", 81⟩, ⟨"syncfs", 267⟩,
  ⟨"sysinfo", 179⟩, ⟨"syslog", 116⟩, ⟨"tee", 77⟩, ⟨"tgkill", 131⟩, ⟨"timer_create", 107⟩,
  ⟨"timer_delete", 111⟩, ⟨"timer_getoverrun", 109⟩, ⟨"timer_gettime", 108⟩, ⟨"timer_settime", 110⟩,
  ⟨"timerfd_create", 85⟩, ⟨"timerfd_gettime", 87⟩, ⟨"timerfd_settime", 86⟩, ⟨"times", 153⟩,
  ⟨"tkill", 130⟩, ⟨"truncate", 45⟩, ⟨"umask", 166⟩, ⟨"umount2", 39⟩, ⟨"uname", 160⟩,
  ⟨"unlinkat", 35⟩, ⟨"unshare", 97⟩, ⟨"userfaultfd", 282⟩, ⟨"utimensat", 88⟩, ⟨"vhangup", 58⟩,
  ⟨"vmsplice", 75⟩, ⟨"wait4", 260⟩, ⟨"waitid", 95⟩, ⟨"write", 64⟩, ⟨"writev", 66⟩]

/-- Sorted by number. -/
def byNumber : List SyscallEntry := [
  ⟨"io_setup", 0⟩, ⟨"io_destroy", 1⟩, ⟨"io_submit", 2⟩, ⟨"io_cancel", 3⟩, ⟨"io_getevents", 4⟩,
  ⟨"setxattr", 5⟩, ⟨"lsetxattr", 6⟩, ⟨"fsetxattr", 7⟩, ⟨"getxattr", 8⟩, ⟨"lgetxattr", 9⟩,
  ⟨"fgetxattr", 10⟩, ⟨"listxattr", 11⟩, ⟨"llistxattr", 12⟩, ⟨"flistxattr", 13⟩,
  ⟨"removexattr", 14⟩, ⟨"lremovexattr", 15⟩, ⟨"fremovexattr", 16⟩, ⟨"getcwd", 17⟩,
  ⟨"lookup_dcookie", 18⟩, ⟨"eventfd2", 19⟩, ⟨"epoll_create1", 20⟩, ⟨"epoll_ctl", 21⟩,
  ⟨"epoll_pwait", 22⟩, ⟨"dup", 23⟩, ⟨"dup3", 24⟩, ⟨"fcntl", 25⟩, ⟨"inotify_init1", 26⟩,
  ⟨"inotify_add_watch", 27⟩, ⟨"inotify_rm_watch", 28⟩, ⟨"ioctl", 29⟩, ⟨"ioprio_set", 30⟩,
  ⟨"ioprio_get", 31⟩, ⟨"flock", 32⟩, ⟨"mknodat", 33⟩, ⟨"mkdirat", 34⟩, ⟨"unlinkat", 35⟩,
  ⟨"symlinkat", 36⟩, ⟨"linkat", 37⟩, ⟨"umount2", 39⟩, ⟨"mount", 40⟩, ⟨"pivot_root", 41⟩,
  ⟨"nfsservctl", 42⟩, ⟨"statfs", 43⟩, ⟨"fstatfs", 44⟩, ⟨"truncate", 45⟩, ⟨"ftruncate", 46⟩,
  ⟨"fallocate", 47⟩, ⟨"faccessat", 48⟩, ⟨"chdir", 49⟩, ⟨"fchdir", 50⟩, ⟨"chroot", 51⟩,
  ⟨"fchmod", 52⟩, ⟨"fchmodat", 53⟩, ⟨"fchownat", 54⟩, ⟨"fchown", 55⟩, ⟨"openat", 56⟩,
  ⟨"close", 57⟩, ⟨"vhangup", 58⟩, ⟨"pipe2", 59⟩, ⟨"quotactl", 60⟩, ⟨"getdents64", 61⟩,
  ⟨"lseek", 62⟩, ⟨"read", 63⟩, ⟨"write", 64⟩, ⟨"readv", 65⟩, ⟨"writev", 66⟩, ⟨"pread64", 67⟩,
  ⟨"pwrite64", 68⟩, ⟨"preadv", 69⟩, ⟨"pwritev", 70⟩, ⟨"pselect6", 72⟩, ⟨"ppoll", 73⟩,
  ⟨"signalfd4", 74⟩, ⟨"vmsplice", 75⟩, ⟨"splice", 76⟩, ⟨"tee", 77⟩, ⟨"readlinkat", 78⟩,
  ⟨"newfstatat", 79⟩, ⟨"fstat", 80⟩, ⟨"sync", 81⟩, ⟨"fsync", 82⟩, ⟨"fdatasync", 83⟩,
  ⟨"timerfd_create", 85⟩, ⟨"timerfd_settime", 86⟩, ⟨"timerfd_gettime", 87⟩, ⟨"utimensat", 88⟩,
  ⟨"acct", 89⟩, ⟨"capget", 90⟩, ⟨"capset", 91⟩, ⟨"personality", 92⟩, ⟨"exit", 93⟩,
  ⟨"exit_group", 94⟩, ⟨"waitid", 95⟩, ⟨"set_tid_address", 96⟩, ⟨"unshare", 97⟩, ⟨"futex", 98⟩,
  ⟨"set_robust_list", 99⟩, ⟨"get_robust_list", 100⟩, ⟨"nanosleep", 101⟩, ⟨"getitimer", 102⟩,
  ⟨"setitimer", 103⟩, ⟨"kexec_load", 104⟩, ⟨"init_module", 105⟩, ⟨"delete_module", 106⟩,
  ⟨"timer_create", 107⟩, ⟨"timer_gettime", 108⟩, ⟨"timer_getoverrun", 109⟩, ⟨"timer_settime", 110⟩,
  ⟨"timer_delete", 111⟩, ⟨"clock_settime", 112⟩, ⟨"clock_gettime", 113⟩, ⟨"clock_getres", 114⟩,
  ⟨"clock_nanosleep", 115⟩, ⟨"syslog", 116⟩, ⟨"ptrace", 117⟩, ⟨"sched_setparam", 118⟩,
  ⟨"sched_setscheduler", 119⟩, ⟨"sched_getscheduler", 120⟩, ⟨"sched_getparam", 121⟩,
  ⟨"sched_setaffinity", 122⟩, ⟨"sched_getaffinity", 123⟩, ⟨"sched_yield", 124⟩,
  ⟨"sched_get_priority_max", 125⟩, ⟨"sched_get_priority_min", 126⟩, ⟨"sched_rr_get_interval", 127⟩,
  ⟨"restart_syscall", 128⟩, ⟨"kill", 129⟩, ⟨"tkill", 130⟩, ⟨"tgkill", 131⟩, ⟨"sigaltstack", 132⟩,
  ⟨"rt_sigsuspend", 133⟩, ⟨"rt_sigaction", 134⟩, ⟨"rt_sigprocmask", 135⟩, ⟨"rt_sigpending", 136⟩,
  ⟨"rt_sigtimedwait", 137⟩, ⟨"rt_sigqueueinfo", 138⟩, ⟨"rt_sigreturn", 139⟩, ⟨"setpriority", 140⟩,
  ⟨"getpriority", 141⟩, ⟨"reboot", 142⟩, ⟨"setregid", 143⟩, ⟨"setgid", 144⟩, ⟨"setreuid", 145⟩,
  ⟨"setuid", 146⟩, ⟨"setresuid", 147⟩, ⟨"getresuid", 148⟩, ⟨"setresgid", 149⟩, ⟨"getresgid", 150⟩,
  ⟨"setfsuid", 151⟩, ⟨"setfsgid", 152⟩, ⟨"times", 153⟩, ⟨"setpgid", 154⟩, ⟨"getpgid", 155⟩,
  ⟨"getsid", 156⟩, ⟨"setsid", 157⟩, ⟨"getgroups", 158⟩, ⟨"setgroups", 159⟩, ⟨"uname", 160⟩,
  ⟨"sethostname", 161⟩, ⟨"setdomainname", 162⟩, ⟨"getrusage", 165⟩, ⟨"umask", 166⟩, ⟨"prctl", 167⟩,
  ⟨"getcpu", 168⟩, ⟨"gettimeofday", 169⟩, ⟨"settimeofday", 170⟩, ⟨"adjtimex", 171⟩,
  ⟨"getpid", 172⟩, ⟨"getppid", 173⟩, ⟨"getuid", 174⟩, ⟨"geteuid", 175⟩, ⟨"getgid", 176⟩,
  ⟨"getegid", 177⟩, ⟨"gettid", 178⟩, ⟨"sysinfo", 179⟩, ⟨"mq_open", 180⟩, ⟨"mq_unlink", 181⟩,
  ⟨"mq_timedsend", 182⟩, ⟨"mq_timedreceive", 183⟩, ⟨"mq_notify", 184⟩, ⟨"mq_getsetattr", 185⟩,
  ⟨"msgget", 186⟩, ⟨"msgctl", 187⟩, ⟨"msgrcv", 188⟩, ⟨"msgsnd", 189⟩, ⟨"semget", 190⟩,
  ⟨"semctl", 191⟩, ⟨"semtimedop", 192⟩, ⟨"semop", 193⟩, ⟨"shmget", 194⟩, ⟨"shmctl", 195⟩,
  ⟨"shmat", 196⟩, ⟨"shmdt", 197⟩, ⟨"socket", 198⟩, ⟨"socketpair", 199⟩, ⟨"bind", 200⟩,
  ⟨"listen", 201⟩, ⟨"accept", 202⟩, ⟨"connect", 203⟩, ⟨"getsockname", 204⟩, ⟨"getpeername", 205⟩,
  ⟨"sendto", 206⟩, ⟨"recvfrom", 207⟩, ⟨"setsockopt", 208⟩, ⟨"getsockopt", 209⟩, ⟨"shutdown", 210⟩,
  ⟨"sendmsg", 211⟩, ⟨"recvmsg", 212⟩, ⟨"readahead", 213⟩, ⟨"brk", 214⟩, ⟨"munmap", 215⟩,
  ⟨"mremap", 216⟩, ⟨"add_key", 217⟩, ⟨"request_key", 218⟩, ⟨"keyctl", 219⟩, ⟨"clone", 220⟩,
  ⟨"execve", 221⟩, ⟨"mmap", 222⟩, ⟨"swapon", 224⟩, ⟨"swapoff", 225⟩, ⟨"mprotect", 226⟩,
  ⟨"msync", 227⟩, ⟨"mlock", 228⟩, ⟨"munlock", 229⟩, ⟨"mlockall", 230⟩, ⟨"munlockall", 231⟩,
  ⟨"mincore", 232⟩, ⟨"madvise", 233⟩, ⟨"remap_file_pages", 234⟩, ⟨"mbind", 235⟩,
  ⟨"get_mempolicy", 236⟩, ⟨"set_mempolicy", 237⟩, ⟨"migrate_pages", 238⟩, ⟨"move_pages", 239⟩,
  ⟨"rt_tgsigqueueinfo", 240⟩, ⟨"perf_event_open", 241⟩, ⟨"accept4", 242⟩, ⟨"recvmmsg", 243⟩,
  ⟨"wait4", 260⟩, ⟨"prlimit64", 261⟩, ⟨"fanotify_init", 262⟩, ⟨"fanotify_mark", 263⟩,
  ⟨"name_to_handle_at", 264⟩, ⟨"open_by_handle_at", 265⟩, ⟨"clock_adjtime", 266⟩, ⟨"syncfs", 267⟩,
  ⟨"setns", 268⟩, ⟨"sendmmsg", 269⟩, ⟨"process_vm_readv", 270⟩, ⟨"process_vm_writev", 271⟩,
  ⟨"kcmp", 272⟩, ⟨"finit_module", 273⟩, ⟨"sched_setattr", 274⟩, ⟨"sched_getattr", 275⟩,
  ⟨"renameat2", 276⟩, ⟨"seccomp", 277⟩, ⟨"getrandom", 278⟩, ⟨"memfd_create", 279⟩, ⟨"bpf", 280⟩,
  ⟨"execveat", 281⟩, ⟨"userfaultfd", 282⟩, ⟨"membarrier", 283⟩, ⟨"mlock2", 284⟩,
  ⟨"copy_file_range", 285⟩, ⟨"preadv2", 286⟩, ⟨"pwritev2", 287⟩, ⟨"pkey_mprotect", 288⟩,
  ⟨"pkey_alloc", 289⟩, ⟨"pkey_free", 290⟩, ⟨"statx", 291⟩, ⟨"rseq", 293⟩, ⟨"kexec_file_load", 294⟩,
  ⟨"pidfd_send_signal", 424⟩, ⟨"io_uring_setup", 425⟩, ⟨"io_uring_enter", 426⟩,
  ⟨"io_uring_register", 427⟩, ⟨"open_tree", 428⟩, ⟨"move_mount", 429⟩, ⟨"fsopen", 430⟩,
  ⟨"fsconfig", 431⟩, ⟨"fsmount", 432⟩, ⟨"fspick", 433⟩, ⟨"pidfd_open", 434⟩, ⟨"clone3", 435⟩,
  ⟨"close_range", 436⟩, ⟨"openat2", 437⟩, ⟨"pidfd_getfd", 438⟩, ⟨"faccessat2", 439⟩,
  ⟨"process_madvise", 440⟩, ⟨"epoll_pwait2", 441⟩, ⟨"mount_setattr", 442⟩, ⟨"quotactl_fd", 443⟩,
  ⟨"landlock_create_ruleset", 444⟩, ⟨"landlock_add_rule", 445⟩, ⟨"landlock_restrict_self", 446⟩,
  ⟨"memfd_secret", 447⟩, ⟨"process_mrelease", 448⟩, ⟨"futex_waitv", 449⟩,
  ⟨"set_mempolicy_home_node", 450⟩, ⟨"mseal", 462⟩]

end CrunRs.Seccomp.Aarch64
