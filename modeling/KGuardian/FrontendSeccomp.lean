import KGuardian.SyscallRuns

/-!
Seccomp profiles of the frontend (`frontend/src/utils/seccompProfileGenerator.ts`).
The advisor copies the names that were recorded, and the frontend keeps those of a
table of its own, so a name that the table lacks is denied there.
-/
namespace KGuardian.FrontendSeccomp

open JsText SeccompProfiles SyscallIngest SyscallRuns
open SeccompProfiles.Bridge (Architectures architecturesOf objectMembers trim)

/-! The frontend. -/

/-- The set `VALID_SYSCALLS` of `syscalls.ts`. -/
def validSyscalls : List String :=
  ["fork", "vfork", "clone", "clone3", "execve", "execveat", "exit", "exit_group", "wait4",
    "waitid", "getpid", "gettid", "getppid", "getpgid", "setpgid", "getpgrp", "setsid", "getsid",
    "getuid", "setuid", "getgid", "setgid", "geteuid", "getegid", "setreuid", "setregid",
    "getresuid", "getresgid", "setresuid", "setresgid", "getgroups", "setgroups", "capget",
    "capset", "prctl", "arch_prctl", "setns", "unshare", "pidfd_open", "pidfd_send_signal",
    "pidfd_getfd", "brk", "mmap", "mmap2", "munmap", "mremap", "mprotect", "madvise", "mlock",
    "mlock2", "munlock", "mlockall", "munlockall", "mincore", "msync", "remap_file_pages",
    "memfd_create", "memfd_secret", "mempolicy", "mbind", "get_mempolicy", "set_mempolicy",
    "migrate_pages", "move_pages", "pkey_alloc", "pkey_free", "pkey_mprotect", "read", "write",
    "open", "openat", "openat2", "close", "close_range", "creat", "link", "linkat", "unlink",
    "unlinkat", "symlink", "symlinkat", "readlink", "readlinkat", "chmod", "fchmod", "fchmodat",
    "chown", "fchown", "lchown", "fchownat", "umask", "access", "faccessat", "faccessat2",
    "stat", "fstat", "lstat", "fstatat", "statx", "readv", "writev", "pread", "pread64",
    "pwrite", "pwrite64", "preadv", "preadv2", "pwritev", "pwritev2", "lseek", "dup", "dup2",
    "dup3", "fcntl", "ioctl", "flock", "fsync", "fdatasync", "sync", "sync_file_range", "syncfs",
    "truncate", "ftruncate", "fallocate", "fadvise64", "sendfile", "sendfile64", "splice", "tee",
    "vmsplice", "copy_file_range", "name_to_handle_at", "open_by_handle_at", "getcwd", "chdir",
    "fchdir", "chroot", "mkdir", "mkdirat", "rmdir", "rename", "renameat", "renameat2",
    "getdents", "getdents64", "lookup_dcookie", "mount", "umount", "umount2", "pivot_root",
    "statfs", "fstatfs", "ustat", "quotactl", "fsopen", "fsconfig", "fsmount", "fspick",
    "move_mount", "open_tree", "select", "pselect6", "poll", "ppoll", "epoll_create",
    "epoll_create1", "epoll_ctl", "epoll_wait", "epoll_pwait", "epoll_pwait2", "socket",
    "socketpair", "bind", "listen", "accept", "accept4", "connect", "getsockname", "getpeername",
    "send", "sendto", "sendmsg", "sendmmsg", "recv", "recvfrom", "recvmsg", "recvmmsg",
    "shutdown", "setsockopt", "getsockopt", "socketcall", "kill", "tkill", "tgkill", "signal",
    "sigaction", "rt_sigaction", "sigprocmask", "rt_sigprocmask", "sigpending", "rt_sigpending",
    "sigsuspend", "rt_sigsuspend", "sigaltstack", "rt_sigtimedwait", "rt_sigqueueinfo",
    "rt_tgsigqueueinfo", "rt_sigreturn", "restart_syscall", "pause", "signalfd", "signalfd4",
    "time", "gettimeofday", "settimeofday", "clock_gettime", "clock_settime", "clock_getres",
    "clock_nanosleep", "clock_adjtime", "adjtimex", "times", "nanosleep", "alarm", "setitimer",
    "getitimer", "timer_create", "timer_settime", "timer_gettime", "timer_getoverrun",
    "timer_delete", "timerfd_create", "timerfd_settime", "timerfd_gettime", "sched_setparam",
    "sched_getparam", "sched_setscheduler", "sched_getscheduler", "sched_get_priority_max",
    "sched_get_priority_min", "sched_rr_get_interval", "sched_yield", "sched_setaffinity",
    "sched_getaffinity", "sched_setattr", "sched_getattr", "uname", "sysinfo", "syslog",
    "klogctl", "personality", "getrlimit", "setrlimit", "prlimit64", "getrusage", "sysfs",
    "sethostname", "setdomainname", "gethostname", "getdomainname", "setfsuid", "setfsgid",
    "setxattr", "lsetxattr", "fsetxattr", "getxattr", "lgetxattr", "fgetxattr", "listxattr",
    "llistxattr", "flistxattr", "removexattr", "lremovexattr", "fremovexattr", "io_setup",
    "io_destroy", "io_submit", "io_cancel", "io_getevents", "io_pgetevents", "io_uring_setup",
    "io_uring_enter", "io_uring_register", "futex", "futex_waitv", "set_robust_list",
    "get_robust_list", "mq_open", "mq_unlink", "mq_timedsend", "mq_timedreceive", "mq_notify",
    "mq_getsetattr", "semget", "semop", "semctl", "semtimedop", "shmget", "shmat", "shmdt",
    "shmctl", "msgget", "msgsnd", "msgrcv", "msgctl", "ipc", "pipe", "pipe2", "inotify_init",
    "inotify_init1", "inotify_add_watch", "inotify_rm_watch", "fanotify_init", "fanotify_mark",
    "add_key", "request_key", "keyctl", "init_module", "finit_module", "delete_module", "bpf",
    "perf_event_open", "landlock_create_ruleset", "landlock_add_rule", "landlock_restrict_self",
    "set_mempolicy_home_node", "process_vm_readv", "process_vm_writev", "getrandom", "reboot",
    "getpriority", "setpriority", "ioprio_set", "ioprio_get", "ptrace", "acct", "seccomp",
    "utrace", "vhangup", "uselib", "kcmp", "swapon", "swapoff", "readahead", "modify_ldt",
    "ioperm", "iopl", "vm86", "vm86old", "breakpoint", "cacheflush", "set_tls", "usr26", "usr32",
    "oldolduname", "olduname", "oldstat", "oldlstat", "oldfstat", "_sysctl", "create_module",
    "query_module", "get_kernel_syms", "afs_syscall", "nfsservctl", "getpmsg", "putpmsg",
    "vserver", "idle", "sysctl", "bdflush", "process_madvise", "process_mrelease",
    "mount_setattr", "quotactl_fd"]

def isValidSyscall (js : LowerCase) (name : String) : Bool :=
  validSyscalls.contains (js.toLowerCase (trim name))

/-- The names that are valid, in lower case, and the others. -/
def parseSyscallString (js : LowerCase) (syscallStr : String) : List String × List String :=
  let names := ((splitCommas syscallStr).map trim).filter fun s => s ≠ ""
  ((names.filter (isValidSyscall js)).map js.toLowerCase,
    names.filter fun name => !isValidSyscall js name)

/-- A set keeps the order in which its elements were added. -/
def add (names : List String) (name : String) : List String :=
  if name ∈ names then names else names ++ [name]

/-- The names and the architecture after one more record. -/
def addRecord (js : LowerCase) (acc : List String × String) (syscallRecord : PodSyscalls) :
    List String × String :=
  (if syscallRecord.syscalls ≠ "" then
      (parseSyscallString js syscallRecord.syscalls).1.foldl add acc.1
    else acc.1,
    if acc.2 = "" ∧ syscallRecord.arch ≠ "" then syscallRecord.arch else acc.2)

/-- The same text as that of the assistant. -/
def buildSeccompProfile (syscalls : List String) (arch : String) : Bridge.SeccompProfile :=
  Bridge.buildSeccompProfile syscalls arch

/-- The profile of a pod, or of several under one identity, from all their records. -/
def generateSeccompProfile (js : LowerCase) (syscalls : List PodSyscalls) :
    Bridge.SeccompProfile :=
  let (uniqueSyscalls, arch) := syscalls.foldl (addRecord js) ([], "")
  buildSeccompProfile uniqueSyscalls arch

/-! Rows that the controller can lead to. -/

/-- A name of some architecture, or a number that stands for itself. -/
def Recordable (name : String) : Prop :=
  ∃ (names : SyscallNames) (sysnbr : ℕ), name = syscallName names sysnbr

structure ObservedRow where
  podName : String
  podNamespace : String
  names : List String
  arch : String
  timeStamp : String
  named : podName ≠ ""
  recorded : ∀ name ∈ names, Recordable name

def ObservedRow.row (o : ObservedRow) : PodSyscalls :=
  ⟨o.podName, o.podNamespace, joinCommas o.names, o.arch, o.timeStamp⟩

/-- The advisor gets the row, and the frontend makes the same profile of it. -/
def EqualsCli (js : LowerCase) (o : ObservedRow) : Prop :=
  ∃ calls, getPodSysCall (getPodSyscallName [o.row] o.podName) = .ok calls ∧
    SameProfile (SeccompProfiles.buildSeccompProfile calls.syscalls calls.arch "SCMP_ACT_ERRNO")
      (generateSeccompProfile js [o.row])

/-- A token of the architecture is one of the profile. -/
def Covers (profile : Bridge.SeccompProfile) (arch : String) : Prop :=
  ∃ tokens, profile.architectures = .tokens tokens ∧
    ∃ token ∈ (seccompArchitectures.lookup arch).getD [], token ∈ tokens

/-- The profile of all rows allows what those that it covers have. -/
def AllowsAll (js : LowerCase) (rows : List ObservedRow) : Prop :=
  ∀ o ∈ rows, Covers (generateSeccompProfile js (rows.map ObservedRow.row)) o.arch →
    ∀ name ∈ o.names,
      name ∈ allowed (generateSeccompProfile js (rows.map ObservedRow.row)).syscalls

/-- The row has names, all of them in the table. Its architecture is not the name of
a member that every object has, and its answer is not too long for the advisor. -/
structure Listed (o : ObservedRow) : Prop where
  recorded : o.names ≠ []
  valid : ∀ name ∈ o.names, name ∈ validSyscalls
  arch : o.arch ∉ objectMembers.map Prod.fst
  bytes : arrayBytes [o.row] ≤ maxBrokerResponseBytes

/-! Names of the table. -/

def isNameChar (c : Char) : Bool := ('a' ≤ c && c ≤ 'z') || TextScan.isDigit c || c = '_'

theorem validSyscalls_chars : ∀ name ∈ validSyscalls, name.toList.all isNameChar = true := by
  decide +kernel

theorem empty_not_valid : "" ∉ validSyscalls := by
  decide

theorem isNameChar_spec {c : Char} (h : isNameChar c = true) :
    c.toNat < 128 ∧ c.toLower = c ∧ isSpace c = false := by
  simp only [isNameChar, TextScan.isDigit, Bool.or_eq_true, Bool.and_eq_true, decide_eq_true_eq,
    Char.le_def, UInt32.le_iff_toNat_le, Char.ext_iff, ← UInt32.toNat_inj] at h
  have hval : c.toNat = c.val.toNat := rfl
  refine ⟨?_, ?_, ?_⟩
  · simp at h
    omega
  · refine dif_neg ?_
    simp [UInt32.le_iff_toNat_le] at h ⊢
    omega
  · simp [isSpace, TextScan.isWhitespace, Char.le_def, UInt32.le_iff_toNat_le, Char.ext_iff,
      ← UInt32.toNat_inj] at h ⊢
    omega

/-- The frontend takes the names of the table as they are. -/
theorem toLowerCase_trim_eq_self (js : LowerCase) {name : String} (h : name ∈ validSyscalls) :
    js.toLowerCase (trim name) = name := by
  have hchars : ∀ c ∈ name.toList, isNameChar c = true :=
    List.all_eq_true.mp (validSyscalls_chars name h)
  have htrim : trim name = name := by
    rw [trim, trimSpace_eq_self fun c hc => (isNameChar_spec (hchars c hc)).2.2,
      String.ofList_toList]
  have hlower : name.toList.map Char.toLower = name.toList :=
    (List.map_congr_left fun c hc => (isNameChar_spec (hchars c hc)).2.1).trans (List.map_id' _)
  rw [htrim, js.ascii name fun c hc => (isNameChar_spec (hchars c hc)).1, hlower,
    String.ofList_toList]

/-! What the frontend keeps of a text. -/

theorem mem_valid_iff (js : LowerCase) (syscallStr name : String) :
    name ∈ (parseSyscallString js syscallStr).1 ↔
      name ∈ validSyscalls ∧ ∃ s ∈ splitCommas syscallStr, js.toLowerCase (trim s) = name := by
  simp only [parseSyscallString, List.mem_map, List.mem_filter, isValidSyscall,
    List.contains_eq_mem, decide_eq_true_eq, ne_eq]
  constructor
  · rintro ⟨t, ⟨⟨⟨s, hs, rfl⟩, -⟩, hvalid⟩, rfl⟩
    rw [trim_trim] at hvalid
    exact ⟨hvalid, s, hs, rfl⟩
  · rintro ⟨hvalid, s, hs, rfl⟩
    refine ⟨trim s, ⟨⟨⟨s, hs, rfl⟩, fun hempty => ?_⟩, ?_⟩, rfl⟩
    · rw [hempty, js.ascii "" fun c hc => absurd hc List.not_mem_nil] at hvalid
      exact empty_not_valid hvalid
    · rwa [trim_trim]

theorem mem_foldl_add (l acc : List String) (name : String) :
    name ∈ l.foldl add acc ↔ name ∈ acc ∨ name ∈ l := by
  induction l generalizing acc with
  | nil => simp
  | cons a l ih =>
      have hadd : name ∈ add acc a ↔ name ∈ acc ∨ name = a := by
        rw [add]
        split
        · rename_i hold
          exact ⟨.inl, fun h => h.elim id fun heq => heq ▸ hold⟩
        · simp
      rw [List.foldl_cons, ih, hadd, List.mem_cons, or_assoc]

theorem mem_addRecord (js : LowerCase) (acc : List String × String) (r : PodSyscalls)
    (name : String) :
    name ∈ (addRecord js acc r).1 ↔
      name ∈ acc.1 ∨ name ∈ (parseSyscallString js r.syscalls).1 := by
  rw [addRecord]
  by_cases hempty : r.syscalls = ""
  · have hnone : name ∉ (parseSyscallString js "").1 := by
      rw [mem_valid_iff]
      rintro ⟨hvalid, s, hs, rfl⟩
      have hs' : s = "" := List.mem_singleton.mp hs
      have htrim : trim "" = "" := rfl
      rw [hs', htrim, js.ascii "" fun c hc => absurd hc List.not_mem_nil] at hvalid
      exact empty_not_valid hvalid
    simp [hempty, hnone]
  · simp [hempty, mem_foldl_add]

theorem mem_foldl_addRecord (js : LowerCase) (rows : List PodSyscalls)
    (acc : List String × String) (name : String) :
    name ∈ (rows.foldl (addRecord js) acc).1 ↔
      name ∈ acc.1 ∨ ∃ r ∈ rows, name ∈ (parseSyscallString js r.syscalls).1 := by
  induction rows generalizing acc with
  | nil => simp
  | cons r rows ih => rw [List.foldl_cons, ih, mem_addRecord, List.exists_mem_cons_iff, or_assoc]

/-- A profile allows the valid names of all its records. -/
theorem mem_allowed_iff (js : LowerCase) (rows : List PodSyscalls) (name : String) :
    name ∈ allowed (generateSeccompProfile js rows).syscalls ↔
      ∃ r ∈ rows, name ∈ (parseSyscallString js r.syscalls).1 := by
  have hprofile : generateSeccompProfile js rows =
      buildSeccompProfile (rows.foldl (addRecord js) ([], "")).1
        (rows.foldl (addRecord js) ([], "")).2 := rfl
  have hallowed (names : List String) (arch : String) :
      name ∈ allowed (buildSeccompProfile names arch).syscalls ↔ name ∈ names := by
    simp [allowed, buildSeccompProfile, Bridge.buildSeccompProfile]
  rw [hprofile, hallowed, mem_foldl_addRecord]
  simp

/-! One row. -/

theorem plain_of_recordable {name : String} (h : Recordable name) : ',' ∉ name.toList := by
  obtain ⟨names, sysnbr, rfl⟩ := h
  exact (plain_syscallName names sysnbr).1

theorem lookup_isSome_iff_mem {β : Type} (table : List (String × β)) (key : String) :
    (table.lookup key).isSome = true ↔ key ∈ table.map Prod.fst := by
  rw [List.lookup_isSome_iff, List.mem_map]
  constructor
  · exact fun ⟨entry, hentry, hkey⟩ => ⟨entry, hentry, (eq_of_beq hkey).symm⟩
  · exact fun ⟨entry, hentry, hkey⟩ => ⟨entry, hentry, beq_of_eq hkey.symm⟩

theorem architecturesOf_eq_iff (arch : String) :
    architecturesOf arch = .tokens ((seccompArchitectures.lookup arch).getD []) ↔
      arch ∉ objectMembers.map Prod.fst := by
  by_cases hknown : Known arch
  · refine iff_of_true (architecturesOf_known hknown).1 ?_
    have hcases : arch = "x86_64" ∨ arch = "aarch64" := by
      simpa [Known, seccompArchitectures] using hknown
    rcases hcases with rfl | rfl <;> decide
  · have hnone : seccompArchitectures.lookup arch = none := by
      rw [← Option.not_isSome_iff_eq_none, lookup_isSome_iff_mem]
      exact hknown
    rw [architecturesOf, hnone, Option.getD_none, ← lookup_isSome_iff_mem]
    split <;> simp_all

theorem equalsCli_iff_sameProfile (js : LowerCase) (o : ObservedRow) :
    EqualsCli js o ↔ arrayBytes [o.row] ≤ maxBrokerResponseBytes ∧
      SameProfile (SeccompProfiles.buildSeccompProfile (splitCommas (joinCommas o.names)) o.arch
        "SCMP_ACT_ERRNO") (generateSeccompProfile js [o.row]) := by
  have hrows : podSyscallsByName [o.row] o.podName = [o.row] := by
    simp [podSyscallsByName, ObservedRow.row]
  rw [EqualsCli]
  simp only [getPodSysCall_eq_ok_iff, hrows, List.head?_cons, Option.some.injEq]
  constructor
  · rintro ⟨calls, ⟨-, hbytes, row, rfl, rfl⟩, hsame⟩
    exact ⟨hbytes, hsame⟩
  · rintro ⟨hbytes, hsame⟩
    exact ⟨_, ⟨o.named, hbytes, o.row, rfl, rfl⟩, hsame⟩

theorem sameProfile_iff (js : LowerCase) (o : ObservedRow) :
    SameProfile (SeccompProfiles.buildSeccompProfile (splitCommas (joinCommas o.names)) o.arch
        "SCMP_ACT_ERRNO") (generateSeccompProfile js [o.row]) ↔
      o.arch ∉ objectMembers.map Prod.fst ∧
        ∀ s ∈ splitCommas (joinCommas o.names), s ∈ validSyscalls := by
  have hcli (name : String) :
      name ∈ allowed (SeccompProfiles.buildSeccompProfile (splitCommas (joinCommas o.names)) o.arch
        "SCMP_ACT_ERRNO").syscalls ↔ name ∈ splitCommas (joinCommas o.names) := by
    simp [allowed, SeccompProfiles.buildSeccompProfile]
  have hui (name : String) :
      name ∈ allowed (generateSeccompProfile js [o.row]).syscalls ↔ name ∈ validSyscalls ∧
        ∃ s ∈ splitCommas (joinCommas o.names), js.toLowerCase (trim s) = name := by
    rw [mem_allowed_iff, ← mem_valid_iff]
    simp [ObservedRow.row]
  have harch : (generateSeccompProfile js [o.row]).architectures = architecturesOf o.arch := by
    by_cases hempty : o.arch = ""
    · simp [generateSeccompProfile, addRecord, ObservedRow.row, buildSeccompProfile,
        Bridge.buildSeccompProfile, hempty]
    · simp [generateSeccompProfile, addRecord, ObservedRow.row, buildSeccompProfile,
        Bridge.buildSeccompProfile, hempty]
  rw [← architecturesOf_eq_iff]
  constructor
  · intro h
    refine ⟨harch.symm.trans h.architectures, fun s hs => ?_⟩
    exact ((hui s).mp ((h.allowed s).mpr ((hcli s).mpr hs))).1
  · rintro ⟨hmember, hvalid⟩
    refine ⟨rfl, harch.trans hmember, fun name => ?_⟩
    rw [hcli, hui]
    constructor
    · rintro ⟨-, s, hs, rfl⟩
      rwa [toLowerCase_trim_eq_self js (hvalid s hs)]
    · exact fun hname => ⟨hvalid name hname, name, hname,
        toLowerCase_trim_eq_self js (hvalid name hname)⟩

theorem equalsCli_iff_listed (js : LowerCase) (o : ObservedRow) : EqualsCli js o ↔ Listed o := by
  rw [equalsCli_iff_sameProfile, sameProfile_iff]
  have hplain : ∀ name ∈ o.names, ',' ∉ name.toList :=
    fun name hname => plain_of_recordable (o.recorded name hname)
  by_cases hnames : o.names = []
  · refine iff_of_false ?_ fun h => h.recorded hnames
    rintro ⟨-, -, hvalid⟩
    rw [hnames] at hvalid
    exact empty_not_valid (hvalid "" (List.mem_singleton.mpr rfl))
  · rw [splitCommas_joinCommas hplain hnames]
    exact ⟨fun ⟨hbytes, harch, hvalid⟩ => ⟨hnames, hvalid, harch, hbytes⟩,
      fun h => ⟨h.bytes, h.arch, h.valid⟩⟩

/-! Rows of one or more pods. -/

theorem allowsAll_of_listed (js : LowerCase) {rows : List ObservedRow}
    (h : ∀ o ∈ rows, Listed o) : AllowsAll js rows := by
  intro o ho _ name hname
  have hplain : ∀ name ∈ o.names, ',' ∉ name.toList :=
    fun name hname => plain_of_recordable (o.recorded name hname)
  have hvalid := (h o ho).valid name hname
  rw [mem_allowed_iff]
  refine ⟨o.row, List.mem_map_of_mem ho, (mem_valid_iff js _ name).mpr ⟨hvalid, name, ?_, ?_⟩⟩
  · rw [ObservedRow.row, splitCommas_joinCommas hplain (h o ho).recorded]
    exact hname
  · exact toLowerCase_trim_eq_self js hvalid

/-- The frontend makes the advisor's profile of each row and allows all that it
covers exactly when each row lists names, and only names of the table. -/
theorem equalsCli_iff_all_listed (js : LowerCase) (rows : List ObservedRow) :
    ((∀ o ∈ rows, EqualsCli js o) ∧ AllowsAll js rows) ↔ ∀ o ∈ rows, Listed o := by
  simp only [equalsCli_iff_listed]
  exact ⟨And.left, fun h => ⟨h, allowsAll_of_listed js h⟩⟩

/-! A name of x86-64 that the table lacks. -/

/-- The table of the library, at one number. -/
def fstatatNames : SyscallNames where
  getName nr := if nr = 262 then some "newfstatat" else none
  plain nr name h := by
    obtain ⟨-, ⟨⟩⟩ := Option.ite_none_right_eq_some.mp h
    decide
  word nr name h := by
    obtain ⟨-, ⟨⟩⟩ := Option.ite_none_right_eq_some.mp h
    exact ⟨'n', by decide, by decide⟩
  distinct nr nr' name h h' := by
    obtain ⟨rfl, -⟩ := Option.ite_none_right_eq_some.mp h
    obtain ⟨rfl, -⟩ := Option.ite_none_right_eq_some.mp h'
    rfl

def fstatatRow : ObservedRow where
  podName := "web-1"
  podNamespace := "prod"
  names := ["newfstatat"]
  arch := "x86_64"
  timeStamp := "2025-01-01T00:00:00"
  named := by decide
  recorded name hname := ⟨fstatatNames, 262, List.mem_singleton.mp hname⟩

/-- The frontend denies `newfstatat`, which the advisor allows. -/
theorem newfstatat_denied :
    ¬ ∀ (js : LowerCase) (rows : List ObservedRow),
      (∀ o ∈ rows, EqualsCli js o) ∧ AllowsAll js rows := by
  intro h
  have hequals : EqualsCli asciiLowerCase fstatatRow :=
    (h asciiLowerCase [fstatatRow]).1 fstatatRow (List.mem_singleton.mpr rfl)
  have hvalid : "newfstatat" ∈ validSyscalls :=
    ((equalsCli_iff_listed _ _).mp hequals).valid "newfstatat" (List.mem_singleton.mpr rfl)
  exact absurd hvalid (by decide)

end KGuardian.FrontendSeccomp
