import Shell.JobControl.Operations

/-!
# The text of a traced call

The functions of `trace.cpp` that turn a system call into text: its name, its
arguments as they are at the entry, and its result.  The numbers are those of
x86-64.  What `PTRACE_PEEKDATA` reads is given by the memory, the texts of
errors by `strerror`.
-/

namespace Shell.TraceRendering

open Shell.Syntax
open Shell.JobOperations

/-! ## Names -/

/-- The cases of `syscall_name`. -/
def syscallNames : List (Int × String) :=
  [(0, "read"), (1, "write"), (2, "open"), (3, "close"), (4, "stat"),
    (5, "fstat"), (262, "newfstatat"), (6, "lstat"), (7, "poll"), (8, "lseek"),
    (9, "mmap"), (10, "mprotect"), (11, "munmap"), (12, "brk"),
    (13, "rt_sigaction"), (14, "rt_sigprocmask"), (15, "rt_sigreturn"),
    (16, "ioctl"), (17, "pread64"), (18, "pwrite64"), (19, "readv"),
    (20, "writev"), (21, "access"), (22, "pipe"), (23, "select"),
    (24, "sched_yield"), (25, "mremap"), (26, "msync"), (27, "mincore"),
    (28, "madvise"), (29, "shmget"), (30, "shmat"), (31, "shmctl"),
    (32, "dup"), (33, "dup2"), (34, "pause"), (35, "nanosleep"),
    (36, "getitimer"), (37, "alarm"), (38, "setitimer"), (39, "getpid"),
    (40, "sendfile"), (41, "socket"), (42, "connect"), (43, "accept"),
    (44, "sendto"), (45, "recvfrom"), (46, "sendmsg"), (47, "recvmsg"),
    (48, "shutdown"), (49, "bind"), (50, "listen"), (51, "getsockname"),
    (52, "getpeername"), (53, "socketpair"), (54, "setsockopt"),
    (55, "getsockopt"), (56, "clone"), (57, "fork"), (58, "vfork"),
    (59, "execve"), (60, "exit"), (61, "wait4"), (62, "kill"), (63, "uname"),
    (72, "fcntl"), (74, "fsync"), (75, "fdatasync"), (76, "truncate"),
    (77, "ftruncate"), (78, "getdents"), (79, "getcwd"), (80, "chdir"),
    (81, "fchdir"), (82, "rename"), (83, "mkdir"), (84, "rmdir"),
    (85, "creat"), (86, "link"), (87, "unlink"), (88, "symlink"),
    (89, "readlink"), (90, "chmod"), (91, "fchmod"), (92, "chown"),
    (93, "fchown"), (94, "lchown"), (95, "umask"), (96, "gettimeofday"),
    (97, "getrlimit"), (98, "getrusage"), (99, "sysinfo"), (100, "times"),
    (101, "ptrace"), (102, "getuid"), (103, "syslog"), (104, "getgid"),
    (105, "setuid"), (106, "setgid"), (107, "geteuid"), (108, "getegid"),
    (109, "setpgid"), (110, "getppid"), (111, "getpgrp"), (112, "setsid"),
    (124, "getsid"), (125, "capget"), (126, "capset"), (158, "arch_prctl"),
    (160, "setrlimit"), (161, "chroot"), (162, "sync"), (165, "mount"),
    (166, "umount2"), (186, "gettid"), (202, "futex"),
    (203, "sched_setaffinity"), (204, "sched_getaffinity"),
    (231, "exit_group"), (232, "epoll_wait"), (233, "epoll_ctl"),
    (234, "tgkill"), (257, "openat"), (258, "mkdirat"), (263, "unlinkat"),
    (264, "renameat"), (267, "readlinkat"), (268, "fchmodat"),
    (269, "faccessat"), (270, "pselect6"), (271, "ppoll"), (272, "unshare"),
    (273, "set_robust_list"), (218, "set_tid_address"),
    (274, "get_robust_list"), (275, "splice"), (276, "tee"),
    (277, "sync_file_range"), (278, "vmsplice"), (280, "utimensat"),
    (281, "epoll_pwait"), (283, "timerfd_create"), (284, "eventfd"),
    (285, "fallocate"), (286, "timerfd_settime"), (287, "timerfd_gettime"),
    (288, "accept4"), (290, "eventfd2"), (291, "epoll_create1"), (292, "dup3"),
    (293, "pipe2"), (294, "inotify_init1"), (295, "preadv"), (296, "pwritev"),
    (302, "prlimit64"), (318, "getrandom"), (319, "memfd_create"),
    (322, "execveat"), (332, "statx"), (334, "rseq"), (435, "clone3"),
    (436, "close_range"), (437, "openat2"), (439, "faccessat2")]

/-- `syscall_name`. -/
def syscallName (nr : Int) : ByteString :=
  match syscallNames.lookup nr with
  | some name => literal name
  | none => literal "syscall_" ++ decimal nr

/-! ## Arguments -/

/-- The word at an address, or nothing if the read fails. -/
abbrev Memory := UInt64 → Option UInt64

/-- The bytes of a word in the order of the memory. -/
def wordBytes (word : UInt64) : List UInt8 :=
  (List.range 8).map fun index =>
    (word >>> (8 * UInt64.ofNat index)).toUInt8

/-- How `read_tracee_string` writes a byte other than zero. -/
def escapeByte (byte : UInt8) : ByteString :=
  if byte = 0x0a then literal "\\n"
  else if byte = 0x0d then literal "\\r"
  else if byte = 0x09 then literal "\\t"
  else if byte = 0x22 then literal "\\\""
  else if byte = 0x5c then literal "\\\\"
  else if 0x20 ≤ byte ∧ byte < 0x7f then [byte]
  else literal "?"

/-- The loop over the bytes of a word; it also says whether a zero has ended
the string. -/
def readWord (limit : Nat) (value : ByteString) :
    List UInt8 → ByteString × Bool
  | [] => (value, false)
  | byte :: rest =>
      if value.length < limit then
        if byte = 0 then (value, true)
        else readWord limit (value ++ escapeByte byte) rest
      else
        (value, false)

/-- The loop over the words.  A word without a zero adds a byte at least, so
that a number of rounds equal to the limit is enough. -/
def readWords (memory : Memory) (address : UInt64) (limit : Nat) :
    Nat → ByteString → ByteString
  | 0, value => value ++ literal "..."
  | rounds + 1, value =>
      if value.length < limit then
        -- The offset is the length of the text, not the number of bytes read.
        match memory (address + UInt64.ofNat value.length) with
        | none => []
        | some word =>
            match readWord limit value (wordBytes word) with
            | (value, true) => value
            | (value, false) => readWords memory address limit rounds value
      else
        value ++ literal "..."

theorem escapeByte_length_pos (byte : UInt8) :
    0 < (escapeByte byte).length := by
  unfold escapeByte
  split_ifs <;> exact Nat.succ_pos _

/-- `read_tracee_string`. -/
def readTraceeString (memory : Memory) (address : UInt64) (limit : Nat) :
    ByteString :=
  if address = 0 then literal "NULL"
  else readWords memory address limit limit []

/-- `hex_arg`. -/
def hexArg (value : UInt64) : ByteString :=
  literal "0x" ++
    literal (String.ofList (Nat.toDigits 16 value.toNat))

/-- `quoted_tracee_string`, with the default limit. -/
def quotedTraceeString (memory : Memory) (address : UInt64) : ByteString :=
  let value := readTraceeString memory address 160
  if value = [] ∧ address ≠ 0 then hexArg address
  else if address = 0 then literal "NULL"
  else literal "\"" ++ value ++ literal "\""

/-- `SyscallEntry`. -/
structure SyscallEntry where
  number : Int
  args : Vector UInt64 6
  renderedArgs : ByteString
deriving DecidableEq, Repr

def unsignedArg (value : UInt64) : ByteString :=
  decimal value.toNat

/-- An argument that is cast to `int`. -/
def intArg (value : UInt64) : ByteString :=
  decimal value.toUInt32.toInt32.toInt

def commaSeparated (parts : List ByteString) : ByteString :=
  (literal ", ").intercalate parts

/-- `format_arguments`. -/
def formatArguments (memory : Memory) (number : Int)
    (a : Vector UInt64 6) : ByteString :=
  let quoted := quotedTraceeString memory
  match number with
  -- `execve` and `open`
  | 59 | 2 => commaSeparated [quoted a[0], hexArg a[1], hexArg a[2]]
  -- `openat` and `newfstatat`
  | 257 | 262 =>
      commaSeparated [intArg a[0], quoted a[1], hexArg a[2], hexArg a[3]]
  -- `access` and `mkdir`
  | 21 | 83 => commaSeparated [quoted a[0], hexArg a[1]]
  -- `chdir` and `unlink`
  | 80 | 87 => quoted a[0]
  -- `readlink`
  | 89 => commaSeparated [quoted a[0], hexArg a[1], unsignedArg a[2]]
  -- `write` and `read`
  | 1 | 0 =>
      commaSeparated [unsignedArg a[0], hexArg a[1], unsignedArg a[2]]
  -- `close`
  | 3 => unsignedArg a[0]
  | _ => commaSeparated (a.toList.map hexArg)

/-! ## Results -/

/-- `is_error_return`. -/
def isErrorReturn (value : Int) : Bool :=
  value < 0 && -4095 ≤ value

theorem isErrorReturn_iff (value : Int) :
    isErrorReturn value ↔ -4095 ≤ value ∧ value ≤ -1 := by
  rw [isErrorReturn, Bool.and_eq_true, decide_eq_true_eq, decide_eq_true_eq]
  omega

/-- `format_return`. -/
def formatReturn (strerror : Nat → ByteString) (value : Int) : ByteString :=
  if !isErrorReturn value then
    decimal value
  else
    let err := (-value).toNat
    literal "-1 " ++ strerror err ++ literal " (errno " ++ decimal err ++
      literal ")"

theorem formatReturn_eq (strerror : Nat → ByteString) (value : Int) :
    formatReturn strerror value =
      if -4095 ≤ value ∧ value ≤ -1 then
        literal "-1 " ++ strerror (-value).toNat ++ literal " (errno " ++
          decimal (-value).toNat ++ literal ")"
      else decimal value := by
  have isError := isErrorReturn_iff value
  rw [formatReturn]
  split_ifs with succeeded inRange inRange
  · simp [isError.mpr inRange] at succeeded
  · rfl
  · rfl
  · simp [inRange] at isError
    simp [isError] at succeeded

end Shell.TraceRendering
