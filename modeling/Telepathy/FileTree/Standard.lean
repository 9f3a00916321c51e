import Telepathy.FileTree.Basic

set_option autoImplicit false

/-!
# The standard file tree

What every system has: the standard directories, programs, devices, tables and processes. None of
its files is a document that a program could take for its configuration.
-/

namespace Telepathy.FileTree

/-- The programs that users start. -/
def programs : FileTree :=
  ofNames [] ["bash", "cat", "cp", "date", "dd", "echo", "env", "false", "grep", "kill", "ls",
    "mkdir", "mv", "ps", "pwd", "rm", "sed", "sh", "sleep", "sort", "tar", "true", "uname"]

/-- The devices. -/
def devices : FileTree :=
  ofNames ["fd", "mqueue", "pts", "shm"] ["console", "full", "null", "ptmx", "random", "stderr",
    "stdin", "stdout", "tty", "urandom", "zero"]

/-- The tables of the system. -/
def tables : FileTree :=
  ofNames ["alternatives", "default", "init.d", "opt", "pam.d", "profile.d", "security", "skel",
      "ssl"]
    ["bash.bashrc", "debian_version", "group", "gshadow", "host.conf", "hostname", "hosts",
      "issue", "issue.net", "ld.so.cache", "ld.so.conf", "localtime", "login.defs", "mtab",
      "nsswitch.conf", "os-release", "passwd", "profile", "resolv.conf", "shadow", "shells"]

/-- What is known of a process. -/
def process : FileTree :=
  ofNames ["attr", "cwd", "fd", "fdinfo", "map_files", "net", "ns", "root", "task"]
    ["auxv", "cgroup", "cmdline", "comm", "environ", "exe", "io", "limits", "maps", "mem",
      "mountinfo", "mounts", "mountstats", "oom_score", "oom_score_adj", "pagemap", "sched",
      "smaps", "stack", "stat", "statm", "status"]

/-- What is known of the processes and of the system that runs them. -/
def processes : FileTree :=
  directory <|
    ["1", "self", "thread-self"].map (·, process) ++
    ["bus", "fs", "irq", "net", "sys", "tty"].map (·, empty) ++
    ["cgroups", "cmdline", "consoles", "cpuinfo", "devices", "diskstats", "filesystems",
      "interrupts", "iomem", "ioports", "kallsyms", "kcore", "keys", "kmsg", "loadavg", "locks",
      "meminfo", "misc", "modules", "mounts", "partitions", "softirqs", "stat", "swaps", "uptime",
      "version", "vmstat", "zoneinfo"].map (·, file)

/-- The directory of shared resources. -/
def resources : FileTree :=
  directory
    [("bin", programs), ("games", empty), ("include", empty), ("lib", empty), ("libexec", empty),
      ("local",
        ofNames ["bin", "etc", "games", "include", "lib", "man", "sbin", "share", "src"] []),
      ("sbin", empty), ("share", ofNames ["doc", "man"] []), ("src", empty)]

/-- The directory of what changes while the system runs. -/
def runtimeData : FileTree :=
  ofNames ["backups", "cache", "lib", "local", "lock", "log", "mail", "opt", "run", "spool", "tmp"]
    []

/-- The standard file tree, from its root. -/
def standard : FileTree :=
  directory <|
    ["boot", "home", "lib", "lib64", "media", "mnt", "opt", "root", "sbin", "srv", "tmp"].map
      (·, empty) ++
    [("bin", programs), ("dev", devices), ("etc", tables), ("proc", processes),
      ("run", ofNames ["lock"] []),
      ("sys", ofNames ["block", "bus", "class", "dev", "devices", "firmware", "fs", "kernel",
        "module", "power"] []),
      ("usr", resources), ("var", runtimeData)]

end Telepathy.FileTree
