/-!
# Files of every system

What is found at a path when nothing but the directories and files that every system has is taken
to exist. A path is followed name by name from the root or from the working directory, which is
some directory below the root. Nothing lies below a file, and there are names and paths that are too
long for any system.
-/

namespace LikelyInvariants

/-- What a name in a directory stands for. -/
inductive SystemFile where
  | directory
  /-- A text without content. -/
  | emptyText
  /-- A text that is no configuration. -/
  | foreignText
  /-- A file that is no text. -/
  | program
deriving DecidableEq

/-- Why nothing is found at a path. -/
inductive PathFault where
  | absent
  /-- The path goes on below a file. -/
  | notDirectory
  | nameTooLong
deriving DecidableEq

namespace SystemFile

/-- The directories of every system. -/
def directories : List String := [
  "bin", "boot", "dev", "dev/fd", "dev/pts", "dev/shm", "etc", "etc/alternatives", "etc/apt",
  "etc/cron.d", "etc/default", "etc/init.d", "etc/opt", "etc/pam.d", "etc/profile.d",
  "etc/security", "etc/skel", "etc/ssl", "etc/ssl/certs", "home", "lib", "lib64", "media", "mnt",
  "opt", "proc", "proc/1", "proc/net", "proc/self", "proc/self/fd", "proc/sys", "proc/sys/kernel",
  "root", "run", "run/lock", "sbin", "srv", "sys", "sys/block", "sys/bus", "sys/class", "sys/dev",
  "sys/devices", "sys/fs", "sys/kernel", "sys/module", "tmp", "usr", "usr/bin", "usr/games",
  "usr/include", "usr/lib", "usr/lib/x86_64-linux-gnu", "usr/local", "usr/local/bin",
  "usr/local/etc", "usr/local/include", "usr/local/lib", "usr/local/sbin", "usr/local/share",
  "usr/sbin", "usr/share", "usr/share/doc", "usr/share/man", "usr/share/zoneinfo", "usr/src", "var",
  "var/backups", "var/cache", "var/lib", "var/lib/dpkg", "var/local", "var/lock", "var/log",
  "var/mail", "var/opt", "var/run", "var/spool", "var/tmp"]

/-- Texts of every system. -/
def texts : List String := [
  "etc/group", "etc/hostname", "etc/hosts", "etc/issue", "etc/nsswitch.conf", "etc/os-release",
  "etc/passwd", "etc/profile", "etc/resolv.conf", "etc/shadow", "etc/shells", "proc/cpuinfo",
  "proc/meminfo", "proc/mounts", "proc/self/status", "proc/stat", "proc/uptime", "proc/version"]

/-- Programs that every system has. -/
def programs : List String := [
  "awk", "basename", "bash", "cat", "chmod", "cp", "cut", "dash", "date", "dd", "dirname", "echo",
  "env", "expr", "false", "find", "grep", "gzip", "head", "hostname", "id", "ls", "mkdir", "mv", "nice",
  "nl", "nohup", "od", "perl", "printf", "pwd", "rm", "rmdir", "sed", "seq", "setsid", "sh", "sleep",
  "sort", "stat", "stdbuf", "stty", "sync", "tac", "tail", "tar", "tee", "test", "timeout", "touch",
  "tr", "true", "uname", "uniq", "wc", "xargs", "yes"]

/-- What the path from the root through some names leads to. -/
def ofNames? (names : List String) : Option SystemFile :=
  let path := "/".intercalate names
  let isProgram : Bool :=
    match names with
    | ["bin", name] => programs.contains name
    | ["usr", "bin", name] => programs.contains name
    | _ => path = "proc/self/exe"
  if names = [] || directories.contains path then some directory
  else if path = "dev/null" then some emptyText
  else if texts.contains path then some foreignText
  else if isProgram then some program
  else none

/-- The names on the way to the working directory. -/
def workingDirectory : List String := ["tmp", "work"]

/-- What some names lead to from a directory, with its own names. The names of the directory are given
from the last to the first. -/
def follow (here : List String) : List String → Except PathFault (List String × SystemFile)
  | [] => .ok (here.reverse, directory)
  | name :: names =>
    if name = "" || name = "." then follow here names
    else if name = ".." then follow here.tail names
    else if 255 < name.utf8ByteSize then .error .nameTooLong
    else
      match ofNames? (name :: here).reverse with
      | none => .error .absent
      | some .directory => follow (name :: here) names
      | some file =>
        if names.isEmpty then .ok ((name :: here).reverse, file) else .error .notDirectory

/-- What is found at a path, with the names on the way to it from the root. -/
def atPath (path : String) : Except PathFault (List String × SystemFile) :=
  if path = "" then .error .absent
  else if 4096 ≤ path.utf8ByteSize then .error .nameTooLong
  else
    let names := path.splitOn "/"
    if names.head? = some "" then follow [] names else follow workingDirectory.reverse names

end SystemFile

end LikelyInvariants
