/-!
# System error numbers

The causes a system call can report to the shell: process waits and signals, and the
filesystem operations of the integrated tools. Each cause has one fixed message, the
text the C library gives for it in lower case.
-/
namespace JobShell

inductive Errno where
  | perm | noent | srch | intr | badf | child | acces | exist | notdir | isdir | inval
  | notempty | busy
  deriving DecidableEq, Repr, Inhabited

namespace Errno

/-- The message printed for each cause. -/
def message : Errno → String
  | perm => "operation not permitted"
  | noent => "no such file or directory"
  | srch => "no such process"
  | intr => "interrupted system call"
  | badf => "bad file descriptor"
  | child => "no child processes"
  | acces => "permission denied"
  | exist => "file exists"
  | notdir => "not a directory"
  | isdir => "is a directory"
  | inval => "invalid argument"
  | notempty => "directory not empty"
  | busy => "device or resource busy"

/-- The symbolic name of a cause, as scripted wait replies spell it. -/
def ofName? : String → Option Errno
  | "EPERM" => some perm
  | "ENOENT" => some noent
  | "ESRCH" => some srch
  | "EINTR" => some intr
  | "EBADF" => some badf
  | "ECHILD" => some child
  | "EACCES" => some acces
  | "EEXIST" => some exist
  | "ENOTDIR" => some notdir
  | "EISDIR" => some isdir
  | "EINVAL" => some inval
  | "ENOTEMPTY" => some notempty
  | "EBUSY" => some busy
  | _ => none

end Errno

end JobShell
