/-
  Tracewright.Syscall.Builtin

  The commonly traced system calls of the x86_64 platform.

  Reference: `builtin_catalog`.
-/
import Tracewright.Syscall.Catalog

namespace Tracewright.Catalog

/-- A row of the table: which arguments, counted from one, are strings, and which of the
    two places for file descriptors are taken. -/
structure Row where
  number : Nat
  name : String
  strings : List Nat
  descriptors : List Nat

def Row.mask (r : Row) : Mask :=
  (r.strings.map fun i => Mask.string (i - 1)).foldl Mask.union
    ((r.descriptors.map fun i => Mask.descriptor (i - 1)).foldl Mask.union 0)

def table : List Row := [
  ⟨0, "read", [], [1]⟩,
  ⟨1, "write", [], [1]⟩,
  ⟨2, "open", [1], []⟩,
  ⟨3, "close", [], [1]⟩,
  ⟨4, "stat", [1], []⟩,
  ⟨5, "fstat", [], [1]⟩,
  ⟨6, "lstat", [1], []⟩,
  ⟨8, "lseek", [], [1]⟩,
  ⟨9, "mmap", [], []⟩,
  ⟨16, "ioctl", [], [1]⟩,
  ⟨17, "pread64", [], [1]⟩,
  ⟨18, "pwrite64", [], [1]⟩,
  ⟨21, "access", [1], []⟩,
  ⟨32, "dup", [], [1]⟩,
  ⟨33, "dup2", [], [1]⟩,
  ⟨41, "socket", [], []⟩,
  ⟨42, "connect", [], [1]⟩,
  ⟨43, "accept", [], [1]⟩,
  ⟨44, "sendto", [], [1]⟩,
  ⟨45, "recvfrom", [], [1]⟩,
  ⟨56, "clone", [], []⟩,
  ⟨57, "fork", [], []⟩,
  ⟨58, "vfork", [], []⟩,
  ⟨59, "execve", [1], []⟩,
  ⟨60, "exit", [], []⟩,
  ⟨62, "kill", [], []⟩,
  ⟨72, "fcntl", [], [1]⟩,
  ⟨74, "fsync", [], [1]⟩,
  ⟨77, "ftruncate", [], [1]⟩,
  ⟨78, "getdents", [], [1]⟩,
  ⟨79, "getcwd", [], []⟩,
  ⟨80, "chdir", [1], []⟩,
  ⟨81, "fchdir", [], [1]⟩,
  ⟨82, "rename", [1, 2], []⟩,
  ⟨83, "mkdir", [1], []⟩,
  ⟨84, "rmdir", [1], []⟩,
  ⟨85, "creat", [1], []⟩,
  ⟨86, "link", [1, 2], []⟩,
  ⟨87, "unlink", [1], []⟩,
  ⟨88, "symlink", [1, 2], []⟩,
  ⟨89, "readlink", [1], []⟩,
  ⟨90, "chmod", [1], []⟩,
  ⟨91, "fchmod", [], [1]⟩,
  ⟨92, "chown", [1], []⟩,
  ⟨94, "lchown", [1], []⟩,
  ⟨137, "statfs", [1], []⟩,
  ⟨161, "chroot", [1], []⟩,
  ⟨165, "mount", [1, 2, 3], []⟩,
  ⟨166, "umount2", [1], []⟩,
  ⟨188, "setxattr", [1, 2], []⟩,
  ⟨191, "getxattr", [1, 2], []⟩,
  ⟨231, "exit_group", [], []⟩,
  ⟨257, "openat", [2], [1]⟩,
  ⟨258, "mkdirat", [2], [1]⟩,
  ⟨260, "fchownat", [2], [1]⟩,
  ⟨262, "newfstatat", [2], [1]⟩,
  ⟨263, "unlinkat", [2], [1]⟩,
  ⟨264, "renameat", [2, 4], [1, 2]⟩,
  ⟨265, "linkat", [2, 4], [1, 2]⟩,
  ⟨266, "symlinkat", [1, 3], [2]⟩,
  ⟨267, "readlinkat", [2], [1]⟩,
  ⟨268, "fchmodat", [2], [1]⟩,
  ⟨269, "faccessat", [2], [1]⟩,
  ⟨316, "renameat2", [2, 4], [1, 2]⟩,
  ⟨322, "execveat", [2], [1]⟩]

def tableEntries : List Descriptor :=
  table.map fun r => Descriptor.ofMask r.number r.name r.mask true

/-- The system calls that are traced when no listing is given. -/
def builtin : Catalog := ⟨tableEntries, by decide +kernel⟩

example : (builtin.get? 264).map (·.mask) = some 202 := by decide +kernel
example : (builtin.select (Mask.descriptor 0)).length = 32 := by decide +kernel

end Tracewright.Catalog
