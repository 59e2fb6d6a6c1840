import HealthMonitor.ConfigError
import HealthMonitor.Dictionary

/-!
# Directories

A `Directory` holds files by name and no further directories. A path that leaves it leads nowhere,
except that the directories above it are there, and so is the null device, which is always empty.
Names and paths have a greatest length.
-/

namespace HealthMonitor

/-- Files with their bytes, by name. -/
structure Directory where
  files : Dictionary String (List UInt8)

namespace Directory

/-- The parts of a path between its slashes. -/
def parts (path : String) : List String :=
  (path.toList.splitOn '/').map String.ofList

/-- Whether a part of a path stays where it is. -/
def stays (part : String) : Bool :=
  part == "" || part == "."

/-- Whether a part of a path does not lead into a directory below. -/
def leadsUp (part : String) : Bool :=
  stays part || part == ".."

/-- The greatest length of a name, in bytes. -/
def maxName : Nat := 255

/-- The greatest length of a path, in bytes. -/
def maxPath : Nat := 4095

/-- The path of the null device. -/
def nullDevice : String := "/dev/null"

/-- Whether a path that starts with these parts leaves the directory. -/
def leaves (start : List String) : Bool :=
  start.head? == some "" || start.contains ".."

/-- The bytes of the file at a path. -/
def read (d : Directory) (path : String) : Except FileFault (List UInt8) :=
  if path.isEmpty then .error .notFound
  else if maxPath < path.utf8ByteSize then .error .nameTooLong
  else if path == nullDevice then .ok []
  else
    let parts := parts path
    match parts.dropWhile leadsUp with
    | [] => .error .isDirectory
    | name :: rest =>
      if maxName < name.utf8ByteSize then .error .nameTooLong
      else if leaves (parts.takeWhile leadsUp) then .error .notFound
      else
        match d.files.get? name with
        | none => .error .notFound
        | some bytes => if rest.isEmpty then .ok bytes else .error .notDirectory

end Directory

end HealthMonitor
