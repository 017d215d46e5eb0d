/-!
# Faults of storage

Why an operation on files fails, and the wording of the operating system for it.
-/

namespace Cardsmith
namespace Storage

inductive Fault where
  | absent
  | denied
  | notDirectory
  /-- A directory stands where a file is needed. -/
  | isDirectory
  | nameTooLong
  | linkLoop
  | nulInPath
  | nulInCommand
  | notText
  deriving Repr, DecidableEq

def Fault.message : Fault → String
  | .absent => "No such file or directory (os error 2)"
  | .denied => "Permission denied (os error 13)"
  | .notDirectory => "Not a directory (os error 20)"
  | .isDirectory => "Is a directory (os error 21)"
  | .nameTooLong => "File name too long (os error 36)"
  | .linkLoop => "Too many levels of symbolic links (os error 40)"
  | .nulInPath => "file name contained an unexpected NUL byte"
  | .nulInCommand => "nul byte found in provided data"
  | .notText => "stream did not contain valid UTF-8"

end Storage
end Cardsmith
