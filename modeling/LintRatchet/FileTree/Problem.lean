/-!
# What can go wrong with files

The same problems arise when a program is started, because it is a file.  The
wording and the numbers are those of a POSIX system.
-/

namespace LintRatchet

/-- Why something cannot be done with a file. -/
inductive FileProblem where
  | notFound
  | exists
  /-- A name on the way belongs to a file. -/
  | notDirectory
  | isDirectory
  | nameTooLong
  /-- The path ends in a name that always exists. -/
  | busy
  | permissionDenied
  /-- The path has a NUL character in it. -/
  | nulInName
  /-- The path is none that a file can be renamed to. -/
  | invalidArgument
  | nulInArgument
  | notText
deriving DecidableEq, Repr, Inhabited

/-- A problem in the words of the system. -/
def FileProblem.message : FileProblem → String
  | notFound => "No such file or directory (os error 2)"
  | «exists» => "File exists (os error 17)"
  | notDirectory => "Not a directory (os error 20)"
  | isDirectory => "Is a directory (os error 21)"
  | nameTooLong => "File name too long (os error 36)"
  | busy => "Device or resource busy (os error 16)"
  | permissionDenied => "Permission denied (os error 13)"
  | nulInName => "file name contained an unexpected NUL byte"
  | invalidArgument => "Invalid argument (os error 22)"
  | nulInArgument => "nul byte found in provided data"
  | notText => "stream did not contain valid UTF-8"

end LintRatchet
