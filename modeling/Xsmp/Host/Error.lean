/-!
# Host errors

What the host may answer to a request for a file, a socket or a process, with
the wording in which such an answer is reported.
-/

namespace Xsmp

/-- Why the host refused a request. -/
inductive HostError where
  | notFound
  /-- The arguments of a program and its environment take too much room. -/
  | argumentsTooLong
  /-- A socket file cannot be opened like a plain file. -/
  | noSuchDevice
  | permissionDenied
  | alreadyExists
  | notADirectory
  | isADirectory
  | nameTooLong
  /-- A file that should hold text does not. -/
  | invalidUtf8
  /-- A path holds the character NUL. -/
  | nulInPath
  /-- The path of a socket holds the character NUL. -/
  | nulInSocketPath
  /-- The path of a socket does not fit into a socket address. -/
  | socketPathTooLong
  /-- The name of a socket outside the file system does not fit into a socket address. -/
  | abstractNameTooLong
  /-- An argument of a program holds the character NUL. -/
  | nulInArgument
  deriving DecidableEq

namespace HostError

/-- How an error is reported: the host's own text with the error number, or a text
alone for what is found out before the host is asked. -/
def message : HostError → String
  | .notFound => "No such file or directory (os error 2)"
  | .argumentsTooLong => "Argument list too long (os error 7)"
  | .noSuchDevice => "No such device or address (os error 6)"
  | .permissionDenied => "Permission denied (os error 13)"
  | .alreadyExists => "File exists (os error 17)"
  | .notADirectory => "Not a directory (os error 20)"
  | .isADirectory => "Is a directory (os error 21)"
  | .nameTooLong => "File name too long (os error 36)"
  | .invalidUtf8 => "stream did not contain valid UTF-8"
  | .nulInPath => "file name contained an unexpected NUL byte"
  | .nulInSocketPath => "paths must not contain interior null bytes"
  | .socketPathTooLong => "path must be shorter than SUN_LEN"
  | .abstractNameTooLong => "abstract socket name must be shorter than SUN_LEN"
  | .nulInArgument => "nul byte found in provided data"

end HostError

end Xsmp
