/-!
# Faults of the surroundings

Files, programs and sockets can refuse what they are asked.  A `Fault` says why.
Most have a number with the operating system, which their wording ends with; the
others are noticed before anything is asked of it.

## Main Definitions

* `Fault`: the reasons.
* `Fault.message`: the wording of each.
-/

namespace LiveCoding

/-- Why the surroundings refused something. -/
inductive Fault where
  /-- There is nothing of that name. -/
  | notFound
  /-- The arguments of a program are too long. -/
  | argumentsTooLong
  /-- The file is there and cannot be started. -/
  | permissionDenied
  /-- There is something of that name. -/
  | alreadyExists
  /-- Something that is no directory stands in the way. -/
  | notADirectory
  /-- A directory stands where a file is needed. -/
  | isADirectory
  /-- The directory still holds something. -/
  | directoryNotEmpty
  /-- The request makes no sense to the system. -/
  | invalidArgument
  /-- The receiver takes no more. -/
  | storageFull
  /-- Nobody reads the other end. -/
  | brokenPipe
  /-- A name in the path is longer than the system allows. -/
  | nameTooLong
  /-- The socket and the address are of different families. -/
  | familyNotSupported
  /-- No local address can reach such a peer. -/
  | addressNotAvailable
  /-- There is no way to the peer. -/
  | networkUnreachable
  /-- Nobody listens there. -/
  | connectionRefused
  /-- A file or host name holds a NUL. -/
  | nulInName
  /-- A program or an argument of it holds a NUL. -/
  | nulInArgument
  /-- A host name that nobody knows. -/
  | unknownHost
  /-- Settings that are not UTF-8. -/
  | settingsNotText
  /-- A document that is not UTF-8. -/
  | documentNotText
deriving DecidableEq, Repr

namespace Fault

/-- The words of a fault that the operating system numbers. -/
def numbered (words : String) (number : Nat) : String :=
  s!"{words} (os error {number})"

/-- The wording of a fault. -/
def message : Fault → String
  | notFound => numbered "No such file or directory" 2
  | argumentsTooLong => numbered "Argument list too long" 7
  | permissionDenied => numbered "Permission denied" 13
  | alreadyExists => numbered "File exists" 17
  | notADirectory => numbered "Not a directory" 20
  | isADirectory => numbered "Is a directory" 21
  | invalidArgument => numbered "Invalid argument" 22
  | storageFull => numbered "No space left on device" 28
  | brokenPipe => numbered "Broken pipe" 32
  | nameTooLong => numbered "File name too long" 36
  | directoryNotEmpty => numbered "Directory not empty" 39
  | familyNotSupported => numbered "Address family not supported by protocol" 97
  | addressNotAvailable => numbered "Cannot assign requested address" 99
  | networkUnreachable => numbered "Network is unreachable" 101
  | connectionRefused => numbered "Connection refused" 111
  | nulInName => "file name contained an unexpected NUL byte"
  | nulInArgument => "nul byte found in provided data"
  | unknownHost => "failed to lookup address information: Name or service not known"
  | settingsNotText => "stream did not contain valid UTF-8"
  | documentNotText => "stream contained invalid UTF-8"

end Fault

end LiveCoding
