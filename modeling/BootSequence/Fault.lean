import BootSequence.Errno

/-!
What can go wrong in a request to the system, and the rough kinds that messages lead with.
-/

namespace BootSequence

/-- A failed request: with the kernel's number, or refused before any system call and known by its
text alone. -/
inductive Fault where
  | numbered (errno : Errno)
  | unnumbered (text : String)
  deriving DecidableEq, Repr

inductive FaultKind where
  | permissionDenied
  | alreadyExists
  | outOfSpace
  | readOnly
  | notADirectory
  | nameTooLong
  | unknown
  deriving DecidableEq, Repr

namespace FaultKind

def ofErrno (e : Errno) : FaultKind :=
  if e = .permissionDenied then .permissionDenied
  else if e = .fileExists then .alreadyExists
  else if e = .noSpace then .outOfSpace
  else if e = .readOnly then .readOnly
  else if e = .notDirectory then .notADirectory
  else if e = .nameTooLong then .nameTooLong
  else .unknown

def description : FaultKind → String
  | permissionDenied => "Permission denied"
  | alreadyExists => "Directory already exists"
  | outOfSpace => "No space left on device"
  | readOnly => "Read-only file system"
  | notADirectory => "A component of the path is not a directory"
  | nameTooLong => "Path name is too long"
  | unknown => "An unknown error occurred"

end FaultKind

namespace Fault

def errno? : Fault → Option Errno
  | numbered e => some e
  | unnumbered _ => none

def message : Fault → String
  | numbered e => s!"{e.text} (os error {e.number})"
  | unnumbered text => text

/-- A failure without a number has no kind of its own. -/
def kind : Fault → FaultKind
  | numbered e => .ofErrno e
  | unnumbered _ => .unknown

def report (f : Fault) : String := s!"{f.kind.description}: {f.message}"

/-- A path with an octet 0 cannot be handed to the kernel. -/
def nulInPath : Fault := .unnumbered "file name contained an unexpected NUL byte"

/-- Nor can a program name or an argument with one. -/
def nulInArgument : Fault := .unnumbered "nul byte found in provided data"

end Fault
end BootSequence
