import BootSequence.Fault
import BootSequence.Mount.Flags
import BootSequence.Path

/-!
One mount, and how it can fail.
-/

namespace BootSequence
namespace Mount

/-- All that one mount needs. Without data the kernel is given none, not an empty text. -/
structure Entry where
  source : String
  target : Path
  fsType : String
  flags : Flags
  data : Option String
  deriving DecidableEq, Repr

def Entry.display (e : Entry) : String := s!"{e.source} on {e.target.display} type {e.fsType}"

inductive Error where
  | mountPoint (target : Path) (cause : Fault)
  | refused (entry : Entry) (cause : Fault)
  | cannotOpen (table : Path) (cause : Fault)
  | cannotRead (table : Path) (cause : Fault)
  | malformed (table : Path) (lineNumber : Nat) (line : String)
  deriving DecidableEq, Repr

namespace Error

/-- What brought the error about. A malformed record is its own cause. -/
def cause? : Error → Option String
  | mountPoint _ cause | refused _ cause => some cause.report
  | cannotOpen _ cause | cannotRead _ cause => some cause.message
  | malformed _ _ _ => none

end Error
end Mount
end BootSequence
