import BootSequence.Log
import BootSequence.Tree.Files

/-!
A log file that is open. A record is behind what the file holds as soon as it is made, so that
whoever reads the file meanwhile finds it there.
-/

namespace BootSequence

/-- Where the file is, and which records it gets. -/
structure LogFile where
  loc : Location
  threshold : Threshold
  deriving DecidableEq, Repr

namespace LogFile

def text (l : LogFile) (level : Level) (message : String) : Octets :=
  if l.threshold.permits level then .ofString (Log.plainLine level message) else []

def add (l : LogFile) (level : Level) (message : String) (f : Files) : Files :=
  f.addContent l.loc (l.text level message)

def record (log : Option LogFile) (level : Level) (message : String) (f : Files) : Files :=
  match log with
  | some l => l.add level message f
  | none => f

end LogFile
end BootSequence
