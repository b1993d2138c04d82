import BootSequence.Action

/-!
Rehearsing a boot: nothing is run and nothing is mounted. What becomes of a command is looked up by
the path of its program, octet for octet, and what becomes of a mount by the type of the file
system; whatever is not listed succeeds.
-/

namespace BootSequence
namespace Rehearsal

inductive Reply where
  | ends (outcome : Outcome)
  | refuses
  deriving DecidableEq, Repr

variable {σ : Type}

/-- The first program listed with the command's path decides. -/
def launcher (programs : List (Path × Reply)) : Launcher σ := fun call world =>
  match programs.lookup call.command.path with
  | some (.ends outcome) => (.ok outcome, [], world)
  | some .refuses => (.error ⟨call.command.program, .nulInArgument⟩, [], world)
  | none => (.ok (.exited 0), [], world)

/-- The first fault listed for the type of the file system is the answer. -/
def mounter (faults : List (String × Fault)) : Mounter σ := fun entry world =>
  match faults.lookup entry.fsType with
  | some fault => (.error fault, world)
  | none => (.ok (), world)

def reaper : Reaper σ := fun world => ([], [], world)

end Rehearsal
end BootSequence
