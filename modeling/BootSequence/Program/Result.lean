import BootSequence.Journal
import BootSequence.Machine.Launcher
import BootSequence.Mount.Kernel
import BootSequence.Supervisor

/-!
What a program leaves behind when it has ended, and those who act for it on the machine.
-/

namespace BootSequence
namespace Program

structure Result where
  code : Nat
  output : Octets
  errors : String
  files : Files

def Result.ofText (code : Nat) (output errors : String) (files : Files) : Result :=
  ⟨code, .ofString output, errors, files⟩

/-- Commands are launched as children, mounts are left to the kernel. Orphans go to the first
process of the machine. -/
def system (environment : Machine.Environment) (log : Option LogFile) (isFirst : Bool) :
    System Children where
  launcher := Machine.launcher environment log
  mounter := Mount.Kernel.mounter
  reaper := if isFirst then Machine.reaper else Machine.noOrphans

/-- The end of a program that has left children behind: its output is complete when nobody can write
to it any more. -/
def Result.afterChildren (code : Nat) (output : Octets) (errors : String) (world : World Children) :
    Result :=
  let (late, last) := Machine.finish world
  ⟨code, output ++ late, errors, last.files⟩

/-- Install a logger. A program that gets none goes on without, and says so. -/
def startLogging (program : String) (config : LoggerConfig) (files : Files) : String × Journal :=
  match (Journal.start files).install config with
  | (.ok (), journal) => ("", journal)
  | (.error e, journal) => (s!"{program}: logger unavailable: {e.message}\n", journal)

end Program
end BootSequence
