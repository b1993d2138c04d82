import BootSequence.Program.Init
import BootSequence.Program.MountCommand
import BootSequence.Program.TaskRunner
import BootSequence.Program.TestRunner

/-!
The programs by their names.
-/

namespace BootSequence

/-- A program maps its environment, its arguments and the tree to what it leaves behind. -/
abbrev Program : Type := Machine.Environment → List Octets → Files → Program.Result

namespace Program

/-- No program that is run by its name is the first process of the machine. -/
def named? (name : String) : Option Program :=
  match name with
  | "init" => some (Init.run false)
  | "mount" => some MountCommand.run
  | "testrunner" => some TestRunner.run
  | "tasks" => some TaskRunner.run
  | _ => none

end Program
end BootSequence
