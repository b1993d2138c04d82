import BootSequence.Program.Named

/-!
The command line: a program by its name, and its arguments. It runs on a machine of its own, whose
tree holds the usual directories and tools and nothing else.
-/

namespace BootSequence

/-- Write both outputs of a program that has ended, and pass its exit code on. -/
def report (result : Program.Result) : IO UInt32 := do
  (← IO.getStdout).write ⟨result.output.toArray⟩
  (← IO.getStderr).putStr result.errors
  return result.code.toUInt32

end BootSequence

open BootSequence

def main (args : List String) : IO UInt32 := do
  match args with
  | [] => report (.ofText 2 "" "Usage: PROGRAM [ARGUMENT]...\n" Host.files)
  | name :: rest =>
    match Program.named? name with
    | some program =>
      report (program Machine.usualEnvironment (rest.map Octets.ofString) Host.files)
    | none => report (.ofText 127 "" s!"{name}: not found\n" Host.files)
