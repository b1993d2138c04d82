import BootSequence.CommandLine.Reading
import BootSequence.Program.Result
import BootSequence.Tasks.RootImage

/-!
The tasks on the command line: the first word names a task, and what follows belongs to it.
-/

namespace BootSequence
namespace Program
namespace TaskRunner

open CommandLine Tasks

def buildSwitches : List Switch := [
  .ofLong "release" .flag, .ofLong "clog" (.single .text), .ofLong "flog" (.single .text),
  .ofLong "target" (.single .text)]

def taskGrammar (switches : List Switch) : Grammar := ⟨switches ++ [.help], [], false⟩

def buildGrammar : Grammar := taskGrammar buildSwitches

def rootImageGrammar : Grammar :=
  taskGrammar (buildSwitches ++ [.ofLong "out" (.single .path), .ofLong "skip-build" .flag])

def buildOptions (m : Matches) : BuildOptions :=
  let default : BuildOptions := {}
  ⟨m.has "release", (m.value? "clog").getD default.console, (m.value? "flog").getD default.file,
    m.value? "target"⟩

def rootImageOptions (m : Matches) : RootImageOptions :=
  let default : RootImageOptions := {}
  ⟨buildOptions m, (m.path? "out").getD default.out, m.has "skip-build"⟩

def parseBuild (args : List Octets) : Except Error BuildOptions :=
  (parse buildGrammar args).map buildOptions

def parseRootImage (args : List Octets) : Except Error RootImageOptions :=
  (parse rootImageGrammar args).map rootImageOptions

def task? (name : String) (args : List Octets) : Option (Except Error (Job Unit)) :=
  let plain (job : Job Unit) : Except Error (Job Unit) :=
    (parse (taskGrammar []) args).map fun _ => job
  match name with
  | "build" => some ((parseBuild args).map build)
  | "rootfs" => some ((parseRootImage args).map RootImage.stage)
  | "clean" => some (plain clean)
  | "lint" => some (plain lint)
  | _ => none

/-- Help is given on everything, or on the one task named. -/
def help (args : List Octets) : Except Error (Job Unit) :=
  match args with
  | [] => .error { kind := .helpWanted }
  | [name] =>
    if ["build", "rootfs", "clean", "lint", "help"].contains name.lossy then
      .error { kind := .helpWanted }
    else .error { kind := .unknownTask }
  | _ => .error { kind := .unknownTask }

/-- Options before the task ask for help or for the version. -/
def generalGrammar : Grammar := ⟨[.help, .version], [], false⟩

def parseTask (args : List Octets) : Except Error (Job Unit) :=
  match args with
  | [] => .error { kind := .missingTask }
  | name :: rest =>
    if name.lossy = "help" then help rest
    else
      match task? name.lossy rest with
      | some answer => answer
      | none =>
        match parse generalGrammar [name] with
        | .error e => .error e
        | .ok _ => .error { kind := .unknownTask }

def run (environment : Machine.Environment) (args : List Octets) (files : Files) : Result :=
  match parseTask args with
  | .error e =>
    if e.kind.isRequest then .ofText 0 "Usage: tasks TASK [OPTION]...\n" "" files
    else .ofText 2 "" s!"error: {e.kind.describe}\n" files
  | .ok job =>
    let (result, last) := job.run.run ⟨⟨files, Children.none⟩, environment, []⟩
    match result with
    | .ok () => .afterChildren 0 last.said "" last.world
    | .error failure => .afterChildren 1 last.said s!"Error: {failure.message}\n" last.world

end TaskRunner
end Program
end BootSequence
