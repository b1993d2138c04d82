import BootSequence.Machine.Schedule
import BootSequence.Text.Quoted

/-!
Running programs on the machine: requests to run one, and the launcher and the reaper of a boot that
really takes place. A program that cannot be executed counts as one that has ended, with the code
that shells use for that; only where no process could be made at all is there no outcome.
-/

namespace BootSequence
namespace Machine

abbrev Environment := List (Octets × Octets)

def usualEnvironment : Environment := [(.ofString "PATH", .ofString "/usr/bin:/bin")]

/-- The machine as somebody finds it who writes to a log file or to none. -/
def ofWorld (log : Option LogFile) (world : World Children) : Machine :=
  { world.state with files := world.files, held := (log.map LogFile.loc).toList, printed := [] }

structure Started where
  outcome : Except Fault Outcome
  printed : Octets
  world : World Children

def leave (m : Machine) : Octets × World Children :=
  (m.printed.reverse.flatten, ⟨m.files, m.toChildren⟩)

/-- Run a program to its end. What the request sets in the environment goes before the rest. -/
def start (environment : Environment) (log : Option LogFile) (spawn : Spawn)
    (world : World Children) : Started :=
  if spawn.isRefused then ⟨.error .nulInArgument, [], world⟩
  else
    let inherited := environment.filter fun v => (spawn.vars.lookup v.1).isNone
    let vars := spawn.vars ++ inherited
    let searchPath := (vars.lookup (.ofString "PATH")).getD []
    let machine := ofWorld log world
    let source : Image.Source := ⟨machine.files, machine.isBusy⟩
    match Image.search source searchPath (spawn.name :: spawn.args) spawn.program with
    | .error fault => ⟨.error fault, [], world⟩
    | .ok image =>
      let (pid, launched) := machine.launch image vars
      let (outcome, last) := launched.runToEnd pid
      let (printed, after) := last.leave
      ⟨.ok outcome, printed, after⟩

def notes (printed : Octets) : List Note := if printed.isEmpty then [] else [.output printed]

/-- The codes for failures to execute: nothing there, or nothing that may be executed. -/
def executionFailure? : Fault → Option Int
  | .unnumbered _ => none
  | .numbered e =>
    if [.noEntry, .notDirectory, .nameTooLong, .tooManyLinks].contains e then some exitNotFound
    else if [.permissionDenied, .notPermitted, .notExecutableFormat, .isDirectory,
        .textBusy].contains e then some exitNotExecutable
    else none

/-- Launch commands as children. The request is logged before anything else, and at once. -/
def launcher (environment : Environment) (log : Option LogFile) : Launcher Children :=
    fun call world =>
  let spawn := (Spawn.ofCommand call.command).addArgs (call.args.map Octets.ofString)
  let record (message : String) (world : World Children) : World Children :=
    { world with files := LogFile.record log .debug message world.files }
  let request := s!"spawn {quoteOctets spawn.info}"
  let started := start environment log spawn (record request world)
  match started.outcome with
  | .ok outcome => (.ok outcome, .log .debug request :: notes started.printed, started.world)
  | .error fault =>
    let program := call.command.program
    match executionFailure? fault with
    | some code =>
      let failed := s!"exec {program.display} failed: {fault.message}"
      (.ok (.exited code), [.log .debug request, .log .debug failed], record failed started.world)
    | none => (.error ⟨program, fault⟩, [.log .debug request], started.world)

def maxOrphans : Nat := 0x100000

def reaper : Reaper Children := fun world =>
  let (released, last) := (ofWorld none world).reapAll maxOrphans
  let (printed, after) := last.leave
  (released, notes printed, after)

/-- Orphans are not the children of every process: to most, none are left. -/
def noOrphans : Reaper Children := fun world => ([], [], world)

def finish (world : World Children) : Octets × World Children :=
  (ofWorld none world).settle.leave

end Machine
end BootSequence
