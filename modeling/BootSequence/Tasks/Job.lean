import BootSequence.Machine.Launcher
import BootSequence.Machine.Signals

/-!
Tasks around the programs: each runs tools and writes files, says what it does, and stops at its
first failure.
-/

namespace BootSequence
namespace Tasks

inductive Doing where
  | makingDirectory (path : Path)
  | copying (source target : Path)
  | writing (path : Path)
  | settingMode (path : Path)
  deriving DecidableEq, Repr

def Doing.describe : Doing → String
  | makingDirectory path => s!"mkdir {path.display}"
  | copying source target => s!"copy {source.display} to {target.display}"
  | writing path => s!"write {path.display}"
  | settingMode path => s!"chmod {path.display}"

/-- Why a task stopped: a tool that could not be started or did not succeed, or a fault in the
tree. -/
inductive Failure where
  | notStarted (tool : Spawn) (cause : Fault)
  | unsuccessful (tool : Spawn) (outcome : Outcome)
  | stuck (doing : Doing) (cause : Fault)
  deriving DecidableEq, Repr

/-- The end of a tool in words; a signal is told by its number and its name. -/
def describeOutcome : Outcome → String
  | .exited code => s!"exit status: {code}"
  | .signaled signal =>
    match Signals.name? signal.toNat with
    | some name => s!"signal: {signal} (SIG{name})"
    | none => s!"signal: {signal}"

namespace Failure

def message : Failure → String
  | notStarted tool _ => s!"Failed calling {quoteOctets tool.info}"
  | unsuccessful tool outcome =>
    s!"Failed with {describeOutcome outcome}: {quoteOctets tool.info}"
  | stuck doing _ => doing.describe

def cause? : Failure → Option Fault
  | notStarted _ cause | stuck _ cause => some cause
  | unsuccessful _ _ => none

def fullMessage (f : Failure) : String :=
  match f.cause? with
  | some cause => s!"{f.message}: {cause.message}"
  | none => f.message

end Failure

/-- Where a task works: the world, the environment of its tools, and all that was said so far. -/
structure Workshop where
  world : World Children
  environment : Machine.Environment
  said : Octets

/-- A job changes its workshop and may fail; what it did before stays done. -/
abbrev Job (α : Type) : Type := ExceptT Failure (StateM Workshop) α

namespace Job

def say (line : String) : Job Unit :=
  modify fun w => { w with said := w.said ++ Octets.ofString (line ++ "\n") }

/-- Do something in the tree. What of it has been done stays, even if the rest fails. -/
def change (doing : Doing) (action : Files → Except Fault Unit × Files) : Job Unit := do
  let w ← get
  let (result, files) := action w.world.files
  set { w with world := { w.world with files := files } }
  match result with
  | .ok () => return ()
  | .error cause => throw (.stuck doing cause)

/-- Run a tool; every end but an exit with the code 0 is a failure. -/
def invoke (tool : Spawn) : Job Unit := do
  let w ← get
  let started := Machine.start w.environment none tool w.world
  set { w with world := started.world, said := w.said ++ started.printed }
  match started.outcome with
  | .error cause => throw (.notStarted tool cause)
  | .ok outcome => if outcome.success then return () else throw (.unsuccessful tool outcome)

def invokeAloud (tool : Spawn) : Job Unit := do
  say s!"Invoking {quoteOctets tool.info}"
  invoke tool

end Job
end Tasks

namespace Spawn

/-- A request by its command line, cut at white space; an empty line asks for a program without a
name. -/
def ofCommandLine (line : String) : Spawn :=
  let words := (Blank.fields line.toList).map fun w => Octets.ofString (String.ofList w)
  (ofProgram (words.headD [])).addArgs words.tail

end Spawn
end BootSequence
