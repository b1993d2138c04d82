import BootSequence.Action
import BootSequence.Invocation
import BootSequence.Source

/-!
Scripts: one command per line, run one after another. A line that fails does not stop the ones
behind it; only a failed read does. A script is read on only as its lines are needed: one in a file
may be changed by what it runs.
-/

namespace BootSequence

inductive LineOutcome where
  | skipped
  | unresolved
  | launchFailed
  | finished (outcome : Outcome)
  deriving DecidableEq, Repr

namespace Script

/-- Counts over the lines of a script. `launched` counts the lines whose child ended in some way;
a refused launch is none of them. -/
structure Report where
  lines : Nat := 0
  skipped : Nat := 0
  launched : Nat := 0
  succeeded : Nat := 0
  failed : Nat := 0
  launchErrors : Nat := 0
  unresolved : Nat := 0
  droppedTokens : Nat := 0
  deriving DecidableEq, Repr

namespace Report

protected def add (a b : Report) : Report where
  lines := a.lines + b.lines
  skipped := a.skipped + b.skipped
  launched := a.launched + b.launched
  succeeded := a.succeeded + b.succeeded
  failed := a.failed + b.failed
  launchErrors := a.launchErrors + b.launchErrors
  unresolved := a.unresolved + b.unresolved
  droppedTokens := a.droppedTokens + b.droppedTokens

instance : Add Report := ⟨Report.add⟩

def ofLine (dropped : Nat) : LineOutcome → Report
  | .skipped => { lines := 1, skipped := 1, droppedTokens := dropped }
  | .unresolved => { lines := 1, unresolved := 1, droppedTokens := dropped }
  | .launchFailed => { lines := 1, launchErrors := 1, droppedTokens := dropped }
  | .finished outcome =>
    if outcome.success then { lines := 1, launched := 1, succeeded := 1, droppedTokens := dropped }
    else { lines := 1, launched := 1, failed := 1, droppedTokens := dropped }

def troubled (r : Report) : Nat := r.failed + r.launchErrors + r.unresolved

def hasFailures (r : Report) : Bool := 0 < r.troubled

end Report

inductive Error where
  | cannotOpen (path : Path) (cause : Fault)
  | cannotRead (path : Path) (lines : Nat) (cause : Fault)
  deriving DecidableEq, Repr

namespace Error

def cause : Error → Fault
  | cannotOpen _ cause | cannotRead _ _ cause => cause

def message : Error → String
  | cannotOpen path cause => s!"cannot open script {path.display}: {cause.message}"
  | cannotRead path lines cause =>
    s!"failed reading script {path.display} after {lines} lines: {cause.message}"

end Error

structure Run where
  result : Except Error Report
  unread : Feed

end Script

/-- Runs command lines: bare names are looked for in one directory, and no command is given more
than so many arguments. -/
structure Interpreter (σ : Type) where
  searchDir : Path
  maxArgs : Nat
  launcher : Launcher σ

namespace Interpreter

open Script

variable {σ : Type}

/-- Run one command and wait for it. Failures are logged and nothing more. -/
def execute (i : Interpreter σ) (invocation : Invocation) : Action σ LineOutcome := do
  match invocation.command? with
  | none => return .skipped
  | some name =>
    match Command.resolve name i.searchDir with
    | .error e =>
      Action.log .warn s!"cannot resolve `{name}`: {e.message}"
      return .unresolved
    | .ok command =>
      Action.log .info s!"[{name}] ..."
      match ← Action.launch i.launcher ⟨command, invocation.args⟩ with
      | .ok outcome =>
        if outcome.success then Action.log .info s!"[{name}] ok!"
        else Action.log .warn s!"[{name}] err: {outcome.describe}"
        return .finished outcome
      | .error e =>
        Action.log .error s!"[{name}] {e.message}"
        return .launchFailed

/-- Run the line with this number. Dropped words are reported before the command runs. -/
def runLine (i : Interpreter σ) (path : Path) (number : Nat) (line : Octets) : Action σ Report := do
  let invocation := Invocation.ofLine line.lossy i.maxArgs
  if 0 < invocation.dropped then
    let dropped := s!"dropped {invocation.dropped} token(s) beyond {i.maxArgs} arguments"
    Action.log .warn s!"{path.display}:{number}: {dropped}"
  return .ofLine invocation.dropped (← i.execute invocation)

def countLine (i : Interpreter σ) (path : Path) (number : Nat) (report : Report) (line : Octets) :
    Action σ Report := do
  return report + (← i.runLine path (number + report.lines + 1) line)

/-- Run what is left of a reader, after `number` lines, and leave what is not read of it. The path is
for messages. -/
def runReader {ρ : Type} [Reader ρ] (i : Interpreter σ) (path : Path) (reader : ρ) (number : Nat) :
    Action σ (Except Error Report × ρ) :=
  let failed report e := .cannotRead path (number + report.lines) (.numbered e)
  Reader.foldAll Action.files (i.countLine path number) failed reader {}

/-- Run all lines of a feed. -/
def runFeed (i : Interpreter σ) (path : Path) (feed : Feed) : Action σ Run := do
  let (result, unread) ← i.runReader path feed 0
  return ⟨result, unread⟩

def runFile (i : Interpreter σ) (path : Path) : Action σ (Except Error Report) := do
  let files ← Action.files
  match OpenFile.ofPath files path with
  | .error fault => return .error (.cannotOpen path fault)
  | .ok file =>
    Action.log .info s!"running script {path.display}"
    match (← i.runReader path file 0).1 with
    | .error e => return .error e
    | .ok report =>
      let counts :=
        s!"{report.launched} launched, {report.succeeded} ok, {report.troubled} failed"
      Action.log .info s!"script {path.display} done: {counts}"
      return .ok report

end Interpreter
end BootSequence
