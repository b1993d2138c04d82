import BootSequence.Action

/-!
Where log records go. A process has at most one logger, with two sinks: its standard output and a
file, each behind a threshold of its own. Installing a logger is done once; a second attempt changes
nothing that is in use, but it has opened its file by then.
-/

namespace BootSequence

/-- What a logger is asked to be. The file is used only if a path is given and the threshold lets
something through. -/
structure LoggerConfig where
  console : Threshold := .upTo .info
  file : Threshold := .off
  path : Option Path := none
  deriving DecidableEq, Repr

namespace LoggerConfig

def path? (c : LoggerConfig) : Option Path := if c.file = .off then none else c.path

end LoggerConfig

/-- An installed logger: what it prints, and the file that it writes to, if it writes to one. -/
structure Logger where
  console : Threshold
  file : Option LogFile
  deriving DecidableEq, Repr

namespace Logger

def enabled (l : Logger) (level : Level) : Bool :=
  l.console.permits level || l.file.any (·.threshold.permits level)

/-- Records above it need not be shown to the logger at all. -/
def limit (l : Logger) : Threshold :=
  match l.file with
  | some file => l.console.max file.threshold
  | none => l.console

def consoleText (l : Logger) (level : Level) (message : String) : Octets :=
  if l.console.permits level then .ofString (Log.colouredLine level message) else []

end Logger

/-- A process as far as it logs: its logger, the threshold before the logger, all that it has
written to standard output, and the tree with its log file. -/
structure Journal where
  logger : Option Logger
  limit : Threshold
  console : Octets
  files : Files

namespace Journal

/-- Before any logger is installed every record is lost. -/
def start (files : Files) : Journal := ⟨none, .off, [], files⟩

inductive Error where
  | cannotOpen (cause : Fault)
  | alreadyInstalled
  deriving DecidableEq, Repr

namespace Error

def cause : Error → String
  | cannotOpen cause => cause.message
  | alreadyInstalled =>
    "attempted to set a logger after the logging system was already initialized"

def message (e : Error) : String :=
  match e with
  | cannotOpen _ => s!"cannot open log file: {e.cause}"
  | alreadyInstalled => s!"logger already installed: {e.cause}"

end Error

def openFile (files : Files) (c : LoggerConfig) : Except Fault (Option LogFile × Files) :=
  match c.path? with
  | none => .ok (none, files)
  | some path =>
    (files.openToWrite path 0o666).map fun (loc, opened) => (some ⟨loc, c.file⟩, opened)

/-- Open the file, then put the logger in place if there is none. -/
def install (j : Journal) (c : LoggerConfig) : Except Error Unit × Journal :=
  match openFile j.files c with
  | .error cause => (.error (.cannotOpen cause), j)
  | .ok (file, files) =>
    match j.logger with
    | some _ => (.error .alreadyInstalled, { j with files := files })
    | none =>
      let logger : Logger := ⟨c.console, file⟩
      (.ok (), { j with logger := some logger, limit := logger.limit, files := files })

def enabled (j : Journal) (level : Level) : Bool := j.logger.any (·.enabled level)

def logFile? (j : Journal) : Option LogFile := j.logger.bind Logger.file

def print (j : Journal) (o : Octets) : Journal := { j with console := j.console ++ o }

def display (j : Journal) (level : Level) (message : String) : Journal :=
  match j.logger with
  | none => j
  | some logger => j.print (logger.consoleText level message)

/-- Hand a record to the logger, which leaves it alone if neither sink is to get it. -/
def write (j : Journal) (level : Level) (message : String) : Journal :=
  if j.enabled level then
    { j.display level message with files := LogFile.record j.logFile? level message j.files }
  else j

def record (j : Journal) (level : Level) (message : String) : Journal :=
  if j.limit.permits level then j.write level message else j

def event (j : Journal) : Event → Journal
  | .log level message | .child (.log level message) => j.display level message
  | .child (.output o) => j.print o
  | .launch _ | .makeDirectory _ | .mount _ _ => j

def replay (j : Journal) (t : Trace) : Journal := t.foldl event j

/-- Do something in the tree of the journal. The log file grows while it is done; on standard output
it is all the same when the rest is shown. -/
def perform {σ α : Type} (j : Journal) (state : σ) (action : Action σ α) : α × σ × Journal :=
  let ran := action j.logFile? ⟨j.files, state⟩
  (ran.value, ran.world.state, { j with files := ran.world.files }.replay ran.trace)

end Journal
end BootSequence
