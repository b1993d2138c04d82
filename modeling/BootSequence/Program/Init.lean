import BootSequence.CommandLine.Reading
import BootSequence.Program.Result

/-!
The first program of a system: it boots as its command line says. The kernel may hand it anything,
so a command line that cannot be read is passed over, and the boot takes its usual course.
-/

namespace BootSequence
namespace Program
namespace Init

open CommandLine

def grammar : Grammar where
  switches := [
    .ofLong "script" (.single .path), .ofLong "no-script" .flag,
    .ofLong "service" (.repeated .text), .ofLong "no-service" .flag,
    .ofLong "fstab" (.single .path), .ofLong "proc-dir" (.single .path),
    .ofLong "search-dir" (.single .path), .ofLong "max-args" (.single .count),
    .ofLong "reap" .flag, .ofLong "clog" (.single .threshold), .ofLong "flog" (.single .threshold),
    .ofLong "log-file" (.single .path), .help, .version]
  conflicts := [("no-script", "script"), ("no-service", "service")]
  words := false

/-- What a command line asks for, all of which can be left out, and whether the process is the first
of its system. -/
structure Options where
  script : Option Path := none
  noScript : Bool := false
  services : List String := []
  noService : Bool := false
  fstab : Option Path := none
  procDir : Option Path := none
  searchDir : Option Path := none
  maxArgs : Option Nat := none
  reap : Bool := false
  console : Option Threshold := none
  file : Option Threshold := none
  logFile : Option Path := none
  isFirst : Bool := false
  deriving DecidableEq, Repr

namespace Options

def ofMatches (m : Matches) : Options where
  script := m.path? "script"
  noScript := m.has "no-script"
  services := (m.values "service").map Octets.lossy
  noService := m.has "no-service"
  fstab := m.path? "fstab"
  procDir := m.path? "proc-dir"
  searchDir := m.path? "search-dir"
  maxArgs := (m.text? "max-args").bind count?
  reap := m.has "reap"
  console := (m.text? "clog").bind Threshold.ofName?
  file := (m.text? "flog").bind Threshold.ofName?
  logFile := m.path? "log-file"

def loggerConfig (o : Options) : LoggerConfig :=
  let default : LoggerConfig := {}
  ⟨o.console.getD default.console, o.file.getD default.file, o.logFile⟩

/-- The script comes first, and then the services in their order, of which blank ones are none. The
first process is the parent of all orphans, and waits for them in any case. -/
def config (o : Options) : Config :=
  let maxArgs := o.maxArgs.getD Defaults.maxArgs
  let script := if o.noScript then [] else [Stage.script (o.script.getD Defaults.script)]
  let commandLines :=
    if o.noService then [] else if o.services.isEmpty then [Defaults.service] else o.services
  { searchDir := o.searchDir.getD Defaults.searchDir
    fstab := o.fstab.getD Defaults.fstab
    procDir := o.procDir.getD Defaults.procDir
    maxArgs := maxArgs
    stages := script ++ commandLines.filterMap fun line => Stage.service? line maxArgs
    reap := o.reap || o.isFirst }

end Options

variable {σ : Type}

def boot (system : System σ) (mistake : Option ErrorKind) (config : Config) : Action σ Unit := do
  match mistake with
  | some kind => Action.log .warn s!"ignoring command line: {kind.describe}"
  | none => pure ()
  Action.log .info s!"init started, {config.stages.length} stage(s)"
  let summary ← Supervisor.run system config
  Action.log .info s!"reaped {summary.reaped} orphan(s), bye"

def start (environment : Machine.Environment) (mistake : Option ErrorKind) (options : Options)
    (files : Files) : Result :=
  let (errors, journal) := startLogging "init" options.loggerConfig files
  let system := system environment journal.logFile? options.isFirst
  let (_, children, last) :=
    journal.perform Children.none (boot system mistake options.config)
  .afterChildren 0 last.console errors ⟨last.files, children⟩

def run (isFirst : Bool) (environment : Machine.Environment) (args : List Octets)
    (files : Files) : Result :=
  match parse grammar args with
  | .ok m => start environment none { Options.ofMatches m with isFirst := isFirst } files
  | .error e =>
    if e.kind.isRequest then .ofText 0 "Usage: init [OPTION]...\n" "" files
    else start environment (some e.kind) { isFirst := isFirst } files

end Init
end Program
end BootSequence
