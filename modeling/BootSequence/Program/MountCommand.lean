import BootSequence.CommandLine.Reading
import BootSequence.CommandLine.Skipping
import BootSequence.Mount.Options
import BootSequence.Program.Result

/-!
Mounting from the command line: all that the usual table lists, or one file system. Long options are
none of the program's own and are handed to the file system; short ones that are not known are
reported and passed over.
-/

namespace BootSequence
namespace Program
namespace MountCommand

open CommandLine

def grammar : Grammar where
  switches := [.ofShort "all" 'a' .flag, .ofShort "type" 't' (.single .text), .help]
  conflicts := []
  words := true

structure Request where
  all : Bool
  fsType : Option String
  words : List String
  deriving DecidableEq, Repr

def Request.ofMatches (m : Matches) : Request :=
  ⟨m.has "all", m.text? "type", m.words.map Octets.lossy⟩

/-- Read the short options and the words. -/
def parse (args : List Octets) : Skipped Request :=
  parseSkipping (fun args => (CommandLine.parse grammar args).map Request.ofMatches) args

/-- The same for a line that begins with the program's own name, which is not read. What is passed
over is taken out of the whole line. -/
def parseLine (line : List Octets) : Skipped Request :=
  parseSkipping (fun line => (CommandLine.parse grammar line.tail).map Request.ofMatches) line

/-- An unknown option is shown without the dashes before it. -/
def complaint (shown : String) : String :=
  let letters := String.ofList (shown.toList.dropWhile (· = '-'))
  s!"mount: invalid option -- '{letters}'\n"

inductive Failure where
  | incomplete (fsType : String)
  | failed (e : Mount.Error)
  deriving DecidableEq, Repr

variable {σ : Type}

/-- Mount the file system that the last two words name. -/
def mountOne (mounter : Mounter σ) (fsType : String) (words : List String) (data : Option String) :
    Action σ (Except Failure Unit) := do
  match words.reverse with
  | target :: source :: _ =>
    return (← Mount.mountTargeted mounter source (.ofString target) fsType data).mapError .failed
  | _ => return .error (.incomplete fsType)

def mountAll (mounter : Mounter σ) : Action σ (Except Failure Unit) := do
  return ((← Mount.mountAll mounter Defaults.fstab).mapError .failed).map fun _ => ()

/-- Do what is asked for, up to the first failure. -/
def serve (mounter : Mounter σ) (request : Request) (data : Option String) :
    Action σ (Except Failure Unit) := do
  match ← if request.all then mountAll mounter else pure (.ok ()) with
  | .error failure => return .error failure
  | .ok () =>
    match request.fsType with
    | none => return .ok ()
    | some fsType => mountOne mounter fsType request.words data

/-- The same, telling of a failure: in the log, or as the answer where the words were too few. -/
def serveAll (mounter : Mounter σ) (request : Request) (data : Option String) :
    Action σ (Nat × String) := do
  match ← serve mounter request data with
  | .ok () => return (0, "")
  | .error (.incomplete fsType) => return (1, s!"mount: -t {fsType} needs DEVICE and NODE\n")
  | .error (.failed e) =>
    Action.log .error s!"mount: {e.message}"
    return (1, "")

/-- The options for the file system. It is given none rather than an empty text. -/
def data? (options : List Char) : Option String :=
  if options.isEmpty then none else some (String.ofList options)

/-- What a command line comes to: the long options are taken out of it and handed on as data, and the
rest says what is to be mounted. -/
def act (mounter : Mounter σ) (args : List Octets) : Skipped (Action σ (Nat × String)) :=
  let (rest, options) := Mount.Options.fold args
  let skipped := parse rest
  ⟨skipped.reported, skipped.answer.map fun request => serveAll mounter request (data? options)⟩

def usage : String := "Usage: mount [OPTION]... DEVICE NODE\nMount a file system.\n"

def run (_ : Machine.Environment) (args : List Octets) (files : Files) : Result :=
  if args.isEmpty then .ofText 0 usage "" files
  else
    let (unavailable, journal) := startLogging "mount" {} files
    let skipped := act Mount.Kernel.mounter args
    let complaints := unavailable ++ String.join (skipped.reported.map complaint)
    match skipped.answer with
    | .error e =>
      if e.kind.isRequest then .ofText 0 usage complaints files
      else .ofText 1 "" (complaints ++ s!"error: {e.kind.describe}\n") files
    | .ok action =>
      let ((code, errors), _, last) := journal.perform () action
      ⟨code, last.console, complaints ++ errors, last.files⟩

end MountCommand
end Program
end BootSequence
