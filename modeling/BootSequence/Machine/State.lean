import BootSequence.Action
import BootSequence.Machine.Host
import BootSequence.Machine.Process

/-!
The machine while programs run on it: its processes, the streams between them and to files, and a
clock that counts microseconds.
-/

namespace BootSequence

/-- What a stream is connected to: a text that one process leaves to another, or a place in a file.
What is written at the end of a file goes wherever its end is by then. -/
inductive Stream where
  | text (content : Octets)
  | file (loc : Location) (offset : Nat) (atEnd : Bool)
  deriving DecidableEq, Repr

/-- What is remembered of children from one launch to the next: those that still run, and those that
have ended and that nobody has waited for. The orphans are the ones whose parent has ended, the
first one first. -/
structure Children where
  clock : Nat
  nextPid : Nat
  running : List Process
  ended : List (Nat × Outcome)
  orphans : List Nat
  streams : List Stream

namespace Children

/-- The stream that there is from the beginning, with nothing to be read. -/
def nothing : Nat := 0

def none : Children := ⟨0, 2, [], [], [], [.text []]⟩

end Children

/-- The children, the files, those of the files that somebody else has open to write to, and what
has been printed, in chunks, newest first. -/
structure Machine extends Children where
  files : Files
  held : List Location
  printed : List Octets

namespace Machine

/-! ## Streams -/

def stream (m : Machine) (n : Nat) : Stream := m.streams[n]?.getD (.text [])

def setStream (m : Machine) (n : Nat) (s : Stream) : Machine :=
  { m with streams := m.streams.set n s }

def addStream (m : Machine) (s : Stream) : Nat × Machine :=
  (m.streams.length, { m with streams := m.streams ++ [s] })

/-- Take all that is there to be read; `none` if it cannot be read. -/
def take (m : Machine) (n : Nat) : Option Octets × Machine :=
  match m.stream n with
  | .text content => (some content, m.setStream n (.text []))
  | .file loc offset atEnd =>
    match m.files.contentAt loc with
    | .ok content =>
      (some (content.drop offset), m.setStream n (.file loc (max offset content.length) atEnd))
    | .error _ => (none, m)

def write (m : Machine) (sink : Sink) (o : Octets) : Machine :=
  match sink with
  | .console => if o.isEmpty then m else { m with printed := o :: m.printed }
  | .complaints | .lost => m
  | .stream n =>
    match m.stream n with
    | .text content => m.setStream n (.text (content ++ o))
    | .file loc _ true => { m with files := m.files.addContent loc o }
    | .file loc offset false =>
      { m with files := m.files.overwrite loc offset o }.setStream n
        (.file loc (offset + o.length) false)

def openSink (m : Machine) (path : Path) (fromStart : Bool) : Except Fault (Sink × Machine) := do
  let (loc, opened) ← m.files.openToWrite path 0o666
  let files := if fromStart then opened.setContent loc [] else opened
  let (n, m) := { m with files := files }.addStream (.file loc 0 !fromStart)
  return (.stream n, m)

def arguments? (m : Machine) (path : Octets) : Option Octets :=
  (m.running.find? (·.argumentsPath = path)).map fun p => p.argv.flatMap (· ++ [Octets.nul])

def openInput (m : Machine) (path : Octets) : Except Fault (Nat × Machine) := do
  match m.arguments? path with
  | some text => return m.addStream (.text text)
  | none => return m.addStream (.file (← m.files.openToRead ⟨path⟩) 0 false)

def read? (m : Machine) (path : Octets) : Option Octets :=
  match m.arguments? path with
  | some text => some text
  | none => (m.files.read ⟨path⟩).toOption

/-- Somebody may still write to a stream. -/
def isWritten (m : Machine) (n : Nat) : Bool := m.running.any (·.sinks.contains (.stream n))

def isBusy (m : Machine) (loc : Location) : Bool :=
  m.held.contains loc ||
    (m.running.flatMap Process.sinks).any fun
      | .stream n =>
        match m.stream n with
        | .file other _ _ => other = loc
        | .text _ => false
      | _ => false

def isHeard (m : Machine) : Bool :=
  m.running.any fun p => p.sinks.contains .console || p.sinks.contains .complaints

/-! ## Processes -/

def update (m : Machine) (p : Process) : Machine :=
  { m with running := m.running.map fun q => if q.pid = p.pid then p else q }

/-- A process has ended. It is not forgotten before somebody has waited for it; its own children
belong to nobody now. -/
def conclude (m : Machine) (p : Process) (outcome : Outcome) : Machine :=
  { m with
    running := m.running.filter (·.pid ≠ p.pid)
    ended := m.ended ++ [(p.pid, outcome)]
    orphans := m.orphans ++ p.children }

def hasEnded (m : Machine) (pid : Nat) : Bool := (m.ended.lookup pid).isSome

def forget (m : Machine) (pid : Nat) : Machine :=
  { m with ended := m.ended.filter (·.1 ≠ pid), orphans := m.orphans.filter (· ≠ pid) }

end Machine
end BootSequence
