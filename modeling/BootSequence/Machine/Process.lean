import BootSequence.Machine.Shell.Scope
import BootSequence.Machine.Shell.Statement
import BootSequence.Outcome
import BootSequence.Tree.OpenFile

/-!
Processes: what each of them knows, where it reads and writes, and what it still has to do. That is
a stack, so that a process can be left at any point and taken up again: what a statement leaves to
be done behind it lies under what has to be done first.
-/

namespace BootSequence

/-- Where a process writes to. A stream is known by its number. -/
inductive Sink where
  | console
  | complaints
  | stream (n : Nat)
  | lost
  deriving DecidableEq, Repr

structure Descriptors where
  input : Nat
  output : Sink
  errors : Sink
  deriving DecidableEq, Repr

inductive Work where
  | run (statement : Shell.Statement)
  | restore (before : Descriptors)
  /-- Run the right side, if the left side has ended as asked. -/
  | joined (succeeded : Bool) (right : Shell.Statement)
  | negate
  | choose (yes no : Shell.Statement)
  /-- The condition of a loop has been run; the status is that of the last round. -/
  | decide (whileTrue : Bool) (condition body : Shell.Statement) (status : Nat)
  | again (whileTrue : Bool) (condition body : Shell.Statement)
  | items (name : Octets) (body : Shell.Statement) (rest : List Octets)
  /-- Children have ended; take the status of this one, or 0 if none is asked for. -/
  | collect (pid : Option Nat)
  /-- Go on with a script, in which there may be more to come. -/
  | lines (rest : List Shell.Statement) (sound : Bool) (file : Option OpenFile)
  | load (argv : List Octets) (vars : List (Octets × Octets))
  | program (name : String)
  | ignore (signals : List Nat)
  | exit (status : Nat)
  deriving Repr

namespace Work

def isLoop : Work → Bool
  | decide _ _ _ _ | again _ _ _ | items _ _ _ => true
  | _ => false

def before? : Work → Option Descriptors
  | restore before => some before
  | _ => none

end Work

/-- When a process can go on: from a time on, or when these others have ended, or when nobody writes
to a stream any more. -/
inductive Wake where
  | time (t : Nat)
  | ended (pids : List Nat)
  | closed (stream : Nat)
  deriving DecidableEq, Repr

/-- A process. Of its children it has not yet seen some end, and knows how the others did. -/
structure Process where
  pid : Nat
  scope : Shell.Scope
  argv : List Octets
  descriptors : Descriptors
  inLoop : Bool
  ignored : List Nat
  children : List Nat
  known : List (Nat × Outcome)
  work : List Work
  wake : Wake
  ended : Option Outcome

namespace Process

/-- All that the process holds open to be written to, now or again later. -/
def sinks (p : Process) : List Sink :=
  let all := p.descriptors :: p.work.filterMap Work.before?
  all.flatMap fun d => [d.output, d.errors]

def argumentsPath (p : Process) : Octets := .ofString s!"/proc/{p.pid}/cmdline"

end Process
end BootSequence
