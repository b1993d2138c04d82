import BootSequence.Defaults
import BootSequence.Text.Blank

/-!
One command line, cut into words. There is no quoting, no comment and no continuation: words are
what spaces and tabs separate, and the ones past the limit are dropped and counted.
-/

namespace BootSequence

/-- The words kept of a command line, the command first, and how many were dropped. -/
structure Invocation where
  argv : List String
  dropped : Nat
  deriving DecidableEq, Repr

namespace Invocation

/-- A final newline goes, then a final carriage return. -/
def stripEnd (cs : List Char) : List Char :=
  let line := if cs.getLast? = some '\n' then cs.dropLast else cs
  if line.getLast? = some '\r' then line.dropLast else line

def tokens (line : String) : List String :=
  (words Blank.isBlank (stripEnd line.toList)).map String.ofList

/-- How many words are kept: the command and its arguments, within a machine word. -/
def room (maxArgs : Nat) : Nat := min (maxArgs + 1) wordMax

def ofLine (line : String) (maxArgs : Nat) : Invocation :=
  let all := tokens line
  ⟨all.take (room maxArgs), all.length - room maxArgs⟩

def isEmpty (i : Invocation) : Bool := i.argv.isEmpty

def command? (i : Invocation) : Option String := i.argv.head?

def args (i : Invocation) : List String := i.argv.tail

def display (i : Invocation) : String := " ".intercalate i.argv

end Invocation
end BootSequence
