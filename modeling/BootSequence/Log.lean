/-!
Log records: their levels, the thresholds that let them through, and the line that a record makes.
-/

namespace BootSequence

/-- The gravest level comes first. -/
inductive Level where
  | error
  | warn
  | info
  | debug
  | trace
  deriving DecidableEq, Repr

namespace Level

def all : List Level := [error, warn, info, debug, trace]

def rank : Level → Nat
  | error => 1
  | warn => 2
  | info => 3
  | debug => 4
  | trace => 5

def name : Level → String
  | error => "ERROR"
  | warn => "WARN"
  | info => "INFO"
  | debug => "DEBUG"
  | trace => "TRACE"

def colour : Level → Nat
  | error => 31
  | warn => 93
  | info => 34
  | debug => 32
  | trace => 90

end Level

/-- How grave a record must be to pass: nothing passes `off`. -/
inductive Threshold where
  | off
  | upTo (level : Level)
  deriving DecidableEq, Repr

namespace Threshold

def rank : Threshold → Nat
  | off => 0
  | upTo level => level.rank

/-- A record passes if it is at least as grave as the threshold asks. -/
def permits (t : Threshold) (l : Level) : Bool := l.rank ≤ t.rank

def max (a b : Threshold) : Threshold := if a.rank < b.rank then b else a

def name : Threshold → String
  | off => "OFF"
  | upTo level => level.name

def upper (s : String) : String := String.ofList (s.toList.map Char.toUpper)

/-- A threshold by its name, in any case; `NONE` is another name for `OFF`. -/
def ofName? (s : String) : Option Threshold :=
  if upper s = "NONE" then some .off
  else (.off :: Level.all.map .upTo).find? fun t => t.name = upper s

end Threshold

namespace Log

def tag (l : Level) : String :=
  let fill := String.ofList (List.replicate (5 - l.name.length) ' ')
  s!"[{fill}{l.name}]"

def plainLine (l : Level) (message : String) : String := s!"{tag l} {message}\n"

def colouredLine (l : Level) (message : String) : String :=
  s!"\x1b[{l.colour}m{tag l}\x1b[0m {message}\n"

end Log
end BootSequence
