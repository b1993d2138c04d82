import BootSequence.Log
import BootSequence.Defaults
import BootSequence.Text.Digits

/-!
What a command line may hold: options with long and short names, each with the kind of value that it
takes, and perhaps words that belong to no option. And what is wrong with a command line that holds
something else.
-/

namespace BootSequence
namespace CommandLine

inductive ErrorKind where
  | invalidValue
  | unknownArgument
  | unknownTask
  | invalidNumber
  | unneededValue
  | conflict
  | missingTask
  | malformedText
  | helpWanted
  | versionWanted
  deriving DecidableEq, Repr

namespace ErrorKind

def describe : ErrorKind → String
  | invalidValue => "one of the values isn't valid for an argument"
  | unknownArgument => "unexpected argument found"
  | unknownTask => "unrecognized subcommand"
  | invalidNumber => "invalid value for one of the arguments"
  | unneededValue => "unexpected value for an argument found"
  | conflict => "an argument cannot be used with one or more of the other specified arguments"
  | missingTask => "a subcommand is required but not provided"
  | malformedText => "invalid UTF-8 was detected in one or more arguments"
  | helpWanted => "help"
  | versionWanted => "version"

/-- Asking for help or for the version is no mistake. -/
def isRequest : ErrorKind → Bool
  | helpWanted | versionWanted => true
  | _ => false

end ErrorKind

/-- Why a command line is refused, and the argument to blame as it is shown, where one is. -/
structure Error where
  kind : ErrorKind
  argument : Option String := none
  deriving DecidableEq, Repr

inductive ValueKind where
  | text
  | path
  | count
  | threshold
  deriving DecidableEq, Repr

/-- A number as it may be written: a plus sign at most, and decimal digits; a machine word holds
it. -/
def count? (s : String) : Option Nat :=
  let digits := match s.toList with
    | '+' :: rest => rest
    | cs => cs
  (decimal? digits).filter (· ≤ wordMax)

namespace ValueKind

/-- What is wrong with a value, if anything is. Paths are any octets at all, but not none; the other
values have to be text. -/
def fault? (kind : ValueKind) (value : Octets) : Option ErrorKind :=
  match kind, value.text? with
  | path, _ => if value.isEmpty then some .invalidValue else none
  | _, none => some .malformedText
  | text, some _ => none
  | count, some s => if (count? s).isSome then none else some .invalidNumber
  | threshold, some s => if (Threshold.ofName? s).isSome then none else some .invalidNumber

end ValueKind

/-- What an option does: it is there or not, takes one value, takes one at each of its occurrences,
or ends the reading at once. -/
inductive Role where
  | flag
  | single (kind : ValueKind)
  | repeated (kind : ValueKind)
  | request (kind : ErrorKind)
  deriving DecidableEq, Repr

structure Switch where
  name : String
  long : Option String
  short : Option Char
  role : Role
  deriving DecidableEq, Repr

/-- The options, the pairs of them that exclude each other, and whether words may stand besides. -/
structure Grammar where
  switches : List Switch
  conflicts : List (String × String)
  words : Bool
  deriving DecidableEq, Repr

namespace Switch

def ofLong (name : String) (role : Role) : Switch := ⟨name, some name, none, role⟩

def ofShort (name : String) (letter : Char) (role : Role) : Switch :=
  ⟨name, none, some letter, role⟩

def help : Switch := ⟨"help", some "help", some 'h', .request .helpWanted⟩

def version : Switch := ⟨"version", some "version", some 'V', .request .versionWanted⟩

end Switch

namespace Grammar

def ofLong? (g : Grammar) (name : String) : Option Switch :=
  g.switches.find? fun s => s.long = some name

def ofShort? (g : Grammar) (letter : Char) : Option Switch :=
  g.switches.find? fun s => s.short = some letter

end Grammar

/-- What a command line says: each occurrence of an option, with its value where it takes one, and
the other words. -/
structure Matches where
  occurrences : List (String × Octets)
  words : List Octets
  deriving DecidableEq, Repr

namespace Matches

def has (m : Matches) (name : String) : Bool := m.occurrences.any (·.1 = name)

def value? (m : Matches) (name : String) : Option Octets := m.occurrences.lookup name

def values (m : Matches) (name : String) : List Octets :=
  m.occurrences.filterMap fun o => if o.1 = name then some o.2 else none

def path? (m : Matches) (name : String) : Option Path := (m.value? name).map Path.mk

def text? (m : Matches) (name : String) : Option String := (m.value? name).map Octets.lossy

end Matches
end CommandLine
end BootSequence
