import BootSequence.Machine.Shell.Token
import BootSequence.Text.Pieces
import BootSequence.Text.Utf8

/-!
What a shell knows by name, and putting it into words. A value outside quotes is cut at its blanks,
so that one word may become several fields or none.
-/

namespace BootSequence
namespace Shell

/-- The name and the arguments of a script, its variables, and what the special parameters show. -/
structure Scope where
  name : Octets
  args : List Octets
  vars : List (Octets × Octets)
  exported : List Octets
  status : Nat
  pid : Nat
  background : Option Nat
  deriving DecidableEq, Repr

namespace Scope

def ofNat (n : Nat) : Octets := .ofString (toString n)

def value (s : Scope) (name : List Char) : Octets :=
  match name with
  | ['#'] => ofNat s.args.length
  | ['@'] | ['*'] => Octets.join 32 s.args
  | ['?'] => ofNat s.status
  | ['$'] => ofNat s.pid
  | ['!'] => (s.background.map ofNat).getD []
  | ['-'] => []
  | ['0'] => s.name
  | _ =>
    match decimal? name with
    | some n => (s.args[n - 1]?).getD []
    | none => (s.vars.lookup (.ofCharacters name)).getD []

def assign (s : Scope) (name value : Octets) : Scope :=
  { s with vars := (name, value) :: s.vars.filter (·.1 ≠ name) }

def environment (s : Scope) : List (Octets × Octets) :=
  s.vars.filter fun v => s.exported.contains v.1

/-- What a part of a word comes to: characters, the mere presence of a field, or a gap between two
fields. -/
inductive Atom where
  | char (c : Char)
  | present
  | gap
  deriving DecidableEq, Repr

def Atom.char? : Atom → Option Char
  | char c => some c
  | _ => none

def isGap (c : Char) : Bool := c = ' ' || c = '\t' || c = '\n'

def whole (value : Octets) : List Atom := .present :: value.characters.map .char

def cut (value : Octets) : List Atom :=
  value.characters.map fun c => if isGap c then .gap else .char c

/-- The arguments stay fields of their own, in quotes too. -/
def atoms (s : Scope) : Part → List Atom
  | .char c _ => [.char c]
  | .nothing => [.present]
  | .parameter ['@'] true => ((s.args.map whole).intersperse [.gap]).flatten
  | .parameter ['@'] false | .parameter ['*'] false =>
    ((s.args.map cut).intersperse [.gap]).flatten
  | .parameter name true => whole (s.value name)
  | .parameter name false => cut (s.value name)

def fields (s : Scope) (w : Word) : List Octets :=
  (words (· = .gap) (w.flatMap s.atoms)).map fun field => .ofCharacters (field.filterMap Atom.char?)

def text (s : Scope) (w : Word) : Octets :=
  w.flatMap fun
    | .char c _ => Octets.ofCharacters [c]
    | .parameter name _ => s.value name
    | .nothing => []

end Scope
end Shell
end BootSequence
