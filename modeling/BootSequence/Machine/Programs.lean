import BootSequence.Machine.Condition
import BootSequence.Machine.Echo
import BootSequence.Machine.Printf

/-!
The compiled programs of the machine, the shell apart. They look at files and change none, so each
is a function of its arguments, its input and what the files hold; only one of them takes time.
-/

namespace BootSequence
namespace Programs

structure Result where
  status : Nat
  output : Octets
  deriving DecidableEq, Repr

def dash : Octets := [45]

/-- Print files one after another; one that cannot be read is passed over and fails the whole. The
input stands in for no files, and for a dash. -/
def cat (read : Octets → Option Octets) (input : Option Octets) (args : List Octets) : Result :=
  let names := if args.isEmpty then [dash] else args
  let parts := names.map fun name => if name = dash then input else read name
  ⟨if parts.all Option.isSome then 0 else 1, (parts.filterMap id).flatten⟩

/-- A dash between two characters stands for all that lie between them. -/
def ranges : List Char → List Char
  | a :: '-' :: b :: rest =>
    (List.range (b.toNat + 1 - a.toNat)).map (fun n => Char.ofNat (a.toNat + n)) ++ ranges rest
  | c :: rest => c :: ranges rest
  | [] => []

def charactersOf (set : Octets) : List Char :=
  ranges (Echo.escaped .start set.characters).written.reverse

/-- The character that takes the place of another: the one at its place in the second set, or the
last one of a second set that is too short. -/
def translated (source target : List Char) (c : Char) : Char :=
  match source.reverse.idxOf? c with
  | none => c
  | some fromEnd =>
    match target[source.length - 1 - fromEnd]?, target.getLast? with
    | some d, _ => d
    | none, some last => last
    | none, none => c

def tr (input : Option Octets) (args : List Octets) : Result :=
  match input, args with
  | some text, [a, b] =>
    if a = Octets.ofString "-d" then
      ⟨0, .ofCharacters (text.characters.filter (!(charactersOf b).contains ·))⟩
    else
      ⟨0, .ofCharacters (text.characters.map (translated (charactersOf a) (charactersOf b)))⟩
  | _, _ => ⟨1, []⟩

def units : List (Char × Nat) := [('s', 1), ('m', 60), ('h', 3600), ('d', 86400)]

/-- A length of time in microseconds: digits with at most one point among them, and a unit. -/
def duration? (o : Octets) : Option Nat := do
  let cs := o.characters
  let unit := cs.getLast?.bind fun c => units.lookup c
  let number := if unit.isSome then cs.dropLast else cs
  let whole := number.takeWhile (· ≠ '.')
  let fraction := (number.drop whole.length).drop 1
  if whole.isEmpty && fraction.isEmpty then none
  else
    let seconds ← decimal? ('0' :: whole)
    let _ ← decimal? ('0' :: fraction)
    let micros ← decimal? ((fraction ++ List.replicate 6 '0').take 6)
    return (seconds * 1000000 + micros) * unit.getD 1

def sleep? (args : List Octets) : Option Nat :=
  if args.isEmpty then none else (args.mapM duration?).map fun times => times.foldl (· + ·) 0

def readsInput (program : String) (args : List Octets) : Bool :=
  match program with
  | "cat" => args.isEmpty || args.contains dash
  | "tr" => true
  | "sh" => args.isEmpty
  | _ => false

def variableLine (v : Octets × Octets) : Octets := v.1 ++ 61 :: v.2 ++ [Octets.newline]

def printenv (vars : List (Octets × Octets)) (args : List Octets) : Result :=
  if args.isEmpty then ⟨0, vars.flatMap variableLine⟩
  else
    let values := args.map fun name => vars.lookup name
    ⟨if values.all Option.isSome then 0 else 1,
      (values.filterMap id).flatMap (· ++ [Octets.newline])⟩

/-- Print as a format says; that it is missing or wrong is a failure like others. -/
def printf (args : List Octets) : Result :=
  let (text, status) := Printf.run args
  ⟨min status 1, text⟩

def run (files : Files) (read : Octets → Option Octets) (vars : List (Octets × Octets))
    (input : Option Octets) (program : String) (args : List Octets) : Option Result :=
  match program with
  | "true" => some ⟨0, []⟩
  | "false" => some ⟨1, []⟩
  | "echo" => some ⟨0, Echo.plain args⟩
  | "printf" => some (printf args)
  | "printenv" => some (printenv vars args)
  | "cat" => some (cat read input args)
  | "tr" => some (tr input args)
  | "test" => some ⟨Condition.status files args, []⟩
  | "[" => some ⟨Condition.bracketStatus files args, []⟩
  | _ => none

end Programs
end BootSequence
