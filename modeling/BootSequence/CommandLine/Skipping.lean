import BootSequence.CommandLine.Grammar

/-!
Reading a command line and passing over what is not known in it. An unknown argument is reported,
every argument that reads like it is taken out, and the rest is read again.
-/

namespace BootSequence
namespace CommandLine

/-- The answer of a parser to what is left of a command line, and the unknown arguments reported on
the way to it. -/
structure Skipped (α : Type) where
  reported : List String
  answer : Except Error α

def without (shown : String) (args : List Octets) : List Octets :=
  args.filter fun arg => arg.text? ≠ some shown

/-- Read until nothing unknown is reported, or what is reported is nowhere in the arguments. Every
round but the last takes an argument out, so there are no more rounds than arguments. -/
def parseSkipping {α : Type} (parse : List Octets → Except Error α) (args : List Octets) :
    Skipped α :=
  match parse args with
  | .ok a => ⟨[], .ok a⟩
  | .error e =>
    if e.kind = .unknownArgument then
      match e.argument with
      | none => ⟨[], .error e⟩
      | some shown =>
        if (without shown args).length < args.length then
          let rest := parseSkipping parse (without shown args)
          ⟨shown :: rest.reported, rest.answer⟩
        else ⟨[shown], .error e⟩
    else ⟨[], .error e⟩
termination_by args.length

end CommandLine
end BootSequence
