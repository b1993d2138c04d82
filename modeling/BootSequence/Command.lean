import BootSequence.Defaults

/-!
From a command name to the program it stands for. A name with a slash or a dot in it is a path
already; any other is looked for in one directory. Whether the program exists is found out when it
is run.
-/

namespace BootSequence

inductive NameError where
  | empty
  | nameTooLong (length : Nat)
  | pathTooLong (length : Nat)
  deriving DecidableEq, Repr

namespace NameError

def length? : NameError → Option Nat
  | empty => none
  | nameTooLong n => some n
  | pathTooLong n => some n

def message : NameError → String
  | empty => "empty command name"
  | nameTooLong n => s!"name is {n} bytes, longer than {nameMax}"
  | pathTooLong n => s!"path is {n} bytes, longer than {pathMax - 1}"

end NameError

/-- A command that can be run: the name it was called by and the path of its program. -/
structure Command where
  name : String
  path : Path
  deriving DecidableEq, Repr

namespace Command

/-- Such a name is used as a path, so that the current directory and scripts with an extension
are never looked for elsewhere. -/
def isPathLike (token : String) : Bool := token.toList.any fun c => c = '/' || c = '.'

/-- The path of an entry: one slash is added unless the directory ends in one. The name is checked
before the whole, and one octet of the room for paths is kept for the end. -/
def join (dir : Path) (name : String) : Except NameError Path :=
  let entry := Octets.ofString name
  if entry.isEmpty then .error .empty
  else if nameMax < entry.length then .error (.nameTooLong entry.length)
  else
    let path := dir.octets ++ (if dir.endsInSlash then [] else [Octets.slash]) ++ entry
    if pathMax ≤ path.length then .error (.pathTooLong path.length)
    else .ok ⟨path⟩

def resolve (token : String) (searchDir : Path) : Except NameError Command :=
  if token.toList.isEmpty then .error .empty
  else if isPathLike token then .ok ⟨token, .ofString token⟩
  else (join searchDir token).map fun path => ⟨token, path⟩

def resolveUnder (dir : Path) (name : String) : Except NameError Command :=
  (join dir name).map fun path => ⟨name, path⟩

/-- The path that is executed. It always has a slash, because a program without one would be
searched for. -/
def program (c : Command) : Path :=
  if c.path.containsSlash then c.path else ⟨Path.dot ++ Octets.slash :: c.path.octets⟩

end Command
end BootSequence
