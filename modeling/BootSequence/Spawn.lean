import BootSequence.Command

/-!
A request to run a program, built up step by step, and the one line that shows it.
-/

namespace BootSequence

/-- What is handed to the kernel: the program, the name it is told, its arguments, and what is set
in its environment, in the byte order of the names. A request that has once been made with an
environment that cannot be handed over is `spoiled` for good. -/
structure Spawn where
  program : Octets
  name : Octets
  args : List Octets
  vars : List (Octets × Octets)
  spoiled : Bool := false
  deriving DecidableEq, Repr

namespace Spawn

def ofProgram (program : Octets) : Spawn :=
  { program := program, name := program, args := [], vars := [] }

/-- A resolved command is told the name it was called by. -/
def ofCommand (c : Command) : Spawn :=
  { program := c.program.octets, name := .ofString c.name, args := [], vars := [] }

def addArgs (s : Spawn) (args : List Octets) : Spawn := { s with args := s.args ++ args }

/-- Put a variable where its name belongs; a later value replaces an earlier one. -/
def insertVar (name value : Octets) : List (Octets × Octets) → List (Octets × Octets)
  | [] => [(name, value)]
  | (k, v) :: rest =>
    if k = name then (name, value) :: rest
    else if Octets.le name k then (name, value) :: (k, v) :: rest
    else (k, v) :: insertVar name value rest

def addVar (s : Spawn) (name value : Octets) : Spawn :=
  { s with vars := insertVar name value s.vars }

/-- Words with an octet 0 never reach the kernel and are shown by a stand-in. -/
def shown (o : Octets) : Octets :=
  if o.contains Octets.nul then .ofString "<string-with-nul>" else o

/-- Settings, program and arguments with one space between them; nothing is quoted. -/
def info (s : Spawn) : Octets :=
  let setting (v : Octets × Octets) : Octets := v.1 ++ .ofString "=" ++ v.2 ++ .ofString " "
  s.vars.flatMap setting ++ shown s.program ++ s.args.flatMap fun a => .ofString " " ++ shown a

def varsHaveNul (s : Spawn) : Bool :=
  s.vars.any fun v => v.1.contains Octets.nul || v.2.contains Octets.nul

def isRefused (s : Spawn) : Bool :=
  s.spoiled || s.program.contains Octets.nul || s.name.contains Octets.nul ||
    s.args.any (·.contains Octets.nul) || s.varsHaveNul

def attempted (s : Spawn) : Spawn := { s with spoiled := s.spoiled || s.varsHaveNul }

end Spawn
end BootSequence
