import BootSequence.Invocation

/-!
What a boot is to do.
-/

namespace BootSequence

inductive Stage where
  | script (path : Path)
  | service (invocation : Invocation)
  deriving DecidableEq, Repr

namespace Stage

/-- A command line as a stage, cut as a script's lines are; a blank one is none. -/
def service? (commandLine : String) (maxArgs : Nat) : Option Stage :=
  let invocation := Invocation.ofLine commandLine maxArgs
  if invocation.isEmpty then none else some (.service invocation)

def display : Stage → String
  | script path => s!"script {path.display}"
  | service invocation => s!"service `{invocation.display}`"

end Stage

structure Config where
  searchDir : Path
  fstab : Path
  procDir : Path
  maxArgs : Nat
  stages : List Stage
  reap : Bool
  deriving DecidableEq, Repr

namespace Config

def default : Config where
  searchDir := Defaults.searchDir
  fstab := Defaults.fstab
  procDir := Defaults.procDir
  maxArgs := Defaults.maxArgs
  stages := .script Defaults.script :: (Stage.service? Defaults.service Defaults.maxArgs).toList
  reap := false

end Config
end BootSequence
