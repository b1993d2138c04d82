import BootSequence.Tasks.Job

/-!
Building the programs, cleaning up, and checking the sources: the work is done by a build tool.
-/

namespace BootSequence
namespace Tasks

structure BuildOptions where
  release : Bool := false
  console : Octets := .ofString "INFO"
  file : Octets := .ofString "NONE"
  target : Option Octets := none
  deriving DecidableEq, Repr

namespace BuildOptions

def profile (o : BuildOptions) : String := if o.release then "release" else "debug"

def binaryDir (o : BuildOptions) : Path :=
  let machine := match o.target with
    | some target => target ++ [Octets.slash]
    | none => []
  ⟨Octets.ofString "target/" ++ machine ++ Octets.ofString o.profile⟩

/-- The request to the build tool; the thresholds go through its environment. -/
def tool (o : BuildOptions) : Spawn :=
  let base := Spawn.ofCommandLine "cargo build --package user"
  let released := if o.release then base.addArgs [.ofString "--release"] else base
  let targeted := match o.target with
    | some target => released.addArgs [.ofString "--target", target]
    | none => released
  (targeted.addVar (.ofString "INIT_CLOG") o.console).addVar (.ofString "INIT_FLOG") o.file

end BuildOptions

def build (o : BuildOptions) : Job Unit := do
  Job.say "Building user programs..."
  Job.invokeAloud o.tool

def clean : Job Unit := Job.invokeAloud (.ofCommandLine "cargo clean")

def lint : Job Unit := do
  Job.invoke (.ofCommandLine "cargo clippy --workspace --exclude xtask --all-targets")
  Job.invoke (.ofCommandLine "cargo clippy --package xtask")

end Tasks
end BootSequence
