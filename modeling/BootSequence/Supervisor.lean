import BootSequence.Config
import BootSequence.Mount.Point
import BootSequence.Script

/-!
A boot: make the proc directory, mount what the table lists, run the stages one after another, and
at last wait for the orphans if that is asked for. Whatever fails is logged, and the next step
follows.
-/

namespace BootSequence

/-- Those that act for a boot: one launches, one mounts, one waits. -/
structure System (σ : Type) where
  launcher : Launcher σ
  mounter : Mounter σ
  reaper : Reaper σ

inductive StageOutcome where
  | script (report : Script.Report)
  | scriptFailed
  | service (outcome : LineOutcome)
  deriving DecidableEq, Repr

/-- The record of a boot; `none` where a step of the mount phase failed. -/
structure BootSummary where
  procDir : Option Mount.DirStatus
  mounted : Option Nat
  stages : List StageOutcome
  reaped : Nat
  deriving DecidableEq, Repr

namespace Supervisor

variable {σ : Type}

def interpreter (s : System σ) (config : Config) : Interpreter σ :=
  ⟨config.searchDir, config.maxArgs, s.launcher⟩

def prepareProcDir (config : Config) : Action σ (Option Mount.DirStatus) := do
  match ← Mount.ensureDir config.procDir with
  | .ok status => return some status
  | .error fault =>
    Action.log .error s!"mkdir {config.procDir.display} failed: {fault.report}"
    return none

def mountTable (s : System σ) (config : Config) : Action σ (Option Nat) := do
  match ← Mount.mountAll s.mounter config.fstab with
  | .ok mounted =>
    Action.log .info s!"mounted {mounted} file system(s) from {config.fstab.display}"
    return some mounted
  | .error e =>
    Action.log .error e.message
    return none

def runStage (i : Interpreter σ) : Stage → Action σ StageOutcome
  | .script path => do
    match ← i.runFile path with
    | .ok report => return .script report
    | .error e =>
      Action.log .error e.message
      return .scriptFailed
  | .service invocation => return .service (← i.execute invocation)

def runStages (i : Interpreter σ) : List Stage → Action σ (List StageOutcome)
  | [] => return []
  | stage :: rest => do
    Action.log .info s!"starting {stage.display}"
    let outcome ← runStage i stage
    return outcome :: (← runStages i rest)

def run (s : System σ) (config : Config) : Action σ BootSummary := do
  let procDir ← prepareProcDir config
  let mounted ← mountTable s config
  Action.log .info "mount phase done"
  let stages ← runStages (interpreter s config) config.stages
  let reaped ← if config.reap then Action.reap s.reaper else pure 0
  Action.log .info "init sequence finished"
  return ⟨procDir, mounted, stages, reaped⟩

end Supervisor
end BootSequence
