import BootSequence.Proofs.Script.Execution
import BootSequence.Proofs.Steps
import BootSequence.Rehearsal
import Mathlib

/-!
The order of a boot. Its trace is that of its steps one behind the other, each begun in the world
that the one before has left, with a record here and there; no step is left out or put off because
another has failed (`run_inOrder`).
-/

namespace BootSequence
namespace Supervisor

variable {σ : Type}

/-! ## One stage -/

section Stage

variable (i : Interpreter σ) (log : Option LogFile)

/-- The world in which a stage begins: the record of its start may be in a file. -/
def begun (stage : Stage) (w : World σ) : World σ :=
  (Action.log .info s!"starting {stage.display}" log w).world

/-- What a stage comes to by itself. -/
def outcomeOf (stage : Stage) (w : World σ) : StageOutcome :=
  match stage with
  | .script path =>
    match (i.runFile path log w).value with
    | .ok report => .script report
    | .error _ => .scriptFailed
  | .service invocation => .service (i.execute invocation log w).value

/-- The trace of the script or the service, and what is told of a script that fails. -/
def traceOf (told : Script.Error → Trace) (stage : Stage) (w : World σ) : Trace :=
  match stage with
  | .script path =>
    (i.runFile path log w).trace ++
      match (i.runFile path log w).value with
      | .ok _ => []
      | .error e => told e
  | .service invocation => (i.execute invocation log w).trace

/-- The world that a stage leaves. -/
def worldOf (stage : Stage) (w : World σ) : World σ :=
  match stage with
  | .script path =>
    match (i.runFile path log w).value with
    | .ok _ => (i.runFile path log w).world
    | .error e => (Action.log .error e.message log (i.runFile path log w).world).world
  | .service invocation => (i.execute invocation log w).world

/-- One record tells of a script that fails. -/
def scriptFailure (e : Script.Error) : Trace := [.log .error e.message]

/-- Without a log file no record leaves a mark. -/
theorem begun_none (stage : Stage) (w : World σ) : begun none stage w = w := rfl

theorem runStage_apply (stage : Stage) (w : World σ) :
    runStage i stage log w =
      ⟨outcomeOf i log stage w, traceOf i log scriptFailure stage w, worldOf i log stage w⟩ := by
  cases stage with
  | service invocation =>
    simp only [runStage, Action.bind_apply, Action.pure_apply, List.append_nil]
    rfl
  | script path =>
    cases h : (i.runFile path log w).value with
    | ok report =>
      simp only [runStage, Action.bind_apply, h, Action.pure_apply, outcomeOf, traceOf, worldOf]
    | error e =>
      simp only [runStage, Action.bind_apply, h, Action.pure_apply, Action.log_apply, outcomeOf,
        traceOf, worldOf, scriptFailure, List.append_nil]

/-- The world before each stage, and at last the one behind them all. -/
def worlds (stages : List Stage) (w : World σ) : List (World σ) :=
  stages.scanl (fun w stage => worldOf i log stage (begun log stage w)) w

/-- The trace of stages, each behind the record of its start. -/
def stagesTrace (told : Script.Error → Trace) (stages : List Stage) (w : World σ) : Trace :=
  (List.zipWith
    (fun stage w => .log .info s!"starting {stage.display}" ::
      traceOf i log told stage (begun log stage w))
    stages (worlds i log stages w)).flatten

def outcomes (stages : List Stage) (w : World σ) : List StageOutcome :=
  List.zipWith (fun stage w => outcomeOf i log stage (begun log stage w)) stages
    (worlds i log stages w)

/-- The world behind the last stage. -/
def worldBehind (stages : List Stage) (w : World σ) : World σ :=
  stages.foldl (fun w stage => worldOf i log stage (begun log stage w)) w

theorem length_outcomes (stages : List Stage) (w : World σ) :
    (outcomes i log stages w).length = stages.length := by
  rw [outcomes, List.length_zipWith, worlds, List.length_scanl]
  omega

theorem runStages_apply (stages : List Stage) (w : World σ) :
    runStages i stages log w =
      ⟨outcomes i log stages w, stagesTrace i log scriptFailure stages w,
        worldBehind i log stages w⟩ := by
  induction stages generalizing w with
  | nil => rfl
  | cons stage stages ih =>
    simp only [runStages, Action.bind_apply, Action.log_apply, runStage_apply, ih,
      Action.pure_apply, List.append_nil]
    simp only [outcomes, stagesTrace, worlds, worldBehind, List.scanl_cons, List.zipWith_cons_cons,
      List.flatten_cons, List.foldl_cons]
    rfl

end Stage

/-! ## The mount phase -/

section MountPhase

variable (mounter : Mounter σ) (config : Config) (log : Option LogFile) (w : World σ)

def procDirFailure (fault : Fault) : String :=
  s!"mkdir {config.procDir.display} failed: {fault.report}"

/-- The asking for the proc directory, and what is told of it if it fails. -/
def procDirTrace : Trace :=
  (Mount.ensureDir config.procDir log w).trace ++
    match (Mount.ensureDir config.procDir log w).value with
    | .ok _ => []
    | .error fault => [.log .error (procDirFailure config fault)]

/-- The world in which the mounts of the table begin. -/
def procDirWorld : World σ :=
  let left := (Mount.ensureDir config.procDir log w).world
  match (Mount.ensureDir config.procDir log w).value with
  | .ok _ => left
  | .error fault => (Action.log .error (procDirFailure config fault) log left).world

theorem prepareProcDir_apply :
    prepareProcDir config log w =
      ⟨(Mount.ensureDir config.procDir log w).value.toOption, procDirTrace config log w,
        procDirWorld config log w⟩ := by
  cases h : (Mount.ensureDir config.procDir log w).value with
  | ok status =>
    simp only [prepareProcDir, Action.bind_apply, h, Action.pure_apply, procDirTrace, procDirWorld,
      Except.toOption]
  | error fault =>
    simp only [prepareProcDir, Action.bind_apply, h, Action.pure_apply, procDirTrace, procDirWorld,
      Except.toOption, Action.log_apply, List.append_nil]
    rfl

/-- The one record of the table as a whole. -/
def tableRecord : Except Mount.Error Nat → Event
  | .ok mounted => .log .info s!"mounted {mounted} file system(s) from {config.fstab.display}"
  | .error e => .log .error e.message

def tableTrace : Trace :=
  (Mount.mountAll mounter config.fstab log w).trace ++
    [tableRecord config (Mount.mountAll mounter config.fstab log w).value]

def tableWorld : World σ :=
  let left := (Mount.mountAll mounter config.fstab log w).world
  match (Mount.mountAll mounter config.fstab log w).value with
  | .ok mounted =>
    (Action.log .info s!"mounted {mounted} file system(s) from {config.fstab.display}" log
      left).world
  | .error e => (Action.log .error e.message log left).world

theorem mountTable_apply (s : System σ) :
    mountTable s config log w =
      ⟨(Mount.mountAll s.mounter config.fstab log w).value.toOption,
        tableTrace s.mounter config log w, tableWorld s.mounter config log w⟩ := by
  cases h : (Mount.mountAll s.mounter config.fstab log w).value with
  | ok mounted =>
    simp only [mountTable, Action.bind_apply, h, Action.pure_apply, Action.log_apply, tableTrace,
      tableWorld, tableRecord, Except.toOption, List.append_nil]
  | error e =>
    simp only [mountTable, Action.bind_apply, h, Action.pure_apply, Action.log_apply, tableTrace,
      tableWorld, tableRecord, Except.toOption, List.append_nil]

theorem procDirWorld_none :
    procDirWorld config none w = (Mount.ensureDir config.procDir none w).world := by
  unfold procDirWorld
  split <;> rfl

theorem tableWorld_none :
    tableWorld mounter config none w = (Mount.mountAll mounter config.fstab none w).world := by
  unfold tableWorld
  split <;> rfl

/-- The proc directory and then the table, whatever became of the directory. -/
def mountPhase : Trace :=
  procDirTrace config log w ++ tableTrace mounter config log (procDirWorld config log w)

/-- The world in which the first stage begins. -/
def mountedWorld : World σ :=
  (Action.log .info "mount phase done" log
    (tableWorld mounter config log (procDirWorld config log w))).world

theorem mountedWorld_none :
    mountedWorld mounter config none w =
      (Mount.mountAll mounter config.fstab none
        (Mount.ensureDir config.procDir none w).world).world := by
  rw [← procDirWorld_none, ← tableWorld_none]
  rfl

theorem calls_mountPhase : (mountPhase mounter config log w).calls = [] := by
  have hmake : ∀ path, Action.Obeys (σ := σ) log (fun _ t _ => t.calls = [])
      (Mount.ensureDir path) :=
    fun path => Mount.obeys_ensureDir (Action.law_calls log) (fun _ => rfl) fun _ _ _ => rfl
  have hproc : (Mount.ensureDir config.procDir log w).trace.calls = [] := hmake config.procDir w
  have htable : ∀ w : World σ, (Mount.mountAll mounter config.fstab log w).trace.calls = [] :=
    Mount.obeys_mountAll (Action.law_calls log)
      (fun entry => Mount.obeys_mountEntry (Action.law_calls log) (hmake entry.target) fun _ => rfl)
      config.fstab
  rw [mountPhase, procDirTrace, tableTrace, Trace.calls_append, Trace.calls_append,
    Trace.calls_append, hproc, htable]
  cases (Mount.ensureDir config.procDir log w).value <;>
    cases (Mount.mountAll mounter config.fstab log (procDirWorld config log w)).value <;> rfl

end MountPhase

/-! ## The stage phase -/

section StagePhase

variable (i : Interpreter σ) (reaper : Reaper σ) (config : Config) (log : Option LogFile)

def reaping : Action σ Nat := if config.reap then Action.reap reaper else pure 0

/-- All stages, then the orphans if they are waited for, and the last record. Nothing of the mount
phase is in it but the world that it leaves. -/
def stagePhase (told : Script.Error → Trace) (w : World σ) : Trace :=
  stagesTrace i log told config.stages w ++
    (reaping reaper config log (worldBehind i log config.stages w)).trace ++
    [.log .info "init sequence finished"]

theorem obeys_reaping {R : World σ → Trace → World σ → Prop} (law : Action.Law log R)
    (hcollect : Action.Obeys log R (Action.collect reaper)) :
    Action.Obeys log R (reaping reaper config) := by
  unfold reaping
  split
  · exact obeys_reap law hcollect
  · exact law.pure _

theorem effects_stagesTrace (stages : List Stage) (w : World σ) :
    (stagesTrace i log scriptFailure stages w).effects = [] := by
  have hlaunch : ∀ call, Action.Obeys log (fun _ t _ => t.effects = [])
      (Action.launch i.launcher call) := fun call w => Trace.effects_children _
  have hrun := obeys_runStages (Action.law_effects log) (fun call _ => hlaunch call) stages w
  rwa [runStages_apply] at hrun

theorem effects_stagePhase (w : World σ) :
    (stagePhase i reaper config log scriptFailure w).effects = [] := by
  have hreap := obeys_reaping reaper config log (Action.law_effects log)
    (fun w => Trace.effects_children _) (worldBehind i log config.stages w)
  rw [stagePhase, Trace.effects_append, Trace.effects_append, effects_stagesTrace, hreap]
  rfl

end StagePhase

/-! ## The whole boot -/

section Boot

variable (s : System σ) (config : Config) (log : Option LogFile) (w : World σ)

/-- The trace of a boot, if that is what is told of a script that fails. -/
def bootTrace (told : Script.Error → Trace) : Trace :=
  mountPhase s.mounter config log w ++ .log .info "mount phase done" ::
    stagePhase (interpreter s config) s.reaper config log told (mountedWorld s.mounter config log w)

/-- What a boot is. -/
structure InOrder (ran : Ran σ BootSummary) : Prop where
  /-- Every step has its place, and the failure of a script is told in one record behind it. -/
  trace_eq : ran.trace = bootTrace s config log w scriptFailure
  /-- Nothing is launched in the mount phase. -/
  no_launch : (mountPhase s.mounter config log w).calls = []
  /-- No directory and no mount is asked for behind it. -/
  no_effect : (stagePhase (interpreter s config) s.reaper config log scriptFailure
    (mountedWorld s.mounter config log w)).effects = []
  /-- Each stage comes to what it comes to by itself in the world left to it. -/
  stages_eq : ran.value.stages =
    outcomes (interpreter s config) log config.stages (mountedWorld s.mounter config log w)
  length_stages : ran.value.stages.length = config.stages.length
  procDir_none : ran.value.procDir = none ↔
    ∃ fault, (Mount.ensureDir config.procDir log w).value = .error fault
  procDir_some : ∀ status, ran.value.procDir = some status ↔
    (Mount.ensureDir config.procDir log w).value = .ok status
  mounted_some : ∀ n, ran.value.mounted = some n ↔
    (Mount.mountAll s.mounter config.fstab log (procDirWorld config log w)).value = .ok n
  reaped_eq : ran.value.reaped =
    (reaping s.reaper config log (worldBehind (interpreter s config) log config.stages
      (mountedWorld s.mounter config log w))).value

theorem toOption_eq_none_iff {ε α : Type} {x : Except ε α} :
    x.toOption = none ↔ ∃ e, x = .error e := by
  cases x <;> simp [Except.toOption]

theorem toOption_eq_some_iff {ε α : Type} {x : Except ε α} {a : α} :
    x.toOption = some a ↔ x = .ok a := by
  cases x <;> simp [Except.toOption]

theorem run_eq_bind : run s config = (do
    let procDir ← prepareProcDir config
    let mounted ← mountTable s config
    Action.log .info "mount phase done"
    let stages ← runStages (interpreter s config) config.stages
    let reaped ← reaping s.reaper config
    Action.log .info "init sequence finished"
    return ⟨procDir, mounted, stages, reaped⟩) := by
  unfold run reaping
  cases config.reap <;> rfl

theorem run_apply :
    let behindStages := worldBehind (interpreter s config) log config.stages
      (mountedWorld s.mounter config log w)
    run s config log w =
      ⟨⟨(Mount.ensureDir config.procDir log w).value.toOption,
          (Mount.mountAll s.mounter config.fstab log (procDirWorld config log w)).value.toOption,
          outcomes (interpreter s config) log config.stages (mountedWorld s.mounter config log w),
          (reaping s.reaper config log behindStages).value⟩,
        bootTrace s config log w scriptFailure,
        (Action.log .info "init sequence finished" log
          (reaping s.reaper config log behindStages).world).world⟩ := by
  simp only [run_eq_bind, Action.bind_apply, prepareProcDir_apply, mountTable_apply,
    runStages_apply, Action.log_apply, Action.pure_apply]
  simp only [bootTrace, mountPhase, stagePhase, mountedWorld, Action.log_apply, List.append_assoc,
    List.cons_append, List.nil_append, List.append_nil]

/-- A boot goes through all its steps in order, whichever of them fail. -/
theorem run_inOrder : InOrder s config log w (run s config log w) := by
  rw [run_apply]
  exact
    { trace_eq := rfl
      no_launch := calls_mountPhase s.mounter config log w
      no_effect := effects_stagePhase (interpreter s config) s.reaper config log
        (mountedWorld s.mounter config log w)
      stages_eq := rfl
      length_stages := length_outcomes _ log config.stages _
      procDir_none := toOption_eq_none_iff
      procDir_some := fun _ => toOption_eq_some_iff
      mounted_some := fun _ => toOption_eq_some_iff
      reaped_eq := rfl }

end Boot

/-- A boot of a single script, which is not there. -/
def sampleConfig : Config where
  searchDir := .ofString "sbin"
  fstab := .ofString "fstab"
  procDir := .ofString "proc"
  maxArgs := 10
  stages := [.script (.ofString "rcS")]
  reap := false

def sampleSystem : System Unit where
  launcher := Rehearsal.launcher []
  mounter := Rehearsal.mounter []
  reaper := Rehearsal.reaper

/-- Some directory, and nothing in it. -/
def sampleWorld : World Unit :=
  ⟨⟨⟨[([.ofString "w"], .directory 0o777)]⟩, [.ofString "w"], 0o022⟩, ()⟩

theorem runFile_sample :
    ((interpreter sampleSystem sampleConfig).runFile (.ofString "rcS") none
      (begun none (.script (.ofString "rcS"))
        (mountedWorld sampleSystem.mounter sampleConfig none sampleWorld))).value =
      .error (.cannotOpen (.ofString "rcS") (.numbered .noEntry)) := by
  rw [begun_none, mountedWorld_none]
  cbv

/-- The trace of such a script does not tell that it failed; the boot itself does. -/
theorem bootTrace_without_scriptFailure :
    ¬ ∀ (s : System Unit) (config : Config) (log : Option LogFile) (w : World Unit),
      (run s config log w).trace = bootTrace s config log w fun _ => [] := by
  intro h
  have hsame : bootTrace sampleSystem sampleConfig none sampleWorld scriptFailure =
      bootTrace sampleSystem sampleConfig none sampleWorld fun _ => [] := by
    rw [← h sampleSystem sampleConfig none sampleWorld, run_apply]
  have hlength := congrArg List.length hsame
  have hstages : sampleConfig.stages = [.script (.ofString "rcS")] := rfl
  simp only [bootTrace, stagePhase, hstages, stagesTrace, worlds, List.scanl_cons, List.scanl_nil,
    List.zipWith_cons_cons, List.zipWith_nil_left, List.flatten_cons, List.flatten_nil, traceOf,
    runFile_sample, scriptFailure, List.length_append, List.length_cons, List.length_nil] at hlength
  omega

end Supervisor
end BootSequence
