import BootSequence.Program.Init
import BootSequence.Proofs.Script.Service
import BootSequence.Proofs.Supervisor.Order

/-!
The bound on arguments. It is kept in two places, for services when the boot is configured and for
the lines of a script when they have been read. So no launch of a boot has more arguments than are
allowed, and words past the bound change neither what is launched nor what becomes of it, but for
their own count (`boot_bounded`).
-/

namespace BootSequence

open Script

/-! ## Command lines of services -/

namespace Program.Init.Options

/-- The command lines of the services. If there is none, it is the default one. -/
def commandLines (o : Options) : List String :=
  if o.noService then [] else if o.services = [] then [Defaults.service] else o.services

def scriptPath (o : Options) : Path := o.script.getD Defaults.script

def scriptStages (o : Options) : List Stage :=
  if o.noScript then [] else [.script o.scriptPath]

/-- What is kept of command lines that are not blank. -/
def invocations (maxArgs : Nat) (cs : List String) : List Invocation :=
  (cs.filter fun c => !(Invocation.tokens c).isEmpty).map fun c => .ofLine c maxArgs

def serviceStages (o : Options) : List Stage :=
  (invocations o.config.maxArgs o.commandLines).map .service

theorem stages_config (o : Options) :
    o.config.stages = o.scriptStages ++ o.serviceStages := by
  have hlines : o.commandLines =
      if o.noService then []
      else if o.services.isEmpty then [Defaults.service] else o.services := by
    simp only [commandLines, List.isEmpty_iff]
  have hservices : o.serviceStages =
      o.commandLines.filterMap fun c => Stage.service? c o.config.maxArgs := by
    rw [Stage.filterMap_service?, serviceStages, invocations, List.map_map]
    rfl
  rw [hservices, hlines]
  rfl

end Program.Init.Options

/-- What becomes of a stage, but for the count of dropped words. -/
def StageOutcome.undropped : StageOutcome → StageOutcome
  | .script report => .script report.undropped
  | .scriptFailed => .scriptFailed
  | .service outcome => .service outcome

theorem StageOutcome.undropped_elim {report report' : Report}
    {failure failure' : Option Script.Error}
    (h : report.SameButDropped report') (hfailure : failure.isSome = failure'.isSome) :
    (failure.elim (script report) fun _ => scriptFailed).undropped =
      (failure'.elim (script report') fun _ => scriptFailed).undropped := by
  cases failure with
  | none =>
    obtain rfl := Option.isNone_iff_eq_none.1 (Option.isSome_eq_false_iff.1 hfailure.symm)
    exact congrArg script h
  | some e =>
    obtain ⟨e', rfl⟩ := Option.isSome_iff_exists.1 hfailure.symm
    rfl

/-! ## Lines that are read -/

/-- A trace with no launch in front of it or behind it. -/
def Trace.Around (inner outer : Trace) : Prop :=
  ∃ before behind, outer = before ++ inner ++ behind ∧ calls before = [] ∧ calls behind = []

theorem Trace.Around.calls_eq {inner outer : Trace} (h : inner.Around outer) :
    calls outer = calls inner := by
  obtain ⟨before, behind, rfl, hbefore, hbehind⟩ := h
  rw [calls_append, calls_append, hbefore, hbehind, List.nil_append, List.append_nil]

namespace Interpreter

variable {σ : Type} (i : Interpreter σ) (path : Path) (log : Option LogFile)

/-- The stage of a script is the run of the lines that are read of it. -/
theorem runStage_script {τ : Type} {view : World σ → τ} (hlog : Unseen view log) {w : World σ}
    {lines : List Octets} {failure : Option Script.Error}
    (h : i.ReadsScript path log w lines failure) :
    ∃ begun, view begun = view w ∧
      let each := i.runEach path 0 lines log begun
      let ran := Supervisor.runStage i (.script path) log w
      ran.value = failure.elim (.script each.value) (fun _ => .scriptFailed) ∧
        each.trace.Around ran.trace ∧ view ran.world = view each.world := by
  cases h with
  | @unopened fault opens =>
    refine ⟨w, rfl, ?_⟩
    simp only [Supervisor.runStage, Action.bind_apply, i.runFile_of_unopened path log opens,
      Action.pure_apply]
    exact ⟨rfl, ⟨[], _, rfl, rfl, rfl⟩, hlog _ _ w⟩
  | @opened file left lines failure opens reads =>
    refine ⟨opened path log w, hlog _ _ w, ?_⟩
    have hran := i.runFile_of_reads path log opens reads
    cases failure with
    | none =>
      dsimp only [Option.elim_none] at hran
      simp only [Supervisor.runStage, Action.bind_apply, hran, Action.pure_apply, List.append_nil]
      exact ⟨rfl, ⟨[_], [_], rfl, rfl, rfl⟩, hlog _ _ _⟩
    | some e =>
      dsimp only [Option.elim_some] at hran
      simp only [Supervisor.runStage, Action.bind_apply, hran, Action.pure_apply, List.append_nil]
      exact ⟨rfl, ⟨[_], [_], rfl, rfl, rfl⟩, hlog _ _ _⟩

theorem args_of_call? {invocation : Invocation} {searchDir : Path} {call : Call}
    (h : invocation.call? searchDir = some call) : call.args = invocation.args := by
  unfold Invocation.call? at h
  split at h
  · cases h
  · split at h
    · cases h
    · cases h
      rfl

end Interpreter

/-! ## Stages -/

namespace Supervisor

variable {σ τ : Type}

section Stages

variable (i : Interpreter σ) (log : Option LogFile)

theorem runStages_append (stages rest : List Stage) :
    runStages i (stages ++ rest) = (do
      let outcomes ← runStages i stages
      let more ← runStages i rest
      return outcomes ++ more) := by
  induction stages with
  | nil =>
    simp only [runStages, List.nil_append, pure_bind, bind_pure]
  | cons stage stages ih =>
    simp only [runStages, List.cons_append, ih, bind_assoc, pure_bind]

theorem calls_runStages_services (invocations : List Invocation) (w : World σ) :
    (runStages i (invocations.map .service) log w).trace.calls =
      invocations.filterMap (·.call? i.searchDir) := by
  induction invocations generalizing w with
  | nil => rfl
  | cons invocation invocations ih =>
    simp only [List.map_cons, runStages, Action.bind_apply, i.runStage_service, Action.pure_apply,
      Action.log_apply, Trace.calls_append, Interpreter.calls_execute, ih, List.filterMap_cons]
    cases invocation.call? i.searchDir <;> simp

variable {i} {view : World σ → τ} {log log' : Option LogFile} (hlog : Unseen view log)
  (hlog' : Unseen view log') (hlaunch : SeesOnly view i.launcher)
include hlog hlog' hlaunch

theorem alike_runStages_services {invocations invocations' : List Invocation}
    (h : List.Forall₂ (fun a b => a.argv = b.argv) invocations invocations') :
    Action.Alike view log log' (· = ·) (runStages i (invocations.map .service))
      (runStages i (invocations'.map .service)) := by
  induction h with
  | nil => exact Action.alike_pure rfl
  | @cons a b rest rest' hargv hrest ih =>
    have hexecute : Action.Alike view log log' (· = ·) (runStage i (.service a))
        (runStage i (.service b)) := by
      simp only [runStage, i.execute_congr hargv]
      exact Action.alike_map (Interpreter.alike_execute hlog hlog' hlaunch b) fun _ _ => congrArg _
    refine Action.alike_log_left hlog _ _ (Action.alike_log_right hlog' _ _ ?_)
    exact Action.alike_bind hexecute fun outcome outcome' ho => Action.alike_map ih
      fun more more' hmore => congrArg₂ _ ho hmore

end Stages

/-! ## Boots -/

section Boots

variable (s : System σ)

/-- Nothing is launched but by the stages. -/
theorem around_run (config : Config) (log : Option LogFile) (w : World σ) :
    (runStages (interpreter s config) config.stages log
      (mountedWorld s.mounter config log w)).trace.Around (run s config log w).trace := by
  let i := interpreter s config
  let start := mountedWorld s.mounter config log w
  let collecting := (reaping s.reaper config log (worldBehind i log config.stages start)).trace
  have hcollecting : collecting.calls = [] :=
    obeys_reaping s.reaper config log (Action.law_calls log) (fun w => Trace.calls_children _) _
  rw [run_apply, runStages_apply]
  refine ⟨mountPhase s.mounter config log w ++ [.log .info "mount phase done"],
    collecting ++ [.log .info "init sequence finished"], ?_, ?_, ?_⟩
  · simp only [bootTrace, stagePhase, List.append_assoc, List.cons_append, List.nil_append]
    rfl
  · rw [Trace.calls_append, calls_mountPhase]
    rfl
  · rw [Trace.calls_append, hcollecting]
    rfl

theorem stages_run (config : Config) (log : Option LogFile) (w : World σ) :
    (run s config log w).value.stages =
      (runStages (interpreter s config) config.stages log
        (mountedWorld s.mounter config log w)).value := by
  rw [run_apply, runStages_apply]

/-- What mounts leave alone is as before when the stages begin. -/
theorem state_mountedWorld {view : σ → τ}
    (hmount : ∀ entry w, view (s.mounter entry w).2.state = view w.state) (config : Config)
    (log : Option LogFile) (w : World σ) :
    view (mountedWorld s.mounter config log w).state = view w.state := by
  let R : World σ → Trace → World σ → Prop := fun w _ w' => view w'.state = view w.state
  have law : Action.Law log R :=
    { nothing := fun _ => rfl
      followed := fun hfirst hnext => hnext.trans hfirst
      record := fun _ _ _ => rfl }
  have hmake : ∀ path, Action.Obeys log R (Mount.ensureDir path) := fun path =>
    Mount.obeys_ensureDir law (fun _ => rfl) fun _ _ _ => rfl
  have hentry : ∀ entry, Action.Obeys log R (Mount.mountEntry s.mounter entry) := fun entry =>
    Mount.obeys_mountEntry law (hmake _) fun w => hmount entry w
  have hproc := obeys_prepareProcDir law (hmake config.procDir) w
  have htable := obeys_mountTable law hentry config (procDirWorld config log w)
  rw [prepareProcDir_apply] at hproc
  rw [mountTable_apply] at htable
  exact Eq.trans htable hproc

open Program.Init (Options)

/-- The lines that are read of a boot's script, and why this is not run to its end, if it is not. No
line is read if there is no script. -/
def ReadsLines (o : Options) (log : Option LogFile) (w : World σ) (lines : List Octets)
    (failure : Option Script.Error) : Prop :=
  if o.noScript then lines = [] ∧ failure = none
  else
    (interpreter s o.config).ReadsScript o.scriptPath log
      (begun log (.script o.scriptPath) (mountedWorld s.mounter o.config log w)) lines failure

theorem exists_readsLines (o : Options) (log : Option LogFile) (w : World σ) :
    ∃ lines failure, ReadsLines s o log w lines failure := by
  unfold ReadsLines
  cases o.noScript with
  | true => exact ⟨[], none, rfl, rfl⟩
  | false => exact (interpreter s o.config).exists_readsScript o.scriptPath log _

theorem runStages_scriptStages {view : World σ → τ} {o : Options} {log : Option LogFile}
    (hlog : Unseen view log) {w : World σ} {lines : List Octets} {failure : Option Script.Error}
    (h : ReadsLines s o log w lines failure) :
    let i := interpreter s o.config
    let start := mountedWorld s.mounter o.config log w
    ∃ opened, view opened = view start ∧
      let each := i.runEach o.scriptPath 0 lines log opened
      let ran := runStages i o.scriptStages log start
      let outcome := failure.elim (StageOutcome.script each.value) fun _ => .scriptFailed
      ran.value = (if o.noScript then [] else [outcome]) ∧
        each.trace.Around ran.trace ∧ view ran.world = view each.world := by
  intro i start
  unfold ReadsLines at h
  unfold Options.scriptStages
  cases hno : o.noScript with
  | true =>
    rw [hno, if_pos rfl] at h
    obtain ⟨rfl, rfl⟩ := h
    exact ⟨start, rfl, rfl, ⟨[], [], rfl, rfl, rfl⟩, rfl⟩
  | false =>
    rw [hno, if_neg (by decide)] at h
    obtain ⟨opened, hopened, hvalue, ⟨before, behind, htrace, hbefore, hbehind⟩, hseen⟩ :=
      i.runStage_script o.scriptPath log hlog h
    have hbegun : Action.log .info s!"starting {(Stage.script o.scriptPath).display}" log start =
        ⟨(), [.log .info s!"starting {(Stage.script o.scriptPath).display}"],
          begun log (.script o.scriptPath) start⟩ := rfl
    refine ⟨opened, hopened.trans (hlog _ _ start), ?_⟩
    have hran : runStages i [.script o.scriptPath] log start =
        let ran := runStage i (.script o.scriptPath) log (begun log (.script o.scriptPath) start)
        ⟨[ran.value], .log .info s!"starting {(Stage.script o.scriptPath).display}" :: ran.trace,
          ran.world⟩ := by
      simp only [runStages, Action.bind_apply, hbegun, Action.pure_apply, List.append_nil]
      rfl
    dsimp only
    rw [if_neg (by decide), if_neg (by decide), hran]
    exact ⟨congrArg (fun outcome => [outcome]) hvalue,
      ⟨_ :: before, behind, congrArg (_ :: ·) htrace, hbefore, hbehind⟩, hseen⟩

/-- Every launch of a boot is that of a line of its script or of a service, in this order. -/
theorem calls_boot {o : Options} {log : Option LogFile} {w : World σ} {lines : List Octets}
    {failure : Option Script.Error} (h : ReadsLines s o log w lines failure) :
    (run s o.config log w).trace.calls =
      (lines.map Octets.lossy ++ o.commandLines).filterMap fun c =>
        (Invocation.ofLine c o.config.maxArgs).call? o.config.searchDir := by
  have hlog : Unseen (fun _ : World σ => ()) log := fun _ _ _ => rfl
  obtain ⟨opened, -, -, haround, -⟩ := runStages_scriptStages s hlog h
  have hblank : ∀ c, (Invocation.tokens c).isEmpty →
      (Invocation.ofLine c o.config.maxArgs).call? o.config.searchDir = none := by
    intro c hc
    have htokens := List.isEmpty_iff.1 hc
    simp [Invocation.call?, Invocation.command?, Invocation.ofLine, htokens]
  rw [(around_run s _ log w).calls_eq, Options.stages_config, runStages_append]
  simp only [Action.bind_apply, Action.pure_apply, List.append_nil, Trace.calls_append,
    haround.calls_eq, Interpreter.calls_runEach, Options.serviceStages, calls_runStages_services,
    List.filterMap_append, List.filterMap_map]
  refine congrArg₂ _ rfl ?_
  rw [Options.invocations, List.filterMap_map, List.filterMap_filter]
  refine List.filterMap_congr fun c _ => ?_
  cases hc : (Invocation.tokens c).isEmpty with
  | true => simpa using (hblank c hc).symm
  | false => simp; rfl

theorem readsLines_of_steady {o : Options} {log : Option LogFile} {w : World σ} {file : OpenFile}
    {content : Octets} (hno : o.noScript = false) :
    let start := begun log (.script o.scriptPath) (mountedWorld s.mounter o.config log w)
    OpenFile.ofPath start.files o.scriptPath = .ok file →
      start.files.contentAt file.loc = .ok content → Steady s.launcher log file.loc content →
      ReadsLines s o log w (Feed.linesRead content) none := by
  intro start hopens hcontent hsteady
  obtain ⟨lines, failure, hreads⟩ :=
    (interpreter s o.config).exists_readsScript o.scriptPath log start
  obtain ⟨rfl, rfl⟩ :=
    Interpreter.readsScript_of_steady o.scriptPath hopens hcontent hsteady hreads
  rw [ReadsLines, hno, if_neg (by decide)]
  exact hreads

/-- Command lines that agree in their first words, as many of these as are kept. -/
def SameLine (maxArgs : Nat) (c c' : String) : Prop :=
  SameStart maxArgs (Invocation.tokens c) (Invocation.tokens c')

/-- Two boots that agree in what is kept of their command lines, services and lines that are read of
scripts alike. They need not agree in anything else but the memory of the launcher. -/
structure SameKept (view : σ → τ) (o o' : Options) (log log' : Option LogFile)
    (w w' : World σ) : Prop where
  maxArgs_eq : o.config.maxArgs = o'.config.maxArgs
  searchDir_eq : o.config.searchDir = o'.config.searchDir
  noScript_eq : o.noScript = o'.noScript
  services : List.Forall₂ (SameLine o.config.maxArgs) o.commandLines o'.commandLines
  script : ∃ lines lines' failure failure',
    ReadsLines s o log w lines failure ∧ ReadsLines s o' log' w' lines' failure' ∧
      List.Forall₂ (fun line line' => SameLine o.config.maxArgs line.lossy line'.lossy) lines
        lines' ∧
      failure.isSome = failure'.isSome
  state_eq : view w.state = view w'.state

theorem sameLine_invocations {maxArgs : Nat} {cs cs' : List String}
    (h : List.Forall₂ (SameLine maxArgs) cs cs') :
    List.Forall₂ (fun a b => a.argv = b.argv) (Options.invocations maxArgs cs)
      (Options.invocations maxArgs cs') := by
  induction h with
  | nil => exact .nil
  | @cons c c' cs cs' hline hlines ih =>
    rw [Options.invocations, Options.invocations, List.filter_cons, List.filter_cons,
      hline.isEmpty_eq]
    cases (Invocation.tokens c').isEmpty with
    | true => exact ih
    | false => exact .cons hline.argv_eq ih

theorem alike_boots {view : σ → τ} (hlaunch : SeesOnly (fun w => view w.state) s.launcher)
    (hmount : ∀ entry w, view (s.mounter entry w).2.state = view w.state) {o o' : Options}
    {log log' : Option LogFile} {w w' : World σ} (h : SameKept s view o o' log log' w w') :
    let boot := run s o.config log w
    let boot' := run s o'.config log' w'
    boot.trace.calls = boot'.trace.calls ∧
      boot.value.stages.map StageOutcome.undropped =
        boot'.value.stages.map StageOutcome.undropped := by
  obtain ⟨lines, lines', failure, failure', hreads, hreads', hlines, hfailure⟩ := h.script
  have hlog : ∀ log, Unseen (fun w : World σ => view w.state) log := unseen_state view
  have hi : interpreter s o.config = interpreter s o'.config := by
    rw [interpreter, interpreter, h.maxArgs_eq, h.searchDir_eq]
  obtain ⟨opened, hopened, hvalue, haround, hseen⟩ := runStages_scriptStages s (hlog log) hreads
  obtain ⟨opened', hopened', hvalue', haround', hseen'⟩ :=
    runStages_scriptStages s (hlog log') hreads'
  have hstart := (state_mountedWorld s hmount o.config log w).trans
    (h.state_eq.trans (state_mountedWorld s hmount o'.config log' w').symm)
  have hscripts := Interpreter.alike_runEach (i := interpreter s o.config) (hlog log) (hlog log')
    hlaunch hlines o.scriptPath o'.scriptPath 0 0
  obtain ⟨hreport, hcalls_each, hseen_each⟩ :=
    hscripts opened opened' (hopened.trans (hstart.trans hopened'.symm))
  rw [← hi] at hvalue' haround' hseen'
  have hservices := alike_runStages_services (i := interpreter s o.config) (hlog log) (hlog log')
    hlaunch (sameLine_invocations h.services)
  obtain ⟨houtcomes, hcalls_services, -⟩ :=
    hservices _ _ (hseen.trans (hseen_each.trans hseen'.symm))
  have hstages : o'.serviceStages =
      (Options.invocations o.config.maxArgs o'.commandLines).map .service := by
    rw [Options.serviceStages, h.maxArgs_eq]
  -- Both boots are now a script and services behind it, and each part is alike.
  constructor
  · rw [(around_run s _ log w).calls_eq, (around_run s _ log' w').calls_eq, Options.stages_config,
      Options.stages_config, runStages_append, runStages_append, ← hi, hstages]
    simp only [Action.bind_apply, Action.pure_apply, List.append_nil, Trace.calls_append]
    exact congrArg₂ _ (haround.calls_eq.trans (hcalls_each.trans haround'.calls_eq.symm))
      hcalls_services
  · rw [stages_run, stages_run, Options.stages_config, Options.stages_config, runStages_append,
      runStages_append, ← hi, hstages]
    simp only [Action.bind_apply, Action.pure_apply, List.map_append, hvalue, hvalue',
      h.noScript_eq]
    refine congrArg₂ _ ?_ (congrArg _ houtcomes)
    split
    · rfl
    · exact congrArg (fun outcome => [outcome]) (StageOutcome.undropped_elim hreport hfailure)

/-- A boot has the stages of its command line, gives no command more arguments than it allows, and
heeds no word of a command line beyond them. -/
theorem boot_bounded :
    (∀ o : Options, o.config.stages = o.scriptStages ++ o.serviceStages) ∧
    (∀ (o : Options) (log : Option LogFile) (w : World σ),
      let boot := run s o.config log w
      (∀ call ∈ boot.trace.calls, call.args.length ≤ o.config.maxArgs) ∧
      (∃ lines failure, ReadsLines s o log w lines failure) ∧
      ∀ lines failure, ReadsLines s o log w lines failure →
        let cs := lines.map Octets.lossy ++ o.commandLines
        (∀ c ∈ cs, (Invocation.tokens c).length < 2 ^ 64) →
          boot.trace.calls = cs.filterMap fun c =>
            requestOf? o.config.searchDir o.config.maxArgs (Invocation.tokens c)) ∧
    -- a script that nobody changes is read as it stands
    (∀ (o : Options) (log : Option LogFile) (w : World σ) (file : OpenFile) (content : Octets),
      o.noScript = false →
      let start := begun log (.script o.scriptPath) (mountedWorld s.mounter o.config log w)
      OpenFile.ofPath start.files o.scriptPath = .ok file →
        start.files.contentAt file.loc = .ok content → Steady s.launcher log file.loc content →
        ReadsLines s o log w (Feed.linesRead content) none) ∧
    ∀ (view : σ → τ) (o o' : Options) (log log' : Option LogFile) (w w' : World σ),
      SeesOnly (fun w => view w.state) s.launcher →
      (∀ entry w, view (s.mounter entry w).2.state = view w.state) →
      SameKept s view o o' log log' w w' →
      let boot := run s o.config log w
      let boot' := run s o'.config log' w'
      boot.trace.calls = boot'.trace.calls ∧
        boot.value.stages.map StageOutcome.undropped =
          boot'.value.stages.map StageOutcome.undropped := by
  refine ⟨Options.stages_config, ?_, fun o log w file content => readsLines_of_steady s, ?_⟩
  · intro o log w boot
    obtain ⟨lines, failure, hreads⟩ := exists_readsLines s o log w
    refine ⟨?_, ⟨lines, failure, hreads⟩, ?_⟩
    · intro call hcall
      rw [calls_boot s hreads] at hcall
      obtain ⟨c, -, hc⟩ := List.mem_filterMap.1 hcall
      rw [Interpreter.args_of_call? hc]
      exact length_tail_take_room_le (Invocation.tokens c) o.config.maxArgs
    · intro lines failure hreads cs hcountable
      rw [calls_boot s hreads]
      exact List.filterMap_congr fun c hc =>
        Invocation.call?_eq_requestOf? (Nat.le_of_lt_succ (hcountable c hc)) _ _
  · exact fun view o o' log log' w w' hlaunch hmount h => alike_boots s hlaunch hmount h

/-- A boot for a launcher that counts its calls, with a script and two services. -/
def sampleOptions (services : List String) : Options :=
  { script := some (.ofString "/rcS"), services := services, maxArgs := some 1 }

def countingSystem : System Nat where
  launcher := fun _ w => (.ok (.exited w.state), [], { w with state := w.state + 1 })
  mounter := Rehearsal.mounter []
  reaper := Rehearsal.reaper

def scriptWorld (script : Octets) : World Nat :=
  ⟨⟨⟨[([.ofString "rcS"], .file 0o644 script)]⟩, [], 0o022⟩, 0⟩

theorem mountedWorld_scriptWorld (services : List String) (script : Octets) :
    mountedWorld countingSystem.mounter (sampleOptions services).config none (scriptWorld script) =
      ⟨⟨⟨[([.ofString "proc"], .directory 0o755), ([.ofString "rcS"], .file 0o644 script)]⟩, [],
        0o022⟩, 0⟩ := by
  have hproc : (Mount.ensureDir (.ofString "/proc") none (scriptWorld script)).world =
      ⟨⟨⟨[([.ofString "proc"], .directory 0o755), ([.ofString "rcS"], .file 0o644 script)]⟩, [],
        0o022⟩, 0⟩ := by cbv
  rw [mountedWorld_none]
  show (Mount.mountAll _ (.ofString "/etc/fstab") none
    (Mount.ensureDir (.ofString "/proc") none (scriptWorld script)).world).world = _
  rw [hproc]
  cbv

theorem readsLines_scriptWorld (services : List String) (script : Octets) :
    ReadsLines countingSystem (sampleOptions services) none (scriptWorld script)
      (Feed.linesRead script) none := by
  have hsteady : Steady countingSystem.launcher none [.ofString "rcS"] script :=
    ⟨fun _ _ h => h, fun _ h => nomatch h⟩
  have hcontent : (begun none (.script (.ofString "/rcS"))
      (mountedWorld countingSystem.mounter (sampleOptions services).config none
        (scriptWorld script))).files.contentAt [.ofString "rcS"] = .ok script := by
    rw [begun_none, mountedWorld_scriptWorld]
    cbv
  have hopens : OpenFile.ofPath (begun none (.script (.ofString "/rcS"))
      (mountedWorld countingSystem.mounter (sampleOptions services).config none
        (scriptWorld script))).files (.ofString "/rcS") = .ok (.atStart [.ofString "rcS"] script) :=
    OpenFile.ofPath_of_content (by rw [begun_none, mountedWorld_scriptWorld]; cbv) hcontent
  exact readsLines_of_steady countingSystem rfl hopens hcontent hsteady

/-- Two such boots. Their scripts and services differ only in words that no command is given. -/
theorem boot_bounded_counting :
    let script := Octets.ofString "x y z\n\n./v\n"
    let script' := Octets.ofString "x\ty\n \n./v"
    let services := ["a b c", "e f"]
    let services' := ["a  b", "e f g h"]
    let boot := run countingSystem (sampleOptions services).config none (scriptWorld script)
    let boot' := run countingSystem (sampleOptions services').config none (scriptWorld script')
    SeesOnly (fun w : World Nat => w.state) countingSystem.launcher ∧
      (∀ entry w, (countingSystem.mounter entry w).2.state = w.state) ∧
      SameKept countingSystem id (sampleOptions services) (sampleOptions services') none none
        (scriptWorld script) (scriptWorld script') ∧
      boot.trace.calls = [⟨⟨"x", .ofString "/sbin/x"⟩, ["y"]⟩, ⟨⟨"./v", .ofString "./v"⟩, []⟩,
        ⟨⟨"a", .ofString "/sbin/a"⟩, ["b"]⟩, ⟨⟨"e", .ofString "/sbin/e"⟩, ["f"]⟩] ∧
      boot'.trace.calls = boot.trace.calls ∧
      boot.value.stages.map StageOutcome.undropped =
        boot'.value.stages.map StageOutcome.undropped := by
  intro script script' services services' boot boot'
  have hsame : ∀ {maxArgs c c'}, (Invocation.tokens c).take (maxArgs + 1) =
      (Invocation.tokens c').take (maxArgs + 1) ∧ (Invocation.tokens c).length < 2 ^ 64 ∧
      (Invocation.tokens c').length < 2 ^ 64 → SameLine maxArgs c c' :=
    fun h => ⟨h.1, h.2.1, h.2.2⟩
  have hlaunch : SeesOnly (fun w : World Nat => w.state) countingSystem.launcher :=
    ⟨fun _ _ _ h => congrArg (fun n : Nat => Except.ok (Outcome.exited n)) h,
      fun _ _ _ h => congrArg (· + 1) h⟩
  have hmount : ∀ entry w, (countingSystem.mounter entry w).2.state = w.state := fun _ _ => rfl
  have hreads := readsLines_scriptWorld services script
  have hkept : SameKept countingSystem id (sampleOptions services) (sampleOptions services') none
      none (scriptWorld script) (scriptWorld script') :=
    { maxArgs_eq := rfl
      searchDir_eq := rfl
      noScript_eq := rfl
      services := .cons (hsame (by decide)) (.cons (hsame (by decide)) .nil)
      script := ⟨_, _, none, none, hreads, readsLines_scriptWorld services' script',
        .cons (hsame (by decide)) (.cons (hsame (by decide)) (.cons (hsame (by decide)) .nil)), rfl⟩
      state_eq := rfl }
  obtain ⟨-, hboot, -, hboots⟩ := boot_bounded (τ := Nat) countingSystem
  obtain ⟨hcalls, hstages⟩ := hboots id _ _ none none _ _ hlaunch hmount hkept
  refine ⟨hlaunch, hmount, hkept, ?_, hcalls.symm, hstages⟩
  exact ((hboot (sampleOptions services) none (scriptWorld script)).2.2 _ none hreads
    (by decide)).trans (by decide)

end Boots
end Supervisor
end BootSequence
