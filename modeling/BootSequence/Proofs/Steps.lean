import BootSequence.Harness
import BootSequence.Proofs.Mount.Directory
import BootSequence.Supervisor

/-!
Laws that hold of whole programs because they hold of single steps. A law relates the world before
an action, its trace, and the world behind it; it goes on from one action to the next, and holds of
every record. If mounts, the making of directories and the launches that can be asked for obey it
too, so does all that is done by means of them.
-/

namespace BootSequence
namespace Action

variable {σ α β : Type}

/-- A relation that goes on from one action to the next, and that records do not break. -/
structure Law (log : Option LogFile) (R : World σ → Trace → World σ → Prop) : Prop where
  nothing : ∀ w, R w [] w
  followed : ∀ {w w' w'' : World σ} {t t' : Trace}, R w t w' → R w' t' w'' → R w (t ++ t') w''
  record : ∀ level message w, R w [.log level message] (Action.log level message log w).world

def Obeys (log : Option LogFile) (R : World σ → Trace → World σ → Prop) (x : Action σ α) : Prop :=
  ∀ w, R w (x log w).trace (x log w).world

variable {log : Option LogFile} {R : World σ → Trace → World σ → Prop}

namespace Law

variable (law : Law log R)
include law

theorem pure (a : α) : Obeys log R (pure a : Action σ α) := law.nothing

theorem bind {x : Action σ α} {f : α → Action σ β} (hx : Obeys log R x)
    (hf : ∀ a, Obeys log R (f a)) : Obeys log R (x >>= f) :=
  fun w => law.followed (hx w) (hf _ _)

theorem files : Obeys log R (Action.files : Action σ Files) := law.nothing

section Loops

variable {ρ ε : Type} [Reader ρ] {failed : α → Errno → ε}

/-- A loop over lines obeys a law that all its lines obey. -/
theorem foldLines {line : α → Octets → Action σ (Except ε α)}
    (hline : ∀ a octets, Obeys log R (line a octets)) (reader : ρ) (a : α) :
    Obeys log R (Reader.foldLines Action.files line failed reader a) := by
  induction reader, a using Reader.foldLines.induct with
  | case1 reader a ihInterrupted ihLine =>
    rw [Reader.foldLines]
    refine law.bind law.files fun now => ?_
    split
    · rename_i hread
      split
      · rename_i he
        exact ihInterrupted now _ _ hread he
      · exact law.pure _
    · rename_i hread
      split
      · exact law.pure _
      · rename_i hne
        refine law.bind (hline a _) fun result => ?_
        split
        · exact law.pure _
        · exact ihLine now _ _ hread hne _

theorem foldAll {line : α → Octets → Action σ α} (hline : ∀ a octets, Obeys log R (line a octets))
    (reader : ρ) (a : α) : Obeys log R (Reader.foldAll Action.files line failed reader a) :=
  law.foldLines (fun a octets => law.bind (hline a octets) fun _ => law.pure _) reader a

end Loops

end Law

/-- Nothing is launched. -/
theorem law_calls (log : Option LogFile) :
    Law log fun (_ : World σ) t _ => t.calls = [] where
  nothing := fun _ => rfl
  followed := fun hfirst hnext => by rw [Trace.calls_append, hfirst, hnext]; rfl
  record := fun _ _ _ => rfl

/-- Whatever is launched is one of these calls. -/
theorem law_allCalls (log : Option LogFile) (P : Call → Prop) :
    Law log fun (_ : World σ) t _ => ∀ call ∈ t.calls, P call where
  nothing := fun _ => nofun
  followed := fun hfirst hnext => by
    rw [Trace.calls_append, List.forall_mem_append]
    exact ⟨hfirst, hnext⟩
  record := fun _ _ _ => nofun

theorem allCalls_launch {launcher : Launcher σ} {P : Call → Prop} {call : Call} (h : P call) :
    Obeys log (fun _ t _ => ∀ call ∈ t.calls, P call) (launch launcher call) := by
  intro w
  rw [trace_launch, Trace.calls_launch, Trace.calls_children]
  exact List.forall_mem_singleton.2 h

/-- No directory and no mount is asked for. -/
theorem law_effects (log : Option LogFile) :
    Law log fun (_ : World σ) t _ => t.effects = [] where
  nothing := fun _ => rfl
  followed := fun hfirst hnext => by rw [Trace.effects_append, hfirst, hnext]; rfl
  record := fun _ _ _ => rfl

end Action

open BootSequence.Action

variable {σ : Type} {log : Option LogFile} {R : World σ → Trace → World σ → Prop}

/-! ## Scripts -/

namespace Interpreter

/-- Only what a name has been resolved to is launched. -/
def Asks (i : Interpreter σ) (call : Call) : Prop :=
  ∃ name, Command.resolve name i.searchDir = .ok call.command

variable {i : Interpreter σ} (law : Law log R)
  (hlaunch : ∀ call, i.Asks call → Obeys log R (launch i.launcher call))
include law hlaunch

theorem obeys_execute (invocation : Invocation) : Obeys log R (i.execute invocation) := by
  unfold execute
  split
  · exact law.pure _
  · split
    · exact law.bind (law.record _ _) fun _ => law.pure _
    · rename_i hresolve
      refine law.bind (law.record _ _) fun _ => law.bind (hlaunch _ ⟨_, hresolve⟩) fun reply => ?_
      split
      · dsimp only
        split <;> exact law.bind (law.record _ _) fun _ => law.pure _
      · exact law.bind (law.record _ _) fun _ => law.pure _

theorem obeys_runLine (path : Path) (number : Nat) (line : Octets) :
    Obeys log R (i.runLine path number line) := by
  have hrun : Obeys log R (do
      let outcome ← i.execute (.ofLine line.lossy i.maxArgs)
      return Script.Report.ofLine (Invocation.ofLine line.lossy i.maxArgs).dropped outcome) :=
    law.bind (obeys_execute law hlaunch _) fun _ => law.pure _
  unfold runLine
  dsimp only
  split
  · exact law.bind (law.record _ _) fun _ => hrun
  · exact hrun

theorem obeys_countLine (path : Path) (number : Nat) (report : Script.Report) (line : Octets) :
    Obeys log R (i.countLine path number report line) :=
  law.bind (obeys_runLine law hlaunch path _ line) fun _ => law.pure _

theorem obeys_runReader {ρ : Type} [Reader ρ] (path : Path) (reader : ρ) (number : Nat) :
    Obeys log R (i.runReader path reader number) :=
  law.foldAll (obeys_countLine law hlaunch path number) reader {}

theorem obeys_runFeed (path : Path) (feed : Feed) : Obeys log R (i.runFeed path feed) :=
  law.bind (obeys_runReader law hlaunch path feed 0) fun _ => law.pure _

theorem obeys_runFile (path : Path) : Obeys log R (i.runFile path) := by
  refine law.bind law.files fun f => ?_
  split
  · exact law.pure _
  · refine law.bind (law.record _ _) fun _ =>
      law.bind (obeys_runReader law hlaunch path _ 0) fun result => ?_
    split
    · exact law.pure _
    · exact law.bind (law.record _ _) fun _ => law.pure _

end Interpreter

/-! ## Test lists -/

namespace Harness

def Asks (h : Harness σ) (call : Call) : Prop :=
  ∃ name, Command.resolveUnder h.caseDir name = .ok call.command

variable {h : Harness σ} (law : Law log R)
  (hlaunch : ∀ call, h.Asks call → Obeys log R (launch h.launcher call))
include law hlaunch

theorem obeys_judge (name : String) : Obeys log R (h.judge name) := by
  unfold judge
  split
  · exact law.bind (law.record _ _) fun _ => law.pure _
  · rename_i hresolve
    refine law.bind (hlaunch _ ⟨_, hresolve⟩) fun reply => ?_
    split
    · exact law.pure _
    · exact law.bind (law.record _ _) fun _ => law.pure _

theorem obeys_runCase (name : String) : Obeys log R (h.runCase name) := by
  refine law.bind (law.record _ _) fun _ =>
    law.bind (obeys_judge law hlaunch name) fun verdict => ?_
  cases verdict with
  | launchFailed => exact law.pure _
  | passed | passedWithWarnings | failed => exact law.bind (law.record _ _) fun _ => law.pure _

theorem obeys_countCase (tally : Tally) (name : String) : Obeys log R (h.countCase tally name) :=
  law.bind (obeys_runCase law hlaunch name) fun _ => law.pure _

theorem obeys_runLine (tally : Tally) (line : Octets) : Obeys log R (h.runLine tally line) := by
  unfold runLine
  dsimp only
  split
  · exact law.pure _
  · exact law.bind (obeys_countCase law hlaunch tally _) fun _ => law.pure _

theorem obeys_runList (list : Path) : Obeys log R (h.runList list) := by
  refine law.bind law.files fun f => ?_
  split
  · exact law.pure _
  · exact law.bind (law.foldAll (obeys_runLine law hlaunch) _ _) fun _ => law.pure _

end Harness

/-! ## Mounts -/

namespace Mount

variable {mounter : Mounter σ} (law : Law log R)
include law

/-- Either a directory is made, or it has only been asked for. -/
theorem obeys_ensureDir {path : Path} (hask : ∀ w, R w [.makeDirectory path] w)
    (hmake : ∀ w made, w.files.makeDirectory path mountPointMode = .ok made →
      R w [.makeDirectory path] { w with files := made }) :
    Obeys log R (ensureDir path : Action σ (Except Fault DirStatus)) := by
  intro w
  cases h : w.files.makeDirectory path mountPointMode with
  | ok made =>
    rw [ensureDir_of_ok log h]
    exact law.followed (hmake w made h) (law.record _ _ _)
  | error fault =>
    by_cases hkind : fault.kind = .alreadyExists
    · rw [ensureDir_of_exists log h hkind]
      exact law.followed (hask w) (law.record _ _ _)
    · rw [ensureDir_of_error log h hkind]
      exact hask w

theorem obeys_mountEntry {entry : Entry}
    (hmake : Obeys log R (ensureDir entry.target : Action σ (Except Fault DirStatus)))
    (hmount : Obeys log R (mount mounter entry)) : Obeys log R (mountEntry mounter entry) := by
  refine law.bind hmake fun made => ?_
  split
  · exact law.pure _
  · refine law.bind hmount fun reply => ?_
    split
    · exact law.pure _
    · exact law.bind (law.record _ _) fun _ => law.pure _

variable (hentry : ∀ entry, Obeys log R (mountEntry mounter entry))
include hentry

theorem obeys_mountItems {ρ : Type} [Reader ρ] (table : Path) (c : Table.Cursor ρ) :
    Obeys log R (mountItems mounter table c) := by
  induction c using @mountItems.induct ρ _ table with
  | case1 c ih =>
    rw [mountItems]
    refine law.bind law.files fun now => ?_
    split
    · exact law.pure _
    · exact law.pure _
    · rename_i entry left hnext
      refine law.bind (hentry entry) fun reply => ?_
      split
      · exact law.pure _
      · exact law.bind (ih now entry left hnext) fun _ => law.pure _

theorem obeys_mountAll (table : Path) : Obeys log R (mountAll mounter table) := by
  refine law.bind law.files fun f => ?_
  split
  · exact law.pure _
  · exact obeys_mountItems law hentry _ _

end Mount

/-! ## Boots -/

theorem obeys_reap {reaper : Reaper σ} (law : Law log R) (hcollect : Obeys log R (collect reaper)) :
    Obeys log R (reap reaper) := by
  have hrecords : ∀ released : List Released,
      Obeys log R (released.forM fun r => Action.log .info r.describe : Action σ Unit) := by
    intro released
    induction released with
    | nil => exact law.pure ()
    | cons r released ih => exact law.bind (law.record _ _) fun _ => ih
  exact law.bind hcollect fun released => law.bind (hrecords released) fun _ =>
    law.bind (law.record _ _) fun _ => law.pure _

namespace Supervisor

variable {s : System σ} (law : Law log R)
include law

theorem obeys_prepareProcDir {config : Config}
    (hmake : Obeys log R
      (Mount.ensureDir config.procDir : Action σ (Except Fault Mount.DirStatus))) :
    Obeys log R (prepareProcDir config : Action σ (Option Mount.DirStatus)) := by
  refine law.bind hmake fun made => ?_
  split
  · exact law.pure _
  · exact law.bind (law.record _ _) fun _ => law.pure _

theorem obeys_mountTable (hentry : ∀ entry, Obeys log R (Mount.mountEntry s.mounter entry))
    (config : Config) : Obeys log R (mountTable s config) := by
  refine law.bind (Mount.obeys_mountAll law hentry _) fun mounted => ?_
  split <;> exact law.bind (law.record _ _) fun _ => law.pure _

section Stages

variable {i : Interpreter σ}
  (hlaunch : ∀ call, i.Asks call → Obeys log R (launch i.launcher call))
include hlaunch

theorem obeys_runStage (stage : Stage) : Obeys log R (runStage i stage) := by
  cases stage with
  | service invocation =>
    exact law.bind (Interpreter.obeys_execute law hlaunch invocation) fun _ => law.pure _
  | script path =>
    refine law.bind (Interpreter.obeys_runFile law hlaunch path) fun result => ?_
    split
    · exact law.pure _
    · exact law.bind (law.record _ _) fun _ => law.pure _

theorem obeys_runStages (stages : List Stage) : Obeys log R (runStages i stages) := by
  induction stages with
  | nil => exact law.pure _
  | cons stage stages ih =>
    exact law.bind (law.record _ _) fun _ => law.bind (obeys_runStage law hlaunch stage) fun _ =>
      law.bind ih fun _ => law.pure _

end Stages

theorem obeys_run {config : Config}
    (hlaunch : ∀ call, (interpreter s config).Asks call → Obeys log R (launch s.launcher call))
    (hmake : Obeys log R (Mount.ensureDir config.procDir : Action σ (Except Fault Mount.DirStatus)))
    (hentry : ∀ entry, Obeys log R (Mount.mountEntry s.mounter entry))
    (hcollect : Obeys log R (collect s.reaper)) : Obeys log R (run s config) := by
  refine law.bind (obeys_prepareProcDir law hmake) fun _ =>
    law.bind (obeys_mountTable law hentry config) fun _ => law.bind (law.record _ _) fun _ =>
    law.bind (obeys_runStages law hlaunch config.stages) fun _ => ?_
  have hlast : ∀ summary : BootSummary, Obeys log R (do
      Action.log .info "init sequence finished"
      return summary) := fun _ => law.bind (law.record _ _) fun _ => law.pure _
  dsimp only
  split
  · exact law.bind (obeys_reap law hcollect) fun _ => hlast _
  · exact law.bind (law.pure _) fun _ => hlast _

end Supervisor
end BootSequence
