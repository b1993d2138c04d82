import BootSequence.Feed
import BootSequence.LogFile
import BootSequence.Mount.Entry
import BootSequence.Outcome
import BootSequence.Spawn

/-!
What a program does to the world, as a value: an action maps the world before it to a result, to
the events that happened, in order, and to the world after it. Doing one action after another puts
their traces one behind the other. The records of an action go to a log file too, if one is open.
-/

namespace BootSequence

/-- The directory tree, and the memory of those that launch and mount: they may remember anything.
-/
structure World (σ : Type) where
  files : Files
  state : σ

structure Call where
  command : Command
  args : List String
  deriving DecidableEq, Repr

/-- What is noticed of a launcher while it works: its own log records, and what children print. -/
inductive Note where
  | log (level : Level) (message : String)
  | output (octets : Octets)
  deriving DecidableEq, Repr

inductive Event where
  | log (level : Level) (message : String)
  | launch (call : Call)
  | child (note : Note)
  | makeDirectory (path : Path)
  | mount (entry : Mount.Entry) (accepted : Bool)
  deriving DecidableEq, Repr

namespace Event

def call? : Event → Option Call
  | launch call => some call
  | _ => none

def mount? : Event → Option Mount.Entry
  | mount entry _ => some entry
  | _ => none

end Event

abbrev Trace := List Event

namespace Trace

def calls (t : Trace) : List Call := t.filterMap Event.call?

def mounts (t : Trace) : List Mount.Entry := t.filterMap Event.mount?

@[simp] theorem calls_append (s t : Trace) : calls (s ++ t) = calls s ++ calls t :=
  List.filterMap_append

@[simp] theorem mounts_append (s t : Trace) : mounts (s ++ t) = mounts s ++ mounts t :=
  List.filterMap_append

@[simp] theorem calls_nil : calls [] = [] := rfl

@[simp] theorem calls_log (level : Level) (message : String) (t : Trace) :
    calls (.log level message :: t) = calls t := rfl

@[simp] theorem calls_launch (call : Call) (t : Trace) :
    calls (.launch call :: t) = call :: calls t := rfl

/-- What a launcher is noticed to do is no launch of the boot's own. -/
@[simp] theorem calls_children (notes : List Note) : calls (notes.map .child) = [] := by
  simp [calls, Event.call?]

end Trace

structure Ran (σ α : Type) where
  value : α
  trace : Trace
  world : World σ

def Action (σ α : Type) : Type := Option LogFile → World σ → Ran σ α

namespace Action

variable {σ α β γ : Type}

protected def pure (a : α) : Action σ α := fun _ w => ⟨a, [], w⟩

protected def bind (x : Action σ α) (f : α → Action σ β) : Action σ β := fun log w =>
  let first := x log w
  let second := f first.value log first.world
  ⟨second.value, first.trace ++ second.trace, second.world⟩

instance : Monad (Action σ) where
  pure := Action.pure
  bind := Action.bind

section Laws

variable (log : Option LogFile) (w : World σ)

@[simp] theorem pure_apply (a : α) : (pure a : Action σ α) log w = ⟨a, [], w⟩ := rfl

@[simp] theorem value_bind (x : Action σ α) (f : α → Action σ β) :
    ((x >>= f) log w).value = (f (x log w).value log (x log w).world).value := rfl

@[simp] theorem trace_bind (x : Action σ α) (f : α → Action σ β) :
    ((x >>= f) log w).trace = (x log w).trace ++ (f (x log w).value log (x log w).world).trace :=
  rfl

theorem bind_apply (x : Action σ α) (f : α → Action σ β) :
    (x >>= f) log w =
      ⟨(f (x log w).value log (x log w).world).value,
        (x log w).trace ++ (f (x log w).value log (x log w).world).trace,
        (f (x log w).value log (x log w).world).world⟩ := rfl

@[simp] theorem world_bind (x : Action σ α) (f : α → Action σ β) :
    ((x >>= f) log w).world = (f (x log w).value log (x log w).world).world := rfl

end Laws

instance : LawfulMonad (Action σ) :=
  .mk' _
    (fun x => by
      funext log w
      show Ran.mk (x log w).value ((x log w).trace ++ []) (x log w).world = x log w
      simp)
    (fun _ _ => rfl)
    (fun x f g => by
      funext log w
      show Ran.mk _ (((x log w).trace ++ _) ++ _) _ = Ran.mk _ ((x log w).trace ++ (_ ++ _)) _
      simp [List.append_assoc])

def log (level : Level) (message : String) : Action σ Unit := fun file w =>
  ⟨(), [.log level message], { w with files := LogFile.record file level message w.files }⟩

def emit (event : Event) : Action σ Unit := fun _ w => ⟨(), [event], w⟩

def files : Action σ Files := fun _ w => ⟨w.files, [], w⟩

def setFiles (f : Files) : Action σ Unit := fun _ w => ⟨(), [], { w with files := f }⟩

end Action

namespace Action

variable {σ : Type}

section Laws

variable (log : Option LogFile) (w : World σ)

@[simp] theorem log_apply (level : Level) (message : String) :
    Action.log level message log w =
      ⟨(), [.log level message], { w with files := LogFile.record log level message w.files }⟩ := rfl

@[simp] theorem emit_apply (event : Event) : emit event log w = ⟨(), [event], w⟩ := rfl

@[simp] theorem files_apply : files log w = ⟨w.files, [], w⟩ := rfl

theorem files_bind {α : Type} (k : Files → Action σ α) : (files >>= k) log w = k w.files log w := rfl

@[simp] theorem setFiles_apply (f : Files) : setFiles f log w = ⟨(), [], { w with files := f }⟩ :=
  rfl

end Laws

end Action

structure LaunchError where
  path : Path
  cause : Fault
  deriving DecidableEq, Repr

def LaunchError.message (e : LaunchError) : String :=
  s!"cannot launch {e.path.display}: {e.cause.message}"

abbrev Launcher (σ : Type) := Call → World σ → Except LaunchError Outcome × List Note × World σ

abbrev Mounter (σ : Type) := Mount.Entry → World σ → Except Fault Unit × World σ

/-- An orphan that has ended: its exit code, unless a signal ended it. -/
structure Released where
  pid : Nat
  exitCode : Option Int
  deriving DecidableEq, Repr

def Released.describe (r : Released) : String :=
  let code := match r.exitCode with
    | some code => s!"Some({code})"
    | none => "None"
  s!"Released a zombie process, pid={r.pid}, exit_code={code}"

/-- Waits for every child that is left, and says which ended, in order, and what was noticed of them
meanwhile. -/
abbrev Reaper (σ : Type) := World σ → List Released × List Note × World σ

namespace Action

variable {σ : Type}

/-- Have a command run. The launch comes before all that is noticed of it. -/
def launch (launcher : Launcher σ) (call : Call) : Action σ (Except LaunchError Outcome) :=
    fun _ w =>
  let (reply, notes, after) := launcher call w
  ⟨reply, .launch call :: notes.map .child, after⟩

@[simp] theorem trace_launch (launcher : Launcher σ) (call : Call) (log : Option LogFile)
    (w : World σ) : (launch launcher call log w).trace =
      .launch call :: (launcher call w).2.1.map .child := rfl

def mount (mounter : Mounter σ) (entry : Mount.Entry) : Action σ (Except Fault Unit) := fun _ w =>
  let (reply, after) := mounter entry w
  ⟨reply, [.mount entry reply.isOk], after⟩

def collect (reaper : Reaper σ) : Action σ (List Released) := fun _ w =>
  let (released, notes, after) := reaper w
  ⟨released, notes.map .child, after⟩

/-- Wait for every child that is left, with a record for each of them, and count them. -/
def reap (reaper : Reaper σ) : Action σ Nat := do
  let released ← collect reaper
  released.forM fun r => log .info r.describe
  log .info "No child process left"
  return released.length

end Action
end BootSequence
