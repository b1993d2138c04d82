import BootSequence.Action

/-!
The part of a trace that is done to the file systems: directories asked for, and mounts.
-/

namespace BootSequence

/-- Asks for a directory or for a mount. -/
def Event.isEffect : Event → Bool
  | makeDirectory _ | mount _ _ => true
  | log _ _ | launch _ | child _ => false

namespace Trace

/-- The directories and mounts that were asked for, failures included, in order. -/
def effects (t : Trace) : Trace := t.filter Event.isEffect

@[simp] theorem effects_append (s t : Trace) : effects (s ++ t) = effects s ++ effects t :=
  List.filter_append ..

@[simp] theorem effects_nil : effects [] = [] := rfl

@[simp] theorem effects_log (level : Level) (message : String) (t : Trace) :
    effects (.log level message :: t) = effects t := rfl

@[simp] theorem effects_launch (call : Call) (t : Trace) :
    effects (.launch call :: t) = effects t := rfl

@[simp] theorem effects_makeDirectory (path : Path) (t : Trace) :
    effects (.makeDirectory path :: t) = .makeDirectory path :: effects t := rfl

@[simp] theorem effects_mount (entry : Mount.Entry) (accepted : Bool) (t : Trace) :
    effects (.mount entry accepted :: t) = .mount entry accepted :: effects t := rfl

@[simp] theorem effects_children (notes : List Note) : effects (notes.map .child) = [] := by
  simp [effects, Event.isEffect]

/-- Every mount is an effect. -/
theorem mounts_effects (t : Trace) : mounts (effects t) = mounts t := by
  induction t with
  | nil => rfl
  | cons e t ih =>
    cases e with
    | mount entry accepted => exact congrArg (entry :: ·) ih
    | makeDirectory path => exact ih
    | log level message => exact ih
    | launch call => exact ih
    | child note => exact ih

end Trace
end BootSequence
