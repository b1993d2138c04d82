import BootSequence.Proofs.Effects
import BootSequence.Script

/-!
What executing one command does, case by case: a blank command does nothing, a name that does not
resolve leaves a record, and any other is launched once, between two records.
-/

namespace BootSequence

namespace Interpreter

variable {σ : Type}

/-- The record behind a launch. -/
def closing (name : String) : Except LaunchError Outcome → Event
  | .ok outcome =>
    if outcome.success then .log .info s!"[{name}] ok!"
    else .log .warn s!"[{name}] err: {outcome.describe}"
  | .error e => .log .error s!"[{name}] {e.message}"

/-- What is done when the launcher has answered. -/
def conclude (name : String) : Except LaunchError Outcome → Action σ LineOutcome
  | .ok outcome => do
    if outcome.success then Action.log .info s!"[{name}] ok!"
    else Action.log .warn s!"[{name}] err: {outcome.describe}"
    return .finished outcome
  | .error e => do
    Action.log .error s!"[{name}] {e.message}"
    return .launchFailed

theorem trace_conclude (name : String) (reply : Except LaunchError Outcome)
    (log : Option LogFile) (w : World σ) :
    (conclude name reply log w).trace = [closing name reply] := by
  cases reply with
  | error e => rfl
  | ok outcome =>
    simp only [conclude, closing]
    split <;> rfl

@[simp] theorem calls_closing (name : String) (reply : Except LaunchError Outcome) :
    Trace.calls [closing name reply] = [] := by
  cases reply with
  | error e => rfl
  | ok outcome =>
    simp only [closing]
    split <;> rfl

variable (i : Interpreter σ) {invocation : Invocation}

theorem execute_of_none (h : invocation.command? = none) :
    i.execute invocation = pure .skipped := by
  simp [execute, h]

theorem execute_of_error {name : String} {e : NameError} (h : invocation.command? = some name)
    (he : Command.resolve name i.searchDir = .error e) :
    i.execute invocation = (do
      Action.log .warn s!"cannot resolve `{name}`: {e.message}"
      return .unresolved) := by
  simp [execute, h, he]

theorem execute_of_ok {name : String} {command : Command} (h : invocation.command? = some name)
    (hc : Command.resolve name i.searchDir = .ok command) :
    i.execute invocation = (do
      Action.log .info s!"[{name}] ..."
      conclude name (← Action.launch i.launcher ⟨command, invocation.args⟩)) := by
  simp only [execute, h, hc]
  rfl

end Interpreter
end BootSequence
