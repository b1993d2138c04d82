import BootSequence.Action
import BootSequence.Text.Blank
import BootSequence.Tree.OpenFile

/-!
Test cases: programs of one directory, named line by line in a list, each run without arguments and
judged by how it ends. A list may be changed by the cases that it names, and is read on only as the
names are needed.
-/

namespace BootSequence

structure Tally where
  passed : Nat := 0
  failed : Nat := 0
  deriving DecidableEq, Repr

namespace Tally

def total (t : Tally) : Nat := t.passed + t.failed

def count (t : Tally) (v : Verdict) : Tally :=
  if v.isPass then { t with passed := t.passed + 1 } else { t with failed := t.failed + 1 }

def rule : String := "=========="

def display (t : Tally) : String :=
  s!"{rule}\nPassed: {t.passed}\nFailed: {t.failed}\nTotal: {t.total}\n{rule}"

end Tally

namespace Harness

/-- Why a list was not run to its end; a failed read leaves the count so far. -/
inductive Error where
  | cannotOpen (list : Path) (cause : Fault)
  | cannotRead (list : Path) (tally : Tally) (cause : Fault)
  deriving DecidableEq, Repr

namespace Error

def cause : Error → Fault
  | cannotOpen _ cause | cannotRead _ _ cause => cause

def tally? : Error → Option Tally
  | cannotOpen _ _ => none
  | cannotRead _ tally _ => some tally

def message : Error → String
  | cannotOpen list cause => s!"cannot open test list {list.display}: {cause.message}"
  | cannotRead list tally cause =>
    s!"failed reading test list {list.display} after {tally.total} case(s): {cause.message}"

end Error
end Harness

structure Harness (σ : Type) where
  caseDir : Path
  launcher : Launcher σ

namespace Harness

variable {σ : Type}

def judge (h : Harness σ) (name : String) : Action σ Verdict := do
  match Command.resolveUnder h.caseDir name with
  | .error e =>
    Action.log .error s!"[{name}] {e.message}"
    return .launchFailed
  | .ok command =>
    match ← Action.launch h.launcher ⟨command, []⟩ with
    | .ok outcome => return .ofOutcome outcome
    | .error e =>
      Action.log .error s!"[{name}] {e.message}"
      return .launchFailed

/-- The case between the two records that frame it. A case that was not launched has said why
already. -/
def runCase (h : Harness σ) (name : String) : Action σ Verdict := do
  Action.log .info s!"[{name}] ..."
  let verdict ← h.judge name
  match verdict with
  | .passed => Action.log .info s!"[{name}] ok!"
  | .passedWithWarnings => Action.log .info s!"[{name}] ok with warnings!"
  | .failed code => Action.log .warn s!"[{name}] err [{code}]!"
  | .launchFailed => pure ()
  return verdict

def countCase (h : Harness σ) (tally : Tally) (name : String) : Action σ (Verdict × Tally) := do
  let verdict ← h.runCase name
  return (verdict, tally.count verdict)

/-- Run the case that a line names, if it names one, and count it. -/
def runLine (h : Harness σ) (tally : Tally) (line : Octets) : Action σ Tally := do
  let name := Blank.trim (Utf8.decodeLossy line)
  if name.isEmpty then return tally
  else return (← h.countCase tally (String.ofList name)).2

def runList (h : Harness σ) (list : Path) : Action σ (Except Error Tally) := do
  match OpenFile.ofPath (← Action.files) list with
  | .error fault => return .error (.cannotOpen list fault)
  | .ok file =>
    let failed tally e := .cannotRead list tally (.numbered e)
    return (← Reader.foldAll Action.files h.runLine failed file {}).1

end Harness
end BootSequence
