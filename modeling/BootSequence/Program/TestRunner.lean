import BootSequence.CommandLine.Reading
import BootSequence.Harness
import BootSequence.Program.Result

/-!
Running test cases from the command line: the cases of a list, and then how many of them passed.
-/

namespace BootSequence
namespace Program
namespace TestRunner

open CommandLine

def grammar : Grammar where
  switches := [.ofLong "list" (.single .path), .ofLong "case-dir" (.single .path), .help, .version]
  conflicts := []
  words := false

def shown (tally : Tally) : Octets := .ofString s!"\n{tally.display}\n"

/-- Run the cases of a list; a list that cannot be read to its end is logged. -/
def runList {σ : Type} (harness : Harness σ) (list : Path) :
    Action σ (Except Harness.Error Tally) := do
  let result ← harness.runList list
  match result with
  | .ok _ => pure ()
  | .error e => Action.log .error e.message
  return result

def start (environment : Machine.Environment) (list caseDir : Path) (files : Files) : Result :=
  let (errors, journal) := startLogging "testrunner" {} files
  let harness : Harness Children := ⟨caseDir, Machine.launcher environment journal.logFile?⟩
  let (result, children, last) :=
    (journal.print (.ofString "Test syscalls ...\n")).perform Children.none (runList harness list)
  let (code, counted) := match result with
    | .ok tally => (0, shown tally)
    | .error e => (1, (e.tally?.map shown).getD [])
  .afterChildren code (last.print counted).console errors ⟨last.files, children⟩

def run (environment : Machine.Environment) (args : List Octets) (files : Files) : Result :=
  match parse grammar args with
  | .ok m =>
    start environment ((m.path? "list").getD Defaults.testList)
      ((m.path? "case-dir").getD Defaults.caseDir) files
  | .error e =>
    if e.kind.isRequest then .ofText 0 "Usage: testrunner [OPTION]...\n" "" files
    else .ofText 2 "" s!"error: {e.kind.describe}\n" files

end TestRunner
end Program
end BootSequence
