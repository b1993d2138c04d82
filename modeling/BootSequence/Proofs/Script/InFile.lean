import BootSequence.Proofs.Script.Lines
import BootSequence.Proofs.Tree.Reading

/-!
Scripts in files. A script in a file is run line by line as its lines are read (`runFile_of_reads`).
Where the file goes on holding what it holds, these are the lines of its content
(`readsScript_of_steady`).
-/

namespace BootSequence
namespace Interpreter

open Script

variable {σ : Type} (i : Interpreter σ) (path : Path) (log : Option LogFile)

/-- The world in which the first line of a script is read. -/
def opened (w : World σ) : World σ :=
  (Action.log .info s!"running script {path.display}" log w).world

/-- The last record of a script. -/
def summary (report : Report) : String :=
  let counts := s!"{report.launched} launched, {report.succeeded} ok, {report.troubled} failed"
  s!"script {path.display} done: {counts}"

/-- The lines that are read of a script, each in the world that the one before has left, and why the
script is not run to its end, if it is not. -/
inductive ReadsScript (w : World σ) : List Octets → Option Error → Prop where
  | unopened {fault : Fault} (opens : OpenFile.ofPath w.files path = .error fault) :
      ReadsScript w [] (some (.cannotOpen path fault))
  | opened {file left : OpenFile} {lines : List Octets} {failure : Option Errno}
      (opens : OpenFile.ofPath w.files path = .ok file)
      (reads : Reads (i.countLine path 0) log (opened path log w) {} file lines failure left) :
      ReadsScript w lines (failure.map fun e => .cannotRead path lines.length (.numbered e))

theorem exists_readsScript (w : World σ) :
    ∃ lines failure, i.ReadsScript path log w lines failure := by
  cases hopens : OpenFile.ofPath w.files path with
  | error fault => exact ⟨[], some (.cannotOpen path fault), .unopened hopens⟩
  | ok file =>
    obtain ⟨lines, failure, left, hreads⟩ :=
      exists_reads (i.countLine path 0) log (opened path log w) {} file
    exact ⟨lines, _, .opened hopens hreads⟩

theorem runFile_of_unopened {w : World σ} {fault : Fault}
    (h : OpenFile.ofPath w.files path = .error fault) :
    i.runFile path log w = ⟨.error (.cannotOpen path fault), [], w⟩ := by
  simp only [runFile, Action.bind_apply, Action.files_apply, h, Action.pure_apply, List.append_nil]

/-- A script that is opened is run as its lines are read, behind a first record. A last one is
written if no read fails. -/
theorem runFile_of_reads {w : World σ} {file left : OpenFile} {lines : List Octets}
    {failure : Option Errno} (hopens : OpenFile.ofPath w.files path = .ok file)
    (hreads : Reads (i.countLine path 0) log (opened path log w) {} file lines failure left) :
    let each := i.runEach path 0 lines log (opened path log w)
    let opening : Event := .log .info s!"running script {path.display}"
    i.runFile path log w =
      failure.elim
        ⟨.ok each.value, opening :: each.trace ++ [.log .info (summary path each.value)],
          (Action.log .info (summary path each.value) log each.world).world⟩
        fun e =>
          ⟨.error (.cannotRead path lines.length (.numbered e)), opening :: each.trace,
            each.world⟩ := by
  have hran := i.runReader_of_reads path log hreads
  have hopened : Action.log .info s!"running script {path.display}" log w =
      ⟨(), [.log .info s!"running script {path.display}"], opened path log w⟩ := rfl
  rw [runFile, Action.files_bind, hopens]
  dsimp only
  rw [Action.bind_apply, hopened]
  dsimp only
  rw [Action.bind_apply, hran]
  cases failure with
  | none =>
    simp only [Report.result, Option.elim_none, Action.bind_apply, Action.pure_apply,
      List.append_nil]
    rfl
  | some e =>
    simp only [Report.result, Option.elim_some, Action.pure_apply, List.append_nil, Nat.zero_add]
    rfl

/-! ## Scripts that stay as they are -/

section Steady

variable {i log} {content : Octets}

/-- Of a script that stays as it is, the lines of its content are read, and so it is run to its end.
-/
theorem readsScript_of_steady {file : OpenFile} {w : World σ} {lines : List Octets}
    {failure : Option Error} (hopens : OpenFile.ofPath w.files path = .ok file)
    (hcontent : w.files.contentAt file.loc = .ok content)
    (h : Steady i.launcher log file.loc content)
    (hreads : i.ReadsScript path log w lines failure) :
    lines = Feed.linesRead content ∧ failure = none := by
  have hopened : (opened path log w).files.contentAt file.loc = .ok content :=
    h.law.record _ _ w hcontent
  have hstep : ∀ report line w, w.files.contentAt file.loc = .ok content →
      (i.countLine path 0 report line log w).world.files.contentAt file.loc = .ok content :=
    fun report line w =>
      obeys_countLine h.law (fun call _ => h.launch call) path 0 report line w
  cases hreads with
  | unopened hfault => cases hopens.symm.trans hfault
  | opened hfile hreads =>
    obtain rfl := Except.ok.inj (hopens.symm.trans hfile)
    obtain ⟨hlines, hfailure⟩ := hreads.lines_of_opened hopens hcontent hopened hstep
    rw [hfailure]
    exact ⟨hlines, rfl⟩

end Steady
end Interpreter
end BootSequence
