import BootSequence.Proofs.Reader
import BootSequence.Proofs.Script.Execution
import Mathlib

/-!
Scripts line by line. A run makes nothing of what it reads but the lines, one after another
(`runEach`), and a failure at the end of them (`runReader_of_reads`).
-/

namespace BootSequence

/-! ## Adding up reports -/

namespace Script
namespace Report

instance : Zero Report := ⟨{}⟩

instance : AddCommMonoid Report where
  add_assoc := by
    intro a b c
    show Report.mk .. = Report.mk ..
    simp only [Report.mk.injEq]
    exact ⟨Nat.add_assoc .., Nat.add_assoc .., Nat.add_assoc .., Nat.add_assoc ..,
      Nat.add_assoc .., Nat.add_assoc .., Nat.add_assoc .., Nat.add_assoc ..⟩
  zero_add := by
    intro a
    show Report.mk .. = Report.mk ..
    simp only [Report.mk.injEq]
    exact ⟨Nat.zero_add _, Nat.zero_add _, Nat.zero_add _, Nat.zero_add _, Nat.zero_add _,
      Nat.zero_add _, Nat.zero_add _, Nat.zero_add _⟩
  add_zero _ := rfl
  add_comm := by
    intro a b
    show Report.mk .. = Report.mk ..
    simp only [Report.mk.injEq]
    exact ⟨Nat.add_comm .., Nat.add_comm .., Nat.add_comm .., Nat.add_comm .., Nat.add_comm ..,
      Nat.add_comm .., Nat.add_comm .., Nat.add_comm ..⟩
  nsmul := nsmulRec

theorem lines_add (a b : Report) : (a + b).lines = a.lines + b.lines := rfl

theorem lines_ofLine (dropped : Nat) (outcome : LineOutcome) : (ofLine dropped outcome).lines = 1 := by
  cases outcome with
  | finished outcome =>
    rw [ofLine]
    split <;> rfl
  | skipped | unresolved | launchFailed => rfl

/-- What a run comes to that gave a report on so many lines, and stopped at a failure or did not. -/
def result (path : Path) (lines : Nat) (failure : Option Errno) (report : Report) :
    Except Error Report :=
  failure.elim (.ok report) fun e => .error (.cannotRead path lines (.numbered e))

theorem map_result (path : Path) (lines : Nat) (failure : Option Errno) (report more : Report) :
    (more.result path lines failure).map (report + ·) =
      (report + more).result path lines failure := by
  cases failure <;> rfl

end Report
end Script

namespace Interpreter

open Script

variable {σ ρ : Type} [Reader ρ] (i : Interpreter σ) (path : Path)

/-! ## Lines -/

/-- Run lines one after another, the first of them with the number behind `number`. -/
def runEach (i : Interpreter σ) (path : Path) (number : Nat) : List Octets → Action σ Report
  | [] => return {}
  | line :: lines => do
    let report ← i.runLine path (number + 1) line
    return report + (← i.runEach path (number + 1) lines)

variable (log : Option LogFile)

theorem runEach_cons (number : Nat) (line : Octets) (lines : List Octets) (w : World σ) :
    i.runEach path number (line :: lines) log w =
      let first := i.runLine path (number + 1) line log w
      let more := i.runEach path (number + 1) lines log first.world
      ⟨first.value + more.value, first.trace ++ more.trace, more.world⟩ := by
  simp only [runEach, Action.bind_apply, Action.pure_apply, List.append_nil]

theorem lines_runLine (number : Nat) (line : Octets) (w : World σ) :
    (i.runLine path number line log w).value.lines = 1 := by
  unfold runLine
  split <;> exact Report.lines_ofLine _ _

theorem lines_runEach (number : Nat) (lines : List Octets) (w : World σ) :
    (i.runEach path number lines log w).value.lines = lines.length := by
  induction lines generalizing number w with
  | nil => rfl
  | cons line lines ih =>
    rw [runEach_cons, Report.lines_add, lines_runLine, ih, List.length_cons, Nat.add_comm]

/-- Counting lines on top of a report is running them behind its lines. -/
theorem foldlM_countLine (number : Nat) (report : Report) (lines : List Octets) (w : World σ) :
    let each := i.runEach path (number + report.lines) lines log w
    lines.foldlM (i.countLine path number) report log w =
      ⟨report + each.value, each.trace, each.world⟩ := by
  induction lines generalizing report w with
  | nil => exact congrArg (Ran.mk · [] w) (add_zero report).symm
  | cons line lines ih =>
    have hcount : i.countLine path number report line log w =
        let first := i.runLine path (number + report.lines + 1) line log w
        ⟨report + first.value, first.trace, first.world⟩ := by
      simp only [countLine, Action.bind_apply, Action.pure_apply, List.append_nil]
    have hnumber : number + (report + (i.runLine path (number + report.lines + 1) line log
        w).value).lines = number + report.lines + 1 := by
      rw [Report.lines_add, lines_runLine, Nat.add_assoc]
    rw [List.foldlM_cons, Action.bind_apply, hcount, runEach_cons]
    dsimp only
    rw [ih, hnumber, add_assoc]

/-! ## Readers -/

/-- A reader is run as its lines are read. -/
theorem runReader_of_reads {number : Nat} {w : World σ} {reader left : ρ} {lines : List Octets}
    {failure : Option Errno}
    (h : Reads (i.countLine path number) log w {} reader lines failure left) :
    let each := i.runEach path number lines log w
    i.runReader path reader number log w =
      ⟨(each.value.result path (number + lines.length) failure, left), each.trace, each.world⟩ := by
  have hfold : lines.foldlM (i.countLine path number) {} log w =
      i.runEach path number lines log w :=
    (i.foldlM_countLine path log number {} lines w).trans
      (congrArg (Ran.mk · _ _) (zero_add (i.runEach path number lines log w).value))
  rw [runReader, foldAll_of_reads h, hfold]
  dsimp only
  rw [lines_runEach]
  cases failure <;> rfl

/-- Of a feed, the lines before its first failure are run. -/
theorem runFeed_eq {feed : Feed} (h : feed.Uninterrupted) :
    i.runFeed path feed = (do
      let report ← i.runEach path 0 (Feed.linesBefore feed.readings)
      return ⟨report.result path (Feed.linesBefore feed.readings).length
        (Feed.failure? feed.readings), Feed.unreadBehind feed.readings⟩) := by
  funext log w
  obtain ⟨lines, failure, left, hreads⟩ := exists_reads (i.countLine path 0) log w {} feed
  obtain ⟨rfl, rfl, rfl, -⟩ := hreads.eq_of_readsAs (I := fun _ => True)
    (fun w _ => Feed.readsAs w.files) (fun _ _ _ _ => trivial) trivial ⟨rfl, h⟩
  rw [runFeed, Action.bind_apply, i.runReader_of_reads path log hreads, Nat.zero_add]
  rfl

theorem runFeed_eq_runEach (content : Octets) :
    i.runFeed path (Feed.ofOctets content) = (do
      let report ← i.runEach path 0 (Feed.linesRead content)
      return ⟨.ok report, []⟩) := by
  obtain ⟨hlines, hfailure, hunread⟩ := Feed.readings_ofOctets content
  rw [i.runFeed_eq path (Feed.uninterrupted_ofOctets content), hlines, hfailure, hunread]
  rfl

end Interpreter
end BootSequence
