import BootSequence.Machine.Shell.Run

/-!
Taking turns. Of all processes that can go on, the one that could do so first does one thing, and of
several the oldest; the clock follows. Only waiting takes time.
-/

namespace BootSequence
namespace Machine

/-- From when on a process can go on, if that can be said already. What it waits for may have come
about at any time. -/
def due? (m : Machine) (p : Process) : Option Nat :=
  match p.wake with
  | .time t => some t
  | .ended pids => if pids.all m.hasEnded then some 0 else none
  | .closed n => if m.isWritten n then none else some 0

def next? (m : Machine) : Option (Nat × Process) :=
  (m.running.filterMap fun p => (m.due? p).map fun t => (t, p)).foldl
    (fun best x =>
      match best with
      | some b => if x.1 < b.1 then some x else best
      | none => some x)
    none

def turn (m : Machine) (time : Nat) (p : Process) : Machine :=
  let clock := max m.clock time
  let m := { m with clock := clock }
  let st := (Shell.advance.run ⟨{ p with wake := .time clock }, m⟩).2
  match st.process.ended with
  | some outcome => st.machine.conclude st.process outcome
  | none => st.machine.update st.process

/-- How many things are done at most until somebody stops waiting for them. -/
def maxTurns : Nat := 0x1000000

def runUntil (holds : Machine → Bool) : Nat → Machine → Machine
  | 0, m => m
  | turns + 1, m =>
    if holds m then m
    else
      match m.next? with
      | some (time, p) => runUntil holds turns (m.turn time p)
      | none => m

def isIdleUntil (time : Nat) (m : Machine) : Bool := m.next?.all fun x => time < x.1

/-- How long it takes until the end of a program has been noticed. -/
def noticeTime : Nat := 300

/-- Let a program run to its end, and what is due while that is noticed. One that does not end is
killed. -/
def runToEnd (m : Machine) (pid : Nat) : Outcome × Machine :=
  let last := m.runUntil (·.hasEnded pid) maxTurns
  let time := last.clock + noticeTime
  let later := last.runUntil (isIdleUntil time) maxTurns
  let outcome := (last.ended.lookup pid).getD (.signaled 9)
  (outcome, { later.forget pid with clock := max time later.clock })

def settle (m : Machine) : Machine := m.runUntil (!·.isHeard) maxTurns

/-- Start a program, as the child of nobody here. -/
def launch (m : Machine) (image : Image) (vars : List (Octets × Octets)) : Nat × Machine :=
  let pid := m.nextPid
  let p : Process := {
    pid := pid
    scope := ⟨image.argv.headD [], [], vars, vars.map (·.1), 0, pid, none⟩
    argv := image.argv
    descriptors := ⟨Children.nothing, .console, .complaints⟩
    inLoop := false
    ignored := []
    children := []
    known := []
    work := [.program image.program]
    wake := .time (m.clock + Shell.loadTime)
    ended := none }
  (pid, { m with nextPid := pid + 1, running := m.running ++ [p] })

/-- Wait for orphans until there is none left, and say in which order they were found to have ended:
of several the one that has been an orphan for longest. -/
def reapAll : Nat → Machine → List Released × Machine
  | 0, m => ([], m)
  | rounds + 1, m =>
    let last := m.runUntil (fun m => m.orphans.isEmpty || m.orphans.any m.hasEnded) maxTurns
    match last.orphans.find? last.hasEnded with
    | none => ([], last)
    | some pid =>
      let code := match last.ended.lookup pid with
        | some (.exited code) => some code
        | _ => none
      let (rest, after) := reapAll rounds (last.forget pid)
      (⟨pid, code⟩ :: rest, after)

end Machine
end BootSequence
