import BootSequence.Defaults

/-!
How a child ends, and what a test case that ends so has shown.
-/

namespace BootSequence

/-- What a wait tells of a child, as a signed word. -/
abbrev WaitStatus := BitVec 32

namespace WaitStatus

/-- The low seven bits are 0 for a child that has exited. Its code is the octet above the lowest. -/
def exitCode? (status : WaitStatus) : Option (BitVec 32) :=
  if status &&& 0x7F = 0 then some (status.sshiftRight 8 &&& 0xFF) else none

/-- For a child that was killed they are the signal. They are all set for one that has only stopped
or gone on: one more than them is a negative octet. -/
def signal? (status : WaitStatus) : Option (BitVec 32) :=
  if 2 ≤ (((status &&& 0x7F) + 1).setWidth 8).toInt then some (status &&& 0x7F) else none

end WaitStatus

inductive Outcome where
  | exited (code : Int)
  | signaled (signal : Int)
  deriving DecidableEq, Repr

namespace Outcome

/-- One number for both, as a shell counts: a signal adds 128. -/
def code : Outcome → Int
  | exited code => code
  | signaled signal => 128 + signal

def success (o : Outcome) : Bool := o = .exited 0

def describe : Outcome → String
  | exited code => s!"exit code {code}"
  | signaled signal => s!"killed by signal {signal}"

/-- A child that has only stopped or gone on counts as an exit with the whole status as code. -/
def ofWaitStatus (status : WaitStatus) : Outcome :=
  match status.exitCode?, status.signal? with
  | some code, _ => .exited code.toInt
  | none, some signal => .signaled signal.toInt
  | none, none => .exited status.toInt

end Outcome

inductive Verdict where
  | passed
  | passedWithWarnings
  | failed (code : Int)
  | launchFailed
  deriving DecidableEq, Repr

namespace Verdict

def ofOutcome (o : Outcome) : Verdict :=
  if o.code = 0 then .passed
  else if o.code = testWarnCode then .passedWithWarnings
  else .failed o.code

def isPass : Verdict → Bool
  | passed | passedWithWarnings => true
  | failed _ | launchFailed => false

end Verdict
end BootSequence
