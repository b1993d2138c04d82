/-!
The signals of the machine: their names, and which of them end a process that has not asked for
anything else.
-/

namespace BootSequence
namespace Signals

/-- The named signals, from 1 on. -/
def names : List String := [
  "HUP", "INT", "QUIT", "ILL", "TRAP", "ABRT", "BUS", "FPE", "KILL", "USR1", "SEGV", "USR2", "PIPE",
  "ALRM", "TERM", "STKFLT", "CHLD", "CONT", "STOP", "TSTP", "TTIN", "TTOU", "URG", "XCPU", "XFSZ",
  "VTALRM", "PROF", "WINCH", "IO", "PWR", "SYS"]

def last : Nat := 64

def name? (signal : Nat) : Option String :=
  if signal = 0 then none else names[signal - 1]?

def ofName? (name : String) : Option Nat := (names.idxOf? name).map (· + 1)

/-- Child, continue, urgent data and window size: a process takes no notice of them. The number 0
only asks whether the process is there. -/
def isHarmless (signal : Nat) : Bool := [0, 17, 18, 23, 28].contains signal

/-- What is typed to stop a program: interrupt and quit. -/
def typed : List Nat := [2, 3]

end Signals
end BootSequence
