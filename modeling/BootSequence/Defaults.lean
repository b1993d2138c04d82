import BootSequence.Path

/-!
Limits of the system and the values used where nothing else is given.
-/

namespace BootSequence

/-- The largest machine word, where counts stop. -/
def wordMax : Nat := 0xFFFFFFFFFFFFFFFF

def nameMax : Nat := 255

/-- The room for a whole path, with the octet that ends it. -/
def pathMax : Nat := 4096

/-- The exit code for a program that was not found, as a shell reports it. -/
def exitNotFound : Int := 127

def exitNotExecutable : Int := 126

/-- A test case that ends with this code has passed with warnings. -/
def testWarnCode : Int := 4

def mountPointMode : Nat := 0o755

namespace Defaults

def searchDir : Path := .ofString "/sbin"
def script : Path := .ofString "/etc/init.d/rcS"
def fstab : Path := .ofString "/etc/fstab"
def procDir : Path := .ofString "/proc"
def service : String := "procfs"
def maxArgs : Nat := 9
def testList : Path := .ofString "/opt/syscalls"
def caseDir : Path := .ofString "/testcases"

end Defaults
end BootSequence
