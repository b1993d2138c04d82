/-!
Numbers written in decimal digits.
-/

namespace BootSequence

def digit (c : Char) : Nat := c.toNat - '0'.toNat

/-- The number that digits make; none at all make 0. -/
def decimal (cs : List Char) : Nat := cs.foldl (fun n c => 10 * n + digit c) 0

def decimal? (cs : List Char) : Option Nat :=
  if cs.isEmpty || !cs.all Char.isDigit then none else some (decimal cs)

end BootSequence
