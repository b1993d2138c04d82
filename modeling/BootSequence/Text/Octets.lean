/-!
Text as the kernel sees it: a list of octets, with no promise that it is UTF-8. Paths, arguments
and file contents are octets; words that a program prints are strings.
-/

namespace BootSequence

abbrev Octets := List UInt8

namespace Octets

def newline : UInt8 := 10
def slash : UInt8 := 47
def nul : UInt8 := 0

/-- Byte order: at the first difference the smaller octet comes first, and a list comes before
every longer list that begins with it. -/
def le : Octets → Octets → Bool
  | [], _ => true
  | _ :: _, [] => false
  | a :: as, b :: bs => if a = b then le as bs else decide (a < b)

def join (separator : UInt8) (parts : List Octets) : Octets :=
  (parts.intersperse [separator]).flatten

/-- Lower case, two digits for each octet. -/
def hex (o : Octets) : String :=
  String.ofList (o.flatMap fun b => [Nat.digitChar (b.toNat / 16), Nat.digitChar (b.toNat % 16)])

/-- One character for each octet, so that text can be cut without knowing how it is encoded. -/
def characters (o : Octets) : List Char := o.map fun b => Char.ofNat b.toNat

def ofCharacters (cs : List Char) : Octets := cs.map fun c => c.toNat.toUInt8

end Octets
end BootSequence
