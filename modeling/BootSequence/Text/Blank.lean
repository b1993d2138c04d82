import BootSequence.Text.Pieces

/-!
Two sets of blanks. Command lines separate words by space and tab alone; tables and lists of names
trim and separate at every character of the Unicode property White_Space.
-/

namespace BootSequence
namespace Blank

def isBlank (c : Char) : Bool := c = ' ' || c = '\t'

/-- White_Space: the property's twenty-five characters. -/
def isWhite (c : Char) : Bool :=
  let n := c.toNat
  (9 ≤ n && n ≤ 13) || n = 0x20 || n = 0x85 || n = 0xA0 || n = 0x1680 ||
    (0x2000 ≤ n && n ≤ 0x200A) || n = 0x2028 || n = 0x2029 || n = 0x202F || n = 0x205F || n = 0x3000

def trimStart (cs : List Char) : List Char := cs.dropWhile isWhite

def trimEnd (cs : List Char) : List Char := (cs.reverse.dropWhile isWhite).reverse

def trim (cs : List Char) : List Char := trimEnd (trimStart cs)

/-- The fields of a line: its maximal runs without white space. -/
def fields (cs : List Char) : List (List Char) := words isWhite cs

end Blank
end BootSequence
