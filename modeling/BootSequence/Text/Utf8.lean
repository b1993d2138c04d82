import BootSequence.Text.Octets

/-!
UTF-8, read by a machine that looks at one octet at a time. Octets that are no part of a character
are cut into maximal malformed parts: the longest start of some character, or else one octet. Each
becomes one replacement character when text is wanted at any price (`lossy`), and makes the whole
no text when only text will do (`decode?`).
-/

namespace BootSequence
namespace Utf8

def encode (cs : List Char) : Octets := cs.flatMap String.utf8EncodeChar

inductive Piece where
  | char (c : Char)
  | malformed (octets : Octets)
  deriving DecidableEq, Repr

/-- A character of which some octets have been read: its bits so far, the range that the next octet
must lie in, how many follow that one, and the octets themselves. -/
structure Begun where
  bits : Nat
  low : UInt8
  high : UInt8
  after : Nat
  seen : Octets
  deriving DecidableEq, Repr

/-- The first octet fixes the length, and bars overlong forms, surrogates and numbers past the last
character through the range of the second. -/
def Begun.of? (b : UInt8) : Option Begun :=
  if 0xC2 ≤ b ∧ b ≤ 0xDF then some ⟨b.toNat - 0xC0, 0x80, 0xBF, 0, [b]⟩
  else if b = 0xE0 then some ⟨0x0, 0xA0, 0xBF, 1, [b]⟩
  else if b = 0xED then some ⟨0xD, 0x80, 0x9F, 1, [b]⟩
  else if 0xE1 ≤ b ∧ b ≤ 0xEF then some ⟨b.toNat - 0xE0, 0x80, 0xBF, 1, [b]⟩
  else if b = 0xF0 then some ⟨0x0, 0x90, 0xBF, 2, [b]⟩
  else if 0xF1 ≤ b ∧ b ≤ 0xF3 then some ⟨b.toNat - 0xF0, 0x80, 0xBF, 2, [b]⟩
  else if b = 0xF4 then some ⟨0x4, 0x80, 0x8F, 2, [b]⟩
  else none

/-- The machine: a character that has begun, if any, and the pieces found, newest first. -/
structure Scan where
  begun : Option Begun
  found : List Piece
  deriving DecidableEq, Repr

namespace Scan

def start : Scan := ⟨none, []⟩

def first (found : List Piece) (b : UInt8) : Scan :=
  if b < 0x80 then ⟨none, .char (Char.ofNat b.toNat) :: found⟩
  else match Begun.of? b with
    | some begun => ⟨some begun, found⟩
    | none => ⟨none, .malformed [b] :: found⟩

/-- An octet that cannot continue the character that has begun ends it as a malformed part and is
read afresh. -/
def step (s : Scan) (b : UInt8) : Scan :=
  match s.begun with
  | none => first s.found b
  | some p =>
    if p.low ≤ b ∧ b ≤ p.high then
      let bits := p.bits * 64 + b.toNat % 64
      match p.after with
      | 0 => ⟨none, .char (Char.ofNat bits) :: s.found⟩
      | n + 1 => ⟨some ⟨bits, 0x80, 0xBF, n, p.seen ++ [b]⟩, s.found⟩
    else first (.malformed p.seen :: s.found) b

def finish (s : Scan) : List Piece :=
  match s.begun with
  | none => s.found.reverse
  | some p => (.malformed p.seen :: s.found).reverse

end Scan

/-- Cut octets into characters and maximal malformed parts, in order. -/
def scan (o : Octets) : List Piece := (o.foldl Scan.step .start).finish

def replacement : Char := '\uFFFD'

def Piece.lossy : Piece → Char
  | .char c => c
  | .malformed _ => replacement

def Piece.char? : Piece → Option Char
  | .char c => some c
  | .malformed _ => none

def Piece.octets : Piece → Octets
  | .char c => String.utf8EncodeChar c
  | .malformed o => o

/-- Every malformed part reads as one replacement character. -/
def decodeLossy (o : Octets) : List Char := (scan o).map Piece.lossy

def decode? (o : Octets) : Option (List Char) := (scan o).mapM Piece.char?

end Utf8

namespace Octets

def ofString (s : String) : Octets := Utf8.encode s.toList

def lossy (o : Octets) : String := String.ofList (Utf8.decodeLossy o)

def text? (o : Octets) : Option String := (Utf8.decode? o).map String.ofList

end Octets

/-- The length of a text in UTF-8, which is what limits on names and paths count. -/
def octetLength (s : String) : Nat := (Octets.ofString s).length

end BootSequence
