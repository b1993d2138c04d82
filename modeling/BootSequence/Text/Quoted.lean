import BootSequence.Text.Graphic
import BootSequence.Text.Utf8

/-!
Quoted text, as messages show text that may hold anything: inside double quotes, with a backslash
before what would end the quotes or be misread, and numbers for what cannot be seen.
-/

namespace BootSequence
namespace Quoted

def quote : Char := '\x22'
def backslash : Char := '\x5C'

/-- A character in lower-case hexadecimal, as short as possible, between braces. -/
def numbered (c : Char) : List Char :=
  [backslash, 'u', '\x7B'] ++ Nat.toDigits 16 c.toNat ++ ['\x7D']

def escape (c : Char) : List Char :=
  if c = quote || c = backslash then [backslash, c]
  else if c = '\n' then [backslash, 'n']
  else if c = '\r' then [backslash, 'r']
  else if c = '\t' then [backslash, 't']
  else if c.toNat = 0 then [backslash, '0']
  else if Graphic.isGraphic c then [c]
  else numbered c

/-- An octet that is part of no character: two upper-case digits. -/
def octet (b : UInt8) : List Char :=
  let digit (n : Nat) : Char := (Nat.digitChar n).toUpper
  [backslash, 'x', digit (b.toNat / 16), digit (b.toNat % 16)]

def piece : Utf8.Piece → List Char
  | .char c => escape c
  | .malformed o => o.flatMap octet

end Quoted

def quoteText (s : String) : String :=
  String.ofList (Quoted.quote :: s.toList.flatMap Quoted.escape ++ [Quoted.quote])

/-- Octets in quotes: their characters as in text, and each octet that is none by itself. -/
def quoteOctets (o : Octets) : String :=
  String.ofList (Quoted.quote :: (Utf8.scan o).flatMap Quoted.piece ++ [Quoted.quote])

end BootSequence
