import BootSequence.Text.Digits
import BootSequence.Text.Octets

/-!
Printing arguments, with one space between them and a newline at the end. Where escapes are read, a
backslash begins one: a letter for a control character, up to three octal digits, or `c`, which ends
the whole output at once.
-/

namespace BootSequence
namespace Echo

/-- How far an escape has been read: nothing of one, its backslash, or some octal digits, of which
`left` more may come. -/
inductive Reading where
  | plain
  | backslash
  | octal (left value : Nat)
  deriving DecidableEq, Repr

structure Escapes where
  reading : Reading
  written : List Char
  ended : Bool
  deriving DecidableEq, Repr

namespace Escapes

def start : Escapes := ⟨.plain, [], false⟩

def letters : List (Char × Nat) :=
  [('a', 7), ('b', 8), ('e', 27), ('f', 12), ('n', 10), ('r', 13), ('t', 9), ('v', 11)]

def isOctal (c : Char) : Bool := '0' ≤ c ∧ c ≤ '7'

def plain (e : Escapes) (c : Char) : Escapes :=
  if c = '\x5C' then { e with reading := .backslash }
  else { e with reading := .plain, written := c :: e.written }

def close (e : Escapes) : Escapes :=
  match e.reading with
  | .plain => e
  | .backslash => { e with reading := .plain, written := '\x5C' :: e.written }
  | .octal _ n => { e with reading := .plain, written := Char.ofNat (n % 256) :: e.written }

def step (e : Escapes) (c : Char) : Escapes :=
  if e.ended then e
  else
    match e.reading with
    | .plain => e.plain c
    | .backslash =>
      if c = 'c' then { e with reading := .plain, ended := true }
      else if c = '0' then { e with reading := .octal 3 0 }
      else if isOctal c then { e with reading := .octal 2 (digit c) }
      else if c = '\x5C' then { e with reading := .plain, written := c :: e.written }
      else
        match letters.lookup c with
        | some n => { e with reading := .plain, written := Char.ofNat n :: e.written }
        | none => { e with reading := .plain, written := c :: '\x5C' :: e.written }
    | .octal 0 _ => e.close.plain c
    | .octal (left + 1) n =>
      if isOctal c then { e with reading := .octal left (8 * n + digit c) } else e.close.plain c

end Escapes

def escaped (e : Escapes) (arg : List Char) : Escapes := (arg.foldl Escapes.step e).close

def joined (args : List Octets) : Octets := Octets.join 32 args

/-- Print as shells do: escapes are read, and a first argument `-n` leaves the newline out. -/
def withEscapes (args : List Octets) : Octets :=
  let quiet := args.head? = some [45, 110]
  let text := Octets.characters (joined (if quiet then args.tail else args))
  let read := escaped .start text
  let line := Octets.ofCharacters read.written.reverse
  if quiet || read.ended then line else line ++ [Octets.newline]

def option? (arg : Octets) : Option (List Char) :=
  match arg.characters with
  | '-' :: letters =>
    if !letters.isEmpty && letters.all ['n', 'e', 'E'].contains then some letters else none
  | _ => none

/-- Print as the program of that name does: options come first, and escapes are read only if the
last letter that says so is `e`. -/
def plain (args : List Octets) : Octets :=
  let options := ((args.takeWhile fun a => (option? a).isSome).filterMap option?).flatten
  let words := args.dropWhile fun a => (option? a).isSome
  let quiet := options.contains 'n'
  if (options.filter (· ≠ 'n')).getLast? = some 'e' then
    withEscapes (if quiet then [45, 110] :: words else words)
  else if quiet then joined words
  else joined words ++ [Octets.newline]

end Echo
end BootSequence
