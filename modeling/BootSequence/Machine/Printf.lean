import BootSequence.Machine.Echo

/-!
Printing arguments as a format says. The format is read once, into octets that stand for themselves
and directives that take an argument each; it is used again as long as arguments are left.
-/

namespace BootSequence
namespace Printf

/-- How one argument is printed: in a column of some width, filled on the left or on the right. -/
structure Directive where
  left : Bool
  zeros : Bool
  width : Nat
  limit : Option Nat
  kind : Char
  deriving DecidableEq, Repr

inductive Piece where
  | char (c : Char)
  | directive (d : Directive)
  /-- A directive that there is not: the output ends here. -/
  | invalid
  deriving DecidableEq, Repr

/-! ## Reading a format -/

inductive Mode where
  | plain
  | backslash
  | octal (left value : Nat)
  | flags (d : Directive)
  | width (d : Directive)
  | limit (d : Directive) (n : Nat)
  deriving DecidableEq, Repr

structure Reader where
  mode : Mode
  pieces : List Piece
  deriving DecidableEq, Repr

namespace Reader

def start : Reader := ⟨.plain, []⟩

def add (r : Reader) (p : Piece) : Reader := ⟨.plain, p :: r.pieces⟩

def plain (r : Reader) (c : Char) : Reader :=
  if c = '\x5C' then { r with mode := .backslash }
  else if c = '%' then { r with mode := .flags ⟨false, false, 0, none, '%'⟩ }
  else r.add (.char c)

def kinds : List Char := ['s', 'b', 'c', 'd', 'i', 'u', 'o', 'x', 'X']

def close (r : Reader) (d : Directive) (c : Char) : Reader :=
  r.add (if kinds.contains c then .directive { d with kind := c } else .invalid)

def behindFlags (r : Reader) (d : Directive) (c : Char) : Reader :=
  if c.isDigit then
    { r with mode := .width { d with width := 10 * d.width + digit c } }
  else if c = '.' then { r with mode := .limit d 0 }
  else r.close d c

def step (r : Reader) (c : Char) : Reader :=
  match r.mode with
  | .plain => r.plain c
  | .backslash =>
    if Echo.Escapes.isOctal c then { r with mode := .octal 2 (digit c) }
    else if c = '\x5C' then r.add (.char c)
    else
      match Echo.Escapes.letters.lookup c with
      | some n => r.add (.char (Char.ofNat n))
      | none => (r.add (.char '\x5C')).plain c
  | .octal 0 n => (r.add (.char (Char.ofNat (n % 256)))).plain c
  | .octal (left + 1) n =>
    if Echo.Escapes.isOctal c then { r with mode := .octal left (8 * n + digit c) }
    else (r.add (.char (Char.ofNat (n % 256)))).plain c
  | .flags d =>
    if c = '%' && d = ⟨false, false, 0, none, '%'⟩ then r.add (.char '%')
    else if c = '-' then { r with mode := .flags { d with left := true } }
    else if c = '0' then { r with mode := .flags { d with zeros := true } }
    else r.behindFlags d c
  | .width d => r.behindFlags d c
  | .limit d n =>
    if c.isDigit then { r with mode := .limit d (10 * n + digit c) }
    else r.close { d with limit := some n } c

def finish (r : Reader) : List Piece :=
  let last : Reader := match r.mode with
    | .plain => r
    | .backslash => r.add (.char '\x5C')
    | .octal _ n => r.add (.char (Char.ofNat (n % 256)))
    | _ => r.add .invalid
  last.pieces.reverse

end Reader

def pieces (format : List Char) : List Piece := (format.foldl Reader.step .start).finish

/-! ## Printing -/

def number (arg : List Char) : Int × Bool :=
  let signed := arg.head? = some '-'
  let body := if signed then arg.drop 1 else arg
  let digits := body.takeWhile Char.isDigit
  let n : Int := decimal digits
  (if signed then -n else n, arg.isEmpty || (!digits.isEmpty && digits.length = body.length))

def word (n : Int) : Nat := (n % 0x10000000000000000).toNat

/-- A number under a directive. A limit is the least number of digits here. -/
def digits (d : Directive) (n : Int) : List Char :=
  let text : List Char :=
    if d.kind = 'd' || d.kind = 'i' then Nat.toDigits 10 n.natAbs
    else if d.kind = 'o' then Nat.toDigits 8 (word n)
    else if d.kind = 'x' then Nat.toDigits 16 (word n)
    else if d.kind = 'X' then (Nat.toDigits 16 (word n)).map Char.toUpper
    else Nat.toDigits 10 (word n)
  let negative := (d.kind = 'd' || d.kind = 'i') && n < 0
  let sign := if negative then ['-'] else []
  let filled := if d.zeros && !d.left then d.width - sign.length else 0
  let least := d.limit.getD filled
  sign ++ List.replicate (least - text.length) '0' ++ text

def fill (d : Directive) (text : List Char) : List Char :=
  let spaces := List.replicate (d.width - text.length) ' '
  if d.left then text ++ spaces else spaces ++ text

structure Printer where
  written : List Char
  args : List Octets
  status : Nat
  ended : Bool
  deriving DecidableEq, Repr

namespace Printer

def write (p : Printer) (text : List Char) : Printer :=
  { p with written := text.reverse ++ p.written }

/-- Print one piece. An argument that is missing is empty. -/
def step (p : Printer) (piece : Piece) : Printer :=
  if p.ended then p
  else
    match piece with
    | .char c => p.write [c]
    | .invalid => { p with status := 2, ended := true }
    | .directive d =>
      let arg := (p.args.headD []).characters
      let q := { p with args := p.args.tail }
      let cut (text : List Char) : List Char := text.take (d.limit.getD text.length)
      match d.kind with
      | 's' => q.write (fill d (cut arg))
      | 'b' =>
        let read := Echo.escaped .start arg
        { q.write (fill d (cut read.written.reverse)) with ended := read.ended }
      | 'c' => q.write (fill d (arg.take 1))
      | _ =>
        let (n, sound) := number arg
        let r := q.write (fill d (digits d n))
        if sound then r else { r with status := 1 }

/-- Use the format once, and again as long as it takes arguments and there are any. -/
def all (format : List Piece) : Nat → Printer → Printer
  | 0, p => p
  | fuel + 1, p =>
    let q := format.foldl step p
    if q.ended || q.args.isEmpty || q.args.length = p.args.length then q else all format fuel q

end Printer

def run (args : List Octets) : Octets × Nat :=
  match if args.head? = some [45, 45] then args.tail else args with
  | [] => ([], 2)
  | format :: args =>
    let p := Printer.all (pieces format.characters) (args.length + 1) ⟨[], args, 0, false⟩
    (.ofCharacters p.written.reverse, p.status)

end Printf
end BootSequence
